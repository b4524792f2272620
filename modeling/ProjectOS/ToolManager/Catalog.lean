import ProjectOS.ToolManager.AccessPolicy

/-! The catalog of the tool gateway: the sources of a project and the tools that they have
been found to offer. -/
namespace ProjectOS.ToolManager
open Base

structure ToolDef where
  name : String
  description : String
  parameters : List (String × Json)
  executionModes : Option (List String) := none
  completionPolicy : String := "continue"

namespace ToolCatalog

/-- A source with the context it was registered in. -/
structure SourceRegistration where
  domain : String
  capability : String
  toolset : String
  sourceName : String
  isDynamic : Bool
  exposure : ToolExposure

/-- A tool, and the record of its source. -/
structure Registration extends SourceRegistration where
  definition : ToolDef

/-- What a call raises. -/
inductive Failure where
  | valueError (message : String)
  | discovery (sourceName message : String)
  | other (message : String)

/-- What the source of a domain and a name answers when it is asked for its tools. -/
abbrev Discovery := Except Failure (List ToolDef)

def SourceRegistration.key (record : SourceRegistration) : String × String :=
  (record.domain, record.sourceName)

def Registration.key (registration : Registration) : String × String :=
  (registration.domain, registration.definition.name)

def Registration.sourceKey (registration : Registration) : String × String :=
  registration.toSourceRegistration.key

end ToolCatalog

open ToolCatalog

structure ToolCatalog where
  sources : Dict (String × String) SourceRegistration := ∅
  staticTools : Dict (String × String) Registration := ∅
  dynamicTools : Dict (String × String) Registration := ∅

namespace ToolCatalog

/-- `_all_tools`. -/
def allTools (c : ToolCatalog) : Dict (String × String) Registration :=
  c.dynamicTools.entries.foldl (fun tools entry => tools.set entry.1 entry.2) c.staticTools

/-- `target[key] = registration`, in the tools of the kind of its source. -/
def put (c : ToolCatalog) (registration : Registration) : ToolCatalog :=
  if registration.isDynamic then
    { c with dynamicTools := c.dynamicTools.set registration.key registration }
  else { c with staticTools := c.staticTools.set registration.key registration }

/-- Another source holds the name. -/
def taken (c : ToolCatalog) (record : SourceRegistration) (name : String) : Bool :=
  (c.allTools.get? (record.domain, name)).any (·.sourceName ≠ record.sourceName)

def clash (c : ToolCatalog) (record : SourceRegistration) (name : String) : Failure :=
  .valueError ("domain '" ++ record.domain ++ "' 下的工具名称冲突: '" ++ name ++ "' 同时来自 '" ++
    ((c.allTools.get? (record.domain, name)).elim "" (·.sourceName)) ++ "' 和 '" ++
    record.sourceName ++ "'")

/-- `_register_discovered`: the result of the call, and the catalog that it leaves. -/
def registerDiscovered (c : ToolCatalog) (record : SourceRegistration) :
    List ToolDef → Except Failure Unit × ToolCatalog
  | [] => (.ok (), c)
  | definition :: rest =>
      if c.taken record definition.name then (.error (c.clash record definition.name), c)
      else (c.put ⟨record, definition⟩).registerDiscovered record rest

def registerSource (c : ToolCatalog) (record : SourceRegistration) (discovered : Discovery) :
    Except Failure Unit × ToolCatalog :=
  if (c.sources.get? record.key).isSome then
    (.error (.valueError ("来源 '" ++ record.sourceName ++ "' 已注册到 domain '" ++ record.domain ++
      "'")), c)
  else
    let c := { c with sources := c.sources.set record.key record }
    if record.isDynamic then (.ok (), c)
    else
      match discovered with
      | .error failure => (.error failure, c)
      | .ok definitions => c.registerDiscovered record definitions

/-- `_remove_source_tools`. -/
def removeSourceTools (c : ToolCatalog) (record : SourceRegistration) : ToolCatalog :=
  { c with dynamicTools := c.dynamicTools.filter fun _ registration =>
      !(registration.domain = record.domain && registration.sourceName = record.sourceName) }

/-- `raise ToolDiscoveryError(source_name, error) from error`, but one stays as it is. -/
def wrapped (record : SourceRegistration) : Failure → Failure
  | .discovery sourceName message => .discovery sourceName message
  | .valueError message => .discovery record.sourceName message
  | .other message => .discovery record.sourceName message

def refreshSources (discover : String × String → Discovery) :
    List SourceRegistration → ToolCatalog → Except Failure Unit × ToolCatalog
  | [], c => (.ok (), c)
  | record :: rest, c =>
      match discover record.key with
      | .error failure => (.error (wrapped record failure), c)
      | .ok definitions =>
          match (c.removeSourceTools record).registerDiscovered record definitions with
          | (.error failure, c) => (.error (wrapped record failure), c)
          | (.ok (), c) => refreshSources discover rest c

/-- The authorised dynamic sources of a domain. -/
def refreshed (c : ToolCatalog) (domain : String) (names : List String) :
    List SourceRegistration :=
  (c.sources.entries.filter fun entry =>
    entry.1.1 = domain && entry.2.sourceName ∈ names && entry.2.isDynamic).map Prod.snd

/-- `list_registrations`. -/
def listRegistrations (c : ToolCatalog) (domain : String) (names : List String)
    (discover : String × String → Discovery) : Except Failure (List Registration) × ToolCatalog :=
  match refreshSources discover (c.refreshed domain names) c with
  | (.error failure, c) => (.error failure, c)
  | (.ok (), c) =>
      (.ok ((c.allTools.entries.filter fun entry => entry.1.1 = domain).map Prod.snd), c)

/-- A call with what the sources answer during it. -/
inductive Call where
  | register (record : SourceRegistration) (discovered : Discovery)
  | list (domain : String) (names : List String) (discover : String × String → Discovery)

/-- The result of a call, and the catalog after it. -/
def run (c : ToolCatalog) : Call → Except Failure (List Registration) × ToolCatalog
  | .register record discovered =>
      ((c.registerSource record discovered).1.map fun _ => [], (c.registerSource record discovered).2)
  | .list domain names discover => c.listRegistrations domain names discover

def after (calls : List Call) : ToolCatalog := calls.foldl (fun c call => (c.run call).2) {}

/-- The last definition of each name, as registered for a source. -/
def named (record : SourceRegistration) (definitions : List ToolDef) (key : String × String) :
    Option Registration :=
  (definitions.map fun definition => (⟨record, definition⟩ : Registration)).reverse.find?
    (·.key = key)

/-- The dynamic tools of a source. -/
def ownTools (c : ToolCatalog) (record : SourceRegistration) (key : String × String) :
    Option Registration :=
  (c.dynamicTools.get? key).filter (·.sourceKey = record.key)

/-- The dynamic tools of a source are those of its answer. -/
def Lists (c : ToolCatalog) (record : SourceRegistration) (definitions : List ToolDef) : Prop :=
  ∀ key, c.ownTools record key = named record definitions key

/-- One source a tool: a name is registered once, for a source that the catalog has. -/
structure Unique (c : ToolCatalog) : Prop where
  registered : ∀ key registration, c.staticTools.get? key = some registration ∨
    c.dynamicTools.get? key = some registration →
      registration.key = key ∧
        c.sources.get? registration.sourceKey = some registration.toSourceRegistration
  once : ∀ key, c.staticTools.get? key = none ∨ c.dynamicTools.get? key = none

/-- The same sources and the same registrations. -/
structure Unchanged (c c' : ToolCatalog) : Prop where
  sources : ∀ key, c'.sources.get? key = c.sources.get? key
  staticTools : ∀ key, c'.staticTools.get? key = c.staticTools.get? key
  dynamicTools : ∀ key, c'.dynamicTools.get? key = c.dynamicTools.get? key

/-- After a refresh that does not raise, the dynamic tools of the refreshed sources are those
of the answers. -/
def Fresh (c c' : ToolCatalog) : Call → Prop
  | .register _ _ => True
  | .list domain names discover => ∀ record ∈ c.refreshed domain names,
      ∃ definitions, discover record.key = .ok definitions ∧ c'.Lists record definitions

/-- What a call has to keep. -/
structure Kept (c : ToolCatalog) (call : Call) : Prop where
  unique : (c.run call).2.Unique
  unchanged : ∀ failure, (c.run call).1 = .error failure → Unchanged c (c.run call).2
  fresh : ∀ listed, (c.run call).1 = .ok listed → Fresh c (c.run call).2 call

/-- Sources with the answers they have given, refreshed one after the other. -/
abbrev Refreshes := List (SourceRegistration × List ToolDef)

/-- After these refreshes of the catalog another source than this one holds the name: one
that was not refreshed and held it before, or one that was refreshed and lists it. -/
def Holds (c : ToolCatalog) (done : Refreshes) (record : SourceRegistration) (name : String) :
    Prop :=
  (∃ registration, c.allTools.get? (record.domain, name) = some registration ∧
    registration.sourceKey ≠ record.key ∧
      registration.sourceKey ∉ done.map fun entry => entry.1.key) ∨
    ∃ entry ∈ done, ∃ definition ∈ entry.2, definition.name = name

/-- The sources have been refreshed one after the other, and none listed a name that another
one held. -/
inductive Walk (c : ToolCatalog) (discover : String × String → Discovery) : Refreshes → Prop where
  | start : Walk c discover []
  | next {done : Refreshes} {record : SourceRegistration} {definitions : List ToolDef}
      (walk : Walk c discover done) (answer : discover record.key = .ok definitions)
      (free : ∀ definition ∈ definitions, ¬ c.Holds done record definition.name) :
      Walk c discover (done ++ [(record, definitions)])

/-- A refresh that fails at this source has found the sources before it as the catalog has
them; and a source that fails for a name had listed before that name just its tools. -/
def KeepsAt (c : ToolCatalog) (discover : String × String → Discovery) (done : Refreshes)
    (record : SourceRegistration) : Prop :=
  (∀ failure, discover record.key = .error failure → ∀ entry ∈ done, c.Lists entry.1 entry.2) ∧
    ∀ front definition back, discover record.key = .ok (front ++ definition :: back) →
      (∀ earlier ∈ front, ¬ c.Holds done record earlier.name) →
        c.Holds done record definition.name →
          ∀ entry ∈ done ++ [(record, front)], c.Lists entry.1 entry.2

/-- A call that leaves the catalog as it was where it raises: a new static source answers with
names that are free, and a refresh fails only before it has changed anything. -/
def Orderly (c : ToolCatalog) : Call → Prop
  | .register record discovered =>
      (c.sources.get? record.key).isSome = true ∨ record.isDynamic = true ∨
        ∃ definitions, discovered = .ok definitions ∧
          ∀ definition ∈ definitions, c.taken record definition.name = false
  | .list domain names discover =>
      ∀ done record rest, c.refreshed domain names = done.map Prod.fst ++ record :: rest →
        Walk c discover done → KeepsAt c discover done record

end ToolCatalog

end ProjectOS.ToolManager
