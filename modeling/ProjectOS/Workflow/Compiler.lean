import ProjectOS.Architecture.Bindings
import ProjectOS.Base.Levels
import ProjectOS.Orchestration.Plan
import ProjectOS.Workflow.FileUnits

/-! The compiler from an implementation contract to an execution plan. -/
namespace ProjectOS.Workflow
open Base Artifact Orchestration Architecture

namespace ImplementationContractCompiler

def normalizeProvidedSymbols (unit : UnitFields) : List String :=
  dedupe ((unit.providedSymbols.map Text.strip).filter fun value =>
    value ∉ unit.providesInterfaces ++ unit.consumesInterfaces && concreteSymbol value)

/-- The physical partition of a unit that names none. -/
def inferSlot (paths : List String) (layer unitId : String) : String :=
  let normalized := paths.map workspaceRelative
  let normalizedLayer := Text.lower (Text.strip layer)
  let normalizedId := Text.lower (Text.strip unitId)
  match normalized.find? fun path =>
      Text.startswith path "backend/" || Text.startswith path "frontend/" with
  | some path => if Text.startswith path "backend/" then "backend" else "frontend"
  | none =>
      if normalizedLayer ∈ ["tests", "test", "delivery", "scripts", "config"] then "root"
      else if normalized.any (Text.startswith · "app/") then "backend"
      else if ["frontend", "web"].any fun token =>
          Text.contains normalizedLayer token || Text.contains normalizedId token then "frontend"
      else "root"

def slotOf (unit : UnitFields) : String :=
  Text.orElse unit.slot (inferSlot unit.allowedPaths unit.layer unit.unitId)

def normalizePath (slot path : String) : String :=
  let value := workspaceRelative path
  if slot = "backend" && Text.startswith value "app/" then "backend/" ++ value
  else if slot = "frontend" && Text.startswith value "app/" then "frontend/" ++ value
  else value

def normalizePaths (paths : List String) (slot : String) : List String :=
  dedupe (paths.map (normalizePath slot))

def isControlPlaneForbiddenPath (path : String) : Bool :=
  stripTrailingSlashes (stripLeadingSlashes (forwardSlashes path)) ∈
    ["workspace", "workspace/*", "workspace/**", ".projectos", ".projectos/*", ".projectos/**"]

def projectForbiddenPaths (paths : List String) (slot : String) : List String :=
  normalizePaths (paths.filter fun path => !isControlPlaneForbiddenPath path) slot

/-- The planning documents; later evidence is not the document unit's to write. -/
def planningDocuments : List String :=
  ["requirement.md", "architecture.md", "architecture_contract.md", "tasks.md"]

def requiredPathsOf (unit : UnitFields) : List String :=
  let required := normalizePaths unit.requiredPaths (slotOf unit)
  if unit.unitId = "project-documents" then required.filter (· ∈ planningDocuments) else required

def withEntry (paths : List String) (entry : String) : List String :=
  if entry ∈ paths then paths else paths ++ [entry]

/-- The backend entrypoint, where it is a file of this interface unit. -/
def backendEntry (entrypoints : EntrypointContract) (unit : UnitFields) : List String :=
  let allowed := normalizePaths unit.allowedPaths (slotOf unit)
  let backendOriented := unit.unitId ∈ ["backend-api", "backend-interfaces"] ||
    allowed.any fun path => Text.contains (Text.removePrefix path "workspace/") "backend/"
  let entry := Text.orElse entrypoints.backendFile "backend/app/main.py"
  if Text.lower (Text.strip unit.layer) ∈ ["api", "interface", "interfaces"] && backendOriented &&
      entry ∈ unit.ownedFiles then [entry] else []

def frontendEntry (entrypoints : EntrypointContract) (unit : UnitFields) : List String :=
  let entry := entrypoints.frontendFile.getD ""
  if (Text.lower (Text.strip unit.layer) ∈ ["frontend", "web", "interface"] ||
        Text.contains (Text.lower unit.unitId) "frontend") &&
      entry != "" && entry ∈ unit.ownedFiles then [entry] else []

/-- Entrypoints a unit owns are granted and required whatever its paths say. -/
def entriesOf (entrypoints : EntrypointContract) (unit : UnitFields) : List String :=
  backendEntry entrypoints unit ++ frontendEntry entrypoints unit

def allowedPathsOf (entrypoints : EntrypointContract) (unit : UnitFields) : List String :=
  (entriesOf entrypoints unit).foldl withEntry (normalizePaths unit.allowedPaths (slotOf unit))

def artifactRef (value : String) : Result ArtifactRef :=
  let text := Text.strip value
  match Text.split ':' text with
  | ["staged", traceId, workItemId, slot] =>
      ArtifactRef.staged "architecture" traceId workItemId slot
  | ["published", key, revision] =>
      ArtifactRef.published key (if revision = "current" then none else some revision)
  | _ =>
      if ["todo-architecture-", "architecture-module-"].any (Text.startswith (Text.lower text) ·) then
        ArtifactRef.published "architecture"
      else ArtifactRef.published text

/-- A compiled id that reads as the unit or a child of it. -/
def spelledFrom (ownerId unitId : String) : Bool :=
  unitId = ownerId || Text.startswith unitId (ownerId ++ "-")

/-- The first unit of the contract an id reads as a child of. -/
def origin (contract : ImplementationContract) (unitId : String) : String :=
  (contract.unitIds.find? (spelledFrom · unitId)).getD unitId

/-- The units of a contract that are compiled. -/
def implementationUnits (contract : ImplementationContract) : List ImplementationUnit :=
  contract.units.filter fun unit => !isReviewArtifactUnit unit.toUnitFields

def useSemanticUnits (contract : ImplementationContract) (semanticUnits : Option Bool) : Bool :=
  semanticUnits.getD (contract.compilationStrategy = "semantic")

def compiledUnits (contract : ImplementationContract) (semanticUnits : Option Bool) :
    Result (List ImplementationUnit) :=
  if useSemanticUnits contract semanticUnits then .ok (implementationUnits contract)
  else splitFileUnits (implementationUnits contract)

end ImplementationContractCompiler

/-- What the nested functions of `compile` share. -/
structure Compilation where
  contract : ImplementationContract
  units : List ImplementationUnit

namespace Compilation
open ImplementationContractCompiler
variable (c : Compilation)

def workItemId (unitId : String) : String := "wi-code-" ++ unitId

def unitIds : List String := c.units.map (·.unitId)

def ids : Dict String String := .ofList (c.units.map fun unit => (unit.unitId, workItemId unit.unitId))

def unitsById : Dict String ImplementationUnit :=
  .ofList (c.units.map fun unit => (unit.unitId, unit))

def interfacesById : Dict String InterfaceContract :=
  .ofList (c.contract.interfaces.map fun interface => (interface.interfaceId, interface))

def interfaces (interfaceIds : List String) : List InterfaceContract :=
  interfaceIds.filterMap c.interfacesById.get?

/-- The names an owned file exports through the interfaces that name it. -/
def ownerFileSymbols (candidate : UnitFields) (path : String) : List String :=
  dedupe ((c.interfaces candidate.providesInterfaces).flatMap fun interface =>
    match interface.ownerFile with
    | some file =>
        if file != "" &&
            Text.removePrefix file "workspace/" = Text.removePrefix path "workspace/" then
          normalizePythonSymbols [interface.name] else []
    | none => [])

def providedBindings (candidate : UnitFields) : List Architecture.Binding :=
  let pythonFiles := candidate.ownedFiles.filter fun path => (pythonModuleForPath path).isSome
  candidate.ownedFiles.filterMap fun path =>
    canonicalBinding candidate.unitId path
      (if pythonFiles.length = 1 then normalizeProvidedSymbols candidate
      else if 1 < pythonFiles.length then c.ownerFileSymbols candidate path
      else [])

def providedBindingsByUnit : Dict String (List Architecture.Binding) :=
  .ofList (c.units.map fun unit => (unit.unitId, c.providedBindings unit.toUnitFields))

def bindingsOf (unitId : String) : List Architecture.Binding := (c.providedBindingsByUnit.get? unitId).getD []

def requiredBindings (unit : UnitFields) : List Json :=
  let declared := (unit.dependsOn.flatMap c.bindingsOf).map fun binding =>
    ([("source", .str "depends_on"), ("consumption", .str "import_code")], binding)
  let consumed :=
    if unit.ownedFiles.any fun path => (pythonModuleForPath path).isSome then
      (c.interfaces unit.consumesInterfaces).flatMap fun interface =>
        if interface.kind = "api" then []
        else (c.bindingsOf interface.ownerUnit).map fun binding =>
          ([("source", .str "consumes_interface"),
            ("consumes_interface", .str interface.interfaceId),
            ("consumption", .str "import_code")], binding)
    else []
  (uniqueBy (fun e => (e.2.unitId, e.2.ownedFile, e.2.module)) (declared ++ consumed)).map fun e =>
    .obj (e.1 ++ e.2.fields)

/-- Routes are passed to consumers of an api without becoming imports. -/
def requiredHttpInterfaces (unit : UnitFields) : List Json :=
  ((c.interfaces unit.consumesInterfaces).filter (·.kind = "api")).map fun interface => .obj [
    ("interface_id", .str interface.interfaceId),
    ("owner_unit", .str interface.ownerUnit),
    ("owner_file", .optStr interface.ownerFile),
    ("operations", .arr (interface.operations.map (·.asDict))),
    ("consumption", .str "http_call")]

def deliveryContract (unit : UnitFields) : List (String × Json) := [
  ("compilation_strategy", .str c.contract.compilationStrategy),
  ("entrypoints", c.contract.entrypoints.asDict),
  ("required_files", .strs c.contract.requiredFiles),
  ("interfaces", .arr
    ((c.interfaces (unit.providesInterfaces ++ unit.consumesInterfaces)).map (·.asDict))),
  ("provided_symbols", .strs (normalizeProvidedSymbols unit)),
  ("required_symbols", .strs unit.requiredSymbols),
  ("provides_interfaces", .strs unit.providesInterfaces),
  ("consumes_interfaces", .strs unit.consumesInterfaces),
  ("binding_schema_version", .int 1),
  ("provided_bindings", .arr ((c.bindingsOf unit.unitId).map fun binding => .obj binding.fields)),
  ("required_bindings", .arr (c.requiredBindings unit)),
  ("required_http_interfaces", .arr (c.requiredHttpInterfaces unit))]

def originalChildren (ownerId : String) : List String :=
  let matching := c.unitIds.filter (spelledFrom ownerId)
  if ownerId ∈ c.contract.unitIds && !matching.isEmpty then matching else [ownerId]

def interfaceDependencies (unit : UnitFields) : List String :=
  dedupe ((c.interfaces unit.consumesInterfaces).flatMap fun interface =>
    if interface.ownerUnit ≠ origin c.contract unit.unitId then c.originalChildren interface.ownerUnit
    else [])

def declaredDependencies (unit : UnitFields) : List String :=
  dedupe (unit.dependsOn ++ c.interfaceDependencies unit)

/-- The wave hint and the dependencies of a compiled unit. -/
def waveNodes : Levels.Nodes String := fun unitId =>
  (c.unitsById.get? unitId).map fun unit =>
    ((unit.wave.getD 0).toNat, c.declaredDependencies unit.toUnitFields)

def waveFuel : Nat := c.units.length + 1

/-- `wave_for` on every unit. The fuel never runs out. -/
def inferWaves : Result (Dict String Nat) :=
  match Levels.levels c.waveNodes c.waveFuel ∅ c.unitIds with
  | .ok waves => .ok waves
  | .error (.unknown unitId) => .error (.keyError unitId)
  | .error _ => raise "Implementation Contract 存在循环 Wave 依赖"

def waveOf (waves : Dict String Nat) (unitId : String) : Nat := (waves.get? unitId).getD 0

def dependency (ruleId unitId : String) : Result WorkItemDependency := do
  let id ← subscript c.ids unitId
  WorkItemDependency.create { workItemId := id, source := .system, ruleId := some ruleId }

/-- A unit of a smaller wave that the unit does not declare as a dependency. -/
def inBarrier (waves : Dict String Nat) (unit previous : UnitFields) : Bool :=
  waveOf waves previous.unitId < waveOf waves unit.unitId && previous.unitId ∉ unit.dependsOn

def dependencies (waves : Dict String Nat) (unit : UnitFields) : Result (List WorkItemDependency) := do
  let declared ← collect (c.dependency "implementation-contract") (c.declaredDependencies unit)
  let barrier ← collect (fun previous : ImplementationUnit =>
      c.dependency "implementation-wave-barrier" previous.unitId)
    (c.units.filter fun previous => inBarrier waves unit previous.toUnitFields)
  .ok (uniqueBy (·.workItemId) (declared ++ barrier))

def dependencyRef (trace : TraceContext) (unitId : String) : Result ArtifactRef := do
  let id ← subscript c.ids unitId
  let unit ← subscript c.unitsById unitId
  ArtifactRef.staged "implementation" trace.traceId id (slotOf unit.toUnitFields)

/-- The work item of a unit, given its dependencies and input references. -/
def itemFields (waves : Dict String Nat) (unit : UnitFields) (deps : List WorkItemDependency)
    (refs : List ArtifactRef) : WorkItemFields where
  id := workItemId unit.unitId
  agentId := "code_agent"
  objective := unit.objective
  outputKey := Text.orElse unit.outputKey ("implementation_" ++ unit.unitId)
  artifactKey := some "implementation"
  dependencies := deps
  acceptanceCriteria := unit.acceptanceCriteria
  constraints := unit.constraints
  nonGoals := unit.nonGoals
  executionMode := .partitioned
  inputRefs := refs
  slot := some (slotOf unit)
  implementationUnitId := some unit.unitId
  allowedPaths := allowedPathsOf c.contract.entrypoints unit
  forbiddenPaths := projectForbiddenPaths unit.forbiddenPaths (slotOf unit)
  requiredPaths := (entriesOf c.contract.entrypoints unit).foldl withEntry (requiredPathsOf unit)
  policyRefs := unit.policyRefs
  skillRefs := unit.skillRefs
  requirementIds := unit.requirementIds
  wave := waveOf waves unit.unitId
  ownedFiles := unit.ownedFiles
  deliveryContract := some (c.deliveryContract unit)

def workItem (trace : TraceContext) (waves : Dict String Nat) (unit : ImplementationUnit) :
    Result WorkItem := do
  let deps ← c.dependencies waves unit.toUnitFields
  let dependencyRefs ← collect (c.dependencyRef trace) (c.declaredDependencies unit.toUnitFields)
  let inputRefs ← collect artifactRef unit.inputRefs
  WorkItem.create (c.itemFields waves unit.toUnitFields deps (inputRefs ++ dependencyRefs))

def workItems (trace : TraceContext) : Result (List WorkItem) := do
  let waves ← c.inferWaves
  collect (c.workItem trace waves) c.units

end Compilation

namespace ImplementationContractCompiler

/-- The work items of a contract, before the plan around them is checked. -/
def compileItems (contract : ImplementationContract) (trace : TraceContext)
    (semanticUnits : Option Bool := none) : Result (List WorkItem) := do
  let units ← compiledUnits contract semanticUnits
  Compilation.workItems ⟨contract, units⟩ trace

/-- `ImplementationContractCompiler.compile`. -/
def compile (contract : ImplementationContract) (goal planId : String) (trace : TraceContext)
    (semanticUnits : Option Bool := none) : Result ExecutionPlan := do
  let items ← compileItems contract trace semanticUnits
  ExecutionPlan.create {
    id := planId
    goal := goal
    workItems := items
    templateId := some "implementation-contract"
    trace := trace }

end ImplementationContractCompiler
end ProjectOS.Workflow
