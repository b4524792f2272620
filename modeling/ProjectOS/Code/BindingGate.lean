import ProjectOS.Architecture.Bindings
import ProjectOS.Architecture.ImplementationContract
import ProjectOS.Base.PurePath

/-! The binding gate of an integration on `from M import s`. The modules of the
owned files are kept in one table; a relative import is resolved from the module
name of its file, which has lost whether the file is a package. -/
namespace ProjectOS.Code
open Base Architecture

/-- A statement of a module body, as far as it binds names. An assignment lists
its targets, none where a target is no plain name. -/
inductive TopLevel where
  | definition (name : String)
  | assign (targets : List (Option String))
  | importNames (names : List (String × Option String))
  | importFrom (names : List (String × Option String))
  | other
deriving DecidableEq

structure FromImport where
  level : Nat
  module : List String
  names : List String
deriving DecidableEq

/-- A parsed file: its body and its from-imports in the order of the walk. -/
structure Syntax where
  body : List TopLevel := []
  imports : List FromImport := []
deriving DecidableEq

structure PyFile where
  path : List String
  parsed : Option Syntax := some {}
deriving DecidableEq

/-- `python_symbols_in_source`. -/
def exportedSymbols (body : List TopLevel) : List String :=
  let bound (names : List (String × Option String)) : List String :=
    (names.filter fun name => name.1 ≠ "*").map fun name =>
      Text.orElse name.2 ((Text.split '.' name.1).headD "")
  body.flatMap fun
    | .definition name => [name]
    | .assign targets => targets.filterMap id
    | .importNames names => bound names
    | .importFrom names => bound names
    | .other => []

/-- An entry of the module table. -/
structure OwnerBinding where
  unitId : String
  ownedFile : String
  symbols : List String
deriving DecidableEq

def pythonFiles (unit : UnitFields) : List String :=
  unit.ownedFiles.filter fun path => (pythonModuleForPath path).isSome

def ownerBinding (unit : UnitFields) (path : String) : OwnerBinding := {
  unitId := unit.unitId
  ownedFile := Text.removePrefix path "workspace/"
  symbols :=
    if (pythonFiles unit).length = 1 then normalizePythonSymbols unit.providedSymbols else [] }

/-- The owned Python files with their modules, in the order of the contract. -/
def ownedModules (contract : ContractFields) : List (String × OwnerBinding) :=
  contract.units.flatMap fun unit =>
    (pythonFiles unit.toUnitFields).filterMap fun path =>
      (pythonModuleForPath path).map fun module => (module, ownerBinding unit.toUnitFields path)

/-- The module table; a later file takes the place of an earlier one. -/
def moduleTable (contract : ContractFields) : Dict String OwnerBinding :=
  .ofList (ownedModules contract)

inductive BindingProblem where
  | wildcard
  | undeclared (symbols provided : List String)
  | providerMissing
  | absent (symbols : List String)
deriving DecidableEq

structure BindingIssue where
  path : List String
  node : FromImport
  module : String
  ownedFile : String
  problem : BindingProblem
deriving DecidableEq

def BindingIssue.text (issue : BindingIssue) : String :=
  let relative := Text.join "/" issue.path
  match issue.problem with
  | .wildcard => relative ++ " 使用 wildcard import " ++ issue.module ++
      "，不能满足 canonical binding " ++ issue.ownedFile
  | .undeclared symbols provided => relative ++ " 从 " ++ issue.module ++ " 导入未声明符号 " ++
      Text.join ", " symbols ++ "；canonical provider=" ++ issue.ownedFile ++ " symbols=" ++
      Text.join ", " (Text.sorted provided)
  | .providerMissing => relative ++ " 的 canonical provider 不存在: " ++ issue.ownedFile
  | .absent symbols => relative ++ " 从 " ++ issue.module ++ " 导入了 provider 不存在的符号 " ++
      Text.join ", " symbols ++ "；provider=" ++ issue.ownedFile

/-- The file of the workspace at `root / ownedFile`. -/
def providerFile (files : List PyFile) (ownedFile : String) : Option PyFile :=
  if PurePath.isAbsolute ownedFile then none
  else files.find? fun file => file.path = PurePath.parts ownedFile

/-- `provider_symbols`; a file that cannot be parsed exports nothing. -/
def providerSymbols (file : PyFile) : List String :=
  match file.parsed with
  | some tree => exportedSymbols tree.body
  | none => []

/-- `source_module`. -/
def sourceModule (file : PyFile) : Option String := pythonModuleForPath (Text.join "/" file.path)

/-- `resolve_relative`. -/
def resolveRelative (file : PyFile) (level : Nat) (module : List String) : Option String :=
  match sourceModule file with
  | none => none
  | some current =>
      let package := (Text.split '.' current).dropLast
      if package.length + 1 < level then none
      else
        let name := Text.join "." (package.take (package.length - (level - 1)) ++ module)
        if name = "" then none else some name

/-- The module the gate takes an import to name. -/
def gateModule (file : PyFile) (node : FromImport) : Option String :=
  if 0 < node.level then resolveRelative file node.level node.module
  else if node.module = [] then none else some (Text.join "." node.module)

/-- The reports on one import of a module of the table. -/
def problemsOf (files : List PyFile) (binding : OwnerBinding) (node : FromImport) :
    List BindingProblem :=
  if node.names.contains "*" then [.wildcard]
  else
    let missing := node.names.filter (· ∉ binding.symbols)
    let undeclared := if missing ≠ [] && binding.symbols ≠ [] then
      [BindingProblem.undeclared missing binding.symbols] else []
    match providerFile files binding.ownedFile with
    | none => undeclared ++ [.providerMissing]
    | some provider =>
        let absent := node.names.filter (· ∉ providerSymbols provider)
        undeclared ++ (if absent ≠ [] then [.absent absent] else [])

def judgeImport (table : Dict String OwnerBinding) (files : List PyFile) (file : PyFile)
    (node : FromImport) : List BindingIssue :=
  match (gateModule file node).bind fun module => (table.get? module).map (module, ·) with
  | none => []
  | some (module, binding) => (problemsOf files binding node).map fun problem => {
      path := file.path
      node := node
      module := module
      ownedFile := binding.ownedFile
      problem := problem }

def fromImports (file : PyFile) : List FromImport :=
  match file.parsed with
  | some tree => tree.imports
  | none => []

/-- What `_validate_contract_bindings` finds in the from-imports of the files. -/
def importBindingIssues (contract : ContractFields) (files : List PyFile) : List BindingIssue :=
  files.flatMap fun file =>
    (fromImports file).flatMap (judgeImport (moduleTable contract) files file)

def importBindingTexts (contract : ContractFields) (files : List PyFile) : List String :=
  dedupe ((importBindingIssues contract files).map (·.text))

/-! Python's reading of an import. -/

/-- The package of a file below the project root, which is `backend` where the
path starts with it. An `__init__` lies in its own package. -/
def packageName (file : PyFile) : String :=
  Text.join "." (match file.path.dropLast with
    | "backend" :: folders => folders
    | folders => folders)

/-- The module an import names: a relative one drops `level - 1` packages. -/
def pythonModule (file : PyFile) (node : FromImport) : Option String :=
  if 0 < node.level then
    let package := Text.split '.' (packageName file)
    if packageName file = "" || package.length < node.level then none
    else some (Text.join "." (package.take (package.length + 1 - node.level) ++ node.module))
  else if node.module = [] then none else some (Text.join "." node.module)

/-- Some symbol is not at module scope of the owned file, or its unit, with this
one Python file, declares symbols and not this one. -/
def Unprovided (contract : ContractFields) (files : List PyFile) (module : Option String)
    (node : FromImport) : Prop :=
  ∃ unit ∈ contract.units, ∃ path ∈ unit.ownedFiles, ∃ provider,
    pythonModuleForPath path = module ∧ module.isSome = true ∧
      providerFile files (ownerBinding unit.toUnitFields path).ownedFile = some provider ∧
        ∃ symbol ∈ node.names, symbol ∉ providerSymbols provider ∨
          (ownerBinding unit.toUnitFields path).symbols ≠ [] ∧
            symbol ∉ (ownerBinding unit.toUnitFields path).symbols

/-- Each owned Python file is in the workspace, with the symbols of its unit. -/
def Delivered (contract : ContractFields) (files : List PyFile) : Prop :=
  ∀ unit ∈ contract.units, ∀ path ∈ unit.ownedFiles, (pythonModuleForPath path).isSome = true →
    ∃ provider, providerFile files (ownerBinding unit.toUnitFields path).ownedFile = some provider ∧
      ∀ symbol ∈ normalizePythonSymbols unit.providedSymbols, symbol ∈ providerSymbols provider

def ImportReported (contract : ContractFields) (files : List PyFile) (file : PyFile)
    (node : FromImport) : Prop :=
  ∃ issue ∈ importBindingIssues contract files, issue.path = file.path ∧ issue.node = node

/-- The table keeps every owned file, and exactly the unprovided imports are reported. -/
def GateRight (contract : ContractFields) (files : List PyFile) : Prop :=
  (∀ entry ∈ ownedModules contract, (moduleTable contract).get? entry.1 = some entry.2) ∧
    ∀ file ∈ files, ∀ node ∈ fromImports file, "*" ∉ node.names →
      (ImportReported contract files file node ↔
        Unprovided contract files (pythonModule file node) node)

/-- No module has two owners. -/
def OneOwner (contract : ContractFields) : Prop :=
  ∀ a ∈ ownedModules contract, ∀ b ∈ ownedModules contract, a.1 = b.1 → a.2 = b.2

/-- A relative import that `resolve_relative` reads as Python does: its file is
named by the gate directly inside its package, and it stays in the top package. -/
def ReadAlike (file : PyFile) (node : FromImport) : Prop :=
  (∃ stem, '.' ∉ stem.toList ∧ sourceModule file = some (packageName file ++ "." ++ stem)) ∧
    "" ∉ Text.split '.' (packageName file) ∧
      node.level ≤ (Text.split '.' (packageName file)).length

/-- Each other relative import, as those of an `__init__` file, deserves the same
verdict for the module the gate takes it to name as for the one Python does. -/
def ResolvedAlike (contract : ContractFields) (files : List PyFile) : Prop :=
  ∀ file ∈ files, ∀ node ∈ fromImports file, 0 < node.level → ¬ ReadAlike file node →
    "*" ∉ node.names →
      (Unprovided contract files (gateModule file node) node ↔
        Unprovided contract files (pythonModule file node) node)

theorem mem_ownedModules {contract : ContractFields} {module : String} {binding : OwnerBinding} :
    (module, binding) ∈ ownedModules contract ↔
      ∃ unit ∈ contract.units, ∃ path ∈ unit.ownedFiles,
        pythonModuleForPath path = some module ∧ binding = ownerBinding unit.toUnitFields path := by
  simp only [ownedModules, pythonFiles, List.mem_flatMap, List.mem_filterMap, List.mem_filter,
    Option.map_eq_some_iff, Prod.mk.injEq]
  constructor
  · rintro ⟨unit, hunit, path, ⟨hpath, -⟩, found, hfound, rfl, rfl⟩
    exact ⟨unit, hunit, path, hpath, hfound, rfl⟩
  · rintro ⟨unit, hunit, path, hpath, hfound, rfl⟩
    exact ⟨unit, hunit, path, ⟨hpath, by simp [hfound]⟩, module, hfound, rfl, rfl⟩

theorem keepsOwners_iff {contract : ContractFields} :
    (∀ entry ∈ ownedModules contract, (moduleTable contract).get? entry.1 = some entry.2) ↔
      OneOwner contract := by
  constructor
  · intro h a ha b hb hkey
    have hget := h a ha
    rw [hkey, h b hb] at hget
    exact (Option.some.inj hget).symm
  · intro h entry hentry
    exact (Dict.get?_ofList_iff h).mpr hentry

theorem node_of_judgeImport {table : Dict String OwnerBinding} {files : List PyFile} {file : PyFile}
    {node : FromImport} {issue : BindingIssue} (h : issue ∈ judgeImport table files file node) :
    issue.path = file.path ∧ issue.node = node := by
  unfold judgeImport at h
  split at h
  · cases h
  · obtain ⟨problem, -, rfl⟩ := List.mem_map.mp h
    exact ⟨rfl, rfl⟩

theorem importReported_iff {contract : ContractFields} {files : List PyFile}
    (hnodup : (files.map (·.path)).Nodup) {file : PyFile} (hfile : file ∈ files)
    {node : FromImport} (hnode : node ∈ fromImports file) :
    ImportReported contract files file node ↔
      judgeImport (moduleTable contract) files file node ≠ [] := by
  unfold ImportReported importBindingIssues
  simp only [List.mem_flatMap]
  constructor
  · rintro ⟨issue, ⟨other, hother, node', hnode', hissue⟩, hpath, hnames⟩
    obtain ⟨hp, hn⟩ := node_of_judgeImport hissue
    have hsame : other = file :=
      List.inj_on_of_nodup_map hnodup hother hfile (hp.symm.trans hpath)
    have hnodes : node' = node := hn.symm.trans hnames
    rw [← hsame, ← hnodes]
    exact List.ne_nil_of_mem hissue
  · intro hne
    obtain ⟨issue, hissue⟩ := List.exists_mem_of_ne_nil _ hne
    exact ⟨issue, ⟨file, hfile, node, hnode, hissue⟩, node_of_judgeImport hissue⟩

theorem filter_ne_nil_iff {α : Type} {p : α → Bool} {xs : List α} :
    xs.filter p ≠ [] ↔ ∃ x ∈ xs, p x = true := by
  simp [List.filter_eq_nil_iff]

theorem optional_append_ne_nil_iff {α : Type} {p q : Prop} [Decidable p] [Decidable q] {a b : α} :
    (if p then [a] else []) ++ (if q then [b] else []) ≠ [] ↔ p ∨ q := by
  by_cases hp : p <;> by_cases hq : q <;> simp [hp, hq]

/-- What is reported on an import of an owned file that exists. -/
theorem problemsOf_ne_nil_iff {files : List PyFile} {binding : OwnerBinding} {node : FromImport}
    {provider : PyFile} (hstar : "*" ∉ node.names)
    (hprovider : providerFile files binding.ownedFile = some provider) :
    problemsOf files binding node ≠ [] ↔
      ∃ symbol ∈ node.names, symbol ∉ providerSymbols provider ∨
        binding.symbols ≠ [] ∧ symbol ∉ binding.symbols := by
  have hexists : problemsOf files binding node ≠ [] ↔
      (node.names.filter (· ∉ binding.symbols) ≠ [] ∧ binding.symbols ≠ []) ∨
        node.names.filter (· ∉ providerSymbols provider) ≠ [] := by
    unfold problemsOf
    rw [if_neg (by simpa using hstar), hprovider]
    dsimp only
    rw [optional_append_ne_nil_iff]
    simp only [Bool.and_eq_true, decide_eq_true_eq]
  rw [hexists, filter_ne_nil_iff, filter_ne_nil_iff]
  constructor
  · rintro (⟨⟨symbol, hmem, hnot⟩, hdeclared⟩ | ⟨symbol, hmem, hnot⟩)
    · exact ⟨symbol, hmem, .inr ⟨hdeclared, by simpa using hnot⟩⟩
    · exact ⟨symbol, hmem, .inl (by simpa using hnot)⟩
  · rintro ⟨symbol, hmem, hnot | ⟨hdeclared, hnot⟩⟩
    · exact .inr ⟨symbol, hmem, by simpa using hnot⟩
    · exact .inl ⟨⟨symbol, hmem, by simpa using hnot⟩, hdeclared⟩

theorem judgeImport_ne_nil_iff {contract : ContractFields} {files : List PyFile}
    (howner : OneOwner contract) (hdelivered : Delivered contract files) {file : PyFile}
    {node : FromImport} (hstar : "*" ∉ node.names) :
    judgeImport (moduleTable contract) files file node ≠ [] ↔
      Unprovided contract files (gateModule file node) node := by
  have hget (module : String) (binding : OwnerBinding) :
      (moduleTable contract).get? module = some binding ↔
        ∃ unit ∈ contract.units, ∃ path ∈ unit.ownedFiles,
          pythonModuleForPath path = some module ∧
            binding = ownerBinding unit.toUnitFields path := by
    rw [moduleTable, Dict.get?_ofList_iff howner, mem_ownedModules]
  unfold judgeImport Unprovided
  cases hmodule : gateModule file node with
  | none => simp
  | some module =>
    cases hfound : (moduleTable contract).get? module with
    | none =>
      simp only [Option.bind_some, hfound, Option.map_none, ne_eq, not_true_eq_false, false_iff]
      rintro ⟨unit, hunit, path, hpath, _, hpathModule, -⟩
      have := (hget module _).mpr ⟨unit, hunit, path, hpath, hpathModule, rfl⟩
      simp [hfound] at this
    | some binding =>
      simp only [Option.bind_some, hfound, Option.map_some, ne_eq, List.map_eq_nil_iff]
      constructor
      · intro hne
        obtain ⟨unit, hunit, path, hpath, hpathModule, rfl⟩ := (hget module binding).mp hfound
        obtain ⟨provider, hprovider, -⟩ :=
          hdelivered unit hunit path hpath (by simp [hpathModule])
        exact ⟨unit, hunit, path, hpath, provider, hpathModule, rfl, hprovider,
          (problemsOf_ne_nil_iff hstar hprovider).mp hne⟩
      · rintro ⟨unit, hunit, path, hpath, provider, hpathModule, -, hprovider, hsymbol⟩
        have hsame : binding = ownerBinding unit.toUnitFields path := by
          have := (hget module _).mpr ⟨unit, hunit, path, hpath, hpathModule, rfl⟩
          rw [hfound] at this
          exact Option.some.inj this
        subst hsame
        exact (problemsOf_ne_nil_iff hstar hprovider).mpr hsymbol

theorem gateModule_of_level_zero {file : PyFile} {node : FromImport} (h : node.level = 0) :
    gateModule file node = pythonModule file node := by
  simp [gateModule, pythonModule, h]

theorem join_ne_empty {sep part : String} {parts : List String} (h : part ≠ "") :
    Text.join sep (part :: parts) ≠ "" := by
  cases parts with
  | nil => simpa [Text.join] using h
  | cons next parts =>
    unfold Text.join
    rw [String.intercalate_cons_cons]
    simp [String.append_assoc, h]

theorem join_take_ne_empty {package module : List String} {n : Nat} (hnamed : "" ∉ package)
    (hn : 0 < n) (hpackage : 0 < package.length) :
    Text.join "." (package.take n ++ module) ≠ "" := by
  match package, n with
  | head :: tail, n + 1 =>
    rw [List.take_succ_cons, List.cons_append]
    exact join_ne_empty fun hempty => hnamed (by simp [hempty])

theorem gateModule_of_readAlike {file : PyFile} {node : FromImport} (hlevel : 0 < node.level)
    (h : ReadAlike file node) : gateModule file node = pythonModule file node := by
  obtain ⟨⟨stem, hstem, hsource⟩, hnamed, hdepth⟩ := h
  have hpackageName : packageName file ≠ "" := by
    intro hempty
    rw [hempty] at hnamed
    exact hnamed (by decide)
  have hsplit : (Text.split '.' (packageName file ++ "." ++ stem)).dropLast =
      Text.split '.' (packageName file) := by
    rw [Text.split_append_sep, Text.split_of_not_mem hstem]
    exact List.dropLast_concat
  unfold gateModule pythonModule resolveRelative
  rw [if_pos hlevel, if_pos hlevel, hsource]
  dsimp only
  rw [hsplit]
  generalize Text.split '.' (packageName file) = package at hnamed hdepth
  have hkeep : package.length - (node.level - 1) = package.length + 1 - node.level := by omega
  have hfar : ¬ package.length + 1 < node.level := by omega
  have hname : Text.join "." (package.take (package.length + 1 - node.level) ++ node.module) ≠ "" :=
    join_take_ne_empty hnamed (by omega) (by omega)
  rw [if_neg hfar, hkeep, if_neg hname, if_neg]
  simp only [Bool.or_eq_true, decide_eq_true_eq, not_or, not_lt]
  exact ⟨hpackageName, hdepth⟩

/-- The gate is right exactly if no module has two owners and the relative imports
it takes to another module deserve there the verdict they deserve in Python. -/
theorem gate_right_iff (contract : ImplementationContract) (files : List PyFile)
    (hnodup : (files.map (·.path)).Nodup) (hdelivered : Delivered contract.toContractFields files) :
    GateRight contract.toContractFields files ↔
      OneOwner contract.toContractFields ∧ ResolvedAlike contract.toContractFields files := by
  have hjudged (howner : OneOwner contract.toContractFields) {file : PyFile} (hfile : file ∈ files)
      {node : FromImport} (hnode : node ∈ fromImports file) (hstar : "*" ∉ node.names) :
      ImportReported contract.toContractFields files file node ↔
        Unprovided contract.toContractFields files (gateModule file node) node := by
    rw [importReported_iff hnodup hfile hnode, judgeImport_ne_nil_iff howner hdelivered hstar]
  unfold GateRight
  rw [keepsOwners_iff, and_congr_right_iff]
  intro howner
  constructor
  · intro hright file hfile node hnode _ _ hstar
    rw [← hjudged howner hfile hnode hstar]
    exact hright file hfile node hnode hstar
  · intro hsame file hfile node hnode hstar
    rw [hjudged howner hfile hnode hstar]
    by_cases hlevel : 0 < node.level
    · by_cases halike : ReadAlike file node
      · rw [gateModule_of_readAlike hlevel halike]
      · exact hsame file hfile node hnode hlevel halike hstar
    · rw [gateModule_of_level_zero (by omega)]

/-- One unit, of one file. -/
def taskContract : ImplementationContract where
  schemaVersion := 1
  units := [⟨{
    unitId := "tasks"
    layer := "service"
    objective := "keep tasks"
    allowedPaths := ["backend/app/**"]
    ownedFiles := ["backend/app/tasks.py"]
    providedSymbols := ["Task"] }, by decide⟩]
  accepted := by decide

def tasksFile : PyFile := ⟨["backend", "app", "tasks.py"], some { body := [.definition "Task"] }⟩

/-- `from .tasks import <name>`. -/
def importTasks (name : String) : FromImport := ⟨1, ["tasks"], [name]⟩

def apiFile : PyFile :=
  ⟨["backend", "app", "api.py"], some { imports := [importTasks "Task", importTasks "Tasks"] }⟩

/-- `from .tasks import Tasks`, of a name the file does not define. -/
def packageFile : PyFile :=
  ⟨["backend", "app", "__init__.py"], some { imports := [importTasks "Tasks"] }⟩

theorem taskContract_delivered {files : List PyFile}
    (h : providerFile files "backend/app/tasks.py" = some tasksFile) :
    Delivered taskContract.toContractFields files := by
  intro unit hunit path hpath _
  obtain rfl := List.mem_singleton.mp hunit
  obtain rfl := List.mem_singleton.mp hpath
  refine ⟨tasksFile, h, fun symbol hsymbol => ?_⟩
  obtain rfl : symbol = "Task" := List.mem_singleton.mp hsymbol
  decide

/-- A module beside the owned one is judged as Python reads it. -/
theorem api_gate_right : GateRight taskContract.toContractFields [tasksFile, apiFile] := by
  refine (gate_right_iff taskContract [tasksFile, apiFile] (by decide)
    (taskContract_delivered (by decide))).mpr ⟨?_, ?_⟩
  · unfold OneOwner
    decide
  · intro file hfile node hnode _ hread
    obtain rfl | rfl : file = tasksFile ∨ file = apiFile := by simpa using hfile
    · cases hnode
    · refine absurd ⟨⟨"api", by decide, by decide⟩, by decide, ?_⟩ hread
      obtain rfl | rfl : node = importTasks "Task" ∨ node = importTasks "Tasks" := by
        simpa [apiFile, fromImports] using hnode
      all_goals decide

/-- The same import in the `__init__` of the package is taken to name `tasks`, not
`app.tasks`, and passes. -/
theorem package_import_not_reported :
    Delivered taskContract.toContractFields [tasksFile, packageFile] ∧
      importBindingTexts taskContract.toContractFields [tasksFile, packageFile] = [] ∧
        ¬ GateRight taskContract.toContractFields [tasksFile, packageFile] := by
  have hnone : importBindingIssues taskContract.toContractFields [tasksFile, packageFile] = [] := by
    decide
  refine ⟨taskContract_delivered (by decide), by decide, fun hright => ?_⟩
  have hunprovided : Unprovided taskContract.toContractFields [tasksFile, packageFile]
      (pythonModule packageFile (importTasks "Tasks")) (importTasks "Tasks") := by
    refine ⟨_, List.mem_singleton_self _, _, List.mem_singleton_self _, tasksFile, ?_, ?_, ?_,
      "Tasks", ?_, .inl ?_⟩
    all_goals decide
  obtain ⟨issue, hissue, -⟩ := (hright.2 packageFile (by decide) (importTasks "Tasks") (by decide)
    (by decide)).mpr hunprovided
  rw [hnone] at hissue
  cases hissue

end ProjectOS.Code
