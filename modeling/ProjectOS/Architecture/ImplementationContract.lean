import ProjectOS.Base.Glob
import ProjectOS.Base.Layers
import ProjectOS.Error
import ProjectOS.Orchestration.PathPattern

/-! The structured implementation contract between architecture and code
agents: units with their files and grants, interfaces and entrypoints. -/
namespace ProjectOS.Architecture
open Base Orchestration

structure EntrypointContract where
  backendFile : Option String := none
  backendImport : Option String := none
  backendCommand : Option String := none
  frontendFile : Option String := none
  healthPath : String := "/health"
deriving DecidableEq

def EntrypointContract.asDict (entry : EntrypointContract) : Json := .obj [
  ("backend_file", .optStr entry.backendFile),
  ("backend_import", .optStr entry.backendImport),
  ("backend_command", .optStr entry.backendCommand),
  ("frontend_file", .optStr entry.frontendFile),
  ("health_path", .str entry.healthPath)]

structure HttpOperationContract where
  method : String
  path : String
  requestSchema : Option String := none
  responseSchema : Option String := none
deriving DecidableEq

def HttpOperationContract.asDict (operation : HttpOperationContract) : Json := .obj [
  ("method", .str operation.method),
  ("path", .str operation.path),
  ("request_schema", .optStr operation.requestSchema),
  ("response_schema", .optStr operation.responseSchema)]

/-- An interface with its kind in the normal form of the contract boundary. -/
structure InterfaceContract where
  interfaceId : String
  kind : String
  name : String
  ownerUnit : String
  ownerFile : Option String := none
  signature : Option String := none
  inputSchema : Option String := none
  outputSchema : Option String := none
  errors : List String := []
  constraints : List String := []
  operations : List HttpOperationContract := []
deriving DecidableEq

def InterfaceContract.asDict (interface : InterfaceContract) : Json := .obj [
  ("interface_id", .str interface.interfaceId),
  ("kind", .str interface.kind),
  ("name", .str interface.name),
  ("owner_unit", .str interface.ownerUnit),
  ("owner_file", .optStr interface.ownerFile),
  ("signature", .optStr interface.signature),
  ("input_schema", .optStr interface.inputSchema),
  ("output_schema", .optStr interface.outputSchema),
  ("errors", .strs interface.errors),
  ("constraints", .strs interface.constraints),
  ("operations", .arr (interface.operations.map (·.asDict)))]

/-- A path that names one file. -/
def concreteFile (path : String) : Bool :=
  let normalized := Text.strip (forwardSlashes path)
  !(normalized = "" || Text.endswith normalized "/" || Glob.hasGlob normalized)

theorem not_blank_of_concreteFile {path : String} (h : concreteFile path = true) :
    Text.blank path = false := by
  by_contra hblank
  have hempty : Text.strip (forwardSlashes path) = "" := by
    rw [Text.strip, Text.stripBy_eq_empty_iff]
    exact (blank_forwardSlashes path).trans (Bool.not_eq_false _ ▸ hblank)
  simp [concreteFile, hempty] at h

theorem hasGlob_of_concreteFile {path : String} (h : concreteFile path = true) :
    Glob.hasGlob path = false := by
  have hplain : Glob.hasGlob (Text.strip (forwardSlashes path)) = false := by
    simp only [concreteFile, Bool.not_eq_true', Bool.or_eq_false_iff] at h
    exact h.2
  unfold Glob.hasGlob at hplain ⊢
  rw [List.any_eq_false] at hplain ⊢
  intro c hc hglob
  have hkept : c ∈ (forwardSlashes path).toList := by
    have hother : c ≠ Text.backslash := by
      rintro rfl
      revert hglob
      decide
    simpa [forwardSlashes, Text.replaceChar] using ⟨c, hc, if_neg hother⟩
  refine hplain c (Text.mem_stripBy hkept ?_) hglob
  simp only [Bool.or_eq_true, decide_eq_true_eq] at hglob
  rcases hglob with ((rfl | rfl) | rfl) | rfl <;> decide

def validateConcreteFiles (field : String) (paths : List String) : Result Unit :=
  forEach (fun path => raiseWhen (!concreteFile path) (field ++ " 必须使用具体文件路径: " ++
    Text.repr path ++ "；目录或 glob 只能放在 allowed_paths/allowed_roots")) paths

structure UnitFields where
  unitId : String
  layer : String
  objective : String
  allowedPaths : List String
  requiredPaths : List String := []
  forbiddenPaths : List String := []
  dependsOn : List String := []
  inputRefs : List String := ["architecture", "environment"]
  acceptanceCriteria : List String := []
  constraints : List String := []
  nonGoals : List String := []
  policyRefs : List String := []
  skillRefs : List String := []
  parallelGroup : Option String := none
  outputKey : Option String := none
  slot : Option String := none
  requirementIds : List String := []
  wave : Option Int := none
  ownedFiles : List String := []
  providesInterfaces : List String := []
  consumesInterfaces : List String := []
  providedSymbols : List String := []
  requiredSymbols : List String := []
deriving DecidableEq

namespace UnitFields

def textLists (unit : UnitFields) : List (List String) := [
  unit.allowedPaths, unit.requiredPaths, unit.forbiddenPaths, unit.dependsOn, unit.inputRefs,
  unit.acceptanceCriteria, unit.constraints, unit.nonGoals, unit.policyRefs, unit.skillRefs,
  unit.requirementIds, unit.providesInterfaces, unit.consumesInterfaces, unit.providedSymbols,
  unit.requiredSymbols]

/-- `ImplementationUnit.__post_init__`. -/
def postInit (unit : UnitFields) : Result Unit := do
  forEach (fun field =>
      raiseWhen (Text.blank field.2) ("ImplementationUnit." ++ field.1 ++ " 不能为空"))
    [("unit_id", unit.unitId), ("layer", unit.layer), ("objective", unit.objective)]
  raiseWhen unit.allowedPaths.isEmpty "ImplementationUnit.allowed_paths 不能为空"
  raiseWhen (unit.textLists.any (·.any Text.blank))
    "ImplementationUnit 的字符串字段不能包含空值"
  validateConcreteFiles ("实现单元 " ++ Text.quote unit.unitId ++ " 的 owned_files") unit.ownedFiles
  validateConcreteFiles ("实现单元 " ++ Text.quote unit.unitId ++ " 的 required_paths")
    unit.requiredPaths
  raiseWhen (!unit.ownedFiles.isEmpty && unit.requiredPaths.any (· ∉ unit.ownedFiles))
    ("实现单元 " ++ Text.quote unit.unitId ++ " 的 required_paths 必须属于 owned_files；" ++
      "跨文件依赖应通过 depends_on/接口契约声明: " ++
      Text.join ", " (Text.sorted (dedupe (unit.requiredPaths.filter (· ∉ unit.ownedFiles)))))
  raiseWhen (unit.wave.any (· < 0)) "ImplementationUnit.wave 不能小于 0"

private theorem any_neg_eq_false {wave : Option Int} :
    wave.any (· < 0) = false ↔ ∀ w, wave = some w → 0 ≤ w := by
  cases wave <;> simp

theorem postInit_eq_ok {unit : UnitFields} :
    unit.postInit = .ok () ↔
      (Text.blank unit.unitId = false ∧ Text.blank unit.layer = false ∧
        Text.blank unit.objective = false) ∧
      unit.allowedPaths ≠ [] ∧
      (∀ texts ∈ unit.textLists, ∀ text ∈ texts, Text.blank text = false) ∧
      (∀ path ∈ unit.ownedFiles, concreteFile path = true) ∧
      (∀ path ∈ unit.requiredPaths, concreteFile path = true) ∧
      (unit.ownedFiles ≠ [] → ∀ path ∈ unit.requiredPaths, path ∈ unit.ownedFiles) ∧
      ∀ wave, unit.wave = some wave → 0 ≤ wave := by
  simp [postInit, check_bind_eq_ok, forEach_eq_ok, validateConcreteFiles, any_neg_eq_false]

end UnitFields

/-- A unit its constructor accepted. -/
structure ImplementationUnit extends UnitFields where
  accepted : toUnitFields.postInit = .ok ()

namespace ImplementationUnit

instance : DecidableEq ImplementationUnit := fun a b =>
  decidable_of_iff (a.toUnitFields = b.toUnitFields) (by cases a; cases b; simp)

def create (raw : UnitFields) : Result ImplementationUnit :=
  match h : raw.postInit with
  | .ok () => .ok ⟨raw, h⟩
  | .error e => .error e

theorem create_of_accepted {raw : UnitFields} (h : raw.postInit = .ok ()) :
    create raw = .ok ⟨raw, h⟩ := by
  unfold create
  split
  · rfl
  · rename_i e he
    rw [h] at he
    cases he

theorem fields_of_create {raw : UnitFields} {unit : ImplementationUnit}
    (h : create raw = .ok unit) : unit.toUnitFields = raw := by
  unfold create at h
  split at h
  · cases h
    rfl
  · cases h

end ImplementationUnit

/-- `_paths_overlap`. -/
def pathsOverlap (left right : String) : Bool :=
  let stem := fun pattern => Text.removeSuffix (Text.removeSuffix pattern "**") "*"
  left = right || (stem left != "" && stem right != "" &&
    (Text.startswith (stem left) (stem right) || Text.startswith (stem right) (stem left)))

/-- `_matches_path`. -/
def matchesPath (path pattern : String) : Bool :=
  let normalized := stripTrailingSlashes pattern
  [path, "workspace/" ++ path].any fun candidate => globMatches candidate normalized ||
    (Text.endswith pattern "/" && Text.startswith candidate (normalized ++ "/"))

structure ContractFields where
  schemaVersion : Int
  units : List ImplementationUnit
  compilationStrategy : String := "file"
  entrypoints : EntrypointContract := {}
  requiredFiles : List String := []
  interfaces : List InterfaceContract := []

namespace ContractFields

def unitIds (contract : ContractFields) : List String := contract.units.map (·.unitId)

def interfaceIds (contract : ContractFields) : List String :=
  contract.interfaces.map (·.interfaceId)

def checkUnitReferences (contract : ContractFields) (unit : ImplementationUnit) : Result Unit := do
  let unknown := unit.dependsOn.filter (· ∉ contract.unitIds)
  raiseWhen (!unknown.isEmpty) ("实现单元 " ++ Text.quote unit.unitId ++ " 依赖不存在的单元: " ++
    Text.join ", " (Text.sorted (dedupe unknown)))
  raiseWhen (unit.unitId ∈ unit.dependsOn)
    ("实现单元 " ++ Text.quote unit.unitId ++ " 不能依赖自身")
  let unknownInterfaces := (unit.providesInterfaces ++ unit.consumesInterfaces).filter
    (· ∉ contract.interfaceIds)
  raiseWhen (!unknownInterfaces.isEmpty)
    ("实现单元 " ++ Text.quote unit.unitId ++ " 引用了不存在的接口: " ++
      Text.join ", " (Text.sorted (dedupe unknownInterfaces)))

/-- Two owners of disjoint files may share a directory grant. -/
def scopesAreFileDisjoint (contract : ContractFields) (current : ImplementationUnit)
    (previousUnitId : String) : Bool :=
  match contract.units.find? (·.unitId == previousUnitId) with
  | none => false
  | some previous => !current.ownedFiles.isEmpty && !previous.ownedFiles.isEmpty &&
      current.ownedFiles.all (· ∉ previous.ownedFiles)

def claimPatterns (contract : ContractFields) (unit : ImplementationUnit) :
    Dict String String → List String → Result (Dict String String)
  | seen, [] => .ok seen
  | seen, pattern :: rest => do
      forEach (fun e =>
          raiseWhen (pathsOverlap e.1 pattern && !contract.scopesAreFileDisjoint unit e.2)
            ("实现单元 " ++ Text.quote unit.unitId ++ " 与 " ++ Text.quote e.2 ++
              " 的允许路径重叠: " ++ pattern))
        seen.entries
      claimPatterns contract unit (seen.set pattern unit.unitId) rest

def claimFiles (unit : ImplementationUnit) :
    Dict String String → List String → Result (Dict String String)
  | seen, [] => .ok seen
  | seen, owned :: rest => do
      raiseWhen (!unit.allowedPaths.any (matchesPath owned))
        ("实现单元 " ++ Text.quote unit.unitId ++ " 的 owned_files 越过 allowed_paths: " ++ owned)
      raiseWhen ((seen.get? owned).any (· != unit.unitId))
        ("完整文件 " ++ Text.quote owned ++ " 只能由一个实现单元负责")
      claimFiles unit (seen.set owned unit.unitId) rest

/-- The loop over `allowed_paths` and `owned_files` of all units. -/
def claimPaths (contract : ContractFields) :
    Dict String String → Dict String String → List ImplementationUnit → Result Unit
  | _, _, [] => .ok ()
  | seenPaths, seenFiles, unit :: rest => do
      let seenPaths ← contract.claimPatterns unit seenPaths unit.allowedPaths
      let seenFiles ← claimFiles unit seenFiles unit.ownedFiles
      claimPaths contract seenPaths seenFiles rest

def graph (contract : ContractFields) : Layers.Graph String :=
  contract.units.map fun unit => (unit.unitId, unit.dependsOn)

/-- `ImplementationContract.__post_init__`. -/
def postInit (contract : ContractFields) : Result Unit := do
  raiseWhen (contract.schemaVersion != 1) "Implementation Contract schema_version 必须为 1"
  raiseWhen (contract.compilationStrategy ∉ ["file", "semantic"])
    "Implementation Contract compilation_strategy 必须为 file 或 semantic"
  raiseWhen contract.units.isEmpty "Implementation Contract 至少需要一个实现单元"
  raiseWhen (hasDuplicates contract.unitIds) "Implementation Contract 包含重复 unit_id"
  raiseWhen (hasDuplicates contract.interfaceIds)
    "Implementation Contract.interfaces 包含重复 interface_id"
  forEach (fun interface : InterfaceContract =>
      raiseWhen (interface.ownerUnit ∉ contract.unitIds)
        ("接口 " ++ Text.quote interface.interfaceId ++ " 的 owner_unit 不存在: " ++
          interface.ownerUnit))
    contract.interfaces
  forEach contract.checkUnitReferences contract.units
  contract.claimPaths ∅ ∅ contract.units
  raiseWhen (contract.requiredFiles.any Text.blank)
    "Implementation Contract.required_files 不能包含空值"
  validateConcreteFiles "Implementation Contract.required_files" contract.requiredFiles
  raiseWhen (hasDuplicates contract.requiredFiles)
    "Implementation Contract.required_files 不能重复"
  match Layers.ensureAcyclic contract.graph with
  | .ok () => .ok ()
  | .error _ => raise "Implementation Contract 存在循环依赖"

theorem claimFiles_eq_ok {unit : ImplementationUnit} {seen seen' : Dict String String}
    {files : List String} (h : claimFiles unit seen files = .ok seen') :
    (∀ file ∈ files, ∀ owner, seen.get? file = some owner → owner = unit.unitId) ∧
      ∀ file, seen'.get? file = if file ∈ files then some unit.unitId else seen.get? file := by
  induction files generalizing seen with
  | nil =>
    cases h
    simp
  | cons first rest ih =>
    simp only [claimFiles, raiseWhen_bind_eq_ok] at h
    obtain ⟨_, howner, hrest⟩ := h
    obtain ⟨hkept, hget⟩ := ih hrest
    refine ⟨?_, ?_⟩
    · intro file hfile owner hseen
      by_cases hfirst : file = first
      · subst hfirst
        simpa [hseen] using howner
      · refine hkept file ((List.mem_cons.mp hfile).resolve_left hfirst) owner ?_
        rw [Dict.get?_set, if_neg hfirst, hseen]
    · intro file
      rw [hget, Dict.get?_set]
      by_cases hrest : file ∈ rest
      · simp [hrest]
      · by_cases hfirst : file = first
        · simp [hfirst]
        · simp [hrest, hfirst]

/-- A later owner of a file that is already claimed is the same unit. -/
theorem claimPaths_eq_ok {contract : ContractFields} {seenPaths seenFiles : Dict String String}
    {units : List ImplementationUnit} (h : contract.claimPaths seenPaths seenFiles units = .ok ()) :
    (∀ unit ∈ units, ∀ file ∈ unit.ownedFiles, ∀ owner, seenFiles.get? file = some owner →
      owner = unit.unitId) ∧
    ∀ u ∈ units, ∀ v ∈ units, ∀ file, file ∈ u.ownedFiles → file ∈ v.ownedFiles →
      u.unitId = v.unitId := by
  induction units generalizing seenPaths seenFiles with
  | nil => simp
  | cons first rest ih =>
    simp only [claimPaths, bind_eq_ok] at h
    obtain ⟨seenPaths', _, seenFiles', hfiles, hrest⟩ := h
    obtain ⟨hkept, hget⟩ := claimFiles_eq_ok hfiles
    obtain ⟨hseen, hpairs⟩ := ih hrest
    have hfirst : ∀ v ∈ rest, ∀ file, file ∈ first.ownedFiles → file ∈ v.ownedFiles →
        first.unitId = v.unitId := by
      intro v hv file hmine hyours
      exact hseen v hv file hyours _ (by rw [hget, if_pos hmine])
    refine ⟨?_, ?_⟩
    · intro unit hunit file hfile owner howner
      rcases List.mem_cons.mp hunit with rfl | hlater
      · exact hkept file hfile owner howner
      · by_cases hmine : file ∈ first.ownedFiles
        · rw [hkept file hmine owner howner]
          exact hfirst unit hlater file hmine hfile
        · exact hseen unit hlater file hfile owner (by rw [hget, if_neg hmine, howner])
    · intro u hu v hv file hmine hyours
      rcases List.mem_cons.mp hu with rfl | hu'
      · rcases List.mem_cons.mp hv with rfl | hv'
        · rfl
        · exact hfirst v hv' file hmine hyours
      · rcases List.mem_cons.mp hv with rfl | hv'
        · exact (hfirst u hu' file hyours hmine).symm
        · exact hpairs u hu' v hv' file hmine hyours

end ContractFields

/-- A contract the constructor accepted. -/
structure ImplementationContract extends ContractFields where
  accepted : toContractFields.postInit = .ok ()

namespace ImplementationContract
variable (contract : ImplementationContract)

/-- What acceptance guarantees to the compiler. -/
structure Facts : Prop where
  strategy : contract.compilationStrategy = "file" ∨ contract.compilationStrategy = "semantic"
  unitIds_nodup : contract.unitIds.Nodup
  interfaceIds_nodup : contract.interfaceIds.Nodup
  owner_known : ∀ interface ∈ contract.interfaces, interface.ownerUnit ∈ contract.unitIds
  dependsOn_known : ∀ unit ∈ contract.units, ∀ d ∈ unit.dependsOn, d ∈ contract.unitIds
  not_self : ∀ unit ∈ contract.units, unit.unitId ∉ unit.dependsOn
  interface_known : ∀ unit ∈ contract.units, ∀ i ∈ unit.consumesInterfaces,
    i ∈ contract.interfaceIds
  file_owner : ∀ u ∈ contract.units, ∀ v ∈ contract.units, ∀ file, file ∈ u.ownedFiles →
    file ∈ v.ownedFiles → u.unitId = v.unitId

theorem facts : contract.Facts := by
  have h := contract.accepted
  simp only [ContractFields.postInit, check_bind_eq_ok, forEach_eq_ok, raiseWhen_eq_ok,
    ContractFields.checkUnitReferences] at h
  obtain ⟨_, hstrategy, _, hids, hinterfaces, howners, hrefs, hpaths, _⟩ := h
  refine ⟨by simpa [or_iff_not_imp_left] using hstrategy, by simpa using hids, by simpa using hinterfaces,
    by simpa using howners, ?_, ?_, ?_, (ContractFields.claimPaths_eq_ok hpaths).2⟩
  · intro unit hunit d hd
    have := (hrefs unit hunit).1
    simp only [Bool.not_eq_false', List.isEmpty_iff, List.filter_eq_nil_iff] at this
    simpa using this d hd
  · intro unit hunit
    simpa using (hrefs unit hunit).2.1
  · intro unit hunit i hi
    have := (hrefs unit hunit).2.2
    simp only [Bool.not_eq_false', List.isEmpty_iff, List.filter_eq_nil_iff] at this
    simpa using this i (List.mem_append_right _ hi)

theorem eq_of_unitId_eq {u v : ImplementationUnit} (hu : u ∈ contract.units)
    (hv : v ∈ contract.units) (h : u.unitId = v.unitId) : u = v :=
  List.inj_on_of_nodup_map contract.facts.unitIds_nodup hu hv h

end ImplementationContract
end ProjectOS.Architecture
