import ProjectOS.Architecture.ImplementationContract
import ProjectOS.Orchestration.FieldAliases

/-! The structured input of the project contract tool: typed wire objects, their
canonical dictionary, and the normalizer of model drafts. A wire unit has the
fields of an implementation unit. -/
namespace ProjectOS.Architecture
open Base Orchestration

/-- `model_dump` of an object; `exclude_none` drops the fields without a value. -/
def dumped (excludeNone : Bool) (fields : List (String × Json)) : Json :=
  .obj (if excludeNone then fields.filter (!·.2.isNull) else fields)

structure ContractLayerInput where
  name : String
  allowedDependencies : List String := []
  forbiddenImports : List String := []
  pathMapping : List String := []
deriving DecidableEq

def ContractLayerInput.modelDump (layer : ContractLayerInput) : Json := .obj [
  ("name", .str layer.name),
  ("allowed_dependencies", .strs layer.allowedDependencies),
  ("forbidden_imports", .strs layer.forbiddenImports),
  ("path_mapping", .strs layer.pathMapping)]

def EntrypointContract.modelDump (excludeNone : Bool) (entry : EntrypointContract) : Json :=
  dumped excludeNone [
    ("backend_file", .optStr entry.backendFile),
    ("backend_import", .optStr entry.backendImport),
    ("backend_command", .optStr entry.backendCommand),
    ("frontend_file", .optStr entry.frontendFile),
    ("health_path", .str entry.healthPath)]

def HttpOperationContract.modelDump (excludeNone : Bool) (operation : HttpOperationContract) :
    Json :=
  dumped excludeNone [
    ("method", .str operation.method),
    ("path", .str operation.path),
    ("request_schema", .optStr operation.requestSchema),
    ("response_schema", .optStr operation.responseSchema)]

structure ContractInterfaceInput extends InterfaceContract where
  consumptionType : Option String := none
  confidence : Option String := none
  toBeVerified : Bool := false
deriving DecidableEq

def ContractInterfaceInput.modelDump (excludeNone : Bool) (interface : ContractInterfaceInput) :
    Json :=
  dumped excludeNone [
    ("interface_id", .str interface.interfaceId),
    ("kind", .str interface.kind),
    ("name", .str interface.name),
    ("owner_unit", .str interface.ownerUnit),
    ("owner_file", .optStr interface.ownerFile),
    ("signature", .optStr interface.signature),
    ("input_schema", .optStr interface.inputSchema),
    ("output_schema", .optStr interface.outputSchema),
    ("errors", .strs interface.errors),
    ("constraints", .strs interface.constraints),
    ("operations", .arr (interface.operations.map (·.modelDump excludeNone))),
    ("consumption_type", .optStr interface.consumptionType),
    ("confidence", .optStr interface.confidence),
    ("to_be_verified", .bool interface.toBeVerified)]

def UnitFields.modelDump (excludeNone : Bool) (unit : UnitFields) : Json :=
  dumped excludeNone [
    ("unit_id", .str unit.unitId),
    ("layer", .str unit.layer),
    ("objective", .str unit.objective),
    ("allowed_paths", .strs unit.allowedPaths),
    ("required_paths", .strs unit.requiredPaths),
    ("forbidden_paths", .strs unit.forbiddenPaths),
    ("depends_on", .strs unit.dependsOn),
    ("input_refs", .strs unit.inputRefs),
    ("acceptance_criteria", .strs unit.acceptanceCriteria),
    ("constraints", .strs unit.constraints),
    ("non_goals", .strs unit.nonGoals),
    ("policy_refs", .strs unit.policyRefs),
    ("skill_refs", .strs unit.skillRefs),
    ("parallel_group", .optStr unit.parallelGroup),
    ("output_key", .optStr unit.outputKey),
    ("slot", .optStr unit.slot),
    ("requirement_ids", .strs unit.requirementIds),
    ("wave", .optInt unit.wave),
    ("owned_files", .strs unit.ownedFiles),
    ("provides_interfaces", .strs unit.providesInterfaces),
    ("consumes_interfaces", .strs unit.consumesInterfaces),
    ("provided_symbols", .strs unit.providedSymbols),
    ("required_symbols", .strs unit.requiredSymbols)]

namespace CanonicalContractNormalizer

def topLevel : List (String × List String) := [
  ("entrypoints", ["entrypoint"]),
  ("implementation_units", ["implementationUnits", "units"]),
  ("required_files", ["requiredPaths"]),
  ("required_test_types", ["requiredTests"]),
  ("compilation_strategy", ["strategy"])]

def layer : List (String × List String) := [
  ("allowed_dependencies", ["depends_on", "dependencies"]),
  ("forbidden_imports", ["forbidden"]),
  ("path_mapping", ["paths", "allowed_paths"])]

def interface : List (String × List String) := [
  ("interface_id", ["id"]),
  ("owner_unit", ["owner"]),
  ("owner_file", ["file"])]

def unit : List (String × List String) := [
  ("required_paths", ["required_files"]),
  ("slot", ["output_slot"]),
  ("provides_interfaces", ["provides"]),
  ("consumes_interfaces", ["consumes"])]

/-- A catalogue of layers by name becomes a list of named layers. -/
def listLayers (raw : Json) : Json :=
  match raw.get? "layers" with
  | some (.obj fields) => raw.set "layers" (.arr (fields.map fun e =>
      match e.2 with
      | .obj own => own.foldl (fun named field => named.set field.1 field.2)
          (.obj [("name", .str e.1)])
      | _ => .obj [("name", .str e.1)]))
  | _ => raw

def normalizeItems (key : String) (mapping : List (String × List String)) (raw : Json) :
    Result Json :=
  match raw.get? key with
  | some (.arr items) => do
      let items ← collect (FieldSemantics.normalizeAliases · mapping) items
      .ok (raw.set key (.arr items))
  | _ => .ok raw

def normalize (value : Json) : Result Json := do
  if !value.isDict then .error (.typeError "contract 必须是 Project Contract 对象")
  else
    let raw ← FieldSemantics.normalizeAliases value topLevel
    let raw ← normalizeItems "layers" layer (listLayers raw)
    let raw ← normalizeItems "interfaces" interface raw
    normalizeItems "implementation_units" unit raw

def ItemsFree (key : String) (mapping : List (String × List String)) (raw : Json) : Prop :=
  ∀ items, raw.get? key = some (.arr items) → ∀ item ∈ items, FieldSemantics.AliasFree mapping item

/-- The draft uses no compatibility alias at any level. -/
structure Canonical (raw : Json) : Prop where
  isDict : raw.isDict = true
  top : FieldSemantics.AliasFree topLevel raw
  layers : ItemsFree "layers" layer raw
  notCatalogue : ∀ fields, raw.get? "layers" ≠ some (.obj fields)
  interfaces : ItemsFree "interfaces" interface raw
  units : ItemsFree "implementation_units" unit raw

theorem normalizeItems_of_free {key : String} {mapping : List (String × List String)} {raw : Json}
    (h : ItemsFree key mapping raw) : normalizeItems key mapping raw = .ok raw := by
  unfold normalizeItems
  split
  · rename_i items hget
    have hsame : collect (FieldSemantics.normalizeAliases · mapping) items = .ok items :=
      collect_eq_ok.mpr (List.forall₂_same.mpr fun item hitem =>
        FieldSemantics.normalizeAliases_of_free (h items hget item hitem))
    rw [hsame, ok_bind, FieldSemantics.set_of_get? hget]
  · rfl

theorem listLayers_of_list {raw : Json} (h : ∀ fields, raw.get? "layers" ≠ some (.obj fields)) :
    listLayers raw = raw := by
  unfold listLayers
  split
  · rename_i fields hget
    exact absurd hget (h fields)
  · rfl

theorem normalize_of_canonical {raw : Json} (h : Canonical raw) : normalize raw = .ok raw := by
  rw [normalize, h.isDict, Bool.not_true, if_neg Bool.false_ne_true,
    FieldSemantics.normalizeAliases_of_free h.top, ok_bind, listLayers_of_list h.notCatalogue,
    normalizeItems_of_free h.layers, ok_bind, normalizeItems_of_free h.interfaces, ok_bind,
    normalizeItems_of_free h.units]

end CanonicalContractNormalizer

structure ProjectContractFields where
  compilationStrategy : String := "file"
  layers : List ContractLayerInput
  requiredTestTypes : List String
  entrypoints : EntrypointContract
  requiredFiles : List String
  interfaces : List ContractInterfaceInput
  implementationUnits : List UnitFields

namespace ProjectContractFields

def apiAliases : List String := [
  "api", "endpoint", "rest", "http", "http_endpoint", "http_api", "rest_api", "api_endpoint",
  "route", "router", "route_handler", "controller", "entrypoint", "process_entrypoint",
  "process-entrypoint"]

def checkInterface (interface : ContractInterfaceInput) : Result Unit :=
  let kind := Text.replaceChar '-' '_' (Text.lower (Text.strip interface.kind))
  if kind ∉ apiAliases then .ok ()
  else do
    raiseWhen (interface.ownerFile.all (· = ""))
      ("interfaces." ++ interface.interfaceId ++ ": API 接口必须声明 owner_file")
    raiseWhen interface.operations.isEmpty
      ("interfaces." ++ interface.interfaceId ++ ": API 接口必须冻结 operations(method/path)")

def layerNames (input : ProjectContractFields) : List String := input.layers.map (·.name)

def validateUniqueLayers (input : ProjectContractFields) : Result Unit := do
  raiseWhen (hasDuplicates input.layerNames) "layers 不能包含重复 name"
  forEach checkInterface input.interfaces

end ProjectContractFields

/-- The contract input of schema version 1 as its validators accepted it. -/
structure ProjectContractInput extends ProjectContractFields where
  accepted : toProjectContractFields.validateUniqueLayers = .ok ()

namespace ProjectContractInput

def policies (lists : ContractLayerInput → List String) (layers : List ContractLayerInput) : Json :=
  .obj (layers.map fun layer => (layer.name, .strs (lists layer)))

def canonicalFields (input : ProjectContractInput) : List (String × Json) := [
  ("schema_version", .int 1),
  ("compilation_strategy", .str input.compilationStrategy),
  ("layers", .strs input.layerNames),
  ("allowed_dependencies", policies (·.allowedDependencies) input.layers),
  ("forbidden_imports", policies (·.forbiddenImports) input.layers),
  ("path_mapping", policies (·.pathMapping) input.layers),
  ("required_test_types", .strs input.requiredTestTypes),
  ("entrypoints", input.entrypoints.modelDump true),
  ("required_files", .strs input.requiredFiles),
  ("interfaces", .arr (input.interfaces.map (·.modelDump true))),
  ("implementation_units", .arr (input.implementationUnits.map (·.modelDump true)))]

def toCanonicalDict (input : ProjectContractInput) : Json := .obj input.canonicalFields

end ProjectContractInput
end ProjectOS.Architecture
