import ProjectOS.Architecture.ContractInput

/-! Architecture designs of the three depths as the integration reads them. A
design of a kind exists only where the validators of that kind accepted it. -/
namespace ProjectOS.Architecture.Designs
open Base Orchestration

inductive Scheme where
  | legacy
  | d
deriving DecidableEq

inductive BoundaryRole where
  | businessCapability
  | userExperience
  | runtime
deriving DecidableEq

structure ModuleRef where
  moduleId : String
  boundaryRole : Option BoundaryRole := none
  responsibility : String
  purpose : Option String := none
  dependsOnModules : List String := []
  ownedRequiredFiles : List String := []
  techStack : List String := []
deriving DecidableEq

namespace ModuleRef

/-- The purpose after `normalize_business_purpose`. -/
def businessPurpose (module : ModuleRef) : String :=
  match module.purpose with
  | some purpose => if purpose = "" then module.responsibility else purpose
  | none => module.responsibility

def validate (module : ModuleRef) : Result Unit := do
  raiseWhen (module.moduleId ∈ module.dependsOnModules) "ModuleRef 不能依赖自身"
  raiseWhen (hasDuplicates module.dependsOnModules) "ModuleRef.depends_on_modules 不能重复"

end ModuleRef

/-- `path.replace("\\", "/").lstrip("/")`. -/
def workspacePath (path : String) : String := stripLeadingSlashes (forwardSlashes path)

structure BlueprintFields where
  architectureScheme : Scheme := .legacy
  designId : String
  layers : List ContractLayerInput
  modules : List ModuleRef
  entrypoints : EntrypointContract := {}
  requiredFiles : List String := []
deriving DecidableEq

namespace BlueprintFields
variable (blueprint : BlueprintFields)

def moduleIds : List String := blueprint.modules.map (·.moduleId)

def fileExtensions : List String :=
  [".json", ".py", ".ts", ".js", ".jsx", ".tsx", ".vue", ".html", ".css", ".md"]

/-- `LayerDecision.validate_path_mapping_is_pattern`. -/
def checkLayerPaths (layer : ContractLayerInput) : Result Unit :=
  forEach (fun path => raiseWhen (fileExtensions.any (Text.endswith path))
    ("Layer " ++ Text.quote layer.name ++ " 的 path_mapping 不能声明具体文件: " ++ path ++
      "\nBlueprint 只能声明目录模式，不能声明实现细节。" ++
      "\n正确示例: 'schemas/**', 'backend/**', 'frontend/**'" ++
      "\n错误示例: 'schemas.json', 'main.py'")) layer.pathMapping

/-- The module every required file is assigned to, file by file. -/
def assignFiles (required : List String) :
    List String → List (String × String) → Result (List String)
  | assigned, [] => .ok assigned
  | assigned, (moduleId, path) :: rest => do
      let normalized := workspacePath path
      raiseWhen (normalized ∉ required)
        ("ArchitectureBlueprint.unknown_module_required_file: " ++ moduleId ++ ": " ++ path)
      raiseWhen (normalized ∈ assigned)
        ("ArchitectureBlueprint.duplicate_required_file_owner: " ++ normalized)
      assignFiles required (normalized :: assigned) rest

def assignments : List (String × String) :=
  blueprint.modules.flatMap fun module =>
    module.ownedRequiredFiles.map fun path => (module.moduleId, path)

def checkAssignments : Result Unit := do
  let required := blueprint.requiredFiles.map workspacePath
  let assigned ← assignFiles required [] blueprint.assignments
  let missing := required.filter (· ∉ assigned)
  raiseWhen (!missing.isEmpty) ("ArchitectureBlueprint.required_file_without_module_owner: " ++
    Text.join ", " (Text.sorted (dedupe missing)))

def layerNames : List String := blueprint.layers.map (·.name)

def checkLayerDependencies (layer : ContractLayerInput) : Result Unit :=
  forEach (fun dependency => do
    raiseWhen (dependency = layer.name) ("层 " ++ layer.name ++ " 不能依赖自身")
    raiseWhen (dependency ∉ blueprint.layerNames)
      ("层 " ++ layer.name ++ " 的 allowed_dependencies 引用了未声明的层: " ++ dependency ++
        "。已声明的层: " ++ Text.join ", " (Text.sorted (dedupe blueprint.layerNames))))
    layer.allowedDependencies

/-- The validators of the layers and modules, then `validate_unique_ids`. -/
def validate : Result Unit := do
  forEach checkLayerPaths blueprint.layers
  forEach ModuleRef.validate blueprint.modules
  if blueprint.architectureScheme = .d then
    let missing := blueprint.modules.filter (·.boundaryRole.isNone)
    raiseWhen (!missing.isEmpty)
      ("D 方案 Blueprint 的每个顶层模块必须声明 boundary_role: " ++
        Text.join ", " (missing.map (·.moduleId)))
  raiseWhen (hasDuplicates blueprint.layerNames) "ArchitectureBlueprint.layers 不能重复"
  raiseWhen (hasDuplicates blueprint.moduleIds) "ArchitectureBlueprint.modules 不能重复"
  raiseWhen (blueprint.requiredFiles.any fun path => !concreteFile path)
    "ArchitectureBlueprint.required_files 必须是具体文件路径"
  if blueprint.architectureScheme = .d &&
      blueprint.modules.any (!·.ownedRequiredFiles.isEmpty) then
    blueprint.checkAssignments
  forEach blueprint.checkLayerDependencies blueprint.layers

end BlueprintFields

/-- The texts of the entry points that are given. -/
def entryTexts (entry : EntrypointContract) : List String :=
  [entry.backendFile, entry.backendImport, entry.backendCommand, entry.frontendFile].filterMap id

/-- A text the wire validation has stripped. -/
def Stripped (text : String) : Prop := Text.strip text = text

instance (text : String) : Decidable (Stripped text) :=
  inferInstanceAs (Decidable (Text.strip text = text))

structure ArchitectureBlueprint extends BlueprintFields where
  accepted : toBlueprintFields.validate = .ok ()
  stripped : ∀ path ∈ requiredFiles, Stripped path
  entry : ∀ text ∈ entryTexts entrypoints, Stripped text

/-- A module design with the ids of the interfaces it declares. -/
structure ModuleDesign where
  designId : String
  parentDesignId : String
  moduleId : String
  purpose : Option String := none
  providedInterfaces : List String := []
  dependsOnModules : List String := []
deriving DecidableEq

def ModuleDesign.validate (design : ModuleDesign) : Result Unit := do
  raiseWhen (design.moduleId ∈ design.dependsOnModules) "ModuleDesign 不能依赖自身"
  raiseWhen (hasDuplicates design.dependsOnModules) "ModuleDesign.depends_on_modules 不能重复"

structure ConsumedInterfaceRef where
  interfaceId : String
  usage : Option String := none
  required : Bool := true
  consumptionType : Option String := none
  confidence : Option String := none
  toBeVerified : Bool := false
deriving DecidableEq

structure ImplementationDesign where
  designId : String
  parentDesignId : String
  moduleId : String
  providedInterfaces : List ContractInterfaceInput := []
  consumedInterfaces : List ConsumedInterfaceRef := []
  implementationUnits : List UnitFields
  requiredTestTypes : List String := []
deriving DecidableEq

namespace ImplementationDesign
variable (design : ImplementationDesign)

def unitIds : List String := design.implementationUnits.map (·.unitId)

def interfaceIds : List String := design.providedInterfaces.map (·.interfaceId)

def checkUnit (unit : UnitFields) : Result Unit := do
  raiseWhen (!(1 ≤ unit.ownedFiles.length && unit.ownedFiles.length ≤ 3))
    ("实现单元 " ++ unit.unitId ++ " 必须负责 1-3 个内聚 owned_files")
  forEach (fun required =>
      raiseWhen (workspacePath required ∉ unit.ownedFiles.map workspacePath)
        ("实现单元 " ++ unit.unitId ++ " 的 required_paths 必须属于 owned_files: " ++ required))
    unit.requiredPaths

/-- `validate_units_belong_to_module`; a design has at least one unit. -/
def validate : Result Unit := do
  raiseWhen design.implementationUnits.isEmpty "implementation_units"
  forEach checkUnit design.implementationUnits
  forEach (fun interface : ContractInterfaceInput =>
      raiseWhen (interface.ownerUnit ∉ design.unitIds)
        ("接口 " ++ interface.interfaceId ++ " 的 owner_unit 不属于模块 " ++ design.moduleId))
    design.providedInterfaces
  raiseWhen (hasDuplicates design.interfaceIds) "provided_interfaces 不能包含重复 interface_id"
  raiseWhen (hasDuplicates (design.consumedInterfaces.map (·.interfaceId)))
    "consumed_interfaces 不能包含重复 interface_id"

/-- Of the stripped texts only the files and the symbols matter here. -/
def Trimmed : Prop := ∀ unit ∈ design.implementationUnits,
  ∀ text ∈ unit.ownedFiles ++ unit.providedSymbols, Stripped text

instance : Decidable design.Trimmed :=
  inferInstanceAs (Decidable (∀ unit ∈ design.implementationUnits,
    ∀ text ∈ unit.ownedFiles ++ unit.providedSymbols, Stripped text))

end ImplementationDesign

/-- What `parse_design` returns. -/
inductive Design where
  | blueprint (design : ArchitectureBlueprint)
  | module (design : ModuleDesign) (accepted : design.validate = .ok ())
  | implementation (design : ImplementationDesign) (accepted : design.validate = .ok ())
      (trimmed : design.Trimmed)

end ProjectOS.Architecture.Designs
