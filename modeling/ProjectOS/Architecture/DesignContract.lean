import ProjectOS.Base.Dict
import ProjectOS.Base.Layers
import ProjectOS.Error

/-! Designs of the three depths, as the dynamic planner reads them, and the
checks of a blueprint before it is expanded. -/
namespace ProjectOS.Architecture
open Base

structure ModuleRef where
  moduleId : String
  responsibility : String
  purpose : Option String := none
  dependsOnModules : List String := []
  requirementIds : List String := []
  ownedRequiredFiles : List String := []

structure ArchitectureBlueprint where
  designId : String
  depth : Int := 0
  layerNames : List String
  modules : List ModuleRef

structure ModuleDesign where
  designId : String
  depth : Int := 1
  parentDesignId : String
  moduleId : String
  purpose : Option String := none
  dependsOnModules : List String := []

/-- What `parse_design` returns; the planner reads no field of the deepest kind. -/
inductive Design where
  | blueprint (design : ArchitectureBlueprint)
  | module (design : ModuleDesign)
  | implementation

namespace ArchitectureBlueprint

def moduleIds (blueprint : ArchitectureBlueprint) : List String :=
  blueprint.modules.map (·.moduleId)

def shownId (moduleId : String) : String := if moduleId = "" then "<unknown>" else moduleId

def unknownDependencies (known : List String) (module : ModuleRef) : List String :=
  Text.sorted (dedupe (module.dependsOnModules.filter (· ∉ known)))

def moduleErrors (known : List String) (module : ModuleRef) : List String :=
  let moduleId := Text.strip module.moduleId
  let unknown := unknownDependencies known module
  (if Text.blank (module.purpose.getD "") then ["模块 " ++ shownId moduleId ++ " 缺少 purpose"]
    else []) ++
  (if unknown.isEmpty then []
    else ["模块 " ++ shownId moduleId ++ " 依赖未声明 module_id: " ++ Text.join ", " unknown]) ++
  (if moduleId ∈ module.dependsOnModules then ["模块 " ++ moduleId ++ " 不能依赖自身"] else [])

/-- `SemanticRegistry.validate_blueprint`. -/
def semanticErrors (blueprint : ArchitectureBlueprint) : List String :=
  let moduleIds := blueprint.moduleIds.map Text.strip
  (if moduleIds.any (· = "") then ["Blueprint.modules.module_id 不能为空"] else []) ++
  (if hasDuplicates moduleIds then ["Blueprint.modules.module_id 必须唯一"] else []) ++
  blueprint.modules.flatMap (moduleErrors moduleIds) ++
  (if hasDuplicates (blueprint.layerNames.map Text.strip) then ["Blueprint.layers.name 必须唯一"]
    else [])

def validateModule (known : List String) (module : ModuleRef) : Result Unit := do
  raiseWhen (Text.blank (module.purpose.getD ""))
    ("模块 " ++ module.moduleId ++ " 缺少业务 purpose")
  raiseWhen (!(unknownDependencies known module).isEmpty)
    ("模块 " ++ module.moduleId ++ " 依赖不存在的模块: " ++
      Text.join ", " (unknownDependencies known module))
  raiseWhen (module.moduleId ∈ module.dependsOnModules)
    ("模块 " ++ module.moduleId ++ " 不能依赖自身")

def graph (blueprint : ArchitectureBlueprint) : Layers.Graph String :=
  blueprint.modules.map fun module => (module.moduleId, module.dependsOnModules)

/-- `BlueprintValidator.validate`; the process limits the number of modules. -/
def validate (maxModules : Nat) (blueprint : ArchitectureBlueprint) : Result Unit := do
  raiseWhen (!blueprint.semanticErrors.isEmpty)
    ("Blueprint 语义校验失败: " ++ Text.join "; " blueprint.semanticErrors)
  raiseWhen (blueprint.depth != 0) "动态模块扩展要求 depth=0 的 ArchitectureBlueprint"
  raiseWhen (maxModules < blueprint.modules.length)
    ("模块数量 " ++ toString blueprint.modules.length ++ " 超过流程上限 " ++ toString maxModules)
  raiseWhen (hasDuplicates blueprint.moduleIds) "Blueprint 模块 module_id 必须唯一"
  forEach (validateModule blueprint.moduleIds) blueprint.modules
  match Layers.ensureAcyclic blueprint.graph with
  | .ok () => .ok ()
  | .error _ => raise "Blueprint 模块依赖存在循环"

end ArchitectureBlueprint
end ProjectOS.Architecture
