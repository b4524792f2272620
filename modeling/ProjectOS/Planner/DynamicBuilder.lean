import ProjectOS.Architecture.DesignContract
import ProjectOS.Base.Levels
import ProjectOS.Orchestration.Plan

/-! Expansion of a plan by the modules of a blueprint: one design item for each
module, and later one implementation design item for each. -/
namespace ProjectOS.Planner
open Base Artifact Orchestration Architecture

namespace DynamicPlanBuilder

structure BlueprintExpansion where
  plan : ExecutionPlan
  blueprintDesignId : String
  blueprintWorkItemId : String
  addedWorkItemIds : List String
  integrationWorkItemId : Option String
  moduleWaves : Dict String Nat
  parentPlanRevision : Option Int := none

structure ImplementationExpansion where
  plan : ExecutionPlan
  blueprintDesignId : String
  blueprintWorkItemId : String
  moduleDesignIds : List String
  moduleWorkItemIds : Dict String String
  addedWorkItemIds : List String
  integrationWorkItemId : Option String
  implementationWaves : Dict String Nat
  parentPlanRevision : Option Int := none

def safeComponent (value : String) : String :=
  String.ofList ((Text.stripBy (· ∈ ['-', '_', '.'])
    (Text.collapse Text.isSafeChar '-' (Text.strip value))).toList.take 80)

/-- The loop that gives every module its node id. -/
def safeIdsFrom : Dict String String → List String → Result (Dict String String)
  | safeIds, [] => .ok safeIds
  | safeIds, moduleId :: rest => do
      let safe := safeComponent moduleId
      raiseWhen (safe = "") ("模块 module_id 无法生成安全节点 ID: " ++ moduleId)
      raiseWhen (safe ∈ safeIds.values) "不同 module_id 归一化后产生节点 ID 冲突"
      safeIdsFrom (safeIds.set moduleId safe) rest

def moduleMap (blueprint : ArchitectureBlueprint) : Dict String ModuleRef :=
  .ofList (blueprint.modules.map fun module => (module.moduleId, module))

/-- The longest chain of dependencies below each module. -/
def moduleWaves (blueprint : ArchitectureBlueprint) : Result (Dict String Nat) :=
  let nodes : Levels.Nodes String := fun moduleId =>
    ((moduleMap blueprint).get? moduleId).map fun module => (0, module.dependsOnModules)
  match Levels.levels nodes (blueprint.modules.length + 1) ∅ (moduleMap blueprint).keys with
  | .ok waves => .ok waves
  | .error (.unknown moduleId) => .error (.keyError moduleId)
  | .error _ => raise "Blueprint 模块依赖存在循环"

def moduleItemId (safe : String) : String := "wi-architecture-module-" ++ safe

def implementationItemId (safe : String) : String := "wi-architecture-implementation-" ++ safe

def isModuleItem (item : WorkItem) : Bool :=
  item.stageId = some "architecture_module" || Text.startswith (item.slot.getD "") "module-"

def isImplementationItem (item : WorkItem) : Bool :=
  item.stageId = some "architecture_implementation" ||
    Text.startswith (item.slot.getD "") "implementation-"

def blueprintRef (plan : ExecutionPlan) (item : WorkItem) : Result ArtifactRef :=
  ArtifactRef.staged (Text.orElse item.artifactKey "architecture") plan.trace.traceId item.id
    (Text.orElse item.slot "blueprint")

/-- The staged design of a module. -/
def moduleRef (plan : ExecutionPlan) (workItemId safe : String) : Result ArtifactRef :=
  ArtifactRef.staged "architecture" plan.trace.traceId workItemId ("module-" ++ safe)

/-- References already known by their identifier are not repeated. -/
def mergeRefs (known new : List ArtifactRef) : List ArtifactRef :=
  new.foldl (fun refs ref =>
    if ref.refId ∈ refs.map (·.refId) then refs else refs ++ [ref]) known

def purposeOf (module : ModuleRef) : String := Text.orElse module.purpose module.responsibility

def dependencyText (module : ModuleRef) : String :=
  if module.dependsOnModules.isEmpty then "无" else Text.join ", " module.dependsOnModules

def architectureContract (depth : Nat) (designId parentDesignId : String) (module : ModuleRef) :
    List (String × Json) := [
  ("architecture", .obj [
    ("depth", .nat depth),
    ("design_id", .str designId),
    ("parent_design_id", .str parentDesignId),
    ("module_id", .str module.moduleId),
    ("purpose", .str (purposeOf module)),
    ("depends_on_modules", .strs module.dependsOnModules)])]

def moduleItem (plan : ExecutionPlan) (blueprint : ArchitectureBlueprint)
    (blueprintItem : WorkItem) (ref : ArtifactRef) (safeIds : Dict String String)
    (waves : Dict String Nat) (module : ModuleRef) : Result WorkItem := do
  let safe ← subscript safeIds module.moduleId
  let wave ← subscript waves module.moduleId
  let onBlueprint ← WorkItemDependency.system blueprintItem.id "architecture_blueprint:module"
  let others ← collect (subscript safeIds) module.dependsOnModules
  let onModules ← collect (fun other =>
    WorkItemDependency.system (moduleItemId other) "architecture_module:depends_on_modules") others
  let moduleRefs ← collect (fun other => moduleRef plan (moduleItemId other) other) others
  WorkItem.create {
    id := moduleItemId safe
    agentId := "architecture_agent"
    stageId := some "architecture_module"
    objective := "围绕模块 " ++ module.moduleId ++ " 的业务目的：" ++ purposeOf module ++
      "；在不改变该目的的前提下，细化模块职责、实体、接口和验收边界。"
    outputKey := "architecture_module_" ++ safe
    artifactKey := some "architecture"
    dependencies := onBlueprint :: onModules
    acceptanceCriteria := [
      "只能调用 write_module_design 保存一个 depth=1 ModuleDesign。",
      "module_id 必须为 " ++ module.moduleId ++ "，parent_design_id 必须为 " ++
        blueprint.designId ++ "。",
      "purpose 必须保留 Blueprint 业务目的；depends_on_modules 必须为 [" ++
        dependencyText module ++ "]。"]
    constraints := [
      "只能细化当前模块，不得新增 Blueprint 未声明的模块、业务能力或跨层依赖。",
      "不得修改总体蓝图、接口 owner 或其他模块的文件所有权。"]
    executionMode := .partitioned
    inputRefs := ref :: moduleRefs
    slot := some ("module-" ++ safe)
    outputKind := some "ModuleDesign"
    requirementIds := module.requirementIds
    wave := wave
    deliveryContract := some
      (architectureContract 1 ("module-" ++ safe) blueprint.designId module) }

def blueprintItemOf (plan : ExecutionPlan) (workItemId : String) : Result WorkItem := do
  match plan.workItem workItemId with
  | none => raise ("Blueprint WorkItem 不存在: " ++ workItemId)
  | some item => do
      raiseWhen (item.agentId != "architecture_agent")
        "Blueprint WorkItem 必须由 architecture_agent 执行"
      .ok item

def integrationOf (plan : ExecutionPlan) (workItemId : String) : Result WorkItem := do
  match plan.workItem workItemId with
  | none => raise ("架构集成 WorkItem 不存在: " ++ workItemId)
  | some item => do
      raiseWhen (item.executionMode != .integration) "架构集成 WorkItem 必须是 INTEGRATION"
      .ok item

/-- The integration item waits for the added items too. -/
def mergeDependencies (integration : WorkItem) (ruleId : String) (addedIds : List String) :
    Result (List WorkItemDependency) := do
  let onAdded ← collect (WorkItemDependency.system · ruleId) addedIds
  .ok (uniqueBy (·.workItemId) (integration.dependencies ++ onAdded))

/-- The plan with other items. The validation scope is not passed on. -/
def rebuilt (plan : ExecutionPlan) (workItems : List WorkItem) : Result ExecutionPlan :=
  ExecutionPlan.create {
    id := plan.id
    goal := plan.goal
    workItems := workItems
    templateId := plan.templateId
    processId := plan.processId
    trace := plan.trace }

/-- The present items, with the integration item waiting for every module. -/
def withModules (plan : ExecutionPlan) (ref : ArtifactRef) (safes : List String) :
    Option String → Result (List WorkItem)
  | none => .ok plan.workItems
  | some integrationId => do
      let integration ← integrationOf plan integrationId
      let deps ← mergeDependencies integration "architecture_blueprint:all_modules"
        (safes.map moduleItemId)
      let moduleRefs ← collect (fun safe => moduleRef plan (moduleItemId safe) safe) safes
      let updated ← integration.rewired deps
        (mergeRefs integration.inputRefs (ref :: moduleRefs))
      .ok (plan.workItems.map fun item => if item.id = integrationId then updated else item)

/-- `DynamicPlanBuilder.expand_modules`. -/
def expandModules (maxModules : Nat) (plan : ExecutionPlan) (blueprint : ArchitectureBlueprint)
    (blueprintWorkItemId : String) (integrationWorkItemId : Option String)
    (parentPlanRevision : Option Int) : Result BlueprintExpansion := do
  blueprint.validate maxModules
  let blueprintItem ← blueprintItemOf plan blueprintWorkItemId
  raiseWhen (blueprintItem.executionMode != .partitioned) "Blueprint WorkItem 必须是 PARTITIONED"
  raiseWhen (plan.workItems.any isModuleItem) "当前计划已经完成 Blueprint 模块扩展"
  let safeIds ← safeIdsFrom ∅ blueprint.moduleIds
  let waves ← moduleWaves blueprint
  let ref ← blueprintRef plan blueprintItem
  raiseWhen (plan.itemIds.any (· ∈ safeIds.values.map moduleItemId))
    "动态模块 WorkItem ID 与现有计划冲突"
  let added ← collect (moduleItem plan blueprint blueprintItem ref safeIds waves) blueprint.modules
  let present ← withModules plan ref safeIds.values integrationWorkItemId
  let expanded ← rebuilt plan (present ++ added)
  .ok {
    plan := expanded
    blueprintDesignId := blueprint.designId
    blueprintWorkItemId := blueprintWorkItemId
    addedWorkItemIds := added.map (·.id)
    integrationWorkItemId := integrationWorkItemId
    moduleWaves := waves
    parentPlanRevision := parentPlanRevision }

def sameSet (xs ys : List String) : Bool := xs.all (· ∈ ys) && ys.all (· ∈ xs)

/-- Designs written before the field existed inherit the dependencies of the blueprint. -/
def effectiveDependencies (design : ModuleDesign) (module : ModuleRef) : List String :=
  if design.dependsOnModules.isEmpty && !module.dependsOnModules.isEmpty then
    module.dependsOnModules
  else design.dependsOnModules

/-- The loop that takes one design for each module. -/
def designsFrom (blueprint : ArchitectureBlueprint) :
    Dict String ModuleDesign → List ModuleDesign → Result (Dict String ModuleDesign)
  | designs, [] => .ok designs
  | designs, design :: rest => do
      raiseWhen (design.depth != 1) ("模块设计 " ++ design.designId ++ " 必须是 depth=1")
      raiseWhen (design.parentDesignId != blueprint.designId)
        ("模块设计 " ++ design.designId ++ " 未引用当前总体蓝图")
      match (moduleMap blueprint).get? design.moduleId with
      | none => raise ("模块设计 " ++ design.moduleId ++ " 不在总体蓝图模块清单中")
      | some module => do
          raiseWhen (design.moduleId ∈ designs.keys)
            ("模块 " ++ design.moduleId ++ " 存在多个 ModuleDesign")
          raiseWhen (design.purpose.getD "" = "" || design.purpose != module.purpose)
            ("模块设计 " ++ design.moduleId ++ " 的 purpose 必须与 Blueprint 一致")
          raiseWhen (!sameSet (effectiveDependencies design module) module.dependsOnModules)
            ("模块设计 " ++ design.moduleId ++ " 的 depends_on_modules 必须与 Blueprint 一致")
          designsFrom blueprint (designs.set design.moduleId
            { design with dependsOnModules := effectiveDependencies design module }) rest

/-- The module a design item says it was made for. -/
def declaredModule (item : WorkItem) : Json :=
  ((Json.obj (item.deliveryContract.getD [])).get "architecture").get "module_id"

def isItemOfModule (moduleId : String) (item : WorkItem) : Bool :=
  item.stageId = some "architecture_module" && item.agentId = "architecture_agent" &&
    ((declaredModule item).isStr moduleId ||
      item.slot.getD "" = "module-" ++ safeComponent moduleId)

/-- The design item of a module: the supplied id, else the only matching item. -/
def resolveModuleItem (plan : ExecutionPlan) (supplied : Dict String String) (moduleId : String) :
    Result String := do
  let candidate := match supplied.get? moduleId with
    | some workItemId => some workItemId
    | none =>
        match plan.workItems.filter (isItemOfModule moduleId) with
        | [item] => some item.id
        | _ => none
  match candidate.bind plan.workItem with
  | none => raise ("模块 " ++ moduleId ++ " 缺少对应的 architecture_module WorkItem")
  | some item => do
      raiseWhen (item.agentId != "architecture_agent" || item.executionMode != .partitioned)
        ("模块 " ++ moduleId ++ " 的 WorkItem 不是合法 PARTITIONED 架构节点")
      .ok item.id

def resolveModuleItems (plan : ExecutionPlan) (supplied : Dict String String)
    (moduleIds : List String) : Result (Dict String String) := do
  let itemIds ← collect (resolveModuleItem plan supplied) moduleIds
  .ok (.ofList (moduleIds.zip itemIds))

def ownedFilesText (module : ModuleRef) : String :=
  if module.ownedRequiredFiles.isEmpty then "无" else Text.join ", " module.ownedRequiredFiles

def implementationItem (plan : ExecutionPlan) (ref : ArtifactRef)
    (designs : Dict String ModuleDesign) (itemIds safeIds : Dict String String)
    (waves : Dict String Nat) (module : ModuleRef) : Result WorkItem := do
  let moduleItemId ← subscript itemIds module.moduleId
  let design ← subscript designs module.moduleId
  let safe ← subscript safeIds module.moduleId
  let wave ← subscript waves module.moduleId
  let ownRef ← moduleRef plan moduleItemId safe
  let moduleRefs ← collect (fun dependency => do
      let itemId ← subscript itemIds dependency
      let other ← subscript safeIds dependency
      moduleRef plan itemId other) module.dependsOnModules
  let onModule ← WorkItemDependency.system moduleItemId "architecture_module:implementation"
  WorkItem.create {
    id := implementationItemId safe
    agentId := "architecture_agent"
    stageId := some "architecture_implementation"
    objective := "将模块 " ++ module.moduleId ++ "（业务目的：" ++ purposeOf module ++
      "）细化为可执行的文件级实现设计；只定义实现单元、接口 ownership、依赖和测试边界，不编写代码。"
    outputKey := "architecture_implementation_" ++ safe
    artifactKey := some "architecture"
    dependencies := [onModule]
    acceptanceCriteria := [
      "只能调用 write_implementation_design 保存一个 depth=2 ImplementationDesign。",
      "module_id 必须为 " ++ module.moduleId ++ "，parent_design_id 必须为 " ++
        design.designId ++ "。",
      "每个 implementation_unit 的 owned_files 必须是具体文件且唯一归属；接口必须区分 provided_interfaces 和 consumed_interfaces。",
      "depends_on_modules 必须保持 Blueprint 声明：[" ++ dependencyText module ++ "]。",
      "本模块必须由 implementation_units.owned_files 覆盖 Blueprint 分配的文件：" ++
        ownedFilesText module]
    constraints := [
      "只能细化当前模块，不得新增 Blueprint 未声明的模块或业务能力。",
      "不得修改 ModuleDesign、Blueprint 或其他模块的文件 ownership。",
      "不得提前消费其他模块的 ImplementationDesign；跨模块关系只能通过已声明接口引用表达。"]
    executionMode := .partitioned
    inputRefs := ref :: ownRef :: moduleRefs
    slot := some ("implementation-" ++ safe)
    outputKind := some "ImplementationDesign"
    requirementIds := module.requirementIds
    wave := wave
    deliveryContract := some
      (architectureContract 2 ("implementation-" ++ safe) design.designId module) }

def addedRef (plan : ExecutionPlan) (item : WorkItem) : Result ArtifactRef :=
  ArtifactRef.staged "architecture" plan.trace.traceId item.id (item.slot.getD "")

/-- A contract item reads the same frozen designs as the integration item. -/
def rewiredForDesigns (integrationId : String) (updated : WorkItem) (refs : List ArtifactRef)
    (item : WorkItem) : Result WorkItem :=
  if item.id = integrationId then .ok updated
  else if item.stageId = some "contract" then item.rewired item.dependencies refs
  else .ok item

/-- The present items, with the integration item waiting for every implementation design. -/
def withImplementations (plan : ExecutionPlan) (added : List WorkItem) :
    Option WorkItem → Result (List WorkItem)
  | none => .ok plan.workItems
  | some integration => do
      let deps ← mergeDependencies integration "architecture_implementation:all_modules"
        (added.map (·.id))
      let newRefs ← collect (addedRef plan) added
      let refs := mergeRefs integration.inputRefs newRefs
      let updated ← integration.rewired deps refs
      collect (rewiredForDesigns integration.id updated refs) plan.workItems

def optionalIntegration (plan : ExecutionPlan) : Option String → Result (Option WorkItem)
  | none => .ok none
  | some integrationId => do
      let integration ← integrationOf plan integrationId
      .ok (some integration)

/-- `DynamicPlanBuilder.expand_implementations`. -/
def expandImplementations (maxModules : Nat) (plan : ExecutionPlan)
    (blueprint : ArchitectureBlueprint) (moduleDesigns : List ModuleDesign)
    (blueprintWorkItemId : String) (moduleWorkItemIds : Dict String String)
    (integrationWorkItemId : Option String) (parentPlanRevision : Option Int) :
    Result ImplementationExpansion := do
  blueprint.validate maxModules
  let blueprintItem ← blueprintItemOf plan blueprintWorkItemId
  let integration ← optionalIntegration plan integrationWorkItemId
  raiseWhen (plan.workItems.any isImplementationItem)
    "当前计划已经完成 Architecture Implementation 扩展"
  let designs ← designsFrom blueprint ∅ moduleDesigns
  raiseWhen (blueprint.moduleIds.any (· ∉ designs.keys))
    ("缺少 ModuleDesign: " ++
      Text.join ", " (Text.sorted (blueprint.moduleIds.filter (· ∉ designs.keys))))
  let itemIds ← resolveModuleItems plan moduleWorkItemIds blueprint.moduleIds
  let safeIds ← safeIdsFrom ∅ blueprint.moduleIds
  let waves ← moduleWaves blueprint
  raiseWhen (plan.itemIds.any (· ∈ safeIds.values.map implementationItemId))
    "动态实现设计 WorkItem ID 与现有计划冲突"
  let ref ← blueprintRef plan blueprintItem
  let added ← collect (implementationItem plan ref designs itemIds safeIds waves) blueprint.modules
  let present ← withImplementations plan added integration
  let expanded ← rebuilt plan (present ++ added)
  .ok {
    plan := expanded
    blueprintDesignId := blueprint.designId
    blueprintWorkItemId := blueprintWorkItemId
    moduleDesignIds := blueprint.moduleIds.filterMap fun moduleId =>
      (designs.get? moduleId).map (·.designId)
    moduleWorkItemIds := itemIds
    addedWorkItemIds := added.map (·.id)
    integrationWorkItemId := integrationWorkItemId
    implementationWaves := waves
    parentPlanRevision := parentPlanRevision }

/-- What a successful expansion by modules has computed. -/
theorem expandModules_ok {maxModules : Nat} {plan : ExecutionPlan}
    {blueprint : ArchitectureBlueprint} {blueprintId : String} {integrationId : Option String}
    {revision : Option Int} {expansion : BlueprintExpansion}
    (h : expandModules maxModules plan blueprint blueprintId integrationId revision =
      .ok expansion) :
    ∃ blueprintItem safeIds waves ref added present,
      blueprint.validate maxModules = .ok () ∧
      blueprintItemOf plan blueprintId = .ok blueprintItem ∧
      blueprintItem.executionMode = .partitioned ∧
      safeIdsFrom ∅ blueprint.moduleIds = .ok safeIds ∧
      blueprintRef plan blueprintItem = .ok ref ∧
      collect (moduleItem plan blueprint blueprintItem ref safeIds waves) blueprint.modules =
        .ok added ∧
      withModules plan ref safeIds.values integrationId = .ok present ∧
      rebuilt plan (present ++ added) = .ok expansion.plan := by
  simp only [expandModules, bind_eq_ok, raiseWhen_eq_ok, bne_eq_false_iff_eq] at h
  obtain ⟨_, hvalid, blueprintItem, hblueprint, _, hmode, _, -, safeIds, hsafe, waves, -, ref, href,
    _, -, added, hadded, present, hpresent, expanded, hexpanded, h⟩ := h
  cases h
  exact ⟨blueprintItem, safeIds, waves, ref, added, present, hvalid, hblueprint, hmode, hsafe, href,
    hadded, hpresent, hexpanded⟩

theorem expandImplementations_ok {maxModules : Nat} {plan : ExecutionPlan}
    {blueprint : ArchitectureBlueprint} {moduleDesigns : List ModuleDesign} {blueprintId : String}
    {supplied : Dict String String} {integrationId : Option String} {revision : Option Int}
    {expansion : ImplementationExpansion}
    (h : expandImplementations maxModules plan blueprint moduleDesigns blueprintId supplied
      integrationId revision = .ok expansion) :
    ∃ blueprintItem integration designs itemIds safeIds waves ref added present,
      blueprint.validate maxModules = .ok () ∧
      blueprintItemOf plan blueprintId = .ok blueprintItem ∧
      optionalIntegration plan integrationId = .ok integration ∧
      resolveModuleItems plan supplied blueprint.moduleIds = .ok itemIds ∧
      safeIdsFrom ∅ blueprint.moduleIds = .ok safeIds ∧
      blueprintRef plan blueprintItem = .ok ref ∧
      collect (implementationItem plan ref designs itemIds safeIds waves) blueprint.modules =
        .ok added ∧
      withImplementations plan added integration = .ok present ∧
      rebuilt plan (present ++ added) = .ok expansion.plan := by
  simp only [expandImplementations, bind_eq_ok] at h
  obtain ⟨_, hvalid, blueprintItem, hblueprint, integration, hintegration, _, -, designs, -, _, -,
    itemIds, hitemIds, safeIds, hsafe, waves, -, _, -, ref, href, added, hadded, present, hpresent,
    expanded, hexpanded, h⟩ := h
  cases h
  exact ⟨blueprintItem, integration, designs, itemIds, safeIds, waves, ref, added, present, hvalid,
    hblueprint, hintegration, hitemIds, hsafe, href, hadded, hpresent, hexpanded⟩

theorem integrationOf_ok {plan : ExecutionPlan} {workItemId : String} {item : WorkItem}
    (h : integrationOf plan workItemId = .ok item) :
    item ∈ plan.workItems ∧ item.id = workItemId := by
  unfold integrationOf at h
  split at h
  · cases h
  · rename_i found hfound
    rw [raiseWhen_bind_eq_ok] at h
    cases h.2
    exact plan.workItem_eq_some_iff.mp hfound

theorem withModules_continues {plan : ExecutionPlan} {ref : ArtifactRef} {safes : List String}
    {integrationId : Option String} {present : List WorkItem}
    (h : withModules plan ref safes integrationId = .ok present) {item : WorkItem}
    (hitem : item ∈ plan.workItems) : ∃ item' ∈ present, item.Continues item' := by
  unfold withModules at h
  cases integrationId with
  | none =>
    cases h
    exact ⟨item, hitem, .refl item⟩
  | some integrationId =>
    simp only [bind_eq_ok] at h
    obtain ⟨integration, hintegration, _, -, _, -, updated, hupdated, h⟩ := h
    cases h
    by_cases hid : item.id = integrationId
    · obtain ⟨hmem, hsame⟩ := integrationOf_ok hintegration
      obtain rfl := plan.eq_of_id_eq hitem hmem (hid.trans hsame.symm)
      exact ⟨updated, List.mem_map.mpr ⟨item, hitem, if_pos hid⟩, WorkItem.rewired_continues hupdated⟩
    · exact ⟨item, List.mem_map.mpr ⟨item, hitem, if_neg hid⟩, .refl item⟩

theorem withImplementations_continues {plan : ExecutionPlan} {added : List WorkItem}
    {integration : Option WorkItem} {present : List WorkItem}
    (hmem : ∀ item ∈ integration, item ∈ plan.workItems)
    (h : withImplementations plan added integration = .ok present) {item : WorkItem}
    (hitem : item ∈ plan.workItems) : ∃ item' ∈ present, item.Continues item' := by
  unfold withImplementations at h
  cases integration with
  | none =>
    cases h
    exact ⟨item, hitem, .refl item⟩
  | some integration =>
    simp only [bind_eq_ok] at h
    obtain ⟨_, -, _, -, updated, hupdated, hpresent⟩ := h
    obtain ⟨item', hitem', hrewired⟩ := collect_mem hpresent hitem
    refine ⟨item', hitem', ?_⟩
    unfold rewiredForDesigns at hrewired
    split at hrewired
    · rename_i hid
      cases hrewired
      obtain rfl := plan.eq_of_id_eq hitem (hmem integration rfl) hid
      exact WorkItem.rewired_continues hupdated
    · split at hrewired
      · exact WorkItem.rewired_continues hrewired
      · cases hrewired
        exact .refl item

theorem optionalIntegration_ok {plan : ExecutionPlan} {integrationId : Option String}
    {integration : Option WorkItem}
    (h : optionalIntegration plan integrationId = .ok integration) :
    ∀ item ∈ integration, item ∈ plan.workItems := by
  cases integrationId with
  | none =>
    cases h
    exact fun _ hnone => nomatch hnone
  | some integrationId =>
    simp only [optionalIntegration, bind_eq_ok] at h
    obtain ⟨found, hfound, h⟩ := h
    cases h
    intro item hitem
    cases hitem
    exact (integrationOf_ok hfound).1

end DynamicPlanBuilder
end ProjectOS.Planner
