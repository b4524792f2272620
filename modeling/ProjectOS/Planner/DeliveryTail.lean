import ProjectOS.Orchestration.Plan

/-! The delivery stages appended to a dynamic plan once its contract is
published. They replace the delivery items the planner put in. -/
namespace ProjectOS.Planner
open Base Artifact Orchestration

namespace DynamicDeliveryTailBuilder

structure DeliveryTailExpansion where
  plan : ExecutionPlan
  workItemIds : List String

def tailPrefix : String := "wi-dynamic-tail-"

def replacedAgents : List String := ["task_agent", "bootstrap_agent", "code_agent",
  "code_integration_agent", "test_agent", "review_agent"]

def isTailItem (item : WorkItem) : Bool := Text.startswith item.id tailPrefix

def isReplaced (item : WorkItem) : Bool := item.agentId ∈ replacedAgents

def isRequirementItem (item : WorkItem) : Bool := item.agentId = "requirement_agent"

def isArchitectureItem (item : WorkItem) : Bool :=
  item.agentId = "architecture_agent" && item.publishTarget = some "architecture"

/-- An item by id, or else the only one that matches; none need match. -/
def resolveItem (plan : ExecutionPlan) (itemId : Option String) (predicate : WorkItem → Bool) :
    Result (Option WorkItem) :=
  match itemId with
  | some itemId =>
      match plan.workItem itemId with
      | none => raise ("动态交付尾部引用未知节点: " ++ itemId)
      | some item => .ok (some item)
  | none =>
      match plan.workItems.filter predicate with
      | [] => .ok none
      | [item] => .ok (some item)
      | items => raise ("动态交付尾部需要唯一的需求/架构节点，实际找到 " ++ toString items.length ++ " 个")

def taskPlanId : String := tailPrefix ++ "tasks-plan"

def taskIntegrationId : String := tailPrefix ++ "tasks-integration"

def taskQualityId : String := tailPrefix ++ "tasks-quality"

def environmentId : String := tailPrefix ++ "environment"

def codeIntegrationId : String := tailPrefix ++ "code-integration"

def testId : String := tailPrefix ++ "test"

def reviewId : String := tailPrefix ++ "review"

/-- The requirement and architecture items, where there are any, then the others. -/
def waitFor (requirement architecture : Option WorkItem) (rule : String)
    (others : List (String × String)) : Result (List WorkItemDependency) :=
  collect (fun e => WorkItemDependency.system e.1 ("dynamic-tail:" ++ e.2))
    ((requirement.toList.map fun item => (item.id, rule ++ "requirement")) ++
      (architecture.toList.map fun item => (item.id, rule ++ "architecture")) ++ others)

def published (artifactKeys : List String) : Result (List ArtifactRef) :=
  collect (ArtifactRef.published ·) artifactKeys

def taskPlan (requirement architecture : Option WorkItem) (contract : WorkItem) :
    Result WorkItem := do
  let refs ← published ["requirement", "architecture", "architecture_contract"]
  let deps ← waitFor requirement architecture "" [(contract.id, "contract")]
  WorkItem.create {
    id := taskPlanId
    agentId := "task_agent"
    stageId := some "task"
    objective := "根据已发布需求和 Project Contract 生成可验收的实施任务决策包。"
    outputKey := "dynamic_tasks_plan"
    artifactKey := some "tasks"
    executionMode := .partitioned
    slot := some "plan"
    inputRefs := refs
    dependencies := deps
    acceptanceCriteria := [
      "只列当前需求支持的 MVP 任务，并为每项提供产出和可验证验收条件。",
      "不得修改 Project Contract 的层级、路径或接口 ownership。"]
    constraints := ["任务只能引用已发布的 Requirement 和 Project Contract。"]
    outputKind := some "TaskObject" }

def taskIntegration (trace : TraceContext) : Result WorkItem := do
  let ref ← ArtifactRef.staged "tasks" trace.traceId taskPlanId "plan"
  let deps ← waitFor none none "" [(taskPlanId, "tasks")]
  WorkItem.create {
    id := taskIntegrationId
    agentId := "task_agent"
    stageId := some "task"
    objective := "整合动态任务决策包并创建 tasks 候选。"
    outputKey := "dynamic_tasks_candidate"
    artifactKey := some "tasks"
    executionMode := .integration
    publishTarget := some "tasks"
    inputRefs := [ref]
    dependencies := deps
    acceptanceCriteria := ["只整合已授权任务，不新增需求之外的功能。"]
    outputKind := some "TaskCandidate" }

def taskQuality : Result WorkItem := do
  let deps ← waitFor none none "" [(taskIntegrationId, "tasks-quality")]
  WorkItem.create {
    id := taskQualityId
    agentId := "task_agent"
    stageId := some "task"
    objective := "验证动态任务候选并发布 tasks.md。"
    outputKey := "dynamic_tasks_published"
    artifactKey := some "tasks"
    executionMode := .qualityGate
    publishTarget := some "tasks"
    candidateFromWorkItemId := some taskIntegrationId
    dependencies := deps
    outputKind := some "TaskObject" }

def environment (contract : WorkItem) : Result WorkItem := do
  let refs ← published ["requirement", "architecture", "architecture_contract", "tasks"]
  let deps ← waitFor none none ""
    [(contract.id, "environment-contract"), (taskQualityId, "environment-tasks")]
  WorkItem.create {
    id := environmentId
    agentId := "bootstrap_agent"
    stageId := some "environment"
    objective := "根据 Project Contract 和任务声明准备受信运行环境。"
    outputKey := "dynamic_environment"
    artifactKey := some "environment"
    inputRefs := refs
    dependencies := deps
    outputKind := some "EnvironmentReport" }

def codeIntegration (contract : WorkItem) : Result WorkItem := do
  let deps ← waitFor none none "" [(contract.id, "integration-contract"),
    (taskQualityId, "integration-tasks"), (environmentId, "integration-environment")]
  WorkItem.create {
    id := codeIntegrationId
    agentId := "code_integration_agent"
    stageId := some "integration"
    objective := "按 Implementation Contract 的 ownership 和 wave 合并所有代码分区。"
    outputKey := "dynamic_implementation_merge"
    artifactKey := some "implementation"
    executionMode := .integration
    publishTarget := some "workspace"
    dependencies := deps
    outputKind := some "WorkspaceSnapshot" }

def test : Result WorkItem := do
  let refs ← published ["requirement", "tasks", "environment", "implementation"]
  let deps ← waitFor none none "" [(codeIntegrationId, "test-integration"),
    (taskQualityId, "test-tasks"), (environmentId, "test-environment")]
  WorkItem.create {
    id := testId
    agentId := "test_agent"
    stageId := some "test"
    objective := "运行受信 sandbox 检查并保存测试证据。"
    outputKey := "dynamic_tests"
    artifactKey := some "tests"
    inputRefs := refs
    dependencies := deps
    outputKind := some "TestEvidence" }

def review (requirement architecture : Option WorkItem) (contract : WorkItem) :
    Result WorkItem := do
  let refs ← published ["requirement", "architecture", "architecture_contract", "tasks",
    "environment", "implementation", "tests"]
  let deps ← waitFor requirement architecture "review-" [(contract.id, "review-contract"),
    (taskQualityId, "review-tasks"), (environmentId, "review-environment"),
    (codeIntegrationId, "review-integration"), (testId, "review-test")]
  WorkItem.create {
    id := reviewId
    agentId := "review_agent"
    stageId := some "review"
    objective := "汇总需求、架构、合同、实现和测试证据，保存最终交付审查。"
    outputKey := "dynamic_review"
    artifactKey := some "review"
    inputRefs := refs
    dependencies := deps
    outputKind := some "ReviewReport" }

/-- Tasks, environment, code integration, test and review, in this order. -/
def additions (trace : TraceContext) (requirement architecture : Option WorkItem)
    (contract : WorkItem) : Result (List WorkItem) := do
  let taskPlan ← taskPlan requirement architecture contract
  let taskIntegration ← taskIntegration trace
  let taskQuality ← taskQuality
  let environment ← environment contract
  let codeIntegration ← codeIntegration contract
  let test ← test
  let review ← review requirement architecture contract
  .ok [taskPlan, taskIntegration, taskQuality, environment, codeIntegration, test, review]

/-- The items that stay: those of no replaced agent. -/
def preserved (plan : ExecutionPlan) : List WorkItem :=
  plan.workItems.filter fun item => !isReplaced item

/-- The contract item, or the error of a plan without it. -/
def contractOf (plan : ExecutionPlan) (contractItemId : String) : Result WorkItem :=
  match plan.workItem contractItemId with
  | none => raise ("动态交付尾部缺少合同节点: " ++ contractItemId)
  | some contract => .ok contract

/-- The new plan around a contract item. The validation scope is not passed on. -/
def expand (plan : ExecutionPlan) (contract : WorkItem)
    (requirementItemId architectureItemId : Option String) : Result DeliveryTailExpansion := do
  let requirement ← resolveItem plan requirementItemId isRequirementItem
  let architecture ← resolveItem plan architectureItemId isArchitectureItem
  let additions ← additions plan.trace requirement architecture contract
  let duplicates := additions.filter fun item => item.id ∈ (preserved plan).map (·.id)
  raiseWhen (!duplicates.isEmpty) ("动态交付尾部节点 ID 与现有计划冲突: " ++
    Text.join ", " (Text.sorted (duplicates.map (·.id))))
  let expanded ← ExecutionPlan.create {
    id := plan.id
    goal := plan.goal
    workItems := preserved plan ++ additions
    templateId := plan.templateId
    processId := plan.processId
    trace := plan.trace }
  .ok ⟨expanded, additions.map (·.id)⟩

/-- `DynamicDeliveryTailBuilder.append`. A plan that has its tail is left as it is. -/
def append (plan : ExecutionPlan) (contractItemId : String)
    (requirementItemId architectureItemId : Option String) : Result DeliveryTailExpansion := do
  let contract ← contractOf plan contractItemId
  if plan.workItems.any isTailItem then .ok ⟨plan, []⟩
  else expand plan contract requirementItemId architectureItemId

/-- What tells the added items apart: id, agent, stage and output. -/
def shape (item : WorkItem) : String × String × Option String × String :=
  (item.id, item.agentId, item.stageId, item.outputKey)

theorem shape_of_create {raw : WorkItemFields} {item : WorkItem}
    (h : WorkItem.create raw = .ok item) :
    shape item = (raw.id, raw.agentId, raw.stageId, raw.outputKey) := by
  obtain ⟨_, _, hfields⟩ := WorkItem.create_fields h
  rw [shape, hfields]
  rfl

theorem shape_taskPlan {requirement architecture : Option WorkItem} {contract : WorkItem}
    {item : WorkItem}
    (h : taskPlan requirement architecture contract = .ok item) :
    shape item = (taskPlanId, "task_agent", some "task", "dynamic_tasks_plan") := by
  simp only [taskPlan, bind_eq_ok] at h
  obtain ⟨_, -, _, -, h⟩ := h
  exact shape_of_create h

theorem shape_taskIntegration {trace : TraceContext} {item : WorkItem}
    (h : taskIntegration trace = .ok item) :
    shape item = (taskIntegrationId, "task_agent", some "task", "dynamic_tasks_candidate") := by
  simp only [taskIntegration, bind_eq_ok] at h
  obtain ⟨_, -, _, -, h⟩ := h
  exact shape_of_create h

theorem shape_taskQuality {item : WorkItem}
    (h : taskQuality = .ok item) :
    shape item = (taskQualityId, "task_agent", some "task", "dynamic_tasks_published") := by
  simp only [taskQuality, bind_eq_ok] at h
  obtain ⟨_, -, h⟩ := h
  exact shape_of_create h

theorem shape_environment {contract : WorkItem} {item : WorkItem}
    (h : environment contract = .ok item) :
    shape item = (environmentId, "bootstrap_agent", some "environment", "dynamic_environment") := by
  simp only [environment, bind_eq_ok] at h
  obtain ⟨_, -, _, -, h⟩ := h
  exact shape_of_create h

theorem shape_codeIntegration {contract : WorkItem} {item : WorkItem}
    (h : codeIntegration contract = .ok item) :
    shape item = (codeIntegrationId, "code_integration_agent", some "integration", "dynamic_implementation_merge") := by
  simp only [codeIntegration, bind_eq_ok] at h
  obtain ⟨_, -, h⟩ := h
  exact shape_of_create h

theorem shape_test {item : WorkItem}
    (h : test = .ok item) :
    shape item = (testId, "test_agent", some "test", "dynamic_tests") := by
  simp only [test, bind_eq_ok] at h
  obtain ⟨_, -, _, -, h⟩ := h
  exact shape_of_create h

theorem shape_review {requirement architecture : Option WorkItem} {contract : WorkItem}
    {item : WorkItem}
    (h : review requirement architecture contract = .ok item) :
    shape item = (reviewId, "review_agent", some "review", "dynamic_review") := by
  simp only [review, bind_eq_ok] at h
  obtain ⟨_, -, _, -, h⟩ := h
  exact shape_of_create h

def tailShape : List (String × String × Option String × String) := [
  (taskPlanId, "task_agent", some "task", "dynamic_tasks_plan"),
  (taskIntegrationId, "task_agent", some "task", "dynamic_tasks_candidate"),
  (taskQualityId, "task_agent", some "task", "dynamic_tasks_published"),
  (environmentId, "bootstrap_agent", some "environment", "dynamic_environment"),
  (codeIntegrationId, "code_integration_agent", some "integration", "dynamic_implementation_merge"),
  (testId, "test_agent", some "test", "dynamic_tests"),
  (reviewId, "review_agent", some "review", "dynamic_review")]

theorem additions_shape {trace : TraceContext} {requirement architecture : Option WorkItem}
    {contract : WorkItem} {added : List WorkItem}
    (h : additions trace requirement architecture contract = .ok added) :
    added.map shape = tailShape := by
  simp only [additions, bind_eq_ok] at h
  obtain ⟨plan, hplan, integration, hintegration, quality, hquality, env, henv, code, hcode, test,
    htest, review, hreview, h⟩ := h
  cases h
  simp only [List.map_cons, List.map_nil, shape_taskPlan hplan, shape_taskIntegration hintegration,
    shape_taskQuality hquality, shape_environment henv, shape_codeIntegration hcode,
    shape_test htest, shape_review hreview, tailShape]

/-- Every added item is marked by its id. -/
theorem isTailItem_of_additions {trace : TraceContext} {requirement architecture : Option WorkItem}
    {contract : WorkItem} {added : List WorkItem}
    (h : additions trace requirement architecture contract = .ok added) :
    ∀ item ∈ added, isTailItem item = true := by
  intro item hitem
  have hshape : shape item ∈ tailShape := additions_shape h ▸ List.mem_map_of_mem hitem
  have hmarked : ∀ s ∈ tailShape, Text.startswith s.1 tailPrefix = true := by
    simp only [tailShape, List.forall_mem_cons, List.not_mem_nil, false_implies, implies_true,
      and_true]
    refine ⟨?_, ?_, ?_, ?_, ?_, ?_, ?_⟩ <;> exact Text.startswith_append _ _
  exact hmarked _ hshape

theorem published_isOk {artifactKeys : List String} (h : artifactKeys.all safeId = true) :
    ∃ refs, published artifactKeys = .ok refs := by
  unfold published
  rw [collect_isOk_iff]
  exact fun key hkey => ArtifactRef.published_isOk_iff.mpr (List.all_eq_true.mp h key hkey)

/-- The ids an added item waits for, in order. -/
def waitedIds (requirement architecture : Option WorkItem) (others : List (String × String)) :
    List String :=
  (requirement.toList.map (·.id)) ++ (architecture.toList.map (·.id)) ++ others.map Prod.fst

theorem waitFor_ok {requirement architecture : Option WorkItem} {rule : String}
    {others : List (String × String)} {deps : List WorkItemDependency}
    (h : waitFor requirement architecture rule others = .ok deps) :
    deps.map (·.workItemId) = waitedIds requirement architecture others := by
  have hids := map_of_collect h (p := fun d : WorkItemDependency => d.workItemId)
    (q := fun e : String × String => e.1) fun e d hd => by
      rw [WorkItemDependency.create_eq_ok.mp hd]
  rw [hids]
  simp [waitedIds, Function.comp_def]

theorem append_ok {plan : ExecutionPlan} {contractId : String}
    {requirementId architectureId : Option String} {expansion : DeliveryTailExpansion}
    (h : append plan contractId requirementId architectureId = .ok expansion) :
    (plan.workItems.any isTailItem = true ∧ expansion.plan = plan) ∨
      (plan.workItems.any isTailItem = false ∧ ∃ contract requirement architecture added,
        contractOf plan contractId = .ok contract ∧
        additions plan.trace requirement architecture contract = .ok added ∧
        expansion.plan.toPlanFields = {
          id := plan.id, goal := plan.goal, workItems := preserved plan ++ added
          templateId := plan.templateId, processId := plan.processId, trace := plan.trace }) := by
  simp only [append, bind_eq_ok] at h
  obtain ⟨contract, hcontract, h⟩ := h
  split at h
  · rename_i htail
    cases h
    exact .inl ⟨htail, rfl⟩
  · rename_i htail
    simp only [expand, bind_eq_ok] at h
    obtain ⟨requirement, -, architecture, -, added, hadded, _, -, expanded, hexpanded, h⟩ := h
    cases h
    exact .inr ⟨by simpa using htail, contract, requirement, architecture, added, hcontract, hadded,
      ExecutionPlan.create_eq_ok.mp hexpanded⟩

end DynamicDeliveryTailBuilder
end ProjectOS.Planner
