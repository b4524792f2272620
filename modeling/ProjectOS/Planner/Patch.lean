import ProjectOS.Agent.Registry
import ProjectOS.Base.Downstream
import ProjectOS.Orchestration.Plan

/-! Local patches of a plan: a few items are modified, added or removed, and
what lies downstream of a change is reported for a rerun. -/
namespace ProjectOS.Planner
open Base Orchestration Agent

inductive OperationKind where
  | modify
  | add
  | remove
deriving DecidableEq, Repr

structure PatchOperation where
  operation : OperationKind
  workItemId : Option String := none
  ref : Option String := none
  agentId : Option String := none
  objective : Option String := none
  dependsOn : List String := []

structure PlanPatch where
  basePlanId : String
  operations : List PatchOperation
  repairScope : List String := []

structure ChangeBudget where
  maxAdded : Int := 2
  maxRemoved : Int := 1
  maxModified : Int := 2
  maxDependencyChanges : Int := 2

structure AppliedPlanPatch where
  plan : ExecutionPlan
  invalidatedWorkItemIds : List String
  addedWorkItemIds : List String
  removedWorkItemIds : List String
  dependencyChangeCount : Nat

namespace PlanPatch

def ofKind (patch : PlanPatch) (kind : OperationKind) : List PatchOperation :=
  patch.operations.filter (·.operation = kind)

def modified (patch : PlanPatch) : List PatchOperation := patch.ofKind .modify

def added (patch : PlanPatch) : List PatchOperation := patch.ofKind .add

def removed (patch : PlanPatch) : List PatchOperation := patch.ofKind .remove

/-- The ids the operations name; an empty id counts as none. -/
def referencedIds (patch : PlanPatch) : List String :=
  patch.operations.filterMap fun op => op.workItemId.filter (· ≠ "")

def removeIds (patch : PlanPatch) : List String :=
  patch.removed.filterMap fun op => op.workItemId.filter (· ≠ "")

end PlanPatch

/-- `_compute_contract_digest()`: digests of older plans leave the tools out. -/
def ownDigest (item : WorkItem) : String := item.computeContractDigest (!item.legacyContractDigest)

def checkBaseline (plan : ExecutionPlan) (patch : PlanPatch) : Result Unit := do
  raiseWhen (patch.basePlanId != plan.id) ("PlanPatch 基线不匹配: 需要 " ++ Text.quote plan.id ++
    "，收到 " ++ Text.quote patch.basePlanId)
  raiseWhen (plan.workItems.any (·.executionMode != .exclusive))
    "受控 Workflow 不能直接应用局部补丁，请创建新的受控运行"
  forEach (fun item : WorkItem => raiseWhen (item.contractDigest != some (ownDigest item))
    ("WorkItem 合同指纹无效: " ++ item.id)) plan.workItems

def sortedSet (ids : List String) : String := Text.join ", " (Text.sorted (dedupe ids))

def checkScope (plan : ExecutionPlan) (patch : PlanPatch) : Result Unit :=
  if patch.repairScope.isEmpty then .ok ()
  else do
    let unknown := patch.repairScope.filter (· ∉ plan.itemIds)
    raiseWhen (!unknown.isEmpty) ("repair_scope 引用了不存在的 WorkItem: " ++ sortedSet unknown)
    let outside := patch.referencedIds.filter (· ∉ patch.repairScope)
    raiseWhen (!outside.isEmpty) ("PlanPatch 超出 repair_scope: " ++ sortedSet outside)
    let dependencies := (patch.operations.flatMap (·.dependsOn)).filter (· ∉ patch.repairScope)
    raiseWhen (!dependencies.isEmpty) ("PlanPatch 依赖超出 repair_scope: " ++ sortedSet dependencies)

/-- A modification that names other dependencies than the item has. -/
def changesDependencies (plan : ExecutionPlan) (op : PatchOperation) : Bool :=
  !op.dependsOn.isEmpty && match op.workItemId.bind plan.workItem with
    | some item => op.dependsOn != item.dependencyIds
    | none => false

def dependencyChanges (plan : ExecutionPlan) (patch : PlanPatch) : Nat :=
  (patch.modified.filter (changesDependencies plan)).length

def checkBudget (plan : ExecutionPlan) (patch : PlanPatch) (budget : ChangeBudget) :
    Result Unit := do
  raiseWhen (dependencyChanges plan patch != 0) "WorkItem 合同已冻结，局部补丁不能修改 dependencies"
  raiseWhen (budget.maxModified < patch.modified.length) "局部修改超过修改节点数量预算"
  raiseWhen (budget.maxAdded < patch.added.length) "局部修改超过新增节点数量预算"
  raiseWhen (budget.maxRemoved < patch.removed.length) "局部修改超过删除节点数量预算"
  raiseWhen (budget.maxDependencyChanges < dependencyChanges plan patch) "局部修改超过依赖变化预算"

def checkTarget (plan : ExecutionPlan) (completed : List String) (allowCompletedRevision : Bool)
    (op : PatchOperation) : Result Unit := do
  raiseWhen (!op.workItemId.any (· ∈ plan.itemIds)) "补丁引用了不存在的 WorkItem"
  raiseWhen (op.workItemId.any (· ∈ completed) && !allowCompletedRevision)
    ("已完成 WorkItem 不可修改: " ++ op.workItemId.getD "None")

/-- An omitted text counts as empty. -/
def given (text : Option String) : Bool := text.getD "" ≠ ""

def checkObjective (op : PatchOperation) : Result Unit := do
  raiseWhen (!given op.objective) "modify 操作必须提供 objective"
  raiseWhen (op.objective.any Text.blank) "modify.objective 不能为空"

/-- For each removed dependency that is still needed, the last item that needs it. -/
def dependents (plan : ExecutionPlan) (patch : PlanPatch) : Dict String String :=
  .ofList (plan.workItems.flatMap fun item =>
    (item.dependencyIds.filter fun dependency =>
      dependency ∈ patch.removeIds && item.id ∉ patch.removeIds).map fun dependency =>
        (dependency, item.id))

def checkOperations (plan : ExecutionPlan) (patch : PlanPatch) (completed : List String)
    (allowCompletedRevision : Bool) : Result Unit := do
  raiseWhen (hasDuplicates patch.referencedIds) "同一 WorkItem 不能在一个补丁中重复修改"
  forEach (checkTarget plan completed allowCompletedRevision) (patch.modified ++ patch.removed)
  forEach checkObjective patch.modified
  raiseWhen (hasDuplicates (patch.added.filterMap fun op => op.ref.filter (· ≠ "")))
    "新增节点 ref 不能重复"
  raiseWhen (!(dependents plan patch).entries.isEmpty)
    ("不能删除仍被其他节点依赖的 WorkItem: " ++
      Text.join ", " (Text.sorted (dependents plan patch).values))

/-- The item under its new objective. Its tools are derived again; the digest is kept. -/
def modifiedItem (item : WorkItem) (op : PatchOperation) : Result WorkItem :=
  WorkItem.create { item.toWorkItemFields with
    objective := Text.orElse op.objective item.objective
    requiredTools := [] }

def modificationOf (patch : PlanPatch) (item : WorkItem) : Option PatchOperation :=
  patch.modified.find? (·.workItemId = some item.id)

def remainingItem (patch : PlanPatch) (item : WorkItem) : Result WorkItem :=
  match modificationOf patch item with
  | none => .ok item
  | some op => modifiedItem item op

/-- The items that are not removed, modified where the patch says so. -/
def remainingItems (plan : ExecutionPlan) (patch : PlanPatch) : Result (List WorkItem) :=
  collect (remainingItem patch) (plan.workItems.filter (·.id ∉ patch.removeIds))

/-- A number in two digits. -/
def twoDigits (n : Nat) : String := if n < 10 then "0" ++ toString n else toString n

def patchPrefix : String := "wi-patch-"

def addedItem (agents : AgentRegistry) (existing : List String) (index : Nat)
    (op : PatchOperation) : Result WorkItem := do
  raiseWhen (!(given op.ref && given op.agentId && given op.objective))
    "新增 WorkItem 必须提供 ref、agent_id 和 objective"
  match agents.definition (op.agentId.getD "") with
  | none => raise ("新增节点引用未注册 Agent: " ++ op.agentId.getD "")
  | some definition => do
      raiseWhen (op.dependsOn.any (· ∉ existing)) ("新增节点依赖不存在: " ++ op.ref.getD "")
      let itemId := patchPrefix ++ twoDigits index ++ "-" ++ definition.outputKey
      raiseWhen (itemId ∈ existing) ("新增节点 id 冲突: " ++ itemId)
      let dependencies ← collect (fun dependency =>
        WorkItemDependency.create { workItemId := dependency, source := .planner }) op.dependsOn
      WorkItem.create {
        id := itemId
        agentId := op.agentId.getD ""
        objective := op.objective.getD ""
        outputKey := definition.outputKey ++ "_patch_" ++ twoDigits index
        artifactKey := some (Text.orElse definition.artifactKey definition.outputKey)
        dependencies := dependencies }

/-- The loop over the additions, numbered from one; later ones may depend on earlier ones. -/
def addedItems (agents : AgentRegistry) : List String → Nat → List PatchOperation →
    Result (List WorkItem)
  | _, _, [] => .ok []
  | existing, index, op :: rest => do
      let item ← addedItem agents existing index op
      let items ← addedItems agents (existing ++ [item.id]) (index + 1) rest
      .ok (item :: items)

/-- What is rerun: the removed, modified and added items and all items downstream. -/
def invalidated (patch : PlanPatch) (remaining added : List WorkItem) : List String :=
  Downstream.saturate (fun item : WorkItem => item.id) (fun item => item.dependencyIds)
    (remaining ++ added) (remaining ++ added).length
    (patch.removeIds ++
      ((remaining.filter fun item => (modificationOf patch item).isSome).map (·.id)) ++
      added.map (·.id))

/-- `apply_patch`. -/
def applyPatch (plan : ExecutionPlan) (patch : PlanPatch) (agents : AgentRegistry)
    (completed : List String) (allowCompletedRevision : Bool) (budget : ChangeBudget) :
    Result AppliedPlanPatch := do
  checkBaseline plan patch
  checkScope plan patch
  checkBudget plan patch budget
  checkOperations plan patch completed allowCompletedRevision
  let remaining ← remainingItems plan patch
  let added ← addedItems agents (remaining.map (·.id)) 1 patch.added
  let patched ← ExecutionPlan.create {
    id := plan.id ++ "-patch-" ++ toString patch.operations.length
    goal := plan.goal
    workItems := remaining ++ added
    templateId := plan.templateId
    trace := plan.trace }
  .ok {
    plan := patched
    invalidatedWorkItemIds := Text.sorted (dedupe (invalidated patch remaining added))
    addedWorkItemIds := ((remaining ++ added).map (·.id)).filter (Text.startswith · patchPrefix)
    removedWorkItemIds := Text.sorted (dedupe patch.removeIds)
    dependencyChangeCount := dependencyChanges plan patch }

end ProjectOS.Planner
