import ProjectOS.Agent.Registry
import ProjectOS.Orchestration.State
import ProjectOS.Planner.DeliveryTail
import ProjectOS.Planner.DynamicBuilder
import ProjectOS.Workflow.Compiler

/-! The plan rewrites of the runner. Between two batches a completed blueprint,
module design or contract replaces the plan of the run by a larger one. -/
namespace ProjectOS.Orchestration
open Base Artifact Architecture Planner

/-- What the stores return at one moment of a run: the staged designs, the
project contract and the revision of the plan baseline. -/
structure Workspace where
  design : ArtifactRef → Result Design
  contract : Result ImplementationContract
  revision : Option Int := none

structure GraphRunner where
  agents : Agent.AgentRegistry
  traced : Bool := true
  maxWorkers : Nat := 4
  maxModules : Nat := 32
  maxWorkers_pos : 1 ≤ maxWorkers := by decide

namespace GraphRunner

def isBlueprintItem (item : WorkItem) : Bool :=
  item.stageId = some "architecture_blueprint" ||
    (item.agentId = "architecture_agent" && item.slot = some "blueprint" &&
      item.outputKind = some "ArchitectureBlueprint")

def isIntegrationItem (item : WorkItem) : Bool :=
  item.stageId = some "architecture_integration" ||
    (item.agentId = "architecture_agent" && item.executionMode = .integration &&
      item.publishTarget = some "architecture")

def isDesignedModuleItem (item : WorkItem) : Bool :=
  item.agentId = "architecture_agent" && item.stageId = some "architecture_module"

def loadBlueprint (workspace : Workspace) (plan : ExecutionPlan) (item : WorkItem) :
    Result ArchitectureBlueprint := do
  let ref ← DynamicPlanBuilder.blueprintRef plan item
  match ← workspace.design ref with
  | .blueprint design => .ok design
  | _ => raise "Blueprint 暂存产物不是 depth=0 ArchitectureBlueprint"

/-- `_expand_architecture_modules_if_ready`: the new plan, if there is one. -/
def modulesPlan (runner : GraphRunner) (workspace : Workspace) (state : RunState) :
    Result (Option ExecutionPlan) :=
  match state.plan.workItems.find? isBlueprintItem with
  | none => .ok none
  | some blueprintItem =>
      if !runner.traced || state.plan.workItems.any DynamicPlanBuilder.isModuleItem ||
          !state.hasCompleted blueprintItem.id then .ok none
      else do
        let blueprint ← loadBlueprint workspace state.plan blueprintItem
        let expansion ← DynamicPlanBuilder.expandModules runner.maxModules state.plan blueprint
          blueprintItem.id ((state.plan.workItems.find? isIntegrationItem).map (·.id))
          workspace.revision
        .ok (some expansion.plan)

def loadModuleDesign (workspace : Workspace) (plan : ExecutionPlan) (item : WorkItem) :
    Result ModuleDesign := do
  let ref ← ArtifactRef.staged (Text.orElse item.artifactKey "architecture") plan.trace.traceId
    item.id (item.slot.getD "")
  match ← workspace.design ref with
  | .module design => .ok design
  | _ => raise ("模块 WorkItem " ++ item.id ++ " 暂存产物不是 depth=1 ModuleDesign")

/-- `_expand_architecture_implementations_if_ready`. -/
def implementationsPlan (runner : GraphRunner) (workspace : Workspace) (state : RunState) :
    Result (Option ExecutionPlan) :=
  let moduleItems := state.plan.workItems.filter isDesignedModuleItem
  match state.plan.workItems.find? isBlueprintItem,
      state.plan.workItems.find? isIntegrationItem with
  | some blueprintItem, some integration =>
      if !runner.traced || moduleItems.isEmpty ||
          state.plan.workItems.any DynamicPlanBuilder.isImplementationItem ||
          moduleItems.any (!state.hasCompleted ·.id) ||
          !state.hasCompleted blueprintItem.id then .ok none
      else do
        let blueprint ← loadBlueprint workspace state.plan blueprintItem
        let designs ← collect (loadModuleDesign workspace state.plan) moduleItems
        let expansion ← DynamicPlanBuilder.expandImplementations runner.maxModules state.plan
          blueprint designs blueprintItem.id
          (.ofList ((designs.map (·.moduleId)).zip (moduleItems.map (·.id))))
          (some integration.id) workspace.revision
        .ok (some expansion.plan)
  | _, _ => .ok none

def isContractItem (item : WorkItem) : Bool :=
  item.outputKey = "architecture_contract" || item.stageId = some "contract" ||
    item.agentId = "architecture_contract_agent"

/-- A dynamic plan with delivery items and a completed contract gets its tail once. -/
def tailReady (runner : GraphRunner) (state : RunState) (contract : WorkItem) : Bool :=
  runner.traced && state.plan.templateId ∈ [none, some "project_delivery_dynamic"] &&
    state.plan.workItems.any DynamicDeliveryTailBuilder.isReplaced &&
    !state.plan.workItems.any DynamicDeliveryTailBuilder.isTailItem &&
    state.hasCompleted contract.id

/-- `_append_dynamic_delivery_tail_if_ready`. -/
def tailPlan (runner : GraphRunner) (state : RunState) : Result (Option ExecutionPlan) :=
  match state.plan.workItems.find? isContractItem with
  | none => .ok none
  | some contract =>
      if !runner.tailReady state contract then .ok none
      else do
        let expansion ← DynamicDeliveryTailBuilder.append state.plan contract.id
          ((state.plan.workItems.find? DynamicDeliveryTailBuilder.isRequirementItem).map (·.id))
          ((state.plan.workItems.find? DynamicDeliveryTailBuilder.isArchitectureItem).map (·.id))
        .ok (some expansion.plan)

def isContractAnchor (item : WorkItem) : Bool :=
  item.outputKey = "architecture_contract" ||
    item.id ∈ ["architecture-contract", "wi-03-architecture-contract"]

def codeItem (baseDependencies : List WorkItemDependency) (item : WorkItem) : Result WorkItem :=
  item.rewired (item.dependencies ++ baseDependencies) item.inputRefs

def codeRef (plan : ExecutionPlan) (item : WorkItem) : Result ArtifactRef :=
  ArtifactRef.staged "implementation" plan.trace.traceId item.id (item.slot.getD "")

/-- The plan with the code items of a contract before the integration item. Neither
the process nor the validation scope is passed on. -/
def withCodeItems (plan : ExecutionPlan) (integration : WorkItem)
    (contract : ImplementationContract) : Result ExecutionPlan := do
  let compiled ← Workflow.ImplementationContractCompiler.compile contract plan.goal plan.id
    plan.trace
  let codeItems ← collect
    (codeItem (integration.dependencies.filter (·.workItemId ≠ integration.id))) compiled.workItems
  let refs ← collect (codeRef plan) codeItems
  let dependencies ← collect (fun item : WorkItem =>
    WorkItemDependency.system item.id "implementation-contract:integration") codeItems
  let merged ← integration.rewired dependencies refs
  ExecutionPlan.create {
    id := plan.id
    goal := plan.goal
    workItems := plan.workItems.filter (·.id ≠ integration.id) ++ codeItems ++ [merged]
    templateId := plan.templateId
    trace := plan.trace }

theorem withCodeItems_ok {plan plan' : ExecutionPlan} {integration : WorkItem}
    {contract : ImplementationContract} (h : withCodeItems plan integration contract = .ok plan') :
    ∃ (codeItems : List WorkItem) (refs : List ArtifactRef)
        (dependencies : List WorkItemDependency) (merged : WorkItem),
      integration.rewired dependencies refs = .ok merged ∧
      plan'.toPlanFields = {
        id := plan.id
        goal := plan.goal
        workItems := plan.workItems.filter (·.id ≠ integration.id) ++ codeItems ++ [merged]
        templateId := plan.templateId
        trace := plan.trace } := by
  simp only [withCodeItems, bind_eq_ok] at h
  obtain ⟨_, -, codeItems, -, refs, -, dependencies, -, merged, hmerged, h⟩ := h
  exact ⟨codeItems, refs, dependencies, merged, hmerged, ExecutionPlan.create_eq_ok.mp h⟩

/-- `_expand_implementation_plan_if_ready`, up to the check of the delivery contract. -/
def implementationPlan (runner : GraphRunner) (workspace : Workspace) (state : RunState) :
    Result (Option ExecutionPlan) :=
  match state.plan.workItems.find? isContractAnchor,
      state.plan.workItems.find? (·.agentId = "code_integration_agent") with
  | some contractItem, some integration =>
      if !runner.traced || state.plan.workItems.any (·.agentId = "code_agent") ||
          !state.hasCompleted contractItem.id then .ok none
      else do
        let contract ← workspace.contract
        let expanded ← withCodeItems state.plan integration contract
        .ok (some expanded)
  | _, _ => .ok none

theorem implementationPlan_ok {runner : GraphRunner} {workspace : Workspace} {state : RunState}
    {plan' : ExecutionPlan} (h : runner.implementationPlan workspace state = .ok (some plan')) :
    ∃ contractItem integration contract,
      state.plan.workItems.find? isContractAnchor = some contractItem ∧
      state.plan.workItems.find? (·.agentId = "code_integration_agent") = some integration ∧
      state.hasCompleted contractItem.id = true ∧
      withCodeItems state.plan integration contract = .ok plan' := by
  unfold implementationPlan at h
  split at h
  · rename_i contractItem integration hcontract hintegration
    split at h
    · cases h
    · rename_i hready
      simp only [Bool.or_eq_true, Bool.not_eq_true', not_or, Bool.not_eq_false] at hready
      simp only [bind_eq_ok] at h
      obtain ⟨contract, -, expanded, hexpanded, h⟩ := h
      cases h
      exact ⟨contractItem, integration, contract, hcontract, hintegration, hready.2, hexpanded⟩
  · cases h

end GraphRunner

inductive Rewrite where
  | modules
  | implementations
  | tail
  | implementationPlan
deriving DecidableEq, Repr

namespace Rewrite

/-- The plan a rewrite puts in place of the current one, if it is ready. -/
def plan (rewrite : Rewrite) (runner : GraphRunner) (workspace : Workspace) (state : RunState) :
    Result (Option ExecutionPlan) :=
  match rewrite with
  | modules => runner.modulesPlan workspace state
  | implementations => runner.implementationsPlan workspace state
  | tail => runner.tailPlan state
  | implementationPlan => runner.implementationPlan workspace state

/-- The state after a rewrite; an error ends the run. -/
def apply (rewrite : Rewrite) (runner : GraphRunner) (workspace : Workspace) (state : RunState) :
    Result RunState := do
  match ← rewrite.plan runner workspace state with
  | none => .ok state
  | some plan => .ok { state with plan := plan }

end Rewrite
end ProjectOS.Orchestration
