import ProjectOS.Orchestration.PlanRecord
import ProjectOS.Orchestration.Runner
import ProjectOS.Planner.PatchReport

/-! The execution contract of a plan (goal, trace, template, process and scope)
across the rewrites of the plan. Every rewrite builds the plan field by field,
and a field it leaves out falls back to the default of the constructor. -/
namespace ProjectOS.Orchestration
open Base Artifact Architecture Planner Agent

/-- The plan is judged as before. -/
structure KeepsContract (plan plan' : ExecutionPlan) : Prop where
  goal : plan'.goal = plan.goal
  trace : plan'.trace = plan.trace
  templateId : plan'.templateId = plan.templateId
  processId : plan'.processId = plan.processId
  validationScope : plan'.validationScope = plan.validationScope

theorem KeepsContract.refl (plan : ExecutionPlan) : KeepsContract plan plan :=
  ⟨rfl, rfl, rfl, rfl, rfl⟩

inductive RewritePath where
  | modules
  | implementations
  | tail
  | implementationPlan
  | patch
deriving DecidableEq, Repr

/-- One successful rewrite of a plan. -/
inductive Rewritten (plan : ExecutionPlan) : RewritePath → ExecutionPlan → Prop where
  | modules {maxModules : Nat} {blueprint : ArchitectureBlueprint} {blueprintId : String}
      {integrationId : Option String} {revision : Option Int}
      {expansion : DynamicPlanBuilder.BlueprintExpansion}
      (h : DynamicPlanBuilder.expandModules maxModules plan blueprint blueprintId integrationId
        revision = .ok expansion) : Rewritten plan .modules expansion.plan
  | implementations {maxModules : Nat} {blueprint : ArchitectureBlueprint}
      {designs : List ModuleDesign} {blueprintId : String} {itemIds : Dict String String}
      {integrationId : Option String} {revision : Option Int}
      {expansion : DynamicPlanBuilder.ImplementationExpansion}
      (h : DynamicPlanBuilder.expandImplementations maxModules plan blueprint designs blueprintId
        itemIds integrationId revision = .ok expansion) :
      Rewritten plan .implementations expansion.plan
  | tail {contractId : String} {requirementId architectureId : Option String}
      {expansion : DynamicDeliveryTailBuilder.DeliveryTailExpansion}
      (h : DynamicDeliveryTailBuilder.append plan contractId requirementId architectureId =
        .ok expansion) : Rewritten plan .tail expansion.plan
  | implementationPlan {runner : GraphRunner} {workspace : Workspace} {state : RunState}
      {plan' : ExecutionPlan} (hplan : state.plan = plan)
      (h : runner.implementationPlan workspace state = .ok (some plan')) :
      Rewritten plan .implementationPlan plan'
  | patch {patch : PlanPatch} {agents : AgentRegistry} {completed : List String}
      {allowCompletedRevision : Bool} {budget : ChangeBudget} {applied : AppliedPlanPatch}
      (h : applyPatch plan patch agents completed allowCompletedRevision budget = .ok applied) :
      Rewritten plan .patch applied.plan

/-- When the defaults of the fields a rewrite leaves out are the plan's own. -/
def RewritePath.Harmless (plan : ExecutionPlan) : RewritePath → Prop
  | modules | implementations => plan.validationScope = .fullDelivery
  | tail => plan.workItems.any DynamicDeliveryTailBuilder.isTailItem = true ∨
      plan.validationScope = .fullDelivery
  | implementationPlan | patch =>
      plan.validationScope = .fullDelivery ∧ plan.processId = "software_delivery"

variable {plan plan' : ExecutionPlan}

theorem keepsContract_iff_of_scope_dropped {items : List WorkItem}
    (h : plan'.toPlanFields = {
      id := plan.id, goal := plan.goal, workItems := items, templateId := plan.templateId
      processId := plan.processId, trace := plan.trace }) :
    KeepsContract plan plan' ↔ plan.validationScope = .fullDelivery := by
  constructor
  · intro hkeeps
    rw [← hkeeps.validationScope, h]
  · intro hscope
    constructor <;> rw [h]
    exact hscope.symm

theorem keepsContract_iff_of_process_dropped {id : String} {items : List WorkItem}
    (h : plan'.toPlanFields = {
      id := id, goal := plan.goal, workItems := items, templateId := plan.templateId
      trace := plan.trace }) :
    KeepsContract plan plan' ↔
      plan.validationScope = .fullDelivery ∧ plan.processId = "software_delivery" := by
  constructor
  · intro hkeeps
    rw [← hkeeps.validationScope, ← hkeeps.processId, h]
    exact ⟨rfl, rfl⟩
  · rintro ⟨hscope, hprocess⟩
    constructor <;> rw [h]
    · exact hprocess.symm
    · exact hscope.symm

theorem Rewritten.keepsContract_iff {path : RewritePath} (h : Rewritten plan path plan') :
    KeepsContract plan plan' ↔ path.Harmless plan := by
  cases h with
  | modules h =>
    obtain ⟨_, _, _, _, _, _, -, -, -, -, -, -, -, hrebuilt⟩ := DynamicPlanBuilder.expandModules_ok h
    exact keepsContract_iff_of_scope_dropped (ExecutionPlan.create_eq_ok.mp hrebuilt)
  | implementations h =>
    obtain ⟨_, _, _, _, _, _, _, _, _, -, -, -, -, -, -, -, -, hrebuilt⟩ :=
      DynamicPlanBuilder.expandImplementations_ok h
    exact keepsContract_iff_of_scope_dropped (ExecutionPlan.create_eq_ok.mp hrebuilt)
  | tail h =>
    rcases DynamicDeliveryTailBuilder.append_ok h with ⟨htail, hplan⟩ | ⟨htail, _, _, _, _, -, -, hplan⟩
    · rw [hplan]
      exact iff_of_true (.refl plan) (.inl htail)
    · rw [keepsContract_iff_of_scope_dropped hplan, RewritePath.Harmless, htail]
      simp
  | implementationPlan hplan h =>
    subst hplan
    obtain ⟨_, _, _, -, -, -, hcode⟩ := GraphRunner.implementationPlan_ok h
    obtain ⟨_, _, _, _, -, hfields⟩ := GraphRunner.withCodeItems_ok hcode
    exact keepsContract_iff_of_process_dropped hfields
  | patch h =>
    obtain ⟨_, _, hfields⟩ := applyPatch_fields h
    exact keepsContract_iff_of_process_dropped hfields

/-- A rewrite keeps the contract of a plan exactly when the defaults of the fields
it leaves out are the plan's own; recording and loading keeps the scope. -/
theorem contract_kept_iff (plan : ExecutionPlan) :
    (∀ path plan', Rewritten plan path plan' → (KeepsContract plan plan' ↔ path.Harmless plan)) ∧
      ∀ (store : TraceStore) (loaded : ExecutionPlan),
        (store.recordPlan plan).loadPlan plan.trace.traceId = .ok loaded →
          loaded.validationScope = plan.validationScope :=
  ⟨fun _ _ h => h.keepsContract_iff, fun _ _ h => TraceStore.scope_of_loadPlan h⟩

/-- A vertical slice of two items. -/
def slicePlan : ExecutionPlan :=
  { patchedPlan with
    validationScope := .verticalSlice
    accepted := by decide }

theorem slicePlan_rewritten : ∃ plan', Rewritten slicePlan .patch plan' := by
  have hbase : checkBaseline slicePlan secondPatch = .ok () :=
    checkBaseline_eq_ok.mpr (by decide)
  have happlied : ∃ applied, applyPatch slicePlan secondPatch {} [] false {} = .ok applied := by
    unfold applyPatch
    rw [hbase, ok_bind]
    exact exists_of_isOk (by decide)
  obtain ⟨applied, h⟩ := happlied
  exact ⟨applied.plan, .patch h⟩

/-- A patched slice is judged as a full delivery. -/
theorem slicePlan_loses_scope : ∃ plan', Rewritten slicePlan .patch plan' ∧
    ¬ KeepsContract slicePlan plan' := by
  obtain ⟨plan', h⟩ := slicePlan_rewritten
  refine ⟨plan', h, fun hkeeps => ?_⟩
  have hscope := (h.keepsContract_iff.mp hkeeps).1
  exact absurd hscope (by decide)

theorem slicePlan_contract_kept_iff :
    ∃ plan', Rewritten slicePlan .patch plan' ∧
      (KeepsContract slicePlan plan' ↔ RewritePath.patch.Harmless slicePlan) := by
  obtain ⟨plan', h⟩ := slicePlan_rewritten
  exact ⟨plan', h, (contract_kept_iff slicePlan).1 _ _ h⟩

end ProjectOS.Orchestration
