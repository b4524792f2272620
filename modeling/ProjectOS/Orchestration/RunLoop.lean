import ProjectOS.Orchestration.RewriteRun
import ProjectOS.Orchestration.Scheduling

/-! The loop of the runner: each pass rewrites the plan where it can, chooses a
batch and records its results. -/
namespace ProjectOS.Orchestration
open Base

/-- What one pass of the loop meets: the polls for a cancellation, the stores, the
merge of the code waves and the results of the agents. -/
structure Surroundings where
  cancelled : Bool := false
  workspace : Rewrite → Workspace
  waveFails : Bool := false
  execute : WorkItem → NodeResult
  cancelledBefore : WorkItem → Bool := fun _ => false

/-- How the loop is left; `stuck` is the failure of a plan without executable node. -/
inductive Ending where
  | cancelled
  | rewriteFailed (error : Error)
  | waveFailed
  | completed
  | stuck
  | recordFailed (error : Error)
  | stopped (result : NodeResult)

/-- A pass goes on with a state, or the loop ends in one. -/
abbrev Outcome := Except (Ending × RunState) RunState

namespace GraphRunner

/-- The owners of `DeliveryContract.project_delivery`, with the items bound to them. -/
def deliveryOwners : List (String × String) := [
  ("project-documents", "wi-project-documents"),
  ("environment", "wi-environment"),
  ("code-integration", "wi-code-integration"),
  ("tests", "wi-tests"),
  ("review", "wi-review")]

/-- `DeliveryContract.validate_plan`; every consumer is bound to one of the owners. -/
def validateDelivery (plan : ExecutionPlan) : Result Unit :=
  let missing := (deliveryOwners.filter (·.2 ∉ plan.itemIds)).map Prod.fst
  raiseWhen (!missing.isEmpty)
    ("DeliveryContract 缺少产物 owner 节点: " ++ Text.join ", " (Text.sorted missing))

def isDocumentItem (item : WorkItem) : Bool :=
  item.agentId = "code_agent" && item.implementationUnitId = some "project-documents"

/-- New code items with project documents need the delivery owners. -/
def checkDelivery (plan expanded : ExecutionPlan) : Result Unit :=
  if !plan.workItems.any (·.agentId = "code_agent") && expanded.workItems.any isDocumentItem then
    validateDelivery expanded
  else .ok ()

def rewrite (runner : GraphRunner) (env : Surroundings) (rewrite : Rewrite) (state : RunState) :
    Outcome :=
  (rewrite.apply runner (env.workspace rewrite) state).mapError fun error =>
    (.rewriteFailed error, state)

/-- The rewrites of the architecture phase. -/
def expandDesign (runner : GraphRunner) (env : Surroundings) (state : RunState) : Outcome := do
  runner.rewrite env .implementations (← runner.rewrite env .modules state)

/-- The tail and the code items of the contract. -/
def expandDelivery (runner : GraphRunner) (env : Surroundings) (state : RunState) : Outcome := do
  let tailed ← runner.rewrite env .tail state
  let expanded ← runner.rewrite env .implementationPlan tailed
  match checkDelivery tailed.plan expanded.plan with
  | .ok () => .ok expanded
  | .error error => .error (.rewriteFailed error, expanded)

/-- The results of a batch in its order, with a poll before each. -/
def recordBatch (env : Surroundings) : RunState → List WorkItem → Outcome
  | state, [] => .ok state
  | state, item :: rest =>
      if env.cancelledBefore item then .error (.cancelled, state)
      else match state.record item (env.execute item) with
        | .ok recorded => recordBatch env recorded rest
        | .error error => .error (.recordFailed error, state)

/-- The rest of a pass, once the plan is rewritten. -/
def schedule (runner : GraphRunner) (env : Surroundings) (state : RunState) : Outcome :=
  if env.waveFails then .error (.waveFailed, state)
  else if state.isComplete then .error (.completed, state)
  else if state.readyItems.isEmpty then .error (.stuck, state)
  else do
    let scheduled := runner.selectSchedulable state.readyItems
    let recorded ← recordBatch env state scheduled
    match (scheduled.map env.execute).find? (!·.isCompleted) with
    | some result => .error (.stopped result, recorded)
    | none => .ok recorded

/-- One pass of the loop in `GraphRunner.run`. -/
def pass (runner : GraphRunner) (env : Surroundings) (state : RunState) : Outcome :=
  if env.cancelled then .error (.cancelled, state)
  else do
    let designed ← runner.expandDesign env state
    runner.schedule env (← runner.expandDelivery env designed)

/-- The loop, pass by pass. -/
def loop (runner : GraphRunner) (envs : List Surroundings) (state : RunState) : Outcome :=
  envs.foldlM (fun state env => runner.pass env state) state

/-- The passes that are begun. -/
def iterations (runner : GraphRunner) : List Surroundings → RunState → Nat
  | [], _ => 0
  | env :: envs, state =>
      match runner.pass env state with
      | .ok next => runner.iterations envs next + 1
      | .error _ => 1

/-- The ids in the plans before and after every pass. -/
def everPlanned (runner : GraphRunner) : List Surroundings → RunState → List String
  | [], state => state.plan.itemIds
  | env :: envs, state => state.plan.itemIds ++
      match runner.pass env state with
      | .ok next => runner.everPlanned envs next
      | .error ending => ending.2.plan.itemIds

variable {runner : GraphRunner} {env : Surroundings} {state state' : RunState}

theorem rewrite_ok {change : Rewrite} (h : runner.rewrite env change state = .ok state') :
    change.apply runner (env.workspace change) state = .ok state' := by
  unfold rewrite at h
  cases happly : change.apply runner (env.workspace change) state with
  | ok next =>
    rw [happly] at h
    cases h
    rfl
  | error error =>
    rw [happly] at h
    cases h

theorem rewrite_nodeResults {change : Rewrite} (h : runner.rewrite env change state = .ok state') :
    state'.nodeResults = state.nodeResults := by
  rcases Rewrite.apply_ok (rewrite_ok h) with ⟨-, rfl⟩ | ⟨plan', -, rfl⟩
  · rfl
  · rfl

theorem expandDesign_nodeResults (h : runner.expandDesign env state = .ok state') :
    state'.nodeResults = state.nodeResults := by
  obtain ⟨modules, hmodules, hrest⟩ := bind_eq_ok.mp h
  rw [rewrite_nodeResults hrest, rewrite_nodeResults hmodules]

theorem expandDelivery_ok (h : runner.expandDelivery env state = .ok state') :
    ∃ tailed, runner.rewrite env .tail state = .ok tailed ∧
      runner.rewrite env .implementationPlan tailed = .ok state' := by
  unfold expandDelivery at h
  obtain ⟨tailed, htailed, h⟩ := bind_eq_ok.mp h
  obtain ⟨expanded, hexpanded, h⟩ := bind_eq_ok.mp h
  refine ⟨tailed, htailed, ?_⟩
  cases hcheck : checkDelivery tailed.plan expanded.plan with
  | error error => simp [hcheck] at h
  | ok =>
    simp only [hcheck, Except.ok.injEq] at h
    rw [← h]
    exact hexpanded

theorem expandDelivery_nodeResults (h : runner.expandDelivery env state = .ok state') :
    state'.nodeResults = state.nodeResults := by
  obtain ⟨tailed, htailed, hexpanded⟩ := expandDelivery_ok h
  rw [rewrite_nodeResults hexpanded, rewrite_nodeResults htailed]

/-- What a recorded batch adds: one result of the agents for each item. -/
theorem recordBatch_ok {items : List WorkItem} (h : recordBatch env state items = .ok state') :
    state'.plan = state.plan ∧
      state'.nodeResults.entries =
        state.nodeResults.entries ++ items.map fun item => (item.id, env.execute item) := by
  induction items generalizing state with
  | nil =>
    cases h
    simp
  | cons item rest ih =>
    unfold recordBatch at h
    split at h
    · cases h
    · split at h
      · rename_i recorded hrecord
        obtain ⟨-, -, hfresh, rfl⟩ := RunState.record_eq_ok.mp hrecord
        obtain ⟨hplan, hentries⟩ := ih h
        refine ⟨hplan.trans RunState.recorded_plan, ?_⟩
        rw [hentries, RunState.recorded_nodeResults, Dict.entries_set_of_not_mem hfresh]
        simp
      · cases h

/-- A pass that goes on has recorded a batch of completed results. -/
theorem schedule_ok (h : runner.schedule env state = .ok state') :
    state.readyItems ≠ [] ∧
      recordBatch env state (runner.selectSchedulable state.readyItems) = .ok state' ∧
      ∀ item ∈ runner.selectSchedulable state.readyItems,
        (env.execute item).isCompleted = true := by
  unfold schedule at h
  split at h
  · cases h
  · split at h
    · cases h
    · split at h
      · cases h
      · rename_i hready
        obtain ⟨recorded, hrecorded, h⟩ := bind_eq_ok.mp h
        split at h
        · cases h
        · rename_i hall
          cases h
          refine ⟨by simpa using hready, hrecorded, fun item hitem => ?_⟩
          simpa using List.find?_eq_none.mp hall _ (List.mem_map_of_mem hitem)

theorem pass_ok (h : runner.pass env state = .ok state') :
    ∃ designed expanded, runner.expandDesign env state = .ok designed ∧
      runner.expandDelivery env designed = .ok expanded ∧
      runner.schedule env expanded = .ok state' := by
  unfold pass at h
  split at h
  · cases h
  · obtain ⟨designed, hdesigned, h⟩ := bind_eq_ok.mp h
    obtain ⟨expanded, hexpanded, h⟩ := bind_eq_ok.mp h
    exact ⟨designed, expanded, hdesigned, hexpanded, h⟩

/-- A pass that goes on adds results of its plan, at least one and all completed. -/
theorem pass_adds (h : runner.pass env state = .ok state') :
    ∃ added, added ≠ [] ∧ state'.nodeResults.entries = state.nodeResults.entries ++ added ∧
      ∀ e ∈ added, e.1 ∈ state'.plan.itemIds ∧ e.2.isCompleted = true := by
  obtain ⟨designed, expanded, hdesigned, hexpanded, hschedule⟩ := pass_ok h
  obtain ⟨hready, hrecord, hcompleted⟩ := schedule_ok hschedule
  obtain ⟨hplan, hentries⟩ := recordBatch_ok hrecord
  have hbatch : runner.Batch expanded.readyItems (runner.selectSchedulable expanded.readyItems) :=
    selectSchedulable_batch hready
  refine ⟨(runner.selectSchedulable expanded.readyItems).map
    fun item => (item.id, env.execute item), ?_, ?_, ?_⟩
  · simpa using hbatch.nonempty
  · rw [hentries, expandDelivery_nodeResults hexpanded, expandDesign_nodeResults hdesigned]
  · intro e he
    obtain ⟨item, hitem, rfl⟩ := List.mem_map.mp he
    obtain ⟨hplanned, -⟩ := RunState.mem_readyItems.mp (hbatch.sublist.subset hitem)
    rw [hplan]
    exact ⟨List.mem_map_of_mem hplanned, hcompleted item hitem⟩

theorem planned_subset_everPlanned (runner : GraphRunner) (envs : List Surroundings)
    (state : RunState) : ∀ id ∈ state.plan.itemIds, id ∈ runner.everPlanned envs state := by
  intro id hid
  cases envs with
  | nil => exact hid
  | cons env envs => exact List.mem_append_left _ hid

/-- Every pass but the last adds a result, and results are for planned ids. -/
theorem iterations_add_le {envs : List Surroundings} {ids : List String}
    (hresults : ∀ id ∈ state.nodeResults.keys, id ∈ ids)
    (hplanned : ∀ id ∈ runner.everPlanned envs state, id ∈ ids) :
    runner.iterations envs state + state.nodeResults.keys.length ≤ ids.length + 1 := by
  have hcount := (state.nodeResults.keys_nodup.subperm hresults).length_le
  induction envs generalizing state with
  | nil =>
    unfold iterations
    omega
  | cons env envs ih =>
    unfold iterations
    cases hpass : runner.pass env state with
    | error ending =>
      dsimp only
      omega
    | ok next =>
      obtain ⟨added, hne, hentries, hadded⟩ := pass_adds hpass
      have hkeys : next.nodeResults.keys = state.nodeResults.keys ++ added.map Prod.fst := by
        simp [Dict.keys, hentries]
      have hlater : ∀ id ∈ runner.everPlanned envs next, id ∈ ids := by
        intro id hid
        apply hplanned
        unfold everPlanned
        rw [hpass]
        exact List.mem_append_right _ hid
      have hnext : ∀ id ∈ next.nodeResults.keys, id ∈ ids := by
        intro id hid
        rw [hkeys, List.mem_append] at hid
        rcases hid with hold | hnew
        · exact hresults id hold
        · obtain ⟨e, he, rfl⟩ := List.mem_map.mp hnew
          exact hlater _ (planned_subset_everPlanned runner envs next _ (hadded e he).1)
      have hlength : state.nodeResults.keys.length + 1 ≤ next.nodeResults.keys.length := by
        have := List.length_pos_iff.mpr hne
        rw [hkeys, List.length_append, List.length_map]
        omega
      have := ih hnext hlater (next.nodeResults.keys_nodup.subperm hnext).length_le
      dsimp only
      omega

theorem rewrite_error {change : Rewrite} {ending : Ending × RunState}
    (h : runner.rewrite env change state = .error ending) :
    ∃ error, ending.1 = .rewriteFailed error := by
  unfold rewrite at h
  cases happly : change.apply runner (env.workspace change) state with
  | ok next =>
    rw [happly] at h
    cases h
  | error error =>
    rw [happly] at h
    cases h
    exact ⟨error, rfl⟩

theorem recordBatch_not_stuck {items : List WorkItem} :
    recordBatch env state items ≠ .error (.stuck, state') := by
  induction items generalizing state with
  | nil => nofun
  | cons item rest ih =>
    unfold recordBatch
    split
    · simp
    · split
      · exact ih
      · simp

theorem expandDesign_not_stuck : runner.expandDesign env state ≠ .error (.stuck, state') := by
  intro h
  rcases bind_eq_error.mp h with hmodules | ⟨modules, -, hrest⟩
  · obtain ⟨_, hending⟩ := rewrite_error hmodules
    cases hending
  · obtain ⟨_, hending⟩ := rewrite_error hrest
    cases hending

theorem expandDelivery_not_stuck : runner.expandDelivery env state ≠ .error (.stuck, state') := by
  intro h
  unfold expandDelivery at h
  rcases bind_eq_error.mp h with htail | ⟨tailed, -, h⟩
  · obtain ⟨_, hending⟩ := rewrite_error htail
    cases hending
  · rcases bind_eq_error.mp h with hexpand | ⟨expanded, -, h⟩
    · obtain ⟨_, hending⟩ := rewrite_error hexpand
      cases hending
    · split at h
      · cases h
      · cases h

/-- Where the loop gets stuck: an incomplete state without a ready item. -/
theorem pass_stuck (h : runner.pass env state = .error (.stuck, state')) :
    ∃ designed, runner.expandDesign env state = .ok designed ∧
      runner.expandDelivery env designed = .ok state' ∧ state'.isComplete = false ∧
      state'.readyItems = [] := by
  unfold pass at h
  split at h
  · cases h
  · rcases bind_eq_error.mp h with hdesign | ⟨designed, hdesign, h⟩
    · exact absurd hdesign expandDesign_not_stuck
    · rcases bind_eq_error.mp h with hexpand | ⟨expanded, hexpand, h⟩
      · exact absurd hexpand expandDelivery_not_stuck
      · refine ⟨designed, hdesign, ?_⟩
        unfold schedule at h
        split at h
        · cases h
        · split at h
          · cases h
          · rename_i hincomplete
            split at h
            · rename_i hready
              cases h
              exact ⟨hexpand, by simpa using hincomplete, by simpa using hready⟩
            · rcases bind_eq_error.mp h with hrecord | ⟨recorded, -, h⟩
              · exact absurd hrecord recordBatch_not_stuck
              · split at h
                · cases h
                · cases h

/-- The tail drops no item that has a result. -/
def Spares (runner : GraphRunner) (env : Surroundings) (state : RunState) : Prop :=
  ∀ designed, runner.expandDesign env state = .ok designed →
    (Event.rewrite .tail (env.workspace .tail)).Safe runner designed

/-- This holds at every pass of the loop. -/
def SparesAll (runner : GraphRunner) : List Surroundings → RunState → Prop
  | [], _ => True
  | env :: envs, state => runner.Spares env state ∧
      ∀ next, runner.pass env state = .ok next → runner.SparesAll envs next

end GraphRunner

namespace RunState

variable {state state' : RunState} {runner : GraphRunner} {env : Surroundings}

theorem Planned.carried (h : state.Planned) {kept : WorkItem → Prop} {plan' : ExecutionPlan}
    (hcarries : Carries kept state.plan plan')
    (hkept : ∀ item ∈ state.plan.workItems, item.id ∈ state.nodeResults.keys → kept item) :
    ({ state with plan := plan' } : RunState).Planned := by
  intro id hid
  obtain ⟨item, hitem, rfl⟩ := List.mem_map.mp (h id hid)
  obtain ⟨item', hitem', hsame⟩ := hcarries item hitem (hkept item hitem hid)
  exact hsame.id ▸ List.mem_map_of_mem hitem'

theorem Planned.rewritten (h : state.Planned) {change : Rewrite}
    (hsafe : (Event.rewrite change (env.workspace change)).Safe runner state)
    (hrewrite : runner.rewrite env change state = .ok state') : state'.Planned := by
  rcases Rewrite.apply_ok (GraphRunner.rewrite_ok hrewrite) with ⟨-, rfl⟩ | ⟨plan', hplan, rfl⟩
  · exact h
  · by_cases htail : change = .tail
    · subst htail
      obtain ⟨contract, -, hcontract, hready, -, -⟩ := tailPlan_ok hplan
      refine h.carried (tailPlan_carries hplan) fun item hitem hresult => ?_
      by_contra hreplaced
      exact hsafe contract hcontract hready item hitem (by simpa using hreplaced) hresult
    · exact h.carried (Rewrite.plan_carries htail hplan) fun _ _ _ => trivial

theorem Planned.designed (h : state.Planned) (hdesign : runner.expandDesign env state = .ok state') :
    state'.Planned := by
  obtain ⟨modules, hmodules, hrest⟩ := bind_eq_ok.mp hdesign
  have hfirst : modules.Planned := h.rewritten (by trivial) hmodules
  exact hfirst.rewritten (by trivial) hrest

/-- The plan a pass schedules answers for every result. -/
theorem Planned.expanded (h : state.Planned) (hspares : runner.Spares env state)
    {designed expanded : RunState} (hdesign : runner.expandDesign env state = .ok designed)
    (hexpand : runner.expandDelivery env designed = .ok expanded) : expanded.Planned := by
  obtain ⟨tailed, htailed, hrest⟩ := GraphRunner.expandDelivery_ok hexpand
  have htail : tailed.Planned := (h.designed hdesign).rewritten (hspares designed hdesign) htailed
  exact htail.rewritten (by trivial) hrest

theorem Planned.pass (h : state.Planned) (hspares : runner.Spares env state)
    (hpass : runner.pass env state = .ok state') : state'.Planned := by
  obtain ⟨designed, expanded, hdesign, hexpand, hschedule⟩ := GraphRunner.pass_ok hpass
  obtain ⟨hready, hrecord, -⟩ := GraphRunner.schedule_ok hschedule
  obtain ⟨hplan, hentries⟩ := GraphRunner.recordBatch_ok hrecord
  have hbatch : runner.Batch expanded.readyItems (runner.selectSchedulable expanded.readyItems) :=
    GraphRunner.selectSchedulable_batch hready
  intro id hid
  rw [hplan]
  simp only [Dict.keys, hentries, List.map_append, List.mem_append, List.map_map] at hid
  rcases hid with hold | hnew
  · exact h.expanded hspares hdesign hexpand id hold
  · obtain ⟨item, hitem, rfl⟩ := List.mem_map.mp hnew
    exact List.mem_map_of_mem (RunState.mem_readyItems.mp (hbatch.sublist.subset hitem)).1

/-- A plan without an executable item has an item whose result is not completed. -/
theorem open_result_of_stuck (h : state.Planned) (hincomplete : state.isComplete = false)
    (hready : state.readyItems = []) :
    ∃ item ∈ state.plan.workItems, ∃ result, state.nodeResults.get? item.id = some result ∧
      result.isCompleted = false := by
  by_contra hnone
  simp only [not_exists, not_and, Bool.not_eq_false] at hnone
  have hcompleted : ∀ id result, state.nodeResults.get? id = some result →
      result.isCompleted = true := by
    intro id result hresult
    obtain ⟨item, hitem, rfl⟩ := List.mem_map.mp (h id (Dict.mem_keys_iff.mpr ⟨result, hresult⟩))
    exact hnone item hitem result hresult
  have hall : ∀ item ∈ state.plan.workItems, item.id ∈ state.nodeResults.keys := by
    intro item hitem
    by_contra hid
    exact ready_of_open hcompleted ⟨item, hitem, hid⟩ hready
  have hcomplete : state.isComplete = true := (isComplete_iff h).mpr fun item hitem => by
    obtain ⟨result, hresult⟩ := Dict.mem_keys_iff.mp (hall item hitem)
    exact hasCompleted_iff.mpr ⟨result, hresult, hcompleted _ _ hresult⟩
  rw [hcomplete] at hincomplete
  cases hincomplete

/-- The loop gets stuck only behind a result that is not completed. -/
theorem Planned.loop_stuck (h : state.Planned) {envs : List Surroundings}
    (hspares : runner.SparesAll envs state)
    (hstuck : runner.loop envs state = .error (.stuck, state')) :
    ∃ item ∈ state'.plan.workItems, ∃ result, state'.nodeResults.get? item.id = some result ∧
      result.isCompleted = false := by
  induction envs generalizing state with
  | nil => cases hstuck
  | cons env envs ih =>
    rcases bind_eq_error.mp hstuck with hpass | ⟨next, hpass, hrest⟩
    · obtain ⟨designed, hdesign, hexpand, hincomplete, hready⟩ := GraphRunner.pass_stuck hpass
      exact open_result_of_stuck (h.expanded hspares.1 hdesign hexpand) hincomplete hready
    · exact ih (h.pass hspares.1 hpass) (hspares.2 next hpass) hrest

end RunState

namespace GraphRunner

/-- While results are completed and items are open a batch can start; the loop
gets stuck only behind a result that is not completed, as long as no tail drops an
item with a result; and it takes one pass for each item planned, and one to end. -/
theorem scheduling_progress (runner : GraphRunner) :
    (∀ state : RunState, state.Healthy →
      (∃ item ∈ state.plan.workItems, state.hasCompleted item.id = false) →
        state.readyItems ≠ [] ∧
          runner.Batch state.readyItems (runner.selectSchedulable state.readyItems)) ∧
      ∀ (start : RunState) (envs : List Surroundings), start.Planned →
        (runner.SparesAll envs start → ∀ final, runner.loop envs start = .error (.stuck, final) →
          ∃ item ∈ final.plan.workItems, ∃ result,
            final.nodeResults.get? item.id = some result ∧ result.isCompleted = false) ∧
        runner.iterations envs start ≤ (dedupe (runner.everPlanned envs start)).length + 1 := by
  refine ⟨fun state hhealthy hopen => ?_, fun start envs hplanned => ⟨?_, ?_⟩⟩
  · obtain ⟨item, hitem, hid⟩ := hopen
    have hready : state.readyItems ≠ [] := by
      apply RunState.ready_of_open hhealthy.completed ⟨item, hitem, fun hresult => ?_⟩
      rw [hhealthy.hasCompleted hresult] at hid
      cases hid
    exact ⟨hready, selectSchedulable_batch hready⟩
  · exact fun hspares final hstuck => hplanned.loop_stuck hspares hstuck
  · have hresults : ∀ id ∈ start.nodeResults.keys, id ∈ dedupe (runner.everPlanned envs start) :=
      fun id hid => mem_dedupe.mpr
        (planned_subset_everPlanned runner envs start id (hplanned id hid))
    have := iterations_add_le hresults fun id hid => mem_dedupe.mpr hid
    omega

open RunState

/-- Agents that complete whatever they are given, and empty stores. -/
def obliging : Surroundings where
  workspace := fun _ => emptyWorkspace
  execute := fun item =>
    { workItemId := item.id, agentId := item.agentId, status := .completed }

/-- The state in which a loop is stuck. -/
def stuckIn : Outcome → Option RunState
  | .error (.stuck, state) => some state
  | _ => none

theorem eq_of_stuckIn {outcome : Outcome} (h : stuckIn outcome = some state) :
    outcome = .error (.stuck, state) := by
  unfold stuckIn at h
  split at h
  · cases h
    rfl
  · cases h

def onePlan : ExecutionPlan where
  id := "plan"
  goal := "x"
  workItems := [setupItem]
  trace := { requirementId := "req-1", traceId := "tr-1" }
  accepted := by decide

def failedState : RunState := (fresh onePlan).recorded setupItem
  { workItemId := "setup", agentId := "bootstrap_agent", status := .failed }

/-- One item is scheduled and takes two passes; behind its failure the loop is stuck. -/
theorem onePlan_progress :
    plainRunner.Batch (fresh onePlan).readyItems
      (plainRunner.selectSchedulable (fresh onePlan).readyItems) ∧
    plainRunner.iterations [obliging, obliging] (fresh onePlan) ≤
      (dedupe (plainRunner.everPlanned [obliging, obliging] (fresh onePlan))).length + 1 ∧
    ∃ final, plainRunner.loop [obliging] failedState = .error (.stuck, final) ∧
      ∃ item ∈ final.plan.workItems, ∃ result, final.nodeResults.get? item.id = some result ∧
        result.isCompleted = false := by
  have hprogress := scheduling_progress plainRunner
  have hfresh : (fresh onePlan).Planned := nofun
  have hhealthy : (fresh onePlan).Healthy := ⟨hfresh, by simp [fresh]⟩
  have hmem : setupItem ∈ (fresh onePlan).plan.workItems := List.mem_singleton_self _
  have hfailed : failedState.Planned := by
    unfold Planned
    decide
  obtain ⟨final, hfinal⟩ : ∃ final, stuckIn (plainRunner.loop [obliging] failedState) = some final :=
    Option.isSome_iff_exists.mp (by decide)
  have hstuck := eq_of_stuckIn hfinal
  refine ⟨(hprogress.1 (fresh onePlan) hhealthy ⟨setupItem, hmem, by decide⟩).2,
    (hprogress.2 (fresh onePlan) [obliging, obliging] hfresh).2, final, hstuck,
    (hprogress.2 failedState [obliging] hfailed).1 ⟨?_, fun _ _ => trivial⟩ final hstuck⟩
  intro designed hdesigned contract hcontract
  have hsame : plainRunner.expandDesign obliging failedState = .ok failedState := rfl
  cases hsame.symm.trans hdesigned
  have hnone : failedState.plan.workItems.find? isContractItem = none := by decide
  rw [hnone] at hcontract
  cases hcontract

def setups : List WorkItem := [
  plainItem "setup-1" "bootstrap_agent" (by decide),
  plainItem "setup-2" "bootstrap_agent" (by decide),
  plainItem "setup-3" "bootstrap_agent" (by decide),
  plainItem "setup-4" "bootstrap_agent" (by decide),
  plainItem "setup-5" "bootstrap_agent" (by decide),
  plainItem "setup-6" "bootstrap_agent" (by decide),
  plainItem "setup-7" "bootstrap_agent" (by decide),
  plainItem "setup-8" "bootstrap_agent" (by decide)]

def lateContract : WorkItem := .ofFields {
    id := "contract"
    agentId := "architecture_contract_agent"
    objective := "x"
    outputKey := "contract"
    wave := 1 } (by decide)

/-- A contract in the wave after more items than a tail has. -/
def crowdedPlan : ExecutionPlan where
  id := "plan"
  goal := "x"
  workItems := setups ++ [lateContract]
  trace := { requirementId := "req-1", traceId := "tr-1" }
  accepted := by decide

/-- The tail is appended in the tenth pass. -/
theorem loop_crowdedPlan : plainRunner.loop (List.replicate 17 obliging) (.fresh crowdedPlan) = (do
    let contracted ← plainRunner.loop (List.replicate 9 obliging) (.fresh crowdedPlan)
    let tailed ← plainRunner.pass obliging contracted
    plainRunner.loop (List.replicate 7 obliging) tailed) := by
  have hsplit : List.replicate 17 obliging =
      List.replicate 9 obliging ++ obliging :: List.replicate 7 obliging := rfl
  unfold loop
  rw [hsplit, List.foldlM_append]
  rfl

open Planner.DynamicDeliveryTailBuilder in
/-- The texts of the tail are literals, so the evaluation need not read them. -/
theorem crowdedPlan_stuck :
    ((stuckIn (plainRunner.loop (List.replicate 17 obliging) (.fresh crowdedPlan))).any
      fun state : RunState => state.nodeResults.values.all NodeResult.isCompleted) = true := by
  rw [loop_crowdedPlan]
  unfold pass expandDelivery rewrite Rewrite.apply Rewrite.plan tailPlan
    Planner.DynamicDeliveryTailBuilder.append expand additions taskPlan taskIntegration taskQuality
    environment codeIntegration test review taskPlanId taskIntegrationId taskQualityId
    environmentId codeIntegrationId testId reviewId tailPrefix
  simp (disch := first
    | (simp only [WorkItemFields.words, List.cons_append, List.nil_append, List.append_nil,
        List.forall_mem_cons]
       and_intros
       all_goals first
         | (repeat with_reducible apply Text.not_blank_append
            exact Text.blank_ofList_cons (by decide))
         | exact fun _ h => absurd h List.not_mem_nil)
    | (simp only [List.forall_mem_cons]
       and_intros
       all_goals first
         | exact WorkItem.id_not_blank _
         | (repeat with_reducible apply Text.not_blank_append
            exact Text.blank_ofList_cons (by decide))
         | exact fun _ h => absurd h List.not_mem_nil)
    | decide +kernel) only [WorkItem.create_eq_worded, waitFor_eq, published_eq]
  decide +kernel

/-- The last pass only finds that the one item is done; and a tail that drops eight
items with a result leaves more results than items, so that completion is missed. -/
theorem crowdedPlan_ends_stuck :
    (plainRunner.iterations [obliging, obliging] (.fresh onePlan) = 2 ∧
      dedupe (plainRunner.everPlanned [obliging, obliging] (.fresh onePlan)) = ["setup"]) ∧
    ∃ final, plainRunner.loop (List.replicate 17 obliging) (.fresh crowdedPlan) =
        .error (.stuck, final) ∧
      ∀ result ∈ final.nodeResults.values, result.isCompleted = true := by
  refine ⟨⟨by decide, by decide⟩, ?_⟩
  obtain ⟨final, hfinal, hall⟩ := (Option.any_eq_true ..).mp crowdedPlan_stuck
  exact ⟨final, eq_of_stuckIn hfinal, List.all_eq_true.mp hall⟩

end GraphRunner
end ProjectOS.Orchestration
