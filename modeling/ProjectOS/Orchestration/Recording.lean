import ProjectOS.Orchestration.Checkpoint

/-! Runs of one plan: results are recorded for ready items, in any order and
with any status. -/
namespace ProjectOS.Orchestration
open Base

namespace RunState

/-- The state after `record`, when it accepts the result. -/
def recorded (state : RunState) (item : WorkItem) (result : NodeResult) : RunState :=
  if result.isCompleted then
    { state with
      nodeResults := state.nodeResults.set item.id result
      forcedRerunWorkItemIds := state.forcedRerunWorkItemIds.filter (· ≠ item.id)
      recoveryDiagnostics := state.recoveryDiagnostics.erase item.id
      retryRecoveryContexts := state.retryRecoveryContexts.erase item.id
      artifacts := match result.content with
        | some content => state.artifacts.set item.outputKey content
        | none => state.artifacts }
  else { state with nodeResults := state.nodeResults.set item.id result }

variable {state state' : RunState} {item : WorkItem} {result : NodeResult}

theorem record_eq_ok :
    state.record item result = .ok state' ↔
      result.workItemId = item.id ∧ result.agentId = item.agentId ∧
        item.id ∉ state.nodeResults.keys ∧ state' = state.recorded item result := by
  have hnone : (state.nodeResults.get? item.id).isSome = false ↔ item.id ∉ state.nodeResults.keys := by
    rw [← Dict.get?_eq_none_iff, Option.isSome_eq_false_iff, Option.isNone_iff_eq_none]
  simp only [record, raiseWhen_bind_eq_ok, hnone, Bool.or_eq_false_iff, bne_eq_false_iff_eq, and_assoc]
  refine and_congr_right fun _ => and_congr_right fun _ => and_congr_right fun _ => ?_
  unfold recorded
  split
  · exact ⟨fun h => (Except.ok.inj h).symm, fun h => congrArg _ h.symm⟩
  · exact ⟨fun h => (Except.ok.inj h).symm, fun h => congrArg _ h.symm⟩

@[simp] theorem recorded_plan : (state.recorded item result).plan = state.plan := by
  unfold recorded
  split <;> rfl

@[simp] theorem recorded_nodeResults :
    (state.recorded item result).nodeResults = state.nodeResults.set item.id result := by
  unfold recorded
  split <;> rfl

theorem hasCompleted_recorded (id : String) :
    (state.recorded item result).hasCompleted id =
      if id = item.id then result.isCompleted else state.hasCompleted id := by
  simp only [hasCompleted, recorded_nodeResults, Dict.get?_set]
  split
  · rfl
  · rfl

theorem mem_entries_recorded (hfresh : item.id ∉ state.nodeResults.keys)
    {e : String × NodeResult} :
    e ∈ (state.recorded item result).nodeResults.entries ↔
      e ∈ state.nodeResults.entries ∨ e = (item.id, result) := by
  rw [recorded_nodeResults, Dict.entries_set_of_not_mem hfresh]
  simp

/-- Recording keeps the state well formed. -/
theorem WellFormed.record (h : state.WellFormed) (hitem : item ∈ state.plan.workItems)
    (hrecord : state.record item result = .ok state') : state'.WellFormed := by
  obtain ⟨hid, hagent, hfresh, rfl⟩ := record_eq_ok.mp hrecord
  have hforced : ∀ id ∈ (state.recorded item result).forcedRerunWorkItemIds,
      id ∈ state.forcedRerunWorkItemIds ∧ (result.isCompleted = true → id ≠ item.id) := by
    intro id hmem
    unfold recorded at hmem
    split at hmem
    · exact ⟨(List.mem_filter.mp hmem).1, fun _ => by simpa using (List.mem_filter.mp hmem).2⟩
    · rename_i hopen
      exact ⟨hmem, fun hc => absurd hc hopen⟩
  refine ⟨?_, ?_, ?_, ?_, ?_, ?_⟩
  · intro e he
    rcases (mem_entries_recorded hfresh).mp he with hold | rfl
    · exact h.result_id e hold
    · exact hid
  · intro e he
    rw [recorded_plan]
    rcases (mem_entries_recorded hfresh).mp he with hold | rfl
    · exact h.result_agent e hold
    · rw [state.plan.workItem_eq_some_iff.mpr ⟨hitem, rfl⟩]
      simp [hagent]
  · intro id hmem
    rw [recorded_plan]
    exact h.forced_known id (hforced id hmem).1
  · intro id hmem
    obtain ⟨hold, hne⟩ := hforced id hmem
    rw [hasCompleted_recorded]
    split
    · rename_i heq
      cases hc : result.isCompleted with
      | true => exact absurd heq (hne hc)
      | false => rfl
    · exact h.forced_open id hold
  · intro id
    unfold recorded
    split
    · simp [Dict.mem_keys_erase, h.diagnostics_keys]
    · exact h.diagnostics_keys id
  · intro e he
    unfold recorded at he
    split at he
    · exact h.diagnostics_text e (List.mem_filter.mp he).1
    · exact h.diagnostics_text e he

theorem wellFormed_fresh (plan : ExecutionPlan) : (fresh plan).WellFormed := by
  refine ⟨?_, ?_, ?_, ?_, ?_, ?_⟩ <;> simp [fresh]

theorem mem_readyItems :
    item ∈ state.readyItems ↔
      item ∈ state.plan.workItems ∧ item.id ∉ state.nodeResults.keys ∧
        ∀ d ∈ item.dependencyIds, state.hasCompleted d = true := by
  simp [readyItems, ← Dict.get?_eq_none_iff]

/-- The states a fresh run reaches by recording results of ready items. -/
inductive Recorded (plan : ExecutionPlan) : RunState → Prop where
  | fresh : Recorded plan (fresh plan)
  | record {state state' : RunState} {item : WorkItem} {result : NodeResult}
      (previous : Recorded plan state) (ready : item ∈ state.readyItems)
      (step : state.record item result = .ok state') : Recorded plan state'

theorem Recorded.wellFormed {plan : ExecutionPlan} (h : Recorded plan state) :
    state.WellFormed := by
  induction h with
  | fresh => exact wellFormed_fresh plan
  | record _ hready hstep ih => exact ih.record (mem_readyItems.mp hready).1 hstep

theorem Recorded.plan_eq {plan : ExecutionPlan} (h : Recorded plan state) : state.plan = plan := by
  induction h with
  | fresh => rfl
  | record _ _ hstep ih =>
    obtain ⟨_, _, _, rfl⟩ := record_eq_ok.mp hstep
    rw [recorded_plan, ih]

/-- Saving and loading gives the completed results back, and the same ready items. -/
def RoundTrips (plan : ExecutionPlan) (state : RunState) : Prop :=
  ∃ loaded, fromCheckpoint plan state.asCheckpoint = .ok loaded ∧
    loaded.nodeResults = state.trustedResults ∧
    loaded.readyItems = state.withoutOpenResults.readyItems

/-- Exactly the states whose completed items have distinct output keys survive
a checkpoint. -/
theorem roundTrips_iff_distinctOutputs {plan : ExecutionPlan} (h : Recorded plan state) :
    RoundTrips plan state ↔ state.DistinctOutputs := by
  obtain rfl := h.plan_eq
  constructor
  · rintro ⟨loaded, hload, _⟩
    exact ((fromCheckpoint_asCheckpoint h.wellFormed).mp hload).1
  · intro hdistinct
    exact ⟨state.restored, (fromCheckpoint_asCheckpoint h.wellFormed).mpr ⟨hdistinct, rfl⟩, rfl,
      readyItems_restored⟩

/-- Two requirement notes with one output key. -/
def notesFields (id : String) : WorkItemFields where
  id := id
  agentId := "requirement_agent"
  objective := "整理需求"
  outputKey := "notes"

def firstNotes : WorkItem := .ofFields (notesFields "first") (by decide)

def secondNotes : WorkItem := .ofFields (notesFields "second") (by decide)

def notesPlan : ExecutionPlan where
  id := "plan"
  goal := "整理需求"
  workItems := [firstNotes, secondNotes]
  trace := { requirementId := "req-1", traceId := "tr-1" }
  accepted := by decide

def notesResult (id : String) (status : NodeStatus) : NodeResult :=
  { workItemId := id, agentId := "requirement_agent", status := status }

def notesState (status : NodeStatus) : RunState :=
  ((fresh notesPlan).recorded firstNotes (notesResult "first" .completed)).recorded secondNotes
    (notesResult "second" status)

theorem recorded_notesState (status : NodeStatus) : Recorded notesPlan (notesState status) := by
  have hfirst : (fresh notesPlan).record firstNotes (notesResult "first" .completed) =
      .ok ((fresh notesPlan).recorded firstNotes (notesResult "first" .completed)) :=
    record_eq_ok.mpr ⟨by decide, by decide, by decide, rfl⟩
  have hready : firstNotes ∈ (fresh notesPlan).readyItems := List.mem_cons_self
  refine .record (.record .fresh hready hfirst) (show secondNotes ∈ _ from ?_)
    (record_eq_ok.mpr ⟨?_, ?_, ?_, rfl⟩)
  · exact List.mem_cons_self
  · rfl
  · rfl
  · decide

/-- Two completed items with one output key: the checkpoint is rejected. -/
theorem shared_output_does_not_round_trip :
    ¬∀ (plan : ExecutionPlan) (state : RunState), Recorded plan state → RoundTrips plan state := by
  intro hall
  have hreached := recorded_notesState .completed
  obtain ⟨loaded, hload, _⟩ := hall _ _ hreached
  have hdistinct := ((fromCheckpoint_asCheckpoint hreached.wellFormed).mp hload).1
  revert hdistinct
  unfold DistinctOutputs
  decide

/-- A failed item does not hide the output of a completed one. -/
theorem failed_notes_round_trip : RoundTrips notesPlan (notesState .failed) :=
  (roundTrips_iff_distinctOutputs (recorded_notesState .failed)).mpr (by
    unfold DistinctOutputs
    decide)

end RunState
end ProjectOS.Orchestration
