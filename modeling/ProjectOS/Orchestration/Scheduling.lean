import ProjectOS.Orchestration.Recording
import ProjectOS.Orchestration.Runner

/-! The choice of a batch. It is never empty while some item is open and every
result so far is completed. -/
namespace ProjectOS.Orchestration
open Base

namespace GraphRunner

/-- How many instances of an agent may run at once. -/
def parallelLimit (runner : GraphRunner) (agentId : String) : Nat :=
  match runner.agents.definition agentId with
  | some definition => definition.maxParallelInstances
  | none => 1

def running (selected : List WorkItem) (agentId : String) : Nat :=
  (selected.filter (·.agentId = agentId)).length

/-- The loop over the candidates; `running_by_agent` counts the selected items. -/
def takeCandidates (runner : GraphRunner) (selected : List WorkItem) : List WorkItem → List WorkItem
  | [] => selected
  | item :: rest =>
      if runner.parallelLimit item.agentId ≤ running selected item.agentId then
        runner.takeCandidates selected rest
      else if (selected ++ [item]).length = runner.maxWorkers then selected ++ [item]
      else runner.takeCandidates (selected ++ [item]) rest

/-- `_select_schedulable_items`. -/
def selectSchedulable (runner : GraphRunner) (readyItems : List WorkItem) : List WorkItem :=
  match (readyItems.map (·.wave)).min? with
  | none => []
  | some wave => runner.takeCandidates [] (readyItems.filter (·.wave = wave))

variable {runner : GraphRunner} {selected candidates : List WorkItem}

theorem parallelLimit_pos (agentId : String) : 1 ≤ runner.parallelLimit agentId := by
  unfold parallelLimit
  split
  · rename_i definition _
    exact definition.maxParallelInstances_pos
  · exact Nat.le_refl 1

theorem running_append (selected : List WorkItem) (item : WorkItem) (agentId : String) :
    running (selected ++ [item]) agentId =
      running selected agentId + if item.agentId = agentId then 1 else 0 := by
  unfold running
  by_cases h : item.agentId = agentId
  · simp [h]
  · simp [h]

/-- Candidates are taken in their order, on top of those selected. -/
theorem takeCandidates_sublist (runner : GraphRunner) (selected candidates : List WorkItem) :
    ∃ added, runner.takeCandidates selected candidates = selected ++ added ∧ added.Sublist candidates := by
  induction candidates generalizing selected with
  | nil => exact ⟨[], by simp [takeCandidates], .slnil⟩
  | cons item rest ih =>
    unfold takeCandidates
    split
    · obtain ⟨added, heq, hsub⟩ := ih selected
      exact ⟨added, heq, hsub.cons item⟩
    · split
      · exact ⟨[item], rfl, (List.nil_sublist rest).cons_cons item⟩
      · obtain ⟨added, heq, hsub⟩ := ih (selected ++ [item])
        exact ⟨item :: added, by simp [heq], hsub.cons_cons item⟩

theorem length_takeCandidates_le (h : selected.length < runner.maxWorkers) :
    (runner.takeCandidates selected candidates).length ≤ runner.maxWorkers := by
  induction candidates generalizing selected with
  | nil =>
    unfold takeCandidates
    omega
  | cons item rest ih =>
    unfold takeCandidates
    split
    · exact ih h
    · split
      · omega
      · apply ih
        simp only [List.length_append, List.length_singleton] at *
        omega

theorem running_takeCandidates_le
    (h : ∀ agentId, running selected agentId ≤ runner.parallelLimit agentId) (agentId : String) :
    running (runner.takeCandidates selected candidates) agentId ≤ runner.parallelLimit agentId := by
  induction candidates generalizing selected with
  | nil => exact h agentId
  | cons item rest ih =>
    unfold takeCandidates
    split
    · exact ih h
    · rename_i hroom
      have hadded : ∀ agentId, running (selected ++ [item]) agentId ≤
          runner.parallelLimit agentId := by
        intro agentId
        rw [running_append]
        have := h agentId
        split
        · rename_i hagent
          subst hagent
          omega
        · omega
      split
      · exact hadded agentId
      · exact ih hadded

/-- The first candidate finds nothing in its way. -/
theorem takeCandidates_ne_nil (h : candidates ≠ []) : runner.takeCandidates [] candidates ≠ [] := by
  obtain ⟨item, rest, rfl⟩ := List.exists_cons_of_ne_nil h
  have hlimit : 1 ≤ runner.parallelLimit item.agentId := parallelLimit_pos item.agentId
  have hroom : ¬ runner.parallelLimit item.agentId ≤ running [] item.agentId := by
    simp only [running, List.filter_nil, List.length_nil]
    omega
  unfold takeCandidates
  rw [if_neg hroom]
  split
  · simp
  · obtain ⟨added, heq, -⟩ := takeCandidates_sublist runner ([] ++ [item]) rest
    rw [heq]
    simp

/-- A batch the runner may start: ready items of the earliest wave, within the
limits of the workers and of each agent. -/
structure Batch (runner : GraphRunner) (readyItems scheduled : List WorkItem) : Prop where
  nonempty : scheduled ≠ []
  sublist : scheduled.Sublist readyItems
  wave : ∃ wave, (∀ item ∈ scheduled, item.wave = wave) ∧ ∀ item ∈ readyItems, wave ≤ item.wave
  workers : scheduled.length ≤ runner.maxWorkers
  agents : ∀ agentId, running scheduled agentId ≤ runner.parallelLimit agentId

theorem selectSchedulable_batch {readyItems : List WorkItem} (h : readyItems ≠ []) :
    runner.Batch readyItems (runner.selectSchedulable readyItems) := by
  unfold selectSchedulable
  cases hwave : (readyItems.map (·.wave)).min? with
  | none => exact absurd (by simpa using hwave) h
  | some wave =>
    obtain ⟨hmem, hleast⟩ := List.min?_eq_some_iff.mp hwave
    obtain ⟨first, hfirst, hfirstWave⟩ := List.mem_map.mp hmem
    obtain ⟨added, heq, hsub⟩ := takeCandidates_sublist runner [] (readyItems.filter (·.wave = wave))
    have hworkers := runner.maxWorkers_pos
    dsimp only
    refine ⟨takeCandidates_ne_nil ?_, ?_, ⟨wave, ?_, fun item hitem => hleast _ (List.mem_map_of_mem hitem)⟩,
      length_takeCandidates_le (by simp only [List.length_nil]; omega), running_takeCandidates_le (by simp [running])⟩
    · exact List.ne_nil_of_mem (List.mem_filter.mpr ⟨hfirst, by simpa using hfirstWave⟩)
    · rw [heq, List.nil_append]
      exact hsub.trans List.filter_sublist
    · intro item hitem
      rw [heq, List.nil_append] at hitem
      simpa using (List.mem_filter.mp (hsub.subset hitem)).2

end GraphRunner

namespace RunState
variable {state : RunState}

/-- Every result is for an item of the plan. -/
def Planned (state : RunState) : Prop := ∀ id ∈ state.nodeResults.keys, id ∈ state.plan.itemIds

structure Healthy (state : RunState) : Prop where
  planned : state.Planned
  completed : ∀ id result, state.nodeResults.get? id = some result → result.isCompleted = true

theorem Healthy.hasCompleted (h : state.Healthy) {id : String} (hid : id ∈ state.nodeResults.keys) :
    state.hasCompleted id = true := by
  obtain ⟨result, hresult⟩ := Dict.mem_keys_iff.mp hid
  exact hasCompleted_iff.mpr ⟨result, hresult, h.completed id result hresult⟩

/-- Of the open items of an acyclic plan one waits for none of the others. -/
theorem ready_of_open
    (hcompleted : ∀ id result, state.nodeResults.get? id = some result → result.isCompleted = true)
    (hopen : ∃ item ∈ state.plan.workItems, item.id ∉ state.nodeResults.keys) :
    state.readyItems ≠ [] := by
  obtain ⟨item, hitem, hid⟩ := hopen
  have hnode : (item.id, item.dependencyIds) ∈ state.plan.graph := List.mem_map_of_mem hitem
  obtain ⟨e, he, hfresh, hfree⟩ := state.plan.acyclic (· ∉ state.nodeResults.keys) ⟨_, hnode, hid⟩
  obtain ⟨first, hfirst, rfl⟩ := List.mem_map.mp he
  apply List.ne_nil_of_mem (mem_readyItems.mpr ⟨hfirst, hfresh, fun d hd => ?_⟩)
  obtain ⟨result, hresult⟩ := Dict.mem_keys_iff.mp (not_not.mp (hfree d hd))
  exact hasCompleted_iff.mpr ⟨result, hresult, hcompleted d result hresult⟩

end RunState
end ProjectOS.Orchestration
