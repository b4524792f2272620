import ProjectOS.Orchestration.Recording
import ProjectOS.Orchestration.Runner
import ProjectOS.Planner.TailAcceptance

/-! Runs in which recorded results and plan rewrites alternate. A rewrite that
drops an item with a result leaves a result no item of the plan answers for. -/
namespace ProjectOS.Orchestration
open Base Planner

/-- What happens to the state of a run. -/
inductive Event where
  | bootstrap (content : String)
  | record (item : WorkItem) (result : NodeResult)
  | rewrite (rewrite : Rewrite) (workspace : Workspace)

def bootstrapItem (plan : ExecutionPlan) : Option WorkItem :=
  plan.workItems.find? (·.agentId = "bootstrap_agent")

/-- The control plane's own result for a prepared environment. -/
def bootstrapResult (item : WorkItem) (content : String) : NodeResult where
  workItemId := item.id
  agentId := item.agentId
  status := .completed
  content := some content

/-- The environment is recorded before the loop, results for ready items, rewrites at any time. -/
inductive Step (runner : GraphRunner) (state : RunState) : Event → RunState → Prop where
  | bootstrap {item : WorkItem} {content : String} {state' : RunState}
      (fresh : state.nodeResults = ∅) (first : bootstrapItem state.plan = some item)
      (h : state.record item (bootstrapResult item content) = .ok state') :
      Step runner state (.bootstrap content) state'
  | record {item : WorkItem} {result : NodeResult} {state' : RunState}
      (ready : item ∈ state.readyItems) (h : state.record item result = .ok state') :
      Step runner state (.record item result) state'
  | rewrite {rewrite : Rewrite} {workspace : Workspace} {state' : RunState}
      (h : rewrite.apply runner workspace state = .ok state') :
      Step runner state (.rewrite rewrite workspace) state'

/-- The states a fresh run of a plan reaches through permitted events. -/
inductive Run (runner : GraphRunner) (permitted : RunState → Event → Prop) (plan : ExecutionPlan) :
    RunState → Prop where
  | fresh : Run runner permitted plan (.fresh plan)
  | step {state state' : RunState} {event : Event} (previous : Run runner permitted plan state)
      (allowed : permitted state event) (next : Step runner state event state') :
      Run runner permitted plan state'

/-- The items a later plan continues, as results and outputs know them. -/
def Carries (kept : WorkItem → Prop) (plan plan' : ExecutionPlan) : Prop :=
  ∀ item ∈ plan.workItems, kept item → ∃ item' ∈ plan'.workItems, item.Continues item'

theorem carries_of_rebuilt {plan plan' : ExecutionPlan} {present added : List WorkItem}
    (hpresent : ∀ item ∈ plan.workItems, ∃ item' ∈ present, item.Continues item')
    (h : DynamicPlanBuilder.rebuilt plan (present ++ added) = .ok plan') :
    Carries (fun _ => True) plan plan' := by
  intro item hitem _
  obtain ⟨item', hitem', hsame⟩ := hpresent item hitem
  refine ⟨item', ?_, hsame⟩
  rw [ExecutionPlan.create_eq_ok.mp h]
  exact List.mem_append_left _ hitem'

section Rewrites
variable {runner : GraphRunner} {workspace : Workspace} {state : RunState} {plan' : ExecutionPlan}

theorem modulesPlan_carries (h : runner.modulesPlan workspace state = .ok (some plan')) :
    Carries (fun _ => True) state.plan plan' := by
  unfold GraphRunner.modulesPlan at h
  split at h
  · cases h
  · split at h
    · cases h
    · simp only [bind_eq_ok] at h
      obtain ⟨blueprint, -, expansion, hexpansion, h⟩ := h
      cases h
      obtain ⟨_, _, _, _, _, _, -, -, -, -, -, -, hpresent, hrebuilt⟩ :=
        DynamicPlanBuilder.expandModules_ok hexpansion
      exact carries_of_rebuilt
        (fun item hitem => DynamicPlanBuilder.withModules_continues hpresent hitem) hrebuilt

theorem implementationsPlan_carries
    (h : runner.implementationsPlan workspace state = .ok (some plan')) :
    Carries (fun _ => True) state.plan plan' := by
  unfold GraphRunner.implementationsPlan at h
  dsimp only at h
  split at h
  · split at h
    · cases h
    · simp only [bind_eq_ok] at h
      obtain ⟨blueprint, -, designs, -, expansion, hexpansion, h⟩ := h
      cases h
      obtain ⟨_, _, _, _, _, _, _, _, _, -, -, hintegration, -, -, -, -, hpresent, hrebuilt⟩ :=
        DynamicPlanBuilder.expandImplementations_ok hexpansion
      have hmem := DynamicPlanBuilder.optionalIntegration_ok hintegration
      exact carries_of_rebuilt
        (fun item hitem => DynamicPlanBuilder.withImplementations_continues hmem hpresent hitem)
        hrebuilt
  · cases h

theorem implementationPlan_carries
    (h : runner.implementationPlan workspace state = .ok (some plan')) :
    Carries (fun _ => True) state.plan plan' := by
  obtain ⟨_, integration, _, -, hintegration, -, hcode⟩ := GraphRunner.implementationPlan_ok h
  obtain ⟨codeItems, _, _, merged, hmerged, hfields⟩ := GraphRunner.withCodeItems_ok hcode
  intro item hitem _
  rw [hfields]
  by_cases hid : item.id = integration.id
  · obtain rfl := state.plan.eq_of_id_eq hitem (List.mem_of_find?_eq_some hintegration) hid
    exact ⟨merged, List.mem_append_right _ (List.mem_singleton_self _),
      WorkItem.rewired_continues hmerged⟩
  · refine ⟨item, List.mem_append_left _ (List.mem_append_left _ ?_), .refl item⟩
    exact List.mem_filter.mpr ⟨hitem, by simpa using hid⟩

/-- What the tail is appended to, and what it leaves. -/
theorem tailPlan_ok (h : runner.tailPlan state = .ok (some plan')) :
    ∃ contract added, state.plan.workItems.find? GraphRunner.isContractItem = some contract ∧
      runner.tailReady state contract = true ∧
      (∀ item ∈ added, DynamicDeliveryTailBuilder.isTailItem item = true) ∧
      plan'.workItems = DynamicDeliveryTailBuilder.preserved state.plan ++ added := by
  unfold GraphRunner.tailPlan at h
  split at h
  · cases h
  · rename_i contract hcontract
    split at h
    · cases h
    · rename_i hready
      have hready : runner.tailReady state contract = true := by simpa using hready
      simp only [bind_eq_ok] at h
      obtain ⟨expansion, hexpansion, h⟩ := h
      cases h
      have hnoTail : state.plan.workItems.any DynamicDeliveryTailBuilder.isTailItem = false := by
        simp only [GraphRunner.tailReady, Bool.and_eq_true, Bool.not_eq_true'] at hready
        exact hready.1.2
      rcases DynamicDeliveryTailBuilder.append_ok hexpansion with ⟨htail, -⟩ | ⟨-, hexpanded⟩
      · rw [hnoTail] at htail
        cases htail
      · obtain ⟨_, _, _, added, -, hadded, hfields⟩ := hexpanded
        refine ⟨contract, added, hcontract, hready,
          DynamicDeliveryTailBuilder.isTailItem_of_additions hadded, ?_⟩
        rw [hfields]

theorem tailPlan_carries (h : runner.tailPlan state = .ok (some plan')) :
    Carries (DynamicDeliveryTailBuilder.isReplaced · = false) state.plan plan' := by
  obtain ⟨_, _, -, -, -, hitems⟩ := tailPlan_ok h
  intro item hitem hkept
  refine ⟨item, ?_, .refl item⟩
  rw [hitems]
  exact List.mem_append_left _ (List.mem_filter.mpr ⟨hitem, by simpa using hkept⟩)

theorem not_ready_of_tailPlan_none (h : runner.tailPlan state = .ok none) {contract : WorkItem}
    (hcontract : state.plan.workItems.find? GraphRunner.isContractItem = some contract) :
    runner.tailReady state contract = false := by
  unfold GraphRunner.tailPlan at h
  rw [hcontract] at h
  dsimp only at h
  split at h
  · simp_all
  · simp only [bind_eq_ok] at h
    obtain ⟨_, -, h⟩ := h
    cases h

/-- A replaced item is gone: the added ids are new. -/
theorem not_mem_of_tailPlan (h : runner.tailPlan state = .ok (some plan')) {item : WorkItem}
    (hitem : item ∈ state.plan.workItems)
    (hreplaced : DynamicDeliveryTailBuilder.isReplaced item = true) :
    item.id ∉ plan'.itemIds := by
  obtain ⟨contract, added, -, hready, htail, hitems⟩ := tailPlan_ok h
  intro hmem
  obtain ⟨item', hitem', hid⟩ := List.mem_map.mp hmem
  rw [hitems, List.mem_append] at hitem'
  rcases hitem' with hkept | hadded
  · obtain ⟨hold, hkept⟩ := List.mem_filter.mp hkept
    rw [state.plan.eq_of_id_eq hold hitem hid, hreplaced] at hkept
    cases hkept
  · have htailItem : DynamicDeliveryTailBuilder.isTailItem item = true := by
      rw [DynamicDeliveryTailBuilder.isTailItem, ← hid]
      exact htail item' hadded
    simp only [GraphRunner.tailReady, Bool.and_eq_true, Bool.not_eq_true'] at hready
    have hnone := List.any_eq_false.mp hready.1.2 item hitem
    exact hnone htailItem

end Rewrites

namespace RunState

/-- Results belong to the plan, completion means every item, and the checkpoint loads. -/
structure Sound (state : RunState) : Prop where
  planned : ∀ id ∈ state.nodeResults.keys, id ∈ state.plan.itemIds
  complete : state.isComplete = true ↔
    ∀ item ∈ state.plan.workItems, state.hasCompleted item.id = true
  resumable : ∃ loaded, fromCheckpoint state.plan state.asCheckpoint = .ok loaded

/-- What a run keeps; no fresh run forces an item to be rerun. -/
structure Consistent (state : RunState) : Prop where
  wellFormed : state.WellFormed
  distinct : state.DistinctOutputs
  unforced : state.forcedRerunWorkItemIds = []

variable {state : RunState}

theorem WellFormed.planned (h : state.WellFormed) {id : String} (hid : id ∈ state.nodeResults.keys) :
    ∃ item ∈ state.plan.workItems, item.id = id := by
  obtain ⟨result, hresult⟩ := Dict.mem_keys_iff.mp hid
  have hagent := h.result_agent _ (Dict.get?_eq_some_iff.mp hresult)
  obtain ⟨item, hitem, -⟩ := (Option.any_eq_true _ _).mp hagent
  exact ⟨item, state.plan.workItem_eq_some_iff.mp hitem⟩

theorem distinctOutputs_iff :
    state.DistinctOutputs ↔ ∀ a ∈ state.completedItems, ∀ b ∈ state.completedItems,
      a.outputKey = b.outputKey → a = b := by
  have hnodup : state.completedItems.Nodup :=
    (List.Nodup.of_map _ state.plan.itemIds_nodup).filter _
  constructor
  · intro h a ha b hb
    exact List.inj_on_of_nodup_map h ha hb
  · exact fun h => hnodup.map_on h

/-- With all results in the plan, counting them is enough. -/
theorem isComplete_iff (hplanned : ∀ id ∈ state.nodeResults.keys, id ∈ state.plan.itemIds) :
    state.isComplete = true ↔
      ∀ item ∈ state.plan.workItems, state.hasCompleted item.id = true := by
  have hkeys : state.nodeResults.entries.length = state.nodeResults.keys.length := by
    simp [Dict.keys]
  have hitems : state.plan.workItems.length = state.plan.itemIds.length := by
    simp [PlanFields.itemIds]
  have hsub : state.nodeResults.keys.Subperm state.plan.itemIds :=
    state.nodeResults.keys_nodup.subperm hplanned
  simp only [isComplete, Bool.and_eq_true, decide_eq_true_eq, List.all_eq_true, hkeys, hitems]
  constructor
  · rintro ⟨hlength, hall⟩ item hitem
    have hperm := hsub.perm_of_length_le (Nat.le_of_eq hlength.symm)
    have hid : item.id ∈ state.nodeResults.keys :=
      hperm.mem_iff.mpr (List.mem_map_of_mem hitem)
    obtain ⟨result, hresult⟩ := Dict.mem_keys_iff.mp hid
    refine hasCompleted_iff.mpr ⟨result, hresult, hall result ?_⟩
    exact List.mem_map_of_mem (Dict.get?_eq_some_iff.mp hresult)
  · intro hall
    have hback : ∀ id ∈ state.plan.itemIds, id ∈ state.nodeResults.keys := by
      intro id hid
      obtain ⟨item, hitem, rfl⟩ := List.mem_map.mp hid
      obtain ⟨result, hresult, -⟩ := hasCompleted_iff.mp (hall item hitem)
      exact Dict.mem_keys_iff.mpr ⟨result, hresult⟩
    refine ⟨Nat.le_antisymm hsub.length_le
      (state.plan.itemIds_nodup.subperm hback).length_le, ?_⟩
    intro result hresult
    obtain ⟨e, he, rfl⟩ := List.mem_map.mp hresult
    obtain ⟨item, hitem, hid⟩ := List.mem_map.mp (hplanned e.1 (Dict.mem_keys_of_mem he))
    obtain ⟨result', hget, hcompleted⟩ := hasCompleted_iff.mp (hall item hitem)
    rw [hid, Dict.get?_eq_some_iff.mpr he] at hget
    cases hget
    exact hcompleted

theorem Consistent.sound (h : state.Consistent) : state.Sound := by
  have hplanned : ∀ id ∈ state.nodeResults.keys, id ∈ state.plan.itemIds := by
    intro id hid
    obtain ⟨item, hitem, rfl⟩ := h.wellFormed.planned hid
    exact List.mem_map_of_mem hitem
  exact ⟨hplanned, isComplete_iff hplanned, state.restored,
    (fromCheckpoint_asCheckpoint h.wellFormed).mpr ⟨h.distinct, rfl⟩⟩

theorem consistent_fresh (plan : ExecutionPlan) : (fresh plan).Consistent := by
  refine ⟨wellFormed_fresh plan, ?_, rfl⟩
  simp [DistinctOutputs, completedItems, hasCompleted, fresh]

/-- A later plan keeps the state consistent when it continues every item with a result. -/
theorem Consistent.carried (h : state.Consistent) {kept : WorkItem → Prop} {plan' : ExecutionPlan}
    (hcarries : Carries kept state.plan plan')
    (hkept : ∀ item ∈ state.plan.workItems, item.id ∈ state.nodeResults.keys → kept item) :
    ({ state with plan := plan' } : RunState).Consistent := by
  have hcontinued {id : String} (hid : id ∈ state.nodeResults.keys) :
      ∃ item ∈ state.plan.workItems, item.id = id ∧ ∃ item' ∈ plan'.workItems,
        item.Continues item' := by
    obtain ⟨item, hitem, rfl⟩ := h.wellFormed.planned hid
    exact ⟨item, hitem, rfl, hcarries item hitem (hkept item hitem hid)⟩
  refine ⟨⟨h.wellFormed.result_id, ?_, ?_, h.wellFormed.forced_open, h.wellFormed.diagnostics_keys,
    h.wellFormed.diagnostics_text⟩, ?_, h.unforced⟩
  · intro e he
    obtain ⟨item, hitem, hid, item', hitem', hsame⟩ := hcontinued (Dict.mem_keys_of_mem he)
    have hagent := h.wellFormed.result_agent e he
    rw [state.plan.workItem_eq_some_iff.mpr ⟨hitem, hid⟩] at hagent
    rw [plan'.workItem_eq_some_iff.mpr ⟨hitem', hsame.id.trans hid⟩]
    simpa [hsame.agentId] using hagent
  · intro id hid
    rw [h.unforced] at hid
    cases hid
  · have hold (item' : WorkItem)
        (hmem : item' ∈ ({ state with plan := plan' } : RunState).completedItems) :
        ∃ item ∈ state.completedItems, item.Continues item' := by
      obtain ⟨hitem', hcompleted⟩ := mem_completedItems.mp hmem
      have hcompleted : state.hasCompleted item'.id = true := hcompleted
      obtain ⟨result, hresult, -⟩ := hasCompleted_iff.mp hcompleted
      obtain ⟨item, hitem, hid, other, hother, hsame⟩ :=
        hcontinued (Dict.mem_keys_iff.mpr ⟨result, hresult⟩)
      obtain rfl := plan'.eq_of_id_eq hother hitem' (hsame.id.trans hid)
      exact ⟨item, mem_completedItems.mpr ⟨hitem, hid ▸ hcompleted⟩, hsame⟩
    rw [distinctOutputs_iff]
    intro a ha b hb hkey
    obtain ⟨a', ha', hsameA⟩ := hold a ha
    obtain ⟨b', hb', hsameB⟩ := hold b hb
    have hequal : a' = b' := distinctOutputs_iff.mp h.distinct a' ha' b' hb'
      (hsameA.outputKey.symm.trans (hkey.trans hsameB.outputKey))
    refine plan'.eq_of_id_eq (mem_completedItems.mp ha).1 (mem_completedItems.mp hb).1 ?_
    rw [hsameA.id, hsameB.id, hequal]

theorem mem_keys_of_hasCompleted {id : String} (h : state.hasCompleted id = true) :
    id ∈ state.nodeResults.keys := by
  obtain ⟨result, hresult, -⟩ := hasCompleted_iff.mp h
  exact Dict.mem_keys_iff.mpr ⟨result, hresult⟩

theorem mem_completedItems_recorded {item other : WorkItem} {result : NodeResult}
    (hitem : item ∈ state.plan.workItems) (hfresh : item.id ∉ state.nodeResults.keys) :
    other ∈ (state.recorded item result).completedItems ↔
      other ∈ state.completedItems ∨ (other = item ∧ result.isCompleted = true) := by
  rw [mem_completedItems, mem_completedItems, recorded_plan, hasCompleted_recorded]
  by_cases hid : other.id = item.id
  · rw [if_pos hid]
    constructor
    · rintro ⟨hother, hcompleted⟩
      exact .inr ⟨state.plan.eq_of_id_eq hother hitem hid, hcompleted⟩
    · rintro (⟨_, hcompleted⟩ | ⟨rfl, hcompleted⟩)
      · exact absurd (mem_keys_of_hasCompleted hcompleted) (hid ▸ hfresh)
      · exact ⟨hitem, hcompleted⟩
  · rw [if_neg hid]
    constructor
    · exact .inl
    · rintro (hold | ⟨rfl, -⟩)
      · exact hold
      · exact absurd rfl hid

/-- A completed result leaves the outputs distinct when its output is new. -/
theorem distinctOutputs_recorded_iff {item : WorkItem} {result : NodeResult}
    (hitem : item ∈ state.plan.workItems) (hdistinct : state.DistinctOutputs)
    (hfresh : item.id ∉ state.nodeResults.keys) :
    (state.recorded item result).DistinctOutputs ↔
      (result.isCompleted = true → ∀ other ∈ state.completedItems,
        other.outputKey ≠ item.outputKey) := by
  have hnew {other : WorkItem} (hother : other ∈ state.completedItems) : other ≠ item := by
    rintro rfl
    exact hfresh (mem_keys_of_hasCompleted (mem_completedItems.mp hother).2)
  rw [distinctOutputs_iff]
  simp only [mem_completedItems_recorded hitem hfresh]
  constructor
  · intro h hcompleted other hother hkey
    exact hnew hother (h other (.inl hother) item (.inr ⟨rfl, hcompleted⟩) hkey)
  · rintro h a (ha | ⟨rfl, hcompleted⟩) b (hb | ⟨rfl, hcompleted'⟩) hkey
    · exact distinctOutputs_iff.mp hdistinct a ha b hb hkey
    · exact absurd hkey (h hcompleted' a ha)
    · exact absurd hkey.symm (h hcompleted b hb)
    · rfl

/-- Recording for an item of the plan keeps a state consistent exactly when a
completed result has an output of its own. -/
theorem Consistent.recorded_sound_iff (h : state.Consistent) {item : WorkItem}
    {result : NodeResult} {state' : RunState} (hitem : item ∈ state.plan.workItems)
    (hrecord : state.record item result = .ok state') :
    (state'.Sound ↔ (result.isCompleted = true →
      ∀ other ∈ state.completedItems, other.outputKey ≠ item.outputKey)) ∧
      (state'.Sound → state'.Consistent) := by
  have hwellFormed := h.wellFormed.record hitem hrecord
  obtain ⟨-, -, hfresh, rfl⟩ := record_eq_ok.mp hrecord
  have hunforced : (state.recorded item result).forcedRerunWorkItemIds = [] := by
    unfold recorded
    split
    · simp [h.unforced]
    · exact h.unforced
  have hdistinct := @distinctOutputs_recorded_iff state item result hitem h.distinct hfresh
  have hsound (hs : (state.recorded item result).Sound) :
      (state.recorded item result).Consistent := by
    obtain ⟨loaded, hload⟩ := hs.resumable
    exact ⟨hwellFormed, ((fromCheckpoint_asCheckpoint hwellFormed).mp hload).1, hunforced⟩
  refine ⟨⟨fun hs => hdistinct.mp (hsound hs).distinct, fun hsafe => ?_⟩, hsound⟩
  exact Consistent.sound ⟨hwellFormed, hdistinct.mpr hsafe, hunforced⟩

end RunState

namespace Event

/-- What a step has to leave alone: a completed result needs an output of its own,
and a tail may only replace items without a result. -/
def Safe (runner : GraphRunner) (state : RunState) : Event → Prop
  | bootstrap _ => True
  | record item result => result.isCompleted = true →
      ∀ other ∈ state.completedItems, other.outputKey ≠ item.outputKey
  | rewrite .tail _ => ∀ contract,
      state.plan.workItems.find? GraphRunner.isContractItem = some contract →
        runner.tailReady state contract = true →
          ∀ item ∈ state.plan.workItems, DynamicDeliveryTailBuilder.isReplaced item = true →
            item.id ∉ state.nodeResults.keys
  | rewrite _ _ => True

end Event

namespace Rewrite

theorem apply_ok {rewrite : Rewrite} {runner : GraphRunner} {workspace : Workspace}
    {state state' : RunState} (h : rewrite.apply runner workspace state = .ok state') :
    (rewrite.plan runner workspace state = .ok none ∧ state' = state) ∨
      ∃ plan', rewrite.plan runner workspace state = .ok (some plan') ∧
      state' = { state with plan := plan' } := by
  simp only [apply, bind_eq_ok] at h
  obtain ⟨found, hfound, h⟩ := h
  cases found with
  | none =>
    cases h
    exact .inl ⟨hfound, rfl⟩
  | some plan' =>
    cases h
    exact .inr ⟨plan', hfound, rfl⟩

/-- Three of the rewrites continue every item. -/
theorem plan_carries {rewrite : Rewrite} {runner : GraphRunner} {workspace : Workspace}
    {state : RunState} {plan' : ExecutionPlan} (hrewrite : rewrite ≠ .tail)
    (h : rewrite.plan runner workspace state = .ok (some plan')) :
    Carries (fun _ => True) state.plan plan' := by
  cases rewrite with
  | modules => exact modulesPlan_carries h
  | implementations => exact implementationsPlan_carries h
  | tail => exact absurd rfl hrewrite
  | implementationPlan => exact implementationPlan_carries h

end Rewrite

namespace RunState

/-- The rewrites that add to a plan keep every state consistent. -/
theorem Consistent.rewritten {state state' : RunState} (h : state.Consistent) {rewrite : Rewrite}
    {runner : GraphRunner} {workspace : Workspace} (hrewrite : rewrite ≠ .tail)
    (happly : rewrite.apply runner workspace state = .ok state') : state'.Consistent := by
  rcases Rewrite.apply_ok happly with ⟨-, rfl⟩ | ⟨plan', hplan, rfl⟩
  · exact h
  · exact h.carried (Rewrite.plan_carries hrewrite hplan) fun _ _ _ => trivial

theorem Consistent.tail_sound_iff {state state' : RunState} (h : state.Consistent)
    {runner : GraphRunner} {workspace : Workspace}
    (happly : Rewrite.tail.apply runner workspace state = .ok state') :
    (state'.Sound ↔ (Event.rewrite .tail workspace).Safe runner state) ∧
      (state'.Sound → state'.Consistent) := by
  rcases Rewrite.apply_ok happly with ⟨hnone, rfl⟩ | ⟨plan', hplan, rfl⟩
  · refine ⟨iff_of_true h.sound fun contract hcontract hready => ?_, fun _ => h⟩
    rw [not_ready_of_tailPlan_none hnone hcontract] at hready
    cases hready
  · have hsafe (hs : ({ state with plan := plan' } : RunState).Sound) :
        (Event.rewrite .tail workspace).Safe runner state :=
      fun _ _ _ item hitem hreplaced hresult =>
        not_mem_of_tailPlan hplan hitem hreplaced (hs.planned item.id hresult)
    have hconsistent (hs : (Event.rewrite .tail workspace).Safe runner state) :
        ({ state with plan := plan' } : RunState).Consistent := by
      obtain ⟨contract, -, hcontract, hready, -, -⟩ := tailPlan_ok hplan
      refine h.carried (tailPlan_carries hplan) fun item hitem hresult => ?_
      by_contra hreplaced
      exact hs contract hcontract hready item hitem (by simpa using hreplaced) hresult
    exact ⟨⟨hsafe, fun hs => (hconsistent hs).sound⟩, fun hs => hconsistent (hsafe hs)⟩

theorem Consistent.step_sound_iff {runner : GraphRunner} {state state' : RunState} {event : Event}
    (h : state.Consistent) (hstep : Step runner state event state') :
    (state'.Sound ↔ event.Safe runner state) ∧ (state'.Sound → state'.Consistent) := by
  cases hstep with
  | @bootstrap item content _ hfresh hfirst hrecord =>
    have hitem := List.mem_of_find?_eq_some hfirst
    obtain ⟨hiff, hconsistent⟩ := h.recorded_sound_iff hitem hrecord
    refine ⟨iff_of_true (hiff.mpr fun _ other hother => ?_) trivial, hconsistent⟩
    have hkey := mem_keys_of_hasCompleted (mem_completedItems.mp hother).2
    rw [hfresh] at hkey
    cases hkey
  | record hready hrecord =>
    exact h.recorded_sound_iff (mem_readyItems.mp hready).1 hrecord
  | @rewrite rewrite workspace _ happly =>
    by_cases htail : rewrite = .tail
    · subst htail
      exact h.tail_sound_iff happly
    · have hnext := h.rewritten htail happly
      refine ⟨iff_of_true hnext.sound ?_, fun _ => hnext⟩
      cases rewrite with
      | tail => exact absurd rfl htail
      | _ => trivial

theorem consistent_of_run {runner : GraphRunner} {plan : ExecutionPlan} {state : RunState}
    (h : Run runner (fun state event => event.Safe runner state) plan state) :
    state.Consistent := by
  induction h with
  | fresh => exact consistent_fresh plan
  | step _ hsafe hnext ih =>
    obtain ⟨hiff, hconsistent⟩ := ih.step_sound_iff hnext
    exact hconsistent (hiff.mpr hsafe)

/-- A run of safe steps only reaches sound states, and its next step leads to a
sound state exactly when it is safe. -/
theorem run_sound {runner : GraphRunner} {plan : ExecutionPlan} {state : RunState}
    (h : Run runner (fun state event => event.Safe runner state) plan state) :
    state.Sound ∧ ∀ event state', Step runner state event state' →
      (state'.Sound ↔ event.Safe runner state) :=
  ⟨(consistent_of_run h).sound, fun _ _ hstep => ((consistent_of_run h).step_sound_iff hstep).1⟩

def plainItem (id agentId : String) (h : (WorkItemFields.postInit {
    id := id, agentId := agentId, objective := "x", outputKey := id }).isOk = true) : WorkItem :=
  .ofFields _ h

def contractItem : WorkItem := plainItem "contract" "architecture_contract_agent" (by decide)

def setupItem : WorkItem := plainItem "setup" "bootstrap_agent" (by decide)

/-- A contract and an environment that does not wait for it. -/
def setupPlan : ExecutionPlan where
  id := "plan"
  goal := "x"
  workItems := [contractItem, setupItem]
  trace := { requirementId := "req-1", traceId := "tr-1" }
  accepted := by decide

def preparedState : RunState :=
  (fresh setupPlan).recorded setupItem (bootstrapResult setupItem "ready")

def contractResult : NodeResult :=
  { workItemId := "contract", agentId := "architecture_contract_agent", status := .completed }

def contractedState : RunState := preparedState.recorded contractItem contractResult

def plainRunner : GraphRunner := { agents := {} }

def emptyWorkspace : Workspace where
  design := fun _ => .error (.fileNotFound "staging")
  contract := .error (.fileNotFound "architecture_contract")

theorem setupPlan_prepared :
    Step plainRunner (fresh setupPlan) (.bootstrap "ready") preparedState :=
  .bootstrap rfl rfl (record_eq_ok.mpr ⟨rfl, rfl, by decide, rfl⟩)

theorem setupPlan_contracted :
    Step plainRunner preparedState (.record contractItem contractResult) contractedState :=
  .record (mem_readyItems.mpr ⟨List.mem_cons_self, by decide, nofun⟩)
    (record_eq_ok.mpr ⟨rfl, rfl, by decide, rfl⟩)

open DynamicDeliveryTailBuilder in
/-- The environment is replaced, and the contract does not wait for it. -/
theorem setupPlan_expands :
    ∃ expansion, DynamicDeliveryTailBuilder.append setupPlan "contract" none none = .ok expansion := by
  have hcontract : contractItem ∈ setupPlan.workItems := List.mem_cons_self
  have hsources : sources none none contractItem = ["contract"] := rfl
  refine append_isOk (by decide) hcontract
    (.absent (by decide)) (.absent (by decide)) ?_
  constructor
  case trace => decide
  case apart => exact List.nodup_singleton _
  case attached =>
    rw [hsources]
    decide
  case closed =>
    intro item hitem _ other _ hd
    have hfree : ∀ item ∈ setupPlan.workItems, item.dependencyIds = [] := by decide
    rw [hfree item hitem] at hd
    cases hd
  case free =>
    intro item hitem _ hplace
    have hnone : ∀ item ∈ setupPlan.workItems, item.executionMode ≠ .partitioned := by decide
    simp [DeliveryContractRegistry.outputIdentities, hnone item hitem] at hplace

theorem setupPlan_appended :
    ∃ plan', plainRunner.tailPlan contractedState = .ok (some plan') := by
  obtain ⟨expansion, hexpansion⟩ := setupPlan_expands
  have hcontract : contractedState.plan.workItems.find? GraphRunner.isContractItem =
      some contractItem := rfl
  have hready : plainRunner.tailReady contractedState contractItem = true := by decide
  have hrequirement : contractedState.plan.workItems.find?
      DynamicDeliveryTailBuilder.isRequirementItem = none := by decide
  have harchitecture : contractedState.plan.workItems.find?
      DynamicDeliveryTailBuilder.isArchitectureItem = none := by decide
  have hplan : contractedState.plan = setupPlan := rfl
  have hid : contractItem.id = "contract" := rfl
  refine ⟨expansion.plan, ?_⟩
  unfold GraphRunner.tailPlan
  rw [hcontract]
  dsimp only
  rw [hready, Bool.not_true, if_neg Bool.false_ne_true, hrequirement, harchitecture, hplan, hid]
  simp only [Option.map_none, hexpansion, ok_bind]

/-- The environment is recorded first, and the tail then replaces its item. -/
theorem setupPlan_leaves_result_behind : ∃ state, Run plainRunner (fun _ _ => True) setupPlan state ∧
    ¬ state.Sound := by
  obtain ⟨plan', hplan⟩ := setupPlan_appended
  have htail : Rewrite.tail.apply plainRunner emptyWorkspace contractedState =
      .ok { contractedState with plan := plan' } := by
    unfold Rewrite.apply Rewrite.plan
    dsimp only
    rw [hplan]
    rfl
  refine ⟨_, .step (.step (.step .fresh trivial setupPlan_prepared) trivial setupPlan_contracted)
    trivial (.rewrite htail), fun hsound => ?_⟩
  have hgone : setupItem.id ∉ plan'.itemIds :=
    not_mem_of_tailPlan hplan (List.mem_cons_of_mem _ (List.mem_singleton_self _)) (by decide)
  have hresult : "setup" ∈ contractedState.nodeResults.keys := by decide
  exact hgone (hsound.planned "setup" hresult)

/-- Recording the environment is safe. -/
theorem preparedState_sound : preparedState.Sound ∧
    ∀ event state', Step plainRunner preparedState event state' →
      (state'.Sound ↔ event.Safe plainRunner preparedState) :=
  run_sound (@Run.step _ _ _ _ _ (.bootstrap "ready") .fresh trivial setupPlan_prepared)

end RunState
end ProjectOS.Orchestration
