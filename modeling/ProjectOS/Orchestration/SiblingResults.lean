import ProjectOS.Orchestration.BatchJournal

/-! Completed siblings are recorded unless a thread of their batch raises or a cancellation
is seen on the way to them. -/
namespace ProjectOS.Orchestration
open Base

namespace RunState
variable {state : RunState} {id : String}

theorem completedIn_asCheckpoint (h : state.hasCompleted id = true) :
    completedIn state.asCheckpoint id := by
  obtain ⟨result, hget, hcompleted⟩ := hasCompleted_iff.mp h
  refine ⟨Text.sorted ((state.nodeResults.entries.filter (·.2.isCompleted)).map Prod.fst), ?_, ?_⟩
  · simp [asCheckpoint, Json.get, Json.getD]
  · rw [Text.mem_sorted, List.mem_map]
    exact ⟨(id, result), List.mem_filter.mpr ⟨Dict.get?_eq_some_iff.mp hget, hcompleted⟩, rfl⟩

/-- The loop over `node_results` keeps every completed result. -/
theorem mem_keys_readResults {plan : ExecutionPlan} {raws : List Json}
    {results final : Dict String NodeResult} {seen : List String}
    (h : readResults plan results seen raws = .ok final) (hid : id ∈ results.keys ∨
      ∃ result : NodeResult, result.asDict ∈ raws ∧ result.isCompleted = true ∧
        result.workItemId = id) : id ∈ final.keys := by
  induction raws generalizing results seen with
  | nil =>
    cases h
    rcases hid with hold | ⟨_, hmem, -⟩
    · exact hold
    · cases hmem
  | cons raw rest ih =>
    rw [readResults, raiseWhen_bind_eq_ok] at h
    obtain ⟨_, hread, h⟩ := bind_eq_ok.mp h.2
    rw [raiseWhen_bind_eq_ok, raiseWhen_bind_eq_ok] at h
    apply ih h.2.2
    rcases hid with hold | ⟨result, hmem, hcompleted, rfl⟩
    · left
      split
      · exact Dict.mem_keys_set.mpr (.inr hold)
      · exact hold
    · rcases List.mem_cons.mp hmem with rfl | hlater
      · left
        rw [NodeResult.fromDict_asDict] at hread
        cases hread
        rw [if_pos hcompleted]
        exact Dict.mem_keys_set.mpr (.inl rfl)
      · exact .inr ⟨result, hlater, hcompleted, rfl⟩

/-- A resume does not execute an item whose completed result the checkpoint holds. -/
theorem not_ready_of_fromCheckpoint {plan : ExecutionPlan} {restored : RunState}
    (h : fromCheckpoint plan state.asCheckpoint = .ok restored) {result : NodeResult}
    (hget : state.nodeResults.get? id = some result) (hcompleted : result.isCompleted = true)
    (hid : result.workItemId = id) : ∀ item ∈ restored.readyItems, item.id ≠ id := by
  have hresults : state.asCheckpoint.getD "node_results" (.arr []) =
      .arr (state.nodeResults.values.map fun result => result.asDict.set "content" .null) := by
    simp [asCheckpoint, Json.getD]
  unfold fromCheckpoint at h
  rw [raiseWhen_bind_eq_ok, raiseWhen_bind_eq_ok, raiseWhen_bind_eq_ok, hresults] at h
  obtain ⟨results, hread, h⟩ := bind_eq_ok.mp h.2.2.2
  simp only [bind_eq_ok] at h
  obtain ⟨_, -, _, -, _, -, _, -, _, -, heq⟩ := h
  cases heq
  have hkey : id ∈ results.keys := by
    refine mem_keys_readResults hread (.inr ⟨result.withoutContent, ?_, ?_, ?_⟩)
    · rw [← NodeResult.asDict_set_content]
      exact List.mem_map_of_mem (List.mem_map_of_mem (Dict.get?_eq_some_iff.mp hget))
    · exact hcompleted
    · exact hid
  intro item hready heq
  exact (mem_readyItems.mp hready).2.1 (heq ▸ hkey)

end RunState

/-- The state holds a completed result of the item. -/
def RunState.Holds (state : RunState) (id : String) : Prop :=
  ∃ result, state.nodeResults.get? id = some result ∧ result.isCompleted = true ∧
    result.workItemId = id

namespace Journal

/-- The journal of a run that goes on or ends. -/
def reached : Except Journal Journal → Journal
  | .ok journal => journal
  | .error journal => journal

theorem reached_bind (kept : Journal → Prop) {x : Except Journal Journal}
    {f : Journal → Except Journal Journal} (hx : kept (reached x))
    (hf : ∀ journal, kept journal → kept (reached (f journal))) : kept (reached (x >>= f)) := by
  cases x with
  | ok journal => exact hf journal hx
  | error journal => exact hx

/-- The completed result is in all three records. -/
structure Stored (journal : Journal) (id : String) : Prop where
  state : journal.state.Holds id
  checkpoint : ∃ saved : RunState, journal.checkpoint = some saved.asCheckpoint ∧ saved.Holds id
  event : (WorkEvent.completed, id) ∈ journal.events

variable {journal next : Journal} {id : String} {runner : GraphRunner} {pass : BatchPass}

theorem Stored.recorded (h : journal.Stored id) : journal.Recorded id := by
  obtain ⟨result, hget, hcompleted, -⟩ := h.state
  obtain ⟨saved, hsaved, old, hold, holdCompleted, hid⟩ := h.checkpoint
  refine ⟨RunState.hasCompleted_iff.mpr ⟨result, hget, hcompleted⟩,
    ⟨saved.asCheckpoint, hsaved, ?_, fun plan restored hrestored => ?_⟩, h.event⟩
  · exact RunState.completedIn_asCheckpoint (RunState.hasCompleted_iff.mpr ⟨old, hold, holdCompleted⟩)
  · exact RunState.not_ready_of_fromCheckpoint hrestored hold holdCompleted hid

theorem Stored.log (h : journal.Stored id) (events : List (WorkEvent × String)) :
    (journal.log events).Stored id := ⟨h.state, h.checkpoint, List.mem_append_left _ h.event⟩

theorem record_eq_ok {item : WorkItem} {result : NodeResult} :
    journal.record item result = .ok next ↔
      result.workItemId = item.id ∧ result.agentId = item.agentId ∧
        item.id ∉ journal.state.nodeResults.keys ∧ next = {
          state := journal.state.recorded item result
          checkpoint := some (journal.state.recorded item result).asCheckpoint
          events := journal.events ++ [(result.status.event, item.id)] } := by
  unfold record
  rw [bind_eq_ok]
  constructor
  · rintro ⟨state, hstate, heq⟩
    obtain ⟨hid, hagent, hfresh, rfl⟩ := RunState.record_eq_ok.mp hstate
    exact ⟨hid, hagent, hfresh, (Except.ok.inj heq).symm⟩
  · rintro ⟨hid, hagent, hfresh, rfl⟩
    exact ⟨_, RunState.record_eq_ok.mpr ⟨hid, hagent, hfresh, rfl⟩, rfl⟩

theorem Stored.record (h : journal.Stored id) {item : WorkItem} {result : NodeResult}
    (hrecord : journal.record item result = .ok next) : next.Stored id := by
  obtain ⟨-, -, hfresh, rfl⟩ := record_eq_ok.mp hrecord
  obtain ⟨old, hget, hrest⟩ := h.state
  have hne : id ≠ item.id := by
    rintro rfl
    exact hfresh (Dict.mem_keys_iff.mpr ⟨old, hget⟩)
  have hholds : (journal.state.recorded item result).Holds id :=
    ⟨old, by rw [RunState.recorded_nodeResults, Dict.get?_set, if_neg hne, hget], hrest⟩
  exact ⟨hholds, ⟨_, rfl, hholds⟩, List.mem_append_left _ h.event⟩

theorem Stored.rewrite (h : journal.Stored id) (change : Rewrite) :
    (reached (journal.rewrite runner pass change)).Stored id := by
  unfold Journal.rewrite
  split
  · exact h
  · exact h
  · exact ⟨h.state, ⟨_, rfl, h.state⟩, h.event⟩

open GraphRunner

theorem Stored.prepare (h : journal.Stored id) : (reached (runner.prepare pass journal)).Stored id := by
  unfold GraphRunner.prepare
  split
  · exact h.log _
  · refine reached_bind (Stored · id) (h.rewrite _) fun modules h => ?_
    refine reached_bind (Stored · id) (h.rewrite _) fun designed h => ?_
    refine reached_bind (Stored · id) (h.rewrite _) fun tailed htailed => ?_
    refine reached_bind (Stored · id) (htailed.rewrite _) fun expanded hexpanded => ?_
    split
    · exact hexpanded
    · exact ⟨hexpanded.state, htailed.checkpoint, htailed.event⟩

theorem Stored.recordSettled (h : journal.Stored id) {results : Dict String NodeResult}
    {stopped : Bool} {items : List WorkItem} :
    (reached ((recordSettled pass results journal stopped items).map Prod.fst)).Stored id := by
  induction items generalizing journal stopped with
  | nil => exact h
  | cons item rest ih =>
    unfold GraphRunner.recordSettled
    split
    · exact h.log _
    · split
      · exact h
      · dsimp only
        split
        · rename_i next hrecord
          exact ih ((h.log _).record hrecord)
        · exact h.log _

theorem Stored.runBatch (h : journal.Stored id) {batch : List WorkItem} :
    (reached (runBatch pass journal batch)).Stored id := by
  unfold GraphRunner.runBatch
  dsimp only
  split
  · exact h.log _
  · rename_i results _
    have hsettled := @Stored.recordSettled _ id pass
      (h.log (batch.map fun item => (.started, item.id))) results false batch
    split
    · rename_i final heq
      rwa [heq] at hsettled
    · rename_i recorded stopped heq
      rw [heq] at hsettled
      split
      · exact hsettled
      · exact hsettled

theorem Stored.runPass (h : journal.Stored id) : (reached (runner.runPass pass journal)).Stored id := by
  unfold GraphRunner.runPass
  refine reached_bind (Stored · id) h.prepare fun prepared hprepared => ?_
  split
  · exact hprepared
  · exact hprepared.runBatch

/-- Nothing that a run does later removes a record. -/
theorem Stored.runPasses (h : journal.Stored id) {passes : List BatchPass} :
    (runner.runPasses passes journal).Stored id := by
  induction passes generalizing journal with
  | nil => exact h
  | cons pass rest ih =>
    have hpass : (reached (runner.runPass pass journal)).Stored id := h.runPass
    unfold GraphRunner.runPasses
    split
    · rename_i next heq
      rw [heq] at hpass
      exact ih hpass
    · rename_i final heq
      rwa [heq] at hpass

end Journal

namespace GraphRunner
open Journal

variable {runner : GraphRunner} {pass : BatchPass} {journal : Journal} {batch : List WorkItem}
  {results : Dict String NodeResult}

/-- Items without results, under ids of their own. -/
structure Open (journal : Journal) (batch : List WorkItem) : Prop where
  nodup : (batch.map (·.id)).Nodup
  fresh : ∀ item ∈ batch, item.id ∉ journal.state.nodeResults.keys

theorem open_batch (runner : GraphRunner) (pass : BatchPass) (journal : Journal) :
    Open journal (runner.batch pass journal) := by
  have hsublist : (runner.batch pass journal).Sublist journal.state.readyItems := by
    unfold GraphRunner.batch
    split
    · exact List.nil_sublist _
    · by_cases hready : journal.state.readyItems = []
      · rw [hready]
        exact List.Sublist.refl []
      · exact (selectSchedulable_batch hready).sublist
  have hplan : journal.state.readyItems.Sublist journal.state.plan.workItems := List.filter_sublist
  refine ⟨journal.state.plan.itemIds_nodup.sublist ((hsublist.trans hplan).map _), fun item hitem => ?_⟩
  exact (RunState.mem_readyItems.mp (hsublist.subset hitem)).2.1

/-- The results that the threads came to. -/
def Answers (threads : Threads) (results : Dict String NodeResult) (batch : List WorkItem) : Prop :=
  ∀ item ∈ batch, ∃ result, threads.run item = .ok result ∧ results.get? item.id = some result

theorem runReadyItems_ok {threads : Threads} (hnodup : (batch.map (·.id)).Nodup)
    (h : runReadyItems threads batch = .ok results) : Answers threads results batch := by
  unfold runReadyItems at h
  obtain ⟨pairs, hpairs, heq⟩ := bind_eq_ok.mp h
  cases heq
  have hall := collect_eq_ok.mp hpairs
  have hpair : ∀ item ∈ batch, ∃ result, threads.run item = .ok result ∧ (item.id, result) ∈ pairs := by
    intro item hitem
    obtain ⟨pair, hpair, hrun⟩ := exists_right_of_forall₂ hall hitem
    cases hresult : threads.run item with
    | error error =>
      rw [hresult] at hrun
      cases hrun
    | ok result =>
      rw [hresult] at hrun
      cases hrun
      exact ⟨result, rfl, hpair⟩
  have hback : ∀ pair ∈ pairs, ∃ item ∈ batch, pair.1 = item.id ∧ threads.run item = .ok pair.2 := by
    intro pair hmem
    obtain ⟨item, hitem, hrun⟩ := exists_left_of_forall₂ hall hmem
    cases hresult : threads.run item with
    | error error =>
      rw [hresult] at hrun
      cases hrun
    | ok result =>
      rw [hresult] at hrun
      cases hrun
      exact ⟨item, hitem, rfl, hresult⟩
  intro item hitem
  obtain ⟨result, hrun, hmem⟩ := hpair item hitem
  refine ⟨result, hrun, (Dict.get?_ofList_iff fun a ha b hb hsame => ?_).mpr hmem⟩
  obtain ⟨first, hfirst, hid, hrunFirst⟩ := hback a ha
  obtain ⟨second, hsecond, hid', hrunSecond⟩ := hback b hb
  obtain rfl := List.inj_on_of_nodup_map hnodup hfirst hsecond (hid.symm.trans (hsame.trans hid'))
  exact Except.ok.inj (hrunFirst.symm.trans hrunSecond)

theorem runReadyItems_isOk {threads : Threads} :
    (∃ results, runReadyItems threads batch = .ok results) ↔
      ∀ item ∈ batch, (threads.run item).isOk = true := by
  have hmap (item : WorkItem) : (∃ pair, ((threads.run item).map fun result => (item.id, result)) =
      .ok pair) ↔ (threads.run item).isOk = true := by
    cases threads.run item with
    | error error =>
      refine iff_of_false ?_ Bool.false_ne_true
      rintro ⟨pair, h⟩
      cases h
    | ok result => exact iff_of_true ⟨_, rfl⟩ rfl
  have hcollect := @collect_isOk_iff _ _ _
    (fun item => (threads.run item).map fun result => (item.id, result)) batch
  simp only [hmap] at hcollect
  rw [← hcollect]
  unfold runReadyItems
  constructor
  · rintro ⟨results, h⟩
    obtain ⟨pairs, hpairs, -⟩ := bind_eq_ok.mp h
    exact ⟨pairs, hpairs⟩
  · rintro ⟨pairs, hpairs⟩
    exact ⟨_, bind_eq_ok.mpr ⟨pairs, hpairs, rfl⟩⟩

theorem settle_own (pass : BatchPass) (item : WorkItem) (result : NodeResult) :
    (pass.settle item result).result.workItemId = result.workItemId ∧
      (pass.settle item result).result.agentId = result.agentId := by
  unfold BatchPass.settle
  split
  · split
    · exact ⟨rfl, rfl⟩
    · exact ⟨rfl, rfl⟩
  · exact ⟨rfl, rfl⟩

theorem settle_completed {item : WorkItem} {result : NodeResult} (h : result.isCompleted = true) :
    pass.settle item result = { result := result, stops := false } := by
  have hstatus : result.status = .completed := of_decide_eq_true h
  unfold BatchPass.settle
  rw [if_neg (by rw [hstatus]; nofun), h]
  rfl

/-- One item of the batch. -/
theorem recordSettled_cons {item : WorkItem} {rest : List WorkItem} {stopped : Bool}
    (hopen : Open journal (item :: rest)) (hanswers : Answers pass.threads results (item :: rest))
    (hnot : pass.cancelledBefore item = false) :
    ∃ next stopped', recordSettled pass results journal stopped (item :: rest) =
        recordSettled pass results next stopped' rest ∧ Open next rest ∧
      (∀ id ∈ next.state.nodeResults.keys, id = item.id ∨ id ∈ journal.state.nodeResults.keys) ∧
      ∀ result, pass.threads.run item = .ok result → result.isCompleted = true →
        next.Stored item.id := by
  obtain ⟨result, hrun, hget⟩ := hanswers item List.mem_cons_self
  obtain ⟨hid, hagent⟩ := pass.threads.own item result hrun
  obtain ⟨hsettledId, hsettledAgent⟩ := settle_own pass item result
  have hfresh := hopen.fresh item List.mem_cons_self
  have hnodup := hopen.nodup
  rw [List.map_cons, List.nodup_cons] at hnodup
  obtain ⟨next, hrecord⟩ : ∃ next, (journal.log (pass.settle item result).events).record item
      (pass.settle item result).result = .ok next :=
    ⟨_, Journal.record_eq_ok.mpr ⟨hsettledId.trans hid, hsettledAgent.trans hagent, hfresh, rfl⟩⟩
  obtain ⟨-, -, -, hnext⟩ := Journal.record_eq_ok.mp hrecord
  have hkeys (id : String) (hmem : id ∈ next.state.nodeResults.keys) :
      id = item.id ∨ id ∈ journal.state.nodeResults.keys := by
    rw [hnext] at hmem
    dsimp only at hmem
    rw [RunState.recorded_nodeResults] at hmem
    exact Dict.mem_keys_set.mp hmem
  refine ⟨next, stopped || (pass.settle item result).stops, ?_, ⟨hnodup.2, fun other hother hmem => ?_⟩,
    hkeys, fun own hown hcompleted => ?_⟩
  · rw [recordSettled, if_neg (by simp [hnot]), hget]
    dsimp only
    rw [hrecord]
  · rcases hkeys _ hmem with heq | hold
    · exact hnodup.1 (List.mem_map.mpr ⟨other, hother, heq⟩)
    · exact hopen.fresh other (List.mem_cons_of_mem _ hother) hold
  · rw [Except.ok.inj (hown.symm.trans hrun)] at hcompleted
    have hstatus : result.status = .completed := of_decide_eq_true hcompleted
    rw [settle_completed hcompleted] at hnext
    have hholds : next.state.Holds item.id := by
      refine ⟨result, ?_, hcompleted, hid⟩
      rw [hnext]
      dsimp only
      rw [RunState.recorded_nodeResults, Dict.get?_set, if_pos rfl]
    refine ⟨hholds, ⟨next.state, by rw [hnext], hholds⟩, ?_⟩
    rw [hnext]
    dsimp only
    rw [hstatus]
    exact List.mem_append_right _ (List.mem_singleton_self _)

/-- A completed item that the loop comes to is stored. -/
theorem stored_of_polls {before after : List WorkItem} {item : WorkItem} {result : NodeResult}
    {stopped : Bool} (hopen : Open journal (before ++ item :: after))
    (hanswers : Answers pass.threads results (before ++ item :: after))
    (hpolls : ∀ other ∈ before ++ [item], pass.cancelledBefore other = false)
    (hrun : pass.threads.run item = .ok result) (hcompleted : result.isCompleted = true) :
    (reached ((recordSettled pass results journal stopped (before ++ item :: after)).map
      Prod.fst)).Stored item.id := by
  induction before generalizing journal stopped with
  | nil =>
    obtain ⟨next, stopped', heq, -, -, hstored⟩ := @recordSettled_cons _ _ _ _ _ stopped hopen hanswers
      (hpolls item List.mem_cons_self)
    rw [List.nil_append, heq]
    exact (hstored result hrun hcompleted).recordSettled
  | cons first before ih =>
    rw [List.cons_append] at hopen hanswers ⊢
    obtain ⟨next, stopped', heq, hnext, -⟩ := @recordSettled_cons _ _ _ _ _ stopped hopen hanswers
      (hpolls first List.mem_cons_self)
    rw [heq]
    exact ih hnext (fun other hother => hanswers other (List.mem_cons_of_mem _ hother))
      fun other hother => hpolls other (List.mem_cons_of_mem _ hother)

/-- A cancellation seen at an item or before it leaves the item without result. -/
theorem lost_of_poll {before after : List WorkItem} {item : WorkItem} {stopped : Bool}
    (hopen : Open journal (before ++ item :: after))
    (hanswers : Answers pass.threads results (before ++ item :: after))
    (hpoll : ∃ other ∈ before ++ [item], pass.cancelledBefore other = true) :
    ∃ final, recordSettled pass results journal stopped (before ++ item :: after) = .error final ∧
      item.id ∉ final.state.nodeResults.keys := by
  induction before generalizing journal stopped with
  | nil =>
    obtain ⟨other, hother, hcancelled⟩ := hpoll
    obtain rfl := List.mem_singleton.mp hother
    refine ⟨journal.cancel, ?_, hopen.fresh other List.mem_cons_self⟩
    rw [List.nil_append, recordSettled, if_pos hcancelled]
  | cons first before ih =>
    rw [List.cons_append] at hopen hanswers ⊢
    have hmem : item ∈ first :: (before ++ item :: after) :=
      List.mem_cons_of_mem _ (List.mem_append_right _ List.mem_cons_self)
    cases hfirst : pass.cancelledBefore first with
    | true =>
      refine ⟨journal.cancel, ?_, hopen.fresh item hmem⟩
      rw [recordSettled, if_pos hfirst]
    | false =>
      obtain ⟨next, stopped', heq, hnext, -⟩ := @recordSettled_cons _ _ _ _ _ stopped hopen hanswers
        hfirst
      rw [heq]
      refine ih hnext (fun other hother => hanswers other (List.mem_cons_of_mem _ hother)) ?_
      obtain ⟨other, hother, hcancelled⟩ := hpoll
      rcases List.mem_cons.mp hother with rfl | hlater
      · exact absurd (hfirst.symm.trans hcancelled) nofun
      · exact ⟨other, hlater, hcancelled⟩

theorem open_started (hopen : Open journal batch) :
    Open (journal.log (batch.map fun item => (.started, item.id))) batch :=
  ⟨hopen.nodup, hopen.fresh⟩

theorem stored_of_undisturbed (hopen : Open journal batch) (h : Undisturbed pass batch)
    {item : WorkItem} {result : NodeResult} (hitem : item ∈ batch)
    (hrun : pass.threads.run item = .ok result) (hcompleted : result.isCompleted = true) :
    (reached (runBatch pass journal batch)).Stored item.id := by
  obtain ⟨before, after, rfl⟩ := List.append_of_mem hitem
  obtain ⟨hall, hpolls⟩ := h before item after result rfl hrun hcompleted
  obtain ⟨results, hresults⟩ := runReadyItems_isOk.mpr hall
  have hanswers := runReadyItems_ok hopen.nodup hresults
  have hstored := @stored_of_polls _ _ _ _ _ _ _ false (open_started hopen) hanswers hpolls hrun hcompleted
  unfold runBatch
  rw [hresults]
  dsimp only
  split
  · rename_i final heq
    rwa [heq] at hstored
  · rename_i recorded stopped heq
    rw [heq] at hstored
    split
    · exact hstored
    · exact hstored

/-- A disturbed batch ends the run and leaves a completed item without result. -/
theorem lost_of_disturbed (hopen : Open journal batch) (h : ¬ Undisturbed pass batch) :
    ∃ item ∈ batch, ∃ result, pass.threads.run item = .ok result ∧ result.isCompleted = true ∧
      ∃ final, runBatch pass journal batch = .error final ∧
        item.id ∉ final.state.nodeResults.keys := by
  unfold Undisturbed at h
  push Not at h
  obtain ⟨before, item, after, result, rfl, hrun, hcompleted, hdisturbed⟩ := h
  have hmem : item ∈ before ++ item :: after := List.mem_append_right _ List.mem_cons_self
  refine ⟨item, hmem, result, hrun, hcompleted, ?_⟩
  unfold runBatch
  cases hresults : runReadyItems pass.threads (before ++ item :: after) with
  | error error => exact ⟨_, rfl, hopen.fresh item hmem⟩
  | ok results =>
    obtain ⟨other, hother, hcancelled⟩ := hdisturbed (runReadyItems_isOk.mp ⟨results, hresults⟩)
    have hanswers := runReadyItems_ok hopen.nodup hresults
    obtain ⟨final, heq, hlost⟩ := @lost_of_poll pass _ results _ _ _ false (open_started hopen) hanswers
      ⟨other, hother, by simpa using hcancelled⟩
    refine ⟨final, ?_, hlost⟩
    dsimp only
    rw [heq]

/-- The batch of a pass that is prepared. -/
theorem runPass_prepared {prepared : Journal} (hprepared : runner.prepare pass journal = .ok prepared)
    (hbatch : runner.batch pass prepared ≠ []) :
    runner.runPass pass journal = runBatch pass prepared (runner.batch pass prepared) := by
  unfold runPass
  rw [hprepared, ok_bind]
  split
  · exact absurd ‹_› hbatch
  · rename_i item rest heq
    rw [heq]

/-- Completed siblings are recorded when the run returns or raises exactly when every batch
is undisturbed. -/
theorem siblingsKept_iff (runner : GraphRunner) (passes : List BatchPass) (journal : Journal) :
    runner.SiblingsKept passes journal ↔
      ∀ scheduled ∈ runner.batches passes journal, Undisturbed scheduled.1 scheduled.2 := by
  induction passes generalizing journal with
  | nil => exact iff_of_true nofun nofun
  | cons pass rest ih =>
    unfold SiblingsKept batches runPasses
    cases hprepared : runner.prepare pass journal with
    | error final => exact iff_of_true nofun nofun
    | ok prepared =>
      have hopen := open_batch runner pass prepared
      by_cases hbatch : runner.batch pass prepared = []
      · have hpass : runner.runPass pass journal = .error prepared := by
          rw [runPass, hprepared, ok_bind, hbatch]
        rw [hpass]
        dsimp only
        rw [hbatch]
        simp only [List.forall_mem_singleton]
        refine iff_of_true (fun item hitem => absurd hitem List.not_mem_nil) ?_
        intro before item after _ h
        exact absurd h.symm (List.append_ne_nil_of_right_ne_nil before (List.cons_ne_nil item after))
      · rw [runPass_prepared hprepared hbatch]
        cases hrun : runBatch pass prepared (runner.batch pass prepared) with
        | error final =>
          simp only [List.forall_mem_singleton]
          constructor
          · intro hkept
            by_contra h
            obtain ⟨item, hitem, result, hresult, hcompleted, final', hfinal, hlost⟩ :=
              lost_of_disturbed hopen h
            cases hrun.symm.trans hfinal
            obtain ⟨stored, hget, -⟩ :=
              RunState.hasCompleted_iff.mp (hkept item hitem result hresult hcompleted).state
            exact hlost (Dict.mem_keys_iff.mpr ⟨stored, hget⟩)
          · intro h item hitem result hresult hcompleted
            have hstored := stored_of_undisturbed hopen h hitem hresult hcompleted
            rw [hrun] at hstored
            exact hstored.recorded
        | ok next =>
          have hundisturbed : Undisturbed pass (runner.batch pass prepared) := by
            by_contra h
            obtain ⟨_, _, _, _, _, final, hfinal, -⟩ := lost_of_disturbed hopen h
            cases hrun.symm.trans hfinal
          simp only [List.forall_mem_cons]
          refine and_congr (iff_of_true (fun item hitem result hresult hcompleted => ?_) hundisturbed)
            (ih next)
          have hstored := stored_of_undisturbed hopen hundisturbed hitem hresult hcompleted
          rw [hrun] at hstored
          exact hstored.runPasses.recorded

open RunState (plainItem plainRunner emptyWorkspace)

def testItem : WorkItem := plainItem "tests" "test_agent" (by decide)

def pagesItem : WorkItem := plainItem "pages" "page_agent" (by decide)

/-- Two items without dependencies. -/
def pairPlan : ExecutionPlan where
  id := "plan"
  goal := "x"
  workItems := [testItem, pagesItem]
  trace := { requirementId := "req-1", traceId := "tr-1" }
  accepted := by decide

def pairJournal : Journal := { state := .fresh pairPlan }

/-- Every thread completes its item, but that of `failing`. -/
def completing (failing : Option String) : Threads where
  run := fun item =>
    if failing = some item.id then .error (.runtimeError "can't start new thread")
    else .ok { workItemId := item.id, agentId := item.agentId, status := .completed }
  own := by
    intro item result h
    split at h
    · cases h
    · cases h
      exact ⟨rfl, rfl⟩

/-- A cancellation arrives once the first result is recorded. -/
def cancelledPass : BatchPass where
  workspace := fun _ => emptyWorkspace
  threads := completing none
  cancelledBefore := fun item => item.id = "pages"

/-- The thread of the first item raises. -/
def raisingPass : BatchPass where
  workspace := fun _ => emptyWorkspace
  threads := completing (some "tests")

theorem pagesItem_lost {pass : BatchPass}
    (hbatch : plainRunner.batches [pass] pairJournal = [(pass, [testItem, pagesItem])])
    (hrun : (pass.threads.run pagesItem).toOption.any (·.isCompleted) = true)
    (hlost : (plainRunner.runPasses [pass] pairJournal).state.hasCompleted "pages" = false) :
    ¬ plainRunner.SiblingsKept [pass] pairJournal := by
  intro hkept
  cases hresult : pass.threads.run pagesItem with
  | error error => simp [hresult, Except.toOption] at hrun
  | ok result =>
    have hcompleted : result.isCompleted = true := by simpa [hresult, Except.toOption] using hrun
    have hrecorded := hkept (pass, [testItem, pagesItem]) (by simp [hbatch]) pagesItem (by simp)
      result hresult hcompleted
    exact Bool.false_ne_true (hlost.symm.trans hrecorded.state)

/-- A completed page is lost to a cancellation and to the exception of its sibling. -/
theorem siblings_not_kept : ¬ plainRunner.SiblingsKept [cancelledPass] pairJournal ∧
    ¬ plainRunner.SiblingsKept [raisingPass] pairJournal := by
  constructor
  · exact pagesItem_lost rfl rfl (by decide +kernel)
  · exact pagesItem_lost rfl rfl (by decide +kernel)

end GraphRunner

end ProjectOS.Orchestration
