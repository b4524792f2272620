import ProjectOS.Orchestration.State

/-! When a checkpoint is accepted again. A checkpoint carries four views of the
completed items; they agree exactly when no two completed items share an
output key. -/
namespace ProjectOS.Orchestration
open Base

namespace RunState

/-- What every run keeps true of its state. -/
structure WellFormed (state : RunState) : Prop where
  result_id : ∀ e ∈ state.nodeResults.entries, e.2.workItemId = e.1
  result_agent : ∀ e ∈ state.nodeResults.entries,
    (state.plan.workItem e.1).any (·.agentId == e.2.agentId) = true
  forced_known : ∀ id ∈ state.forcedRerunWorkItemIds, id ∈ state.plan.itemIds
  forced_open : ∀ id ∈ state.forcedRerunWorkItemIds, state.hasCompleted id = false
  diagnostics_keys : ∀ id, id ∈ state.recoveryDiagnostics.keys ↔
    id ∈ state.forcedRerunWorkItemIds
  diagnostics_text : ∀ e ∈ state.recoveryDiagnostics.entries, Text.blank e.2 = false

/-- No two completed items write the same output. -/
def DistinctOutputs (state : RunState) : Prop :=
  (state.completedItems.map (·.outputKey)).Nodup

/-- The completed results, without their content. -/
def trustedResults (state : RunState) : Dict String NodeResult :=
  (state.nodeResults.filter fun _ result => result.isCompleted).mapValues
    NodeResult.withoutContent

def withoutOpenResults (state : RunState) : RunState :=
  { state with nodeResults := state.nodeResults.filter fun _ result => result.isCompleted }

/-- The state a checkpoint of `state` restores. -/
def restored (state : RunState) : RunState where
  plan := state.plan
  nodeResults := state.trustedResults
  artifacts := restoreArtifacts state.plan state.trustedResults ∅
  forcedRerunWorkItemIds := dedupe (Text.sorted state.forcedRerunWorkItemIds)
  recoveryDiagnostics := state.recoveryDiagnostics

variable {state : RunState}

theorem mem_completedItems {item : WorkItem} :
    item ∈ state.completedItems ↔
      item ∈ state.plan.workItems ∧ state.hasCompleted item.id = true := by
  simp [completedItems]

theorem hasCompleted_iff {id : String} :
    state.hasCompleted id = true ↔
      ∃ result, state.nodeResults.get? id = some result ∧ result.isCompleted = true := by
  simp [hasCompleted, Option.any_eq_true]

theorem mem_trustedResults_keys {id : String} :
    id ∈ state.trustedResults.keys ↔ state.hasCompleted id = true := by
  rw [trustedResults, Dict.keys_mapValues, Dict.mem_keys_filter, hasCompleted_iff]

theorem readResults_wire {plan : ExecutionPlan} {entries : List (String × NodeResult)}
    {results : Dict String NodeResult} {seen : List String}
    (hid : ∀ e ∈ entries, e.2.workItemId = e.1)
    (hagent : ∀ e ∈ entries, (plan.workItem e.1).any (·.agentId == e.2.agentId) = true)
    (hnodup : (entries.map Prod.fst).Nodup) (hseen : ∀ e ∈ entries, e.1 ∉ seen) :
    readResults plan results seen (entries.map fun e => e.2.asDict.set "content" .null) =
      .ok (entries.foldl (fun d e => if e.2.isCompleted then d.set e.1 e.2.withoutContent else d)
        results) := by
  induction entries generalizing results seen with
  | nil => rfl
  | cons e rest ih =>
    obtain ⟨id, result⟩ := e
    rw [List.map_cons, List.nodup_cons] at hnodup
    have hid' : result.workItemId = id := hid _ List.mem_cons_self
    have hagent' := hagent _ List.mem_cons_self
    have hfresh : id ∉ seen := hseen _ List.mem_cons_self
    have hrest := @ih (if result.isCompleted then results.set id result.withoutContent else results)
      (id :: seen) (fun e he => hid e (List.mem_cons_of_mem _ he))
      (fun e he => hagent e (List.mem_cons_of_mem _ he)) hnodup.2
      (fun e he => by
        rw [List.mem_cons, not_or]
        refine ⟨?_, hseen e (List.mem_cons_of_mem _ he)⟩
        rintro rfl
        exact hnodup.1 (List.mem_map.mpr ⟨e, he, rfl⟩))
    simp only [List.map_cons, List.foldl_cons, readResults, NodeResult.asDict_set_content,
      NodeResult.isDict_asDict, Bool.not_true, raiseWhen, raiseIf_false, ok_bind,
      NodeResult.fromDict_asDict, NodeResult.withoutContent_workItemId,
      NodeResult.withoutContent_agentId, NodeResult.withoutContent_isCompleted, hid', hagent',
      hfresh, decide_false]
    simpa only [NodeResult.asDict_set_content] using hrest

theorem foldl_trusted {entries : List (String × NodeResult)} {results : Dict String NodeResult}
    (hnodup : (results.keys ++ entries.map Prod.fst).Nodup) :
    (entries.foldl (fun d e => if e.2.isCompleted then d.set e.1 e.2.withoutContent else d)
      results).entries =
        results.entries ++ (entries.filter (·.2.isCompleted)).map fun e =>
          (e.1, e.2.withoutContent) := by
  induction entries generalizing results with
  | nil => simp
  | cons e rest ih =>
    by_cases hc : e.2.isCompleted = true
    · have hfresh : e.1 ∉ results.keys := by
        intro hmem
        have := List.disjoint_of_nodup_append hnodup hmem
        simp at this
      rw [List.foldl_cons, if_pos hc, ih]
      · simp [hc, Dict.entries_set_of_not_mem hfresh]
      · rw [Dict.keys_set_of_not_mem hfresh]
        simpa using hnodup
    · rw [List.foldl_cons, if_neg hc, ih]
      · simp [hc]
      · rw [List.map_cons] at hnodup
        exact hnodup.sublist ((List.sublist_cons_self _ _).append_left _)

theorem readResults_asCheckpoint (h : state.WellFormed) :
    readResults state.plan ∅ [] (state.nodeResults.values.map fun result =>
      result.asDict.set "content" .null) = .ok state.trustedResults := by
  have hwire := @readResults_wire state.plan _ ∅ [] h.result_id h.result_agent state.nodeResults.nodup
    (by simp)
  rw [Dict.values, List.map_map]
  refine hwire.trans (congrArg Except.ok (Dict.ext ?_))
  rw [foldl_trusted (by simpa using state.nodeResults.nodup)]
  simp [trustedResults, Dict.filter, Dict.mapValues]

@[simp] theorem get_refPayload (item : WorkItem) :
    (refPayload item).get "work_item_id" = .str item.id := by
  simp [refPayload, Json.get, Json.getD]

theorem itemOfRef_refPayload {plan : ExecutionPlan} {item : WorkItem}
    (h : item ∈ plan.workItems) : itemOfRef plan (refPayload item) = some item := by
  have hid : item.id ≠ "" := Text.ne_empty_of_not_blank item.id_not_blank
  have hfind := plan.workItem_eq_some_iff.mpr ⟨h, rfl⟩
  simp [itemOfRef, Json.truthy, hid, hfind]

theorem checkRef_refPayload {plan : ExecutionPlan} {item : WorkItem} (h : item ∈ plan.workItems) :
    checkRef plan item.outputKey (refPayload item) = .ok () := by
  obtain ⟨digest, hdigest⟩ := item.contractDigest_isSome
  have hget : (refPayload item).get "contract_digest" = .str digest := by
    simp [refPayload, Json.get, Json.getD, hdigest, Json.optStr]
  have hdict : (refPayload item).isDict = true := rfl
  simp [checkRef, itemOfRef_refPayload h, hget, hdict, hdigest, raiseWhen]

theorem mem_artifactRefs {key : String} {rawRef : Json}
    (h : (key, rawRef) ∈ state.artifactRefs.entries) :
    ∃ item ∈ state.completedItems, key = item.outputKey ∧ rawRef = refPayload item := by
  obtain ⟨item, hitem, heq⟩ := List.mem_map.mp (Dict.mem_of_mem_ofList h)
  cases heq
  exact ⟨item, hitem, rfl, rfl⟩

theorem mem_referencedWorkItems {id : String} :
    id ∈ referencedWorkItems state.artifactRefs.entries ↔
      ∃ item ∈ state.completedItems, item.id = id ∧
        (item.outputKey, refPayload item) ∈ state.artifactRefs.entries := by
  simp only [referencedWorkItems, List.mem_map, List.mem_filter, Prod.exists]
  constructor
  · rintro ⟨key, rawRef, ⟨hmem, _⟩, rfl⟩
    obtain ⟨item, hitem, rfl, rfl⟩ := mem_artifactRefs hmem
    exact ⟨item, hitem, by simp, hmem⟩
  · rintro ⟨item, hitem, rfl, hmem⟩
    have hdict : (refPayload item).isDict = true := rfl
    have hne : item.id ≠ "" := Text.ne_empty_of_not_blank item.id_not_blank
    exact ⟨_, _, ⟨hmem, by simp [hdict, Json.truthy, hne]⟩, by simp⟩

/-- Distinct output keys: every completed item keeps its reference. -/
theorem mem_referencedWorkItems_of_distinct (h : state.DistinctOutputs) {id : String} :
    id ∈ referencedWorkItems state.artifactRefs.entries ↔
      ∃ item ∈ state.completedItems, item.id = id := by
  have hentries : state.artifactRefs.entries =
      state.completedItems.map fun item => (item.outputKey, refPayload item) :=
    Dict.entries_ofList _ (by simpa [DistinctOutputs, Function.comp_def] using h)
  rw [mem_referencedWorkItems]
  constructor
  · rintro ⟨item, hitem, rfl, _⟩
    exact ⟨item, hitem, rfl⟩
  · rintro ⟨item, hitem, rfl⟩
    refine ⟨item, hitem, rfl, ?_⟩
    rw [hentries]
    exact List.mem_map_of_mem hitem

/-- A reference for every completed item needs distinct output keys. -/
theorem distinct_of_referenced
    (h : ∀ item ∈ state.completedItems, item.id ∈ referencedWorkItems state.artifactRefs.entries) :
    state.DistinctOutputs := by
  have hkept : ∀ item ∈ state.completedItems,
      (item.outputKey, refPayload item) ∈ state.artifactRefs.entries := by
    intro item hitem
    obtain ⟨other, hother, hid, hmem⟩ := mem_referencedWorkItems.mp (h item hitem)
    rwa [state.plan.eq_of_id_eq (mem_completedItems.mp hother).1 (mem_completedItems.mp hitem).1 hid]
      at hmem
  have hnodup : state.completedItems.Nodup :=
    (List.Nodup.of_map _ state.plan.itemIds_nodup).filter _
  apply hnodup.map_on
  intro a ha b hb hkey
  have hget := Dict.get?_eq_some_iff.mpr (hkept a ha)
  rw [hkey, Dict.get?_eq_some_iff.mpr (hkept b hb)] at hget
  have hid : b.id = a.id := by
    simpa using congrArg (fun r => (r.get "work_item_id").pyStr) (Option.some.inj hget)
  exact (state.plan.eq_of_id_eq (mem_completedItems.mp hb).1 (mem_completedItems.mp ha).1 hid).symm

theorem mem_trustedResults_keys_iff_completedItem (h : state.WellFormed) {id : String} :
    id ∈ state.trustedResults.keys ↔ ∃ item ∈ state.completedItems, item.id = id := by
  rw [mem_trustedResults_keys]
  constructor
  · intro hcompleted
    obtain ⟨result, hget, _⟩ := hasCompleted_iff.mp hcompleted
    have hagent := h.result_agent _ (Dict.get?_eq_some_iff.mp hget)
    obtain ⟨item, hitem, _⟩ := (Option.any_eq_true _ _).mp hagent
    obtain ⟨hmem, rfl⟩ := state.plan.workItem_eq_some_iff.mp hitem
    exact ⟨item, mem_completedItems.mpr ⟨hmem, hcompleted⟩, rfl⟩
  · rintro ⟨item, hitem, rfl⟩
    exact (mem_completedItems.mp hitem).2

theorem sameMembers_iff {xs ys : List String} :
    sameMembers xs ys = true ↔ ∀ x, x ∈ xs ↔ x ∈ ys := by
  simp only [sameMembers, Bool.and_eq_true, List.all_eq_true, decide_eq_true_eq]
  constructor
  · exact fun h x => ⟨h.1 x, h.2 x⟩
  · exact fun h => ⟨fun x => (h x).1, fun x => (h x).2⟩

theorem checkArtifactRefs_asCheckpoint (h : state.WellFormed) :
    checkArtifactRefs state.plan state.trustedResults state.asCheckpoint = .ok () ↔
      state.DistinctOutputs := by
  have hrefs : state.asCheckpoint.getD "artifact_refs" (.obj []) =
      .obj state.artifactRefs.entries := by
    simp [asCheckpoint, Json.getD]
  have hpresent : (state.asCheckpoint.get? "artifact_refs").isSome = true := by
    simp [asCheckpoint]
  have hchecked : forEach (fun e => checkRef state.plan e.1 e.2) state.artifactRefs.entries =
      .ok () := by
    rw [forEach_eq_ok]
    rintro ⟨key, rawRef⟩ hmem
    obtain ⟨item, hitem, rfl, rfl⟩ := mem_artifactRefs hmem
    exact checkRef_refPayload (mem_completedItems.mp hitem).1
  simp only [checkArtifactRefs, hrefs, hpresent, hchecked, ok_bind, raiseWhen_eq_ok, Bool.true_and,
    Bool.not_eq_false', sameMembers_iff, mem_trustedResults_keys_iff_completedItem h]
  constructor
  · exact fun hsame => distinct_of_referenced fun item hitem => (hsame _).mpr ⟨item, hitem, rfl⟩
  · exact fun hdistinct id => mem_referencedWorkItems_of_distinct hdistinct

theorem textItems_strs {texts : List String} (h : ∀ t ∈ texts, Text.blank t = false) :
    textItems (texts.map .str) = some texts := by
  induction texts with
  | nil => rfl
  | cons t rest ih =>
    simp [textItems, h t List.mem_cons_self, ih fun t ht => h t (List.mem_cons_of_mem _ ht)]

theorem textFields_strs {allowed : List String} {fields : List (String × String)}
    (h : ∀ e ∈ fields, e.1 ∈ allowed ∧ Text.blank e.2 = false) :
    textFields allowed (fields.map fun e => (e.1, .str e.2)) = some fields := by
  induction fields with
  | nil => rfl
  | cons e rest ih =>
    obtain ⟨hallowed, htext⟩ := h e List.mem_cons_self
    simp [textFields, hallowed, htext, ih fun e he => h e (List.mem_cons_of_mem _ he)]

theorem itemId_not_blank {plan : ExecutionPlan} {id : String} (h : id ∈ plan.itemIds) :
    Text.blank id = false := by
  obtain ⟨item, _, rfl⟩ := List.mem_map.mp h
  exact item.id_not_blank

theorem readForced_asCheckpoint (h : state.WellFormed) :
    readForced state.plan state.trustedResults state.asCheckpoint =
      .ok (dedupe (Text.sorted state.forcedRerunWorkItemIds)) := by
  have hfield : state.asCheckpoint.getD "forced_rerun_work_item_ids" (.arr []) =
      .strs (Text.sorted state.forcedRerunWorkItemIds) := by
    simp [asCheckpoint, Json.getD]
  have hknown : (Text.sorted state.forcedRerunWorkItemIds).any (· ∉ state.plan.itemIds) = false := by
    simpa [Text.mem_sorted] using h.forced_known
  have hopen : (Text.sorted state.forcedRerunWorkItemIds).any (· ∈ state.trustedResults.keys) =
      false := by
    simpa [Text.mem_sorted, mem_trustedResults_keys] using h.forced_open
  have htexts : textItems ((Text.sorted state.forcedRerunWorkItemIds).map .str) =
      some (Text.sorted state.forcedRerunWorkItemIds) :=
    textItems_strs fun id hid => itemId_not_blank (h.forced_known id (Text.mem_sorted.mp hid))
  simp only [readForced, hfield, Json.strs, htexts, hknown, hopen, raiseWhen, raiseIf_false, ok_bind]

theorem readDiagnostics_asCheckpoint (h : state.WellFormed) :
    readDiagnostics (dedupe (Text.sorted state.forcedRerunWorkItemIds)) state.asCheckpoint =
      .ok state.recoveryDiagnostics := by
  have hfield : state.asCheckpoint.getD "recovery_diagnostics" (.obj []) =
      .obj (state.recoveryDiagnostics.entries.map fun e => (e.1, .str e.2)) := by
    simp [asCheckpoint, Json.getD]
  have hmem : ∀ id, id ∈ dedupe (Text.sorted state.forcedRerunWorkItemIds) ↔
      id ∈ state.recoveryDiagnostics.keys := by
    simp [Text.mem_sorted, h.diagnostics_keys]
  have hfields := @textFields_strs (dedupe (Text.sorted state.forcedRerunWorkItemIds))
    state.recoveryDiagnostics.entries
    fun e he => ⟨(hmem e.1).mpr (Dict.mem_keys_of_mem he), h.diagnostics_text e he⟩
  have hsame : sameMembers (state.recoveryDiagnostics.entries.map Prod.fst)
      (dedupe (Text.sorted state.forcedRerunWorkItemIds)) = true :=
    sameMembers_iff.mpr fun id => (hmem id).symm
  have hback : Dict.ofList state.recoveryDiagnostics.entries = state.recoveryDiagnostics :=
    Dict.ext (Dict.entries_ofList _ state.recoveryDiagnostics.nodup)
  simp only [readDiagnostics, hfield, hfields, hsame, hback, Bool.not_true, raiseWhen, raiseIf_false,
    ok_bind]

/-- A checkpoint is accepted exactly when the completed items have distinct
output keys, and it then restores the completed results. -/
theorem fromCheckpoint_asCheckpoint (h : state.WellFormed) {loaded : RunState} :
    fromCheckpoint state.plan state.asCheckpoint = .ok loaded ↔
      state.DistinctOutputs ∧ loaded = state.restored := by
  have hversion : (state.asCheckpoint.get "schema_version").isInt 1 = true := by
    simp [asCheckpoint, Json.get, Json.getD, Json.isInt]
  have hplan : (state.asCheckpoint.get "plan_id").isStr state.plan.id = true := by
    simp [asCheckpoint, Json.get, Json.getD, Json.isStr]
  have htrace : (state.asCheckpoint.get "trace_id").isStr state.plan.trace.traceId = true := by
    simp [asCheckpoint, Json.get, Json.getD, Json.isStr]
  have hresults : state.asCheckpoint.getD "node_results" (.arr []) =
      .arr (state.nodeResults.values.map fun result => result.asDict.set "content" .null) := by
    simp [asCheckpoint, Json.getD]
  have hartifacts : readArtifacts state.asCheckpoint = .ok ∅ := by
    simp [asCheckpoint, readArtifacts, Json.getD, Dict.ofList]
  simp only [fromCheckpoint, hversion, hplan, htrace, hresults, readResults_asCheckpoint h,
    hartifacts, readForced_asCheckpoint h, readDiagnostics_asCheckpoint h, Bool.not_true, raiseWhen,
    raiseIf_false, ok_bind, check_bind_eq_ok, checkArtifactRefs_asCheckpoint h, Dict.keys_empty,
    List.any_nil]
  exact and_congr_right fun _ => ⟨fun heq => (Except.ok.inj heq).symm, fun heq => congrArg _ heq.symm⟩

theorem get?_trustedResults (id : String) :
    state.trustedResults.get? id =
      ((state.nodeResults.get? id).filter NodeResult.isCompleted).map NodeResult.withoutContent := by
  rw [trustedResults, Dict.get?_mapValues, Dict.get?_filter]

/-- The restored state is ready for the same items as the state without its
open results. -/
theorem readyItems_restored : state.restored.readyItems = state.withoutOpenResults.readyItems := by
  have hget : ∀ id, state.restored.nodeResults.get? id =
      (state.withoutOpenResults.nodeResults.get? id).map NodeResult.withoutContent := by
    intro id
    rw [withoutOpenResults, Dict.get?_filter]
    exact get?_trustedResults id
  have hcompleted : state.restored.hasCompleted = state.withoutOpenResults.hasCompleted := by
    funext id
    unfold hasCompleted
    rw [hget]
    cases state.withoutOpenResults.nodeResults.get? id <;> simp
  unfold readyItems
  apply List.filter_congr
  intro item _
  rw [hget, hcompleted]
  simp

end RunState
end ProjectOS.Orchestration
