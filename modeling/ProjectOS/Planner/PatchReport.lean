import Mathlib.Logic.Relation
import ProjectOS.Planner.Patch

/-! What a patch reports about itself, compared with the plan before it and the
plan after it. Added items are recognised by the prefix of their ids. -/
namespace ProjectOS.Planner
open Base Orchestration Agent

namespace PlanPatch

def modifiedIds (patch : PlanPatch) : List String := patch.modified.filterMap (·.workItemId)

end PlanPatch

def generatedId (agents : AgentRegistry) (index : Nat) (op : PatchOperation) : String :=
  patchPrefix ++ twoDigits index ++ "-" ++
    (((agents.definition (op.agentId.getD "")).map (·.outputKey)).getD "")

/-- The ids of the additions, numbered from one. -/
def generatedIds (agents : AgentRegistry) : Nat → List PatchOperation → List String
  | _, [] => []
  | index, op :: rest => generatedId agents index op :: generatedIds agents (index + 1) rest

/-- What the patch changes without removing it. -/
def changedIds (agents : AgentRegistry) (patch : PlanPatch) : List String :=
  patch.modifiedIds ++ generatedIds agents 1 patch.added

theorem startswith_generatedId (agents : AgentRegistry) (index : Nat) (op : PatchOperation) :
    Text.startswith (generatedId agents index op) patchPrefix = true := by
  unfold generatedId
  rw [String.append_assoc, String.append_assoc]
  exact Text.startswith_append _ _

theorem startswith_of_mem_generatedIds {agents : AgentRegistry} {index : Nat}
    {ops : List PatchOperation} {id : String} (h : id ∈ generatedIds agents index ops) :
    Text.startswith id patchPrefix = true := by
  induction ops generalizing index with
  | nil => cases h
  | cons op rest ih =>
    rcases List.mem_cons.mp h with rfl | hrest
    · exact startswith_generatedId agents index op
    · exact ih hrest

theorem addedItem_ok {agents : AgentRegistry} {existing : List String} {index : Nat}
    {op : PatchOperation} {item : WorkItem}
    (h : addedItem agents existing index op = .ok item) :
    item.id = generatedId agents index op ∧ item.id ∉ existing := by
  unfold addedItem at h
  rw [raiseWhen_bind_eq_ok] at h
  obtain ⟨-, h⟩ := h
  split at h
  · cases h
  · rename_i definition hdefinition
    rw [raiseWhen_bind_eq_ok, raiseWhen_bind_eq_ok, bind_eq_ok, decide_eq_false_iff_not] at h
    obtain ⟨-, hfresh, _, -, hcreate⟩ := h
    obtain ⟨_, _, hfields⟩ := WorkItem.create_fields hcreate
    have hid : item.id = patchPrefix ++ twoDigits index ++ "-" ++ definition.outputKey :=
      congrArg WorkItemFields.id hfields
    refine ⟨?_, hid ▸ hfresh⟩
    rw [hid, generatedId, hdefinition]
    rfl

theorem addedItems_ids {agents : AgentRegistry} {existing : List String} {index : Nat}
    {ops : List PatchOperation} {items : List WorkItem}
    (h : addedItems agents existing index ops = .ok items) :
    items.map (·.id) = generatedIds agents index ops := by
  induction ops generalizing existing index items with
  | nil => cases h; rfl
  | cons op rest ih =>
    simp only [addedItems, bind_eq_ok] at h
    obtain ⟨item, hitem, others, hothers, h⟩ := h
    cases h
    rw [List.map_cons, ih hothers, (addedItem_ok hitem).1]
    rfl

/-- A kept item has its id and its dependencies, and is the same unless modified. -/
theorem remainingItem_ok {patch : PlanPatch} {item item' : WorkItem}
    (h : remainingItem patch item = .ok item') :
    item'.id = item.id ∧ item'.dependencyIds = item.dependencyIds ∧
      (modificationOf patch item = none → item' = item) := by
  unfold remainingItem at h
  cases hop : modificationOf patch item with
  | none =>
    rw [hop] at h
    cases h
    exact ⟨rfl, rfl, fun _ => rfl⟩
  | some op =>
    rw [hop] at h
    obtain ⟨_, _, hfields⟩ := WorkItem.create_fields h
    rw [hfields]
    exact ⟨rfl, rfl, nofun⟩

theorem modificationOf_isSome_iff {patch : PlanPatch} {item : WorkItem} :
    (modificationOf patch item).isSome = true ↔ item.id ∈ patch.modifiedIds := by
  simp [modificationOf, PlanPatch.modifiedIds, List.find?_isSome]

/-- The digests of accepted items are never in the way of a patch. -/
theorem checkBaseline_eq_ok {plan : ExecutionPlan} {patch : PlanPatch} :
    checkBaseline plan patch = .ok () ↔
      patch.basePlanId = plan.id ∧ ∀ item ∈ plan.workItems, item.executionMode = .exclusive := by
  have hdigest (item : WorkItem) : (item.contractDigest != some (ownDigest item)) = false := by
    rw [ownDigest, ← item.contractDigest_eq.1]
    exact bne_self_eq_false _
  simp [checkBaseline, check_bind_eq_ok, forEach_eq_ok, hdigest]

/-- The steps of a patch that is applied. -/
theorem applyPatch_ok {plan : ExecutionPlan} {patch : PlanPatch} {agents : AgentRegistry}
    {completed : List String} {allowCompletedRevision : Bool} {budget : ChangeBudget}
    {applied : AppliedPlanPatch}
    (h : applyPatch plan patch agents completed allowCompletedRevision budget = .ok applied) :
    checkOperations plan patch completed allowCompletedRevision = .ok () ∧
      ∃ remaining added, remainingItems plan patch = .ok remaining ∧
        addedItems agents (remaining.map (·.id)) 1 patch.added = .ok added ∧
        applied.plan.workItems = remaining ++ added ∧
        applied.invalidatedWorkItemIds =
          Text.sorted (dedupe (invalidated patch remaining added)) ∧
        applied.addedWorkItemIds =
          ((remaining ++ added).map (·.id)).filter (Text.startswith · patchPrefix) ∧
        applied.removedWorkItemIds = Text.sorted (dedupe patch.removeIds) := by
  simp only [applyPatch, check_bind_eq_ok] at h
  obtain ⟨-, -, -, hoperations, h⟩ := h
  simp only [bind_eq_ok] at h
  obtain ⟨remaining, hremaining, added, hadded, patched, hpatched, h⟩ := h
  cases h
  exact ⟨hoperations, remaining, added, hremaining, hadded,
    congrArg PlanFields.workItems (ExecutionPlan.create_eq_ok.mp hpatched), rfl, rfl, rfl⟩

/-- The patched plan field by field. The process and the scope are not passed on. -/
theorem applyPatch_fields {plan : ExecutionPlan} {patch : PlanPatch} {agents : AgentRegistry}
    {completed : List String} {allowCompletedRevision : Bool} {budget : ChangeBudget}
    {applied : AppliedPlanPatch}
    (h : applyPatch plan patch agents completed allowCompletedRevision budget = .ok applied) :
    ∃ id items, applied.plan.toPlanFields = {
      id := id, goal := plan.goal, workItems := items, templateId := plan.templateId
      trace := plan.trace } := by
  simp only [applyPatch, check_bind_eq_ok] at h
  obtain ⟨-, -, -, -, h⟩ := h
  simp only [bind_eq_ok] at h
  obtain ⟨_, -, _, -, patched, hpatched, h⟩ := h
  cases h
  exact ⟨_, _, ExecutionPlan.create_eq_ok.mp hpatched⟩

/-- The kept items, one for one. -/
theorem remainingItems_forall₂ {plan : ExecutionPlan} {patch : PlanPatch}
    {remaining : List WorkItem} (h : remainingItems plan patch = .ok remaining) :
    List.Forall₂ (fun item item' => remainingItem patch item = .ok item')
      (plan.workItems.filter (·.id ∉ patch.removeIds)) remaining := collect_eq_ok.mp h

theorem mem_remaining_ids {plan : ExecutionPlan} {patch : PlanPatch} {remaining : List WorkItem}
    (h : remainingItems plan patch = .ok remaining) {id : String} :
    id ∈ remaining.map (·.id) ↔ id ∈ plan.itemIds ∧ id ∉ patch.removeIds := by
  have hids : remaining.map (·.id) =
      (plan.workItems.filter (·.id ∉ patch.removeIds)).map (·.id) :=
    map_of_collect h fun item item' hitem => (remainingItem_ok hitem).1
  rw [hids]
  simp only [List.mem_map, List.mem_filter, decide_eq_true_eq, PlanFields.itemIds]
  constructor
  · rintro ⟨item, ⟨hitem, hkept⟩, rfl⟩
    exact ⟨⟨item, hitem, rfl⟩, hkept⟩
  · rintro ⟨⟨item, hitem, rfl⟩, hkept⟩
    exact ⟨item, ⟨hitem, hkept⟩, rfl⟩

theorem filter_ne_empty_eq_some {text : Option String} {id : String} :
    text.filter (· ≠ "") = some id ↔ text = some id ∧ id ≠ "" := by
  simp [Option.filter_eq_some_iff]

/-- An id is named by one operation. -/
theorem operation_unique {patch : PlanPatch} (h : hasDuplicates patch.referencedIds = false)
    {op op' : PatchOperation} (hop : op ∈ patch.operations) (hop' : op' ∈ patch.operations)
    {id : String} (hid : op.workItemId = some id) (hid' : op'.workItemId = some id)
    (hne : id ≠ "") : op = op' := by
  rw [hasDuplicates_eq_false, PlanPatch.referencedIds, List.filterMap_eq_flatMap_toList] at h
  exact eq_of_nodup_flatMap h hop hop'
    (Option.mem_toList.mpr (filter_ne_empty_eq_some.mpr ⟨hid, hne⟩))
    (Option.mem_toList.mpr (filter_ne_empty_eq_some.mpr ⟨hid', hne⟩))

theorem mem_removeIds {patch : PlanPatch} {id : String} :
    id ∈ patch.removeIds ↔ ∃ op ∈ patch.removed, op.workItemId = some id ∧ id ≠ "" := by
  simp only [PlanPatch.removeIds, List.mem_filterMap, filter_ne_empty_eq_some]

theorem mem_ofKind {patch : PlanPatch} {kind : OperationKind} {op : PatchOperation} :
    op ∈ patch.ofKind kind ↔ op ∈ patch.operations ∧ op.operation = kind := by
  simp [PlanPatch.ofKind]

/-- Nothing that is kept needs a removed item. -/
theorem not_removed_of_dependents {plan : ExecutionPlan} {patch : PlanPatch}
    (h : (dependents plan patch).entries.isEmpty = true) {item : WorkItem}
    (hitem : item ∈ plan.workItems) (hkept : item.id ∉ patch.removeIds) {d : String}
    (hd : d ∈ item.dependencyIds) : d ∉ patch.removeIds := by
  intro hremoved
  have hkey : d ∈ (dependents plan patch).keys := by
    unfold dependents
    rw [Dict.mem_keys_ofList, List.mem_map]
    refine ⟨(d, item.id), List.mem_flatMap.mpr ⟨item, hitem, ?_⟩, rfl⟩
    exact List.mem_map.mpr ⟨d, List.mem_filter.mpr ⟨hd, by simp [hremoved, hkept]⟩, rfl⟩
  rw [Dict.keys, List.isEmpty_iff.mp h] at hkey
  cases hkey

/-- What the checks of the operations leave: only items of the plan are modified or
removed, and none is both. -/
theorem checkOperations_ok {plan : ExecutionPlan} {patch : PlanPatch} {completed : List String}
    {allowCompletedRevision : Bool}
    (h : checkOperations plan patch completed allowCompletedRevision = .ok ()) :
    (∀ id ∈ patch.modifiedIds, id ∈ plan.itemIds ∧ id ∉ patch.removeIds) ∧
      (∀ id ∈ patch.removeIds, id ∈ plan.itemIds) ∧
      (dependents plan patch).entries.isEmpty = true := by
  simp only [checkOperations, check_bind_eq_ok, raiseWhen_eq_ok, forEach_eq_ok,
    Bool.not_eq_false'] at h
  obtain ⟨hunique, htargets, -, -, hdependents⟩ := h
  have hknown {op : PatchOperation} (hop : op ∈ patch.modified ++ patch.removed) {id : String}
      (hid : op.workItemId = some id) : id ∈ plan.itemIds := by
    have htarget := htargets op hop
    simp only [checkTarget, check_bind_eq_ok, raiseWhen_eq_ok, hid] at htarget
    simpa using htarget.1
  refine ⟨?_, ?_, hdependents⟩
  · intro id hid
    obtain ⟨op, hop, hid⟩ := List.mem_filterMap.mp hid
    refine ⟨hknown (List.mem_append_left _ hop) hid, fun hremoved => ?_⟩
    obtain ⟨op', hop', hid', hne⟩ := mem_removeIds.mp hremoved
    have hmodify := mem_ofKind.mp hop
    have hremove := mem_ofKind.mp hop'
    have hsame := operation_unique hunique hmodify.1 hremove.1 hid hid' hne
    rw [hsame, hremove.2] at hmodify
    cases hmodify.2
  · intro id hid
    obtain ⟨op, hop, hid, -⟩ := mem_removeIds.mp hid
    exact hknown (List.mem_append_right _ hop) hid

/-- One item waits for another in the plan. -/
def DependsOn (plan : ExecutionPlan) (id d : String) : Prop :=
  ∃ item ∈ plan.workItems, item.id = id ∧ d ∈ item.dependencyIds

/-- What lies at or below a change of the patched plan. -/
abbrev Affected (plan : ExecutionPlan) (changed : List String) : String → Prop :=
  Downstream.Below (fun item : WorkItem => item.id) (fun item => item.dependencyIds)
    plan.workItems changed

/-- A report that says what the patch did. -/
structure Reports (plan : ExecutionPlan) (patch : PlanPatch) (agents : AgentRegistry)
    (applied : AppliedPlanPatch) : Prop where
  invalidated : ∀ id, id ∈ applied.invalidatedWorkItemIds ↔
    id ∈ patch.removeIds ∨ Affected applied.plan (changedIds agents patch) id
  unchanged : ∀ item ∈ applied.plan.workItems, item.id ∉ applied.invalidatedWorkItemIds →
    item ∈ plan.workItems ∧ ∀ d, Relation.TransGen (DependsOn applied.plan) item.id d →
      d ∉ applied.invalidatedWorkItemIds
  added : ∀ id, id ∈ applied.addedWorkItemIds ↔ id ∈ applied.plan.itemIds ∧ id ∉ plan.itemIds
  removed : ∀ id, id ∈ applied.removedWorkItemIds ↔ id ∈ plan.itemIds ∧ id ∉ applied.plan.itemIds

/-- No kept item looks like an addition, and no removed id is given again. -/
structure Reportable (plan : ExecutionPlan) (patch : PlanPatch) (agents : AgentRegistry) :
    Prop where
  kept : ∀ item ∈ plan.workItems, item.id ∉ patch.removeIds →
    Text.startswith item.id patchPrefix = false
  fresh : ∀ id ∈ generatedIds agents 1 patch.added, id ∉ patch.removeIds

section Applied
variable {plan : ExecutionPlan} {patch : PlanPatch} {agents : AgentRegistry}
  {completed : List String} {allowCompletedRevision : Bool} {budget : ChangeBudget}
  {applied : AppliedPlanPatch}

/-- The ids of the patched plan: what is kept and what is added. -/
theorem mem_patched_ids
    (h : applyPatch plan patch agents completed allowCompletedRevision budget = .ok applied)
    {id : String} :
    id ∈ applied.plan.itemIds ↔
      (id ∈ plan.itemIds ∧ id ∉ patch.removeIds) ∨ id ∈ generatedIds agents 1 patch.added := by
  obtain ⟨-, remaining, added, hremaining, hadded, hitems, -⟩ := applyPatch_ok h
  rw [← mem_remaining_ids hremaining, ← addedItems_ids hadded, PlanFields.itemIds, hitems,
    List.map_append, List.mem_append]

/-- A dependency on a removed id is one on an addition that took the id over. -/
theorem generated_of_removed_dependency
    (h : applyPatch plan patch agents completed allowCompletedRevision budget = .ok applied)
    {item : WorkItem} (hitem : item ∈ applied.plan.workItems) {d : String}
    (hd : d ∈ item.dependencyIds) (hremoved : d ∈ patch.removeIds) :
    d ∈ generatedIds agents 1 patch.added := by
  rcases (mem_patched_ids h).mp (applied.plan.dependency_known hitem hd) with hkept | hadded
  · exact absurd hremoved hkept.2
  · exact hadded

theorem mem_seeds_iff
    (h : applyPatch plan patch agents completed allowCompletedRevision budget = .ok applied)
    {remaining added : List WorkItem} (hremaining : remainingItems plan patch = .ok remaining)
    (hadded : addedItems agents (remaining.map (·.id)) 1 patch.added = .ok added) (id : String) :
    id ∈ ((remaining.filter fun item => (modificationOf patch item).isSome).map (·.id)) ++
        added.map (·.id) ↔ id ∈ changedIds agents patch := by
  have hmodified := (checkOperations_ok (applyPatch_ok h).1).1
  rw [changedIds, List.mem_append, List.mem_append, addedItems_ids hadded]
  refine or_congr_left ?_
  simp only [List.mem_map, List.mem_filter, modificationOf_isSome_iff]
  constructor
  · rintro ⟨item, ⟨-, hid⟩, rfl⟩
    exact hid
  · intro hid
    obtain ⟨item, hitem, rfl⟩ := List.mem_map.mp ((mem_remaining_ids hremaining).mpr (hmodified id hid))
    exact ⟨item, ⟨hitem, hid⟩, rfl⟩

theorem mem_invalidated_iff
    (h : applyPatch plan patch agents completed allowCompletedRevision budget = .ok applied)
    {id : String} :
    id ∈ applied.invalidatedWorkItemIds ↔
      id ∈ patch.removeIds ∨ Affected applied.plan (changedIds agents patch) id := by
  obtain ⟨-, remaining, added, hremaining, hadded, hitems, hinvalidated, -⟩ := applyPatch_ok h
  have hseeds := mem_seeds_iff h hremaining hadded
  rw [hinvalidated, Text.mem_sorted, mem_dedupe, invalidated, List.append_assoc,
    Downstream.mem_saturate_iff (Nat.le_refl _), ← hitems, Downstream.below_append_iff]
  · refine or_congr_right ⟨fun hbelow => ?_, fun hbelow => ?_⟩
    · exact hbelow.mono fun k hk => (hseeds k).mp hk
    · exact hbelow.mono fun k hk => (hseeds k).mpr hk
  · intro item hitem d hd hremoved
    refine .seed ((hseeds d).mpr ?_)
    exact List.mem_append_right _ (generated_of_removed_dependency h hitem hd hremoved)

/-- What a rerun item is needed by is rerun. -/
theorem invalidated_of_dependsOn
    (h : applyPatch plan patch agents completed allowCompletedRevision budget = .ok applied)
    {id d : String} (hdepends : DependsOn applied.plan id d)
    (hd : d ∈ applied.invalidatedWorkItemIds) : id ∈ applied.invalidatedWorkItemIds := by
  obtain ⟨item, hitem, rfl, hdep⟩ := hdepends
  rw [mem_invalidated_iff h] at hd ⊢
  refine .inr (.dependent hitem hdep ?_)
  rcases hd with hremoved | hbelow
  · exact .seed (List.mem_append_right _ (generated_of_removed_dependency h hitem hdep hremoved))
  · exact hbelow

theorem not_invalidated_of_transGen
    (h : applyPatch plan patch agents completed allowCompletedRevision budget = .ok applied)
    {id d : String} (hid : id ∉ applied.invalidatedWorkItemIds)
    (hreach : Relation.TransGen (DependsOn applied.plan) id d) :
    d ∉ applied.invalidatedWorkItemIds := by
  induction hreach with
  | single hstep => exact fun hd => hid (invalidated_of_dependsOn h hstep hd)
  | tail _ hstep ih => exact fun hd => ih (invalidated_of_dependsOn h hstep hd)

/-- An item that is not rerun is an item of the plan before the patch. -/
theorem unchanged_of_not_invalidated
    (h : applyPatch plan patch agents completed allowCompletedRevision budget = .ok applied)
    {item : WorkItem} (hitem : item ∈ applied.plan.workItems)
    (hid : item.id ∉ applied.invalidatedWorkItemIds) : item ∈ plan.workItems := by
  obtain ⟨-, remaining, added, hremaining, hadded, hitems, -⟩ := applyPatch_ok h
  rw [mem_invalidated_iff h, not_or] at hid
  have hchanged : item.id ∉ changedIds agents patch := fun hmem => hid.2 (.seed hmem)
  rw [hitems, List.mem_append] at hitem
  rcases hitem with hkept | hnew
  · obtain ⟨before, hbefore, hstep⟩ := mem_of_collect hremaining hkept
    obtain ⟨hsame, -, hidentical⟩ := remainingItem_ok hstep
    have hunmodified : modificationOf patch before = none := by
      rw [← Option.not_isSome_iff_eq_none, modificationOf_isSome_iff, ← hsame]
      exact fun hmem => hchanged (List.mem_append_left _ hmem)
    rw [hidentical hunmodified]
    exact (List.mem_filter.mp hbefore).1
  · have hgenerated : item.id ∈ generatedIds agents 1 patch.added := by
      rw [← addedItems_ids hadded]
      exact List.mem_map_of_mem hnew
    exact absurd (List.mem_append_right _ hgenerated) hchanged

theorem mem_addedWorkItemIds
    (h : applyPatch plan patch agents completed allowCompletedRevision budget = .ok applied)
    {id : String} :
    id ∈ applied.addedWorkItemIds ↔
      id ∈ applied.plan.itemIds ∧ Text.startswith id patchPrefix = true := by
  obtain ⟨-, remaining, added, -, -, hitems, -, hadded, -⟩ := applyPatch_ok h
  rw [hadded, List.mem_filter, PlanFields.itemIds, hitems]

theorem mem_removedWorkItemIds
    (h : applyPatch plan patch agents completed allowCompletedRevision budget = .ok applied)
    {id : String} : id ∈ applied.removedWorkItemIds ↔ id ∈ patch.removeIds := by
  obtain ⟨-, _, _, -, -, -, -, -, hremoved⟩ := applyPatch_ok h
  rw [hremoved, Text.mem_sorted, mem_dedupe]

theorem Reportable.kept_prefix (hreportable : Reportable plan patch agents) {id : String}
    (hid : id ∈ plan.itemIds) (hkept : id ∉ patch.removeIds) :
    Text.startswith id patchPrefix = false := by
  obtain ⟨item, hitem, rfl⟩ := List.mem_map.mp hid
  exact hreportable.kept item hitem hkept

/-- Additions get ids the plan did not have. -/
theorem Reportable.not_mem_of_generated (hreportable : Reportable plan patch agents) {id : String}
    (hid : id ∈ generatedIds agents 1 patch.added) : id ∉ plan.itemIds := by
  intro hold
  have hpre := hreportable.kept_prefix hold (hreportable.fresh id hid)
  rw [startswith_of_mem_generatedIds hid] at hpre
  cases hpre

/-- The report is right exactly when ids of additions are new. -/
theorem applyPatch_reports_iff
    (h : applyPatch plan patch agents completed allowCompletedRevision budget = .ok applied) :
    Reports plan patch agents applied ↔ Reportable plan patch agents := by
  have hremovedKnown := (checkOperations_ok (applyPatch_ok h).1).2.1
  constructor
  · intro hreports
    constructor
    · intro item hitem hkept
      have hold : item.id ∈ plan.itemIds := List.mem_map_of_mem hitem
      have hnew := (mem_patched_ids h).mpr (.inl ⟨hold, hkept⟩)
      by_contra hpre
      have hadded := (mem_addedWorkItemIds h).mpr ⟨hnew, by simpa using hpre⟩
      exact ((hreports.added _).mp hadded).2 hold
    · intro id hid hremoved
      have hnew := (mem_patched_ids h).mpr (.inr hid)
      have hadded := (mem_addedWorkItemIds h).mpr ⟨hnew, startswith_of_mem_generatedIds hid⟩
      exact ((hreports.added id).mp hadded).2 (hremovedKnown id hremoved)
  · intro hreportable
    refine ⟨fun id => mem_invalidated_iff h, fun item hitem hid => ?_, fun id => ?_, fun id => ?_⟩
    · exact ⟨unchanged_of_not_invalidated h hitem hid, fun d => not_invalidated_of_transGen h hid⟩
    · rw [mem_addedWorkItemIds h, mem_patched_ids h]
      constructor
      · rintro ⟨⟨hold, hkept⟩ | hgenerated, hpre⟩
        · rw [hreportable.kept_prefix hold hkept] at hpre
          cases hpre
        · exact ⟨.inr hgenerated, hreportable.not_mem_of_generated hgenerated⟩
      · rintro ⟨⟨hold, -⟩ | hgenerated, hnew⟩
        · exact absurd hold hnew
        · exact ⟨.inr hgenerated, startswith_of_mem_generatedIds hgenerated⟩
    · rw [mem_removedWorkItemIds h, mem_patched_ids h]
      constructor
      · intro hremoved
        refine ⟨hremovedKnown id hremoved, ?_⟩
        rintro (⟨-, hkept⟩ | hgenerated)
        · exact hkept hremoved
        · exact hreportable.fresh id hgenerated hremoved
      · rintro ⟨hold, hgone⟩
        by_contra hkept
        exact hgone (.inl ⟨hold, hkept⟩)

end Applied

def itemNamed (id : String) (h : (WorkItemFields.postInit {
    id := id, agentId := "requirement_agent", objective := "整理需求", outputKey := id }).isOk = true) :
    WorkItem := .ofFields _ h

/-- A plan as a first patch with one addition leaves it. -/
def patchedPlan : ExecutionPlan where
  id := "plan-1"
  goal := "整理需求"
  workItems := [itemNamed "notes" (by decide), itemNamed "draft" (by decide),
    itemNamed "wi-patch-01-requirement" (by decide)]
  trace := { requirementId := "req-1", traceId := "tr-1" }
  accepted := by decide

/-- The second patch only removes an item. -/
def secondPatch : PlanPatch where
  basePlanId := "plan-1"
  operations := [{ operation := .remove, workItemId := some "draft" }]

theorem secondPatch_applies :
    ∃ applied, applyPatch patchedPlan secondPatch {} [] false {} = .ok applied := by
  have hbase : checkBaseline patchedPlan secondPatch = .ok () :=
    checkBaseline_eq_ok.mpr (by decide)
  unfold applyPatch
  rw [hbase, ok_bind]
  exact exists_of_isOk (by decide)

/-- The addition of the first patch is reported as one of the second. -/
theorem secondPatch_misreports :
    ∃ applied, applyPatch patchedPlan secondPatch {} [] false {} = .ok applied ∧
      ¬ Reports patchedPlan secondPatch {} applied := by
  obtain ⟨applied, h⟩ := secondPatch_applies
  refine ⟨applied, h, fun hreports => ?_⟩
  have hkept := (mem_patched_ids h).mpr
    (.inl (show "wi-patch-01-requirement" ∈ patchedPlan.itemIds ∧
      "wi-patch-01-requirement" ∉ secondPatch.removeIds by decide))
  have hreported := (mem_addedWorkItemIds h).mpr ⟨hkept, by decide⟩
  exact absurd ((hreports.added _).mp hreported).2 (by decide)

theorem secondPatch_reports_iff :
    ∃ applied, applyPatch patchedPlan secondPatch {} [] false {} = .ok applied ∧
      (Reports patchedPlan secondPatch {} applied ↔ Reportable patchedPlan secondPatch {}) := by
  obtain ⟨applied, h⟩ := secondPatch_applies
  exact ⟨applied, h, applyPatch_reports_iff h⟩

end ProjectOS.Planner
