import ProjectOS.Orchestration.PlanGraph

/-! Plans built from the items of another plan: an item may be wired anew, and
what it needed in the first plan it finds in the second one. -/
namespace ProjectOS.Orchestration
open Base Artifact Relation

namespace WorkItem
variable {item item' : WorkItem} {dependencies : List WorkItemDependency}
  {inputRefs : List ArtifactRef}

/-- Only the wiring and the digest differ. -/
def Rewires (item item' : WorkItem) : Prop :=
  item'.toWorkItemFields = { item.toWorkItemFields with
    dependencies := item'.dependencies
    inputRefs := item'.inputRefs
    contractDigest := item'.contractDigest
    legacyContractDigest := item'.legacyContractDigest }

theorem Rewires.refl (item : WorkItem) : item.Rewires item := rfl

theorem artifactKey_isSome (item : WorkItem) : item.artifactKey.isSome = true := by
  obtain ⟨raw, h⟩ := item.exists_create
  obtain ⟨_, _, hfields⟩ := create_fields h
  rw [hfields]
  rfl

/-- The constructor leaves what it filled in. -/
theorem fill_eq (item : WorkItem) : item.fill = { item.toWorkItemFields with
    legacyContractDigest := false } := by
  obtain ⟨raw, h⟩ := item.exists_create
  obtain ⟨digest, legacy, hfields⟩ := create_fields h
  have htools : (if raw.fill.requiredTools.isEmpty then raw.fill.derivedTools
      else raw.fill.requiredTools) = raw.fill.requiredTools := by
    split
    · rename_i hempty
      have hfilled : raw.fill.requiredTools =
          if raw.requiredTools.isEmpty then raw.derivedTools else raw.requiredTools := rfl
      rw [hfilled] at hempty ⊢
      split at hempty
      · rename_i hnone
        rw [if_pos hnone]
        rfl
      · rename_i hsome
        exact absurd hempty hsome
    · rfl
  rw [hfields]
  show WorkItemFields.fill _ = _
  unfold WorkItemFields.fill at htools ⊢
  simp only [Option.getD_some, WorkItemFields.derivedTools, WorkItemFields.role] at htools ⊢
  rw [htools]

theorem rewired_rewires (h : item.rewired dependencies inputRefs = .ok item') :
    item.Rewires item' ∧ item'.dependencies = dependencies ∧ item'.inputRefs = inputRefs := by
  obtain ⟨digest, legacy, hfields⟩ := create_fields h
  have hfill : WorkItemFields.fill { item.toWorkItemFields with
      dependencies := dependencies
      inputRefs := inputRefs
      contractDigest := none } = { item.toWorkItemFields with
        dependencies := dependencies
        inputRefs := inputRefs
        contractDigest := none
        legacyContractDigest := false } := by
    have hkept := item.fill_eq
    simp only [WorkItemFields.fill, WorkItemFields.derivedTools, WorkItemFields.role] at hkept ⊢
    injection hkept
    simp_all
  rw [hfill] at hfields
  refine ⟨?_, by rw [hfields], by rw [hfields]⟩
  unfold Rewires
  rw [hfields]

/-- An accepted item is refused new dependencies only for a loop on itself or a double. -/
theorem rewired_isOk_iff : (∃ item', item.rewired dependencies inputRefs = .ok item') ↔
    (dependencies.map (·.workItemId)).Nodup ∧ item.id ∉ dependencies.map (·.workItemId) := by
  obtain ⟨hidentity, hpaths, hwave, hcode, htools, hkind, -, htexts, hgrant⟩ := item.checks
  unfold rewired
  rw [create_isOk_iff, WorkItemFields.postInit_isOk_iff rfl]
  constructor
  · rintro ⟨-, -, -, -, -, -, hdeps, -⟩
    exact WorkItemFields.checkDependencies_eq_ok.mp hdeps
  · intro h
    exact ⟨hidentity, hpaths, hwave, hcode, htools, hkind,
      WorkItemFields.checkDependencies_eq_ok.mpr h, htexts, hgrant⟩

/-- A new item without paths, tools or an implementation unit whose texts and grant are fine. -/
structure Pathless (raw : WorkItemFields) : Prop where
  fresh : raw.contractDigest = none
  paths : raw.allowedPaths = [] ∧ raw.forbiddenPaths = [] ∧ raw.requiredPaths = [] ∧
    raw.ownedFiles = []
  refs : raw.policyRefs = [] ∧ raw.skillRefs = []
  unit : raw.implementationUnitId = none
  tools : raw.requiredTools = []
  wave : 0 ≤ raw.wave
  words : ∀ text ∈ raw.words, Text.blank text = false
  labels : raw.artifactKey.any Text.blank = false ∧ raw.stageId.any Text.blank = false ∧
    raw.outputKind.any Text.blank = false
  grant : raw.validateExecutionGrant = .ok ()

/-- The checks left for such an item. -/
def checkPathless (raw : WorkItemFields) : Result WorkItemFields := do
  raiseWhen (raw.requirementIds.any Text.blank) "WorkItem.requirement_ids 不能包含空字符串"
  raw.checkDependencies
  raw.fill.sealDigest

theorem Pathless.postInit_eq {raw : WorkItemFields} (h : Pathless raw) :
    raw.postInit = checkPathless raw := by
  obtain ⟨hallowed, hforbidden, hrequired, howned⟩ := h.paths
  obtain ⟨hpolicy, hskill⟩ := h.refs
  obtain ⟨hartifact, hstage, hkind⟩ := h.labels
  have hnames : ∀ text ∈ [raw.id, raw.agentId, raw.objective, raw.outputKey],
      Text.blank text = false := by
    intro text htext
    apply h.words
    simp only [WorkItemFields.words, List.mem_append, htext, true_or]
  simp only [List.forall_mem_cons] at hnames
  have hidentity : raw.checkIdentity = raiseWhen (raw.requirementIds.any Text.blank)
      "WorkItem.requirement_ids 不能包含空字符串" := by
    simp only [WorkItemFields.checkIdentity, forEach, hnames, hartifact, hstage, h.unit, hallowed,
      hforbidden, hrequired, hpolicy, hskill, List.any_nil, Option.any_none]
    cases raw.requirementIds.any Text.blank <;> rfl
  have hpaths : raw.checkPathGrant = .ok () := by
    simp [WorkItemFields.checkPathGrant, check_bind_eq_ok, hallowed, howned]
  have hcode : raw.checkCodeOwnership = .ok () := by
    simp [WorkItemFields.checkCodeOwnership, WorkItemFields.ownsOneFile, h.unit]
  have htools : raw.checkRequiredTools = .ok () := by
    simp [WorkItemFields.checkRequiredTools, check_bind_eq_ok, h.tools]
  have hwave : raiseWhen (decide (raw.wave < 0)) "WorkItem.wave 不能小于 0" = .ok () := by
    simp [h.wave]
  simp only [WorkItemFields.postInit, checkPathless, hidentity, hpaths, hwave, hcode, htools, hkind,
    WorkItemFields.checkTexts_of_words h.words, h.grant, ok_bind]
  rfl

/-- The requirements and the dependencies of such an item are left to check. -/
theorem Pathless.create_isOk_iff {raw : WorkItemFields} (h : Pathless raw) :
    (∃ item, create raw = .ok item) ↔
      raw.requirementIds.any Text.blank = false ∧ raw.dependencyIds.Nodup ∧
        raw.id ∉ raw.dependencyIds := by
  have hsealed : ∃ item, raw.fill.sealDigest = .ok item := by
    have hfilled : raw.fill.contractDigest = none := h.fresh
    rw [WorkItemFields.sealDigest, hfilled]
    exact ⟨_, rfl⟩
  obtain ⟨sealed, hsealed⟩ := hsealed
  rw [WorkItem.create_isOk_iff, h.postInit_eq, ← WorkItemFields.checkDependencies_eq_ok]
  simp [checkPathless, check_bind_eq_ok, hsealed]

/-- Besides, no dependency is dropped. -/
structure Renews (item item' : WorkItem) : Prop where
  rewires : item.Rewires item'
  edges : ∀ d ∈ item.dependencyIds, d ∈ item'.dependencyIds

theorem Renews.refl (item : WorkItem) : item.Renews item := ⟨.refl item, fun _ hd => hd⟩

namespace Rewires
variable (h : item.Rewires item')
include h

theorem id : item'.id = item.id := by rw [h]

theorem executionMode : item'.executionMode = item.executionMode := by rw [h]

theorem role : item'.role = item.role := by
  unfold WorkItemFields.role
  rw [h]

theorem validateWorkItem : DeliveryContractRegistry.validateWorkItem item' =
    DeliveryContractRegistry.validateWorkItem item := by
  have htools : item'.requiredTools = item.requiredTools := by rw [h]
  have hslot : item'.slot = item.slot := by rw [h]
  unfold DeliveryContractRegistry.validateWorkItem
  rw [h.role, htools, hslot]

theorem outputIdentities : DeliveryContractRegistry.outputIdentities item' =
    DeliveryContractRegistry.outputIdentities item := by
  unfold DeliveryContractRegistry.outputIdentities
  rw [h]

end Rewires

end WorkItem

namespace WorkItemDependency
variable {workItemId ruleId : String}

/-- A dependency whose texts are known to be there. -/
def ofSystem (workItemId ruleId : String) (hitem : Text.blank workItemId = false)
    (hrule : Text.blank ruleId = false) : WorkItemDependency :=
  ⟨{ workItemId := workItemId, source := .system, ruleId := some ruleId }, by
    simp [DependencyFields.postInit, check_bind_eq_ok, hitem, hrule]⟩

theorem system_eq (hitem : Text.blank workItemId = false) (hrule : Text.blank ruleId = false) :
    system workItemId ruleId = .ok (ofSystem workItemId ruleId hitem hrule) :=
  create_eq_ok.mpr rfl

theorem system_isOk (ruleId : String) (hitem : Text.blank workItemId = false)
    (hrule : Text.blank ruleId = false) :
    ∃ dep, system workItemId ruleId = .ok dep :=
  ⟨_, system_eq hitem hrule⟩

end WorkItemDependency

namespace PlanFields

/-- The fields of the plan with other items. The validation scope is not passed on. -/
def withItems (plan : PlanFields) (workItems : List WorkItem) : PlanFields where
  id := plan.id
  goal := plan.goal
  workItems := workItems
  templateId := plan.templateId
  processId := plan.processId
  trace := plan.trace

variable {plan new : PlanFields} {kept : WorkItem → Prop}

/-- The kept items of a plan are in the new one, and so is all they wait for. -/
structure Carries (plan new : PlanFields) (kept : WorkItem → Prop) : Prop where
  trace : new.trace = plan.trace
  renewed : ∀ item ∈ plan.workItems, kept item → ∃ item' ∈ new.workItems, item.Renews item'
  closed : ∀ item ∈ plan.workItems, kept item → ∀ other ∈ plan.workItems,
    other.id ∈ item.dependencyIds → kept other

namespace Carries

theorem waits (h : plan.Carries new kept) (hplan : plan.WellFormed) {item : WorkItem}
    (hitem : item ∈ plan.workItems) (hkept : kept item) {b : String}
    (hwaits : TransGen plan.WaitsFor item.id b) :
    TransGen new.WaitsFor item.id b ∧ ∃ other ∈ plan.workItems, other.id = b ∧ kept other := by
  have hstep {a b : String} (ha : ∃ item ∈ plan.workItems, item.id = a ∧ kept item)
      (hab : plan.WaitsFor a b) :
      new.WaitsFor a b ∧ ∃ other ∈ plan.workItems, other.id = b ∧ kept other := by
    obtain ⟨item, hitem, rfl, hkept⟩ := ha
    have hknown := hplan.known _ _ hab
    obtain ⟨found, hfound, hid, hb⟩ := hab
    obtain rfl := List.inj_on_of_nodup_map hplan.distinct hfound hitem hid
    obtain ⟨other, hother, rfl⟩ := List.mem_map.mp hknown
    obtain ⟨item', hitem', hrenews⟩ := h.renewed found hitem hkept
    exact ⟨⟨item', hitem', hrenews.rewires.id, hrenews.edges _ hb⟩, other, hother, rfl,
      h.closed found hitem hkept other hother hb⟩
  induction hwaits with
  | single hab =>
    obtain ⟨hnew, hother⟩ := hstep ⟨item, hitem, rfl, hkept⟩ hab
    exact ⟨.single hnew, hother⟩
  | tail _ hbc ih =>
    obtain ⟨hnew, hother⟩ := hstep ih.2 hbc
    exact ⟨ih.1.tail hnew, hother⟩

/-- A kept quality gate keeps its producer. -/
theorem candidate (h : plan.Carries new kept) {gate gate' producer : WorkItem}
    (hgate : gate ∈ plan.workItems) (hkept : kept gate) (hrenews : gate.Renews gate')
    (hproducer : plan.CandidateOf gate producer) :
    ∃ producer', new.CandidateOf gate' producer' := by
  have hpkept := h.closed gate hgate hkept producer hproducer.mem hproducer.direct
  obtain ⟨producer', hmem, hnew⟩ := h.renewed producer hproducer.mem hpkept
  have hid := hnew.rewires.id
  have htarget : producer'.publishTarget = producer.publishTarget := by rw [hnew.rewires]
  have hgate' : gate'.publishTarget = gate.publishTarget := by rw [hrenews.rewires]
  have hnamed : gate'.candidateFromWorkItemId = gate.candidateFromWorkItemId := by
    rw [hrenews.rewires]
  exact ⟨producer', {
    mem := hmem
    named := by rw [hnamed, hproducer.named, hid]
    direct := hid ▸ hrenews.edges _ hproducer.direct
    mode := hnew.rewires.executionMode.trans hproducer.mode
    target := by rw [htarget, hproducer.target, hgate'] }⟩

/-- A kept item finds the producer of a staged input again. -/
theorem producer (h : plan.Carries new kept) (hplan : plan.WellFormed) {item item' producer : WorkItem}
    (hitem : item ∈ plan.workItems) (hkept : kept item) (hrenews : item.Renews item')
    {consumer : WorkItemDeliveryContract} {ref : ArtifactRef}
    (hproducer : plan.ProducerOf item consumer ref producer) :
    ∃ producer', new.ProducerOf item' consumer ref producer' := by
  obtain ⟨hwaits, other, hother, hid, hpkept⟩ := h.waits hplan hitem hkept hproducer.waited
  obtain rfl := List.inj_on_of_nodup_map hplan.distinct hother hproducer.mem hid
  obtain ⟨producer', hmem, hnew⟩ := h.renewed other hother hpkept
  have hslot : producer'.slot = other.slot := by rw [hnew.rewires]
  have hkey : producer'.artifactKey.getD producer'.outputKey =
      other.artifactKey.getD other.outputKey := by rw [hnew.rewires]
  exact ⟨producer', {
    mem := hmem
    named := by rw [hproducer.named, hnew.rewires.id]
    waited := by rwa [hrenews.rewires.id, hnew.rewires.id]
    mode := hnew.rewires.executionMode.trans hproducer.mode
    slot := hslot.trans hproducer.slot
    key := hkey.trans hproducer.key
    kind := by rw [hnew.rewires.role]; exact hproducer.kind }⟩

theorem stagedHere (h : plan.Carries new kept) {ref : ArtifactRef} :
    new.StagedHere ref ↔ plan.StagedHere ref := by
  unfold StagedHere
  rw [h.trace]

end Carries
end PlanFields
end ProjectOS.Orchestration
