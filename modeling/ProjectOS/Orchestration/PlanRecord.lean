import ProjectOS.Orchestration.Trace

/-! When a recorded plan is loaded again. The required tools of an item are
derived again, and empty texts are read as absent ones. -/
namespace ProjectOS.Orchestration
open Base Artifact

namespace TraceStore

/-- Absent, or a text that is not empty. -/
def Readable (text : Option String) : Prop := text ≠ some ""

@[simp] theorem textOrNone_str (text : String) :
    textOrNone (.str text) = if text = "" then none else some text := by
  unfold textOrNone Json.truthy
  by_cases h : text = ""
  · simp [h]
  · simp [h]

theorem textOrNone_optStr {text : Option String} :
    textOrNone (.optStr text) = text ↔ Readable text := by
  cases text with
  | none => exact iff_of_true rfl nofun
  | some text =>
    by_cases h : text = ""
    · simp [Json.optStr, Readable, h]
    · simp [Json.optStr, Readable, h]

theorem readable_none : Readable none := nofun

theorem readable_of_not_blank {text : Option String} (h : text.any Text.blank = false) :
    Readable text := by
  rintro rfl
  exact absurd h (by decide)

theorem readable_of_safeId {text : Option String} (h : text.any safeId = true) : Readable text := by
  rintro rfl
  exact absurd h (by decide)

theorem coalesceAlias_of_readable {payload : Json} {canonical older : String}
    {text : Option String} (hcanonical : payload.get canonical = .optStr text)
    (holder : payload.get older = .null) (h : Readable text) :
    coalesceAlias payload canonical older = .ok (.optStr text) := by
  cases text with
  | none => simp [coalesceAlias, hcanonical, holder, unspecified, Json.optStr]
  | some text =>
    have hne : text ≠ "" := fun heq => h (congrArg some heq)
    simp [coalesceAlias, hcanonical, holder, unspecified, Json.optStr, hne]

/-- The place of a reference is given by safe ids; its revision may be empty. -/
theorem readable_place (ref : ArtifactRef) :
    Readable ref.traceId ∧ Readable ref.workItemId ∧ Readable ref.slot := by
  have h := ref.accepted
  simp only [RefFields.postInit, check_bind_eq_ok] at h
  have h := h.2
  split at h
  · simp only [raiseWhen_eq_ok, Bool.or_eq_false_iff, Option.isSome_eq_false_iff,
      Option.isNone_iff_eq_none, check_bind_eq_ok] at h
    obtain ⟨⟨⟨htrace, hitem⟩, hslot⟩, -⟩ := h
    rw [htrace, hitem, hslot]
    exact ⟨readable_none, readable_none, readable_none⟩
  · simp only [check_bind_eq_ok, forEach_eq_ok, List.forall_mem_cons, validateId, raiseWhen_eq_ok,
      Bool.not_eq_false'] at h
    exact ⟨readable_of_safeId h.2.1, readable_of_safeId h.2.2.1, readable_of_safeId h.2.2.2.1⟩

theorem refFromDict_refRecord {ref : ArtifactRef} :
    refFromDict (refRecord ref) = .ok ref ↔ Readable ref.revisionId := by
  obtain ⟨htrace, hitem, hslot⟩ := readable_place ref
  have hkey : require (refRecord ref) "artifact_key" = .ok (.str ref.artifactKey) := rfl
  have hlayer : require (refRecord ref) "layer" = .ok (.str ref.layer) := rfl
  have htrace : textOrNone ((refRecord ref).get "trace_id") = ref.traceId :=
    textOrNone_optStr.mpr htrace
  have hitem : textOrNone ((refRecord ref).get "work_item_id") = ref.workItemId :=
    textOrNone_optStr.mpr hitem
  have hslot : textOrNone ((refRecord ref).get "slot") = ref.slot := textOrNone_optStr.mpr hslot
  have hrevision : (refRecord ref).get "revision_id" = .optStr ref.revisionId := rfl
  unfold refFromDict
  rw [hkey, hlayer, htrace, hitem, hslot, hrevision, ok_bind, ok_bind, ArtifactRef.create_eq_ok,
    ← textOrNone_optStr]
  obtain ⟨⟨artifactKey, layer, traceId, workItemId, slot, revisionId⟩, _⟩ := ref
  simp [eq_comm]

theorem dependencyFromDict_dependencyRecord (dependency : WorkItemDependency) :
    dependencyFromDict (dependencyRecord dependency) = .ok dependency := by
  have h := dependency.accepted
  simp only [DependencyFields.postInit, raiseWhen_bind_eq_ok, raiseWhen_eq_ok] at h
  have hrule : textOrNone (.optStr dependency.ruleId) = dependency.ruleId :=
    textOrNone_optStr.mpr (readable_of_not_blank h.2)
  simp only [dependencyFromDict, dependencyRecord, require, Json.get, Json.getD, Json.get?_obj_cons,
    ok_bind, String.reduceEq, if_true, if_false, Option.getD_some, Json.pyStr_str,
    DependencySource.parse_value, WorkItemDependency.create_eq_ok, hrule]

theorem exitCodeFromDict_optInt (code : Option Int) : exitCodeFromDict (.optInt code) = .ok code := by
  cases code <;> rfl

theorem texts_getD {payload : Json} {key : String} {values : List String}
    (h : payload.getD key (.arr []) = .strs values) :
    texts (payload.getD key (.arr [])) = .ok values := by
  rw [h, texts_strs]

/-- A package keeps everything but its empty texts. -/
theorem packageFromDict_packageRecord (package : FailurePackage) :
    packageFromDict (packageRecord package) = .ok (some { package with
      checkId := textOrNone (.optStr package.checkId)
      runtimeProfile := textOrNone (.optStr package.runtimeProfile) }) := by
  have hdict : ((packageRecord package).isDict &&
      ((packageRecord package).get "signal").isDict) = true := rfl
  have hsignal : FailureSignal.fromDict ((packageRecord package).get "signal") =
      .ok package.signal := FailureSignal.fromDict_asDict package.signal
  have hcode : exitCodeFromDict ((packageRecord package).get "exit_code") =
      .ok package.exitCode := exitCodeFromDict_optInt package.exitCode
  have hrepair : texts ((packageRecord package).getD "repair_paths" (.arr [])) =
      .ok package.repairPaths := texts_getD rfl
  have hforbidden : texts ((packageRecord package).getD "forbidden_rework" (.arr [])) =
      .ok package.forbiddenRework := texts_getD rfl
  have hunsatisfied : texts ((packageRecord package).getD "unsatisfied_constraints" (.arr [])) =
      .ok package.unsatisfiedConstraints := texts_getD rfl
  have hsatisfied : texts ((packageRecord package).getD "satisfied_constraints" (.arr [])) =
      .ok package.satisfiedConstraints := texts_getD rfl
  have hscope : texts ((packageRecord package).getD "repair_scope" (.arr [])) =
      .ok package.repairScope := texts_getD rfl
  have howner : texts ((packageRecord package).getD "owner_files" (.arr [])) =
      .ok package.ownerFiles := texts_getD rfl
  unfold packageFromDict
  rw [if_pos hdict, hsignal, hcode, hrepair, hforbidden, hunsatisfied, hsatisfied, hscope, howner]
  rfl

def PackageReadable (package : FailurePackage) : Prop :=
  Readable package.checkId ∧ Readable package.runtimeProfile

def optPackageRecord : Option FailurePackage → Json
  | some package => packageRecord package
  | none => .null

theorem packageFromDict_null : packageFromDict .null = .ok none := if_neg Bool.false_ne_true

theorem packageFromDict_optPackageRecord {package : Option FailurePackage} :
    packageFromDict (optPackageRecord package) = .ok package ↔ ∀ p ∈ package, PackageReadable p := by
  cases package with
  | none => exact iff_of_true packageFromDict_null (by simp)
  | some package =>
    have hrecord : optPackageRecord (some package) = packageRecord package := rfl
    have hreadable : (∀ p ∈ some package, PackageReadable p) ↔ PackageReadable package := by simp
    rw [hrecord, packageFromDict_packageRecord, hreadable, PackageReadable, ← textOrNone_optStr,
      ← textOrNone_optStr]
    obtain ⟨signal, checkId, runtimeProfile⟩ := package
    simp

theorem readable_computeContractDigest (item : WorkItemFields) (includeRequiredTools : Bool) :
    Readable (some (item.computeContractDigest includeRequiredTools)) := by
  have hlength : (item.computeContractDigest includeRequiredTools).toList.length = 64 :=
    Sha256.length_sha256 _
  intro hempty
  rw [Option.some.inj hempty] at hlength
  exact absurd hlength (by decide)

/-- The texts of an accepted item are absent or not empty. -/
theorem readable_texts (item : WorkItem) :
    Readable item.artifactKey ∧ Readable item.implementationUnitId ∧ Readable item.stageId ∧
      Readable item.outputKind ∧ Readable item.contractDigest := by
  obtain ⟨hidentity, -, -, -, -, hkind, -⟩ := item.checks
  simp only [WorkItemFields.checkIdentity, check_bind_eq_ok, forEach_eq_ok, List.forall_mem_cons,
    raiseWhen_eq_ok] at hidentity
  obtain ⟨-, hkey, ⟨hunit, hstage, -⟩, -⟩ := hidentity
  refine ⟨readable_of_not_blank hkey, readable_of_not_blank hunit, readable_of_not_blank hstage,
    readable_of_not_blank hkind, ?_⟩
  rw [item.contractDigest_eq.1]
  exact readable_computeContractDigest _ _

theorem readable_of_not_missing {text : Option String} (h : WorkItemFields.missing text = false) :
    Readable text := by
  rintro rfl
  exact absurd h (by decide)

theorem readable_of_isSome_eq_false {text : Option String} (h : text.isSome = false) :
    Readable text := by
  rintro rfl
  cases h

/-- The grant of an accepted item names its place with texts that are not empty. -/
theorem readable_grant (item : WorkItem) :
    Readable item.slot ∧ Readable item.publishTarget ∧ Readable item.candidateFromWorkItemId := by
  obtain ⟨-, -, -, -, -, -, -, -, hgrant⟩ := item.checks
  unfold WorkItemFields.validateExecutionGrant at hgrant
  cases hmode : item.executionMode with
  | partitioned =>
    simp only [hmode, raiseWhen_bind_eq_ok, raiseWhen_eq_ok, Bool.or_eq_false_iff] at hgrant
    exact ⟨readable_of_not_missing hgrant.1, readable_of_isSome_eq_false hgrant.2.1,
      readable_of_isSome_eq_false hgrant.2.2⟩
  | integration =>
    simp only [hmode, raiseWhen_bind_eq_ok, raiseWhen_eq_ok, Bool.or_eq_false_iff] at hgrant
    exact ⟨readable_of_isSome_eq_false hgrant.2.1, readable_of_not_missing hgrant.1,
      readable_of_isSome_eq_false hgrant.2.2⟩
  | qualityGate =>
    simp only [hmode, raiseWhen_bind_eq_ok, raiseWhen_eq_ok] at hgrant
    exact ⟨readable_of_isSome_eq_false hgrant.2.2, readable_of_not_missing hgrant.1,
      readable_of_not_missing hgrant.2.1⟩
  | exclusive =>
    simp only [hmode, raiseWhen_eq_ok, Bool.or_eq_false_iff] at hgrant
    exact ⟨readable_of_isSome_eq_false hgrant.1.1, readable_of_isSome_eq_false hgrant.1.2,
      readable_of_isSome_eq_false hgrant.2⟩

theorem listFromDict_dependencies (item : WorkItem) :
    listFromDict dependencyFromDict (itemRecord item) "dependencies" = .ok item.dependencies :=
  collect_map_eq_self_iff.mpr fun dependency _ => dependencyFromDict_dependencyRecord dependency

def optContractRecord : Option (List (String × Json)) → Json
  | some fields => .obj fields
  | none => .null

theorem deliveryContractFromDict_record (item : WorkItem) :
    deliveryContractFromDict ((itemRecord item).get "delivery_contract") = item.deliveryContract := by
  have hfield : (itemRecord item).get "delivery_contract" =
      optContractRecord item.deliveryContract := rfl
  rw [hfield]
  cases item.deliveryContract <;> rfl

theorem policyRefs_record (item : WorkItem) : policyRefs (itemRecord item) = .ok item.policyRefs :=
  texts_strs item.policyRefs

theorem coalesceAlias_record (item : WorkItem) :
    coalesceAlias (itemRecord item) "slot" "output_slot" = .ok (.optStr item.slot) :=
  coalesceAlias_of_readable rfl rfl (readable_grant item).1

/-- Reading the record of an item: its references and its package have to be read back. -/
theorem itemFields_itemRecord (item : WorkItem) :
    itemFields (itemRecord item) = (do
      let failurePackage ← packageFromDict (optPackageRecord item.failurePackage)
      let inputRefs ← collect refFromDict (item.inputRefs.map refRecord)
      .ok { item.toWorkItemFields with
        failurePackage := failurePackage
        inputRefs := inputRefs
        requiredTools := []
        legacyContractDigest := false }) := by
  obtain ⟨hartifact, hunit, hstage, hkind, hdigest⟩ := readable_texts item
  obtain ⟨hslot, htarget, hcandidate⟩ := readable_grant item
  have hdict : (itemRecord item).isDict = true := rfl
  have hpackage : (itemRecord item).get "failure_package" = optPackageRecord item.failurePackage := rfl
  have hcriteria : texts ((itemRecord item).getD "acceptance_criteria" (.arr [])) =
      .ok item.acceptanceCriteria := texts_getD rfl
  have hconstraints : texts ((itemRecord item).getD "constraints" (.arr [])) =
      .ok item.constraints := texts_getD rfl
  have hnonGoals : texts ((itemRecord item).getD "non_goals" (.arr [])) =
      .ok item.nonGoals := texts_getD rfl
  have hmode : ExecutionMode.parse
      ((itemRecord item).getD "execution_mode" (.str "exclusive")).pyStr = .ok item.executionMode :=
    ExecutionMode.parse_value item.executionMode
  have hrefs : listFromDict refFromDict (itemRecord item) "input_refs" =
      collect refFromDict (item.inputRefs.map refRecord) := rfl
  have hallowed : texts ((itemRecord item).getD "allowed_paths" (.arr [])) =
      .ok item.allowedPaths := texts_getD rfl
  have hforbidden : texts ((itemRecord item).getD "forbidden_paths" (.arr [])) =
      .ok item.forbiddenPaths := texts_getD rfl
  have hrequired : texts ((itemRecord item).getD "required_paths" (.arr [])) =
      .ok item.requiredPaths := texts_getD rfl
  have howned : texts ((itemRecord item).getD "owned_files" (.arr [])) =
      .ok item.ownedFiles := texts_getD rfl
  have hskills : texts ((itemRecord item).getD "skill_refs" (.arr [])) =
      .ok item.skillRefs := texts_getD rfl
  have hrequirements : texts ((itemRecord item).getD "requirement_ids" (.arr [])) =
      .ok item.requirementIds := texts_getD rfl
  unfold itemFields
  rw [hdict, hpackage, listFromDict_dependencies, hcriteria, hconstraints, hnonGoals,
    policyRefs_record, hmode, hrefs, coalesceAlias_record, hallowed, hforbidden, hrequired, howned,
    hskills, hrequirements, deliveryContractFromDict_record]
  have hartifact : textOrNone ((itemRecord item).get "artifact_key") = item.artifactKey :=
    textOrNone_optStr.mpr hartifact
  have hstage : textOrNone ((itemRecord item).get "stage_id") = item.stageId :=
    textOrNone_optStr.mpr hstage
  have htarget : textOrNone ((itemRecord item).get "publish_target") = item.publishTarget :=
    textOrNone_optStr.mpr htarget
  have hcandidate : textOrNone ((itemRecord item).get "candidate_from_work_item_id") =
      item.candidateFromWorkItemId := textOrNone_optStr.mpr hcandidate
  have hunit : textOrNone ((itemRecord item).get "implementation_unit_id") =
      item.implementationUnitId := textOrNone_optStr.mpr hunit
  have hkind : textOrNone ((itemRecord item).get "output_kind") = item.outputKind :=
    textOrNone_optStr.mpr hkind
  have hdigest : textOrNone ((itemRecord item).get "contract_digest") = item.contractDigest :=
    textOrNone_optStr.mpr hdigest
  have hslot : textOrNone (.optStr item.slot) = item.slot := textOrNone_optStr.mpr hslot
  simp only [ok_bind]
  rw [hartifact, hstage, htarget, hcandidate, hunit, hkind, hdigest, hslot]
  rfl

theorem filled_names (item : WorkItem) :
    some (item.artifactKey.getD item.outputKey) = item.artifactKey ∧
      some (item.outputKind.getD (WorkItemFields.defaultOutputKind item.executionMode)) =
        item.outputKind := by
  obtain ⟨raw, h⟩ := item.exists_create
  obtain ⟨_, _, hfields⟩ := WorkItem.create_fields h
  rw [hfields]
  exact ⟨rfl, rfl⟩

/-- The fields of an item as its record gives them back. -/
def withoutTools (item : WorkItem) : WorkItemFields :=
  { item.toWorkItemFields with requiredTools := [], legacyContractDigest := false }

def unsealed (item : WorkItem) : WorkItemFields :=
  { item.toWorkItemFields with legacyContractDigest := false }

theorem fill_withoutTools {item : WorkItem} (h : item.requiredTools = item.derivedTools) :
    (withoutTools item).fill = unsealed item := by
  have htools : (withoutTools item).derivedTools = item.requiredTools := h.symm
  obtain ⟨hartifact, hkind⟩ := filled_names item
  unfold WorkItemFields.fill
  rw [htools]
  simp only [withoutTools, List.isEmpty_nil, if_true, hartifact, hkind, unsealed]

theorem sealDigest_of_current {item : WorkItemFields}
    (h : item.contractDigest = some item.computeContractDigest) : item.sealDigest = .ok item := by
  unfold WorkItemFields.sealDigest
  rw [h]
  exact if_pos rfl

theorem sealDigest_of_legacy {item : WorkItemFields}
    (h : item.contractDigest = some (item.computeContractDigest false))
    (hne : item.contractDigest ≠ some item.computeContractDigest) :
    item.sealDigest = .ok { item with legacyContractDigest := true } := by
  unfold WorkItemFields.sealDigest
  rw [h] at hne ⊢
  exact (if_neg fun heq => hne (congrArg some heq)).trans (if_pos rfl)

theorem unsealed_eq {item : WorkItem} {legacy : Bool} (h : item.legacyContractDigest = legacy) :
    { unsealed item with legacyContractDigest := legacy } = item.toWorkItemFields := by
  subst h
  rfl

/-- The stored digest is accepted again, and tells again which kind it is. -/
theorem sealDigest_unsealed (item : WorkItem) :
    (unsealed item).sealDigest = .ok item.toWorkItemFields := by
  obtain ⟨hdigest, holder⟩ := item.contractDigest_eq
  cases hlegacy : item.legacyContractDigest with
  | false =>
    have hcurrent : (unsealed item).contractDigest = some (unsealed item).computeContractDigest := by
      rw [hlegacy] at hdigest
      exact hdigest
    rw [sealDigest_of_current hcurrent, ← unsealed_eq hlegacy]
    rfl
  | true =>
    have hlast : (unsealed item).contractDigest =
        some ((unsealed item).computeContractDigest false) := by
      rw [hlegacy] at hdigest
      exact hdigest
    have hne : (unsealed item).contractDigest ≠ some (unsealed item).computeContractDigest :=
      holder hlegacy
    rw [sealDigest_of_legacy hlast hne, unsealed_eq hlegacy]

theorem create_withoutTools_iff (item : WorkItem) :
    WorkItem.create (withoutTools item) = .ok item ↔ item.requiredTools = item.derivedTools := by
  constructor
  · intro h
    obtain ⟨_, _, hfields⟩ := WorkItem.create_fields h
    exact congrArg WorkItemFields.requiredTools hfields
  · intro htools
    obtain ⟨hidentity, hpaths, hwave, hcode, -, hkind, hdeps, htexts, hgrant⟩ := item.checks
    rw [WorkItem.create_eq_ok, WorkItemFields.postInit_eq_ok, fill_withoutTools htools]
    refine ⟨hidentity, hpaths, hwave, hcode, ?_, hkind, hdeps, htexts, hgrant,
      sealDigest_unsealed item⟩
    simp [WorkItemFields.checkRequiredTools, withoutTools]

/-- What a record keeps of an item: its tools are those of its delivery contract,
and no revision or name of a check is the empty text. -/
structure ItemRecordable (item : WorkItem) : Prop where
  tools : item.requiredTools = item.derivedTools
  inputRefs : ∀ ref ∈ item.inputRefs, Readable ref.revisionId
  failurePackage : ∀ package ∈ item.failurePackage, PackageReadable package

theorem collect_refRecords_iff {refs : List ArtifactRef} :
    collect refFromDict (refs.map refRecord) = .ok refs ↔ ∀ ref ∈ refs, Readable ref.revisionId := by
  simp only [collect_map_eq_self_iff, refFromDict_refRecord]

theorem itemFromDict_itemRecord_iff {item : WorkItem} :
    itemFromDict (itemRecord item) = .ok item ↔ ItemRecordable item := by
  unfold itemFromDict
  rw [itemFields_itemRecord]
  constructor
  · intro h
    simp only [bind_eq_ok] at h
    obtain ⟨_, ⟨package, hpackage, refs, hrefs, hfields⟩, hcreate⟩ := h
    rw [← Except.ok.inj hfields] at hcreate
    obtain ⟨_, _, hstored⟩ := WorkItem.create_fields hcreate
    have hsame : item.failurePackage = package := congrArg WorkItemFields.failurePackage hstored
    have hsameRefs : item.inputRefs = refs := congrArg WorkItemFields.inputRefs hstored
    subst hsame hsameRefs
    exact ⟨(create_withoutTools_iff item).mp hcreate, collect_refRecords_iff.mp hrefs,
      packageFromDict_optPackageRecord.mp hpackage⟩
  · intro h
    rw [packageFromDict_optPackageRecord.mpr h.failurePackage,
      collect_refRecords_iff.mpr h.inputRefs]
    exact (create_withoutTools_iff item).mpr h.tools

/-- The trace file names the trace. -/
def NamesTrace (payload : Json) (trace : TraceContext) : Prop :=
  (payload.get? "requirement_id").map Json.pyStr = some trace.requirementId ∧
    (payload.get? "trace_id").map Json.pyStr = some trace.traceId ∧
    textOrNone (payload.get "parent_trace_id") = trace.parentTraceId

theorem require_eq_ok {payload value : Json} {key : String} :
    require payload key = .ok value ↔ payload.get? key = some value := by
  unfold require
  split <;> simp [*]

theorem traceFromDict_eq_ok {payload : Json} {trace : TraceContext} :
    traceFromDict payload = .ok trace ↔ NamesTrace payload trace := by
  simp only [traceFromDict, bind_eq_ok, require_eq_ok, NamesTrace, Option.map_eq_some_iff]
  constructor
  · rintro ⟨requirementId, hrequirement, traceId, htrace, h⟩
    rw [← Except.ok.inj h]
    exact ⟨⟨_, hrequirement, rfl⟩, ⟨_, htrace, rfl⟩, rfl⟩
  · rintro ⟨⟨requirementId, hrequirement, hr⟩, ⟨traceId, htrace, ht⟩, hp⟩
    refine ⟨_, hrequirement, _, htrace, ?_⟩
    rw [hr, ht, hp]

theorem textOr_str {text default : String} (h : text ≠ "") : textOr (.str text) default = text := by
  simp [textOr, Json.truthy, h]

theorem scope_planRecord (plan : ExecutionPlan) :
    ValidationScope.parse (textOr ((planRecord plan).get "validation_scope") "full_delivery") =
      .ok plan.validationScope := by
  have hvalue : textOr (.str plan.validationScope.value) "full_delivery" =
      plan.validationScope.value := textOr_str plan.validationScope.value_ne_empty
  exact (congrArg ValidationScope.parse hvalue).trans (ValidationScope.parse_value _)

theorem planFromDict_planRecord_iff {plan : ExecutionPlan} {payload : Json} :
    planFromDict (planRecord plan) payload = .ok plan ↔
      NamesTrace payload plan.trace ∧ ∀ item ∈ plan.workItems, ItemRecordable item := by
  obtain ⟨-, -, -, htemplate, hprocess, -⟩ := PlanFields.postInit_eq_ok.mp plan.accepted
  have hitems : listFromDict itemFromDict (planRecord plan) "work_items" =
      collect itemFromDict (plan.workItems.map itemRecord) := rfl
  have htemplate : textOrNone ((planRecord plan).get "template_id") = plan.templateId :=
    textOrNone_optStr.mpr (readable_of_not_blank htemplate)
  have hprocess : textOr ((planRecord plan).get "process_id") "software_delivery" =
      plan.processId := textOr_str (Text.ne_empty_of_not_blank hprocess)
  have hscope := scope_planRecord plan
  have hid : require (planRecord plan) "plan_id" = .ok (.str plan.id) := rfl
  have hgoal : require (planRecord plan) "goal" = .ok (.str plan.goal) := rfl
  unfold planFromDict
  rw [hitems, htemplate, hprocess, hscope, hid, hgoal]
  simp only [ok_bind, bind_eq_ok, traceFromDict_eq_ok, ← itemFromDict_itemRecord_iff,
    ← collect_map_eq_self_iff, ExecutionPlan.create_eq_ok]
  constructor
  · rintro ⟨items, hitems, trace, htrace, hplan⟩
    have hsame : plan.workItems = items := congrArg PlanFields.workItems hplan
    have hsameTrace : plan.trace = trace := congrArg PlanFields.trace hplan
    subst hsame hsameTrace
    exact ⟨htrace, hitems⟩
  · rintro ⟨htrace, hitems⟩
    exact ⟨_, hitems, _, htrace, rfl⟩

/-- What the files of a trace have to hold for a plan to be loaded as it was recorded. -/
structure Recordable (store : TraceStore) (plan : ExecutionPlan) : Prop where
  traceId : validTraceId plan.trace.traceId = true
  trace : ∃ payload, store.traces.get? plan.trace.traceId = some payload ∧
    NamesTrace payload plan.trace
  items : ∀ item ∈ plan.workItems, ItemRecordable item

theorem readFile_eq_ok {file : Option Json} {missing : String} {payload : Json} :
    readFile file missing = .ok payload ↔ file = some payload := by
  cases file <;> simp [readFile]

theorem planFile_recordPlan_active (store : TraceStore) (plan : ExecutionPlan) :
    (store.recordPlan plan).planFile plan.trace.traceId none = .ok (planRecord plan) := by
  simp [planFile, recordPlan, readFile_eq_ok, Dict.get?_set]

/-- What is loaded has the scope of what was recorded. -/
theorem scope_of_loadPlan {store : TraceStore} {plan loaded : ExecutionPlan}
    (h : (store.recordPlan plan).loadPlan plan.trace.traceId = .ok loaded) :
    loaded.validationScope = plan.validationScope := by
  unfold loadPlan at h
  rw [planFile_recordPlan_active] at h
  simp only [bind_eq_ok, ok_bind] at h
  obtain ⟨_, -, payload, -, h⟩ := h
  unfold planFromDict at h
  rw [scope_planRecord] at h
  simp only [bind_eq_ok, ok_bind] at h
  obtain ⟨_, -, _, -, _, -, _, -, h⟩ := h
  rw [ExecutionPlan.create_eq_ok.mp h]

/-- Both files of a recorded plan hold its record. -/
theorem planFile_recordPlan {store : TraceStore} {plan : ExecutionPlan}
    (hslash : Text.contains plan.id "/" = false)
    (hbackslash : plan.id.toList.contains Text.backslash = false) {planId : Option String}
    (h : planId ∈ [none, some plan.id]) :
    (store.recordPlan plan).planFile plan.trace.traceId planId = .ok (planRecord plan) := by
  have hid := Text.ne_empty_of_not_blank (PlanFields.postInit_eq_ok.mp plan.accepted).1
  simp only [List.mem_cons, List.not_mem_nil, or_false] at h
  rcases h with rfl | rfl
  · exact planFile_recordPlan_active store plan
  · simp only [planFile, raiseWhen_bind_eq_ok, hslash, hbackslash, Bool.or_false]
    simp [recordPlan, readFile_eq_ok, Dict.get?_set, hid]

theorem loadPlan_recordPlan_eq_ok {store : TraceStore} {plan : ExecutionPlan}
    (hslash : Text.contains plan.id "/" = false)
    (hbackslash : plan.id.toList.contains Text.backslash = false) {planId : Option String}
    (h : planId ∈ [none, some plan.id]) :
    (store.recordPlan plan).loadPlan plan.trace.traceId planId = .ok plan ↔
      validTraceId plan.trace.traceId = true ∧
        ∃ payload, store.traces.get? plan.trace.traceId = some payload ∧
          NamesTrace payload plan.trace ∧ ∀ item ∈ plan.workItems, ItemRecordable item := by
  have htraces : (store.recordPlan plan).traces = store.traces := rfl
  unfold loadPlan checkTraceId
  rw [raiseWhen_bind_eq_ok, planFile_recordPlan hslash hbackslash h, ok_bind, htraces]
  simp only [Bool.not_eq_false', bind_eq_ok, readFile_eq_ok, planFromDict_planRecord_iff]

/-- Recording and loading, from either file, give the plan back exactly when
nothing of it is lost on the way. -/
theorem loadPlan_recordPlan_iff (store : TraceStore) (plan : ExecutionPlan)
    (hslash : Text.contains plan.id "/" = false)
    (hbackslash : plan.id.toList.contains Text.backslash = false) :
    ∀ planId ∈ [none, some plan.id],
      (store.recordPlan plan).loadPlan plan.trace.traceId planId = .ok plan ↔
        store.Recordable plan := by
  intro planId hplanId
  rw [loadPlan_recordPlan_eq_ok hslash hbackslash hplanId]
  constructor
  · rintro ⟨htraceId, payload, hpayload, hnames, hitems⟩
    exact ⟨htraceId, ⟨payload, hpayload, hnames⟩, hitems⟩
  · rintro ⟨htraceId, ⟨payload, hpayload, hnames⟩, hitems⟩
    exact ⟨htraceId, payload, hpayload, hnames, hitems⟩

def notesItem (requiredTools : List String) (h : (WorkItemFields.postInit {
    id := "wi-notes"
    agentId := "requirement_agent"
    objective := "整理需求"
    outputKey := "notes"
    requiredTools := requiredTools }).isOk = true) : WorkItem := .ofFields _ h

def notesTrace : TraceContext := { requirementId := "req-1", traceId := "tr-1" }

/-- One item that asks for a tool its delivery contract does not name. -/
def toolPlan : ExecutionPlan where
  id := "plan-1"
  goal := "整理需求"
  workItems := [notesItem ["read_requirement"] (by decide)]
  trace := notesTrace
  accepted := by decide

def plainPlan : ExecutionPlan where
  id := "plan-1"
  goal := "整理需求"
  workItems := [notesItem [] (by decide)]
  trace := notesTrace
  accepted := by decide

def notesStore : TraceStore := startTrace {} notesTrace "整理需求" "2024-01-01" (.int 1)

/-- The tools of the item are not in its record, and its digest no longer fits. -/
theorem toolPlan_is_not_loaded :
    (notesStore.recordPlan toolPlan).loadPlan "tr-1" ≠ .ok toolPlan := by
  intro h
  obtain ⟨-, _, -, -, hitems⟩ :=
    (loadPlan_recordPlan_eq_ok (by decide) (by decide) List.mem_cons_self).mp h
  have htools := (hitems _ List.mem_cons_self).tools
  revert htools
  decide

theorem plainPlan_loaded_iff :
    (notesStore.recordPlan plainPlan).loadPlan "tr-1" none = .ok plainPlan ↔
      notesStore.Recordable plainPlan :=
  loadPlan_recordPlan_iff notesStore plainPlan (by decide) (by decide) none (by decide)

end TraceStore
end ProjectOS.Orchestration
