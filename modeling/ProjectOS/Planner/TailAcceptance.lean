import ProjectOS.Orchestration.PlanExtension
import ProjectOS.Planner.DeliveryTail

/-! Which plans take a delivery tail: the tail replaces items, and what stays must
do without them. -/
namespace ProjectOS.Planner.DynamicDeliveryTailBuilder
open Base Artifact Orchestration Relation

section additions
variable {plan : ExecutionPlan} {requirement architecture : Option WorkItem} {contract : WorkItem}
  {rule : String} {others : List (String × String)}

/-- The items the tail is attached to, in order. -/
def sources (requirement architecture : Option WorkItem) (contract : WorkItem) : List String :=
  waitedIds requirement architecture [(contract.id, "contract")]

/-- The ids of the tail, each with the ids it waits for. -/
def tailWaits (requirement architecture : Option WorkItem) (contract : WorkItem) :
    List (String × List String) := [
  (taskPlanId, sources requirement architecture contract),
  (taskIntegrationId, [taskPlanId]),
  (taskQualityId, [taskIntegrationId]),
  (environmentId, [contract.id, taskQualityId]),
  (codeIntegrationId, [contract.id, taskQualityId, environmentId]),
  (testId, [codeIntegrationId, taskQualityId, environmentId]),
  (reviewId, sources requirement architecture contract ++
    [taskQualityId, environmentId, codeIntegrationId, testId])]

def tailIds : List String := [taskPlanId, taskIntegrationId, taskQualityId, environmentId,
  codeIntegrationId, testId, reviewId]

/-- Where the task plan delivers. -/
def taskPlace : DeliveryContractRegistry.OutputIdentity := ("tasks", "plan", "task")

/-- What `waitFor` builds when the other ids are known not to be blank. -/
def waits (requirement architecture : Option WorkItem) (rule : String)
    (others : List (String × String)) (hothers : ∀ e ∈ others, Text.blank e.1 = false) :
    List WorkItemDependency :=
  List.pmap (fun e he => .ofSystem e.1 ("dynamic-tail:" ++ e.2) he (Text.not_blank_append (by decide)))
    ((requirement.toList.map fun item => (item.id, rule ++ "requirement")) ++
      (architecture.toList.map fun item => (item.id, rule ++ "architecture")) ++ others) (by
    intro e he
    simp only [List.mem_append, List.mem_map] at he
    rcases he with (⟨item, -, rfl⟩ | ⟨item, -, rfl⟩) | he
    · exact item.id_not_blank
    · exact item.id_not_blank
    · exact hothers e he)

theorem waitFor_eq (hothers : ∀ e ∈ others, Text.blank e.1 = false) :
    waitFor requirement architecture rule others =
      .ok (waits requirement architecture rule others hothers) := by
  unfold waitFor waits
  rw [collect_eq_ok, List.forall₂_iff_get]
  refine ⟨by simp, fun i hi hj => ?_⟩
  simp only [List.get_eq_getElem, List.getElem_pmap]
  exact WorkItemDependency.system_eq _ _

theorem published_eq {artifactKeys : List String} (hkeys : ∀ key ∈ artifactKeys, safeId key = true) :
    published artifactKeys = .ok (List.pmap (fun key hkey =>
      (⟨{ artifactKey := key, layer := "published" }, by
        simp [RefFields.postInit, validateId, show safeId key = true from hkey]⟩ : ArtifactRef))
      artifactKeys hkeys) := by
  unfold published
  rw [collect_eq_ok, List.forall₂_iff_get]
  refine ⟨by simp, fun i hi hj => ?_⟩
  simp only [List.get_eq_getElem, List.getElem_pmap]
  exact ArtifactRef.create_eq_ok.mpr rfl

/-- An item of the tail is refused only for what it waits for. -/
theorem waiting_create_isOk_iff {raw : List WorkItemDependency → WorkItemFields} {id : String}
    (hothers : ∀ e ∈ others, Text.blank e.1 = false)
    (hpathless : ∀ deps, WorkItem.Pathless (raw deps))
    (hraw : ∀ deps, (raw deps).requirementIds = [] ∧ (raw deps).dependencies = deps ∧
      (raw deps).id = id) :
    (∃ item, (do
      let deps ← waitFor requirement architecture rule others
      WorkItem.create (raw deps)) = .ok item) ↔
        (waitedIds requirement architecture others).Nodup ∧
          id ∉ waitedIds requirement architecture others := by
  have hdeps : waitFor requirement architecture rule others =
      .ok (waits requirement architecture rule others hothers) := waitFor_eq hothers
  generalize waits requirement architecture rule others hothers = deps at hdeps
  obtain ⟨hrequirements, hwaited, hid⟩ := hraw deps
  have hids : (raw deps).dependencyIds = waitedIds requirement architecture others := by
    rw [WorkItemFields.dependencyIds, hwaited, waitFor_ok hdeps]
  rw [hdeps, ok_bind, (hpathless deps).create_isOk_iff, hrequirements, hids, hid]
  simp

/-- The fields a draft of the tail sets; the others keep their defaults. -/
def drafted (raw : WorkItemFields) : WorkItemFields where
  id := raw.id
  agentId := raw.agentId
  stageId := raw.stageId
  objective := raw.objective
  outputKey := raw.outputKey
  artifactKey := raw.artifactKey
  executionMode := raw.executionMode
  slot := raw.slot
  publishTarget := raw.publishTarget
  candidateFromWorkItemId := raw.candidateFromWorkItemId
  inputRefs := raw.inputRefs
  dependencies := raw.dependencies
  acceptanceCriteria := raw.acceptanceCriteria
  constraints := raw.constraints
  outputKind := raw.outputKind

/-- All texts of a draft, with its labels. -/
def texts (raw : WorkItemFields) : List String :=
  raw.words ++ raw.artifactKey.toList ++ raw.stageId.toList ++ raw.outputKind.toList

theorem pathless_of_drafted {raw : WorkItemFields} (hraw : raw = drafted raw)
    (htexts : ∀ text ∈ texts raw, Text.blank text = false)
    (hgrant : raw.validateExecutionGrant = .ok ()) : WorkItem.Pathless raw := by
  simp only [texts, List.forall_mem_append] at htexts
  obtain ⟨⟨⟨hwords, hartifact⟩, hstage⟩, hkind⟩ := htexts
  have hlabel {label : Option String} (h : ∀ text ∈ label.toList, Text.blank text = false) :
      label.any Text.blank = false := by
    cases label with
    | none => rfl
    | some text => exact h text List.mem_cons_self
  rw [hraw] at hwords hartifact hstage hkind hgrant ⊢
  exact {
    fresh := rfl
    paths := ⟨rfl, rfl, rfl, rfl⟩
    refs := ⟨rfl, rfl⟩
    unit := rfl
    tools := rfl
    wave := le_refl _
    words := hwords
    labels := ⟨hlabel hartifact, hlabel hstage, hlabel hkind⟩
    grant := hgrant }

/-- The other ids an item of the tail waits for are those of the contract and of the tail. -/
theorem others_not_blank (known : Option WorkItem)
    (hothers : ∀ e ∈ others, e.1 ∈ known.toList.map (·.id) ++ tailIds) :
    ∀ e ∈ others, Text.blank e.1 = false := by
  intro e he
  rcases List.mem_append.mp (hothers e he) with hknown | htail
  · obtain ⟨item, -, hid⟩ := List.mem_map.mp hknown
    rw [← hid]
    exact item.id_not_blank
  · have hall : ∀ id ∈ tailIds, Text.blank id = false := by
      simp only [tailIds, List.forall_mem_cons]
      and_intros
      all_goals first
        | exact Text.not_blank_append (Text.blank_ofList_cons (by decide))
        | exact fun _ h => absurd h List.not_mem_nil
    exact hall _ htail

/-- A draft of the tail is refused only for what it waits for. -/
theorem draft_isOk_iff {raw : List WorkItemDependency → WorkItemFields} {id : String}
    (known : Option WorkItem) (hothers : ∀ e ∈ others, e.1 ∈ known.toList.map (·.id) ++ tailIds)
    (hdrafted : ∀ deps, raw deps = drafted (raw deps))
    (hgrant : ∀ deps, (raw deps).validateExecutionGrant = .ok ())
    (hset : ∀ deps, (raw deps).requirementIds = [] ∧ (raw deps).dependencies = deps ∧
      (raw deps).id = id)
    (htexts : ∀ deps, ∀ text ∈ texts (raw deps), Text.blank text = false) :
    (∃ item, (do
      let deps ← waitFor requirement architecture rule others
      WorkItem.create (raw deps)) = .ok item) ↔
        (waitedIds requirement architecture others).Nodup ∧
          id ∉ waitedIds requirement architecture others :=
  waiting_create_isOk_iff (others_not_blank known hothers)
    (fun deps => pathless_of_drafted (hdrafted deps) (htexts deps) (hgrant deps)) hset

theorem taskPlan_isOk_iff : (∃ item, taskPlan requirement architecture contract = .ok item) ↔
    (waitedIds requirement architecture [(contract.id, "contract")]).Nodup ∧
      taskPlanId ∉ waitedIds requirement architecture [(contract.id, "contract")] := by
  obtain ⟨refs, hrefs⟩ := @published_isOk
    ["requirement", "architecture", "architecture_contract"] (by decide)
  unfold taskPlan
  rw [hrefs, ok_bind]
  refine draft_isOk_iff (some contract) (by simp [tailIds]) (fun _ => rfl) (fun _ => rfl)
    (fun _ => ⟨rfl, rfl, rfl⟩) fun _ => ?_
  unfold texts WorkItemFields.words taskPlanId tailPrefix
  dsimp only [List.cons_append, List.nil_append, Option.toList]
  simp only [List.forall_mem_cons]
  and_intros
  all_goals first
    | (repeat with_reducible apply Text.not_blank_append
       exact Text.blank_ofList_cons (by decide))
    | exact fun _ h => absurd h List.not_mem_nil

theorem taskIntegration_isOk_iff {trace : TraceContext} :
    (∃ item, taskIntegration trace = .ok item) ↔ safeId trace.traceId = true := by
  have hstaged : (∃ ref, ArtifactRef.staged "tasks" trace.traceId taskPlanId "plan" = .ok ref) ↔
      safeId trace.traceId = true := by
    rw [ArtifactRef.staged_isOk_iff, show safeId "tasks" = true by decide,
      show safeId taskPlanId = true by decide, show safeId "plan" = true by decide]
    simp
  rw [← hstaged]
  constructor
  · rintro ⟨item, h⟩
    simp only [taskIntegration, bind_eq_ok] at h
    obtain ⟨ref, href, -⟩ := h
    exact ⟨ref, href⟩
  · rintro ⟨ref, href⟩
    have hothers : ∀ e ∈ [(taskPlanId, "tasks")], Text.blank e.1 = false :=
      others_not_blank none (by simp [tailIds])
    have hdeps : waitFor none none "" [(taskPlanId, "tasks")] =
        .ok (waits none none "" _ hothers) := waitFor_eq hothers
    generalize waits none none "" _ hothers = deps at hdeps
    unfold taskIntegration
    rw [href, ok_bind, hdeps, ok_bind, WorkItem.Pathless.create_isOk_iff]
    · have hids : deps.map (·.workItemId) = [taskPlanId] := waitFor_ok hdeps
      dsimp only [WorkItemFields.dependencyIds]
      rw [hids]
      exact ⟨rfl, List.nodup_singleton _, by decide⟩
    · refine pathless_of_drafted rfl ?_ rfl
      unfold texts WorkItemFields.words taskIntegrationId tailPrefix
      dsimp only [List.cons_append, List.nil_append, Option.toList]
      simp only [List.forall_mem_cons]
      and_intros
      all_goals first
        | (repeat with_reducible apply Text.not_blank_append
           exact Text.blank_ofList_cons (by decide))
        | exact fun _ h => absurd h List.not_mem_nil

theorem taskQuality_isOk_iff : (∃ item, taskQuality = .ok item) ↔
    (waitedIds none none [(taskIntegrationId, "tasks-quality")]).Nodup ∧
      taskQualityId ∉ waitedIds none none [(taskIntegrationId, "tasks-quality")] := by
  unfold taskQuality
  refine draft_isOk_iff none (by simp [tailIds]) (fun _ => rfl) (fun _ => rfl)
    (fun _ => ⟨rfl, rfl, rfl⟩) fun _ => ?_
  unfold texts WorkItemFields.words taskQualityId tailPrefix
  dsimp only [List.cons_append, List.nil_append, Option.toList]
  simp only [List.forall_mem_cons]
  and_intros
  all_goals first
    | (repeat with_reducible apply Text.not_blank_append
       exact Text.blank_ofList_cons (by decide))
    | exact fun _ h => absurd h List.not_mem_nil

theorem environment_isOk_iff : (∃ item, environment contract = .ok item) ↔
    (waitedIds none none
      [(contract.id, "environment-contract"), (taskQualityId, "environment-tasks")]).Nodup ∧
      environmentId ∉ waitedIds none none
      [(contract.id, "environment-contract"), (taskQualityId, "environment-tasks")] := by
  obtain ⟨refs, hrefs⟩ := @published_isOk
    ["requirement", "architecture", "architecture_contract", "tasks"] (by decide)
  unfold environment
  rw [hrefs, ok_bind]
  refine draft_isOk_iff (some contract) (by simp [tailIds]) (fun _ => rfl) (fun _ => rfl)
    (fun _ => ⟨rfl, rfl, rfl⟩) fun _ => ?_
  unfold texts WorkItemFields.words environmentId tailPrefix
  dsimp only [List.cons_append, List.nil_append, Option.toList]
  simp only [List.forall_mem_cons]
  and_intros
  all_goals first
    | (repeat with_reducible apply Text.not_blank_append
       exact Text.blank_ofList_cons (by decide))
    | exact fun _ h => absurd h List.not_mem_nil

theorem codeIntegration_isOk_iff : (∃ item, codeIntegration contract = .ok item) ↔
    (waitedIds none none [(contract.id, "integration-contract"),
      (taskQualityId, "integration-tasks"), (environmentId, "integration-environment")]).Nodup ∧
      codeIntegrationId ∉ waitedIds none none [(contract.id, "integration-contract"),
      (taskQualityId, "integration-tasks"), (environmentId, "integration-environment")] := by
  unfold codeIntegration
  refine draft_isOk_iff (some contract) (by simp [tailIds]) (fun _ => rfl) (fun _ => rfl)
    (fun _ => ⟨rfl, rfl, rfl⟩) fun _ => ?_
  unfold texts WorkItemFields.words codeIntegrationId tailPrefix
  dsimp only [List.cons_append, List.nil_append, Option.toList]
  simp only [List.forall_mem_cons]
  and_intros
  all_goals first
    | (repeat with_reducible apply Text.not_blank_append
       exact Text.blank_ofList_cons (by decide))
    | exact fun _ h => absurd h List.not_mem_nil

theorem test_isOk_iff : (∃ item, test = .ok item) ↔
    (waitedIds none none [(codeIntegrationId, "test-integration"),
      (taskQualityId, "test-tasks"), (environmentId, "test-environment")]).Nodup ∧
      testId ∉ waitedIds none none [(codeIntegrationId, "test-integration"),
      (taskQualityId, "test-tasks"), (environmentId, "test-environment")] := by
  obtain ⟨refs, hrefs⟩ := @published_isOk
    ["requirement", "tasks", "environment", "implementation"] (by decide)
  unfold test
  rw [hrefs, ok_bind]
  refine draft_isOk_iff none (by simp [tailIds]) (fun _ => rfl) (fun _ => rfl)
    (fun _ => ⟨rfl, rfl, rfl⟩) fun _ => ?_
  unfold texts WorkItemFields.words testId tailPrefix
  dsimp only [List.cons_append, List.nil_append, Option.toList]
  simp only [List.forall_mem_cons]
  and_intros
  all_goals first
    | (repeat with_reducible apply Text.not_blank_append
       exact Text.blank_ofList_cons (by decide))
    | exact fun _ h => absurd h List.not_mem_nil

theorem review_isOk_iff : (∃ item, review requirement architecture contract = .ok item) ↔
    (waitedIds requirement architecture [(contract.id, "review-contract"),
      (taskQualityId, "review-tasks"), (environmentId, "review-environment"),
      (codeIntegrationId, "review-integration"), (testId, "review-test")]).Nodup ∧
      reviewId ∉ waitedIds requirement architecture [(contract.id, "review-contract"),
      (taskQualityId, "review-tasks"), (environmentId, "review-environment"),
      (codeIntegrationId, "review-integration"), (testId, "review-test")] := by
  obtain ⟨refs, hrefs⟩ := @published_isOk
    ["requirement", "architecture", "architecture_contract", "tasks", "environment",
      "implementation", "tests"] (by decide)
  unfold review
  rw [hrefs, ok_bind]
  refine draft_isOk_iff (some contract) (by simp [tailIds]) (fun _ => rfl) (fun _ => rfl)
    (fun _ => ⟨rfl, rfl, rfl⟩) fun _ => ?_
  unfold texts WorkItemFields.words reviewId tailPrefix
  dsimp only [List.cons_append, List.nil_append, Option.toList]
  simp only [List.forall_mem_cons]
  and_intros
  all_goals first
    | (repeat with_reducible apply Text.not_blank_append
       exact Text.blank_ofList_cons (by decide))
    | exact fun _ h => absurd h List.not_mem_nil

/-- The tail is built whenever its sources are distinct items of a plan without a tail. -/
theorem additions_isOk_iff {trace : TraceContext}
    (hfresh : ∀ id ∈ sources requirement architecture contract, id ∉ tailIds) :
    (∃ added, additions trace requirement architecture contract = .ok added) ↔
      safeId trace.traceId = true ∧ (sources requirement architecture contract).Nodup := by
  have hcontract : contract.id ∉ tailIds := hfresh _ (by simp [sources, waitedIds])
  constructor
  · rintro ⟨added, h⟩
    simp only [additions, bind_eq_ok] at h
    obtain ⟨plan, hplan, integration, hintegration, -⟩ := h
    exact ⟨taskIntegration_isOk_iff.mp ⟨_, hintegration⟩, (taskPlan_isOk_iff.mp ⟨_, hplan⟩).1⟩
  · rintro ⟨htrace, hnodup⟩
    obtain ⟨plan, hplan⟩ := taskPlan_isOk_iff.mpr
      ⟨hnodup, fun hmem => hfresh _ hmem (by simp [tailIds])⟩
    obtain ⟨integration, hintegration⟩ := taskIntegration_isOk_iff.mpr htrace
    obtain ⟨quality, hquality⟩ := taskQuality_isOk_iff.mpr (by decide)
    simp only [tailIds, List.mem_cons, List.not_mem_nil, or_false, not_or] at hcontract
    obtain ⟨hplanId, hintegrationId, hqualityId, henvironmentId, hcodeId, htestId, hreviewId⟩ :=
      hcontract
    obtain ⟨environment, henvironment⟩ : ∃ item, environment contract = .ok item :=
      environment_isOk_iff.mpr (by
      simp [waitedIds, hqualityId, Ne.symm henvironmentId,
        show environmentId ≠ taskQualityId by decide])
    obtain ⟨code, hcode⟩ : ∃ item, codeIntegration contract = .ok item :=
      codeIntegration_isOk_iff.mpr (by
      simp [waitedIds, hqualityId, henvironmentId, Ne.symm hcodeId,
        show taskQualityId ≠ environmentId by decide, show codeIntegrationId ≠ taskQualityId by decide,
        show codeIntegrationId ≠ environmentId by decide])
    obtain ⟨test, htest⟩ := test_isOk_iff.mpr (by decide)
    have hsources : waitedIds requirement architecture [(contract.id, "review-contract"),
        (taskQualityId, "review-tasks"), (environmentId, "review-environment"),
        (codeIntegrationId, "review-integration"), (testId, "review-test")] =
          sources requirement architecture contract ++
            [taskQualityId, environmentId, codeIntegrationId, testId] := by
      simp [sources, waitedIds]
    obtain ⟨review, hreview⟩ : ∃ item, review requirement architecture contract = .ok item :=
        review_isOk_iff.mpr (by
      rw [hsources, List.nodup_append', List.mem_append, not_or]
      have htail : ∀ id ∈ [taskQualityId, environmentId, codeIntegrationId, testId], id ∈ tailIds := by
        simp [tailIds]
      exact ⟨⟨hnodup, by decide, fun id hid hmem => hfresh id hid (htail id hmem)⟩,
        fun hmem => hfresh _ hmem (by simp [tailIds]), by decide⟩)
    exact ⟨[plan, integration, quality, environment, code, test, review], by
      simp only [additions, hplan, hintegration, hquality, henvironment, hcode, htest, hreview,
        ok_bind]⟩

/-- What the plan constructor reads of an item of the tail. -/
structure Built (item : WorkItem) (raw : WorkItemFields) (waits : List String) : Prop where
  id : item.id = raw.id
  agentId : item.agentId = raw.agentId
  dependencyIds : item.dependencyIds = waits
  mode : item.executionMode = raw.executionMode
  publishTarget : item.publishTarget = raw.publishTarget
  candidate : item.candidateFromWorkItemId = raw.candidateFromWorkItemId
  places : DeliveryContractRegistry.outputIdentities item =
    if raw.executionMode = .partitioned then
      [(raw.artifactKey.getD "", raw.slot.getD "", raw.stageId.getD "")] else []

theorem built_of_create {raw : WorkItemFields} {item : WorkItem} {key : String}
    (hdeps : waitFor requirement architecture rule others = .ok raw.dependencies)
    (h : WorkItem.create raw = .ok item) (howned : raw.ownedFiles = [])
    (hkey : raw.artifactKey = some key) (hne : key ≠ "")
    (hslot : raw.executionMode = .partitioned → raw.slot.getD "" ≠ "") :
    Built item raw (waitedIds requirement architecture others) := by
  obtain ⟨_, _, hfields⟩ := WorkItem.create_fields h
  have hartifact : item.artifactKey = some key := by
    rw [hfields, WorkItemFields.fill, hkey]
    rfl
  have hitem : item.slot = raw.slot ∧ item.ownedFiles = raw.ownedFiles ∧
      item.executionMode = raw.executionMode ∧ item.stageId = raw.stageId := by
    rw [hfields]
    exact ⟨rfl, rfl, rfl, rfl⟩
  refine ⟨by rw [hfields]; rfl, by rw [hfields]; rfl, ?_, hitem.2.2.1, by rw [hfields]; rfl,
    by rw [hfields]; rfl, ?_⟩
  · rw [hfields]
    exact waitFor_ok hdeps
  · unfold DeliveryContractRegistry.outputIdentities
    rw [hartifact, hitem.1, hitem.2.1, hitem.2.2.1, hitem.2.2.2, howned, hkey]
    by_cases hmode : raw.executionMode = .partitioned
    · simp [hmode, hne, hslot hmode]
    · simp [hmode]

/-- The added items as the plan constructor reads them. -/
structure Tail (requirement architecture : Option WorkItem) (contract : WorkItem)
    (added : List WorkItem) : Prop where
  waits : added.map (fun item => (item.id, item.dependencyIds)) =
    tailWaits requirement architecture contract
  agents : ∀ item ∈ added, item.agentId ∈ replacedAgents
  places : ∀ item ∈ added, DeliveryContractRegistry.outputIdentities item =
    if item.id = taskPlanId then [taskPlace] else []
  gates : ∀ item ∈ added, item.executionMode = .qualityGate → ∃ producer ∈ added,
    item.candidateFromWorkItemId = some producer.id ∧ producer.id ∈ item.dependencyIds ∧
      producer.executionMode = .integration ∧ producer.publishTarget = item.publishTarget

theorem tail_of_additions {trace : TraceContext} {added : List WorkItem}
    (h : additions trace requirement architecture contract = .ok added) :
    Tail requirement architecture contract added := by
  simp only [additions, bind_eq_ok] at h
  obtain ⟨plan, hplan, integration, hintegration, quality, hquality, ready, hready, code, hcode,
    tested, htested, reviewed, hreviewed, h⟩ := h
  cases h
  simp only [taskPlan, bind_eq_ok] at hplan
  obtain ⟨_, -, _, hwaits, hcreate⟩ := hplan
  have hplan := built_of_create hwaits hcreate rfl rfl (by decide) fun _ => show "plan" ≠ "" by decide
  simp only [taskIntegration, bind_eq_ok] at hintegration
  obtain ⟨_, -, _, hwaits, hcreate⟩ := hintegration
  have hintegration := built_of_create hwaits hcreate rfl rfl (by decide) fun h => by cases h
  simp only [taskQuality, bind_eq_ok] at hquality
  obtain ⟨_, hwaits, hcreate⟩ := hquality
  have hquality := built_of_create hwaits hcreate rfl rfl (by decide) fun h => by cases h
  simp only [environment, bind_eq_ok] at hready
  obtain ⟨_, -, _, hwaits, hcreate⟩ := hready
  have hready := built_of_create hwaits hcreate rfl rfl (by decide) fun h => by cases h
  simp only [codeIntegration, bind_eq_ok] at hcode
  obtain ⟨_, hwaits, hcreate⟩ := hcode
  have hcode := built_of_create hwaits hcreate rfl rfl (by decide) fun h => by cases h
  simp only [test, bind_eq_ok] at htested
  obtain ⟨_, -, _, hwaits, hcreate⟩ := htested
  have htested := built_of_create hwaits hcreate rfl rfl (by decide) fun h => by cases h
  simp only [review, bind_eq_ok] at hreviewed
  obtain ⟨_, -, _, hwaits, hcreate⟩ := hreviewed
  have hreviewed := built_of_create hwaits hcreate rfl rfl (by decide) fun h => by cases h
  constructor
  · simp only [List.map_cons, List.map_nil, tailWaits, hplan.id, hplan.dependencyIds,
      hintegration.id, hintegration.dependencyIds, hquality.id, hquality.dependencyIds,
      hready.id, hready.dependencyIds, hcode.id, hcode.dependencyIds, htested.id,
      htested.dependencyIds, hreviewed.id, hreviewed.dependencyIds]
    simp [sources, waitedIds]
  · simp only [List.forall_mem_cons, hplan.agentId, hintegration.agentId, hquality.agentId,
      hready.agentId, hcode.agentId, htested.agentId, hreviewed.agentId]
    simp [replacedAgents]
  · simp only [List.forall_mem_cons, hplan.places, hintegration.places, hquality.places,
      hready.places, hcode.places, htested.places, hreviewed.places, hplan.id, hintegration.id,
      hquality.id, hready.id, hcode.id, htested.id, hreviewed.id]
    refine ⟨rfl, rfl, rfl, rfl, rfl, rfl, rfl, by simp⟩
  · simp only [List.forall_mem_cons, hplan.mode, hintegration.mode, hquality.mode,
      hready.mode, hcode.mode, htested.mode, hreviewed.mode]
    have hother {p : Prop} {mode : ExecutionMode} (hmode : mode ≠ .qualityGate) :
        mode = .qualityGate → p := fun h => absurd h hmode
    refine ⟨hother (by decide), hother (by decide), fun _ => ⟨integration, by simp, ?_⟩,
      hother (by decide), hother (by decide), hother (by decide), hother (by decide), by simp⟩
    rw [hquality.candidate, hintegration.id, hquality.dependencyIds, hintegration.mode,
      hintegration.publishTarget, hquality.publishTarget]
    exact ⟨rfl, by simp [waitedIds], rfl, rfl⟩

end additions

section acceptance
variable {plan : ExecutionPlan} {contractId : String} {requirementId architectureId : Option String}
  {requirement architecture : Option WorkItem} {contract : WorkItem} {added : List WorkItem}

/-- The item a caller names, else the only one that matches, else none. -/
inductive Resolved (plan : ExecutionPlan) (predicate : WorkItem → Bool) :
    Option String → Option WorkItem → Prop where
  | named {item : WorkItem} : item ∈ plan.workItems → Resolved plan predicate (some item.id) (some item)
  | only {item : WorkItem} : item ∈ plan.workItems → predicate item = true →
      (∀ other ∈ plan.workItems, predicate other = true → other = item) →
      Resolved plan predicate none (some item)
  | absent : (∀ item ∈ plan.workItems, predicate item = false) → Resolved plan predicate none none

theorem Resolved.mem {predicate : WorkItem → Bool} {itemId : Option String} {item : WorkItem}
    (h : Resolved plan predicate itemId (some item)) : item ∈ plan.workItems := by
  cases h with
  | named hmem => exact hmem
  | only hmem _ _ => exact hmem

theorem resolveItem_eq_ok {predicate : WorkItem → Bool} {itemId : Option String}
    {found : Option WorkItem} :
    resolveItem plan itemId predicate = .ok found ↔ Resolved plan predicate itemId found := by
  unfold resolveItem
  constructor
  · intro h
    split at h
    · split at h
      · cases h
      · rename_i item hitem
        cases h
        obtain ⟨hmem, rfl⟩ := plan.workItem_eq_some_iff.mp hitem
        exact .named hmem
    · split at h
      · rename_i hnone
        cases h
        exact .absent fun item hitem => by simpa using List.filter_eq_nil_iff.mp hnone item hitem
      · rename_i item hitem
        cases h
        have hall (other : WorkItem) : (other ∈ plan.workItems ∧ predicate other = true) ↔
            other = item := by
          rw [← List.mem_filter, hitem, List.mem_singleton]
        obtain ⟨hmem, hpredicate⟩ := (hall item).mpr rfl
        exact .only hmem hpredicate fun other hother hmatch => (hall other).mp ⟨hother, hmatch⟩
      · cases h
  · intro h
    cases h with
    | named hmem => simp only [plan.workItem_eq_some_iff.mpr ⟨hmem, rfl⟩]
    | @only item hmem hpredicate honly =>
      have hnodup : (plan.workItems.filter predicate).Nodup :=
        plan.itemIds_nodup.of_map.filter predicate
      have hall : ∀ other ∈ plan.workItems.filter predicate, other = item := fun other hother =>
        honly other (List.mem_of_mem_filter hother) (List.mem_filter.mp hother).2
      have hmem' : item ∈ plan.workItems.filter predicate := List.mem_filter.mpr ⟨hmem, hpredicate⟩
      have hsingle : plan.workItems.filter predicate = [item] := by
        rw [List.eq_replicate_of_mem hall] at hmem' hnodup ⊢
        rw [List.nodup_replicate] at hnodup
        have hpos := List.length_pos_of_mem hmem'
        rw [List.length_replicate] at hpos
        rw [le_antisymm hnodup hpos]
        rfl
      simp only [hsingle]
    | absent hnone =>
      have hempty : plan.workItems.filter predicate = [] :=
        List.filter_eq_nil_iff.mpr fun item hitem => by simp [hnone item hitem]
      simp only [hempty]

/-- What stays of the plan can do without what the tail replaces. -/
structure Extendable (plan : ExecutionPlan) (requirement architecture : Option WorkItem)
    (contract : WorkItem) : Prop where
  trace : safeId plan.trace.traceId = true
  apart : (sources requirement architecture contract).Nodup
  attached : ∀ item ∈ plan.workItems, item.id ∈ sources requirement architecture contract →
    isReplaced item = false
  closed : ∀ item ∈ plan.workItems, isReplaced item = false →
    ∀ other ∈ plan.workItems, other.id ∈ item.dependencyIds → isReplaced other = false
  free : ∀ item ∈ plan.workItems, isReplaced item = false →
    taskPlace ∉ DeliveryContractRegistry.outputIdentities item

theorem mem_preserved {item : WorkItem} :
    item ∈ preserved plan ↔ item ∈ plan.workItems ∧ isReplaced item = false := by
  simp [preserved]

theorem startswith_of_tailIds : ∀ id ∈ tailIds, Text.startswith id tailPrefix = true := by
  simp only [tailIds, List.forall_mem_cons, List.not_mem_nil, false_implies, implies_true, and_true]
  refine ⟨?_, ?_, ?_, ?_, ?_, ?_, ?_⟩ <;> exact Text.startswith_append _ _

theorem not_tailId (hnone : plan.workItems.any isTailItem = false) {id : String}
    (hid : id ∈ plan.itemIds) : id ∉ tailIds := by
  intro htail
  obtain ⟨item, hitem, rfl⟩ := List.mem_map.mp hid
  have hmarked : isTailItem item = true := startswith_of_tailIds _ htail
  exact List.any_eq_false.mp hnone item hitem hmarked

/-- The edges within the tail. -/
def tailEdges : List (String × List String) := [
  (taskPlanId, []),
  (taskIntegrationId, [taskPlanId]),
  (taskQualityId, [taskIntegrationId]),
  (environmentId, [taskQualityId]),
  (codeIntegrationId, [taskQualityId, environmentId]),
  (testId, [codeIntegrationId, taskQualityId, environmentId]),
  (reviewId, [taskQualityId, environmentId, codeIntegrationId, testId])]

/-- An item of the tail waits for the sources and for earlier items of the tail. -/
theorem waits_of_tail {id d : String} {deps : List String}
    (h : (id, deps) ∈ tailWaits requirement architecture contract) (hd : d ∈ deps) :
    d ∈ sources requirement architecture contract ∨
      (d ∈ tailIds ∧ tailIds.idxOf d < tailIds.idxOf id) := by
  have hcontract : contract.id ∈ sources requirement architecture contract := by
    simp [sources, waitedIds]
  have hedges : List.Forall₂ (fun e e' : String × List String => e.1 = e'.1 ∧
      ∀ d ∈ e.2, d ∈ sources requirement architecture contract ∨ d ∈ e'.2)
      (tailWaits requirement architecture contract) tailEdges := by
    unfold tailWaits tailEdges
    simp only [List.forall₂_cons, List.Forall₂.nil, true_and, and_true, List.forall_mem_append]
    refine ⟨fun d hd => .inl hd, ?_, ?_, ?_, ?_, ?_, fun d hd => .inl hd, ?_⟩ <;> simp [hcontract]
  have hearlier : ∀ e ∈ tailEdges, ∀ d ∈ e.2,
      d ∈ tailIds ∧ tailIds.idxOf d < tailIds.idxOf e.1 := by
    decide +kernel
  obtain ⟨e, he, hid, hcases⟩ := exists_right_of_forall₂ hedges h
  dsimp only at hid hcases
  rw [hid]
  exact (hcases d hd).imp_right fun hmem => hearlier e he d hmem

namespace Tail
variable (h : Tail requirement architecture contract added)
include h

theorem map_id : added.map (·.id) = tailIds := by
  have hmap := congrArg (List.map Prod.fst) h.waits
  rw [List.map_map] at hmap
  exact hmap

theorem id_mem {item : WorkItem} (hitem : item ∈ added) : item.id ∈ tailIds :=
  h.map_id ▸ List.mem_map_of_mem hitem

theorem exists_item {e : String × List String}
    (he : e ∈ tailWaits requirement architecture contract) :
    ∃ item ∈ added, item.id = e.1 ∧ item.dependencyIds = e.2 := by
  rw [← h.waits] at he
  obtain ⟨item, hitem, rfl⟩ := List.mem_map.mp he
  exact ⟨item, hitem, rfl, rfl⟩

theorem waits_for {item : WorkItem} (hitem : item ∈ added) {d : String}
    (hd : d ∈ item.dependencyIds) : d ∈ sources requirement architecture contract ∨
      (d ∈ tailIds ∧ tailIds.idxOf d < tailIds.idxOf item.id) :=
  waits_of_tail (h.waits ▸ List.mem_map_of_mem hitem) hd

theorem no_contract {item : WorkItem} (hitem : item ∈ added) :
    DeliveryContractRegistry.contractFor item.role = none := by
  refine DeliveryContractRegistry.contractFor_of_other_agent fun heq => ?_
  have hagent : item.role.agentId ∈ replacedAgents := h.agents item hitem
  rw [heq] at hagent
  revert hagent
  decide

/-- The items of the plan with a tail keep their ids apart. -/
theorem distinct (hnone : plan.workItems.any isTailItem = false) :
    (plan.withItems (preserved plan ++ added)).itemIds.Nodup := by
  rw [PlanFields.itemIds, PlanFields.withItems, List.map_append, h.map_id, List.nodup_append']
  refine ⟨plan.itemIds_nodup.sublist (List.filter_sublist.map _), by decide, fun id hid => ?_⟩
  obtain ⟨item, hitem, rfl⟩ := List.mem_map.mp hid
  exact not_tailId hnone (List.mem_map_of_mem (mem_preserved.mp hitem).1)

/-- An item of the plan that is known in the new one was not replaced. -/
theorem kept_of_known (hnone : plan.workItems.any isTailItem = false) {item : WorkItem}
    (hitem : item ∈ plan.workItems)
    (hknown : item.id ∈ (plan.withItems (preserved plan ++ added)).itemIds) :
    isReplaced item = false := by
  rw [PlanFields.itemIds, PlanFields.withItems, List.map_append, h.map_id, List.mem_append] at hknown
  rcases hknown with hkept | htail
  · obtain ⟨other, hother, hid⟩ := List.mem_map.mp hkept
    obtain ⟨hmem, hnot⟩ := mem_preserved.mp hother
    rwa [← plan.eq_of_id_eq hmem hitem hid]
  · exact absurd htail (not_tailId hnone (List.mem_map_of_mem hitem))

theorem place_of_added {item : WorkItem} (hitem : item ∈ added)
    {place : DeliveryContractRegistry.OutputIdentity}
    (hplace : place ∈ DeliveryContractRegistry.outputIdentities item) :
    item.id = taskPlanId ∧ place = taskPlace := by
  rw [h.places item hitem] at hplace
  split at hplace
  · rename_i hid
    exact ⟨hid, List.mem_singleton.mp hplace⟩
  · cases hplace

omit h in
theorem waits_iff {a b : String} :
    (plan.withItems (preserved plan ++ added)).WaitsFor a b ↔
      (∃ item ∈ preserved plan, item.id = a ∧ b ∈ item.dependencyIds) ∨
        ∃ item ∈ added, item.id = a ∧ b ∈ item.dependencyIds := by
  simp only [PlanFields.WaitsFor, PlanFields.withItems, List.mem_append, or_and_right, exists_or]

/-- Above the kept items come those of the tail, each behind what it waits for. -/
theorem irrefl (hnone : plan.workItems.any isTailItem = false)
    (hsources : ∀ id ∈ sources requirement architecture contract, id ∈ plan.itemIds) (a : String) :
    ¬ TransGen (plan.withItems (preserved plan ++ added)).WaitsFor a a := by
  let level (id : String) : Nat := if id ∈ tailIds then tailIds.idxOf id + 1 else 0
  have hlow {id : String} (hid : id ∈ plan.itemIds) : level id = 0 :=
    if_neg (not_tailId hnone hid)
  have htail {id : String} (hid : id ∈ tailIds) : level id = tailIds.idxOf id + 1 := if_pos hid
  have hkept {a b : String} (h : ∃ item ∈ preserved plan, item.id = a ∧ b ∈ item.dependencyIds) :
      plan.WaitsFor a b ∧ level a = 0 ∧ level b = 0 := by
    obtain ⟨item, hitem, rfl, hb⟩ := h
    have hmem := (mem_preserved.mp hitem).1
    have hwaits : plan.WaitsFor item.id b := ⟨item, hmem, rfl, hb⟩
    exact ⟨hwaits, hlow (List.mem_map_of_mem hmem), hlow (plan.wellFormed.known _ _ hwaits)⟩
  have hadded {a b : String} (hab : ∃ item ∈ added, item.id = a ∧ b ∈ item.dependencyIds) :
      level b < level a := by
    obtain ⟨item, hitem, rfl, hb⟩ := hab
    rw [htail (h.id_mem hitem)]
    rcases h.waits_for hitem hb with hsource | ⟨hmem, hlt⟩
    · rw [hlow (hsources b hsource)]
      omega
    · rw [htail hmem]
      omega
  refine Reachability.irrefl_of_levels level (fun hab => ?_) fun n x hloop => ?_
  · rcases waits_iff.mp hab with hold | hnew
    · rw [(hkept hold).2.1, (hkept hold).2.2]
    · exact (hadded hnew).le
  · refine plan.wellFormed.acyclic x (TransGen.mono (fun a b hab => ?_) _ _ hloop)
    rcases waits_iff.mp hab.1 with hold | hnew
    · exact (hkept hold).1
    · have := hadded hnew
      omega

omit h in
theorem carries (hclosed : ∀ item ∈ plan.workItems, isReplaced item = false →
      ∀ other ∈ plan.workItems, other.id ∈ item.dependencyIds → isReplaced other = false) :
    plan.Carries (plan.withItems (preserved plan ++ added)) fun item => isReplaced item = false where
  trace := rfl
  renewed item hitem hkept :=
    ⟨item, List.mem_append_left _ (mem_preserved.mpr ⟨hitem, hkept⟩), .refl item⟩
  closed := hclosed

theorem wellFormed (hnone : plan.workItems.any isTailItem = false)
    (hsources : ∀ id ∈ sources requirement architecture contract, id ∈ plan.itemIds)
    (hext : Extendable plan requirement architecture contract) :
    (plan.withItems (preserved plan ++ added)).WellFormed := by
  have hplan := plan.wellFormed
  have hcarries : plan.Carries (plan.withItems (preserved plan ++ added))
      fun item => isReplaced item = false := carries hext.closed
  have hitems {item : WorkItem} (hitem : item ∈ (plan.withItems (preserved plan ++ added)).workItems) :
      (item ∈ plan.workItems ∧ isReplaced item = false) ∨ item ∈ added :=
    (List.mem_append.mp hitem).imp_left mem_preserved.mp
  have hids : (plan.withItems (preserved plan ++ added)).itemIds =
      (preserved plan).map (·.id) ++ tailIds := by
    rw [PlanFields.itemIds, PlanFields.withItems, List.map_append, h.map_id]
  have hkept_known {item : WorkItem} (hitem : item ∈ plan.workItems) (hkept : isReplaced item = false) :
      item.id ∈ (plan.withItems (preserved plan ++ added)).itemIds := by
    rw [hids]
    exact List.mem_append_left _ (List.mem_map_of_mem (mem_preserved.mpr ⟨hitem, hkept⟩))
  constructor
  case id => exact hplan.id
  case goal => exact hplan.goal
  case templateId => exact hplan.templateId
  case processId => exact hplan.processId
  case nonempty =>
    obtain ⟨item, hitem, -⟩ := h.exists_item List.mem_cons_self
    exact List.ne_nil_of_mem (List.mem_append_right _ hitem)
  case distinct => exact h.distinct hnone
  case contracts =>
    intro item hitem
    rcases hitems hitem with ⟨hmem, -⟩ | hadded
    · exact hplan.contracts item hmem
    · rw [DeliveryContractRegistry.validateWorkItem, h.no_contract hadded]
  case places =>
    have hcross {a b : WorkItem} (ha : a ∈ plan.workItems ∧ isReplaced a = false) (hb : b ∈ added)
        {place : DeliveryContractRegistry.OutputIdentity}
        (hplace : place ∈ DeliveryContractRegistry.outputIdentities a)
        (hplace' : place ∈ DeliveryContractRegistry.outputIdentities b) : False := by
      rw [(h.place_of_added hb hplace').2] at hplace
      exact hext.free a ha.1 ha.2 hplace
    intro a ha b hb place hplace hplace'
    rcases hitems ha with hkeptA | haddedA <;> rcases hitems hb with hkeptB | haddedB
    · exact hplan.places a hkeptA.1 b hkeptB.1 place hplace hplace'
    · exact (hcross hkeptA haddedB hplace hplace').elim
    · exact (hcross hkeptB haddedA hplace' hplace).elim
    · have hid := (h.place_of_added haddedA hplace).1.trans (h.place_of_added haddedB hplace').1.symm
      exact List.inj_on_of_nodup_map (h.distinct hnone) ha hb hid
  case known =>
    intro a b hab
    rcases waits_iff.mp hab with ⟨item, hitem, rfl, hb⟩ | ⟨item, hitem, rfl, hb⟩
    · obtain ⟨hmem, hkept⟩ := mem_preserved.mp hitem
      obtain ⟨other, hother, rfl⟩ := List.mem_map.mp (plan.dependency_known hmem hb)
      exact hkept_known hother (hext.closed item hmem hkept other hother hb)
    · rcases h.waits_for hitem hb with hsource | ⟨htail, -⟩
      · obtain ⟨other, hother, rfl⟩ := List.mem_map.mp (hsources b hsource)
        exact hkept_known hother (hext.attached other hother hsource)
      · rw [hids]
        exact List.mem_append_right _ htail
  case acyclic => exact h.irrefl hnone hsources
  case candidates =>
    intro item hitem hgate
    rcases hitems hitem with ⟨hmem, hkept⟩ | hadded
    · obtain ⟨producer, hproducer⟩ := hplan.candidates item hmem hgate
      exact hcarries.candidate hmem hkept (.refl item) hproducer
    · obtain ⟨producer, hproducer, hnamed, hdirect, hmode, htarget⟩ := h.gates item hadded hgate
      exact ⟨producer, List.mem_append_right _ hproducer, hnamed, hdirect, hmode, htarget⟩
  case inputs =>
    intro item hitem hmode consumer hconsumer ref href hstaged
    rcases hitems hitem with ⟨hmem, hkept⟩ | hadded
    · obtain ⟨producer, hproducer⟩ := hplan.inputs item hmem hmode consumer hconsumer ref href
        (hcarries.stagedHere.mp hstaged)
      exact hcarries.producer hplan hmem hkept (.refl item) hproducer
    · rw [h.no_contract hadded] at hconsumer
      cases hconsumer

theorem extendable_of_wellFormed (hnone : plan.workItems.any isTailItem = false)
    (htrace : safeId plan.trace.traceId = true)
    (hapart : (sources requirement architecture contract).Nodup)
    (hwell : (plan.withItems (preserved plan ++ added)).WellFormed) :
    Extendable plan requirement architecture contract := by
  obtain ⟨first, hfirst, hid, hwaits⟩ := h.exists_item List.mem_cons_self
  dsimp only at hid hwaits
  constructor
  case trace => exact htrace
  case apart => exact hapart
  case attached =>
    intro item hitem hsource
    refine h.kept_of_known hnone hitem (hwell.known first.id item.id ?_)
    exact waits_iff.mpr (.inr ⟨first, hfirst, rfl, hwaits ▸ hsource⟩)
  case closed =>
    intro item hitem hkept other hother hd
    refine h.kept_of_known hnone hother (hwell.known item.id other.id ?_)
    exact waits_iff.mpr (.inl ⟨item, mem_preserved.mpr ⟨hitem, hkept⟩, rfl, hd⟩)
  case free =>
    intro item hitem hkept hplace
    have hplace' : taskPlace ∈ DeliveryContractRegistry.outputIdentities first := by
      rw [h.places first hfirst, if_pos hid]
      exact List.mem_singleton_self _
    have hsame := hwell.places item (List.mem_append_left _ (mem_preserved.mpr ⟨hitem, hkept⟩)) first
      (List.mem_append_right _ hfirst) taskPlace hplace hplace'
    refine not_tailId hnone (List.mem_map_of_mem hitem) ?_
    rw [hsame]
    exact h.id_mem hfirst

end Tail

theorem sources_planned (hrequirement : Resolved plan isRequirementItem requirementId requirement)
    (harchitecture : Resolved plan isArchitectureItem architectureId architecture)
    (hcontract : contract ∈ plan.workItems) :
    ∀ id ∈ sources requirement architecture contract, id ∈ plan.itemIds := by
  have hplanned {found : Option WorkItem} (h : ∀ item ∈ found, item ∈ plan.workItems) :
      ∀ id ∈ found.toList.map (·.id), id ∈ plan.itemIds := by
    intro id hid
    obtain ⟨item, hitem, rfl⟩ := List.mem_map.mp hid
    exact List.mem_map_of_mem (h item (Option.mem_toList.mp hitem))
  intro id hid
  simp only [sources, waitedIds, List.mem_append, List.map_cons, List.map_nil,
    List.mem_singleton] at hid
  rcases hid with (hid | hid) | rfl
  · exact hplanned (fun item hitem => Resolved.mem (hitem ▸ hrequirement)) id hid
  · exact hplanned (fun item hitem => Resolved.mem (hitem ▸ harchitecture)) id hid
  · exact List.mem_map_of_mem hcontract

theorem expand_isOk_iff (hnone : plan.workItems.any isTailItem = false)
    (hcontract : contract ∈ plan.workItems) :
    (∃ expansion, expand plan contract requirementId architectureId = .ok expansion) ↔
      ∃ requirement architecture, Resolved plan isRequirementItem requirementId requirement ∧
        Resolved plan isArchitectureItem architectureId architecture ∧
        Extendable plan requirement architecture contract := by
  constructor
  · rintro ⟨expansion, h⟩
    simp only [expand, bind_eq_ok, resolveItem_eq_ok] at h
    obtain ⟨requirement, hrequirement, architecture, harchitecture, added, hadded, _, -, expanded,
      hexpanded, -⟩ := h
    have hsources := sources_planned hrequirement harchitecture hcontract
    have hbuilt := (additions_isOk_iff fun id hid => not_tailId hnone (hsources id hid)).mp
      ⟨added, hadded⟩
    exact ⟨requirement, architecture, hrequirement, harchitecture,
      (tail_of_additions hadded).extendable_of_wellFormed hnone hbuilt.1 hbuilt.2
        ((ExecutionPlan.create_isOk_iff.trans PlanFields.postInit_iff_wellFormed).mp
          ⟨expanded, hexpanded⟩)⟩
  · rintro ⟨requirement, architecture, hrequirement, harchitecture, hext⟩
    have hsources := sources_planned hrequirement harchitecture hcontract
    obtain ⟨added, hadded⟩ := (additions_isOk_iff fun id hid => not_tailId hnone (hsources id hid)).mpr
      ⟨hext.trace, hext.apart⟩
    have htail := tail_of_additions hadded
    have hfree : added.filter (fun item => item.id ∈ (preserved plan).map (·.id)) = [] := by
      refine List.filter_eq_nil_iff.mpr fun item hitem hmem => ?_
      obtain ⟨other, hother, hid⟩ := List.mem_map.mp (of_decide_eq_true hmem)
      exact not_tailId hnone (List.mem_map_of_mem (mem_preserved.mp hother).1)
        (hid ▸ htail.id_mem hitem)
    obtain ⟨expanded, hexpanded⟩ :=
      (ExecutionPlan.create_isOk_iff.trans PlanFields.postInit_iff_wellFormed).mpr
        (htail.wellFormed hnone hsources hext)
    refine ⟨⟨expanded, added.map (·.id)⟩, ?_⟩
    unfold expand
    rw [resolveItem_eq_ok.mpr hrequirement, ok_bind, resolveItem_eq_ok.mpr harchitecture, ok_bind,
      hadded, ok_bind]
    dsimp only
    rw [hfree]
    simp only [PlanFields.withItems] at hexpanded
    simp [hexpanded]

theorem contractOf_eq_ok :
    contractOf plan contractId = .ok contract ↔ contract ∈ plan.workItems ∧ contract.id = contractId := by
  rw [← plan.workItem_eq_some_iff, contractOf]
  cases plan.workItem contractId with
  | none => simp
  | some found => simp

theorem append_isOk (hnone : plan.workItems.any isTailItem = false)
    (hcontract : contract ∈ plan.workItems)
    (hrequirement : Resolved plan isRequirementItem requirementId requirement)
    (harchitecture : Resolved plan isArchitectureItem architectureId architecture)
    (hext : Extendable plan requirement architecture contract) :
    ∃ expansion, append plan contract.id requirementId architectureId = .ok expansion := by
  obtain ⟨expansion, hexpand⟩ := (expand_isOk_iff hnone hcontract).mpr
    ⟨requirement, architecture, hrequirement, harchitecture, hext⟩
  refine ⟨expansion, ?_⟩
  rw [append, contractOf_eq_ok.mpr ⟨hcontract, rfl⟩, ok_bind, if_neg (by rw [hnone]; exact Bool.false_ne_true), hexpand]

/-- A plan takes the tail exactly when it has one already or can do without the items
that the tail replaces. -/
theorem append_isOk_iff (plan : ExecutionPlan) (contractId : String)
    (requirementId architectureId : Option String) :
    (∃ expansion, append plan contractId requirementId architectureId = .ok expansion) ↔
      ∃ contract ∈ plan.workItems, contract.id = contractId ∧
        (plan.workItems.any isTailItem = true ∨ ∃ requirement architecture,
          Resolved plan isRequirementItem requirementId requirement ∧
          Resolved plan isArchitectureItem architectureId architecture ∧
          Extendable plan requirement architecture contract) := by
  constructor
  · rintro ⟨expansion, h⟩
    simp only [append, bind_eq_ok, contractOf_eq_ok] at h
    obtain ⟨contract, ⟨hmem, hid⟩, h⟩ := h
    refine ⟨contract, hmem, hid, ?_⟩
    split at h
    · rename_i htail
      exact .inl htail
    · rename_i htail
      exact .inr ((expand_isOk_iff (Bool.eq_false_of_not_eq_true htail) hmem).mp ⟨expansion, h⟩)
  · rintro ⟨contract, hmem, rfl, hcases⟩
    cases htail : plan.workItems.any isTailItem with
    | true =>
      refine ⟨⟨plan, []⟩, ?_⟩
      rw [append, contractOf_eq_ok.mpr ⟨hmem, rfl⟩, ok_bind, if_pos htail]
    | false =>
      obtain ⟨requirement, architecture, hrequirement, harchitecture, hext⟩ :=
        hcases.resolve_left (by simp [htail])
      exact append_isOk htail hmem hrequirement harchitecture hext

end acceptance

end ProjectOS.Planner.DynamicDeliveryTailBuilder
