import ProjectOS.Artifact.Ref
import ProjectOS.Orchestration.DeliveryRegistry
import ProjectOS.Orchestration.Failure
import ProjectOS.Orchestration.PathPattern
import ProjectOS.Base.Dict

/-! Work items: the checks of the constructor, the values it fills in, and the
type of accepted items. -/
namespace ProjectOS.Orchestration
open Base Artifact

inductive DependencySource where
  | system
  | template
  | planner
deriving DecidableEq, Repr

def DependencySource.value : DependencySource → String
  | system => "system"
  | template => "template"
  | planner => "planner"

def DependencySource.all : List DependencySource := [system, template, planner]

def DependencySource.parse (text : String) : Result DependencySource :=
  enumMember "DependencySource" all value text

@[simp] theorem DependencySource.parse_value (source : DependencySource) :
    parse source.value = .ok source := by
  cases source <;> decide

structure DependencyFields where
  workItemId : String
  source : DependencySource
  ruleId : Option String := none
deriving DecidableEq

def DependencyFields.postInit (raw : DependencyFields) : Result Unit := do
  raiseWhen (Text.blank raw.workItemId) "WorkItemDependency.work_item_id 不能为空"
  raiseWhen (raw.ruleId.any Text.blank) "WorkItemDependency.rule_id 不能是空字符串"

/-- Why one item waits for another. -/
structure WorkItemDependency extends DependencyFields where
  accepted : toDependencyFields.postInit = .ok ()

instance : DecidableEq WorkItemDependency := fun a b =>
  decidable_of_iff (a.toDependencyFields = b.toDependencyFields) (by cases a; cases b; simp)

def WorkItemDependency.create (raw : DependencyFields) : Result WorkItemDependency :=
  match h : raw.postInit with
  | .ok () => .ok ⟨raw, h⟩
  | .error e => .error e

theorem WorkItemDependency.create_eq_ok {raw : DependencyFields} {dep : WorkItemDependency} :
    create raw = .ok dep ↔ dep.toDependencyFields = raw := by
  unfold create
  split
  · rename_i h
    constructor
    · rintro h'
      cases h'
      rfl
    · intro h'
      subst h'
      rfl
  · rename_i e h
    simp only [reduceCtorEq, false_iff]
    rintro rfl
    rw [dep.accepted] at h
    cases h

/-- A dependency the control plane adds, with the rule that asks for it. -/
def WorkItemDependency.system (workItemId ruleId : String) : Result WorkItemDependency :=
  create { workItemId := workItemId, source := .system, ruleId := some ruleId }

structure WorkItemFields where
  id : String
  agentId : String
  objective : String
  outputKey : String
  artifactKey : Option String := none
  failurePackage : Option FailurePackage := none
  dependencies : List WorkItemDependency := []
  acceptanceCriteria : List String := []
  constraints : List String := []
  nonGoals : List String := []
  executionMode : ExecutionMode := .exclusive
  inputRefs : List ArtifactRef := []
  slot : Option String := none
  publishTarget : Option String := none
  candidateFromWorkItemId : Option String := none
  implementationUnitId : Option String := none
  allowedPaths : List String := []
  forbiddenPaths : List String := []
  requiredPaths : List String := []
  policyRefs : List String := []
  skillRefs : List String := []
  requirementIds : List String := []
  wave : Int := 0
  ownedFiles : List String := []
  deliveryContract : Option (List (String × Json)) := none
  outputKind : Option String := none
  stageId : Option String := none
  requiredTools : List String := []
  contractDigest : Option String := none
  legacyContractDigest : Bool := false

namespace WorkItemFields

def dependencyIds (item : WorkItemFields) : List String := item.dependencies.map (·.workItemId)

def role (item : WorkItemFields) : DeliveryRole where
  agentId := item.agentId
  executionMode := item.executionMode
  slot := item.slot
  workItemId := some item.id
  stageId := item.stageId
  publishTarget := item.publishTarget

def defaultOutputKind : ExecutionMode → String
  | .partitioned => "partition_artifact"
  | .integration => "integrated_artifact"
  | .qualityGate => "quality_report"
  | .exclusive => "exclusive_artifact"

def missing (value : Option String) : Bool :=
  match value with
  | some text => Text.blank text
  | none => true

def validateExecutionGrant (item : WorkItemFields) : Result Unit :=
  match item.executionMode with
  | .partitioned => do
      raiseWhen (missing item.slot) "PARTITIONED WorkItem 必须指定 slot"
      raiseWhen (item.publishTarget.isSome || item.candidateFromWorkItemId.isSome)
        "PARTITIONED WorkItem 不能携带发布授权"
  | .integration => do
      raiseWhen (missing item.publishTarget) "INTEGRATION WorkItem 必须指定 publish_target"
      raiseWhen (item.slot.isSome || item.candidateFromWorkItemId.isSome)
        "INTEGRATION WorkItem 不能携带暂存或质量门授权"
  | .qualityGate => do
      raiseWhen (missing item.publishTarget) "QUALITY_GATE WorkItem 必须指定 publish_target"
      raiseWhen (missing item.candidateFromWorkItemId)
        "QUALITY_GATE WorkItem 必须指定候选来源工作项"
      raiseWhen item.slot.isSome "QUALITY_GATE WorkItem 不能携带暂存 slot"
  | .exclusive =>
      raiseWhen (item.slot.isSome || item.publishTarget.isSome ||
        item.candidateFromWorkItemId.isSome) "EXCLUSIVE WorkItem 不能携带分区、集成或发布授权"

def digestPayload (item : WorkItemFields) (includeRequiredTools : Bool) : Json := .obj ([
  ("agent_id", .str item.agentId),
  ("execution_mode", .str item.executionMode.value),
  ("input_refs", .strs (item.inputRefs.map (·.refId))),
  ("dependencies", .arr (item.dependencies.map fun dep => .obj [
    ("work_item_id", .str dep.workItemId),
    ("source", .str dep.source.value),
    ("rule_id", .optStr dep.ruleId)])),
  ("output_key", .str item.outputKey),
  ("artifact_key", .optStr item.artifactKey),
  ("slot", .optStr item.slot),
  ("publish_target", .optStr item.publishTarget),
  ("candidate_from_work_item_id", .optStr item.candidateFromWorkItemId),
  ("implementation_unit_id", .optStr item.implementationUnitId),
  ("required_paths", .strs item.requiredPaths),
  ("owned_files", .strs item.ownedFiles),
  ("allowed_paths", .strs item.allowedPaths),
  ("forbidden_paths", .strs item.forbiddenPaths),
  ("acceptance_criteria", .strs item.acceptanceCriteria),
  ("constraints", .strs item.constraints),
  ("non_goals", .strs item.nonGoals),
  ("policy_refs", .strs item.policyRefs),
  ("skill_refs", .strs item.skillRefs),
  ("requirement_ids", .strs item.requirementIds),
  ("delivery_contract", match item.deliveryContract with
    | some fields => .obj fields
    | none => .null),
  ("output_kind", .optStr item.outputKind)] ++
  (if includeRequiredTools then [("required_tools", .strs item.requiredTools)] else []) ++
  (match item.stageId with
    | some stage => [("stage_id", .str stage)]
    | none => []))

def computeContractDigest (item : WorkItemFields) (includeRequiredTools : Bool := true) : String :=
  Sha256.sha256 (digestPayload item includeRequiredTools).dumps

def checkIdentity (item : WorkItemFields) : Result Unit := do
  forEach (fun field => raiseWhen (Text.blank field.2) ("WorkItem." ++ field.1 ++ " 不能为空"))
    [("id", item.id), ("agent_id", item.agentId), ("objective", item.objective),
      ("output_key", item.outputKey)]
  raiseWhen (item.artifactKey.any Text.blank) "WorkItem.artifact_key 不能为空"
  forEach (fun field =>
      raiseWhen (field.2.any Text.blank) ("WorkItem." ++ field.1 ++ " 不能是空字符串"))
    [("implementation_unit_id", item.implementationUnitId), ("stage_id", item.stageId)]
  forEach (fun field =>
      raiseWhen (field.2.any Text.blank) ("WorkItem." ++ field.1 ++ " 不能包含空字符串"))
    [("allowed_paths", item.allowedPaths), ("forbidden_paths", item.forbiddenPaths),
      ("required_paths", item.requiredPaths), ("policy_refs", item.policyRefs),
      ("skill_refs", item.skillRefs), ("requirement_ids", item.requirementIds)]

/-- The owned path as the constructor compares it with the deny patterns. -/
def deniedBy (forbidden : List String) (owned : String) : Bool :=
  forbidden.any fun pattern =>
    Glob.fnmatch (stripLeadingSlashes (forwardSlashes owned)) (Glob.flattenStars pattern)

def checkPathGrant (item : WorkItemFields) : Result Unit := do
  raiseWhen (!item.allowedPaths.isEmpty && item.forbiddenPaths.any (· ∈ ["*", "**"]))
    "WorkItem.forbidden_paths 不能使用全局通配符"
  forEach (fun allowed =>
      raiseWhen (item.forbiddenPaths.any (forbiddenCoversAllowed allowed ·))
        ("WorkItem.allowed_paths 与 forbidden_paths 重叠：禁止范围覆盖整个授权范围: " ++ allowed))
    item.allowedPaths
  forEach (fun owned =>
      raiseWhen (deniedBy item.forbiddenPaths owned)
        ("WorkItem.owned_files 命中 forbidden_paths: " ++ owned))
    item.ownedFiles

def compilationStrategy (item : WorkItemFields) : Json :=
  (Json.obj (item.deliveryContract.getD [])).get "compilation_strategy"

/-- Items compiled for a code agent own one file; plans compiled by meaning and
the document unit are exempt. -/
def ownsOneFile (item : WorkItemFields) : Bool :=
  item.agentId = "code_agent" && item.executionMode = .partitioned &&
    item.implementationUnitId.isSome &&
    item.implementationUnitId != some "project-documents" &&
    !item.compilationStrategy.isStr "semantic"

def checkCodeOwnership (item : WorkItemFields) : Result Unit :=
  if item.ownsOneFile then
    match item.ownedFiles with
    | [file] =>
        let owned := Text.strip (forwardSlashes file)
        raiseWhen (owned = "" || Text.endswith owned "/" || Glob.hasGlob owned)
          "CodeAgent owned_files 必须是具体文件路径；目录/glob 只能用于 allowed_paths"
    | _ => raise "CodeAgent 实现 WorkItem 必须且只能拥有一个具体 owned_files 文件"
  else .ok ()

def derivedTools (item : WorkItemFields) : List String :=
  DeliveryContractRegistry.requiredToolsFor item.role

def checkRequiredTools (item : WorkItemFields) : Result Unit := do
  raiseWhen (item.requiredTools.any Text.blank) "WorkItem.required_tools 不能包含空字符串"
  raiseWhen (hasDuplicates item.requiredTools) "WorkItem.required_tools 不能重复"
  raiseWhen (!item.requiredTools.isEmpty && !item.derivedTools.isEmpty &&
      item.requiredTools != item.derivedTools)
    ("WorkItem " ++ Text.quote item.id ++ " 的 required_tools 与交付合同不一致: expected=" ++
      Text.reprTuple item.derivedTools ++ ", actual=" ++ Text.reprTuple item.requiredTools)

def checkDependencies (item : WorkItemFields) : Result Unit := do
  raiseWhen (hasDuplicates item.dependencyIds)
    ("WorkItem " ++ Text.quote item.id ++ " 包含重复依赖")
  raiseWhen (item.id ∈ item.dependencyIds)
    ("WorkItem " ++ Text.quote item.id ++ " 不能依赖自身")

def checkTexts (item : WorkItemFields) : Result Unit :=
  forEach (fun field =>
      raiseWhen (field.2.any Text.blank) ("WorkItem." ++ field.1 ++ " 不能包含空字符串"))
    [("acceptance_criteria", item.acceptanceCriteria), ("constraints", item.constraints),
      ("non_goals", item.nonGoals)]

/-- The values the constructor supplies for omitted fields. -/
def fill (item : WorkItemFields) : WorkItemFields :=
  { item with
    artifactKey := some (item.artifactKey.getD item.outputKey)
    requiredTools := if item.requiredTools.isEmpty then item.derivedTools else item.requiredTools
    outputKind := some (item.outputKind.getD (defaultOutputKind item.executionMode))
    legacyContractDigest := false }

/-- A given digest must be the computed one or the one of plans that did not
seal their tools. -/
def sealDigest (item : WorkItemFields) : Result WorkItemFields :=
  match item.contractDigest with
  | none => .ok { item with contractDigest := some item.computeContractDigest }
  | some digest =>
      if digest = item.computeContractDigest then .ok item
      else if digest = item.computeContractDigest false then
        .ok { item with legacyContractDigest := true }
      else raise "WorkItem.contract_digest 与执行合同不匹配"

/-- `WorkItem.__post_init__`. -/
def postInit (raw : WorkItemFields) : Result WorkItemFields := do
  raw.checkIdentity
  raw.checkPathGrant
  raiseWhen (raw.wave < 0) "WorkItem.wave 不能小于 0"
  raw.checkCodeOwnership
  raw.checkRequiredTools
  raiseWhen (raw.outputKind.any Text.blank) "WorkItem.output_kind 不能是空字符串"
  raw.checkDependencies
  raw.checkTexts
  raw.validateExecutionGrant
  raw.fill.sealDigest

theorem postInit_eq_ok {raw item : WorkItemFields} :
    raw.postInit = .ok item ↔
      raw.checkIdentity = .ok () ∧ raw.checkPathGrant = .ok () ∧ 0 ≤ raw.wave ∧
        raw.checkCodeOwnership = .ok () ∧ raw.checkRequiredTools = .ok () ∧
        raw.outputKind.any Text.blank = false ∧ raw.checkDependencies = .ok () ∧
        raw.checkTexts = .ok () ∧ raw.validateExecutionGrant = .ok () ∧
        raw.fill.sealDigest = .ok item := by
  simp [postInit, check_bind_eq_ok]

/-- Without a given digest nothing is left to check when the fields are sealed. -/
theorem postInit_isOk_iff {raw : WorkItemFields} (hfresh : raw.contractDigest = none) :
    (∃ item, raw.postInit = .ok item) ↔
      raw.checkIdentity = .ok () ∧ raw.checkPathGrant = .ok () ∧ 0 ≤ raw.wave ∧
        raw.checkCodeOwnership = .ok () ∧ raw.checkRequiredTools = .ok () ∧
        raw.outputKind.any Text.blank = false ∧ raw.checkDependencies = .ok () ∧
        raw.checkTexts = .ok () ∧ raw.validateExecutionGrant = .ok () := by
  have hsealed : ∃ item, raw.fill.sealDigest = .ok item := by
    have hfilled : raw.fill.contractDigest = none := hfresh
    rw [sealDigest, hfilled]
    exact ⟨_, rfl⟩
  obtain ⟨sealed, hsealed⟩ := hsealed
  simp only [postInit_eq_ok, hsealed, Except.ok.injEq, exists_and_left, exists_eq', and_true]

theorem checkDependencies_eq_ok {item : WorkItemFields} :
    item.checkDependencies = .ok () ↔ item.dependencyIds.Nodup ∧ item.id ∉ item.dependencyIds := by
  simp [checkDependencies]

theorem checkIdentity_eq_ok {item : WorkItemFields} (h : item.checkIdentity = .ok ()) :
    Text.blank item.id = false ∧ Text.blank item.agentId = false ∧
      Text.blank item.objective = false ∧ Text.blank item.outputKey = false := by
  simp only [checkIdentity, check_bind_eq_ok, forEach_eq_ok] at h
  simpa using h.1

/-- Filling in omitted values keeps the checks. -/
theorem checkIdentity_fill (raw : WorkItemFields) (h : raw.checkIdentity = .ok ()) :
    raw.fill.checkIdentity = .ok () := by
  have houtput := (checkIdentity_eq_ok h).2.2.2
  simp only [checkIdentity, check_bind_eq_ok] at h ⊢
  refine ⟨h.1, ?_, h.2.2⟩
  have hkey := h.2.1
  rw [raiseWhen_eq_ok] at hkey ⊢
  cases hartifact : raw.artifactKey with
  | none => simpa [fill, hartifact] using houtput
  | some key => simpa [fill, hartifact] using hkey

theorem outputKind_fill (raw : WorkItemFields) (h : raw.outputKind.any Text.blank = false) :
    raw.fill.outputKind.any Text.blank = false := by
  cases hkind : raw.outputKind with
  | none =>
    cases hmode : raw.executionMode <;> simp only [fill, hkind, hmode] <;> decide
  | some kind => simpa [fill, hkind] using h

/-- The tools of every registered contract pass the constructor's own checks. -/
theorem requiredToolsFor_fits (role : DeliveryRole) :
    (DeliveryContractRegistry.requiredToolsFor role).any Text.blank = false ∧
      hasDuplicates (DeliveryContractRegistry.requiredToolsFor role) = false := by
  have hall : ∀ tools ∈ DeliveryContractRegistry.toolLists,
      tools.any Text.blank = false ∧ hasDuplicates tools = false := by decide
  exact hall _ (DeliveryContractRegistry.requiredToolsFor_mem role)

theorem checkRequiredTools_fill (raw : WorkItemFields) (h : raw.checkRequiredTools = .ok ()) :
    raw.fill.checkRequiredTools = .ok () := by
  have hderived : raw.fill.derivedTools = raw.derivedTools := rfl
  have htools : raw.fill.requiredTools =
      if raw.requiredTools.isEmpty then raw.derivedTools else raw.requiredTools := rfl
  simp only [checkRequiredTools, raiseWhen_bind_eq_ok, raiseWhen_eq_ok, hderived, htools] at h ⊢
  split
  · obtain ⟨hblank, hdup⟩ := requiredToolsFor_fits raw.role
    exact ⟨hblank, hdup, by simp⟩
  · exact h

/-- Sealing sets the digest and leaves every other field. -/
theorem sealDigest_eq_ok {item sealed : WorkItemFields} (h : item.sealDigest = .ok sealed) :
    ∃ digest legacy,
      sealed = { item with contractDigest := some digest, legacyContractDigest := legacy } := by
  unfold sealDigest at h
  cases hd : item.contractDigest with
  | none =>
    rw [hd] at h
    exact ⟨_, item.legacyContractDigest, (Except.ok.inj h).symm⟩
  | some digest =>
    rw [hd] at h
    dsimp only at h
    split at h
    · exact ⟨digest, item.legacyContractDigest, by rw [← Except.ok.inj h, ← hd]⟩
    · split at h
      · exact ⟨digest, true, by rw [← Except.ok.inj h, ← hd]⟩
      · cases h

/-- The texts that must not be blank. -/
def words (item : WorkItemFields) : List String :=
  [item.id, item.agentId, item.objective, item.outputKey] ++ item.acceptanceCriteria ++
    item.constraints ++ item.nonGoals

theorem checkTexts_of_words {item : WorkItemFields} (h : ∀ text ∈ item.words, Text.blank text = false) :
    item.checkTexts = .ok () := by
  simp only [words, List.forall_mem_append] at h
  simpa [checkTexts, forEach_eq_ok] using ⟨h.1.1.2, h.1.2, h.2⟩

/-- The checks of an item whose words are known: they are not read again. -/
def postInitWorded (raw : WorkItemFields) : Result WorkItemFields := do
  checkIdentity { raw with id := "-", agentId := "-", objective := "-", outputKey := "-" }
  raw.checkPathGrant
  raiseWhen (raw.wave < 0) "WorkItem.wave 不能小于 0"
  raw.checkCodeOwnership
  raw.checkRequiredTools
  raiseWhen (raw.outputKind.any Text.blank) "WorkItem.output_kind 不能是空字符串"
  raw.checkDependencies
  raw.validateExecutionGrant
  raw.fill.sealDigest

theorem postInit_eq_worded {raw : WorkItemFields}
    (h : ∀ text ∈ raw.words, Text.blank text = false) : raw.postInit = raw.postInitWorded := by
  have hnames : ∀ text ∈ [raw.id, raw.agentId, raw.objective, raw.outputKey],
      Text.blank text = false := by
    intro text htext
    apply h
    simp only [words, List.mem_append, htext, true_or]
  simp only [List.forall_mem_cons] at hnames
  have hidentity : checkIdentity
      { raw with id := "-", agentId := "-", objective := "-", outputKey := "-" } =
        raw.checkIdentity := by
    simp only [checkIdentity, forEach, hnames, show Text.blank "-" = false by decide]
  simp only [postInit, postInitWorded, hidentity, checkTexts_of_words h]
  rfl

end WorkItemFields

/-- An item the constructor accepted. -/
structure WorkItem extends WorkItemFields where
  accepted : ∃ raw : WorkItemFields, raw.postInit = .ok toWorkItemFields

namespace WorkItem

def create (raw : WorkItemFields) : Result WorkItem :=
  match h : raw.postInit with
  | .ok item => .ok ⟨item, raw, h⟩
  | .error e => .error e

theorem create_eq_ok {raw : WorkItemFields} {item : WorkItem} :
    create raw = .ok item ↔ raw.postInit = .ok item.toWorkItemFields := by
  unfold create
  split
  · rename_i filled h
    simp only [h, Except.ok.injEq]
    constructor
    · rintro rfl
      rfl
    · rintro rfl
      rfl
  · rename_i e h
    simp [h]

/-- The item with literal fields. -/
def ofFields (raw : WorkItemFields) (h : raw.postInit.isOk = true) : WorkItem :=
  match hraw : raw.postInit with
  | .ok item => ⟨item, raw, hraw⟩
  | .error _ => absurd h (by simp [hraw, Except.isOk, Except.toBool])

theorem create_isOk_iff {raw : WorkItemFields} :
    (∃ item, create raw = .ok item) ↔ ∃ item, raw.postInit = .ok item := by
  constructor
  · rintro ⟨item, h⟩
    exact ⟨_, create_eq_ok.mp h⟩
  · rintro ⟨item, h⟩
    exact ⟨⟨item, raw, h⟩, create_eq_ok.mpr h⟩

/-- The constructor of an item whose words are known. -/
def createWorded (raw : WorkItemFields) (hwords : ∀ text ∈ raw.words, Text.blank text = false) :
    Result WorkItem :=
  match h : raw.postInitWorded with
  | .ok item => .ok ⟨item, raw, (WorkItemFields.postInit_eq_worded hwords).trans h⟩
  | .error e => .error e

/-- Reading long texts makes an evaluation of the constructor slow. -/
theorem create_eq_worded {raw : WorkItemFields}
    (hwords : ∀ text ∈ raw.words, Text.blank text = false) :
    create raw = createWorded raw hwords := by
  unfold create createWorded
  grind [WorkItemFields.postInit_eq_worded]

/-- What the constructor stores: the given fields, the filled-in ones and a digest. -/
theorem create_fields {raw : WorkItemFields} {item : WorkItem} (h : create raw = .ok item) :
    ∃ digest legacy, item.toWorkItemFields =
      { raw.fill with contractDigest := some digest, legacyContractDigest := legacy } :=
  WorkItemFields.sealDigest_eq_ok (WorkItemFields.postInit_eq_ok.mp (create_eq_ok.mp h)).2.2.2.2.2.2.2.2.2

theorem exists_create (item : WorkItem) : ∃ raw, create raw = .ok item := by
  obtain ⟨raw, h⟩ := item.accepted
  exact ⟨raw, create_eq_ok.mpr h⟩

theorem id_not_blank (item : WorkItem) : Text.blank item.id = false := by
  obtain ⟨raw, h⟩ := item.exists_create
  obtain ⟨_, _, hfields⟩ := create_fields h
  have hraw := (WorkItemFields.postInit_eq_ok.mp (create_eq_ok.mp h)).1
  rw [hfields]
  exact (WorkItemFields.checkIdentity_eq_ok hraw).1

theorem dependencies_valid (item : WorkItem) :
    item.dependencyIds.Nodup ∧ item.id ∉ item.dependencyIds := by
  obtain ⟨raw, h⟩ := item.exists_create
  obtain ⟨_, _, hfields⟩ := create_fields h
  have hraw := (WorkItemFields.postInit_eq_ok.mp (create_eq_ok.mp h)).2.2.2.2.2.2.1
  rw [hfields]
  exact WorkItemFields.checkDependencies_eq_ok.mp hraw

theorem contractDigest_isSome (item : WorkItem) : ∃ digest, item.contractDigest = some digest := by
  obtain ⟨raw, h⟩ := item.exists_create
  obtain ⟨digest, _, hfields⟩ := create_fields h
  exact ⟨digest, by rw [hfields]⟩

/-- The stored digest is the item's own; digests of older plans leave the tools out. -/
theorem contractDigest_eq (item : WorkItem) :
    item.contractDigest = some (item.computeContractDigest (!item.legacyContractDigest)) ∧
      (item.legacyContractDigest = true → item.contractDigest ≠ some item.computeContractDigest) := by
  obtain ⟨raw, h⟩ := item.exists_create
  have hsealed := (WorkItemFields.postInit_eq_ok.mp (create_eq_ok.mp h)).2.2.2.2.2.2.2.2.2
  unfold WorkItemFields.sealDigest at hsealed
  split at hsealed
  · rw [← Except.ok.inj hsealed]
    exact ⟨rfl, nofun⟩
  · rename_i digest hdigest
    split at hsealed
    · rename_i heq
      rw [← Except.ok.inj hsealed, hdigest]
      exact ⟨congrArg some heq, nofun⟩
    · split at hsealed
      · rename_i hne heq
        rw [← Except.ok.inj hsealed]
        exact ⟨hdigest.trans (congrArg some heq), fun _ h => hne (Option.some.inj (hdigest.symm.trans h))⟩
      · cases hsealed

/-- What the constructor checked holds of the stored fields. -/
theorem checks (item : WorkItem) :
    item.checkIdentity = .ok () ∧ item.checkPathGrant = .ok () ∧ 0 ≤ item.wave ∧
      item.checkCodeOwnership = .ok () ∧ item.checkRequiredTools = .ok () ∧
      item.outputKind.any Text.blank = false ∧ item.checkDependencies = .ok () ∧
      item.checkTexts = .ok () ∧ item.validateExecutionGrant = .ok () := by
  obtain ⟨raw, h⟩ := item.exists_create
  obtain ⟨hidentity, hpaths, hwave, hcode, htools, hkind, hdeps, htexts, hgrant, -⟩ :=
    WorkItemFields.postInit_eq_ok.mp (create_eq_ok.mp h)
  obtain ⟨_, _, hfields⟩ := create_fields h
  rw [hfields]
  refine ⟨?_, hpaths, hwave, hcode, ?_, ?_, hdeps, htexts, hgrant⟩
  · exact raw.checkIdentity_fill hidentity
  · exact raw.checkRequiredTools_fill htools
  · exact raw.outputKind_fill hkind

/-- A new item without paths, tools or an implementation unit. -/
structure Plain (raw : WorkItemFields) : Prop where
  fresh : raw.contractDigest = none
  paths : raw.allowedPaths = [] ∧ raw.forbiddenPaths = [] ∧ raw.requiredPaths = [] ∧
    raw.ownedFiles = []
  refs : raw.policyRefs = [] ∧ raw.skillRefs = [] ∧ raw.requirementIds = []
  unit : raw.implementationUnitId = none
  tools : raw.requiredTools = []
  wave : raw.wave = 0

/-- For a plain item the texts, the dependencies and the grant are left to check. -/
theorem Plain.create_isOk {raw : WorkItemFields} (h : Plain raw)
    (hnames : Text.blank raw.id = false ∧ Text.blank raw.agentId = false ∧
      Text.blank raw.objective = false ∧ Text.blank raw.outputKey = false)
    (hoptional : raw.artifactKey.any Text.blank = false ∧ raw.stageId.any Text.blank = false ∧
      raw.outputKind.any Text.blank = false)
    (htexts : (∀ t ∈ raw.acceptanceCriteria, Text.blank t = false) ∧
      (∀ t ∈ raw.constraints, Text.blank t = false) ∧ ∀ t ∈ raw.nonGoals, Text.blank t = false)
    (hdeps : raw.dependencyIds.Nodup ∧ raw.id ∉ raw.dependencyIds)
    (hgrant : raw.validateExecutionGrant = .ok ()) : ∃ item, create raw = .ok item := by
  obtain ⟨hallowed, hforbidden, hrequired, howned⟩ := h.paths
  obtain ⟨hpolicy, hskill, hrequirement⟩ := h.refs
  obtain ⟨hid, hagent, hobjective, houtput⟩ := hnames
  obtain ⟨hartifact, hstage, hkind⟩ := hoptional
  rw [create_isOk_iff, WorkItemFields.postInit_isOk_iff h.fresh]
  refine ⟨?_, ?_, ?_, ?_, ?_, hkind, WorkItemFields.checkDependencies_eq_ok.mpr hdeps, ?_, hgrant⟩
  · simp [WorkItemFields.checkIdentity, check_bind_eq_ok, forEach_eq_ok, hid, hagent, hobjective,
      houtput, hartifact, hstage, h.unit, hallowed, hforbidden, hrequired, hpolicy, hskill,
      hrequirement]
  · simp [WorkItemFields.checkPathGrant, check_bind_eq_ok, hallowed, howned]
  · simp [h.wave]
  · simp [WorkItemFields.checkCodeOwnership, WorkItemFields.ownsOneFile, h.unit]
  · simp [WorkItemFields.checkRequiredTools, check_bind_eq_ok, h.tools]
  · simpa [WorkItemFields.checkTexts, forEach_eq_ok] using htexts

/-- `dataclasses.replace` with new dependencies and references; the digest is
computed again. -/
def rewired (item : WorkItem) (dependencies : List WorkItemDependency)
    (inputRefs : List ArtifactRef) : Result WorkItem :=
  create { item.toWorkItemFields with
    dependencies := dependencies
    inputRefs := inputRefs
    contractDigest := none }

/-- The same item in a later plan, as results and outputs know it. -/
structure Continues (item item' : WorkItem) : Prop where
  id : item'.id = item.id
  agentId : item'.agentId = item.agentId
  outputKey : item'.outputKey = item.outputKey

theorem Continues.refl (item : WorkItem) : item.Continues item := ⟨rfl, rfl, rfl⟩

theorem rewired_continues {item item' : WorkItem} {dependencies : List WorkItemDependency}
    {inputRefs : List ArtifactRef} (h : item.rewired dependencies inputRefs = .ok item') :
    item.Continues item' := by
  obtain ⟨_, _, hfields⟩ := create_fields h
  constructor <;> rw [hfields] <;> rfl

end WorkItem
end ProjectOS.Orchestration
