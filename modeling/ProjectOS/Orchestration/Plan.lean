import ProjectOS.Base.Layers
import ProjectOS.Orchestration.WorkItem

/-! Execution plans: an acyclic graph of work items whose staged outputs and
candidate edges fit together. -/
namespace ProjectOS.Orchestration
open Base

namespace DeliveryContractRegistry

def reprList (items : List String) : String := (Json.strs items).repr

def validateWorkItem (item : WorkItem) : List String :=
  match contractFor item.role with
  | none => []
  | some contract =>
      (if item.requiredTools != contract.requiredTools then
        ["required_tools=" ++ reprList item.requiredTools ++ " 与合同要求 " ++
          reprList contract.requiredTools ++ " 不一致"] else []) ++
      (match contract.outputSlotPattern with
        | some pattern =>
            let slot := item.slot.getD ""
            if Glob.fnmatch slot pattern then []
            else ["slot=" ++ Text.repr slot ++ " 不匹配 " ++ Text.repr pattern]
        | none => [])

/-- Artifact key, file or slot, and stage: where a partitioned item delivers. -/
abbrev OutputIdentity := String × String × String

def outputIdentities (item : WorkItem) : List OutputIdentity :=
  let artifactKey := item.artifactKey.getD ""
  let slot := item.slot.getD ""
  if item.executionMode = .partitioned && artifactKey != "" && slot != "" then
    (if item.ownedFiles.isEmpty then [slot] else item.ownedFiles).map fun identity =>
      (artifactKey, identity, item.stageId.getD "")
  else []

def occupy (itemId : String) :
    Dict OutputIdentity String → List OutputIdentity → Dict OutputIdentity String × List String
  | seen, [] => (seen, [])
  | seen, key :: rest =>
      match seen.get? key with
      | some previous =>
          if previous ≠ itemId then
            let (seen', errors) := occupy itemId seen rest
            (seen', ("staged output " ++ key.1 ++ ":" ++ key.2.1 ++ ":" ++
              (if key.2.2 = "" then "-" else key.2.2) ++ " 被 " ++ previous ++ " 和 " ++ itemId ++
              " 重复占用") :: errors)
          else occupy itemId (seen.set key itemId) rest
      | none => occupy itemId (seen.set key itemId) rest

def validateFrom : Dict OutputIdentity String → List WorkItem → List String
  | _, [] => []
  | seen, item :: rest =>
      let (seen', errors) := occupy item.id seen (outputIdentities item)
      (validateWorkItem item).map (fun error => item.id ++ ": " ++ error) ++ errors ++
        validateFrom seen' rest

/-- Every item fits its contract and no two items deliver to one place. -/
def validatePlan (items : List WorkItem) : List String := validateFrom ∅ items

theorem occupy_eq_nil {itemId : String} {seen : Dict OutputIdentity String}
    {keys : List OutputIdentity} :
    (occupy itemId seen keys).2 = [] ↔
      ∀ key ∈ keys, ∀ owner, seen.get? key = some owner → owner = itemId := by
  induction keys generalizing seen with
  | nil => simp [occupy]
  | cons key rest ih =>
    have hset (hmine : ∀ owner, seen.get? key = some owner → owner = itemId) :
        (∀ k ∈ rest, ∀ owner, (seen.set key itemId).get? k = some owner → owner = itemId) ↔
          ∀ k ∈ rest, ∀ owner, seen.get? k = some owner → owner = itemId := by
      simp only [Dict.get?_set]
      constructor
      · intro h k hk owner howner
        by_cases heq : k = key
        · exact hmine owner (heq ▸ howner)
        · exact h k hk owner (by rwa [if_neg heq])
      · intro h k hk owner howner
        split at howner
        · exact (Option.some.inj howner).symm
        · exact h k hk owner howner
    rw [List.forall_mem_cons, occupy]
    cases hseen : seen.get? key with
    | none =>
      rw [ih, hset (by simp [hseen])]
      simp
    | some previous =>
      dsimp only
      split
      · rename_i hother
        simp [hother]
      · rename_i hmine
        rw [ih, hset (by simpa [hseen] using not_not.mp hmine)]
        simp [not_not.mp hmine]

theorem get?_occupy {itemId : String} {seen : Dict OutputIdentity String}
    {keys : List OutputIdentity} (h : (occupy itemId seen keys).2 = []) (key : OutputIdentity) :
    (occupy itemId seen keys).1.get? key = if key ∈ keys then some itemId else seen.get? key := by
  induction keys generalizing seen with
  | nil => simp [occupy]
  | cons first rest ih =>
    have hfirst : (occupy itemId seen (first :: rest)) = occupy itemId (seen.set first itemId) rest := by
      rw [occupy_eq_nil, List.forall_mem_cons] at h
      rw [occupy]
      cases hseen : seen.get? first with
      | none => rfl
      | some previous => simp [h.1 previous hseen]
    rw [hfirst] at h ⊢
    rw [ih h, Dict.get?_set]
    by_cases hrest : key ∈ rest
    · simp [hrest]
    · by_cases heq : key = first
      · simp [heq]
      · simp [hrest, heq]

theorem validateFrom_eq_nil {seen : Dict OutputIdentity String} {items : List WorkItem} :
    validateFrom seen items = [] ↔
      (∀ item ∈ items, validateWorkItem item = []) ∧
      (∀ item ∈ items, ∀ key ∈ outputIdentities item, ∀ owner, seen.get? key = some owner →
        owner = item.id) ∧
      items.Pairwise fun a b =>
        ∀ key ∈ outputIdentities a, key ∈ outputIdentities b → a.id = b.id := by
  induction items generalizing seen with
  | nil => simp [validateFrom]
  | cons item rest ih =>
    simp only [validateFrom, List.append_eq_nil_iff, List.map_eq_nil_iff, ih, List.forall_mem_cons,
      List.pairwise_cons]
    constructor
    · rintro ⟨⟨hitem, hmine⟩, hrest, hseen, hpairs⟩
      simp only [get?_occupy hmine] at hseen
      refine ⟨⟨hitem, hrest⟩, ⟨occupy_eq_nil.mp hmine, fun other hother key hkey owner howner => ?_⟩,
        fun other hother key hkey hkey' => hseen other hother key hkey' _ (if_pos hkey), hpairs⟩
      by_cases hshared : key ∈ outputIdentities item
      · rw [occupy_eq_nil.mp hmine key hshared owner howner]
        exact hseen other hother key hkey _ (if_pos hshared)
      · exact hseen other hother key hkey owner (by rwa [if_neg hshared])
    · rintro ⟨⟨hitem, hrest⟩, ⟨hmine, hseen⟩, hfirst, hpairs⟩
      have hnil := occupy_eq_nil.mpr hmine
      refine ⟨⟨hitem, hnil⟩, hrest, ?_, hpairs⟩
      intro other hother key hkey owner howner
      rw [get?_occupy hnil] at howner
      split at howner
      · rename_i hshared
        rw [← Option.some.inj howner]
        exact hfirst other hother key hshared hkey
      · exact hseen other hother key hkey owner howner

/-- A plan passes when each item fits its contract and places are not shared. -/
theorem validatePlan_eq_nil {items : List WorkItem} :
    validatePlan items = [] ↔ (∀ item ∈ items, validateWorkItem item = []) ∧
      items.Pairwise fun a b =>
        ∀ key ∈ outputIdentities a, key ∈ outputIdentities b → a.id = b.id := by
  simp [validatePlan, validateFrom_eq_nil]

end DeliveryContractRegistry

structure TraceContext where
  requirementId : String
  traceId : String
  parentTraceId : Option String := none
deriving DecidableEq

inductive ValidationScope where
  | fullDelivery
  | architecture
  | verticalSlice
deriving DecidableEq, Repr

namespace ValidationScope

def value : ValidationScope → String
  | fullDelivery => "full_delivery"
  | architecture => "architecture"
  | verticalSlice => "vertical_slice"

def all : List ValidationScope := [fullDelivery, architecture, verticalSlice]

/-- The membership test of the plan constructor. -/
def parse (text : String) : Result ValidationScope :=
  match all.find? (·.value == text) with
  | some scope => .ok scope
  | none => raise "ExecutionPlan.validation_scope 无效"

@[simp] theorem parse_value (scope : ValidationScope) : parse scope.value = .ok scope := by
  cases scope <;> decide

theorem value_ne_empty (scope : ValidationScope) : scope.value ≠ "" := by
  cases scope <;> decide

end ValidationScope

structure PlanFields where
  id : String
  goal : String
  workItems : List WorkItem
  templateId : Option String := none
  processId : String := "software_delivery"
  trace : TraceContext
  validationScope : ValidationScope := .fullDelivery

namespace PlanFields

def itemIds (plan : PlanFields) : List String := plan.workItems.map (·.id)

/-- The first item with the id. -/
def workItem (plan : PlanFields) (workItemId : String) : Option WorkItem :=
  plan.workItems.find? (·.id == workItemId)

def checkItemEdges (plan : PlanFields) (item : WorkItem) : Result Unit := do
  let unknown := item.dependencyIds.filter (· ∉ plan.itemIds)
  raiseWhen (!unknown.isEmpty) ("WorkItem " ++ Text.quote item.id ++ " 依赖不存在的工作项: " ++
    Text.join ", " (Text.sorted unknown))
  raiseWhen (item.executionMode = .qualityGate &&
      !item.candidateFromWorkItemId.any (· ∈ item.dependencyIds))
    ("QUALITY_GATE WorkItem " ++ Text.quote item.id ++ " 必须依赖候选来源工作项")

def graph (plan : PlanFields) : Layers.Graph String :=
  plan.workItems.map fun item => (item.id, item.dependencyIds)

def ensureAcyclic (plan : PlanFields) : Result Unit :=
  match Layers.ensureAcyclic plan.graph with
  | .ok () => .ok ()
  | .error remaining => raise ("ExecutionPlan 存在循环依赖，涉及工作项: " ++
      Text.join ", " (Text.sorted remaining))

/-- The stack walk over dependencies. A parent is expanded once, so the fuel
need not exceed the number of edges and of pending entries. -/
def ancestorsFrom (plan : PlanFields) : Nat → List String → List String → List String
  | 0, found, _ => found
  | fuel + 1, found, pending =>
      match pending with
      | [] => found
      | parent :: rest =>
          if parent ∈ found then ancestorsFrom plan fuel found rest
          else ancestorsFrom plan fuel (parent :: found)
            (((plan.workItem parent).map (·.dependencyIds.reverse)).getD [] ++ rest)

def ancestors (plan : PlanFields) (item : WorkItem) : List String :=
  ancestorsFrom plan ((plan.graph.map (·.2.length)).foldr (· + ·) 0 + item.dependencyIds.length) []
    item.dependencyIds.reverse

def checkQualityGate (plan : PlanFields) (item : WorkItem) : Result Unit :=
  if item.executionMode = .qualityGate then
    match item.candidateFromWorkItemId.bind plan.workItem with
    | some producer =>
        raiseWhen (producer.executionMode != .integration ||
            producer.publishTarget != item.publishTarget)
          ("QUALITY_GATE " ++ Text.quote item.id ++ " 必须引用同一发布目标的 INTEGRATION 生产者")
    | none => .error (.keyError (item.candidateFromWorkItemId.getD "None"))
  else .ok ()

def checkStagedInput (plan : PlanFields) (item : WorkItem)
    (consumer : WorkItemDeliveryContract) (ref : Artifact.ArtifactRef) : Result Unit :=
  if ref.layer ≠ "staged" || ref.traceId ≠ some plan.trace.traceId then .ok ()
  else match ref.workItemId.bind plan.workItem with
    | none => raise ("集成输入 " ++ ref.refId ++ " 的生产者不在当前计划中")
    | some producer => do
        raiseWhen (producer.id ∉ plan.ancestors item)
          ("集成节点 " ++ Text.quote item.id ++ " 未等待输入生产者 " ++ Text.quote producer.id)
        raiseWhen (producer.executionMode != .partitioned || producer.slot != ref.slot ||
            producer.artifactKey.getD producer.outputKey != ref.artifactKey)
          ("集成输入 " ++ ref.refId ++ " 与生产者交付位置不匹配")
        raiseWhen (!(DeliveryContractRegistry.contractFor producer.role).any
            (·.outputArtifactKind == consumer.outputArtifactKind))
          ("集成节点 " ++ Text.quote item.id ++ " 与生产者 " ++ Text.quote producer.id ++
            " 的交付协议不匹配")

def checkArtifactEdges (plan : PlanFields) (item : WorkItem) : Result Unit := do
  plan.checkQualityGate item
  match DeliveryContractRegistry.contractFor item.role with
  | some consumer =>
      if item.executionMode = .integration then
        forEach (plan.checkStagedInput item consumer) item.inputRefs
      else .ok ()
  | none => .ok ()

/-- `ExecutionPlan.__post_init__`. -/
def postInit (plan : PlanFields) : Result Unit := do
  raiseWhen (Text.blank plan.id) "ExecutionPlan.id 不能为空"
  raiseWhen (Text.blank plan.goal) "ExecutionPlan.goal 不能为空"
  raiseWhen plan.workItems.isEmpty "ExecutionPlan 至少需要一个 WorkItem"
  raiseWhen (plan.templateId.any Text.blank) "ExecutionPlan.template_id 不能是空字符串"
  raiseWhen (Text.blank plan.processId) "ExecutionPlan.process_id 不能为空"
  raiseWhen (hasDuplicates plan.itemIds) "ExecutionPlan 包含重复 WorkItem id"
  raiseWhen (!(DeliveryContractRegistry.validatePlan plan.workItems).isEmpty)
    ("ExecutionPlan 交付合同校验失败: " ++
      Text.join "; " (DeliveryContractRegistry.validatePlan plan.workItems))
  forEach plan.checkItemEdges plan.workItems
  plan.ensureAcyclic
  forEach plan.checkArtifactEdges plan.workItems

theorem ensureAcyclic_eq_ok {plan : PlanFields} :
    plan.ensureAcyclic = .ok () ↔ Layers.Acyclic plan.graph := by
  rw [← Layers.ensureAcyclic_eq_ok_iff]
  unfold ensureAcyclic
  split
  · simp [*]
  · simp [*]

theorem checkItemEdges_eq_ok {plan : PlanFields} {item : WorkItem} :
    plan.checkItemEdges item = .ok () ↔
      (∀ d ∈ item.dependencyIds, d ∈ plan.itemIds) ∧
        (item.executionMode = .qualityGate →
          item.candidateFromWorkItemId.any (· ∈ item.dependencyIds) = true) := by
  simp [checkItemEdges]

theorem postInit_eq_ok {plan : PlanFields} :
    plan.postInit = .ok () ↔
      Text.blank plan.id = false ∧ Text.blank plan.goal = false ∧ plan.workItems ≠ [] ∧
        plan.templateId.any Text.blank = false ∧ Text.blank plan.processId = false ∧
        plan.itemIds.Nodup ∧ DeliveryContractRegistry.validatePlan plan.workItems = [] ∧
        (∀ item ∈ plan.workItems, plan.checkItemEdges item = .ok ()) ∧
        Layers.Acyclic plan.graph ∧
        (∀ item ∈ plan.workItems, plan.checkArtifactEdges item = .ok ()) := by
  simp [postInit, check_bind_eq_ok, forEach_eq_ok, ensureAcyclic_eq_ok]

end PlanFields

/-- A plan the constructor accepted. -/
structure ExecutionPlan extends PlanFields where
  accepted : toPlanFields.postInit = .ok ()

namespace ExecutionPlan

def create (raw : PlanFields) : Result ExecutionPlan :=
  match h : raw.postInit with
  | .ok () => .ok ⟨raw, h⟩
  | .error e => .error e

theorem create_eq_ok {raw : PlanFields} {plan : ExecutionPlan} :
    create raw = .ok plan ↔ plan.toPlanFields = raw := by
  unfold create
  split
  · rename_i h
    constructor
    · rintro h'
      cases h'
      rfl
    · intro h'
      subst h'
      rfl
  · rename_i e h
    simp only [reduceCtorEq, false_iff]
    rintro rfl
    rw [plan.accepted] at h
    cases h

theorem create_isOk_iff {raw : PlanFields} :
    (∃ plan, create raw = .ok plan) ↔ raw.postInit = .ok () := by
  constructor
  · rintro ⟨plan, h⟩
    exact create_eq_ok.mp h ▸ plan.accepted
  · exact fun h => ⟨⟨raw, h⟩, create_eq_ok.mpr rfl⟩

theorem itemIds_nodup (plan : ExecutionPlan) : plan.itemIds.Nodup :=
  (PlanFields.postInit_eq_ok.mp plan.accepted).2.2.2.2.2.1

theorem workItems_ne_nil (plan : ExecutionPlan) : plan.workItems ≠ [] :=
  (PlanFields.postInit_eq_ok.mp plan.accepted).2.2.1

theorem dependency_known (plan : ExecutionPlan) {item : WorkItem} (h : item ∈ plan.workItems)
    {d : String} (hd : d ∈ item.dependencyIds) : d ∈ plan.itemIds :=
  (PlanFields.checkItemEdges_eq_ok.mp
    ((PlanFields.postInit_eq_ok.mp plan.accepted).2.2.2.2.2.2.2.1 item h)).1 d hd

theorem acyclic (plan : ExecutionPlan) : Layers.Acyclic plan.graph :=
  (PlanFields.postInit_eq_ok.mp plan.accepted).2.2.2.2.2.2.2.2.1

theorem eq_of_id_eq (plan : ExecutionPlan) {a b : WorkItem} (ha : a ∈ plan.workItems)
    (hb : b ∈ plan.workItems) (h : a.id = b.id) : a = b :=
  List.inj_on_of_nodup_map plan.itemIds_nodup ha hb h

theorem workItem_eq_some_iff (plan : ExecutionPlan) {workItemId : String} {item : WorkItem} :
    plan.workItem workItemId = some item ↔ item ∈ plan.workItems ∧ item.id = workItemId :=
  find?_eq_some_iff_of_nodup plan.itemIds_nodup fun _ => beq_iff_eq

theorem workItem_eq_none_iff (plan : ExecutionPlan) {workItemId : String} :
    plan.workItem workItemId = none ↔ workItemId ∉ plan.itemIds := by
  simp [PlanFields.workItem, PlanFields.itemIds]

end ExecutionPlan
end ProjectOS.Orchestration
