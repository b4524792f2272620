import ProjectOS.Base.Reachability
import ProjectOS.Orchestration.Plan

/-! What the plan constructor accepts, said over the waiting relation of the items. -/
namespace ProjectOS.Orchestration
open Base Relation

namespace PlanFields
variable {plan : PlanFields}

/-- The item waits for the other one. -/
def WaitsFor (plan : PlanFields) (a b : String) : Prop :=
  ∃ item ∈ plan.workItems, item.id = a ∧ b ∈ item.dependencyIds

theorem edge_graph : Reachability.Edge plan.graph = plan.WaitsFor := by
  funext a b
  simp [Reachability.Edge, graph, WaitsFor]

/-- The dependencies of the first item with the id, the last one first. -/
def parents (plan : PlanFields) (id : String) : List String :=
  ((plan.workItem id).map (·.dependencyIds.reverse)).getD []

theorem ancestorsFrom_eq_walk (plan : PlanFields) (fuel : Nat) (found pending : List String) :
    plan.ancestorsFrom fuel found pending = Reachability.walk plan.parents fuel found pending := by
  induction fuel generalizing found pending with
  | zero => rfl
  | succ fuel ih =>
    cases pending with
    | nil => rfl
    | cons parent rest =>
      rw [ancestorsFrom, Reachability.walk, ih, ih]
      rfl

theorem workItem_of_mem (hnodup : plan.itemIds.Nodup) {item : WorkItem}
    (hitem : item ∈ plan.workItems) : plan.workItem item.id = some item :=
  (find?_eq_some_iff_of_nodup hnodup fun _ => beq_iff_eq).mpr ⟨hitem, rfl⟩

theorem next_parents (hnodup : plan.itemIds.Nodup) :
    Reachability.Next plan.parents = plan.WaitsFor := by
  funext a b
  simp only [Reachability.Next, parents, WaitsFor, eq_iff_iff]
  constructor
  · intro hb
    cases hitem : plan.workItem a with
    | none => simp [hitem] at hb
    | some item =>
      obtain ⟨hmem, hid⟩ := (find?_eq_some_iff_of_nodup hnodup fun _ => beq_iff_eq).mp hitem
      exact ⟨item, hmem, hid, by simpa [hitem] using hb⟩
  · rintro ⟨item, hitem, rfl, hb⟩
    simpa [workItem_of_mem hnodup hitem] using hb

/-- The fuel of the walk counts every edge of the plan once. -/
theorem openEdges_parents (hnodup : plan.itemIds.Nodup) :
    Reachability.openEdges plan.parents plan.itemIds [] = (plan.graph.map (·.2.length)).foldr (· + ·) 0 := by
  unfold Reachability.openEdges graph itemIds
  rw [List.map_map, List.map_map]
  congr 1
  apply List.map_congr_left
  intro item hitem
  simp [parents, workItem_of_mem hnodup hitem]

/-- The ancestors are the items waited for, directly or through others. -/
theorem mem_ancestors_iff (hnodup : plan.itemIds.Nodup) {item : WorkItem}
    (hitem : item ∈ plan.workItems) {id : String} :
    id ∈ plan.ancestors item ↔ TransGen plan.WaitsFor item.id id := by
  have hnodes (x : String) (hx : plan.parents x ≠ []) : x ∈ plan.itemIds := by
    obtain ⟨b, hb⟩ := List.exists_mem_of_ne_nil _ hx
    have hwaits : plan.WaitsFor x b := next_parents hnodup ▸ hb
    obtain ⟨found, hfound, rfl, -⟩ := hwaits
    exact List.mem_map_of_mem hfound
  have hfuel : item.dependencyIds.reverse.length +
      Reachability.openEdges plan.parents plan.itemIds [] ≤
        (plan.graph.map (·.2.length)).foldr (· + ·) 0 + item.dependencyIds.length := by
    rw [openEdges_parents hnodup, List.length_reverse, Nat.add_comm]
  rw [ancestors, ancestorsFrom_eq_walk,
    Reachability.mem_walk_iff hnodes hfuel (fun _ ha => absurd ha List.not_mem_nil),
    next_parents hnodup, TransGen.head'_iff]
  simp only [List.not_mem_nil, false_or, List.mem_reverse]
  constructor
  · rintro ⟨parent, hparent, hreach⟩
    exact ⟨parent, ⟨item, hitem, rfl, hparent⟩, hreach⟩
  · rintro ⟨parent, ⟨other, hother, hid, hparent⟩, hreach⟩
    obtain rfl := List.inj_on_of_nodup_map hnodup hother hitem hid
    exact ⟨parent, hparent, hreach⟩

/-- The producer of a quality gate's candidate. -/
structure CandidateOf (plan : PlanFields) (gate producer : WorkItem) : Prop where
  mem : producer ∈ plan.workItems
  named : gate.candidateFromWorkItemId = some producer.id
  direct : producer.id ∈ gate.dependencyIds
  mode : producer.executionMode = .integration
  target : producer.publishTarget = gate.publishTarget

/-- The producer of a staged input of an integration item. -/
structure ProducerOf (plan : PlanFields) (item : WorkItem) (consumer : WorkItemDeliveryContract)
    (ref : Artifact.ArtifactRef) (producer : WorkItem) : Prop where
  mem : producer ∈ plan.workItems
  named : ref.workItemId = some producer.id
  waited : TransGen plan.WaitsFor item.id producer.id
  mode : producer.executionMode = .partitioned
  slot : producer.slot = ref.slot
  key : producer.artifactKey.getD producer.outputKey = ref.artifactKey
  kind : ∃ contract, DeliveryContractRegistry.contractFor producer.role = some contract ∧
    contract.outputArtifactKind = consumer.outputArtifactKind

/-- The input is staged by this plan's own run. -/
def StagedHere (plan : PlanFields) (ref : Artifact.ArtifactRef) : Prop :=
  ref.layer = "staged" ∧ ref.traceId = some plan.trace.traceId

/-- The two checks of a quality gate: it waits for its producer, and the producer fits. -/
theorem qualityGate_iff (hnodup : plan.itemIds.Nodup) {item : WorkItem} :
    ((item.executionMode = .qualityGate →
        item.candidateFromWorkItemId.any (· ∈ item.dependencyIds) = true) ∧
      plan.checkQualityGate item = .ok ()) ↔
      (item.executionMode = .qualityGate → ∃ producer, plan.CandidateOf item producer) := by
  unfold checkQualityGate
  split
  · rename_i hgate
    simp only [hgate, forall_const]
    constructor
    · rintro ⟨hnamed, hcheck⟩
      obtain ⟨id, hid, hdirect⟩ := (Option.any_eq_true ..).mp hnamed
      rw [hid, Option.bind_some] at hcheck
      split at hcheck
      · rename_i producer hproducer
        obtain ⟨hmem, rfl⟩ := (find?_eq_some_iff_of_nodup hnodup fun _ => beq_iff_eq).mp hproducer
        simp only [raiseWhen_eq_ok, Bool.or_eq_false_iff, bne_eq_false_iff_eq] at hcheck
        exact ⟨producer, hmem, hid, by simpa using hdirect, hcheck.1, hcheck.2⟩
      · cases hcheck
    · rintro ⟨producer, h⟩
      refine ⟨by simpa [h.named] using h.direct, ?_⟩
      rw [h.named, Option.bind_some, workItem_of_mem hnodup h.mem]
      simp [h.mode, h.target]
  · rename_i hgate
    simp [hgate]

theorem checkStagedInput_eq_ok (hnodup : plan.itemIds.Nodup) {item : WorkItem}
    (hitem : item ∈ plan.workItems) {consumer : WorkItemDeliveryContract}
    {ref : Artifact.ArtifactRef} :
    plan.checkStagedInput item consumer ref = .ok () ↔
      (plan.StagedHere ref → ∃ producer, plan.ProducerOf item consumer ref producer) := by
  unfold checkStagedInput
  split
  · rename_i helsewhere
    have hnot : ¬ plan.StagedHere ref := by
      simp only [Bool.or_eq_true, decide_eq_true_eq] at helsewhere
      exact fun h => helsewhere.elim (absurd h.1) (absurd h.2)
    simp [hnot]
  · rename_i hstaged
    have hhere : plan.StagedHere ref := by
      simpa [StagedHere] using hstaged
    simp only [hhere, forall_const]
    constructor
    · intro hcheck
      split at hcheck
      · cases hcheck
      · rename_i producer hproducer
        obtain ⟨id, hid, hfound⟩ := Option.bind_eq_some_iff.mp hproducer
        obtain ⟨hmem, rfl⟩ := (find?_eq_some_iff_of_nodup hnodup fun _ => beq_iff_eq).mp hfound
        simp only [check_bind_eq_ok, raiseWhen_eq_ok, decide_eq_false_iff_not, not_not,
          Bool.or_eq_false_iff, bne_eq_false_iff_eq, Bool.not_eq_false',
          Option.any_eq_true, beq_iff_eq] at hcheck
        obtain ⟨hwaited, ⟨⟨hmode, hslot⟩, hkey⟩, hkind⟩ := hcheck
        exact ⟨producer, hmem, hid, (mem_ancestors_iff hnodup hitem).mp hwaited, hmode, hslot, hkey,
          hkind⟩
    · rintro ⟨producer, h⟩
      rw [h.named, Option.bind_some, workItem_of_mem hnodup h.mem]
      simp only [check_bind_eq_ok, raiseWhen_eq_ok, decide_eq_false_iff_not, not_not,
        Bool.or_eq_false_iff, bne_eq_false_iff_eq, Bool.not_eq_false',
        Option.any_eq_true, beq_iff_eq]
      exact ⟨(mem_ancestors_iff hnodup hitem).mpr h.waited, ⟨⟨h.mode, h.slot⟩, h.key⟩, h.kind⟩

/-- A plan whose items can all be run: they fit their contracts, wait for items of
the plan without a loop, and get what they read from items they wait for. -/
structure WellFormed (plan : PlanFields) : Prop where
  id : Text.blank plan.id = false
  goal : Text.blank plan.goal = false
  nonempty : plan.workItems ≠ []
  templateId : plan.templateId.any Text.blank = false
  processId : Text.blank plan.processId = false
  distinct : plan.itemIds.Nodup
  contracts : ∀ item ∈ plan.workItems, DeliveryContractRegistry.validateWorkItem item = []
  places : ∀ a ∈ plan.workItems, ∀ b ∈ plan.workItems,
    ∀ place ∈ DeliveryContractRegistry.outputIdentities a,
      place ∈ DeliveryContractRegistry.outputIdentities b → a = b
  known : ∀ a b, plan.WaitsFor a b → b ∈ plan.itemIds
  acyclic : ∀ a, ¬ TransGen plan.WaitsFor a a
  candidates : ∀ item ∈ plan.workItems, item.executionMode = .qualityGate →
    ∃ producer, plan.CandidateOf item producer
  inputs : ∀ item ∈ plan.workItems, item.executionMode = .integration →
    ∀ consumer, DeliveryContractRegistry.contractFor item.role = some consumer →
      ∀ ref ∈ item.inputRefs, plan.StagedHere ref →
        ∃ producer, plan.ProducerOf item consumer ref producer

theorem places_iff (hnodup : plan.itemIds.Nodup) :
    (plan.workItems.Pairwise fun a b => ∀ place ∈ DeliveryContractRegistry.outputIdentities a,
      place ∈ DeliveryContractRegistry.outputIdentities b → a.id = b.id) ↔
      ∀ a ∈ plan.workItems, ∀ b ∈ plan.workItems,
        ∀ place ∈ DeliveryContractRegistry.outputIdentities a,
          place ∈ DeliveryContractRegistry.outputIdentities b → a = b := by
  constructor
  · intro h a ha b hb place hplace hplace'
    have hflip := h.imp fun {a b} hab place hb ha => (hab place ha hb).symm
    exact List.inj_on_of_nodup_map hnodup ha hb
      (h.forall_of_forall_of_flip (fun _ _ _ _ _ => rfl) hflip ha hb place hplace hplace')
  · exact fun h => List.pairwise_of_forall_mem_list fun a ha b hb place hplace hplace' =>
      congrArg (·.id) (h a ha b hb place hplace hplace')

theorem checkArtifactEdges_iff (hnodup : plan.itemIds.Nodup) {item : WorkItem}
    (hitem : item ∈ plan.workItems) :
    plan.checkArtifactEdges item = .ok () ↔ plan.checkQualityGate item = .ok () ∧
      (item.executionMode = .integration →
        ∀ consumer, DeliveryContractRegistry.contractFor item.role = some consumer →
          ∀ ref ∈ item.inputRefs, plan.StagedHere ref →
            ∃ producer, plan.ProducerOf item consumer ref producer) := by
  unfold checkArtifactEdges
  rw [check_bind_eq_ok]
  apply and_congr_right
  intro _
  split
  · rename_i consumer hconsumer
    simp only [hconsumer, Option.some.injEq, forall_eq']
    split
    · rename_i hmode
      simp only [forEach_eq_ok, hmode, forall_const, checkStagedInput_eq_ok hnodup hitem]
    · rename_i hmode
      simp [hmode]
  · rename_i hnone
    simp [hnone]

theorem postInit_iff_wellFormed : plan.postInit = .ok () ↔ plan.WellFormed := by
  have hknown_iff : (∀ a b, plan.WaitsFor a b → b ∈ plan.itemIds) ↔
      ∀ item ∈ plan.workItems, ∀ d ∈ item.dependencyIds, d ∈ plan.itemIds := by
    constructor
    · exact fun h item hitem d hd => h _ d ⟨item, hitem, rfl, hd⟩
    · rintro h _ d ⟨item, hitem, rfl, hd⟩
      exact h item hitem d hd
  have hacyclic_iff (hnodup : plan.itemIds.Nodup)
      (hknown : ∀ item ∈ plan.workItems, ∀ d ∈ item.dependencyIds, d ∈ plan.itemIds) :
      Layers.Acyclic plan.graph ↔ ∀ a, ¬ TransGen plan.WaitsFor a a := by
    have hnodes : Layers.nodes plan.graph = plan.itemIds := by
      simp [Layers.nodes, graph, itemIds]
    rw [← edge_graph]
    refine Reachability.acyclic_iff (hnodes ▸ hnodup) fun e he d hd => ?_
    obtain ⟨item, hitem, rfl⟩ := List.mem_map.mp he
    exact hnodes ▸ hknown item hitem d hd
  rw [postInit_eq_ok, DeliveryContractRegistry.validatePlan_eq_nil]
  constructor
  · rintro ⟨hid, hgoal, hnonempty, htemplate, hprocess, hnodup, ⟨hcontracts, hplaces⟩, hedges,
      hacyclic, hartifacts⟩
    have hedges' := fun item hitem => checkItemEdges_eq_ok.mp (hedges item hitem)
    have hartifacts' := fun item hitem =>
      (checkArtifactEdges_iff hnodup hitem).mp (hartifacts item hitem)
    have hknown := fun item hitem => (hedges' item hitem).1
    exact {
      id := hid
      goal := hgoal
      nonempty := hnonempty
      templateId := htemplate
      processId := hprocess
      distinct := hnodup
      contracts := hcontracts
      places := (places_iff hnodup).mp hplaces
      known := hknown_iff.mpr hknown
      acyclic := (hacyclic_iff hnodup hknown).mp hacyclic
      candidates := fun item hitem =>
        (qualityGate_iff hnodup).mp ⟨(hedges' item hitem).2, (hartifacts' item hitem).1⟩
      inputs := fun item hitem => (hartifacts' item hitem).2 }
  · intro h
    have hknown := hknown_iff.mp h.known
    have hgates := fun item hitem => (qualityGate_iff h.distinct).mpr (h.candidates item hitem)
    exact ⟨h.id, h.goal, h.nonempty, h.templateId, h.processId, h.distinct,
      ⟨h.contracts, (places_iff h.distinct).mpr h.places⟩,
      fun item hitem => checkItemEdges_eq_ok.mpr ⟨hknown item hitem, (hgates item hitem).1⟩,
      (hacyclic_iff h.distinct hknown).mpr h.acyclic,
      fun item hitem => (checkArtifactEdges_iff h.distinct hitem).mpr
        ⟨(hgates item hitem).2, h.inputs item hitem⟩⟩

end PlanFields

namespace ExecutionPlan

theorem wellFormed (plan : ExecutionPlan) : plan.WellFormed :=
  PlanFields.postInit_iff_wellFormed.mp plan.accepted

/-- The constructor builds a plan from exactly the well-formed fields. -/
theorem create_iff_wellFormed (raw : PlanFields) :
    (∃ plan, create raw = .ok plan) ↔ raw.WellFormed :=
  create_isOk_iff.trans PlanFields.postInit_iff_wellFormed

end ExecutionPlan
end ProjectOS.Orchestration
