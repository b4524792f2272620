import Mathlib.Logic.Relation
import ProjectOS.Workflow.DeliveryGraph

/-! Waves of a compiled plan. An item depends on another exactly when the other
is of a smaller wave, and a wave is the largest demand of the contract's graph. -/
namespace ProjectOS.Workflow
open Base Orchestration Architecture Compilation

namespace ImplementationContractCompiler
variable {contract : ImplementationContract} {trace : TraceContext} {semanticUnits : Option Bool}
  {c : Compilation} {waves : Dict String Nat} {items : List WorkItem}

theorem Compiled.dependsOn_iff (h : Compiled contract trace semanticUnits c waves items)
    (hnodup : c.unitIds.Nodup) {unit previous : ImplementationUnit} (hunit : unit ∈ c.units)
    (hprevious : previous ∈ c.units) {item dep : WorkItem}
    (hitem : c.ItemOf waves unit.toUnitFields item)
    (hdep : c.ItemOf waves previous.toUnitFields dep) :
    dep.id ∈ item.dependencyIds ↔
      waveOf waves previous.unitId < waveOf waves unit.unitId := by
  rw [hitem.mem_dependencyIds, hdep.id]
  constructor
  · rintro ⟨unitId, hid, hdeclared | hbarrier⟩
    · rw [Compilation.workItemId_injective hid]
      exact (Compilation.waveOf_lt hnodup h.inferWaves hunit hdeclared).2
    · rw [Compilation.workItemId_injective hid]
      exact (Compilation.mem_barrier.mp hbarrier).2.1
  · intro hlt
    refine ⟨previous.unitId, rfl, ?_⟩
    by_cases hdeclared : previous.unitId ∈ unit.dependsOn
    · exact .inl (by simp [Compilation.declaredDependencies, hdeclared])
    · exact .inr (Compilation.mem_barrier.mpr ⟨List.mem_map_of_mem hprevious, hlt, hdeclared⟩)

/-- The waves of two compiled units compare as their demands do. -/
theorem Compiled.waveOf_lt_iff (h : Compiled contract trace semanticUnits c waves items)
    (hnodup : c.unitIds.Nodup) {unit previous : ImplementationUnit} (hunit : unit ∈ c.units)
    (hprevious : previous ∈ c.units) :
    waveOf waves previous.unitId < waveOf waves unit.unitId ↔
      Below contract semanticUnits previous.unitId unit.unitId := by
  obtain ⟨rank, hrank⟩ := (inferWaves_isOk_iff hnodup).mp ⟨waves, h.inferWaves⟩
  have hclosed := ((h.toScoped.ranked_iff hnodup).mp hrank).1
  rw [Levels.level_lt_iff (isLevel_waveOf h.inferWaves hprevious) (isLevel_waveOf h.inferWaves hunit)]
  simp only [h.toScoped.chain_iff hnodup hclosed, Below]

/-- The first item waits for the second. -/
def WaitsFor (items : List WorkItem) (a b : WorkItem) : Prop :=
  a ∈ items ∧ b ∈ items ∧ b.id ∈ a.dependencyIds

/-- Waves are barriers, and the items of one wave wait for none of each other. -/
structure WaveBarrier (contract : ImplementationContract) (semanticUnits : Option Bool)
    (items : List WorkItem) : Prop where
  producer_lt : ∀ a ∈ items, ∀ d ∈ a.dependencyIds, ∃ b ∈ items, b.id = d ∧ b.wave < a.wave
  waits : ∀ a ∈ items, ∀ b ∈ items, b.wave < a.wave → b.id ∈ a.dependencyIds
  compiledFrom : ∀ item ∈ items, ∃ unit ∈ implementationUnits contract,
    CompiledFrom contract semanticUnits unit.toUnitFields item
  hint_le : ∀ item ∈ items, ∀ unit ∈ implementationUnits contract,
    CompiledFrom contract semanticUnits unit.toUnitFields item →
      ∀ hint, unit.wave = some hint → hint ≤ item.wave
  unordered : ∀ a b, a.wave = b.wave → ¬Relation.TransGen (WaitsFor items) a b

theorem Compiled.wave_lt_iff (h : Compiled contract trace semanticUnits c waves items)
    (hnodup : c.unitIds.Nodup) {a b : WorkItem} (ha : a ∈ items) (hb : b ∈ items) :
    b.id ∈ a.dependencyIds ↔ b.wave < a.wave := by
  obtain ⟨unit, hunit, hitem⟩ := h.exists_unit ha
  obtain ⟨previous, hprevious, hdep⟩ := h.exists_unit hb
  rw [h.dependsOn_iff hnodup hunit hprevious hitem hdep, hitem.wave, hdep.wave, Int.ofNat_lt]

/-- Every plan the compiler returns has waves that are barriers. -/
theorem compile_waveBarrier {goal planId : String} {plan : ExecutionPlan}
    (h : compile contract goal planId trace semanticUnits = .ok plan) :
    WaveBarrier contract semanticUnits plan.workItems := by
  obtain ⟨c, waves, hcompiled⟩ := compileItems_eq_ok.mp (compile_eq_ok.mp h).1
  have hnodup := hcompiled.nodup_iff.mp plan.itemIds_nodup
  have hlt {a b : WorkItem} (ha : a ∈ plan.workItems) (hb : b ∈ plan.workItems) :
      b.id ∈ a.dependencyIds ↔ b.wave < a.wave := hcompiled.wave_lt_iff hnodup ha hb
  have htrans : ∀ a b, Relation.TransGen (WaitsFor plan.workItems) a b → b.wave < a.wave := by
    intro a b hpath
    induction hpath with
    | single hstep => exact (hlt hstep.1 hstep.2.1).mp hstep.2.2
    | tail _ hstep ih => exact ((hlt hstep.1 hstep.2.1).mp hstep.2.2).trans ih
  refine ⟨?_, fun a ha b hb => (hlt ha hb).mpr, ?_, ?_, ?_⟩
  · intro a ha d hd
    obtain ⟨b, hb, rfl⟩ := List.mem_map.mp (plan.dependency_known ha hd)
    exact ⟨b, hb, rfl, (hlt ha hb).mp hd⟩
  · intro item hitem
    obtain ⟨unit, hunit, hof⟩ := hcompiled.exists_unit hitem
    obtain ⟨source, hsource, hpiece, -⟩ := hcompiled.toScoped.exists_source hunit
    exact ⟨source, hsource, unit.unitId, hpiece, hof.unitId⟩
  · intro item hitem source hsource hfrom hint hhint
    obtain ⟨unit, hunit, hof⟩ := hcompiled.exists_unit hitem
    obtain ⟨piece, hpiece, hfields⟩ := (hcompiled.compiledFrom_iff hnodup hunit hof hsource).mp hfrom
    have hwave : unit.wave = source.wave := by
      rw [hfields]
      exact (pieceOf_of_mem hpiece).wave
    rw [hof.wave]
    exact hint_le_waveOf hnodup hcompiled.inferWaves hunit (hwave.trans hhint)
  · intro a b heq hpath
    have := htrans a b hpath
    omega

/-- A service with its client; the client's id reads as a child of the service. -/
def apiUnit : ImplementationUnit where
  unitId := "api"
  layer := "service"
  objective := "serve tasks"
  allowedPaths := ["backend/api.py"]
  ownedFiles := ["backend/api.py"]
  providesInterfaces := ["task_api"]
  accepted := by decide

def apiClientUnit : ImplementationUnit where
  unitId := "api-client"
  layer := "service"
  objective := "read tasks"
  allowedPaths := ["backend/client.py"]
  ownedFiles := ["backend/client.py"]
  consumesInterfaces := ["task_api"]
  accepted := by decide

def taskContract : ImplementationContract where
  schemaVersion := 1
  units := [apiUnit, apiClientUnit]
  interfaces := [⟨"task_api", "service", "TaskApi", "api", none, none, none, none, [], [], []⟩]
  accepted := by decide

def taskTrace : TraceContext := ⟨"tasks", "trace", none⟩

theorem compile_taskContract_items :
    ((compile taskContract "deliver tasks" "plan" taskTrace).toOption.map fun plan =>
      plan.workItems.map fun item => (item.implementationUnitId, item.dependencyIds)) =
        some [(some "api", []), (some "api-client", [])] := by
  decide +kernel

theorem compile_taskContract_isOk :
    (compile taskContract "deliver tasks" "plan" taskTrace).isOk = true :=
  isOk_of_toOption_map compile_taskContract_items

theorem taskContract_waveBarrier : ∃ plan : ExecutionPlan,
    compile taskContract "deliver tasks" "plan" taskTrace = .ok plan ∧
      WaveBarrier taskContract none plan.workItems := by
  obtain ⟨plan, h⟩ := exists_of_isOk compile_taskContract_isOk
  exact ⟨plan, h, compile_waveBarrier h⟩

/-- The unit consumes an interface of another implementation unit. -/
def ConsumesFrom (contract : ImplementationContract) (consumer owner : ImplementationUnit) : Prop :=
  owner.unitId ≠ consumer.unitId ∧ ∃ interface ∈ contract.interfaces,
    interface.interfaceId ∈ consumer.consumesInterfaces ∧ interface.ownerUnit = owner.unitId

/-- Items of a consumer wait for all items of the owner of what it consumes. -/
def InterfaceEdges (contract : ImplementationContract) (semanticUnits : Option Bool)
    (items : List WorkItem) : Prop :=
  ∀ consumer ∈ implementationUnits contract, ∀ owner ∈ implementationUnits contract,
    ConsumesFrom contract consumer owner →
      ∀ a ∈ items, CompiledFrom contract semanticUnits consumer.toUnitFields a →
        ∀ b ∈ items, CompiledFrom contract semanticUnits owner.toUnitFields b →
          b.id ∈ a.dependencyIds

/-- No consumer is mistaken for a child of the owner, unless it is above the
owner's pieces for another reason. -/
def OwnersTold (contract : ImplementationContract) (semanticUnits : Option Bool) : Prop :=
  ∀ consumer ∈ implementationUnits contract, ∀ owner ∈ implementationUnits contract,
    ConsumesFrom contract consumer owner →
      ∀ a ∈ compiledIds contract semanticUnits consumer.toUnitFields,
        origin contract a = owner.unitId →
          ∀ b ∈ compiledIds contract semanticUnits owner.toUnitFields,
            Below contract semanticUnits b a

theorem spelledFrom_compiledId {unit : UnitFields} {a : String}
    (h : a ∈ compiledIds contract semanticUnits unit) : spelledFrom unit.unitId a = true := by
  obtain ⟨piece, hpiece, rfl⟩ := List.mem_map.mp h
  unfold piecesOf pieces at hpiece
  split at hpiece
  · rw [List.mem_singleton.mp hpiece]
    exact spelledFrom_self _
  · split at hpiece
    · rw [List.mem_singleton.mp hpiece]
      exact spelledFrom_self _
    · obtain ⟨⟨path, index⟩, -, rfl⟩ := List.mem_map.mp hpiece
      simp only [spelledFrom, fileChild_unitId, childId, Text.startswith_append, Bool.or_true]

/-- The interface edges of a returned plan are complete exactly when no consumer
that needs one reads as a child of the owner. -/
theorem interfaceEdges_iff {goal planId : String} {plan : ExecutionPlan}
    (h : compile contract goal planId trace semanticUnits = .ok plan) :
    InterfaceEdges contract semanticUnits plan.workItems ↔ OwnersTold contract semanticUnits := by
  obtain ⟨c, waves, hcompiled⟩ := compileItems_eq_ok.mp (compile_eq_ok.mp h).1
  have hnodup := hcompiled.nodup_iff.mp plan.itemIds_nodup
  constructor
  · intro hedges consumer hconsumer owner howner hfrom a ha _ b hb
    obtain ⟨unit, hunit, rfl⟩ := hcompiled.toScoped.exists_unit hconsumer ha
    obtain ⟨previous, hprevious, rfl⟩ := hcompiled.toScoped.exists_unit howner hb
    obtain ⟨item, hitem, hof⟩ := hcompiled.exists_item hunit
    obtain ⟨dep, hdep, hdepOf⟩ := hcompiled.exists_item hprevious
    have hin := hedges consumer hconsumer owner howner hfrom item hitem ⟨_, ha, hof.unitId⟩
      dep hdep ⟨_, hb, hdepOf.unitId⟩
    exact (hcompiled.waveOf_lt_iff hnodup hunit hprevious).mp
      ((hcompiled.dependsOn_iff hnodup hunit hprevious hof hdepOf).mp hin)
  · intro htold consumer hconsumer owner howner hfrom item hitem hitemFrom dep hdep hdepFrom
    obtain ⟨unit, hunit, hof⟩ := hcompiled.exists_unit hitem
    obtain ⟨previous, hprevious, hdepOf⟩ := hcompiled.exists_unit hdep
    obtain ⟨_, ha, hid⟩ := hitemFrom
    cases hof.unitId.symm.trans hid
    obtain ⟨_, hb, hid'⟩ := hdepFrom
    cases hdepOf.unitId.symm.trans hid'
    rw [hcompiled.dependsOn_iff hnodup hunit hprevious hof hdepOf]
    by_cases horigin : origin contract unit.unitId = owner.unitId
    · exact (hcompiled.waveOf_lt_iff hnodup hunit hprevious).mpr
        (htold consumer hconsumer owner howner hfrom _ ha horigin _ hb)
    · obtain ⟨-, interface, hin, hconsumes, howns⟩ := hfrom
      have hedge : Edge contract semanticUnits unit.unitId previous.unitId :=
        .consumed hconsumer hin hconsumes ha (howns ▸ Ne.symm horigin)
          (List.mem_flatMap.mpr ⟨owner, howner, hb⟩) (howns ▸ spelledFrom_compiledId hb)
      exact (waveOf_lt hnodup hcompiled.inferWaves hunit
        ((hcompiled.toScoped.mem_declaredDependencies hnodup hunit).mpr (.inl hedge))).2

theorem taskContract_interfaceEdges_iff : ∃ plan : ExecutionPlan,
    compile taskContract "deliver tasks" "plan" taskTrace = .ok plan ∧
      (InterfaceEdges taskContract none plan.workItems ↔ OwnersTold taskContract none) := by
  obtain ⟨plan, h⟩ := exists_of_isOk compile_taskContract_isOk
  exact ⟨plan, h, interfaceEdges_iff h⟩

/-- The client consumes the interface of the service and does not wait for it. -/
theorem client_misses_service : ∃ plan : ExecutionPlan,
    compile taskContract "deliver tasks" "plan" taskTrace = .ok plan ∧
      ¬InterfaceEdges taskContract none plan.workItems := by
  obtain ⟨plan, h⟩ := exists_of_isOk compile_taskContract_isOk
  refine ⟨plan, h, fun hedges => ?_⟩
  have hitems := compile_taskContract_items
  rw [h] at hitems
  obtain ⟨service, rest, hplan, hservice, hrest⟩ := List.map_eq_cons_iff.mp (Option.some.inj hitems)
  obtain ⟨client, _, rfl, hclient, -⟩ := List.map_eq_cons_iff.mp hrest
  have hfrom : ConsumesFrom taskContract apiClientUnit apiUnit :=
    ⟨by decide, _, List.mem_singleton_self _, by decide, rfl⟩
  have hin := hedges apiClientUnit (by decide) apiUnit (by decide) hfrom
    client (by simp [hplan]) ⟨"api-client", by decide, (Prod.mk.inj hclient).1⟩
    service (by simp [hplan]) ⟨"api", by decide, (Prod.mk.inj hservice).1⟩
  rw [(Prod.mk.inj hclient).2] at hin
  cases hin

end ImplementationContractCompiler
end ProjectOS.Workflow
