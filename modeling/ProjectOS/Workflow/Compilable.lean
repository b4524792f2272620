import ProjectOS.Workflow.WaveBarrier

/-! Which contracts compile. -/
namespace ProjectOS.Workflow
open Base Artifact Orchestration Architecture Compilation

namespace ImplementationContractCompiler
variable {contract : ImplementationContract} {trace : TraceContext} {semanticUnits : Option Bool}
  {c : Compilation} {waves : Dict String Nat} {items : List WorkItem} {goal planId : String}

/-- The constructor of work items accepts the texts, paths and slot of a piece. -/
def AcceptsPiece (contract : ImplementationContract) (piece : UnitFields) : Prop :=
  Compilation.AcceptsUnit ⟨contract, []⟩ piece

/-- Where a piece delivers: its files, or its slot where it owns none. -/
def deliveries (piece : UnitFields) : List String :=
  if piece.ownedFiles.isEmpty then [slotOf piece] else piece.ownedFiles

structure Compilable (contract : ImplementationContract) (goal planId : String)
    (trace : TraceContext) (semanticUnits : Option Bool) : Prop where
  request : Text.blank planId = false ∧ Text.blank goal = false
  closed : Closed contract semanticUnits
  distinct : (nodeIds contract semanticUnits).Nodup
  ranked : ∃ rank, Ranked contract semanticUnits rank
  accepted : ∀ piece ∈ allPieces contract semanticUnits, AcceptsPiece contract piece
  inputs : ∀ unit ∈ implementationUnits contract, ∀ ref ∈ unit.inputRefs,
    ∃ parsed, artifactRef ref = .ok parsed
  references : ∀ a b, Edge contract semanticUnits a b → safeId trace.traceId = true ∧
    safeId (workItemId b) = true ∧ ∀ piece ∈ allPieces contract semanticUnits,
      piece.unitId = b → safeId (slotOf piece) = true
  separate : (allPieces contract semanticUnits).Pairwise fun a b =>
    List.Disjoint (deliveries a) (deliveries b)

theorem acceptsUnit_iff {piece : UnitFields} {unit : ImplementationUnit}
    (h : CompiledAs piece unit) :
    c.AcceptsUnit unit.toUnitFields ↔ AcceptsPiece c.contract piece := by
  have hcode : (c.itemFields ∅ unit.toUnitFields [] []).checkCodeOwnership =
      (Compilation.itemFields ⟨c.contract, []⟩ ∅ piece [] []).checkCodeOwnership := by
    unfold WorkItemFields.checkCodeOwnership WorkItemFields.ownsOneFile
    rw [compilationStrategy_itemFields, compilationStrategy_itemFields, h]
    rfl
  have hfresh : ∀ (c : Compilation) unit,
      (c.itemFields ∅ unit [] []).contractDigest = none := fun _ _ => rfl
  simp only [AcceptsPiece, AcceptsUnit, WorkItemFields.postInit_isOk_iff (hfresh _ _), hcode]
  rw [h]
  rfl

/-- Places as the plan compares them. -/
def placesOf (piece : UnitFields) : List DeliveryContractRegistry.OutputIdentity :=
  (deliveries piece).map fun place => ("implementation", place, "")

theorem outputIdentities_itemOf {unit : UnitFields} {item : WorkItem}
    (h : c.ItemOf waves unit item) :
    DeliveryContractRegistry.outputIdentities item = placesOf unit := by
  simp only [DeliveryContractRegistry.outputIdentities, h.artifactKey, h.slot, h.executionMode,
    h.stageId, h.ownedFiles, Option.getD_some, Option.getD_none]
  rw [if_pos (by simpa using h.slot_ne)]
  rfl

theorem disjoint_placesOf {a b : UnitFields} :
    List.Disjoint (placesOf a) (placesOf b) ↔ List.Disjoint (deliveries a) (deliveries b) := by
  simp only [placesOf, List.Disjoint, List.mem_map]
  constructor
  · exact fun h place ha hb => h ⟨place, ha, rfl⟩ ⟨place, hb, rfl⟩
  · rintro h _ ⟨place, ha, rfl⟩ ⟨place', hb, heq⟩
    simp only [Prod.mk.injEq, and_true, true_and] at heq
    exact h ha (heq ▸ hb)

namespace Compiled
variable (h : Compiled contract trace semanticUnits c waves items) (hnodup : c.unitIds.Nodup)
include h hnodup

theorem workItem_parts {unit : ImplementationUnit} (hunit : unit ∈ c.units) {item : WorkItem}
    (hok : c.workItem trace waves unit = .ok item) :
    c.ReferencesFit trace unit.toUnitFields ∧ c.AcceptsUnit unit.toUnitFields := by
  have hself : unit.unitId ∉ c.declaredDependencies unit.toUnitFields :=
    fun hmem => Nat.lt_irrefl _ (waveOf_lt hnodup h.inferWaves hunit hmem).2
  exact ((workItem_isOk_iff hnodup hself).mp ⟨item, hok⟩).2

/-- No two items deliver to one place exactly when no two pieces do. -/
theorem separate_iff :
    items.Pairwise (fun a b => ∀ key ∈ DeliveryContractRegistry.outputIdentities a,
        key ∈ DeliveryContractRegistry.outputIdentities b → a.id = b.id) ↔
      (allPieces contract semanticUnits).Pairwise fun a b =>
        List.Disjoint (deliveries a) (deliveries b) := by
  have hids : items.Pairwise fun a b => a.id ≠ b.id :=
    List.pairwise_map.mp (h.nodup_iff.mpr hnodup)
  have hplaces : items.map DeliveryContractRegistry.outputIdentities =
      (allPieces contract semanticUnits).map placesOf := by
    rw [← map_compiledUnits placesOf (fun _ _ => rfl) h.units]
    exact map_of_collect (collect_eq_ok.mpr h.items) fun unit item hok =>
      outputIdentities_itemOf (itemOf_workItem hok)
  have hdisjoint : items.Pairwise (fun a b => ∀ key ∈ DeliveryContractRegistry.outputIdentities a,
      key ∈ DeliveryContractRegistry.outputIdentities b → a.id = b.id) ↔
        (items.map DeliveryContractRegistry.outputIdentities).Pairwise List.Disjoint := by
    rw [List.pairwise_map]
    constructor
    · intro hshared
      refine (hshared.and hids).imp fun {a b} hab key ha hb => hab.2 (hab.1 key ha hb)
    · exact fun hdisjoint => hdisjoint.imp fun hab _ ha hb => (hab ha hb).elim
  rw [hdisjoint, hplaces, List.pairwise_map]
  simp only [disjoint_placesOf]

end Compiled

theorem mem_allPieces {piece : UnitFields} : piece ∈ allPieces contract semanticUnits ↔
    ∃ unit ∈ implementationUnits contract,
      piece ∈ piecesOf contract semanticUnits unit.toUnitFields := List.mem_flatMap

theorem exists_compiled_of_mem (h : Scoped contract semanticUnits c) {piece : UnitFields}
    (hpiece : piece ∈ allPieces contract semanticUnits) :
    ∃ unit ∈ c.units, CompiledAs piece unit := by
  obtain ⟨source, hsource, hin⟩ := mem_allPieces.mp hpiece
  exact exists_compiled h.units hsource hin

theorem exists_piece (h : Scoped contract semanticUnits c) {unit : ImplementationUnit}
    (hunit : unit ∈ c.units) :
    ∃ piece ∈ allPieces contract semanticUnits, CompiledAs piece unit := by
  obtain ⟨source, hsource, piece, hin, hfields⟩ := exists_source h.units hunit
  exact ⟨piece, mem_allPieces.mpr ⟨source, hsource, hin⟩, hfields⟩

/-- A returned plan shows everything the contract had to satisfy. -/
theorem compilable_of_compile {plan : ExecutionPlan}
    (h : compile contract goal planId trace semanticUnits = .ok plan) :
    Compilable contract goal planId trace semanticUnits := by
  obtain ⟨hitems, hplan⟩ := compile_eq_ok.mp h
  obtain ⟨c, waves, hcompiled⟩ := compileItems_eq_ok.mp hitems
  have hnodup := hcompiled.nodup_iff.mp plan.itemIds_nodup
  have hpost := PlanFields.postInit_eq_ok.mp plan.accepted
  obtain ⟨rank, hrank⟩ := (inferWaves_isOk_iff hnodup).mp ⟨waves, hcompiled.inferWaves⟩
  obtain ⟨hclosed, hranked⟩ := (hcompiled.toScoped.ranked_iff hnodup).mp hrank
  have hparts : ∀ unit ∈ c.units,
      c.ReferencesFit trace unit.toUnitFields ∧ c.AcceptsUnit unit.toUnitFields := by
    intro unit hunit
    obtain ⟨item, -, hok⟩ := collect_mem (collect_eq_ok.mpr hcompiled.items) hunit
    exact hcompiled.workItem_parts hnodup hunit hok
  refine ⟨?_, hclosed, hcompiled.unitIds_eq ▸ hnodup, ⟨rank, hranked⟩, ?_, ?_, ?_, ?_⟩
  · rw [show planId = plan.id by rw [hplan], show goal = plan.goal by rw [hplan]]
    exact ⟨hpost.1, hpost.2.1⟩
  · intro piece hpiece
    obtain ⟨unit, hunit, hfields⟩ := exists_compiled_of_mem hcompiled.toScoped hpiece
    rw [← hcompiled.contract_eq, ← acceptsUnit_iff hfields]
    exact (hparts unit hunit).2
  · intro source hsource ref href
    obtain ⟨_, hpart⟩ := exists_compiledId contract semanticUnits source.toUnitFields
    obtain ⟨unit, hunit, rfl⟩ := hcompiled.toScoped.exists_unit hsource hpart
    obtain ⟨source', hsource', hpiece, hkept⟩ := hcompiled.toScoped.exists_source hunit
    cases unit_of_node (hcompiled.unitIds_eq ▸ hnodup) hsource hsource' hpart hpiece
    exact (hparts unit hunit).1.inputs ref (hkept.inputRefs ▸ href)
  · intro a b hedge
    obtain ⟨unit, hunit, rfl, hb⟩ := hcompiled.toScoped.exists_edge_unit hnodup hedge
    have hfit := (hparts unit hunit).1.dependencies b hb
    have hknown := (hcompiled.toScoped.closed_iff hnodup).mpr hclosed unit hunit b hb
    obtain ⟨dep, hdep, rfl⟩ := List.mem_map.mp hknown
    obtain ⟨htrace, hid, -⟩ := hfit dep hdep rfl
    refine ⟨htrace, hid, fun piece hpiece heq => ?_⟩
    obtain ⟨other, hother, hfields⟩ := exists_compiled_of_mem hcompiled.toScoped hpiece
    have hslot := (hfit other hother (hfields.unitId.trans heq)).2.2
    rwa [hfields] at hslot
  · have hplaces := (DeliveryContractRegistry.validatePlan_eq_nil.mp hpost.2.2.2.2.2.2.1).2
    exact (hcompiled.separate_iff hnodup).mp hplaces

/-- Units that own files and refer to each other only have compiled units. -/
theorem compiledUnits_isOk (hdistinct : (nodeIds contract semanticUnits).Nodup)
    (hclosed : Closed contract semanticUnits)
    (howned : ∀ unit ∈ implementationUnits contract, OwnsFiles unit.toUnitFields) :
    ∃ units, compiledUnits contract semanticUnits = .ok units := by
  unfold compiledUnits
  split
  · exact ⟨_, rfl⟩
  · rename_i hfile
    rw [splitFileUnits_isOk_iff (distinctPieces (by simpa using hfile) hdistinct)]
    refine ⟨howned, fun source hsource d hd => ?_⟩
    by_contra habsent
    obtain ⟨a, ha⟩ := exists_compiledId contract semanticUnits source.toUnitFields
    exact hclosed a d (.declared hsource hd ha fun dep hdep heq => habsent ⟨dep, hdep, heq⟩)

theorem workItem_isOk (h : Compilable contract goal planId trace semanticUnits)
    (hscoped : Scoped contract semanticUnits c) (hwaves : c.inferWaves = .ok waves)
    {unit : ImplementationUnit} (hunit : unit ∈ c.units) :
    ∃ item, c.workItem trace waves unit = .ok item := by
  have hnodup : c.unitIds.Nodup := hscoped.unitIds_eq ▸ h.distinct
  have hself : unit.unitId ∉ c.declaredDependencies unit.toUnitFields :=
    fun hmem => Nat.lt_irrefl _ (waveOf_lt hnodup hwaves hunit hmem).2
  rw [workItem_isOk_iff hnodup hself]
  refine ⟨(hscoped.closed_iff hnodup).mpr h.closed unit hunit, ⟨?_, ?_⟩, ?_⟩
  · obtain ⟨source, hsource, -, hkept⟩ := hscoped.exists_source hunit
    rw [hkept.inputRefs]
    exact h.inputs source hsource
  · rintro d hd dep hdep rfl
    have hedge : Edge contract semanticUnits unit.unitId dep.unitId :=
      ((hscoped.mem_declaredDependencies hnodup hunit).mp hd).resolve_right (h.closed _ _)
    obtain ⟨htrace, hid, hslot⟩ := h.references _ _ hedge
    obtain ⟨piece, hpiece, hfields⟩ := exists_piece hscoped hdep
    refine ⟨htrace, hid, ?_⟩
    rw [hfields]
    exact hslot piece hpiece hfields.unitId.symm
  · obtain ⟨piece, hpiece, hfields⟩ := exists_piece hscoped hunit
    rw [acceptsUnit_iff hfields, hscoped.contract_eq]
    exact h.accepted piece hpiece

theorem compiled_of_compilable (h : Compilable contract goal planId trace semanticUnits)
    (howned : ∀ unit ∈ implementationUnits contract, OwnsFiles unit.toUnitFields) :
    ∃ c waves items, Compiled contract trace semanticUnits c waves items := by
  obtain ⟨units, hunits⟩ := compiledUnits_isOk h.distinct h.closed howned
  have hscoped : Scoped contract semanticUnits ⟨contract, units⟩ := ⟨rfl, hunits⟩
  have hnodup : Compilation.unitIds ⟨contract, units⟩ |>.Nodup := hscoped.unitIds_eq ▸ h.distinct
  obtain ⟨rank, hrank⟩ := h.ranked
  obtain ⟨waves, hwaves⟩ := (inferWaves_isOk_iff hnodup).mpr
    ⟨rank, (hscoped.ranked_iff hnodup).mpr ⟨h.closed, hrank⟩⟩
  obtain ⟨items, hitems⟩ := collect_isOk_iff.mpr fun unit hunit =>
    workItem_isOk h hscoped hwaves hunit
  exact ⟨_, waves, items, hscoped, hwaves, collect_eq_ok.mp hitems⟩

/-- Compiled items have no delivery contract of their own and pass no candidates on. -/
theorem itemOf_edges {unit : UnitFields} {item : WorkItem} (h : c.ItemOf waves unit item)
    (plan : PlanFields) :
    DeliveryContractRegistry.validateWorkItem item = [] ∧ plan.checkArtifactEdges item = .ok () := by
  have hcontract : DeliveryContractRegistry.contractFor item.role = none :=
    DeliveryContractRegistry.contractFor_of_other_agent (by
      simp [WorkItemFields.role, h.agentId])
  refine ⟨by simp [DeliveryContractRegistry.validateWorkItem, hcontract], ?_⟩
  simp [PlanFields.checkArtifactEdges, PlanFields.checkQualityGate, h.executionMode, hcontract]

theorem plan_accepted (h : Compilable contract goal planId trace semanticUnits)
    (hkept : implementationUnits contract ≠ [])
    (hcompiled : Compiled contract trace semanticUnits c waves items) :
    ({ id := planId, goal := goal, workItems := items, templateId := some "implementation-contract",
       trace := trace } : PlanFields).postInit = .ok () := by
  have hnodup : c.unitIds.Nodup := hcompiled.unitIds_eq ▸ h.distinct
  have hids : items.map (·.id) = c.unitIds.map workItemId := hcompiled.map_id
  have hdeps : ∀ item ∈ items, ∃ unit ∈ c.units, c.ItemOf waves unit.toUnitFields item ∧
      ∀ d ∈ item.dependencyIds, ∃ unitId ∈ c.unitIds, d = workItemId unitId ∧
        waveOf waves unitId < waveOf waves unit.unitId := by
    intro item hitem
    obtain ⟨unit, hunit, hof⟩ := hcompiled.exists_unit hitem
    refine ⟨unit, hunit, hof, fun d hd => ?_⟩
    obtain ⟨unitId, rfl, hdeclared | hbarrier⟩ := (hof.mem_dependencyIds d).mp hd
    · obtain ⟨hknown, hlt⟩ := waveOf_lt hnodup hcompiled.inferWaves hunit hdeclared
      exact ⟨unitId, hknown, rfl, hlt⟩
    · obtain ⟨hknown, hlt, -⟩ := mem_barrier.mp hbarrier
      exact ⟨unitId, hknown, rfl, hlt⟩
  have hknown : ∀ item ∈ items, ∀ d ∈ item.dependencyIds, d ∈ items.map (·.id) := by
    intro item hitem d hd
    obtain ⟨_, _, _, hall⟩ := hdeps item hitem
    obtain ⟨unitId, hmem, rfl, -⟩ := hall d hd
    rw [hids]
    exact List.mem_map_of_mem hmem
  have htemplate : Text.blank "implementation-contract" = false := by decide
  have hprocess : Text.blank "software_delivery" = false := by decide
  rw [PlanFields.postInit_eq_ok]
  refine ⟨h.request.1, h.request.2, ?_, htemplate, hprocess, hcompiled.nodup_iff.mpr hnodup,
    ?_, ?_, ?_, ?_⟩
  · obtain ⟨source, hsource⟩ := List.exists_mem_of_ne_nil _ hkept
    obtain ⟨_, hpart⟩ := exists_compiledId contract semanticUnits source.toUnitFields
    obtain ⟨unit, hunit, -⟩ := hcompiled.toScoped.exists_unit hsource hpart
    obtain ⟨item, hitem, -⟩ := hcompiled.exists_item hunit
    exact List.ne_nil_of_mem hitem
  · rw [DeliveryContractRegistry.validatePlan_eq_nil]
    refine ⟨fun item hitem => ?_, (hcompiled.separate_iff hnodup).mpr h.separate⟩
    obtain ⟨_, _, hof, -⟩ := hdeps item hitem
    exact (itemOf_edges hof { id := "", goal := "", workItems := [], trace := trace }).1
  · intro item hitem
    obtain ⟨_, _, hof, -⟩ := hdeps item hitem
    exact PlanFields.checkItemEdges_eq_ok.mpr ⟨hknown item hitem, by simp [hof.executionMode]⟩
  · refine Layers.acyclic_of_rank
      (fun id => waveOf waves (Text.removePrefix id "wi-code-")) ?_ ?_
    · intro e he d hd
      obtain ⟨item, hitem, rfl⟩ := List.mem_map.mp he
      obtain ⟨unit, _, hof, hall⟩ := hdeps item hitem
      obtain ⟨unitId, -, rfl, hlt⟩ := hall d hd
      simpa [hof.id, workItemId] using hlt
    · intro e he d hd
      obtain ⟨item, hitem, rfl⟩ := List.mem_map.mp he
      simpa [Layers.nodes, PlanFields.graph] using hknown item hitem d hd
  · intro item hitem
    obtain ⟨_, _, hof, -⟩ := hdeps item hitem
    exact (itemOf_edges hof _).2

/-- Among contracts with something to compile whose units own files, exactly
the compilable ones yield a plan. -/
theorem compile_isOk_iff (hkept : implementationUnits contract ≠ [])
    (howned : ∀ unit ∈ contract.units, OwnsFiles unit.toUnitFields) :
    (∃ plan, compile contract goal planId trace semanticUnits = .ok plan) ↔
      Compilable contract goal planId trace semanticUnits := by
  constructor
  · rintro ⟨plan, h⟩
    exact compilable_of_compile h
  · intro h
    obtain ⟨c, waves, items, hcompiled⟩ := compiled_of_compilable h fun unit hunit =>
      howned unit (mem_of_implementationUnits hunit)
    refine ⟨⟨_, plan_accepted h hkept hcompiled⟩, compile_eq_ok.mpr ⟨?_, rfl⟩⟩
    exact compileItems_eq_ok.mpr ⟨c, waves, hcompiled⟩

theorem taskContract_isOk_iff :
    (∃ plan, compile taskContract "deliver tasks" "plan" taskTrace = .ok plan) ↔
      Compilable taskContract "deliver tasks" "plan" taskTrace none :=
  compile_isOk_iff (by decide) (by simp [taskContract, OwnsFiles, apiUnit, apiClientUnit])

/-- The declared dependencies and the owners of consumed interfaces have no cycle. -/
def DeclaredAcyclic (contract : ImplementationContract) : Prop :=
  ∃ rank : String → Nat, ∀ unit ∈ contract.units,
    (∀ d ∈ unit.dependsOn, rank d < rank unit.unitId) ∧
      ∀ interface ∈ contract.interfaces, interface.interfaceId ∈ unit.consumesInterfaces →
        rank interface.ownerUnit < rank unit.unitId

/-- The client comes first, so the service's children are read to include it. -/
def clientFirstContract : ImplementationContract where
  schemaVersion := 1
  units := [apiClientUnit, apiUnit]
  interfaces := taskContract.interfaces
  accepted := by decide

theorem clientFirst_does_not_compile : DeclaredAcyclic clientFirstContract ∧
    implementationUnits clientFirstContract ≠ [] ∧
    (∀ unit ∈ clientFirstContract.units, OwnsFiles unit.toUnitFields) ∧
    compile clientFirstContract "deliver tasks" "plan" taskTrace =
      .error (.valueError "Implementation Contract 存在循环 Wave 依赖") := by
  refine ⟨⟨String.length, ?_⟩, by decide, ?_, rfl⟩
  · simp [clientFirstContract, taskContract, apiUnit, apiClientUnit]
    decide
  · simp [clientFirstContract, OwnsFiles, apiUnit, apiClientUnit]

end ImplementationContractCompiler
end ProjectOS.Workflow
