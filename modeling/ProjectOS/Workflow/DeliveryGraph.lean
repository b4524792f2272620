import ProjectOS.Workflow.CompiledPlan

/-! The graph a contract asks for, stated on the contract alone: its nodes are
the ids of the pieces of the implementation units, its edges come from declared
dependencies and from consumed interfaces. -/
namespace ProjectOS.Workflow
open Base Orchestration Architecture

namespace ImplementationContractCompiler

section Graph
variable (contract : ImplementationContract) (semanticUnits : Option Bool)

/-- The first id waits for the second. An interface reaches every id that reads
as its owner or as a child of its owner. -/
inductive Edge : String → String → Prop where
  | declared {unit dep : ImplementationUnit} {a b : String}
      (unit_mem : unit ∈ implementationUnits contract)
      (dep_mem : dep ∈ implementationUnits contract) (dependsOn : dep.unitId ∈ unit.dependsOn)
      (piece : a ∈ compiledIds contract semanticUnits unit.toUnitFields)
      (depPiece : b ∈ compiledIds contract semanticUnits dep.toUnitFields) : Edge a b
  | consumed {unit : ImplementationUnit} {interface : InterfaceContract} {a b : String}
      (unit_mem : unit ∈ implementationUnits contract)
      (interface_mem : interface ∈ contract.interfaces)
      (consumes : interface.interfaceId ∈ unit.consumesInterfaces)
      (piece : a ∈ compiledIds contract semanticUnits unit.toUnitFields)
      (foreign : interface.ownerUnit ≠ origin contract a)
      (node : b ∈ nodeIds contract semanticUnits)
      (spelled : spelledFrom interface.ownerUnit b = true) : Edge a b

/-- What a node asks of its wave: a hint, or one more than a node it waits for. -/
inductive Demand : String → Nat → Prop where
  | hint {unit : ImplementationUnit} {a : String} (unit_mem : unit ∈ implementationUnits contract)
      (piece : a ∈ compiledIds contract semanticUnits unit.toUnitFields) :
      Demand a (unit.wave.getD 0).toNat
  | edge {a b : String} {n : Nat} (edge : Edge contract semanticUnits a b) (rest : Demand b n) :
      Demand a (n + 1)

/-- Some demand of the second node exceeds every demand of the first. -/
def Below (b a : String) : Prop :=
  ∃ n, Demand contract semanticUnits a n ∧ ∀ m, Demand contract semanticUnits b m → m < n

/-- The first id waits for a unit that is not compiled. -/
inductive Dangling : String → String → Prop where
  | declared {unit : ImplementationUnit} {a d : String}
      (unit_mem : unit ∈ implementationUnits contract) (dependsOn : d ∈ unit.dependsOn)
      (piece : a ∈ compiledIds contract semanticUnits unit.toUnitFields)
      (absent : ∀ dep ∈ implementationUnits contract, dep.unitId ≠ d) : Dangling a d
  | consumed {unit : ImplementationUnit} {interface : InterfaceContract} {a : String}
      (unit_mem : unit ∈ implementationUnits contract)
      (interface_mem : interface ∈ contract.interfaces)
      (consumes : interface.interfaceId ∈ unit.consumesInterfaces)
      (piece : a ∈ compiledIds contract semanticUnits unit.toUnitFields)
      (foreign : interface.ownerUnit ≠ origin contract a)
      (absent : ∀ b ∈ nodeIds contract semanticUnits,
        spelledFrom interface.ownerUnit b = false) : Dangling a interface.ownerUnit

def Closed : Prop := ∀ a d, ¬Dangling contract semanticUnits a d

/-- A rank decreases along every edge. -/
def Ranked (rank : String → Nat) : Prop :=
  ∀ a b, Edge contract semanticUnits a b → rank b < rank a

end Graph

variable {contract : ImplementationContract} {semanticUnits : Option Bool}

theorem spelledFrom_self (unitId : String) : spelledFrom unitId unitId = true := by
  simp [spelledFrom]

theorem implementationUnits_nodup : ((implementationUnits contract).map (·.unitId)).Nodup :=
  contract.facts.unitIds_nodup.sublist (List.filter_sublist.map _)

theorem mem_of_implementationUnits {unit : ImplementationUnit}
    (h : unit ∈ implementationUnits contract) : unit ∈ contract.units := (List.mem_filter.mp h).1

theorem Edge.nodes {a b : String} (h : Edge contract semanticUnits a b) :
    a ∈ nodeIds contract semanticUnits ∧ b ∈ nodeIds contract semanticUnits := by
  cases h with
  | declared unit_mem dep_mem _ piece depPiece =>
    exact ⟨List.mem_flatMap.mpr ⟨_, unit_mem, piece⟩, List.mem_flatMap.mpr ⟨_, dep_mem, depPiece⟩⟩
  | consumed unit_mem _ _ piece _ node _ =>
    exact ⟨List.mem_flatMap.mpr ⟨_, unit_mem, piece⟩, node⟩

/-- With distinct ids a node belongs to one unit. -/
theorem unit_of_node (hnodup : (nodeIds contract semanticUnits).Nodup) {a : String}
    {u v : ImplementationUnit} (hu : u ∈ implementationUnits contract)
    (hv : v ∈ implementationUnits contract)
    (hau : a ∈ compiledIds contract semanticUnits u.toUnitFields)
    (hav : a ∈ compiledIds contract semanticUnits v.toUnitFields) : u = v :=
  eq_of_nodup_flatMap hnodup hu hv hau hav

theorem mem_interfaces {c : Compilation} {interfaceIds : List String}
    {interface : InterfaceContract} :
    interface ∈ c.interfaces interfaceIds ↔
      interface ∈ c.contract.interfaces ∧ interface.interfaceId ∈ interfaceIds := by
  have hentries := Dict.entries_ofList
    (c.contract.interfaces.map fun interface => (interface.interfaceId, interface))
    (by simpa [Function.comp_def, ContractFields.interfaceIds] using
      c.contract.facts.interfaceIds_nodup)
  simp only [Compilation.interfaces, List.mem_filterMap, Dict.get?_eq_some_iff,
    Compilation.interfacesById, hentries, List.mem_map, Prod.mk.injEq]
  constructor
  · rintro ⟨_, hmem, _, hin, rfl, rfl⟩
    exact ⟨hin, hmem⟩
  · rintro ⟨hin, hmem⟩
    exact ⟨_, hmem, interface, hin, rfl, rfl⟩

theorem mem_interfaceDependencies {c : Compilation} {unit : UnitFields} {unitId : String} :
    unitId ∈ c.interfaceDependencies unit ↔ ∃ interface ∈ c.contract.interfaces,
      interface.interfaceId ∈ unit.consumesInterfaces ∧
        interface.ownerUnit ≠ origin c.contract unit.unitId ∧
          unitId ∈ c.originalChildren interface.ownerUnit := by
  simp only [Compilation.interfaceDependencies, mem_dedupe, List.mem_flatMap, mem_interfaces]
  constructor
  · rintro ⟨interface, ⟨hin, hconsumes⟩, hmem⟩
    split at hmem
    · rename_i hforeign
      exact ⟨interface, hin, hconsumes, hforeign, hmem⟩
    · cases hmem
  · rintro ⟨interface, hin, hconsumes, hforeign, hmem⟩
    exact ⟨interface, ⟨hin, hconsumes⟩, by rwa [if_pos hforeign]⟩

/-- The owner stands for itself where no compiled id reads as it or its child. -/
theorem mem_originalChildren {c : Compilation} {ownerId unitId : String}
    (howner : ownerId ∈ c.contract.unitIds) :
    unitId ∈ c.originalChildren ownerId ↔
      unitId ∈ c.unitIds ∧ spelledFrom ownerId unitId = true ∨
        unitId = ownerId ∧ ∀ b ∈ c.unitIds, spelledFrom ownerId b = false := by
  by_cases hnone : c.unitIds.filter (spelledFrom ownerId) = []
  · have hall : ∀ b ∈ c.unitIds, spelledFrom ownerId b = false := by
      simpa [List.filter_eq_nil_iff] using hnone
    simp only [Compilation.originalChildren, hnone, howner, List.isEmpty_nil, Bool.not_true,
      Bool.and_false, Bool.false_eq_true, if_false, List.mem_singleton]
    constructor
    · exact fun h => .inr ⟨h, hall⟩
    · rintro (⟨hmem, hspelled⟩ | ⟨heq, -⟩)
      · rw [hall unitId hmem] at hspelled
        cases hspelled
      · exact heq
  · have hsome : ∃ b ∈ c.unitIds, spelledFrom ownerId b = true := by
      obtain ⟨b, hb⟩ := List.exists_mem_of_ne_nil _ hnone
      exact ⟨b, List.mem_filter.mp hb⟩
    have hisEmpty : (c.unitIds.filter (spelledFrom ownerId)).isEmpty = false := by
      simpa using hnone
    simp only [Compilation.originalChildren, hisEmpty, howner, decide_true, Bool.not_false,
      Bool.and_self, if_true, List.mem_filter]
    constructor
    · exact .inl
    · rintro (h | ⟨-, hall⟩)
      · exact h
      · obtain ⟨b, hb, hspelled⟩ := hsome
        rw [hall b hb] at hspelled
        cases hspelled

theorem distinctPieces (hfile : useSemanticUnits contract semanticUnits = false)
    (hnodup : (nodeIds contract semanticUnits).Nodup) :
    DistinctPieces (implementationUnits contract) := by
  refine ⟨implementationUnits_nodup, ?_⟩
  simpa [nodeIds, compiledIds, piecesOf, hfile, allPieceIds, pieceIds] using hnodup

namespace Scoped
variable {c : Compilation} (h : Scoped contract semanticUnits c) (hnodup : c.unitIds.Nodup)
include h

/-- A compiled unit is a node, and a piece of one implementation unit. -/
theorem exists_source {unit : ImplementationUnit} (hunit : unit ∈ c.units) :
    ∃ source ∈ implementationUnits contract,
      unit.unitId ∈ compiledIds contract semanticUnits source.toUnitFields ∧
        PieceOf source.toUnitFields unit.toUnitFields := by
  obtain ⟨source, hsource, piece, hpiece, hfields⟩ :=
    ImplementationContractCompiler.exists_source h.units hunit
  refine ⟨source, hsource, List.mem_map.mpr ⟨piece, hpiece, hfields.unitId.symm⟩, ?_⟩
  rw [hfields]
  obtain ⟨hlayer, hforbidden, hinputs, hslot, hwave, hprovides, hconsumes⟩ := pieceOf_of_mem hpiece
  exact ⟨hlayer, hforbidden, hinputs, hslot, hwave, hprovides, hconsumes⟩

theorem exists_unit {source : ImplementationUnit} (hsource : source ∈ implementationUnits contract)
    {a : String} (ha : a ∈ compiledIds contract semanticUnits source.toUnitFields) :
    ∃ unit ∈ c.units, unit.unitId = a := by
  obtain ⟨piece, hpiece, rfl⟩ := List.mem_map.mp ha
  obtain ⟨unit, hunit, hfields⟩ := exists_compiled h.units hsource hpiece
  exact ⟨unit, hunit, hfields.unitId⟩

include hnodup

theorem dependsOn_known (hfile : useSemanticUnits contract semanticUnits = false)
    {source : ImplementationUnit} (hsource : source ∈ implementationUnits contract) {d : String}
    (hd : d ∈ source.dependsOn) : ∃ dep ∈ implementationUnits contract, dep.unitId = d := by
  have hunits := h.units
  rw [h.unitIds_eq] at hnodup
  simp only [compiledUnits, hfile, Bool.false_eq_true, if_false] at hunits
  exact ((splitFileUnits_isOk_iff (distinctPieces hfile hnodup)).mp ⟨_, hunits⟩).2 source hsource d hd

/-- A compiled unit depends on the pieces of what its unit depends on; whole
units also keep a dependency that is not compiled. -/
theorem mem_dependsOn {unit source : ImplementationUnit} (hunit : unit ∈ c.units)
    (hsource : source ∈ implementationUnits contract)
    (hpiece : unit.unitId ∈ compiledIds contract semanticUnits source.toUnitFields) {d : String} :
    d ∈ unit.dependsOn ↔
      (∃ dep ∈ implementationUnits contract, dep.unitId ∈ source.dependsOn ∧
        d ∈ compiledIds contract semanticUnits dep.toUnitFields) ∨
      d ∈ source.dependsOn ∧ ∀ dep ∈ implementationUnits contract, dep.unitId ≠ d := by
  have hunits := h.units
  have hknown := fun hfile d => @dependsOn_known _ _ _ h hnodup hfile _ hsource d
  rw [h.unitIds_eq] at hnodup
  unfold compiledUnits at hunits
  split at hunits
  · rename_i hsemantic
    have hids : ∀ unit : ImplementationUnit,
        compiledIds contract semanticUnits unit.toUnitFields = [unit.unitId] := by
      simp [compiledIds, piecesOf, hsemantic]
    rw [← Except.ok.inj hunits] at hunit
    rw [hids, List.mem_singleton] at hpiece
    cases contract.eq_of_unitId_eq (mem_of_implementationUnits hunit)
      (mem_of_implementationUnits hsource) hpiece
    simp only [hids, List.mem_singleton]
    constructor
    · intro hd
      by_cases hdep : ∃ dep ∈ implementationUnits contract, dep.unitId = d
      · obtain ⟨dep, hdep, rfl⟩ := hdep
        exact .inl ⟨dep, hdep, hd, rfl⟩
      · exact .inr ⟨hd, fun dep hmem heq => hdep ⟨dep, hmem, heq⟩⟩
    · rintro (⟨dep, -, hmem, rfl⟩ | ⟨hmem, -⟩)
      · exact hmem
      · exact hmem
  · rename_i hfile
    have hfile : useSemanticUnits contract semanticUnits = false := by simpa using hfile
    have hids : ∀ unit : ImplementationUnit,
        compiledIds contract semanticUnits unit.toUnitFields = pieceIds unit.toUnitFields := by
      simp [compiledIds, piecesOf, hfile, pieceIds]
    obtain ⟨⟨part, source'⟩, -, hrewritten⟩ := exists_left_of_forall₂
      (splitFileUnits_rewritten (distinctPieces hfile hnodup) hunits) hunit
    obtain ⟨hsource', hpart⟩ := source_mem hrewritten.sourced
    have hpart' : unit.unitId ∈ compiledIds contract semanticUnits source'.toUnitFields := by
      rw [hids, ← map_unitId_parts, hrewritten.fields]
      exact List.mem_map_of_mem hpart
    cases unit_of_node hnodup hsource hsource' hpiece hpart'
    simp only [hrewritten.mem_dependsOn, hids]
    constructor
    · exact .inl
    · rintro (hmem | ⟨hd, habsent⟩)
      · exact hmem
      · obtain ⟨dep, hdep, heq⟩ := hknown hfile d hd
        exact absurd heq (habsent dep hdep)

/-- The declared and inferred dependencies of a compiled unit are its edges and
its dangling references. -/
theorem mem_declaredDependencies {unit : ImplementationUnit} (hunit : unit ∈ c.units) {d : String} :
    d ∈ c.declaredDependencies unit.toUnitFields ↔
      Edge contract semanticUnits unit.unitId d ∨
        Dangling contract semanticUnits unit.unitId d := by
  obtain ⟨source, hsource, hpiece, hkept⟩ := h.exists_source hunit
  have hnodes : (nodeIds contract semanticUnits).Nodup := h.unitIds_eq ▸ hnodup
  have howner : ∀ interface ∈ contract.interfaces, interface.ownerUnit ∈ c.contract.unitIds :=
    h.contract_eq ▸ contract.facts.owner_known
  simp only [Compilation.declaredDependencies, mem_dedupe, List.mem_append,
    h.mem_dependsOn hnodup hunit hsource hpiece, mem_interfaceDependencies, h.contract_eq,
    hkept.consumesInterfaces]
  constructor
  · rintro ((⟨dep, hdep, hmem, hd⟩ | ⟨hd, habsent⟩) | ⟨interface, hin, hconsumes, hforeign, hd⟩)
    · exact .inl (.declared hsource hdep hmem hpiece hd)
    · exact .inr (.declared hsource hd hpiece habsent)
    · rw [mem_originalChildren (howner interface hin), h.unitIds_eq] at hd
      rcases hd with ⟨hnode, hspelled⟩ | ⟨rfl, habsent⟩
      · exact .inl (.consumed hsource hin hconsumes hpiece hforeign hnode hspelled)
      · exact .inr (.consumed hsource hin hconsumes hpiece hforeign habsent)
  · rintro (hedge | hdangling)
    · cases hedge with
      | declared unit_mem dep_mem dependsOn piece depPiece =>
        cases unit_of_node hnodes hsource unit_mem hpiece piece
        exact .inl (.inl ⟨_, dep_mem, dependsOn, depPiece⟩)
      | consumed unit_mem interface_mem consumes piece foreign node spelled =>
        cases unit_of_node hnodes hsource unit_mem hpiece piece
        refine .inr ⟨_, interface_mem, consumes, foreign, ?_⟩
        rw [mem_originalChildren (howner _ interface_mem), h.unitIds_eq]
        exact .inl ⟨node, spelled⟩
    · cases hdangling with
      | declared unit_mem dependsOn piece absent =>
        cases unit_of_node hnodes hsource unit_mem hpiece piece
        exact .inl (.inr ⟨dependsOn, absent⟩)
      | consumed unit_mem interface_mem consumes piece foreign absent =>
        cases unit_of_node hnodes hsource unit_mem hpiece piece
        refine .inr ⟨_, interface_mem, consumes, foreign, ?_⟩
        rw [mem_originalChildren (howner _ interface_mem), h.unitIds_eq]
        exact .inr ⟨rfl, absent⟩

theorem not_mem_of_dangling {a d : String} (hdangling : Dangling contract semanticUnits a d) :
    d ∉ c.unitIds := by
  rw [h.unitIds_eq]
  cases hdangling with
  | declared unit_mem dependsOn piece absent =>
    intro hmem
    by_cases hsemantic : useSemanticUnits contract semanticUnits = true
    · obtain ⟨dep, hdep, hd⟩ := List.mem_flatMap.mp hmem
      simp only [compiledIds, piecesOf, hsemantic, if_true, List.map_cons, List.map_nil,
        List.mem_singleton] at hd
      exact absent dep hdep hd.symm
    · obtain ⟨dep, hdep, heq⟩ :=
        h.dependsOn_known hnodup (by simpa using hsemantic) unit_mem dependsOn
      exact absent dep hdep heq
  | consumed _ interface_mem _ _ _ absent =>
    intro hmem
    have := absent _ hmem
    rw [spelledFrom_self] at this
    cases this

/-- All dependencies of the compiled units are compiled exactly when no reference dangles. -/
theorem closed_iff : (∀ unit ∈ c.units, ∀ d ∈ c.declaredDependencies unit.toUnitFields,
    d ∈ c.unitIds) ↔ Closed contract semanticUnits := by
  constructor
  · intro hall a d hdangling
    have hsource : ∃ source ∈ implementationUnits contract,
        a ∈ compiledIds contract semanticUnits source.toUnitFields := by
      cases hdangling with
      | declared unit_mem _ piece _ => exact ⟨_, unit_mem, piece⟩
      | consumed unit_mem _ _ piece _ _ => exact ⟨_, unit_mem, piece⟩
    obtain ⟨source, hsource, ha⟩ := hsource
    obtain ⟨unit, hunit, rfl⟩ := h.exists_unit hsource ha
    exact h.not_mem_of_dangling hnodup hdangling
      (hall unit hunit d ((h.mem_declaredDependencies hnodup hunit).mpr (.inr hdangling)))
  · intro hclosed unit hunit d hd
    rcases (h.mem_declaredDependencies hnodup hunit).mp hd with hedge | hdangling
    · rw [h.unitIds_eq]
      exact hedge.nodes.2
    · exact absurd hdangling (hclosed _ _)

theorem exists_edge_unit {a b : String} (hedge : Edge contract semanticUnits a b) :
    ∃ unit ∈ c.units, unit.unitId = a ∧ b ∈ c.declaredDependencies unit.toUnitFields := by
  have ha := hedge.nodes.1
  rw [nodeIds, List.mem_flatMap] at ha
  obtain ⟨source, hsource, ha⟩ := ha
  obtain ⟨unit, hunit, rfl⟩ := h.exists_unit hsource ha
  exact ⟨unit, hunit, rfl, (h.mem_declaredDependencies hnodup hunit).mpr (.inl hedge)⟩

theorem ranked_iff {rank : String → Nat} : c.Ranked rank ↔
    Closed contract semanticUnits ∧ Ranked contract semanticUnits rank := by
  rw [← h.closed_iff hnodup]
  constructor
  · intro hranked
    refine ⟨fun unit hunit d hd => (hranked unit hunit d hd).1, fun a b hedge => ?_⟩
    obtain ⟨unit, hunit, rfl, hb⟩ := h.exists_edge_unit hnodup hedge
    exact (hranked unit hunit b hb).2
  · rintro ⟨hclosed, hranked⟩ unit hunit d hd
    refine ⟨hclosed unit hunit d hd, hranked _ _ ?_⟩
    rcases (h.mem_declaredDependencies hnodup hunit).mp hd with hedge | hdangling
    · exact hedge
    · exact absurd (hclosed unit hunit d hd) (h.not_mem_of_dangling hnodup hdangling)

/-- The chains the wave inference follows are the demands of the contract. -/
theorem chain_iff (hclosed : Closed contract semanticUnits) {a : String} {n : Nat} :
    Levels.Chain c.waveNodes a n ↔ Demand contract semanticUnits a n := by
  constructor
  · intro hchain
    induction hchain with
    | own known =>
      obtain ⟨unit, hunit, rfl, rfl, -⟩ := (Compilation.waveNodes_eq_some_iff hnodup).mp known
      obtain ⟨source, hsource, hpiece, hkept⟩ := h.exists_source hunit
      rw [hkept.wave]
      exact .hint hsource hpiece
    | edge known dep rest ih =>
      obtain ⟨unit, hunit, rfl, -, rfl⟩ := (Compilation.waveNodes_eq_some_iff hnodup).mp known
      rcases (h.mem_declaredDependencies hnodup hunit).mp dep with hedge | hdangling
      · exact .edge hedge ih
      · exact absurd hdangling (hclosed _ _)
  · intro hdemand
    induction hdemand with
    | hint unit_mem piece =>
      obtain ⟨unit, hunit, rfl⟩ := h.exists_unit unit_mem piece
      obtain ⟨source, hsource, hpiece, hkept⟩ := h.exists_source hunit
      have hnodes : (nodeIds contract semanticUnits).Nodup := h.unitIds_eq ▸ hnodup
      cases unit_of_node hnodes unit_mem hsource piece hpiece
      rw [← hkept.wave]
      exact .own ((Compilation.waveNodes_eq_some_iff hnodup).mpr ⟨unit, hunit, rfl, rfl, rfl⟩)
    | edge edge rest ih =>
      obtain ⟨unit, hunit, rfl, hb⟩ := h.exists_edge_unit hnodup edge
      exact .edge ((Compilation.waveNodes_eq_some_iff hnodup).mpr ⟨unit, hunit, rfl, rfl, rfl⟩)
        hb ih

end Scoped

end ImplementationContractCompiler
end ProjectOS.Workflow
