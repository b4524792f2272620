import ProjectOS.Workflow.CompiledItems

/-! Which unit of the contract an item of a compiled plan comes from. -/
namespace ProjectOS.Workflow
open Base Artifact Orchestration Architecture

theorem isOk_of_toOption_map {ε α β : Type} {x : Except ε α} {f : α → β} {b : β}
    (h : x.toOption.map f = some b) : x.isOk = true := by
  cases x with
  | error => cases h
  | ok => rfl

namespace ImplementationContractCompiler

/-- The pieces of a unit in the chosen strategy. -/
def piecesOf (contract : ImplementationContract) (semanticUnits : Option Bool)
    (unit : UnitFields) : List UnitFields :=
  if useSemanticUnits contract semanticUnits then [unit] else pieces unit

def compiledIds (contract : ImplementationContract) (semanticUnits : Option Bool)
    (unit : UnitFields) : List String :=
  (piecesOf contract semanticUnits unit).map (·.unitId)

theorem exists_compiledId (contract : ImplementationContract) (semanticUnits : Option Bool)
    (unit : UnitFields) : ∃ a, a ∈ compiledIds contract semanticUnits unit := by
  have hpieces : piecesOf contract semanticUnits unit ≠ [] := by
    unfold piecesOf
    split
    · exact List.cons_ne_nil _ _
    · exact pieces_ne_nil unit
  obtain ⟨piece, hpiece⟩ := List.exists_mem_of_ne_nil _ hpieces
  exact ⟨_, List.mem_map_of_mem hpiece⟩

/-- The item was compiled from the unit or from a piece of it. -/
def CompiledFrom (contract : ImplementationContract) (semanticUnits : Option Bool)
    (unit : UnitFields) (item : WorkItem) : Prop :=
  ∃ unitId ∈ compiledIds contract semanticUnits unit, item.implementationUnitId = some unitId

/-- The fields a piece shares with its unit. -/
structure PieceOf (unit piece : UnitFields) : Prop where
  layer : piece.layer = unit.layer
  forbiddenPaths : piece.forbiddenPaths = unit.forbiddenPaths
  inputRefs : piece.inputRefs = unit.inputRefs
  slot : piece.slot = unit.slot
  wave : piece.wave = unit.wave
  providesInterfaces : piece.providesInterfaces = unit.providesInterfaces
  consumesInterfaces : piece.consumesInterfaces = unit.consumesInterfaces

theorem pieceOf_of_mem {contract : ImplementationContract} {semanticUnits : Option Bool}
    {unit piece : UnitFields} (h : piece ∈ piecesOf contract semanticUnits unit) :
    PieceOf unit piece := by
  have hself : PieceOf unit unit := ⟨rfl, rfl, rfl, rfl, rfl, rfl, rfl⟩
  unfold piecesOf pieces at h
  split at h
  · rwa [List.mem_singleton.mp h]
  · split at h
    · rwa [List.mem_singleton.mp h]
    · obtain ⟨⟨path, index⟩, -, rfl⟩ := List.mem_map.mp h
      exact ⟨rfl, rfl, rfl, rfl, rfl, rfl, rfl⟩

variable {contract : ImplementationContract} {semanticUnits : Option Bool}

/-- The compiled unit is the piece with its own dependencies. -/
def CompiledAs (piece : UnitFields) (unit : ImplementationUnit) : Prop :=
  unit.toUnitFields = { piece with dependsOn := unit.dependsOn }

theorem CompiledAs.unitId {piece : UnitFields} {unit : ImplementationUnit}
    (h : CompiledAs piece unit) : unit.unitId = piece.unitId := by
  rw [h]

def allPieces (contract : ImplementationContract) (semanticUnits : Option Bool) :
    List UnitFields :=
  (implementationUnits contract).flatMap fun unit =>
    piecesOf contract semanticUnits unit.toUnitFields

def nodeIds (contract : ImplementationContract) (semanticUnits : Option Bool) : List String :=
  (implementationUnits contract).flatMap fun unit =>
    compiledIds contract semanticUnits unit.toUnitFields

/-- The compiled units are the pieces of the implementation units, in order. -/
theorem compiledUnits_eq_ok {units : List ImplementationUnit}
    (h : compiledUnits contract semanticUnits = .ok units) :
    List.Forall₂ CompiledAs (allPieces contract semanticUnits) units := by
  unfold compiledUnits at h
  split at h
  · rename_i hsemantic
    cases h
    have hpieces : allPieces contract semanticUnits =
        (implementationUnits contract).map (·.toUnitFields) := by
      simp only [allPieces, piecesOf, hsemantic, if_true, List.map_eq_flatMap]
    rw [hpieces, List.forall₂_map_left_iff, List.forall₂_same]
    exact fun unit _ => rfl
  · rename_i hfile
    have hpieces : allPieces contract semanticUnits =
        ((implementationUnits contract).flatMap parts).map (·.toUnitFields) := by
      simp only [allPieces, piecesOf, if_neg hfile, List.map_flatMap, map_fields_parts]
    rw [hpieces, List.forall₂_map_left_iff]
    exact splitFileUnits_fields h

/-- What does not depend on dependencies is known from the pieces. -/
theorem map_compiledUnits {units : List ImplementationUnit} (g : UnitFields → γ)
    (hg : ∀ piece deps, g { piece with dependsOn := deps } = g piece)
    (h : compiledUnits contract semanticUnits = .ok units) :
    units.map (fun unit => g unit.toUnitFields) = (allPieces contract semanticUnits).map g := by
  have hall := compiledUnits_eq_ok h
  generalize allPieces contract semanticUnits = all at hall
  clear h
  induction hall with
  | nil => rfl
  | cons hpiece _ ih => rw [List.map_cons, List.map_cons, ih, hpiece, hg]

theorem map_unitId_compiledUnits {units : List ImplementationUnit}
    (h : compiledUnits contract semanticUnits = .ok units) :
    units.map (·.unitId) = nodeIds contract semanticUnits := by
  rw [map_compiledUnits (·.unitId) (fun _ _ => rfl) h, allPieces, List.map_flatMap]
  rfl

/-- The unit a compiled unit is a piece of. -/
theorem exists_source {units : List ImplementationUnit}
    (h : compiledUnits contract semanticUnits = .ok units) {unit : ImplementationUnit}
    (hmem : unit ∈ units) :
    ∃ source ∈ implementationUnits contract,
      ∃ piece ∈ piecesOf contract semanticUnits source.toUnitFields,
        CompiledAs piece unit := by
  obtain ⟨piece, hpiece, hunit⟩ := exists_left_of_forall₂ (compiledUnits_eq_ok h) hmem
  obtain ⟨source, hsource, hin⟩ := List.mem_flatMap.mp hpiece
  exact ⟨source, hsource, piece, hin, hunit⟩

theorem exists_compiled {units : List ImplementationUnit}
    (h : compiledUnits contract semanticUnits = .ok units) {source : ImplementationUnit}
    (hsource : source ∈ implementationUnits contract) {piece : UnitFields}
    (hpiece : piece ∈ piecesOf contract semanticUnits source.toUnitFields) :
    ∃ unit ∈ units, CompiledAs piece unit :=
  exists_right_of_forall₂ (compiledUnits_eq_ok h) (List.mem_flatMap.mpr ⟨source, hsource, hpiece⟩)

/-- The shared state of a run of the compiler on a contract. -/
structure Scoped (contract : ImplementationContract) (semanticUnits : Option Bool)
    (c : Compilation) : Prop where
  contract_eq : c.contract = contract
  units : compiledUnits contract semanticUnits = .ok c.units

/-- A run of the compiler up to its work items. -/
structure Compiled (contract : ImplementationContract) (trace : TraceContext)
    (semanticUnits : Option Bool) (c : Compilation) (waves : Dict String Nat)
    (items : List WorkItem) : Prop extends Scoped contract semanticUnits c where
  inferWaves : c.inferWaves = .ok waves
  items : List.Forall₂ (fun unit item => c.workItem trace waves unit = .ok item) c.units items

theorem Scoped.unitIds_eq {c : Compilation} (h : Scoped contract semanticUnits c) :
    c.unitIds = nodeIds contract semanticUnits := map_unitId_compiledUnits h.units

variable {trace : TraceContext} {items : List WorkItem}

theorem compileItems_eq_ok : compileItems contract trace semanticUnits = .ok items ↔
    ∃ c waves, Compiled contract trace semanticUnits c waves items := by
  simp only [compileItems, Compilation.workItems, bind_eq_ok, collect_eq_ok]
  constructor
  · rintro ⟨units, hunits, waves, hwaves, hitems⟩
    exact ⟨_, waves, ⟨rfl, hunits⟩, hwaves, hitems⟩
  · rintro ⟨c, waves, ⟨rfl, hunits⟩, hwaves, hitems⟩
    exact ⟨c.units, hunits, waves, hwaves, hitems⟩

theorem compile_eq_ok {goal planId : String} {plan : ExecutionPlan} :
    compile contract goal planId trace semanticUnits = .ok plan ↔
      compileItems contract trace semanticUnits = .ok plan.workItems ∧ plan.toPlanFields = {
        id := planId
        goal := goal
        workItems := plan.workItems
        templateId := some "implementation-contract"
        trace := trace } := by
  simp only [compile, bind_eq_ok, ExecutionPlan.create_eq_ok]
  constructor
  · rintro ⟨items, hitems, hplan⟩
    have hworkItems : plan.workItems = items := by rw [hplan]
    exact ⟨hworkItems ▸ hitems, by rw [hworkItems]; exact hplan⟩
  · rintro ⟨hitems, hplan⟩
    exact ⟨_, hitems, hplan⟩

namespace Compiled
variable {c : Compilation} {waves : Dict String Nat}
  (h : Compiled contract trace semanticUnits c waves items)
include h

theorem exists_unit {item : WorkItem} (hitem : item ∈ items) :
    ∃ unit ∈ c.units, c.ItemOf waves unit.toUnitFields item := by
  obtain ⟨unit, hunit, hok⟩ := mem_of_collect (collect_eq_ok.mpr h.items) hitem
  exact ⟨unit, hunit, Compilation.itemOf_workItem hok⟩

theorem exists_item {unit : ImplementationUnit} (hunit : unit ∈ c.units) :
    ∃ item ∈ items, c.ItemOf waves unit.toUnitFields item := by
  obtain ⟨item, hitem, hok⟩ := collect_mem (collect_eq_ok.mpr h.items) hunit
  exact ⟨item, hitem, Compilation.itemOf_workItem hok⟩

theorem map_id : items.map (·.id) = c.unitIds.map Compilation.workItemId := by
  rw [Compilation.unitIds, List.map_map]
  exact map_of_collect (collect_eq_ok.mpr h.items) fun unit item hok =>
    (Compilation.itemOf_workItem hok).id

theorem nodup_iff : (items.map (·.id)).Nodup ↔ c.unitIds.Nodup := by
  rw [h.map_id, List.nodup_map_iff Compilation.workItemId_injective]

/-- With distinct ids, the unit an item comes from is the piece with its id. -/
theorem compiledFrom_iff (hnodup : c.unitIds.Nodup) {unit : ImplementationUnit} {item : WorkItem}
    (hunit : unit ∈ c.units) (hitem : c.ItemOf waves unit.toUnitFields item)
    {source : ImplementationUnit} (hsource : source ∈ implementationUnits contract) :
    CompiledFrom contract semanticUnits source.toUnitFields item ↔
      ∃ piece ∈ piecesOf contract semanticUnits source.toUnitFields,
        CompiledAs piece unit := by
  simp only [CompiledFrom, hitem.unitId, Option.some.injEq, compiledIds, List.mem_map]
  constructor
  · rintro ⟨_, ⟨piece, hpiece, rfl⟩, hid⟩
    obtain ⟨unit', hunit', hfields⟩ := exists_compiled h.units hsource hpiece
    have heq : unit' = unit :=
      List.inj_on_of_nodup_map hnodup hunit' hunit (by rw [hfields.unitId, hid])
    exact ⟨piece, hpiece, heq ▸ hfields⟩
  · rintro ⟨piece, hpiece, hfields⟩
    exact ⟨_, ⟨piece, hpiece, rfl⟩, hfields.unitId⟩

end Compiled
end ImplementationContractCompiler
end ProjectOS.Workflow
