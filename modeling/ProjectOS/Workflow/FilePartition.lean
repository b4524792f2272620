import ProjectOS.Workflow.DeliveryGraph

/-! The file strategy as a partition of the files of a contract. -/
namespace ProjectOS.Workflow
open Base Orchestration Architecture Compilation

namespace ImplementationContractCompiler
variable {contract : ImplementationContract} {trace : TraceContext} {semanticUnits : Option Bool}
  {items : List WorkItem}

/-- Every file of an implementation unit is the one file of one item, and the
dependencies of a unit hold between all pieces. -/
structure FilePartition (contract : ImplementationContract) (semanticUnits : Option Bool)
    (items : List WorkItem) : Prop where
  ids_nodup : (items.map (·.id)).Nodup
  disjoint : items.Pairwise fun a b => List.Disjoint a.ownedFiles b.ownedFiles
  covers : ∀ file, (∃ item ∈ items, file ∈ item.ownedFiles) ↔
    ∃ unit ∈ implementationUnits contract, file ∈ unit.ownedFiles
  one_file : ∀ unit ∈ implementationUnits contract, unit.ownedFiles ≠ [] → ∀ item ∈ items,
    CompiledFrom contract semanticUnits unit.toUnitFields item → ∃ file, item.ownedFiles = [file]
  edges : ∀ unit ∈ implementationUnits contract, ∀ dep ∈ implementationUnits contract,
    dep.unitId ∈ unit.dependsOn →
      ∀ a ∈ items, CompiledFrom contract semanticUnits unit.toUnitFields a →
        ∀ b ∈ items, CompiledFrom contract semanticUnits dep.toUnitFields b →
          b.id ∈ a.dependencyIds
  child_ids : ∀ unit ∈ implementationUnits contract, 1 < unit.ownedFiles.length →
    ∀ a ∈ unit.ownedFiles.zipIdx, ∀ b ∈ unit.ownedFiles.zipIdx, a.1 ≠ b.1 →
      childId unit.toUnitFields a.2 a.1 ≠ childId unit.toUnitFields b.2 b.1

theorem mem_ownedFiles_pieces {unit : UnitFields} {file : String} :
    (∃ piece ∈ pieces unit, file ∈ piece.ownedFiles) ↔ file ∈ unit.ownedFiles := by
  unfold pieces
  split
  · simp
  · simp only [List.mem_map, Prod.exists]
    constructor
    · rintro ⟨_, ⟨path, index, hmem, rfl⟩, hfile⟩
      rw [fileChild_ownedFiles, List.mem_singleton] at hfile
      exact hfile ▸ List.fst_mem_of_mem_zipIdx hmem
    · intro hfile
      obtain ⟨i, hi, rfl⟩ := List.mem_iff_getElem.mp hfile
      exact ⟨_, ⟨unit.ownedFiles[i], i, by simp [List.mk_mem_zipIdx_iff_getElem?], rfl⟩, by simp⟩

theorem pairwise_zipIdx_iff {paths : List String} :
    paths.zipIdx.Pairwise (fun a b => a.1 ≠ b.1) ↔ paths.Nodup := by
  rw [List.Nodup, ← List.pairwise_map (f := Prod.fst), List.zipIdx_map_fst]

theorem pairwise_pieces_iff {unit : UnitFields} :
    (pieces unit).Pairwise (fun a b => List.Disjoint a.ownedFiles b.ownedFiles) ↔
      unit.ownedFiles.Nodup := by
  unfold pieces
  split
  · rename_i hone
    have hnodup : unit.ownedFiles.Nodup := by
      match hfiles : unit.ownedFiles with
      | [] => exact List.nodup_nil
      | [file] => exact List.nodup_singleton file
      | _ :: _ :: _ => simp [hfiles] at hone
    simp [hnodup]
  · simp only [List.pairwise_map, fileChild_ownedFiles, List.singleton_disjoint,
      List.mem_singleton, ← pairwise_zipIdx_iff]

/-- Files of different units differ, so only repetition within a unit matters. -/
theorem pairwise_allPieces_iff (hfile : useSemanticUnits contract semanticUnits = false) :
    (allPieces contract semanticUnits).Pairwise
        (fun a b => List.Disjoint a.ownedFiles b.ownedFiles) ↔
      ∀ unit ∈ implementationUnits contract, unit.ownedFiles.Nodup := by
  simp only [allPieces, piecesOf, hfile, Bool.false_eq_true, if_false, List.pairwise_flatMap,
    pairwise_pieces_iff, and_iff_left_iff_imp]
  intro _
  have hdistinct : (implementationUnits contract).Pairwise fun u v => u.unitId ≠ v.unitId := by
    rw [← List.pairwise_map (f := fun unit : ImplementationUnit => unit.unitId)]
    exact implementationUnits_nodup
  refine List.Pairwise.imp_of_mem (fun {u v} hu hv hne p hp q hq file hpf hqf => hne ?_) hdistinct
  exact contract.facts.file_owner u (mem_of_implementationUnits hu) v (mem_of_implementationUnits hv)
    file (mem_ownedFiles_pieces.mp ⟨p, hp, hpf⟩) (mem_ownedFiles_pieces.mp ⟨q, hq, hqf⟩)

namespace Compiled
variable {c : Compilation} {waves : Dict String Nat}
  (h : Compiled contract trace semanticUnits c waves items)
include h

theorem map_ownedFiles :
    items.map (·.ownedFiles) = (allPieces contract semanticUnits).map (·.ownedFiles) := by
  have hitems : items.map (·.ownedFiles) = c.units.map (·.ownedFiles) :=
    map_of_collect (collect_eq_ok.mpr h.items) fun unit item hok => (itemOf_workItem hok).ownedFiles
  rw [hitems, map_compiledUnits (·.ownedFiles) (fun _ _ => rfl) h.units]

theorem pairwise_ownedFiles_iff :
    items.Pairwise (fun a b => List.Disjoint a.ownedFiles b.ownedFiles) ↔
      (allPieces contract semanticUnits).Pairwise
        (fun a b => List.Disjoint a.ownedFiles b.ownedFiles) := by
  rw [← List.pairwise_map (f := fun item : WorkItem => item.ownedFiles) (R := List.Disjoint),
    ← List.pairwise_map (f := fun piece : UnitFields => piece.ownedFiles) (R := List.Disjoint),
    h.map_ownedFiles]

theorem mem_ownedFiles (hfile : useSemanticUnits contract semanticUnits = false) {file : String} :
    (∃ item ∈ items, file ∈ item.ownedFiles) ↔
      ∃ unit ∈ implementationUnits contract, file ∈ unit.ownedFiles := by
  have hlists : (∃ item ∈ items, file ∈ item.ownedFiles) ↔
      ∃ files ∈ items.map (·.ownedFiles), file ∈ files := by simp
  rw [hlists, h.map_ownedFiles]
  simp only [allPieces, piecesOf, hfile, Bool.false_eq_true, if_false, List.mem_map,
    List.mem_flatMap]
  constructor
  · rintro ⟨_, ⟨piece, ⟨unit, hunit, hpiece⟩, rfl⟩, hmem⟩
    exact ⟨unit, hunit, mem_ownedFiles_pieces.mp ⟨piece, hpiece, hmem⟩⟩
  · rintro ⟨unit, hunit, hmem⟩
    obtain ⟨piece, hpiece, hin⟩ := mem_ownedFiles_pieces.mpr hmem
    exact ⟨_, ⟨piece, ⟨unit, hunit, hpiece⟩, rfl⟩, hin⟩

end Compiled

theorem ownedFiles_pieces {unit piece : UnitFields} (hfiles : unit.ownedFiles ≠ [])
    (h : piece ∈ pieces unit) : ∃ file, piece.ownedFiles = [file] := by
  unfold pieces at h
  split at h
  · rename_i hone
    rw [List.mem_singleton.mp h]
    match hlist : unit.ownedFiles with
    | [] => exact absurd hlist hfiles
    | [file] => exact ⟨file, rfl⟩
    | _ :: _ :: _ => simp [hlist] at hone
  · obtain ⟨⟨path, index⟩, -, rfl⟩ := List.mem_map.mp h
    exact ⟨path, rfl⟩

/-- Distinct node ids keep the child ids of one unit apart. -/
theorem childId_ne (hfile : useSemanticUnits contract semanticUnits = false)
    (hnodup : (nodeIds contract semanticUnits).Nodup) {unit : ImplementationUnit}
    (hunit : unit ∈ implementationUnits contract) (hmany : 1 < unit.ownedFiles.length)
    {a b : String × Nat} (ha : a ∈ unit.ownedFiles.zipIdx) (hb : b ∈ unit.ownedFiles.zipIdx)
    (hne : a ≠ b) : childId unit.toUnitFields a.2 a.1 ≠ childId unit.toUnitFields b.2 b.1 := by
  have hids := (List.nodup_flatMap.mp hnodup).1 unit hunit
  simp only [compiledIds, piecesOf, hfile, Bool.false_eq_true, if_false, pieces,
    Nat.not_le.mpr hmany, List.map_map] at hids
  exact fun heq => hne (List.inj_on_of_nodup_map hids ha hb heq)

/-- The file strategy partitions the files exactly when the ids of all pieces
are distinct and no unit lists a file twice. -/
theorem filePartition_iff (h : compileItems contract trace semanticUnits = .ok items)
    (hfile : useSemanticUnits contract semanticUnits = false) :
    FilePartition contract semanticUnits items ↔
      (nodeIds contract semanticUnits).Nodup ∧
        ∀ unit ∈ implementationUnits contract, unit.ownedFiles.Nodup := by
  obtain ⟨c, waves, hcompiled⟩ := compileItems_eq_ok.mp h
  have hids : (items.map (·.id)).Nodup ↔ (nodeIds contract semanticUnits).Nodup := by
    rw [hcompiled.nodup_iff, hcompiled.unitIds_eq]
  rw [← pairwise_allPieces_iff hfile, ← hcompiled.pairwise_ownedFiles_iff]
  constructor
  · exact fun hpartition => ⟨hids.mp hpartition.ids_nodup, hpartition.disjoint⟩
  · rintro ⟨hnodes, hdisjoint⟩
    have hnodup : c.unitIds.Nodup := hcompiled.unitIds_eq ▸ hnodes
    refine ⟨hids.mpr hnodes, hdisjoint, fun file => hcompiled.mem_ownedFiles hfile, ?_, ?_, ?_⟩
    · intro source hsource hfiles item hitem hfrom
      obtain ⟨unit, hunit, hof⟩ := hcompiled.exists_unit hitem
      obtain ⟨piece, hpiece, hfields⟩ :=
        (hcompiled.compiledFrom_iff hnodup hunit hof hsource).mp hfrom
      simp only [piecesOf, hfile, Bool.false_eq_true, if_false] at hpiece
      obtain ⟨file, hone⟩ := ownedFiles_pieces hfiles hpiece
      refine ⟨file, ?_⟩
      rw [hof.ownedFiles, hfields]
      exact hone
    · intro source hsource dep hdep hdepends a ha haFrom b hb hbFrom
      obtain ⟨unit, hunit, hof⟩ := hcompiled.exists_unit ha
      obtain ⟨previous, hprevious, hdepOf⟩ := hcompiled.exists_unit hb
      obtain ⟨_, haId, hid⟩ := haFrom
      cases hof.unitId.symm.trans hid
      obtain ⟨_, hbId, hid'⟩ := hbFrom
      cases hdepOf.unitId.symm.trans hid'
      rw [hdepOf.id, hof.mem_dependencyIds]
      refine ⟨_, rfl, .inl ?_⟩
      exact (hcompiled.toScoped.mem_declaredDependencies hnodup hunit).mpr
        (.inl (.declared hsource hdep hdepends haId hbId))
    · intro unit hunit hmany a ha b hb hne
      exact childId_ne hfile hnodes hunit hmany ha hb fun heq => hne (heq ▸ rfl)

/-- A unit on its own, which waits for nothing, is only split. -/
theorem splitFileUnits_alone {unit : ImplementationUnit} (howns : OwnsFiles unit.toUnitFields)
    (hfree : unit.dependsOn = []) : splitFileUnits [unit] = .ok (parts unit) := by
  have hexpand : expand {} [unit] = .ok (expansionOf {} [unit]) :=
    expand_eq_ok.mpr ⟨List.forall_mem_singleton.mpr howns, rfl⟩
  have hrewrite : ∀ part ∈ parts unit,
      rewriteDependencies (expansionOf {} [unit]) part = .ok part := by
    intro part hpart
    have hsource : (expansionOf {} [unit]).sourceByChild.get? part.unitId = some unit := by
      have hlist : (expansionOf {} [unit]).sourceByChild =
          Dict.ofList ((parts unit).map fun part => (part.unitId, unit)) := by
        simp [expansionOf, Dict.ofList]
      rw [hlist, Dict.get?_ofList_iff]
      · exact List.mem_map_of_mem hpart
      · simp
    have hfields : part.toUnitFields ∈ pieces unit.toUnitFields := by
      rw [← map_fields_parts]
      exact List.mem_map_of_mem hpart
    have hnone : part.dependsOn = [] := by
      unfold pieces at hfields
      split at hfields
      · rw [List.mem_singleton.mp hfields]
        exact hfree
      · obtain ⟨_, -, hpiece⟩ := List.mem_map.mp hfields
        rw [← hpiece]
        rfl
    have hsame : { part.toUnitFields with dependsOn := [] } = part.toUnitFields := by
      rw [← hnone]
    rw [rewriteDependencies, subscript, hsource]
    simp only [ok_bind, hfree, collect, List.flatten_nil, hsame]
    exact ImplementationUnit.create_of_accepted part.accepted
  have hexpanded : (expansionOf {} [unit]).expanded = (parts unit).map fun part => part := by
    simp [expansionOf]
  rw [splitFileUnits, hexpand, ok_bind, hexpanded, collect_map_eq_self_iff.mpr hrewrite]

def storeUnit (files : List String) : UnitFields where
  unitId := "store"
  layer := "service"
  objective := "keep tasks"
  allowedPaths := ["src/**"]
  ownedFiles := files

def storeContract : ImplementationContract where
  schemaVersion := 1
  units := [⟨storeUnit ["src/tasks.py"], by decide⟩]
  accepted := by decide

def storeTrace : TraceContext := ⟨"store", "trace", none⟩

theorem storeContract_filePartition_iff : ∃ items,
    compileItems storeContract storeTrace = .ok items ∧
      (FilePartition storeContract none items ↔
        (nodeIds storeContract none).Nodup ∧
          ∀ unit ∈ implementationUnits storeContract, unit.ownedFiles.Nodup) := by
  obtain ⟨items, h⟩ := exists_of_isOk
    (show (compileItems storeContract storeTrace).isOk = true by decide +kernel)
  exact ⟨items, h, filePartition_iff h (by decide)⟩

/-- Two files whose paths collapse to one child id. -/
def collidingContract : ImplementationContract where
  schemaVersion := 1
  units := [⟨storeUnit ["src/user/store.py", "src/user_store.py"], by decide⟩]
  accepted := by decide

def userUnit : ImplementationUnit :=
  ⟨storeUnit ["src/user/store.py", "src/user_store.py"], by decide⟩

theorem compiledUnits_collidingContract :
    compiledUnits collidingContract none = .ok (parts userUnit) := by
  have hfiles : useSemanticUnits collidingContract none = false := by decide
  have hunits : implementationUnits collidingContract = [userUnit] := by decide
  rw [compiledUnits, hfiles, if_neg Bool.false_ne_true, hunits]
  exact splitFileUnits_alone (by simp [OwnsFiles, userUnit, storeUnit]) rfl

theorem fileChild_objective_not_blank {unit : UnitFields} (h : Text.blank unit.objective = false)
    (index : Nat) (path : String) : Text.blank (fileChild unit index path).objective = false := by
  simp [fileChild, fileObjective, Text.blank_append, h]

/-- The texts of both file units are known, so the evaluation need not read them. -/
theorem compileItems_collidingContract :
    (compileItems collidingContract storeTrace).isOk = true := by
  have hparts : parts userUnit = [
      ⟨fileChild userUnit.toUnitFields 0 "src/user/store.py",
        fileChild_accepted userUnit.accepted List.mem_cons_self 0⟩,
      ⟨fileChild userUnit.toUnitFields 1 "src/user_store.py",
        fileChild_accepted userUnit.accepted (List.mem_cons_of_mem _ List.mem_cons_self) 1⟩] := rfl
  rw [compileItems, compiledUnits_collidingContract, ok_bind, Compilation.workItems, hparts]
  unfold Compilation.workItem
  simp (disch :=
    simp only [WorkItemFields.words, itemFields, List.cons_append, List.nil_append,
      List.append_nil, List.forall_mem_cons]
    and_intros
    all_goals first
      | with_reducible exact workItemId_not_blank _
      | with_reducible exact fileChild_objective_not_blank (by decide) _ _
      | decide +kernel
      | exact fun _ h => absurd h List.not_mem_nil) only [collect, WorkItem.create_eq_worded]
  decide +kernel

theorem collidingContract_not_partitioned : ∃ items,
    compileItems collidingContract storeTrace = .ok items ∧
      ¬FilePartition collidingContract none items := by
  obtain ⟨items, h⟩ := exists_of_isOk compileItems_collidingContract
  refine ⟨items, h, fun hpartition => ?_⟩
  have hids : ¬(nodeIds collidingContract none).Nodup := by decide +kernel
  obtain ⟨c, waves, hcompiled⟩ := compileItems_eq_ok.mp h
  rw [← hcompiled.unitIds_eq, ← hcompiled.nodup_iff] at hids
  exact hids hpartition.ids_nodup

end ImplementationContractCompiler
end ProjectOS.Workflow
