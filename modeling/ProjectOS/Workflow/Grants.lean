import ProjectOS.Workflow.CompiledPlan

/-! Whether a compiled item can deliver inside its own grant. -/
namespace ProjectOS.Workflow
open Base Orchestration Architecture Compilation

namespace ImplementationContractCompiler
variable {contract : ImplementationContract} {trace : TraceContext} {semanticUnits : Option Bool}

/-- The grant allows a path and no deny pattern reaches it. -/
def Permits (allowed forbidden : List String) (path : String) : Prop :=
  (∃ pattern ∈ allowed, delivers pattern path = true) ∧
    ∀ pattern ∈ forbidden, delivers pattern path = false

structure WithinGrant (item : WorkItem) : Prop where
  owned : ∀ file ∈ item.ownedFiles, Permits item.allowedPaths item.forbiddenPaths file
  required : ∀ path ∈ item.requiredPaths, Permits item.allowedPaths item.forbiddenPaths path
  required_owned : ∀ path ∈ item.requiredPaths, path ∈ item.ownedFiles

/-- The paths of a unit agree after the rewriting for its slot. -/
structure PathsFit (entrypoints : EntrypointContract) (unit : UnitFields) : Prop where
  required : ∀ path ∈ requiredPathsOf unit, path ∈ unit.ownedFiles
  allowed : ∀ file ∈ unit.ownedFiles, (∃ entry ∈ entriesOf entrypoints unit,
    delivers entry file = true) ∨
      ∃ pattern ∈ unit.allowedPaths, delivers (normalizePath (slotOf unit) pattern) file = true
  forbidden : ∀ file ∈ unit.ownedFiles, ∀ pattern ∈ unit.forbiddenPaths,
    isControlPlaneForbiddenPath pattern = false →
      delivers (normalizePath (slotOf unit) pattern) file = false

theorem mem_foldl_withEntry {paths entries : List String} {path : String} :
    path ∈ entries.foldl withEntry paths ↔ path ∈ paths ∨ path ∈ entries := by
  have hone : ∀ paths entry, path ∈ withEntry paths entry ↔ path ∈ paths ∨ path = entry := by
    intro paths entry
    unfold withEntry
    split
    · rename_i hmem
      exact ⟨.inl, fun h => h.elim id fun heq => heq ▸ hmem⟩
    · simp
  induction entries generalizing paths with
  | nil => simp
  | cons entry rest ih => simp only [List.foldl_cons, ih, hone, List.mem_cons, or_assoc]

theorem entry_owned {entrypoints : EntrypointContract} {unit : UnitFields} {entry : String}
    (h : entry ∈ entriesOf entrypoints unit) : entry ∈ unit.ownedFiles := by
  simp only [entriesOf, List.mem_append, backendEntry, frontendEntry] at h
  rcases h with h | h
  · split at h
    · rename_i hcond
      simp only [Bool.and_eq_true, decide_eq_true_eq] at hcond
      exact List.mem_singleton.mp h ▸ hcond.2
    · cases h
  · split at h
    · rename_i hcond
      simp only [Bool.and_eq_true, decide_eq_true_eq] at hcond
      exact List.mem_singleton.mp h ▸ hcond.2
    · cases h

theorem mem_normalizePaths {paths : List String} {slot path : String} :
    path ∈ normalizePaths paths slot ↔ ∃ p ∈ paths, normalizePath slot p = path := by
  simp [normalizePaths]

/-- A file piece delivers within its grant when its path is already spelled for
its slot and is not denied. -/
structure FileFits (unit : UnitFields) (index : Nat) (path : String) : Prop where
  canonical : normalizePath (slotOf (fileChild unit index path)) path = path
  forbidden : ∀ pattern ∈ unit.forbiddenPaths, isControlPlaneForbiddenPath pattern = false →
    delivers (normalizePath (slotOf (fileChild unit index path)) pattern) path = false

theorem mem_requiredPathsOf_fileChild {unit : UnitFields} {index : Nat} {path p : String}
    (hid : childId unit index path ≠ "project-documents") :
    p ∈ requiredPathsOf (fileChild unit index path) ↔
      normalizePath (slotOf (fileChild unit index path)) path = p := by
  have hmem : path ∈ (fileChild unit index path).requiredPaths := by
    simp only [fileChild]
    split
    · exact List.mem_singleton_self path
    · rename_i hsome
      exact List.mem_filter.mpr ⟨by simpa using hsome, by simp⟩
  simp only [requiredPathsOf, fileChild_unitId, hid, if_false, mem_normalizePaths]
  constructor
  · rintro ⟨q, hq, rfl⟩
    rw [fileChild_requiredPaths unit index path hq]
  · exact fun heq => ⟨path, hmem, heq⟩

theorem pathsFit_fileChild {entrypoints : EntrypointContract} {unit : UnitFields}
    (h : unit.postInit = .ok ()) {index : Nat} {path : String} (hpath : path ∈ unit.ownedFiles)
    (hid : childId unit index path ≠ "project-documents") :
    PathsFit entrypoints (fileChild unit index path) ↔ FileFits unit index path := by
  have hconcrete := hasGlob_of_concreteFile ((UnitFields.postInit_eq_ok.mp h).2.2.2.1 path hpath)
  constructor
  · rintro ⟨hrequired, -, hforbidden⟩
    refine ⟨?_, fun pattern => hforbidden path (List.mem_singleton_self path) pattern⟩
    exact List.mem_singleton.mp (hrequired _ ((mem_requiredPathsOf_fileChild hid).mpr rfl))
  · rintro ⟨hcanonical, hforbidden⟩
    refine ⟨fun p hp => ?_, fun file hfile => .inr ⟨path, List.mem_singleton_self path, ?_⟩, ?_⟩
    · rw [← (mem_requiredPathsOf_fileChild hid).mp hp, hcanonical]
      exact List.mem_singleton_self path
    · rw [hcanonical, List.mem_singleton.mp hfile]
      exact delivers_self hconcrete
    · intro file hfile pattern
      rw [List.mem_singleton.mp hfile]
      exact hforbidden pattern

theorem withinGrant_iff {c : Compilation} {waves : Dict String Nat} {unit : UnitFields}
    {item : WorkItem} (h : c.ItemOf waves unit item) :
    WithinGrant item ↔ PathsFit c.contract.entrypoints unit := by
  have hallowed : ∀ file, (∃ pattern ∈ item.allowedPaths, delivers pattern file = true) ↔
      (∃ entry ∈ entriesOf c.contract.entrypoints unit, delivers entry file = true) ∨
        ∃ pattern ∈ unit.allowedPaths,
          delivers (normalizePath (slotOf unit) pattern) file = true := by
    intro file
    simp only [h.allowedPaths, allowedPathsOf, mem_foldl_withEntry, mem_normalizePaths]
    constructor
    · rintro ⟨_, ⟨pattern, hpattern, rfl⟩ | hentry, hmatch⟩
      · exact .inr ⟨pattern, hpattern, hmatch⟩
      · exact .inl ⟨_, hentry, hmatch⟩
    · rintro (⟨entry, hentry, hmatch⟩ | ⟨pattern, hpattern, hmatch⟩)
      · exact ⟨entry, .inr hentry, hmatch⟩
      · exact ⟨_, .inl ⟨pattern, hpattern, rfl⟩, hmatch⟩
  have hforbidden : ∀ file, (∀ pattern ∈ item.forbiddenPaths, delivers pattern file = false) ↔
      ∀ pattern ∈ unit.forbiddenPaths, isControlPlaneForbiddenPath pattern = false →
        delivers (normalizePath (slotOf unit) pattern) file = false := by
    intro file
    simp only [h.forbiddenPaths, projectForbiddenPaths, mem_normalizePaths, List.mem_filter,
      Bool.not_eq_true']
    constructor
    · exact fun hall pattern hpattern hplane => hall _ ⟨pattern, ⟨hpattern, hplane⟩, rfl⟩
    · rintro hall _ ⟨pattern, ⟨hpattern, hplane⟩, rfl⟩
      exact hall pattern hpattern hplane
  have hrequired : ∀ path, path ∈ item.requiredPaths ↔ path ∈ requiredPathsOf unit ∨
      path ∈ entriesOf c.contract.entrypoints unit := by
    intro path
    rw [h.requiredPaths, mem_foldl_withEntry]
  constructor
  · intro hwithin
    refine ⟨?_, ?_, ?_⟩
    · intro path hpath
      exact h.ownedFiles ▸ hwithin.required_owned path ((hrequired path).mpr (.inl hpath))
    · intro file hfile
      exact (hallowed file).mp (hwithin.owned file (h.ownedFiles ▸ hfile)).1
    · intro file hfile
      exact (hforbidden file).mp (hwithin.owned file (h.ownedFiles ▸ hfile)).2
  · intro hfit
    have howned : ∀ file ∈ item.ownedFiles,
        Permits item.allowedPaths item.forbiddenPaths file := by
      intro file hfile
      rw [h.ownedFiles] at hfile
      exact ⟨(hallowed file).mpr (hfit.allowed file hfile),
        (hforbidden file).mpr (hfit.forbidden file hfile)⟩
    have hsub : ∀ path ∈ item.requiredPaths, path ∈ item.ownedFiles := by
      intro path hpath
      rw [h.ownedFiles]
      rcases (hrequired path).mp hpath with hdeclared | hentry
      · exact hfit.required path hdeclared
      · exact entry_owned hentry
    exact ⟨howned, fun path hpath => howned path (hsub path hpath), hsub⟩

/-- The items of a returned plan stay within their grants exactly when the
contract's paths survive the rewriting for the slots. -/
theorem compile_withinGrant_iff {goal planId : String} {plan : ExecutionPlan}
    (h : compile contract goal planId trace semanticUnits = .ok plan) :
    (∀ item ∈ plan.workItems, WithinGrant item) ↔
      ∀ unit ∈ implementationUnits contract,
        ∀ piece ∈ piecesOf contract semanticUnits unit.toUnitFields,
          PathsFit contract.entrypoints piece := by
  obtain ⟨c, waves, hcompiled⟩ := compileItems_eq_ok.mp (compile_eq_ok.mp h).1
  have hfields : ∀ {piece : UnitFields} {unit : ImplementationUnit}, CompiledAs piece unit →
      (PathsFit contract.entrypoints unit.toUnitFields ↔ PathsFit contract.entrypoints piece) := by
    intro piece unit heq
    rw [heq]
    exact ⟨fun hfit => ⟨hfit.required, hfit.allowed, hfit.forbidden⟩,
      fun hfit => ⟨hfit.required, hfit.allowed, hfit.forbidden⟩⟩
  constructor
  · intro hall source hsource piece hpiece
    obtain ⟨unit, hunit, heq⟩ := exists_compiled hcompiled.units hsource hpiece
    obtain ⟨item, hitem, hof⟩ := hcompiled.exists_item hunit
    rw [← hfields heq, ← hcompiled.contract_eq]
    exact (withinGrant_iff hof).mp (hall item hitem)
  · intro hall item hitem
    obtain ⟨unit, hunit, hof⟩ := hcompiled.exists_unit hitem
    obtain ⟨source, hsource, piece, hpiece, heq⟩ := exists_source hcompiled.units hunit
    rw [withinGrant_iff hof, hcompiled.contract_eq, hfields heq]
    exact hall source hsource piece hpiece

/-- The grant is rewritten for the backend partition and the file is not. -/
def appContract : ImplementationContract where
  schemaVersion := 1
  units := [{
    unitId := "tasks"
    layer := "service"
    objective := "keep tasks"
    allowedPaths := ["app/**"]
    ownedFiles := ["app/tasks.py"]
    accepted := by decide }]
  accepted := by decide

def appTrace : TraceContext := ⟨"tasks", "trace", none⟩

theorem compile_appContract_items :
    ((compile appContract "deliver tasks" "plan" appTrace).toOption.map fun plan =>
      plan.workItems.map fun item => (item.ownedFiles, item.allowedPaths)) =
        some [(["app/tasks.py"], ["backend/app/**"])] := by
  decide +kernel

theorem compile_appContract_isOk :
    (compile appContract "deliver tasks" "plan" appTrace).isOk = true :=
  isOk_of_toOption_map compile_appContract_items

theorem appContract_withinGrant_iff : ∃ plan : ExecutionPlan,
    compile appContract "deliver tasks" "plan" appTrace = .ok plan ∧
      ((∀ item ∈ plan.workItems, WithinGrant item) ↔
        ∀ unit ∈ implementationUnits appContract,
          ∀ piece ∈ piecesOf appContract none unit.toUnitFields,
            PathsFit appContract.entrypoints piece) := by
  obtain ⟨plan, h⟩ := exists_of_isOk compile_appContract_isOk
  exact ⟨plan, h, compile_withinGrant_iff h⟩

theorem appContract_outside_grant : ∃ plan : ExecutionPlan,
    compile appContract "deliver tasks" "plan" appTrace = .ok plan ∧
      ¬∀ item ∈ plan.workItems, WithinGrant item := by
  obtain ⟨plan, h⟩ := exists_of_isOk compile_appContract_isOk
  refine ⟨plan, h, fun hall => ?_⟩
  have hitems := compile_appContract_items
  rw [h] at hitems
  obtain ⟨item, _, hplan, hitem, -⟩ := List.map_eq_cons_iff.mp (Option.some.inj hitems)
  obtain ⟨howned, hallowed⟩ := Prod.mk.inj hitem
  obtain ⟨⟨pattern, hpattern, hmatch⟩, -⟩ :=
    (hall item (by simp [hplan])).owned "app/tasks.py" (by simp [howned])
  rw [hallowed, List.mem_singleton] at hpattern
  revert hmatch
  rw [hpattern]
  decide

end ImplementationContractCompiler
end ProjectOS.Workflow
