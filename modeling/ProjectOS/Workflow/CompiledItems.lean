import ProjectOS.Workflow.Compiler

/-! What the compiler stores in a work item: the unit's fields, its wave, and a
dependency on each declared unit and each unit of the barrier. -/
namespace ProjectOS.Workflow
open Base Artifact Orchestration Architecture ImplementationContractCompiler

namespace Compilation
variable {c : Compilation} {waves : Dict String Nat} {trace : TraceContext}

theorem workItemId_injective : Function.Injective workItemId :=
  Text.append_left_injective "wi-code-"

theorem workItemId_not_blank (unitId : String) : Text.blank (workItemId unitId) = false := by
  simp [workItemId, Text.blank_append, show Text.blank "wi-code-" = false by decide]

theorem ids_eq_some_iff {unitId id : String} :
    c.ids.get? unitId = some id ↔ unitId ∈ c.unitIds ∧ id = workItemId unitId := by
  have hvalue : ∀ id, c.ids.get? unitId = some id → id = workItemId unitId := by
    intro id h
    have hmem := Dict.mem_of_mem_ofList (Dict.get?_eq_some_iff.mp h)
    obtain ⟨unit, -, heq⟩ := List.mem_map.mp hmem
    cases heq
    rfl
  have hkeys : unitId ∈ c.ids.keys ↔ unitId ∈ c.unitIds := by
    simp [ids, unitIds, Dict.mem_keys_ofList]
  constructor
  · intro h
    exact ⟨hkeys.mp (Dict.mem_keys_iff.mpr ⟨id, h⟩), hvalue id h⟩
  · rintro ⟨hmem, rfl⟩
    obtain ⟨id, hid⟩ := Dict.mem_keys_iff.mp (hkeys.mpr hmem)
    rw [hid, hvalue id hid]

theorem unitsById_eq_some_iff (h : c.unitIds.Nodup) {unitId : String} {unit : ImplementationUnit} :
    c.unitsById.get? unitId = some unit ↔ unit ∈ c.units ∧ unit.unitId = unitId := by
  have hentries := Dict.entries_ofList (c.units.map fun unit => (unit.unitId, unit))
    (by simpa [Function.comp_def, unitIds] using h)
  rw [Dict.get?_eq_some_iff, unitsById, hentries]
  simp only [List.mem_map, Prod.mk.injEq]
  constructor
  · rintro ⟨_, hmem, rfl, rfl⟩
    exact ⟨hmem, rfl⟩
  · rintro ⟨hmem, rfl⟩
    exact ⟨unit, hmem, rfl, rfl⟩

theorem dependency_eq_ok {ruleId unitId : String} {dep : WorkItemDependency} :
    c.dependency ruleId unitId = .ok dep ↔ unitId ∈ c.unitIds ∧
      dep.toDependencyFields = ⟨workItemId unitId, .system, some ruleId⟩ := by
  simp only [dependency, bind_eq_ok, subscript_eq_ok, ids_eq_some_iff,
    WorkItemDependency.create_eq_ok]
  constructor
  · rintro ⟨_, ⟨hmem, rfl⟩, hdep⟩
    exact ⟨hmem, hdep⟩
  · rintro ⟨hmem, hdep⟩
    exact ⟨_, ⟨hmem, rfl⟩, hdep⟩

theorem dependency_isOk {ruleId unitId : String} (hrule : Text.blank ruleId = false) :
    (∃ dep, c.dependency ruleId unitId = .ok dep) ↔ unitId ∈ c.unitIds := by
  simp only [dependency_eq_ok]
  constructor
  · rintro ⟨_, hmem, _⟩
    exact hmem
  · intro hmem
    refine ⟨⟨⟨workItemId unitId, .system, some ruleId⟩, ?_⟩, hmem, rfl⟩
    simp [DependencyFields.postInit, workItemId_not_blank, hrule]

theorem map_workItemId_collect {ruleId : String} {unitIds : List String}
    {deps : List WorkItemDependency} (h : collect (c.dependency ruleId) unitIds = .ok deps) :
    deps.map (·.workItemId) = unitIds.map workItemId :=
  map_of_collect h fun unitId dep hdep => by rw [(dependency_eq_ok.mp hdep).2]

/-- The units of the barrier below a unit. -/
def barrier (c : Compilation) (waves : Dict String Nat) (unit : UnitFields) : List String :=
  (c.units.filter fun previous => inBarrier waves unit previous.toUnitFields).map (·.unitId)

theorem mem_barrier {unit : UnitFields} {unitId : String} :
    unitId ∈ c.barrier waves unit ↔ unitId ∈ c.unitIds ∧
      waveOf waves unitId < waveOf waves unit.unitId ∧ unitId ∉ unit.dependsOn := by
  simp only [barrier, inBarrier, unitIds, List.mem_map, List.mem_filter, Bool.and_eq_true,
    decide_eq_true_eq]
  constructor
  · rintro ⟨previous, ⟨hmem, hbarrier⟩, rfl⟩
    exact ⟨⟨previous, hmem, rfl⟩, hbarrier⟩
  · rintro ⟨⟨previous, hmem, rfl⟩, hbarrier⟩
    exact ⟨previous, ⟨hmem, hbarrier⟩, rfl⟩

theorem dependencies_eq_ok {unit : UnitFields} {deps : List WorkItemDependency}
    (h : c.dependencies waves unit = .ok deps) :
    (deps.map (·.workItemId)).Nodup ∧ ∀ id, id ∈ deps.map (·.workItemId) ↔
      ∃ unitId, id = workItemId unitId ∧
        (unitId ∈ c.declaredDependencies unit ∨ unitId ∈ c.barrier waves unit) := by
  simp only [dependencies, bind_eq_ok] at h
  obtain ⟨declared, hdeclared, below, hbelow, heq⟩ := h
  cases heq
  refine ⟨nodup_map_uniqueBy _ _, fun id => ?_⟩
  have hmap : below.map (·.workItemId) = (c.barrier waves unit).map workItemId := by
    rw [barrier, List.map_map]
    exact map_of_collect hbelow fun previous dep hdep => by rw [(dependency_eq_ok.mp hdep).2]; rfl
  rw [mem_map_uniqueBy, List.map_append, map_workItemId_collect hdeclared, hmap, ← List.map_append,
    List.mem_map]
  simp only [List.mem_append, eq_comm, and_comm]

theorem dependencies_isOk {unit : UnitFields} :
    (∃ deps, c.dependencies waves unit = .ok deps) ↔
      ∀ unitId ∈ c.declaredDependencies unit, unitId ∈ c.unitIds := by
  have hbarrier : ∃ deps, collect (fun previous : ImplementationUnit =>
      c.dependency "implementation-wave-barrier" previous.unitId)
      (c.units.filter fun previous => inBarrier waves unit previous.toUnitFields) = .ok deps := by
    rw [collect_isOk_iff]
    intro previous hmem
    rw [dependency_isOk (by decide)]
    exact List.mem_map_of_mem (List.mem_filter.mp hmem).1
  have hdeclared := @collect_isOk_iff _ _ _ (c.dependency "implementation-contract")
    (c.declaredDependencies unit)
  simp only [dependency_isOk (c := c) (show Text.blank "implementation-contract" = false by decide)]
    at hdeclared
  rw [← hdeclared]
  obtain ⟨below, hbelow⟩ := hbarrier
  simp only [dependencies, bind_eq_ok]
  constructor
  · rintro ⟨_, declared, h, _⟩
    exact ⟨declared, h⟩
  · rintro ⟨declared, h⟩
    exact ⟨_, declared, h, below, hbelow, rfl⟩

/-- The fields of a compiled item that its unit and its wave determine. -/
structure ItemOf (c : Compilation) (waves : Dict String Nat) (unit : UnitFields)
    (item : WorkItem) : Prop where
  id : item.id = workItemId unit.unitId
  agentId : item.agentId = "code_agent"
  executionMode : item.executionMode = .partitioned
  artifactKey : item.artifactKey = some "implementation"
  stageId : item.stageId = none
  slot : item.slot = some (slotOf unit)
  slot_ne : slotOf unit ≠ ""
  unitId : item.implementationUnitId = some unit.unitId
  ownedFiles : item.ownedFiles = unit.ownedFiles
  allowedPaths : item.allowedPaths = allowedPathsOf c.contract.entrypoints unit
  forbiddenPaths : item.forbiddenPaths = projectForbiddenPaths unit.forbiddenPaths (slotOf unit)
  requiredPaths : item.requiredPaths =
    (entriesOf c.contract.entrypoints unit).foldl withEntry (requiredPathsOf unit)
  wave : item.wave = waveOf waves unit.unitId
  mem_dependencyIds : ∀ id, id ∈ item.dependencyIds ↔ ∃ unitId, id = workItemId unitId ∧
    (unitId ∈ c.declaredDependencies unit ∨ unitId ∈ c.barrier waves unit)

theorem slot_ne_of_postInit {unit : UnitFields} {deps : List WorkItemDependency}
    {refs : List ArtifactRef} {item : WorkItemFields}
    (h : (c.itemFields waves unit deps refs).postInit = .ok item) : slotOf unit ≠ "" := by
  have hgrant := (WorkItemFields.postInit_eq_ok.mp h).2.2.2.2.2.2.2.2.1
  intro hempty
  simp [WorkItemFields.validateExecutionGrant, itemFields, WorkItemFields.missing, hempty,
    show Text.blank "" = true from rfl, raiseWhen] at hgrant

theorem itemOf_workItem {unit : ImplementationUnit} {item : WorkItem}
    (h : c.workItem trace waves unit = .ok item) : ItemOf c waves unit.toUnitFields item := by
  simp only [workItem, bind_eq_ok] at h
  obtain ⟨deps, hdeps, _, _, _, _, hitem⟩ := h
  obtain ⟨digest, legacy, hfields⟩ := WorkItem.create_fields hitem
  have hdependencies := (dependencies_eq_ok hdeps).2
  constructor
  case slot_ne => exact slot_ne_of_postInit (WorkItem.create_eq_ok.mp hitem)
  case mem_dependencyIds =>
    rw [hfields]
    exact hdependencies
  all_goals simp only [hfields, WorkItemFields.fill, itemFields, Option.getD_some]

/-- What the constructor checks of an item besides its dependencies. -/
def AcceptsUnit (c : Compilation) (unit : UnitFields) : Prop :=
  ∃ item, (c.itemFields ∅ unit [] []).postInit = .ok item

/-- The references of a unit's inputs and of its dependencies are well formed. -/
structure ReferencesFit (c : Compilation) (trace : TraceContext) (unit : UnitFields) : Prop where
  inputs : ∀ ref ∈ unit.inputRefs, ∃ parsed, artifactRef ref = .ok parsed
  dependencies : ∀ unitId ∈ c.declaredDependencies unit, ∀ source ∈ c.units,
    source.unitId = unitId → safeId trace.traceId = true ∧ safeId (workItemId unitId) = true ∧
      safeId (slotOf source.toUnitFields) = true

theorem dependencyRef_isOk (h : c.unitIds.Nodup) {unitId : String} (hknown : unitId ∈ c.unitIds) :
    (∃ ref, c.dependencyRef trace unitId = .ok ref) ↔
      ∀ source ∈ c.units, source.unitId = unitId → safeId trace.traceId = true ∧
        safeId (workItemId unitId) = true ∧ safeId (slotOf source.toUnitFields) = true := by
  obtain ⟨unit, hunit, rfl⟩ := List.mem_map.mp hknown
  have hids := ids_eq_some_iff.mpr ⟨hknown, rfl⟩
  have hunits := (unitsById_eq_some_iff h).mpr ⟨hunit, rfl⟩
  have hsafe : safeId "implementation" = true := by decide
  simp only [dependencyRef, bind_eq_ok, subscript_eq_ok, hids, hunits, Option.some.injEq,
    exists_eq_left', ArtifactRef.staged_isOk_iff, hsafe, true_and]
  constructor
  · intro hall source hsource hid
    rw [List.inj_on_of_nodup_map h hsource hunit hid]
    exact hall
  · exact fun hall => hall unit hunit rfl

@[simp] theorem compilationStrategy_itemFields (unit : UnitFields) (deps : List WorkItemDependency)
    (refs : List ArtifactRef) :
    (c.itemFields waves unit deps refs).compilationStrategy =
      .str c.contract.compilationStrategy := rfl

/-- Waves, dependencies and references do not decide any other check. -/
theorem postInit_itemFields {unit : UnitFields} {deps : List WorkItemDependency}
    {refs : List ArtifactRef} :
    (∃ item, (c.itemFields waves unit deps refs).postInit = .ok item) ↔ c.AcceptsUnit unit ∧
      (deps.map (·.workItemId)).Nodup ∧ workItemId unit.unitId ∉ deps.map (·.workItemId) := by
  have hwave : ∀ waves deps refs, 0 ≤ (c.itemFields waves unit deps refs).wave :=
    fun _ _ _ => Int.natCast_nonneg _
  have hdependencies : ∀ waves deps refs,
      (c.itemFields waves unit deps refs).checkDependencies = .ok () ↔
        (deps.map (·.workItemId)).Nodup ∧ workItemId unit.unitId ∉ deps.map (·.workItemId) :=
    fun _ _ _ => WorkItemFields.checkDependencies_eq_ok
  have hempty : (([] : List WorkItemDependency).map (·.workItemId)).Nodup ∧
      workItemId unit.unitId ∉ ([] : List WorkItemDependency).map (·.workItemId) := by simp
  have hfresh : ∀ waves deps refs, (c.itemFields waves unit deps refs).contractDigest = none :=
    fun _ _ _ => rfl
  simp only [AcceptsUnit, WorkItemFields.postInit_isOk_iff (hfresh _ _ _), hdependencies, hwave,
    true_and]
  constructor
  · rintro ⟨hidentity, hpaths, hcode, htools, hkind, hdeps, htexts, hgrant⟩
    exact ⟨⟨hidentity, hpaths, hcode, htools, hkind, hempty, htexts, hgrant⟩, hdeps⟩
  · rintro ⟨⟨hidentity, hpaths, hcode, htools, hkind, -, htexts, hgrant⟩, hdeps⟩
    exact ⟨hidentity, hpaths, hcode, htools, hkind, hdeps, htexts, hgrant⟩

/-- A unit that does not wait for itself is compiled when its dependencies are
compiled and its references and fields are accepted. -/
theorem workItem_isOk_iff (h : c.unitIds.Nodup) {unit : ImplementationUnit}
    (hself : unit.unitId ∉ c.declaredDependencies unit.toUnitFields) :
    (∃ item, c.workItem trace waves unit = .ok item) ↔
      (∀ unitId ∈ c.declaredDependencies unit.toUnitFields, unitId ∈ c.unitIds) ∧
        c.ReferencesFit trace unit.toUnitFields ∧ c.AcceptsUnit unit.toUnitFields := by
  simp only [workItem, bind_eq_ok]
  constructor
  · rintro ⟨item, deps, hdeps, dependencyRefs, hrefs, inputRefs, hinputs, hitem⟩
    have hknown := dependencies_isOk.mp ⟨deps, hdeps⟩
    refine ⟨hknown, ⟨collect_isOk_iff.mp ⟨_, hinputs⟩, fun unitId hmem => ?_⟩, ?_⟩
    · exact (dependencyRef_isOk h (hknown unitId hmem)).mp
        (collect_isOk_iff.mp ⟨_, hrefs⟩ unitId hmem)
    · exact (postInit_itemFields.mp (WorkItem.create_isOk_iff.mp ⟨_, hitem⟩)).1
  · rintro ⟨hknown, hfit, haccepts⟩
    obtain ⟨deps, hdeps⟩ := (@dependencies_isOk c waves unit.toUnitFields).mpr hknown
    obtain ⟨dependencyRefs, hrefs⟩ := collect_isOk_iff.mpr fun unitId hmem =>
      (dependencyRef_isOk h (hknown unitId hmem)).mpr (hfit.dependencies unitId hmem)
    obtain ⟨inputRefs, hinputs⟩ := collect_isOk_iff.mpr hfit.inputs
    obtain ⟨hnodup, hmem⟩ := dependencies_eq_ok hdeps
    have hfresh : workItemId unit.unitId ∉ deps.map (·.workItemId) := by
      rw [hmem]
      rintro ⟨unitId, hid, hdeclared | hbarrier⟩
      · exact hself (workItemId_injective hid ▸ hdeclared)
      · have hlt := (mem_barrier.mp hbarrier).2.1
        rw [← workItemId_injective hid] at hlt
        exact Nat.lt_irrefl _ hlt
    obtain ⟨item, hitem⟩ := WorkItem.create_isOk_iff.mpr
      (postInit_itemFields.mpr ⟨haccepts, hnodup, hfresh⟩)
    exact ⟨item, deps, hdeps, dependencyRefs, hrefs, inputRefs, hinputs, hitem⟩

/-- The walk ends with its answer, not for want of fuel. -/
theorem inferWaves_fuel (h : c.unitIds.Nodup) :
    Levels.levels c.waveNodes c.waveFuel ∅ c.unitIds ≠ .error .outOfFuel := by
  have hlisted : ∀ unitId, c.waveNodes unitId ≠ none → unitId ∈ c.unitIds := by
    intro unitId hknown
    obtain ⟨_, hsome⟩ := Option.ne_none_iff_exists'.mp hknown
    obtain ⟨unit, hunit, -⟩ := Option.map_eq_some_iff.mp hsome
    obtain ⟨hmem, rfl⟩ := (unitsById_eq_some_iff h).mp hunit
    exact List.mem_map_of_mem hmem
  exact Levels.levels_ne_outOfFuel hlisted (by simp [unitIds, waveFuel]) ∅ c.unitIds

theorem inferWaves_eq_ok : c.inferWaves = .ok waves ↔
    Levels.levels c.waveNodes c.waveFuel ∅ c.unitIds = .ok waves := by
  unfold inferWaves
  split <;> simp [*]

section Waves
variable (hnodup : c.unitIds.Nodup)
include hnodup

theorem waveNodes_eq_some_iff {unitId : String} {own : Nat} {deps : List String} :
    c.waveNodes unitId = some (own, deps) ↔ ∃ unit ∈ c.units, unit.unitId = unitId ∧
      own = (unit.wave.getD 0).toNat ∧ deps = c.declaredDependencies unit.toUnitFields := by
  simp only [waveNodes, Option.map_eq_some_iff, unitsById_eq_some_iff hnodup, Prod.mk.injEq]
  constructor
  · rintro ⟨unit, ⟨hmem, hid⟩, rfl, rfl⟩
    exact ⟨unit, hmem, hid, rfl, rfl⟩
  · rintro ⟨unit, hmem, hid, rfl, rfl⟩
    exact ⟨unit, ⟨hmem, hid⟩, rfl, rfl⟩

/-- Every declared dependency of a compiled unit is compiled and ranked below it. -/
def Ranked (c : Compilation) (rank : String → Nat) : Prop :=
  ∀ unit ∈ c.units, ∀ unitId ∈ c.declaredDependencies unit.toUnitFields,
    unitId ∈ c.unitIds ∧ rank unitId < rank unit.unitId

theorem ranked_iff {rank : String → Nat} :
    Levels.Ranked c.waveNodes c.unitIds rank ↔ c.Ranked rank := by
  constructor
  · intro h unit hunit d hd
    obtain ⟨own, deps, hknown, hdeps⟩ := h unit.unitId (List.mem_map_of_mem hunit)
    obtain ⟨unit', hunit', hid, -, rfl⟩ := (waveNodes_eq_some_iff hnodup).mp hknown
    rw [List.inj_on_of_nodup_map hnodup hunit' hunit hid] at hdeps
    exact hdeps d hd
  · intro h unitId hmem
    obtain ⟨unit, hunit, rfl⟩ := List.mem_map.mp hmem
    exact ⟨_, _, (waveNodes_eq_some_iff hnodup).mpr ⟨unit, hunit, rfl, rfl, rfl⟩, h unit hunit⟩

theorem inferWaves_isOk_iff : (∃ waves, c.inferWaves = .ok waves) ↔ ∃ rank, c.Ranked rank := by
  simp only [inferWaves_eq_ok, ← ranked_iff hnodup]
  refine Levels.levels_isOk_iff (by simp [unitIds, waveFuel]) fun unitId hknown => ?_
  obtain ⟨⟨own, deps⟩, hsome⟩ := Option.ne_none_iff_exists'.mp hknown
  obtain ⟨unit, hunit, rfl, -⟩ := (waveNodes_eq_some_iff hnodup).mp hsome
  exact List.mem_map_of_mem hunit

omit hnodup in
theorem isLevel_waveOf (h : c.inferWaves = .ok waves) {unit : ImplementationUnit}
    (hunit : unit ∈ c.units) :
    Levels.IsLevel c.waveNodes unit.unitId (waveOf waves unit.unitId) := by
  obtain ⟨hsound, -, hall⟩ := Levels.levels_sound Levels.sound_empty (inferWaves_eq_ok.mp h)
  obtain ⟨value, hvalue⟩ := hall unit.unitId (List.mem_map_of_mem hunit)
  simpa [waveOf, hvalue] using hsound.isLevel hvalue

theorem hint_le_waveOf (h : c.inferWaves = .ok waves) {unit : ImplementationUnit}
    (hunit : unit ∈ c.units) {hint : Int} (hhint : unit.wave = some hint) :
    hint ≤ waveOf waves unit.unitId := by
  have hknown := (waveNodes_eq_some_iff hnodup).mpr ⟨unit, hunit, rfl, rfl, rfl⟩
  have hle := (isLevel_waveOf h hunit).2 (.own hknown)
  simp only [hhint, Option.getD_some] at hle
  omega

theorem waveOf_lt (h : c.inferWaves = .ok waves) {unit : ImplementationUnit}
    (hunit : unit ∈ c.units) {unitId : String}
    (hdep : unitId ∈ c.declaredDependencies unit.toUnitFields) :
    unitId ∈ c.unitIds ∧ waveOf waves unitId < waveOf waves unit.unitId := by
  obtain ⟨rank, hrank⟩ := (inferWaves_isOk_iff hnodup).mp ⟨waves, h⟩
  obtain ⟨hknown, -⟩ := hrank unit hunit unitId hdep
  obtain ⟨source, hsource, rfl⟩ := List.mem_map.mp hknown
  refine ⟨hknown, ?_⟩
  have hnode := (waveNodes_eq_some_iff hnodup).mpr ⟨unit, hunit, rfl, rfl, rfl⟩
  exact (isLevel_waveOf h hunit).2 (.edge hnode hdep (isLevel_waveOf h hsource).1)

end Waves

end Compilation
end ProjectOS.Workflow
