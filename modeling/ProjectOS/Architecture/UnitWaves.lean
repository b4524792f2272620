import Mathlib.Order.Bounds.Basic
import ProjectOS.Architecture.DesignPasses
import ProjectOS.Base.Schedules

/-! The waves of the normalization as the least schedule of the dependencies
between known units. -/
namespace ProjectOS.Architecture.Designs
open Base Orchestration

namespace ArchitectureWorkflow

/-- The first unit of a dict by unit id is the only one where ids are distinct. -/
def waveOf (units : List UnitFields) (unitId : String) : Int :=
  ((units.find? (·.unitId = unitId)).bind (·.wave)).getD 0

/-- A dependency of the unit, in the last loop of `validate_hierarchy`. -/
def checkEarlierWave (units : List UnitFields) (unit : UnitFields) (dependency : String) :
    Result Unit :=
  raiseWhen (unit.wave.getD 0 ≤ waveOf units dependency)
    ("实现单元 " ++ unit.unitId ++ " 必须依赖更早 wave；" ++ dependency ++ " 为 wave=" ++
      toString (waveOf units dependency) ++ ", 当前为 wave=" ++ toString (unit.wave.getD 0))

def checkUnitWave (units : List UnitFields) (unit : UnitFields) : Result Unit := do
  let unknown := unit.dependsOn.filter (· ∉ units.map (·.unitId))
  raiseWhen (!unknown.isEmpty) ("实现单元 " ++ unit.unitId ++ " 依赖不存在的实现单元: " ++
    Text.join ", " (Text.sorted (dedupe unknown)))
  forEach (checkEarlierWave units unit) unit.dependsOn

/-- The last loop of `validate_hierarchy`, over the units of all designs. -/
def checkWaves (units : List UnitFields) : Result Unit := forEach (checkUnitWave units) units

def setWave (wave : String → Int) (unit : UnitFields) : UnitFields :=
  { unit with wave := some (wave unit.unitId) }

/-- `depends_on` restricted to known units. -/
def DependsOn (designs : List ImplementationDesign) (unitId dependency : String) : Prop :=
  ∃ unit ∈ allUnits designs, unit.unitId = unitId ∧ dependency ∈ unit.dependsOn ∧
    dependency ∈ unitIdsOf designs

def Acyclic (designs : List ImplementationDesign) : Prop :=
  ∀ unitId, ¬ Relation.TransGen (DependsOn designs) unitId unitId

/-- The schema admits no negative wave. -/
def HintsAdmitted (designs : List ImplementationDesign) : Prop :=
  ∀ unit ∈ allUnits designs, ∀ wave, unit.wave = some wave → 0 ≤ wave

/-- What a wave of the unit must be, given the waves of the others. -/
def Admissible (designs : List ImplementationDesign) (wave : String → Int) (unit : UnitFields) :
    Set Int :=
  {n | unit.wave.getD 0 ≤ n ∧ ∀ d ∈ unit.dependsOn, d ∈ unitIdsOf designs → wave d < n}

def IsSchedule (designs : List ImplementationDesign) (wave : String → Int) : Prop :=
  ∀ unit ∈ allUnits designs, wave unit.unitId ∈ Admissible designs wave unit

section Levels
variable {designs : List ImplementationDesign} (hnodup : (unitIdsOf designs).Nodup)
include hnodup

theorem find?_unit_eq_some_iff {unitId : String} {unit : UnitFields} :
    (allUnits designs).find? (·.unitId = unitId) = some unit ↔
      unit ∈ allUnits designs ∧ unit.unitId = unitId := by
  constructor
  · intro h
    exact ⟨List.mem_of_find?_eq_some h, by simpa using List.find?_some h⟩
  · rintro ⟨hmem, rfl⟩
    cases hfind : (allUnits designs).find? (·.unitId = unit.unitId) with
    | none => simpa using List.find?_eq_none.mp hfind unit hmem
    | some other =>
      have hid : other.unitId = unit.unitId := by simpa using List.find?_some hfind
      rw [List.inj_on_of_nodup_map hnodup (List.mem_of_find?_eq_some hfind) hmem hid]

theorem waveNodes_eq_some_iff {unitId : String} {own : Nat} {deps : List String} :
    waveNodes (allUnits designs) unitId = some (own, deps) ↔
      ∃ unit ∈ allUnits designs, unit.unitId = unitId ∧ own = waveHint unit ∧
        deps = unit.dependsOn.filter (· ∈ unitIdsOf designs) := by
  simp only [waveNodes, Option.map_eq_some_iff, find?_unit_eq_some_iff hnodup, Prod.mk.injEq]
  constructor
  · rintro ⟨unit, ⟨hmem, hid⟩, rfl, rfl⟩
    exact ⟨unit, hmem, hid, rfl, rfl⟩
  · rintro ⟨unit, hmem, hid, rfl, rfl⟩
    exact ⟨unit, ⟨hmem, hid⟩, rfl, rfl⟩

theorem waveNodes_unit {unit : UnitFields} (h : unit ∈ allUnits designs) :
    waveNodes (allUnits designs) unit.unitId =
      some (waveHint unit, unit.dependsOn.filter (· ∈ unitIdsOf designs)) :=
  (waveNodes_eq_some_iff hnodup).mpr ⟨unit, h, rfl, rfl, rfl⟩

theorem edge_waveNodes : Levels.Edge (waveNodes (allUnits designs)) = DependsOn designs := by
  funext unitId dependency
  apply propext
  constructor
  · rintro ⟨own, deps, hknown, hd⟩
    obtain ⟨unit, hunit, hid, -, rfl⟩ := (waveNodes_eq_some_iff hnodup).mp hknown
    rw [List.mem_filter, decide_eq_true_eq] at hd
    exact ⟨unit, hunit, hid, hd⟩
  · rintro ⟨unit, hunit, rfl, hd⟩
    refine ⟨_, _, waveNodes_unit hnodup hunit, ?_⟩
    rw [List.mem_filter, decide_eq_true_eq]
    exact hd

theorem mem_unitIdsOf_of_known {unitId : String}
    (h : waveNodes (allUnits designs) unitId ≠ none) : unitId ∈ unitIdsOf designs := by
  obtain ⟨⟨own, deps⟩, hsome⟩ := Option.ne_none_iff_exists'.mp h
  obtain ⟨unit, hunit, rfl, -⟩ := (waveNodes_eq_some_iff hnodup).mp hsome
  exact List.mem_map_of_mem hunit

omit hnodup in
theorem DependsOn.mem {unitId dependency : String} (h : DependsOn designs unitId dependency) :
    unitId ∈ unitIdsOf designs := by
  obtain ⟨unit, hunit, rfl, -⟩ := h
  exact List.mem_map_of_mem hunit

omit hnodup in
theorem acyclic_iff : Acyclic designs ↔
    ∀ unitId ∈ unitIdsOf designs, ¬ Relation.TransGen (DependsOn designs) unitId unitId := by
  constructor
  · exact fun h unitId _ => h unitId
  · intro h unitId hcycle
    obtain ⟨next, hnext, -⟩ := Relation.TransGen.head'_iff.mp hcycle
    exact h unitId hnext.mem hcycle

/-- The recursion resolves every unit exactly when no dependencies form a cycle. -/
theorem levels_isOk_iff_acyclic :
    (∃ resolved, Levels.levels (waveNodes (allUnits designs)) ((allUnits designs).length + 1) ∅
      (unitIdsOf designs) = .ok resolved) ↔ Acyclic designs := by
  have hlength : (unitIdsOf designs).length < (allUnits designs).length + 1 := by
    simp [unitIdsOf]
  rw [Levels.levels_isOk_iff hlength fun unitId h => mem_unitIdsOf_of_known hnodup h,
    Levels.exists_ranked_iff, edge_waveNodes hnodup, acyclic_iff]
  intro unitId hmem
  obtain ⟨unit, hunit, rfl⟩ := List.mem_map.mp hmem
  refine ⟨_, _, waveNodes_unit hnodup hunit, fun d hd => ?_⟩
  simpa using (List.mem_filter.mp hd).2

end Levels

/-- `normalizeUnitWaves` returns its input, or it sets the waves of a resolved walk. -/
theorem normalizeUnitWaves_cases (designs : List ImplementationDesign) :
    (¬ ((unitIdsOf designs).Nodup ∧ Acyclic designs) ∧ normalizeUnitWaves designs = designs) ∨
      (unitIdsOf designs).Nodup ∧ Acyclic designs ∧ ∃ resolved,
        Levels.levels (waveNodes (allUnits designs)) ((allUnits designs).length + 1) ∅
          (unitIdsOf designs) = .ok resolved ∧
        normalizeUnitWaves designs = designs.map (mapUnits (withWave resolved)) := by
  by_cases hnodup : (unitIdsOf designs).Nodup
  · have hiff := levels_isOk_iff_acyclic hnodup
    have hguard : hasDuplicates ((allUnits designs).map (·.unitId)) = false := by
      simpa [hasDuplicates, unitIdsOf] using hnodup
    cases hlevels : Levels.levels (waveNodes (allUnits designs)) ((allUnits designs).length + 1) ∅
        (unitIdsOf designs) with
    | error failure =>
      left
      rw [hlevels] at hiff
      refine ⟨fun h => ?_, ?_⟩
      · obtain ⟨resolved, hresolved⟩ := hiff.mpr h.2
        cases hresolved
      · rw [unitIdsOf] at hlevels
        simp [normalizeUnitWaves, hguard, hlevels]
    | ok resolved =>
      right
      refine ⟨hnodup, hiff.mp ⟨resolved, hlevels⟩, resolved, rfl, ?_⟩
      rw [unitIdsOf] at hlevels
      simp [normalizeUnitWaves, hguard, hlevels]
  · left
    refine ⟨fun h => hnodup h.1, ?_⟩
    have hguard : hasDuplicates ((allUnits designs).map (·.unitId)) = true := by
      simpa [hasDuplicates, unitIdsOf] using hnodup
    simp [normalizeUnitWaves, hguard]

theorem allUnits_map_mapUnits (change : UnitFields → UnitFields)
    (designs : List ImplementationDesign) :
    allUnits (designs.map (mapUnits change)) = (allUnits designs).map change := by
  simp only [allUnits, List.flatMap_map, List.map_flatMap]
  rfl

theorem map_mapUnits_congr {change change' : UnitFields → UnitFields}
    {designs : List ImplementationDesign}
    (h : ∀ unit ∈ allUnits designs, change unit = change' unit) :
    designs.map (mapUnits change) = designs.map (mapUnits change') := by
  apply List.map_congr_left
  intro design hdesign
  unfold mapUnits
  congr 1
  apply List.map_congr_left
  exact fun unit hunit => h unit (List.mem_flatMap.mpr ⟨design, hdesign, hunit⟩)

/-- The waves are those of the least schedule: each is as small as its hint and
the waves of its dependencies let it be, and no schedule has a smaller one. -/
theorem normalizeUnitWaves_schedule {designs : List ImplementationDesign}
    (hhints : HintsAdmitted designs) (hnodup : (unitIdsOf designs).Nodup)
    (hacyclic : Acyclic designs) :
    ∃ wave : String → Int,
      normalizeUnitWaves designs = designs.map (mapUnits (setWave wave)) ∧
      (∀ unit ∈ allUnits designs, IsLeast (Admissible designs wave unit) (wave unit.unitId)) ∧
      ∀ other, IsSchedule designs other →
        ∀ unit ∈ allUnits designs, wave unit.unitId ≤ other unit.unitId := by
  rcases normalizeUnitWaves_cases designs with ⟨hneither, -⟩ | ⟨-, -, resolved, hlevels, heq⟩
  · exact absurd ⟨hnodup, hacyclic⟩ hneither
  obtain ⟨hsound, -, hall⟩ := Levels.levels_sound Levels.sound_empty hlevels
  have hschedules := hsound.schedules fun unitId h =>
    hall unitId (mem_unitIdsOf_of_known hnodup h)
  have hhint {unit : UnitFields} (hunit : unit ∈ allUnits designs) :
      (waveHint unit : Int) = unit.wave.getD 0 := by
    unfold waveHint
    cases hwave : unit.wave with
    | none => rfl
    | some wave => exact Int.toNat_of_nonneg (hhints unit hunit wave hwave)
  refine ⟨fun unitId => ((resolved.get? unitId).getD 0 : Nat), ?_, ?_, ?_⟩
  · rw [heq]
    apply map_mapUnits_congr
    intro unit hunit
    obtain ⟨value, hvalue⟩ := hall unit.unitId (List.mem_map_of_mem hunit)
    simp [withWave, setWave, hvalue]
  · intro unit hunit
    have hknown := waveNodes_unit hnodup hunit
    obtain ⟨hown, hdeps⟩ := hschedules _ _ _ hknown
    constructor
    · refine ⟨?_, fun d hd hmem => ?_⟩
      · rw [← hhint hunit]
        exact Int.ofNat_le.mpr hown
      · exact Int.ofNat_lt.mpr (hdeps d (List.mem_filter.mpr ⟨hd, by simpa using hmem⟩))
    · rintro n ⟨hn, habove⟩
      obtain ⟨value, hvalue⟩ := hall unit.unitId (List.mem_map_of_mem hunit)
      dsimp only at habove ⊢
      rw [hvalue, Option.getD_some]
      rcases hsound.attained hvalue hknown with rfl | ⟨d, hd, w, hw, rfl⟩
      · rwa [hhint hunit]
      · obtain ⟨hdep, hmem⟩ := List.mem_filter.mp hd
        have hlt := habove d hdep (by simpa using hmem)
        rw [hw, Option.getD_some] at hlt
        omega
  · intro other hother unit hunit
    have hnonneg {unit : UnitFields} (hunit : unit ∈ allUnits designs) :
        0 ≤ other unit.unitId := by
      have hle := (hother unit hunit).1
      have hzero := hhint hunit
      omega
    have hbelow : Levels.Schedules (waveNodes (allUnits designs)) fun id => (other id).toNat := by
      intro unitId own deps hknown
      obtain ⟨unit, hunit, rfl, rfl, rfl⟩ := (waveNodes_eq_some_iff hnodup).mp hknown
      have hle := (hother unit hunit).1
      have hzero := hhint hunit
      dsimp only
      refine ⟨by omega, fun d hd => ?_⟩
      obtain ⟨hdep, hmem⟩ := List.mem_filter.mp hd
      rw [decide_eq_true_eq] at hmem
      have hlt := (hother unit hunit).2 d hdep hmem
      obtain ⟨source, hsource, rfl⟩ := List.mem_map.mp hmem
      have hsourceNonneg := hnonneg hsource
      omega
    obtain ⟨value, hvalue⟩ := hall unit.unitId (List.mem_map_of_mem hunit)
    have hle := (hsound.isLevel hvalue).le_of_schedules hbelow
    have hunitNonneg := hnonneg hunit
    dsimp only at hle ⊢
    rw [hvalue, Option.getD_some]
    omega

section SetWave
variable (wave : String → Int) (designs : List ImplementationDesign)

theorem mem_allUnits_setWave {unit : UnitFields} :
    unit ∈ allUnits (designs.map (mapUnits (setWave wave))) ↔
      ∃ source ∈ allUnits designs, setWave wave source = unit := by
  rw [allUnits_map_mapUnits, List.mem_map]

@[simp] theorem unitIdsOf_setWave :
    unitIdsOf (designs.map (mapUnits (setWave wave))) = unitIdsOf designs := by
  unfold unitIdsOf
  rw [allUnits_map_mapUnits, List.map_map]
  rfl

theorem dependsOn_setWave :
    DependsOn (designs.map (mapUnits (setWave wave))) = DependsOn designs := by
  funext unitId dependency
  apply propext
  unfold DependsOn
  rw [unitIdsOf_setWave]
  constructor
  · rintro ⟨unit, hunit, hedge⟩
    obtain ⟨source, hsource, rfl⟩ := (mem_allUnits_setWave wave designs).mp hunit
    exact ⟨source, hsource, hedge⟩
  · rintro ⟨unit, hunit, hedge⟩
    exact ⟨_, (mem_allUnits_setWave wave designs).mpr ⟨unit, hunit, rfl⟩, hedge⟩

theorem waveOf_setWave {unitId : String} (h : unitId ∈ unitIdsOf designs) :
    waveOf (allUnits (designs.map (mapUnits (setWave wave)))) unitId = wave unitId := by
  obtain ⟨unit, hunit, rfl⟩ := List.mem_map.mp h
  unfold waveOf
  cases hfind : (allUnits (designs.map (mapUnits (setWave wave)))).find?
      (·.unitId = unit.unitId) with
  | none =>
    have hmem := (mem_allUnits_setWave wave designs).mpr ⟨unit, hunit, rfl⟩
    simpa [setWave] using List.find?_eq_none.mp hfind _ hmem
  | some found =>
    have hid : found.unitId = unit.unitId := by simpa using List.find?_some hfind
    obtain ⟨source, -, rfl⟩ :=
      (mem_allUnits_setWave wave designs).mp (List.mem_of_find?_eq_some hfind)
    exact congrArg wave hid

/-- Under a schedule the check of a known dependency finds an earlier wave. -/
theorem checkEarlierWave_setWave (hwave : IsSchedule designs wave) {unit : UnitFields}
    (hunit : unit ∈ allUnits (designs.map (mapUnits (setWave wave)))) {dependency : String}
    (hd : dependency ∈ unit.dependsOn) (hknown : dependency ∈ unitIdsOf designs) :
    checkEarlierWave (allUnits (designs.map (mapUnits (setWave wave)))) unit dependency =
      .ok () := by
  obtain ⟨source, hsource, rfl⟩ := (mem_allUnits_setWave wave designs).mp hunit
  have hlt : wave dependency < wave source.unitId := (hwave source hsource).2 dependency hd hknown
  unfold checkEarlierWave
  rw [waveOf_setWave wave designs hknown, raiseWhen_eq_ok]
  exact decide_eq_false (not_le.mpr hlt)

theorem checkWaves_setWave (hwave : IsSchedule designs wave)
    (hknown : ∀ unit ∈ allUnits designs, ∀ d ∈ unit.dependsOn, d ∈ unitIdsOf designs) :
    checkWaves (allUnits (designs.map (mapUnits (setWave wave)))) = .ok () := by
  unfold checkWaves
  rw [forEach_eq_ok]
  intro unit hunit
  obtain ⟨source, hsource, hsame⟩ := (mem_allUnits_setWave wave designs).mp hunit
  have hdeps : ∀ d ∈ unit.dependsOn, d ∈ unitIdsOf designs := by
    rw [← hsame]
    exact hknown source hsource
  have hunknown : unit.dependsOn.filter
      (· ∉ (allUnits (designs.map (mapUnits (setWave wave)))).map (·.unitId)) = [] := by
    rw [List.filter_eq_nil_iff]
    intro d hd
    have hmem : d ∈ unitIdsOf (designs.map (mapUnits (setWave wave))) := by
      rw [unitIdsOf_setWave]
      exact hdeps d hd
    simpa [unitIdsOf] using hmem
  unfold checkUnitWave
  rw [hunknown]
  simp only [List.isEmpty_nil, Bool.not_true]
  rw [check_bind_eq_ok, raiseWhen_eq_ok]
  refine ⟨rfl, forEach_eq_ok.mpr fun d hd => ?_⟩
  exact checkEarlierWave_setWave wave designs hwave hunit hd (hdeps d hd)

end SetWave

/-- A schedule that is its own list of hints is not raised again. -/
theorem normalizeUnitWaves_idempotent {designs : List ImplementationDesign}
    (hhints : HintsAdmitted designs) :
    normalizeUnitWaves (normalizeUnitWaves designs) = normalizeUnitWaves designs := by
  rcases normalizeUnitWaves_cases designs with ⟨-, heq⟩ | ⟨hnodup, hacyclic, -⟩
  · rw [heq, heq]
  obtain ⟨wave, heq, hleast, -⟩ := normalizeUnitWaves_schedule hhints hnodup hacyclic
  have hwave : IsSchedule designs wave := fun unit hunit => (hleast unit hunit).1
  have hadmitted : HintsAdmitted (designs.map (mapUnits (setWave wave))) := by
    intro unit hunit value hvalue
    obtain ⟨source, hsource, rfl⟩ := (mem_allUnits_setWave wave designs).mp hunit
    cases hvalue
    have hle := (hwave source hsource).1
    cases hhint : source.wave with
    | none => simpa [hhint] using hle
    | some hint =>
      have hnonneg := hhints source hsource hint hhint
      rw [hhint, Option.getD_some] at hle
      omega
  obtain ⟨wave', heq', hleast', hbelow⟩ := normalizeUnitWaves_schedule hadmitted
    (by simpa using hnodup) (by rwa [Acyclic, dependsOn_setWave])
  rw [heq, heq']
  have hsame : ∀ unit ∈ allUnits (designs.map (mapUnits (setWave wave))),
      wave' unit.unitId = wave unit.unitId := by
    intro unit hunit
    apply le_antisymm
    · apply hbelow wave _ unit hunit
      intro other hother
      obtain ⟨source, hsource, rfl⟩ := (mem_allUnits_setWave wave designs).mp hother
      refine ⟨le_refl _, ?_⟩
      rw [unitIdsOf_setWave]
      exact (hwave source hsource).2
    · have hle := (hleast' unit hunit).1.1
      obtain ⟨source, hsource, rfl⟩ := (mem_allUnits_setWave wave designs).mp hunit
      exact hle
  have hid : designs.map (mapUnits (setWave wave)) =
      (designs.map (mapUnits (setWave wave))).map (mapUnits id) := by
    simp [mapUnits]
  conv_rhs => rw [hid]
  apply map_mapUnits_congr
  intro unit hunit
  have heq := hsame unit hunit
  obtain ⟨source, hsource, rfl⟩ := (mem_allUnits_setWave wave designs).mp hunit
  unfold setWave at heq ⊢
  dsimp only at heq ⊢
  rw [heq, id]

/-- The normalization sets the waves of the least schedule and nothing else, or
returns its input; a second pass changes nothing. -/
theorem unitWaves_least_schedule (designs : List ImplementationDesign)
    (hhints : HintsAdmitted designs) :
    ((unitIdsOf designs).Nodup → Acyclic designs → ∃ wave : String → Int,
      normalizeUnitWaves designs = designs.map (mapUnits (setWave wave)) ∧
      (∀ unit ∈ allUnits designs, IsLeast (Admissible designs wave unit) (wave unit.unitId)) ∧
      (∀ other, IsSchedule designs other →
        ∀ unit ∈ allUnits designs, wave unit.unitId ≤ other unit.unitId) ∧
      (∀ unit ∈ allUnits (normalizeUnitWaves designs), ∀ d ∈ unit.dependsOn,
        d ∈ unitIdsOf designs →
          checkEarlierWave (allUnits (normalizeUnitWaves designs)) unit d = .ok ()) ∧
      ((∀ unit ∈ allUnits designs, ∀ d ∈ unit.dependsOn, d ∈ unitIdsOf designs) →
        checkWaves (allUnits (normalizeUnitWaves designs)) = .ok ())) ∧
    (¬ ((unitIdsOf designs).Nodup ∧ Acyclic designs) → normalizeUnitWaves designs = designs) ∧
    normalizeUnitWaves (normalizeUnitWaves designs) = normalizeUnitWaves designs := by
  refine ⟨fun hnodup hacyclic => ?_, fun hneither => ?_, normalizeUnitWaves_idempotent hhints⟩
  · obtain ⟨wave, heq, hleast, hbelow⟩ := normalizeUnitWaves_schedule hhints hnodup hacyclic
    have hwave : IsSchedule designs wave := fun unit hunit => (hleast unit hunit).1
    refine ⟨wave, heq, hleast, hbelow, ?_, ?_⟩
    · rw [heq]
      exact fun unit hunit d hd hknown =>
        checkEarlierWave_setWave wave designs hwave hunit hd hknown
    · rw [heq]
      exact checkWaves_setWave wave designs hwave
  · rcases normalizeUnitWaves_cases designs with ⟨-, heq⟩ | ⟨hnodup, hacyclic, -⟩
    · exact heq
    · exact absurd ⟨hnodup, hacyclic⟩ hneither

def sameWaveUnit (unitId : String) (dependsOn : List String) : UnitFields where
  unitId := unitId
  layer := "domain"
  objective := "任务"
  allowedPaths := ["backend/**"]
  dependsOn := dependsOn
  wave := some 1

/-- Two units of one wave, the first of which depends on the other. -/
def sameWaveDesigns : List ImplementationDesign := [{
  designId := "implementation-api", parentDesignId := "module-api", moduleId := "api"
  implementationUnits := [sameWaveUnit "store" ["entity"], sameWaveUnit "entity" []] }]

theorem sameWaveDesigns_scheduled :
    checkWaves (allUnits (normalizeUnitWaves sameWaveDesigns)) = .ok () := by
  have hnodup : (unitIdsOf sameWaveDesigns).Nodup := by decide
  have hacyclic : Acyclic sameWaveDesigns := (levels_isOk_iff_acyclic hnodup).mp ⟨_, rfl⟩
  obtain ⟨-, -, -, -, -, hchecked⟩ :=
    (unitWaves_least_schedule sameWaveDesigns (by
      intro unit hunit wave hwave
      simp only [sameWaveDesigns, allUnits, List.flatMap_cons, List.flatMap_nil, List.append_nil,
        List.mem_cons, List.not_mem_nil, or_false] at hunit
      rcases hunit with rfl | rfl <;> · cases hwave; decide)).1 hnodup hacyclic
  exact hchecked (by decide)

end ArchitectureWorkflow
end ProjectOS.Architecture.Designs
