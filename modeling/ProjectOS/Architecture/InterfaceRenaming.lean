import ProjectOS.Architecture.DesignPasses

/-! Interface ids in canonical form. A provided id follows the ids its module
declares; a reference follows the dependencies of the module that makes it, and
the provided ids otherwise. -/
namespace ProjectOS.Architecture.Designs
open Base Orchestration

namespace ArchitectureWorkflow

/-- The candidate is the only one that the reference is an alias of. -/
structure SoleAlias (reference : String) (candidates : List String) (target : String) : Prop where
  mem : target ∈ candidates
  isAlias : isAlias reference target = true
  sole : ∀ candidate ∈ candidates, ArchitectureWorkflow.isAlias reference candidate = true →
    candidate = target

/-- The target is the only interface of the reference's namespace that the
dependencies of the module declare. -/
structure Designated (modules : List ModuleDesign) (moduleId reference target : String) : Prop where
  declared : ∃ dependency ∈ dependenciesOf modules moduleId, target ∈ declaredBy modules dependency
  namespaced : (parts target).take 1 = (parts reference).take 1
  sole : ∀ dependency ∈ dependenciesOf modules moduleId,
    ∀ candidate ∈ declaredBy modules dependency,
      (parts candidate).take 1 = (parts reference).take 1 → candidate = target

theorem dedupe_eq_singleton_iff {xs : List String} {x : String} :
    dedupe xs = [x] ↔ x ∈ xs ∧ ∀ y ∈ xs, y = x := by
  constructor
  · intro h
    constructor
    · rw [← mem_dedupe, h]
      exact List.mem_singleton_self x
    · intro y hy
      rw [← mem_dedupe, h] at hy
      exact List.mem_singleton.mp hy
  · rintro ⟨hx, hall⟩
    apply List.perm_singleton.mp
    rw [List.perm_ext_iff_of_nodup (nodup_dedupe xs) (List.nodup_singleton x)]
    intro y
    rw [mem_dedupe, List.mem_singleton]
    constructor
    · exact hall y
    · rintro rfl
      exact hx

theorem two_le_length_of_isAlias {reference candidate : String}
    (h : isAlias reference candidate = true) : 2 ≤ (parts reference).length := by
  unfold isAlias at h
  split at h
  · rename_i area semantic candidateArea candidateSemantic hparts hcandidate
    cases semantic with
    | nil => simp [dedupe, uniqueBy, uniqueByFrom] at h
    | cons token rest => simp [hparts]
  · cases h

theorem namespace_of_isAlias {reference candidate : String}
    (h : isAlias reference candidate = true) :
    (parts candidate).take 1 = (parts reference).take 1 := by
  unfold isAlias at h
  split at h
  · rename_i area semantic candidateArea candidateSemantic hparts hcandidate
    simp only [Bool.and_eq_true, decide_eq_true_eq] at h
    rw [hparts, hcandidate, h.1.1]
    rfl
  · cases h

theorem aliasFor_of_mem {reference : String} {candidates : List String}
    (h : reference ∈ candidates) : aliasFor reference candidates = some reference := if_pos h

theorem aliasFor_eq_some_iff {reference target : String} {candidates : List String}
    (h : reference ∉ candidates) :
    aliasFor reference candidates = some target ↔ SoleAlias reference candidates target := by
  have hsingleton : (dedupe candidates).filter (isAlias reference) = [target] ↔
      SoleAlias reference candidates target := by
    constructor
    · intro hfilter
      have hmem (candidate : String) :
          candidate ∈ candidates ∧ isAlias reference candidate = true ↔ candidate = target := by
        rw [← mem_dedupe, ← List.mem_filter, hfilter, List.mem_singleton]
      obtain ⟨hin, halias⟩ := (hmem target).mpr rfl
      exact ⟨hin, halias, fun candidate hc ha => (hmem candidate).mp ⟨hc, ha⟩⟩
    · intro hsole
      apply List.perm_singleton.mp
      rw [List.perm_ext_iff_of_nodup ((nodup_dedupe candidates).filter _)
        (List.nodup_singleton target)]
      intro candidate
      rw [List.mem_filter, mem_dedupe, List.mem_singleton]
      constructor
      · exact fun hc => hsole.sole candidate hc.1 hc.2
      · rintro rfl
        exact ⟨hsole.mem, hsole.isAlias⟩
  unfold aliasFor
  rw [if_neg h]
  split
  · rename_i hshort
    constructor
    · exact nofun
    · intro hsole
      have hlength := two_le_length_of_isAlias hsole.isAlias
      omega
  · split
    · rename_i candidate hfilter
      rw [← hsingleton, hfilter]
      simp
    · rename_i hother
      constructor
      · exact nofun
      · exact fun hsole => absurd (hsingleton.mpr hsole) (hother target)

theorem aliasFor_eq_none {reference : String} {candidates : List String} (h : reference ∉ candidates)
    (hnone : ¬ ∃ target, SoleAlias reference candidates target) :
    aliasFor reference candidates = none := by
  cases hresult : aliasFor reference candidates with
  | none => rfl
  | some target => exact absurd ⟨target, (aliasFor_eq_some_iff h).mp hresult⟩ hnone

/-- A resolved alias is a candidate, and of the reference's namespace. -/
theorem aliasFor_sound {reference target : String} {candidates : List String}
    (h : aliasFor reference candidates = some target) :
    target ∈ candidates ∧ (parts target).take 1 = (parts reference).take 1 := by
  by_cases hmem : reference ∈ candidates
  · rw [aliasFor_of_mem hmem] at h
    cases h
    exact ⟨hmem, rfl⟩
  · have hsole := (aliasFor_eq_some_iff hmem).mp h
    exact ⟨hsole.mem, namespace_of_isAlias hsole.isAlias⟩

section Rules
variable (modules : List ModuleDesign) (known : List String) (moduleId : String)

theorem providedId_of_declared {interfaceId : String} (h : interfaceId ∈ declaredBy modules moduleId) :
    providedId modules moduleId interfaceId = interfaceId := by
  rw [providedId, aliasFor_of_mem h, Option.getD_some]

theorem providedId_of_sole {interfaceId target : String}
    (hundeclared : interfaceId ∉ declaredBy modules moduleId)
    (h : SoleAlias interfaceId (declaredBy modules moduleId) target) :
    providedId modules moduleId interfaceId = target := by
  rw [providedId, (aliasFor_eq_some_iff hundeclared).mpr h, Option.getD_some]

theorem providedId_of_ambiguous {interfaceId : String}
    (h : ¬ ∃ target, SoleAlias interfaceId (declaredBy modules moduleId) target) :
    providedId modules moduleId interfaceId = interfaceId := by
  by_cases hdeclared : interfaceId ∈ declaredBy modules moduleId
  · exact providedId_of_declared modules moduleId hdeclared
  · rw [providedId, aliasFor_eq_none hdeclared h, Option.getD_none]

@[simp] theorem providedId_providedId (interfaceId : String) :
    providedId modules moduleId (providedId modules moduleId interfaceId) =
      providedId modules moduleId interfaceId := by
  cases h : aliasFor interfaceId (declaredBy modules moduleId) with
  | none => simp [providedId, h]
  | some target =>
    have htarget : providedId modules moduleId interfaceId = target := by simp [providedId, h]
    rw [htarget, providedId_of_declared modules moduleId (aliasFor_sound h).1]

/-- The candidates of `canonical_reference`. -/
def dependencyCandidates (reference : String) : List String :=
  (dependenciesOf modules moduleId).flatMap fun dependency =>
    (declaredBy modules dependency).filter fun interfaceId =>
      (parts interfaceId).take 1 = (parts reference).take 1

theorem mem_dependencyCandidates {reference candidate : String} :
    candidate ∈ dependencyCandidates modules moduleId reference ↔
      ∃ dependency ∈ dependenciesOf modules moduleId, candidate ∈ declaredBy modules dependency ∧
        (parts candidate).take 1 = (parts reference).take 1 := by
  simp [dependencyCandidates]

theorem designated_iff {reference target : String} :
    dedupe (dependencyCandidates modules moduleId reference) = [target] ↔
      Designated modules moduleId reference target := by
  rw [dedupe_eq_singleton_iff, mem_dependencyCandidates]
  constructor
  · rintro ⟨⟨dependency, hdependency, hdeclared, hnamespace⟩, hsole⟩
    refine ⟨⟨dependency, hdependency, hdeclared⟩, hnamespace, ?_⟩
    intro other hother candidate hcandidate hsame
    exact hsole candidate
      ((mem_dependencyCandidates modules moduleId).mpr ⟨other, hother, hcandidate, hsame⟩)
  · rintro ⟨⟨dependency, hdependency, hdeclared⟩, hnamespace, hsole⟩
    refine ⟨⟨dependency, hdependency, hdeclared, hnamespace⟩, fun candidate hcandidate => ?_⟩
    obtain ⟨other, hother, hin, hsame⟩ :=
      (mem_dependencyCandidates modules moduleId).mp hcandidate
    exact hsole other hother candidate hin hsame

theorem canonicalReference_of_designated {reference target : String}
    (h : Designated modules moduleId reference target) :
    canonicalReference modules known moduleId reference = target := by
  have hsingle := (designated_iff modules moduleId).mpr h
  unfold dependencyCandidates at hsingle
  simp only [canonicalReference, hsingle]

theorem canonicalReference_of_undesignated {reference : String}
    (h : ¬ ∃ target, Designated modules moduleId reference target) :
    canonicalReference modules known moduleId reference =
      (aliasFor reference known).getD reference := by
  unfold canonicalReference
  dsimp only
  split
  · rename_i candidate hsingle
    exact absurd ⟨candidate, (designated_iff modules moduleId).mp hsingle⟩ h
  · rfl

theorem Designated.congr {reference reference' target : String}
    (h : (parts reference').take 1 = (parts reference).take 1) :
    Designated modules moduleId reference' target ↔ Designated modules moduleId reference target := by
  constructor
  · rintro ⟨hdeclared, hnamespace, hsole⟩
    rw [h] at hnamespace
    rw [h] at hsole
    exact ⟨hdeclared, hnamespace, hsole⟩
  · rintro ⟨hdeclared, hnamespace, hsole⟩
    rw [← h] at hnamespace
    rw [← h] at hsole
    exact ⟨hdeclared, hnamespace, hsole⟩

/-- A canonical reference stays in its namespace, so the same rule applies to it again. -/
@[simp] theorem canonicalReference_canonicalReference (reference : String) :
    canonicalReference modules known moduleId (canonicalReference modules known moduleId reference) =
      canonicalReference modules known moduleId reference := by
  by_cases hdesignated : ∃ target, Designated modules moduleId reference target
  · obtain ⟨target, htarget⟩ := hdesignated
    rw [canonicalReference_of_designated modules known moduleId htarget]
    apply canonicalReference_of_designated
    exact (Designated.congr modules moduleId htarget.namespaced).mpr htarget
  · have hfirst := canonicalReference_of_undesignated modules known moduleId hdesignated
    cases halias : aliasFor reference known with
    | none =>
      rw [halias, Option.getD_none] at hfirst
      rw [hfirst, hfirst]
    | some target =>
      obtain ⟨hmem, hnamespace⟩ := aliasFor_sound halias
      rw [halias, Option.getD_some] at hfirst
      have hagain : ¬ ∃ other, Designated modules moduleId target other := by
        rintro ⟨other, hother⟩
        exact hdesignated ⟨other, (Designated.congr modules moduleId hnamespace).mp hother⟩
      rw [hfirst, canonicalReference_of_undesignated modules known moduleId hagain,
        aliasFor_of_mem hmem, Option.getD_some]

theorem canonicalReference_of_known {reference : String} (h : reference ∈ known)
    (hnone : ¬ ∃ target, Designated modules moduleId reference target) :
    canonicalReference modules known moduleId reference = reference := by
  rw [canonicalReference_of_undesignated modules known moduleId hnone, aliasFor_of_mem h,
    Option.getD_some]

theorem canonicalReference_of_sole {reference target : String} (hunknown : reference ∉ known)
    (hnone : ¬ ∃ target, Designated modules moduleId reference target)
    (h : SoleAlias reference known target) :
    canonicalReference modules known moduleId reference = target := by
  rw [canonicalReference_of_undesignated modules known moduleId hnone,
    (aliasFor_eq_some_iff hunknown).mpr h, Option.getD_some]

theorem canonicalReference_of_ambiguous {reference : String}
    (hnone : ¬ ∃ target, Designated modules moduleId reference target)
    (h : ¬ ∃ target, SoleAlias reference known target) :
    canonicalReference modules known moduleId reference = reference := by
  by_cases hknown : reference ∈ known
  · exact canonicalReference_of_known modules known moduleId hknown hnone
  · rw [canonicalReference_of_undesignated modules known moduleId hnone,
      aliasFor_eq_none hknown h, Option.getD_none]

/-- When a reference to an interface follows it to its new id. -/
theorem canonicalReference_eq_iff {interfaceId renamed : String} (hrenamed : renamed ∈ known) :
    canonicalReference modules known moduleId interfaceId = renamed ↔
      Designated modules moduleId interfaceId renamed ∨
        (¬ ∃ target, Designated modules moduleId interfaceId target) ∧
          (renamed = interfaceId ∨ interfaceId ∉ known ∧ SoleAlias interfaceId known renamed) := by
  by_cases hdesignated : ∃ target, Designated modules moduleId interfaceId target
  · obtain ⟨target, htarget⟩ := hdesignated
    rw [canonicalReference_of_designated modules known moduleId htarget]
    constructor
    · rintro rfl
      exact .inl htarget
    · rintro (hother | ⟨hnone, -⟩)
      · obtain ⟨dependency, hdependency, hdeclared⟩ := htarget.declared
        exact hother.sole dependency hdependency target hdeclared htarget.namespaced
      · exact absurd ⟨target, htarget⟩ hnone
  · constructor
    · intro h
      refine .inr ⟨hdesignated, ?_⟩
      by_cases hknown : interfaceId ∈ known
      · rw [canonicalReference_of_known modules known moduleId hknown hdesignated] at h
        exact .inl h.symm
      · by_cases hsole : ∃ target, SoleAlias interfaceId known target
        · obtain ⟨target, htarget⟩ := hsole
          rw [canonicalReference_of_sole modules known moduleId hknown hdesignated htarget] at h
          exact .inr ⟨hknown, h ▸ htarget⟩
        · rw [canonicalReference_of_ambiguous modules known moduleId hdesignated hsole] at h
          exact .inl h.symm
    · rintro (hdirect | ⟨-, rfl | ⟨hunknown, hsole⟩⟩)
      · exact absurd ⟨renamed, hdirect⟩ hdesignated
      · exact canonicalReference_of_known modules known moduleId hrenamed hdesignated
      · exact canonicalReference_of_sole modules known moduleId hunknown hdesignated hsole

end Rules

theorem dedupe_map_dedupe {f : String → String} (hf : ∀ x, f (f x) = f x) (xs : List String) :
    dedupe ((dedupe (xs.map f)).map f) = dedupe (xs.map f) := by
  have hfixed : (dedupe (xs.map f)).map f = dedupe (xs.map f) := by
    conv_rhs => rw [← List.map_id (dedupe (xs.map f))]
    apply List.map_congr_left
    intro y hy
    rw [mem_dedupe] at hy
    obtain ⟨x, -, rfl⟩ := List.mem_map.mp hy
    exact hf x
  rw [hfixed]
  exact dedupe_eq_self_iff.mpr (nodup_dedupe _)

theorem canonicalUnit_canonicalUnit {reference : String → String}
    (href : ∀ x, reference (reference x) = reference x) (unitIds : List String)
    (unit : UnitFields) :
    canonicalUnit reference unitIds (canonicalUnit reference unitIds unit) =
      canonicalUnit reference unitIds unit := by
  have hdependency (d : String) :
      (fun d => if d ∈ unitIds then d else reference d)
        ((fun d => if d ∈ unitIds then d else reference d) d) =
        (fun d => if d ∈ unitIds then d else reference d) d := by
    by_cases h : d ∈ unitIds
    · simp only [if_pos h]
    · simp only [if_neg h, href, ite_self]
  unfold canonicalUnit
  congr 1
  · exact dedupe_map_dedupe hdependency unit.dependsOn
  · exact dedupe_map_dedupe href unit.consumesInterfaces

section Pass
variable (modules : List ModuleDesign) (designs : List ImplementationDesign)

theorem unitIdsOf_normalize :
    unitIdsOf (normalizeInterfaceReferences modules designs) = unitIdsOf designs := by
  unfold unitIdsOf allUnits normalizeInterfaceReferences canonicalDesign canonicalUnit
  simp only [List.flatMap_map, List.map_flatMap, List.map_map]
  rfl

theorem providerIds_normalize :
    providerIds modules (normalizeInterfaceReferences modules designs) =
      providerIds modules designs := by
  unfold providerIds normalizeInterfaceReferences canonicalDesign ImplementationDesign.interfaceIds
  simp only [List.flatMap_map, List.map_map, Function.comp_def, providedId_providedId]

theorem normalizeInterfaceReferences_idempotent :
    normalizeInterfaceReferences modules (normalizeInterfaceReferences modules designs) =
      normalizeInterfaceReferences modules designs := by
  have hagain (design : ImplementationDesign) (known unitIds : List String) :
      canonicalDesign modules known unitIds (canonicalDesign modules known unitIds design) =
        canonicalDesign modules known unitIds design := by
    unfold canonicalDesign
    simp only [List.map_map, Function.comp_def, providedId_providedId,
      canonicalReference_canonicalReference]
    congr 1
    apply List.map_congr_left
    intro unit _
    exact canonicalUnit_canonicalUnit
      (canonicalReference_canonicalReference modules known design.moduleId) unitIds unit
  rw [normalizeInterfaceReferences, providerIds_normalize, unitIdsOf_normalize,
    normalizeInterfaceReferences, List.map_map]
  apply List.map_congr_left
  exact fun design _ => hagain design _ _

theorem providedId_mem_providerIds {design : ImplementationDesign} (hdesign : design ∈ designs)
    {interfaceId : String} (h : interfaceId ∈ design.interfaceIds) :
    providedId modules design.moduleId interfaceId ∈ providerIds modules designs :=
  List.mem_flatMap.mpr ⟨design, hdesign, List.mem_map_of_mem h⟩

end Pass

/-- A design whose provided ids, and whose references in interfaces and units,
are renamed; what a unit depends on may be another unit. -/
structure Renames (provided reference : String → String) (unitIds : List String)
    (before after : ImplementationDesign) : Prop where
  providedInterfaces : after.providedInterfaces = before.providedInterfaces.map fun interface =>
    { interface with interfaceId := provided interface.interfaceId }
  consumedInterfaces : after.consumedInterfaces = before.consumedInterfaces.map fun consumed =>
    { consumed with interfaceId := reference consumed.interfaceId }
  consumes : after.implementationUnits.map (·.consumesInterfaces) =
    before.implementationUnits.map fun unit => dedupe (unit.consumesInterfaces.map reference)
  dependsOn : after.implementationUnits.map (·.dependsOn) =
    before.implementationUnits.map fun unit =>
      dedupe (unit.dependsOn.map fun d => if d ∈ unitIds then d else reference d)

/-- The two renamings of the pass, each for one module. -/
structure CanonicalRenaming (modules : List ModuleDesign) (designs : List ImplementationDesign)
    (provided reference : String → String → String) : Prop where
  renames : List.Forall₂ (fun before after => Renames (provided before.moduleId)
    (reference before.moduleId) (unitIdsOf designs) before after) designs
    (normalizeInterfaceReferences modules designs)
  declared : ∀ moduleId, ∀ id ∈ declaredBy modules moduleId, provided moduleId id = id
  toAlias : ∀ moduleId id target, id ∉ declaredBy modules moduleId →
    SoleAlias id (declaredBy modules moduleId) target → provided moduleId id = target
  ambiguous : ∀ moduleId id, (¬ ∃ target, SoleAlias id (declaredBy modules moduleId) target) →
    provided moduleId id = id
  designated : ∀ moduleId id target, Designated modules moduleId id target →
    reference moduleId id = target
  known : ∀ moduleId id, (¬ ∃ target, Designated modules moduleId id target) →
    id ∈ providerIds modules designs → reference moduleId id = id
  referenceToAlias : ∀ moduleId id target, (¬ ∃ target, Designated modules moduleId id target) →
    id ∉ providerIds modules designs → SoleAlias id (providerIds modules designs) target →
      reference moduleId id = target
  ambiguousReference : ∀ moduleId id, (¬ ∃ target, Designated modules moduleId id target) →
    (¬ ∃ target, SoleAlias id (providerIds modules designs) target) → reference moduleId id = id
  followed : ∀ provider ∈ designs, ∀ id ∈ provider.interfaceIds, ∀ moduleId,
    reference moduleId id = provided provider.moduleId id ↔
      Designated modules moduleId id (provided provider.moduleId id) ∨
        (¬ ∃ target, Designated modules moduleId id target) ∧
          (provided provider.moduleId id = id ∨ id ∉ providerIds modules designs ∧
            SoleAlias id (providerIds modules designs) (provided provider.moduleId id))

/-- `api` declares one of its two interfaces, and `ui` consumes the other. -/
def apiModules : List ModuleDesign := [
  { designId := "module-api", parentDesignId := "root", moduleId := "api"
    providedInterfaces := ["api.task_list"] },
  { designId := "module-ui", parentDesignId := "root", moduleId := "ui"
    dependsOnModules := ["api"] }]

def healthInterface : ContractInterfaceInput where
  interfaceId := "api.health"
  kind := "api"
  name := "health"
  ownerUnit := "api-unit"

def apiDesigns : List ImplementationDesign := [
  { designId := "implementation-api", parentDesignId := "module-api", moduleId := "api"
    providedInterfaces := [healthInterface], implementationUnits := [] },
  { designId := "implementation-ui", parentDesignId := "module-ui", moduleId := "ui"
    consumedInterfaces := [{ interfaceId := "api.health" }], implementationUnits := [] }]

end ArchitectureWorkflow
end ProjectOS.Architecture.Designs
