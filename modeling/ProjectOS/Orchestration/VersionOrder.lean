import Mathlib
import ProjectOS.Orchestration.SchemaEvolution

/-! The order of schema versions: every new version is above the old one, and
the number alone tells whether the upgrade is safe. -/
namespace ProjectOS.Orchestration
open Base SchemaComparator SchemaEvolutionManager

/-- Major, minor and patch, compared from the left. -/
abbrev VersionNumbers := ℕ ×ₗ ℕ ×ₗ ℕ

def numbers (major minor patch : ℕ) : VersionNumbers := toLex (major, toLex (minor, patch))

/-- The text is a version of three non-negative integers. -/
structure ReadsVersion (text : String) (major minor patch : ℕ) : Prop where
  parts : ∃ a b c, Text.split '.' text = [a, b, c] ∧ pyInt (.str a) = .ok (major : ℤ) ∧
    pyInt (.str b) = .ok (minor : ℤ) ∧ pyInt (.str c) = .ok (patch : ℤ)

theorem numbers_lt_iff {major minor patch major' minor' patch' : ℕ} :
    numbers major minor patch < numbers major' minor' patch' ↔
      major < major' ∨ major = major' ∧ (minor < minor' ∨ minor = minor' ∧ patch < patch') := by
  simp only [numbers, Prod.Lex.toLex_lt_toLex]

section digits

theorem toList_natCast (n : ℕ) : (toString (n : ℤ)).toList = Nat.toDigits 10 n := by
  change n.repr.toList = _
  exact Nat.toList_repr

theorem isDigit_of_mem {n : ℕ} {c : Char} (h : c ∈ (toString (n : ℤ)).toList) :
    c.isDigit = true := by
  rw [toList_natCast] at h
  exact Nat.isDigit_of_mem_toDigits (by decide) (by decide) h

theorem not_isSpace_of_isDigit {c : Char} (h : c.isDigit = true) : Text.isSpace c = false := by
  have hrange : 48 ≤ c.toNat ∧ c.toNat ≤ 57 := by
    simpa [Char.isDigit, UInt32.le_iff_toNat_le] using h
  unfold Text.isSpace
  simp only [Bool.or_eq_false_iff, Bool.and_eq_false_iff, decide_eq_false_iff_not, beq_eq_false_iff_ne]
  omega

theorem strip_natCast (n : ℕ) : Text.strip (toString (n : ℤ)) = toString (n : ℤ) := by
  apply Text.stripBy_of_forall
  intro c hc
  exact not_isSpace_of_isDigit (isDigit_of_mem hc)

/-- Reading back the text of a natural number. -/
theorem pyInt_natCast (n : ℕ) : pyInt (.str (toString (n : ℤ))) = .ok (n : ℤ) := by
  have hread : (toString (n : ℤ)).toInt? = some (n : ℤ) := Nat.toInt?_repr n
  simp only [pyInt, strip_natCast, hread]

theorem readsVersion_versionText (major minor patch : ℕ) :
    ReadsVersion (versionText major minor patch) major minor patch := by
  have hplain : ∀ part ∈ [toString (major : ℤ), toString (minor : ℤ), toString (patch : ℤ)],
      '.' ∉ part.toList := by
    intro part hpart hdot
    simp only [List.mem_cons, List.not_mem_nil, or_false] at hpart
    rcases hpart with rfl | rfl | rfl <;> exact absurd (isDigit_of_mem hdot) (by decide)
  exact ⟨_, _, _, Text.split_join (List.cons_ne_nil _ _) hplain, pyInt_natCast major,
    pyInt_natCast minor, pyInt_natCast patch⟩

end digits

section bump
variable {changes : List SchemaChange} {text : String} {major minor patch : ℕ}

/-- The bump of a version follows the kinds of the changes. -/
theorem suggestVersionBump_reads (h : ReadsVersion text major minor patch) :
    ∃ bumped major' minor' patch', suggestVersionBump changes text = .ok bumped ∧
      ReadsVersion bumped major' minor' patch' ∧
      numbers major minor patch < numbers major' minor' patch' ∧
      (hasBreakingChanges changes = true → major' = major + 1) ∧
      (hasBreakingChanges changes = false → major' = major) := by
  obtain ⟨a, b, c, hsplit, ha, hb, hc⟩ := h.parts
  unfold suggestVersionBump
  simp only [hsplit, ha, hb, hc, ok_bind]
  cases hbreaking : hasBreakingChanges changes with
  | true =>
    refine ⟨_, major + 1, 0, 0, rfl, readsVersion_versionText (major + 1) 0 0, ?_, fun _ => rfl, nofun⟩
    rw [numbers_lt_iff]
    omega
  | false =>
    cases hasAdditions changes with
    | true =>
      refine ⟨_, major, minor + 1, 0, rfl, readsVersion_versionText major (minor + 1) 0, ?_, nofun,
        fun _ => rfl⟩
      rw [numbers_lt_iff]
      omega
    | false =>
      refine ⟨_, major, minor, patch + 1, rfl, readsVersion_versionText major minor (patch + 1), ?_,
        nofun, fun _ => rfl⟩
      rw [numbers_lt_iff]
      omega

end bump

def versionWarning : String := "破坏性变更应该增加 major 版本号"

/-- The only warning that is about the version numbers. -/
def isVersionWarning (warning : String) : Bool := Text.startswith warning versionWarning

theorem head?_versionWarning : versionWarning.toList.head? = some '破' := by decide

theorem not_isVersionWarning {lead : String} {c : Char} (hlead : lead.toList.head? = some c)
    (hc : c ≠ '破') (text : String) : isVersionWarning (lead ++ text) = false := by
  by_contra hstart
  rw [Bool.not_eq_false, isVersionWarning, Text.startswith_iff] at hstart
  obtain ⟨rest, hrest⟩ := hstart
  have hhead := congrArg (·.toList.head?) hrest
  simp only [String.toList_append, List.head?_append, hlead, head?_versionWarning,
    Option.some_or] at hhead
  exact hc (Option.some.inj hhead)

/-- The warnings about the version numbers are the only ones that speak of them. -/
theorem validateUpgradePath_eq {fromVersion toVersion : SchemaVersion} {warnings : List String}
    (h : versionWarnings fromVersion toVersion
      (hasBreakingChanges (compareRegistries fromVersion.registry toVersion.registry)) = .ok warnings) :
    ∃ listed, validateUpgradePath fromVersion toVersion =
        .ok (!hasBreakingChanges (compareRegistries fromVersion.registry toVersion.registry),
          listed ++ warnings) ∧
      ∀ line ∈ listed, isVersionWarning line = false := by
  have hbreaking : hasBreakingChanges (compareRegistries fromVersion.registry toVersion.registry) =
      !((compareRegistries fromVersion.registry toVersion.registry).filter
        (·.isBreaking)).isEmpty := by
    rw [hasBreakingChanges, Bool.eq_iff_iff]
    simp
  unfold validateUpgradePath
  dsimp only
  rw [← hbreaking, h, ok_bind]
  refine ⟨_, by rw [hbreaking, Bool.not_not], ?_⟩
  intro line hline
  split at hline
  · cases hline
  · rcases List.mem_cons.mp hline with rfl | hlater
    · rw [String.append_assoc]
      exact @not_isVersionWarning "包含 " '包' (by decide) (by decide) _
    · obtain ⟨change, -, rfl⟩ := List.mem_map.mp hlater
      exact @not_isVersionWarning "  - " ' ' (by decide) (by decide) _

/-- What one new version is, seen from the old one. -/
structure Follows (old new : SchemaVersion) (major minor patch major' minor' patch' : ℕ) : Prop where
  reads : ReadsVersion new.version major' minor' patch'
  above : numbers major minor patch < numbers major' minor' patch'
  breaking : hasBreakingChanges (compareRegistries old.registry new.registry) = true →
    major' = major + 1
  compatible : hasBreakingChanges (compareRegistries old.registry new.registry) = false →
    major' = major

section versions
variable {old : SchemaVersion} {major minor patch : ℕ}

theorem createNewVersion_follows (h : ReadsVersion old.version major minor patch)
    (newRegistry : SchemaRegistry) :
    ∃ new major' minor' patch', createNewVersion old newRegistry = .ok new ∧
      new.registry = newRegistry ∧ Follows old new major minor patch major' minor' patch' := by
  obtain ⟨bumped, major', minor', patch', hbump, hreads, habove, hbreaking, hcompatible⟩ :=
    @suggestVersionBump_reads (compareRegistries old.registry newRegistry) _ _ _ _ h
  refine ⟨⟨bumped, newRegistry⟩, major', minor', patch', ?_, rfl, hreads, habove, hbreaking,
    hcompatible⟩
  rw [createNewVersion, hbump, ok_bind]

/-- An upgrade to a version that follows is warned about only for its changes. -/
theorem Follows.validateUpgradePath {new : SchemaVersion} {major' minor' patch' : ℕ}
    (hold : ReadsVersion old.version major minor patch)
    (h : Follows old new major minor patch major' minor' patch') :
    ∃ safe warnings, validateUpgradePath old new = .ok (safe, warnings) ∧
      (∀ warning ∈ warnings, isVersionWarning warning = false) ∧ (safe = true ↔ major = major') := by
  obtain ⟨a, b, c, hsplit, ha, -, -⟩ := hold.parts
  obtain ⟨a', b', c', hsplit', ha', -, -⟩ := h.reads.parts
  have hwarnings : versionWarnings old new
      (hasBreakingChanges (compareRegistries old.registry new.registry)) = .ok [] := by
    unfold versionWarnings
    simp only [hsplit, hsplit', ha, ha', ok_bind]
    cases hbreaking : hasBreakingChanges (compareRegistries old.registry new.registry) with
    | false => rfl
    | true =>
      have hmajor := h.breaking hbreaking
      rw [Bool.true_and, if_neg]
      rw [decide_eq_true_eq]
      omega
  obtain ⟨listed, hpath, hlisted⟩ := validateUpgradePath_eq hwarnings
  rw [List.append_nil] at hpath
  refine ⟨_, _, hpath, hlisted, ?_⟩
  cases hbreaking : hasBreakingChanges (compareRegistries old.registry new.registry) with
  | true =>
    have hmajor := h.breaking hbreaking
    simp only [Bool.not_true, Bool.false_eq_true, false_iff]
    omega
  | false => exact iff_of_true rfl (h.compatible hbreaking).symm

/-- A version after another, one for each registry. -/
def createVersions (old : SchemaVersion) : List SchemaRegistry → Result (List SchemaVersion)
  | [] => .ok []
  | registry :: rest => do
      let new ← createNewVersion old registry
      let later ← createVersions new rest
      .ok (new :: later)

def Numbered (version : SchemaVersion) (number : VersionNumbers) : Prop :=
  ∃ major minor patch, number = numbers major minor patch ∧
    ReadsVersion version.version major minor patch

theorem createVersions_increase {number : VersionNumbers} (h : Numbered old number)
    (registries : List SchemaRegistry) :
    ∃ versions later, createVersions old registries = .ok versions ∧
      List.Forall₂ Numbered versions later ∧ (number :: later).Pairwise (· < ·) := by
  induction registries generalizing old number with
  | nil => exact ⟨[], [], rfl, .nil, List.pairwise_singleton _ _⟩
  | cons registry rest ih =>
    obtain ⟨major, minor, patch, rfl, hreads⟩ := h
    obtain ⟨new, major', minor', patch', hnew, -, hfollows⟩ := createNewVersion_follows hreads registry
    obtain ⟨versions, later, hversions, hnumbered, hincreasing⟩ :=
      ih ⟨major', minor', patch', rfl, hfollows.reads⟩
    refine ⟨new :: versions, numbers major' minor' patch' :: later, ?_, ?_, ?_⟩
    · rw [createVersions, hnew, ok_bind, hversions, ok_bind]
    · exact .cons ⟨major', minor', patch', rfl, hfollows.reads⟩ hnumbered
    · rw [List.pairwise_cons]
      refine ⟨?_, hincreasing⟩
      intro next hnext
      rcases List.mem_cons.mp hnext with rfl | hlater
      · exact hfollows.above
      · exact hfollows.above.trans ((List.pairwise_cons.mp hincreasing).1 next hlater)

/-- A new version is above the old one and its major number says whether the
upgrade is safe; a chain of new versions increases throughout. -/
theorem versions_increase (h : ReadsVersion old.version major minor patch)
    (newRegistry : SchemaRegistry) (registries : List SchemaRegistry) :
    (∃ new major' minor' patch' safe warnings,
      createNewVersion old newRegistry = .ok new ∧ new.registry = newRegistry ∧
      ReadsVersion new.version major' minor' patch' ∧
      numbers major minor patch < numbers major' minor' patch' ∧
      validateUpgradePath old new = .ok (safe, warnings) ∧
      (∀ warning ∈ warnings, isVersionWarning warning = false) ∧ (safe = true ↔ major = major')) ∧
    ∃ versions later, createVersions old registries = .ok versions ∧
      List.Forall₂ Numbered versions later ∧
      (numbers major minor patch :: later).Pairwise (· < ·) := by
  obtain ⟨new, major', minor', patch', hnew, hregistry, hfollows⟩ :=
    createNewVersion_follows h newRegistry
  obtain ⟨safe, warnings, hpath, hplain, hsafe⟩ := hfollows.validateUpgradePath h
  constructor
  · exact ⟨new, major', minor', patch', safe, warnings, hnew, hregistry, hfollows.reads,
      hfollows.above, hpath, hplain, hsafe⟩
  · exact createVersions_increase ⟨major, minor, patch, rfl, h⟩ registries

theorem userId_named : Text.blank "id" = false := by decide

def userModel : ModelSchema where
  name := "User"
  phase := "schema"
  fields := [{ name := "id", type := .integer, named := userId_named }]

def emptyVersion : SchemaVersion := { version := "1.2.3", registry := { models := [] } }

def userRegistry : SchemaRegistry := { models := [userModel] }

theorem versions_increase_user : ∃ new major' minor' patch',
    createNewVersion emptyVersion userRegistry = .ok new ∧
      ReadsVersion new.version major' minor' patch' ∧ numbers 1 2 3 < numbers major' minor' patch' := by
  have hreads : ReadsVersion emptyVersion.version 1 2 3 := readsVersion_versionText 1 2 3
  obtain ⟨⟨new, major', minor', patch', -, -, hnew, -, hnumbers, habove, -⟩, -⟩ :=
    versions_increase hreads userRegistry []
  exact ⟨new, major', minor', patch', hnew, hnumbers, habove⟩

end versions
end ProjectOS.Orchestration
