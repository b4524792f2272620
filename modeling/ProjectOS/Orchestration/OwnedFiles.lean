import ProjectOS.Base.GlobLanguage
import ProjectOS.Code.Staging
import ProjectOS.Orchestration.WorkItem

/-! When the gate of a write accepts the owned files that the constructor let through. -/
namespace ProjectOS.Orchestration
open Base Code

/-- The pattern the gate compares with: a folder stands for what is below it. -/
def gatePattern (pattern : String) : String :=
  if Text.endswith pattern "/" then pattern ++ "**" else pattern

theorem patternMatches_eq (pattern path : String) :
    patternMatches pattern path = (globMatches path (gatePattern pattern) ||
      globMatches ("workspace/" ++ path) (gatePattern pattern)) := by
  simp [patternMatches, gatePattern]

theorem globMatches_plain {pattern : String} (h : '[' ∉ pattern.toList) (name : String) :
    globMatches name pattern = Glob.fnmatch name pattern := by
  rw [globMatches, Glob.fnmatch_flattenStars h, Bool.or_self]

/-- The owned path as the constructor spells it. -/
def constructorPath (owned : String) : String := stripLeadingSlashes (forwardSlashes owned)

/-- A deny pattern meets an owned file where the constructor does not look: as a folder, below
`workspace/`, in a bracket set with its double stars, or in a path that the constructor spells
otherwise. -/
def overlooks (pattern owned : String) : Bool :=
  if Text.endswith pattern "/" then
    globMatches owned (pattern ++ "**") || globMatches ("workspace/" ++ owned) (pattern ++ "**")
  else
    globMatches ("workspace/" ++ owned) pattern ||
      ('[' ∈ pattern.toList && Glob.fnmatch owned pattern) ||
      (constructorPath owned ≠ owned && Glob.fnmatch owned (Glob.flattenStars pattern))

/-- Beyond what it overlooks, the constructor's comparison is that of the gate. -/
theorem patternMatches_of_passed {pattern owned : String}
    (hpassed : Glob.fnmatch (constructorPath owned) (Glob.flattenStars pattern) = false) :
    patternMatches pattern owned = overlooks pattern owned := by
  rw [patternMatches_eq, gatePattern, overlooks]
  split
  · rfl
  · have hsame : constructorPath owned = owned →
        Glob.fnmatch owned (Glob.flattenStars pattern) = false := by
      intro hspelled
      rwa [hspelled] at hpassed
    by_cases hspelled : constructorPath owned = owned
    · by_cases hbracket : '[' ∈ pattern.toList
      · simp [globMatches, hspelled, hbracket, hsame hspelled, Bool.or_comm]
      · have hplain := hsame hspelled
        rw [Glob.fnmatch_flattenStars hbracket] at hplain
        simp [globMatches_plain hbracket, hspelled, hbracket, hplain]
    · by_cases hbracket : '[' ∈ pattern.toList
      · simp [globMatches, hspelled, hbracket, Bool.or_comm, Bool.or_left_comm, Bool.or_assoc]
      · simp [globMatches_plain hbracket, Glob.fnmatch_flattenStars hbracket, hspelled, hbracket,
          Bool.or_comm]

theorem globMatches_folder {folder : String} (h : Glob.hasGlob folder = false) (name : String) :
    globMatches name (folder ++ "**") = Text.startswith name folder := by
  have hplain := Glob.isSpecial_of_hasGlob h
  have hflat : Glob.flattenStars "**" = "*" := rfl
  rw [globMatches, Glob.fnmatch_stars hplain Glob.matchTokens_stars, Glob.flattenStars_append hplain,
    hflat, Glob.fnmatch_stars hplain Glob.matchTokens_star, Bool.or_self]

/-- A concrete deny path is overlooked as a folder that holds the file, as the file's name below
`workspace/`, and where the constructor spells the file otherwise. -/
theorem overlooks_concrete {pattern : String} (h : Glob.hasGlob pattern = false) (owned : String) :
    overlooks pattern owned =
      if Text.endswith pattern "/" then
        Text.startswith owned pattern || Text.startswith ("workspace/" ++ owned) pattern
      else
        decide ("workspace/" ++ owned = pattern) ||
          (constructorPath owned ≠ owned && decide (owned = pattern)) := by
  have hbracket := Glob.bracket_notMem h
  unfold overlooks
  split
  · rw [globMatches_folder h, globMatches_folder h]
  · rw [globMatches_plain hbracket, Glob.fnmatch_flattenStars hbracket, Glob.fnmatch_plain h,
      Glob.fnmatch_plain h]
    simp [hbracket]

theorem WorkItem.passed_owned (item : WorkItem) {owned pattern : String}
    (howned : owned ∈ item.ownedFiles) (hpattern : pattern ∈ item.forbiddenPaths) :
    Glob.fnmatch (constructorPath owned) (Glob.flattenStars pattern) = false := by
  have hgrant := item.checks.2.1
  simp only [WorkItemFields.checkPathGrant, check_bind_eq_ok, forEach_eq_ok,
    raiseWhen_eq_ok] at hgrant
  have hdenied := hgrant.2.2 owned howned
  rw [WorkItemFields.deniedBy, List.any_eq_false] at hdenied
  exact Bool.eq_false_of_not_eq_true (hdenied pattern hpattern)

/-- The gate accepts an owned file if and only if the constructor overlooked no deny pattern. -/
theorem owned_file_accepted_iff (item : WorkItem) (owned : String)
    (howned : owned ∈ item.ownedFiles) :
    matchesAny owned item.forbiddenPaths = false ↔
      ∀ pattern ∈ item.forbiddenPaths, overlooks pattern owned = false := by
  rw [matchesAny, List.any_eq_false]
  apply forall₂_congr
  intro pattern hpattern
  rw [patternMatches_of_passed (item.passed_owned howned hpattern), Bool.not_eq_true]

def serverItem : WorkItem := .ofFields {
    id := "write-server"
    agentId := "code_agent"
    objective := "write the server"
    outputKey := "server"
    executionMode := .partitioned
    slot := some "backend"
    allowedPaths := ["backend/**"]
    forbiddenPaths := ["backend/app/"]
    ownedFiles := ["backend/app/main.py"] } (by decide)

theorem server_file_overlooked :
    matchesAny "backend/app/main.py" serverItem.forbiddenPaths = false ↔
      ∀ pattern ∈ serverItem.forbiddenPaths, overlooks pattern "backend/app/main.py" = false :=
  owned_file_accepted_iff serverItem "backend/app/main.py" (by decide)

/-- The constructor accepts the item; the gate denies its own file. -/
theorem server_file_denied :
    "backend/app/main.py" ∈ serverItem.ownedFiles ∧
      ¬ (matchesAny "backend/app/main.py" serverItem.forbiddenPaths = false) := by
  decide

end ProjectOS.Orchestration
