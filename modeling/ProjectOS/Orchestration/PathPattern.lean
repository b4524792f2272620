import ProjectOS.Base.Glob

/-! Path grants of a work item: normalization, literal prefixes and the test
whether a deny pattern covers a whole grant. -/
namespace ProjectOS.Orchestration
open Base

/-- `value.replace("\\", "/")`. -/
def forwardSlashes (value : String) : String := Text.replaceChar Text.backslash '/' value

theorem blank_forwardSlashes (s : String) : Text.blank (forwardSlashes s) = Text.blank s := by
  have hspace : ∀ c, Text.isSpace (if c = Text.backslash then '/' else c) = Text.isSpace c := by
    intro c
    split
    · subst c
      decide
    · rfl
  simp [Text.blank, forwardSlashes, Text.replaceChar, List.all_map, Function.comp_def, hspace]

def stripLeadingSlashes (value : String) : String := Text.lstripBy (· = '/') value

def stripTrailingSlashes (value : String) : String := Text.rstripBy (· = '/') value

/-- A path without the workspace root. -/
def workspaceRelative (path : String) : String :=
  stripLeadingSlashes (Text.removePrefix path "workspace/")

def normalizePathPattern (value : String) : String :=
  let raw := stripLeadingSlashes (Text.removePrefix (forwardSlashes value) "workspace/")
  let trimmed := stripTrailingSlashes raw
  let normalized :=
    if Text.endswith raw "/" && trimmed != "" then trimmed ++ "/**" else trimmed
  if normalized != "" && Text.endswith normalized "/**/**" then
    Text.removeSuffix normalized "/**"
  else normalized

/-- The path before the first glob character. -/
def literalPrefix (pattern : String) : String :=
  stripTrailingSlashes (String.ofList (pattern.toList.takeWhile fun c =>
    !(c = '*' || c = '?' || c = '[' || c = ']')))

/-- The pattern itself or its form with single stars. -/
def globMatches (name pattern : String) : Bool :=
  Glob.fnmatch name pattern || Glob.fnmatch name (Glob.flattenStars pattern)

def patternMatches (pattern path : String) : Bool :=
  let normalized := if Text.endswith pattern "/" then pattern ++ "**" else pattern
  [path, "workspace/" ++ path].any fun candidate => globMatches candidate normalized

/-- `delivered` of the runner on one changed file: the file is what was expected,
matches it as a pattern, or lies below it. -/
def delivers (expected file : String) : Bool :=
  let target := workspaceRelative expected
  globMatches (workspaceRelative file) target ||
    Text.startswith (workspaceRelative file) (stripTrailingSlashes target ++ "/")

/-- A deny pattern that leaves nothing of the grant. -/
def forbiddenCoversAllowed (allowed forbidden : String) : Bool :=
  let left := normalizePathPattern allowed
  let right := normalizePathPattern forbidden
  if left = "" || right = "" then false
  else if !Glob.hasGlob left then patternMatches right left
  else if left = right then true
  else
    let allowedPrefix := literalPrefix left
    if allowedPrefix = "" then Glob.hasGlob right && (right = "*" || right = "**")
    else if right = "**" then true
    else if !Text.endswith right "/**" then false
    else
      let forbiddenRoot := stripTrailingSlashes (Text.removeSuffix right "/**")
      if forbiddenRoot = "" then true
      else allowedPrefix = forbiddenRoot || Text.startswith allowedPrefix (forbiddenRoot ++ "/")

theorem hasGlob_workspaceRelative {path : String} (h : Glob.hasGlob path = false) :
    Glob.hasGlob (workspaceRelative path) = false := by
  have hsub : ∀ c ∈ (workspaceRelative path).toList, c ∈ path.toList := by
    intro c hc
    have hc' := List.dropWhile_subset _ (by
      simpa [workspaceRelative, stripLeadingSlashes, Text.lstripBy] using hc)
    unfold Text.removePrefix at hc'
    split at hc'
    · exact List.mem_of_mem_drop (by simpa using hc')
    · exact hc'
  unfold Glob.hasGlob at h ⊢
  rw [List.any_eq_false] at h ⊢
  exact fun c hc => h c (hsub c hc)

/-- A concrete path delivers itself. -/
theorem delivers_self {path : String} (h : Glob.hasGlob path = false) :
    delivers path path = true := by
  simp [delivers, globMatches, Glob.fnmatch_plain (hasGlob_workspaceRelative h)]

example : forbiddenCoversAllowed "backend/app/**" "backend/app/main.py" = false := by decide
example : forbiddenCoversAllowed "backend/app/" "backend/**" = true := by decide

end ProjectOS.Orchestration
