import ProjectOS.Base.Text

/-! `fnmatch` patterns. A bracket without its closing bracket is a literal, an
empty bracket set matches nothing and an empty negated set matches anything. -/
namespace ProjectOS.Base.Glob

inductive Token where
  | star
  | any
  | literal (c : Char)
  | set (negated : Bool) (ranges : List (Char × Char))
deriving DecidableEq

/-- Members of a bracket set; `a-b` is a range, any other hyphen a member. -/
def parseRanges : List Char → List (Char × Char)
  | a :: '-' :: b :: rest => (a, b) :: parseRanges rest
  | a :: rest => (a, a) :: parseRanges rest
  | [] => []

/-- Split a bracket body at its closing bracket; the first character is never
the closing one. -/
def bracketBody (chars : List Char) : Option (List Char × List Char) :=
  let (head, tail) := match chars with
    | ']' :: rest => ([']'], rest)
    | _ => ([], chars)
  match tail.dropWhile (· ≠ ']') with
  | _ :: rest => some (head ++ tail.takeWhile (· ≠ ']'), rest)
  | [] => none

def setToken (chars : List Char) : Option (Token × List Char) :=
  match chars with
  | '!' :: rest => (bracketBody rest).map fun (body, after) => (.set true (parseRanges body), after)
  | _ => (bracketBody chars).map fun (body, after) => (.set false (parseRanges body), after)

def tokensFrom : Nat → List Char → List Token
  | 0, _ => []
  | _ + 1, [] => []
  | fuel + 1, '*' :: rest => .star :: tokensFrom fuel rest
  | fuel + 1, '?' :: rest => .any :: tokensFrom fuel rest
  | fuel + 1, '[' :: rest =>
      match setToken rest with
      | some (token, after) => token :: tokensFrom fuel after
      | none => .literal '[' :: tokensFrom fuel rest
  | fuel + 1, c :: rest => .literal c :: tokensFrom fuel rest

/-- Every token consumes at least one pattern character. -/
def tokens (pattern : String) : List Token :=
  tokensFrom pattern.toList.length pattern.toList

def inRanges (ranges : List (Char × Char)) (c : Char) : Bool :=
  ranges.any fun (low, high) => low ≤ c && c ≤ high

def matchTokens : List Token → List Char → Bool
  | [], cs => cs.isEmpty
  | .star :: rest, cs => cs.tails.any (matchTokens rest)
  | .any :: rest, cs => match cs with
      | [] => false
      | _ :: tail => matchTokens rest tail
  | .literal a :: rest, cs => match cs with
      | [] => false
      | c :: tail => a = c && matchTokens rest tail
  | .set negated ranges :: rest, cs => match cs with
      | [] => false
      | c :: tail => (negated != inRanges ranges c) && matchTokens rest tail

/-- `fnmatch.fnmatch(name, pattern)` on a case-sensitive file system. -/
def fnmatch (name pattern : String) : Bool := matchTokens (tokens pattern) name.toList

def singleStars : List Char → List Char
  | '*' :: '*' :: rest => '*' :: singleStars rest
  | c :: rest => c :: singleStars rest
  | [] => []

/-- `pattern.replace("**", "*")`. -/
def flattenStars (pattern : String) : String := String.ofList (singleStars pattern.toList)

/-- `any(token in path for token in ("*", "?", "[", "]"))`. -/
def hasGlob (path : String) : Bool :=
  path.toList.any fun c => c = '*' || c = '?' || c = '[' || c = ']'

/-- A star, a question mark or an opening bracket. -/
def isSpecial (c : Char) : Bool := c = '*' || c = '?' || c = '['

theorem tokensFrom_append {cs : List Char} (hplain : cs.any isSpecial = false) (fuel : Nat)
    (rest : List Char) :
    tokensFrom (cs.length + fuel) (cs ++ rest) = cs.map .literal ++ tokensFrom fuel rest := by
  induction cs with
  | nil => simp
  | cons c cs ih =>
    simp only [List.any_cons, isSpecial, Bool.or_eq_false_iff, decide_eq_false_iff_not] at hplain
    have hrest := ih (by simpa [isSpecial] using hplain.2)
    obtain ⟨⟨⟨hs, hq⟩, hl⟩, _⟩ := hplain
    rw [List.length_cons, Nat.add_right_comm, List.cons_append, tokensFrom, hrest, List.map_cons,
      List.cons_append]
    all_goals assumption

theorem tokens_append {text : String} (hplain : text.toList.any isSpecial = false)
    (pattern : String) :
    tokens (text ++ pattern) = text.toList.map .literal ++ tokens pattern := by
  unfold tokens
  rw [String.toList_append, List.length_append, tokensFrom_append hplain]

theorem matchTokens_append (text : List Char) (rest : List Token) (name : List Char) :
    matchTokens (text.map .literal ++ rest) name = true ↔
      ∃ tail, name = text ++ tail ∧ matchTokens rest tail = true := by
  induction text generalizing name with
  | nil => simp
  | cons a text ih =>
    cases name with
    | nil => simp [matchTokens]
    | cons c name =>
      simp only [List.map_cons, List.cons_append, matchTokens, Bool.and_eq_true, decide_eq_true_eq,
        ih, List.cons.injEq]
      constructor
      · rintro ⟨rfl, tail, rfl, htail⟩
        exact ⟨tail, ⟨rfl, rfl⟩, htail⟩
      · rintro ⟨tail, ⟨rfl, rfl⟩, htail⟩
        exact ⟨rfl, tail, rfl, htail⟩

/-- What a pattern matches starts with the plain text that the pattern starts with. -/
theorem startswith_of_fnmatch {name text pattern : String}
    (hplain : text.toList.any isSpecial = false) (h : fnmatch name (text ++ pattern) = true) :
    Text.startswith name text = true := by
  unfold fnmatch at h
  rw [tokens_append hplain, matchTokens_append] at h
  obtain ⟨tail, hname, -⟩ := h
  rw [Text.startswith, List.isPrefixOf_iff_prefix, hname]
  exact List.prefix_append _ _

/-- A pattern without special characters matches exactly itself. -/
theorem fnmatch_of_plain {pattern : String} (hplain : pattern.toList.any isSpecial = false)
    (name : String) : fnmatch name pattern = decide (name = pattern) := by
  have h := tokens_append hplain ""
  rw [String.append_empty] at h
  rw [fnmatch, h, Bool.eq_iff_iff, matchTokens_append, decide_eq_true_eq]
  constructor
  · rintro ⟨tail, hname, htail⟩
    have htail : tail = [] := by simpa [tokens, tokensFrom, matchTokens] using htail
    exact String.toList_inj.mp (by rw [hname, htail, List.append_nil])
  · rintro rfl
    exact ⟨[], by simp, rfl⟩

theorem isSpecial_of_hasGlob {pattern : String} (h : hasGlob pattern = false) :
    pattern.toList.any isSpecial = false := by
  rw [hasGlob, List.any_eq_false] at h
  rw [List.any_eq_false]
  intro c hc hspecial
  exact h c hc (by rw [isSpecial] at hspecial; rw [hspecial, Bool.true_or])

/-- A pattern without glob characters matches exactly itself. -/
theorem fnmatch_plain {pattern : String} (hplain : hasGlob pattern = false) (name : String) :
    fnmatch name pattern = decide (name = pattern) :=
  fnmatch_of_plain (isSpecial_of_hasGlob hplain) name

theorem singleStars_append {cs : List Char} (hplain : cs.any isSpecial = false)
    (rest : List Char) : singleStars (cs ++ rest) = cs ++ singleStars rest := by
  induction cs with
  | nil => rfl
  | cons c cs ih =>
    rw [List.any_cons, Bool.or_eq_false_iff] at hplain
    rw [List.cons_append, singleStars, ih hplain.2, List.cons_append]
    rintro tail rfl
    exact absurd hplain.1 (by decide)

theorem flattenStars_append {text : String} (hplain : text.toList.any isSpecial = false)
    (pattern : String) : flattenStars (text ++ pattern) = text ++ flattenStars pattern := by
  apply String.toList_inj.mp
  simp [flattenStars, singleStars_append hplain]

example : fnmatch "backend/app/main.py" "backend/*" = true := by decide
example : fnmatch "a" "[!a-c]" = false := by decide
example : fnmatch "x]" "[]x]]" = true := by decide
example : fnmatch "[a" "[a" = true := by decide

end ProjectOS.Base.Glob
