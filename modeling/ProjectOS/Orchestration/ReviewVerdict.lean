import ProjectOS.Base.Leftmost
import ProjectOS.Base.Text

/-! The conclusion of a review, read out of its text by a search for one of the two
ways in which the control plane writes it. -/
namespace ProjectOS.Orchestration
open Base

inductive ReviewVerdict where
  | pass
  | conditionalPass
  | blocked
deriving DecidableEq, Repr

namespace ReviewVerdict

def value : ReviewVerdict → String
  | pass => "PASS"
  | conditionalPass => "CONDITIONAL_PASS"
  | blocked => "BLOCKED"

def all : List ReviewVerdict := [pass, conditionalPass, blocked]

/-- The spellings of `审查结论[（(](PASS|CONDITIONAL_PASS|BLOCKED)[)）]`. -/
def mentions : Leftmost.Spellings Char ReviewVerdict :=
  ["（", "("].flatMap fun opening => all.flatMap fun verdict => [")", "）"].map fun closing =>
    (("审查结论" ++ opening ++ verdict.value ++ closing).toList, verdict)

end ReviewVerdict

/-- `_parse_review_verdict`. -/
def parseReviewVerdict (content : Option String) : Option ReviewVerdict :=
  match content with
  | none => none
  | some content =>
      if content = "" then none else Leftmost.search ReviewVerdict.mentions content.toList

/-- The two ways to write a conclusion: in brackets after the heading, or on the line below. -/
inductive ConclusionForm where
  | bracketed
  | below
deriving DecidableEq, Repr

def ConclusionForm.write (form : ConclusionForm) (verdict : ReviewVerdict) : List Char :=
  match form with
  | .bracketed => ("## 审查结论（" ++ verdict.value ++ "）").toList
  | .below => ("## 审查结论\n" ++ verdict.value).toList

/-- The report writes the conclusion on lines of its own between the two texts. -/
structure Concludes (content : String) (before : List Char) (form : ConclusionForm)
    (verdict : ReviewVerdict) (after : List Char) : Prop where
  text : content.toList = before ++ form.write verdict ++ after
  opened : before = [] ∨ ∃ lines, before = lines ++ ['\n']
  closed : after = [] ∨ ∃ lines, after = '\n' :: lines

/-- The conclusions of a text, line by line. -/
def conclusions : List String → List ReviewVerdict
  | [] => []
  | line :: rest =>
      ReviewVerdict.all.filter (fun verdict =>
        line = "## 审查结论（" ++ verdict.value ++ "）" ||
          (line = "## 审查结论" && rest.head? = some verdict.value)) ++ conclusions rest

/-- The bracketed form is read unless another verdict is mentioned before it; the other
form only if the text around it mentions its verdict first. -/
def Legible (before : List Char) (form : ConclusionForm) (verdict : ReviewVerdict)
    (after : List Char) : Prop :=
  match form with
  | .bracketed => ∀ earlier, Leftmost.First ReviewVerdict.mentions before earlier →
      earlier = verdict
  | .below => Leftmost.First ReviewVerdict.mentions (before ++ after) verdict

open ReviewVerdict

theorem mentions_exclusive : Leftmost.Exclusive mentions := by
  unfold Leftmost.Exclusive
  decide

theorem mentions_oneLine : ∀ s ∈ mentions, '\n' ∉ s.1 := by decide

theorem search_mentions_append (xs ys : List Char) :
    Leftmost.search mentions (xs ++ '\n' :: ys) =
      (Leftmost.search mentions xs).or (Leftmost.search mentions ys) :=
  Leftmost.search_append mentions_oneLine (by decide) xs ys

theorem search_mentions_opened {before : List Char}
    (h : before = [] ∨ ∃ lines, before = lines ++ ['\n']) (rest : List Char) :
    Leftmost.search mentions (before ++ rest) =
      (Leftmost.search mentions before).or (Leftmost.search mentions rest) := by
  have hempty : Leftmost.search mentions [] = none := by decide
  obtain rfl | ⟨lines, rfl⟩ := h
  · rw [List.nil_append, hempty, Option.none_or]
  · rw [search_mentions_append, hempty, Option.or_none, List.append_assoc, List.singleton_append,
      search_mentions_append]

theorem search_mentions_closed {after : List Char}
    (h : after = [] ∨ ∃ lines, after = '\n' :: lines) (start : List Char) :
    Leftmost.search mentions (start ++ after) =
      (Leftmost.search mentions start).or (Leftmost.search mentions after) := by
  have hempty : Leftmost.search mentions [] = none := by decide
  obtain rfl | ⟨lines, rfl⟩ := h
  · rw [List.append_nil, hempty, Option.or_none]
  · have hafter := search_mentions_append [] lines
    rw [List.nil_append, hempty, Option.none_or] at hafter
    rw [search_mentions_append, hafter]

theorem search_write (form : ConclusionForm) (verdict : ReviewVerdict) :
    Leftmost.search mentions (form.write verdict) =
      if form = .bracketed then some verdict else none := by
  cases form <;> cases verdict <;> decide

variable {content : String} {before after : List Char} {form : ConclusionForm}
  {verdict : ReviewVerdict}

/-- The search sees the text before the conclusion, the conclusion and the text after it. -/
theorem Concludes.parse (h : Concludes content before form verdict after) :
    parseReviewVerdict (some content) =
      (Leftmost.search mentions before).or
        ((if form = .bracketed then some verdict else none).or
          (Leftmost.search mentions after)) := by
  have hnonempty : content ≠ "" := by
    intro hempty
    have htext := h.text
    rw [hempty, List.append_assoc] at htext
    have hwritten := List.append_eq_nil_iff.mp (List.append_eq_nil_iff.mp htext.symm).2
    have hwrite : form.write verdict ≠ [] := by cases form <;> cases verdict <;> decide
    exact hwrite hwritten.1
  rw [parseReviewVerdict, if_neg hnonempty, h.text, List.append_assoc,
    search_mentions_opened h.opened, search_mentions_closed h.closed, search_write]

theorem Concludes.parse_iff (h : Concludes content before form verdict after) :
    parseReviewVerdict (some content) = some verdict ↔ Legible before form verdict after := by
  have hfirst {text : List Char} {verdict : ReviewVerdict} :=
    @Leftmost.search_eq_some Char ReviewVerdict _ mentions text verdict mentions_exclusive
  rw [h.parse]
  cases form with
  | bracketed =>
    rw [if_pos rfl, Option.some_or, Legible]
    simp only [← hfirst]
    cases hbefore : Leftmost.search mentions before with
    | none => simp
    | some earlier => simp [eq_comm]
  | below =>
    rw [if_neg (by intro hform; cases hform), Option.none_or, Legible, ← hfirst, search_mentions_opened h.opened]

end ProjectOS.Orchestration
