import Mathlib.Data.List.Forall2
import ProjectOS.Base.Replace

/-! The sections of a Markdown text: a heading of the second level and what follows it up to
the next one. -/
namespace ProjectOS.Base
open Text

structure Section where
  heading : List Char
  body : List Char
deriving DecidableEq, Repr

namespace Section

def text (s : Section) : List Char := s.heading ++ s.body

def addLine (s : Section) (line : List Char) : Section := { s with body := s.body ++ '\n' :: line }

/-- Two number signs, a space and a title. -/
def isHeading (line : List Char) : Bool :=
  ['#', '#', ' '].isPrefixOf line && (line.drop 3).any (!isSpace ·)

/-- The sections of some lines, with the section that is open before them. -/
def sectionsFrom : Option Section → List (List Char) → List Section
  | cur, [] => cur.toList
  | cur, line :: lines =>
      if isHeading line then cur.toList ++ sectionsFrom (some ⟨line, []⟩) lines
      else sectionsFrom (cur.map (·.addLine line)) lines

def sections (text : List Char) : List Section := sectionsFrom none (splitOn '\n' text)

/-- The sections without the white space at their ends. -/
def stripped (secs : List Section) : List (List Char) := secs.map fun s => rstrip s.text

variable {cur : Option Section} {lines front back : List (List Char)} {line : List Char}

theorem sectionsFrom_heading (h : isHeading line = true) :
    sectionsFrom cur (front ++ line :: back) =
      sectionsFrom cur front ++ sectionsFrom (some ⟨line, []⟩) back := by
  induction front generalizing cur with
  | nil => simp [sectionsFrom, h]
  | cons other front ih =>
    by_cases hother : isHeading other = true
    · simp only [List.cons_append, sectionsFrom, hother, if_true, ih, List.append_assoc]
    · simp only [List.cons_append, sectionsFrom, hother, Bool.false_eq_true, if_false, ih]

theorem map_heading_sectionsFrom :
    (sectionsFrom cur lines).map heading = cur.toList.map heading ++ lines.filter isHeading := by
  induction lines generalizing cur with
  | nil => simp [sectionsFrom]
  | cons line lines ih =>
    by_cases hline : isHeading line = true
    · simp [sectionsFrom, hline, ih]
    · cases cur <;> simp [sectionsFrom, hline, ih, addLine]

theorem map_heading_sections (text : List Char) :
    (sections text).map heading = (splitOn '\n' text).filter isHeading := by
  rw [sections, map_heading_sectionsFrom]
  rfl

/-- Without a heading everything belongs to the open section. -/
theorem sectionsFrom_plain (h : ∀ line ∈ lines, isHeading line = false) :
    sectionsFrom cur lines =
      (cur.map fun s => ⟨s.heading, s.body ++ lines.flatMap ('\n' :: ·)⟩).toList := by
  induction lines generalizing cur with
  | nil => cases cur <;> simp [sectionsFrom]
  | cons line lines ih =>
    have hline := h line List.mem_cons_self
    have hrest := fun l hl => h l (List.mem_cons_of_mem _ hl)
    rw [sectionsFrom, if_neg (by simp [hline]), ih hrest]
    cases cur <;> simp [addLine]

theorem flatMap_splitOn (text : List Char) :
    (splitOn '\n' text).flatMap ('\n' :: ·) = '\n' :: text := by
  induction text with
  | nil => rfl
  | cons c text ih =>
    unfold splitOn
    cases hsplit : splitOn '\n' text with
    | nil => exact absurd hsplit (splitOn_ne_nil '\n' text)
    | cons line lines =>
      rw [hsplit, List.flatMap_cons, List.cons_append] at ih
      have htext := (List.cons.inj ih).2
      by_cases hc : c = '\n'
      · simp [hc, ← htext]
      · simp [hc, ← htext]

/-- The text of a section stands in the text. -/
theorem infix_of_sectionsFrom {s : Section} (h : s ∈ sectionsFrom cur lines) :
    s.text <:+: (cur.map text).getD [] ++ lines.flatMap ('\n' :: ·) := by
  induction lines generalizing cur with
  | nil =>
    cases cur with
    | none => exact absurd h List.not_mem_nil
    | some open' =>
      obtain rfl := List.mem_singleton.1 h
      simp
  | cons line lines ih =>
    simp only [sectionsFrom] at h
    split at h
    · rcases List.mem_append.1 h with h | h
      · cases cur with
        | none => exact absurd h List.not_mem_nil
        | some open' =>
          obtain rfl := List.mem_singleton.1 h
          exact (List.prefix_append s.text _).isInfix
      · refine (ih h).trans ⟨(cur.map text).getD [] ++ ['\n'], [], ?_⟩
        simp [text]
    · refine (ih h).trans ?_
      cases cur with
      | none => exact ⟨'\n' :: line, [], by simp⟩
      | some open' => exact ⟨[], [], by simp [text, addLine]⟩

theorem infix_of_section {s : Section} {text : List Char} (h : s ∈ sections text) :
    s.text <:+: '\n' :: text := by
  have := infix_of_sectionsFrom h
  rwa [flatMap_splitOn] at this

/-! White space at the end of a text. -/

theorem isHeading_concat {c : Char} (hc : isSpace c = true) (line : List Char) :
    isHeading (line ++ [c]) = isHeading line := by
  match line with
  | [] => simp [isHeading]
  | [a] => simp [isHeading]
  | [a, b] => simp [isHeading, List.isPrefixOf]
  | a :: b :: d :: rest => simp [isHeading, List.isPrefixOf, hc]

theorem stripped_append (xs ys : List Section) :
    stripped (xs ++ ys) = stripped xs ++ stripped ys := List.map_append

theorem stripped_extended (s s' : Section) {ws : List Char} (hws : ∀ c ∈ ws, isSpace c = true)
    (h : s'.text = s.text ++ ws) : rstrip s'.text = rstrip s.text := by
  rw [h, rstrip_append_blank hws]

theorem stripped_blankLine (lines : List (List Char)) :
    stripped (sectionsFrom cur (lines ++ [[]])) = stripped (sectionsFrom cur lines) := by
  induction lines generalizing cur with
  | nil =>
    cases cur with
    | none => rfl
    | some s =>
      have hnl : ∀ c ∈ ['\n'], isSpace c = true := by decide
      have := stripped_extended s (s.addLine []) hnl (by simp [text, addLine])
      simpa [sectionsFrom, isHeading, stripped] using this
  | cons line lines ih =>
    simp only [List.cons_append, sectionsFrom]
    split
    · rw [stripped_append, stripped_append, ih]
    · exact ih

theorem stripped_longerLine {c : Char} (hc : isSpace c = true) (lines : List (List Char))
    (line : List Char) :
    stripped (sectionsFrom cur (lines ++ [line ++ [c]])) =
      stripped (sectionsFrom cur (lines ++ [line])) := by
  have hblank : ∀ d ∈ [c], isSpace d = true := by simpa using hc
  induction lines generalizing cur with
  | nil =>
    simp only [List.nil_append, sectionsFrom, isHeading_concat hc]
    split
    · have := stripped_extended ⟨line, []⟩ ⟨line ++ [c], []⟩ hblank (by simp [text])
      rw [stripped_append, stripped_append]
      exact congrArg _ (congrArg (fun t => [t]) this)
    · cases cur with
      | none => rfl
      | some s =>
        have := stripped_extended (s.addLine line) (s.addLine (line ++ [c])) hblank
          (by simp [text, addLine])
        exact congrArg (fun t => [t]) this
  | cons other lines ih =>
    simp only [List.cons_append, sectionsFrom]
    split
    · rw [stripped_append, stripped_append, ih]
    · exact ih

/-- The last line of a text goes on in the first line of what is appended. -/
theorem exists_splitOn_append (text : List Char) :
    ∃ init last, splitOn '\n' text = init ++ [last] ∧ ∀ more first rest,
      splitOn '\n' more = first :: rest →
        splitOn '\n' (text ++ more) = init ++ (last ++ first) :: rest := by
  induction text with
  | nil => exact ⟨[], [], rfl, fun more first rest h => h⟩
  | cons c text ih =>
    obtain ⟨init, last, hsplit, happend⟩ := ih
    cases init with
    | nil =>
      by_cases hc : c = '\n'
      · refine ⟨[[]], last, by simp_all [splitOn], fun more first rest h => ?_⟩
        simp [splitOn, happend more first rest h, hc]
      · refine ⟨[], c :: last, by simp_all [splitOn], fun more first rest h => ?_⟩
        simp [splitOn, happend more first rest h, hc]
    | cons line init =>
      by_cases hc : c = '\n'
      · refine ⟨[] :: line :: init, last, by simp_all [splitOn], fun more first rest h => ?_⟩
        simp [splitOn, happend more first rest h, hc]
      · refine ⟨(c :: line) :: init, last, by simp_all [splitOn], fun more first rest h => ?_⟩
        simp [splitOn, happend more first rest h, hc]

/-- The first line of a text takes what is put before it. -/
theorem exists_prepend_splitOn (text : List Char) :
    ∃ line rest, ∀ w, '\n' ∉ w → splitOn '\n' (w ++ text) = (w ++ line) :: rest := by
  cases hsplit : splitOn '\n' text with
  | nil => exact absurd hsplit (splitOn_ne_nil '\n' text)
  | cons line rest =>
    refine ⟨line, rest, fun w hw => ?_⟩
    obtain ⟨init, last, hw', happend⟩ := exists_splitOn_append w
    rw [splitOn_of_not_mem hw] at hw'
    obtain ⟨rfl, rfl⟩ : init = [] ∧ last = w := by
      cases init <;> simp_all
    exact happend text line rest hsplit

theorem infix_of_mem_splitOn {line text : List Char} (h : line ∈ splitOn '\n' text) :
    line <:+: '\n' :: text := by
  rw [← flatMap_splitOn]
  obtain ⟨front, back, hsplit⟩ := List.append_of_mem h
  rw [hsplit]
  exact ⟨front.flatMap ('\n' :: ·) ++ ['\n'], back.flatMap ('\n' :: ·), by simp⟩

theorem prefix_of_splitOn {first text : List Char} {rest : List (List Char)}
    (h : splitOn '\n' text = first :: rest) : first <+: text := by
  have hjoin := flatMap_splitOn text
  rw [h, List.flatMap_cons, List.cons_append] at hjoin
  exact ⟨_, (List.cons.inj hjoin).2⟩

theorem suffix_of_splitOn {last text : List Char} {init : List (List Char)}
    (h : splitOn '\n' text = init ++ [last]) : last <:+ text := by
  have hjoin := flatMap_splitOn text
  rw [h, List.flatMap_append] at hjoin
  cases init with
  | nil =>
    obtain rfl : last = text := by simpa using hjoin
    exact List.suffix_rfl
  | cons line init =>
    rw [List.flatMap_cons, List.cons_append, List.cons_append] at hjoin
    refine ⟨line ++ init.flatMap ('\n' :: ·) ++ ['\n'], ?_⟩
    rw [← (List.cons.inj hjoin).2]
    simp

/-- A text with an empty last line is empty or ends with a newline. -/
theorem eq_nil_or_newline {text : List Char} {init : List (List Char)}
    (h : splitOn '\n' text = init ++ [[]]) : text = [] ∨ ∃ lines, text = lines ++ ['\n'] := by
  cases text using List.reverseRecOn with
  | nil => exact .inl rfl
  | append_singleton text c _ =>
    by_cases hc : c = '\n'
    · exact .inr ⟨text, by rw [hc]⟩
    · obtain ⟨init', last, -, happend⟩ := exists_splitOn_append text
      rw [happend [c] [c] [] (splitOn_of_not_mem (by simpa using Ne.symm hc))] at h
      have hlast := (List.append_inj' h rfl).2
      simp at hlast

theorem isHeading_append {line : List Char} (h : isHeading line = true) (more : List Char) :
    isHeading (line ++ more) = true := by
  obtain ⟨hstart, htitle⟩ := Bool.and_eq_true_iff.1 h
  obtain ⟨title, rfl⟩ := List.isPrefixOf_iff_prefix.1 hstart
  simp_all [isHeading]

/-- The open section takes the lines up to the next heading. -/
theorem exists_open_section (s : Section) (lines : List (List Char)) :
    ∃ body rest, sectionsFrom (some s) lines = ⟨s.heading, s.body ++ body⟩ :: rest ∧
      body <+: lines.flatMap ('\n' :: ·) := by
  induction lines generalizing s with
  | nil => exact ⟨[], [], by simp [sectionsFrom], List.nil_prefix⟩
  | cons line lines ih =>
    simp only [sectionsFrom]
    split
    · exact ⟨[], _, by simp; rfl, List.nil_prefix⟩
    · obtain ⟨body, rest, hsections, hbody⟩ := ih (s.addLine line)
      refine ⟨'\n' :: line ++ body, rest, ?_, ?_⟩
      · rw [Option.map_some, hsections]
        simp [addLine]
      · exact (List.prefix_append_right_inj ('\n' :: line)).2 hbody

/-- A line at or behind a heading stands in a section. -/
theorem exists_section_of_line (init rest : List (List Char)) (line : List Char)
    (h : cur.isSome = true ∨ ∃ l ∈ init ++ [line], isHeading l = true) :
    ∃ s ∈ sectionsFrom cur (init ++ line :: rest), line <:+: s.text ∧
      (s.heading ∈ cur.toList.map heading ∨ s.heading ∈ init ∨ s.heading = line) := by
  induction init generalizing cur with
  | nil =>
    simp only [List.nil_append, sectionsFrom]
    by_cases hline : isHeading line = true
    · rw [if_pos hline]
      obtain ⟨body, more, hsections, -⟩ := exists_open_section ⟨line, []⟩ rest
      rw [hsections]
      refine ⟨_, List.mem_append_right _ List.mem_cons_self, ?_, .inr (.inr rfl)⟩
      exact (List.prefix_append line _).isInfix
    · rw [if_neg hline]
      cases cur with
      | none => simp [hline] at h
      | some s =>
        obtain ⟨body, more, hsections, -⟩ := exists_open_section (s.addLine line) rest
        rw [Option.map_some, hsections]
        refine ⟨_, List.mem_cons_self, ?_, .inl (by simp [addLine])⟩
        exact ⟨s.text ++ ['\n'], body, by simp [text, addLine]⟩
  | cons other init ih =>
    simp only [List.cons_append, sectionsFrom]
    split
    · obtain ⟨s, hs, hline, hheading⟩ := @ih (some ⟨other, []⟩) (.inl rfl)
      refine ⟨s, List.mem_append_right _ hs, hline, .inr ?_⟩
      rcases hheading with hheading | hheading | hheading
      · exact .inl (by simp_all)
      · exact .inl (List.mem_cons_of_mem _ hheading)
      · exact .inr hheading
    · rename_i hother
      obtain ⟨s, hs, hline, hheading⟩ := @ih (cur.map (·.addLine other)) (by
        rcases h with h | ⟨l, hl, hheading⟩
        · exact .inl (by simpa using h)
        · rcases List.mem_cons.1 hl with rfl | hl
          · exact absurd hheading hother
          · exact .inr ⟨l, hl, hheading⟩)
      refine ⟨s, hs, hline, ?_⟩
      rcases hheading with hheading | hheading | hheading
      · refine .inl ?_
        cases cur <;> simp_all [addLine]
      · exact .inr (.inl (List.mem_cons_of_mem _ hheading))
      · exact .inr (.inr hheading)

theorem stripped_sections_append {ws : List Char} (h : ∀ c ∈ ws, isSpace c = true)
    (text : List Char) : stripped (sections (text ++ ws)) = stripped (sections text) := by
  induction ws using List.reverseRecOn with
  | nil => rw [List.append_nil]
  | append_singleton ws c ih =>
    have hc : isSpace c = true := h c (by simp)
    rw [← ih fun d hd => h d (List.mem_append_left _ hd), ← List.append_assoc]
    by_cases hnl : c = '\n'
    · subst hnl
      have hsplit := splitOn_append_sep '\n' (text ++ ws) []
      rw [sections, hsplit]
      exact stripped_blankLine _
    · obtain ⟨init, last, hsplit, happend⟩ := exists_splitOn_append (text ++ ws)
      have hlast := happend [c] [c] [] (splitOn_of_not_mem (by simpa using Ne.symm hnl))
      rw [sections, hlast, stripped_longerLine hc, ← hsplit]
      rfl

/-! A replacement inside a section. -/

/-- One section with a word in the place of another, or the same section. -/
def Replaced (x y : List Char) (s s' : Section) : Prop :=
  s.heading = s'.heading ∧
    (s' = s ∨ ∃ u v, s.text = u ++ x ++ v ∧ s'.text = u ++ y ++ v)

theorem Replaced.refl (x y : List Char) (s : Section) : Replaced x y s s := ⟨rfl, .inl rfl⟩

theorem forall₂_replaced_refl (x y : List Char) (secs : List Section) :
    List.Forall₂ (Replaced x y) secs secs := by
  induction secs with
  | nil => exact .nil
  | cons s secs ih => exact .cons (.refl x y s) ih

theorem forall₂_replaced_open {x y : List Char} {s s' : Section} (u v : List Char)
    (hheading : s.heading = s'.heading) (hs : s.text = u ++ x ++ v) (hs' : s'.text = u ++ y ++ v)
    (lines : List (List Char)) :
    List.Forall₂ (Replaced x y) (sectionsFrom (some s) lines) (sectionsFrom (some s') lines) := by
  induction lines generalizing s s' v with
  | nil => exact .cons ⟨hheading, .inr ⟨u, v, hs, hs'⟩⟩ .nil
  | cons line lines ih =>
    simp only [sectionsFrom]
    split
    · exact .cons ⟨hheading, .inr ⟨u, v, hs, hs'⟩⟩ (forall₂_replaced_refl x y _)
    · refine ih (v ++ '\n' :: line) hheading ?_ ?_
      · rw [show (s.addLine line).text = s.text ++ '\n' :: line by simp [text, addLine], hs,
          List.append_assoc]
      · rw [show (s'.addLine line).text = s'.text ++ '\n' :: line by simp [text, addLine], hs',
          List.append_assoc]

/-- The start of a line that is no heading is replaced, together with the end of the line
before it. -/
theorem forall₂_replaced_line {k p r : List Char} (hp : ∀ v, isHeading (p ++ v) = false)
    (hr : ∀ v, isHeading (r ++ v) = false) (lines rest : List (List Char)) (l v : List Char) :
    List.Forall₂ (Replaced (k ++ '\n' :: p) (k ++ '\n' :: r))
      (sectionsFrom cur (lines ++ (l ++ k) :: (p ++ v) :: rest))
      (sectionsFrom cur (lines ++ (l ++ k) :: (r ++ v) :: rest)) := by
  induction lines generalizing cur with
  | nil =>
    simp only [List.nil_append, sectionsFrom, hp, hr, Bool.false_eq_true, if_false,
      Option.map_some, Option.map_map]
    split
    · refine List.rel_append (forall₂_replaced_refl _ _ _) ?_
      refine forall₂_replaced_open l v (by rfl) ?_ ?_ rest <;> simp [text, addLine]
    · cases cur with
      | none => exact forall₂_replaced_refl _ _ _
      | some s =>
        simp only [Option.map_some, Function.comp_apply]
        refine forall₂_replaced_open (s.text ++ '\n' :: l) v (by rfl) ?_ ?_ rest <;>
          simp [text, addLine]
  | cons line lines ih =>
    simp only [List.cons_append, sectionsFrom]
    split
    · exact List.rel_append (forall₂_replaced_refl _ _ _) ih
    · exact ih

/-- The sections of a text in which a word that ends one line and begins the next is replaced. -/
theorem forall₂_replaced {k p r : List Char} (hk : '\n' ∉ k) (hpnl : '\n' ∉ p) (hrnl : '\n' ∉ r)
    (hp : ∀ v, isHeading (p ++ v) = false) (hr : ∀ v, isHeading (r ++ v) = false)
    (a v : List Char) :
    List.Forall₂ (Replaced (k ++ '\n' :: p) (k ++ '\n' :: r))
      (sections (a ++ (k ++ '\n' :: p) ++ v)) (sections (a ++ (k ++ '\n' :: r) ++ v)) := by
  obtain ⟨init, last, -, happend⟩ := exists_splitOn_append a
  obtain ⟨line, rest, hprepend⟩ := exists_prepend_splitOn v
  have hlines : ∀ w, '\n' ∉ w → splitOn '\n' (a ++ (k ++ '\n' :: w) ++ v) =
      init ++ (last ++ k) :: (w ++ line) :: rest := by
    intro w hw
    have hsep := splitOn_append_sep '\n' (a ++ k) (w ++ v)
    rw [happend k k [] (splitOn_of_not_mem hk), hprepend w hw] at hsep
    simpa using hsep
  rw [sections, sections, hlines p hpnl, hlines r hrnl]
  exact forall₂_replaced_line hp hr init rest last line

end Section
end ProjectOS.Base
