import ProjectOS.Base.JsonText

/-! `repr` of a value read as JSON. Outside of strings the reader has no use for an apostrophe, so
the text of a Python dictionary is no JSON as soon as one key stands between apostrophes. -/
namespace ProjectOS.Base.Json

namespace Reader

/-- Not within a string. -/
def Outside (r : Reader) : Prop := r.mode = .between ∨ ∃ rev, r.mode = .atom rev

/-- Within a string, and not within an escape. -/
def Inside (r : Reader) : Prop := ∃ rev, r.mode = .text rev

theorem outside_feedValue {r r' : Reader} {value : Json} (h : r.feedValue value = some r') :
    r'.Outside := by
  unfold feedValue at h
  split at h
  · cases h
    exact Or.inl rfl
  · cases h

theorem outside_feedText {r r' : Reader} {text : String} (h : r.feedText text = some r') :
    r'.Outside := by
  unfold feedText at h
  split at h
  · cases h
    exact Or.inl rfl
  · cases h
    exact Or.inl rfl
  · cases h

theorem outside_punctuate {goal : Goal} {stack : List Frame} {c : Char} {r : Reader}
    (h : punctuate goal stack c = some r) : r.Outside := by
  have hmode : r.mode = .between := by
    unfold punctuate at h
    repeat' split at h
    all_goals first | (cases h; done) | (cases h; rfl)
  exact Or.inl hmode

theorem punctuate_apostrophe (goal : Goal) (stack : List Frame) :
    punctuate goal stack Text.apostrophe = none := by
  cases goal with
  | value first => rfl
  | key fields first => rfl
  | colon fields key => rfl
  | complete value =>
    cases stack with
    | nil => rfl
    | cons frame stack => cases frame <;> rfl

theorem readBetween_apostrophe (r : Reader) : r.readBetween Text.apostrophe = none := by
  have hplain : (Text.apostrophe = ' ' || Text.apostrophe = '\t' || Text.apostrophe = '\n' ||
      Text.apostrophe = '\r') = false ∧ isAtomChar Text.apostrophe = false ∧
      Text.apostrophe ≠ Text.quotationMark := by decide
  unfold readBetween
  simp only [hplain.1, hplain.2.1, hplain.2.2, if_false, Bool.false_eq_true]
  exact punctuate_apostrophe _ _

theorem step_apostrophe {r : Reader} (h : r.Outside) : r.step Text.apostrophe = none := by
  have hatom : isAtomChar Text.apostrophe = false := by decide
  rcases h with hmode | ⟨rev, hmode⟩
  · simp only [step, hmode, readBetween_apostrophe]
  · simp only [step, hmode, hatom, Bool.false_eq_true, if_false]
    cases r.settle with
    | none => rfl
    | some settled => exact readBetween_apostrophe settled

theorem outside_readBetween {r r' : Reader} {c : Char} (hc : c ≠ Text.quotationMark)
    (h : r.readBetween c = some r') : r'.Outside := by
  unfold readBetween at h
  split at h
  · cases h
    exact Or.inl rfl
  · split at h
    · cases h
      exact Or.inr ⟨[c], rfl⟩
    · exact outside_punctuate h

/-- Only a quotation mark leads into a string. -/
theorem Outside.step {r r' : Reader} (h : r.Outside) {c : Char} (hc : c ≠ Text.quotationMark)
    (hstep : r.step c = some r') : r'.Outside := by
  rcases h with hmode | ⟨rev, hmode⟩
  · simp only [Reader.step, hmode] at hstep
    exact outside_readBetween hc hstep
  · simp only [Reader.step, hmode] at hstep
    split at hstep
    · cases hstep
      exact Or.inr ⟨_, rfl⟩
    · obtain ⟨settled, -, hread⟩ := Option.bind_eq_some_iff.mp hstep
      exact outside_readBetween hc hread

theorem Outside.step_quotationMark {r r' : Reader} (h : r.Outside)
    (hstep : r.step Text.quotationMark = some r') : r'.Inside := by
  have hread : ∀ s : Reader, s.readBetween Text.quotationMark = some { s with mode := .text [] } := by
    intro s
    rfl
  rcases h with hmode | ⟨rev, hmode⟩
  · simp only [Reader.step, hmode, hread, Option.some.injEq] at hstep
    exact ⟨[], by rw [← hstep]⟩
  · have hatom : isAtomChar Text.quotationMark = false := by decide
    simp only [Reader.step, hmode, hatom, Bool.false_eq_true, if_false] at hstep
    obtain ⟨settled, -, hsettled⟩ := Option.bind_eq_some_iff.mp hstep
    rw [hread, Option.some.injEq] at hsettled
    exact ⟨[], by rw [← hsettled]⟩

theorem Inside.step_quotationMark {r r' : Reader} (h : r.Inside)
    (hstep : r.step Text.quotationMark = some r') : r'.Outside := by
  obtain ⟨rev, hmode⟩ := h
  simp only [Reader.step, hmode, if_true] at hstep
  obtain ⟨cs, -, hfeed⟩ := Option.bind_eq_some_iff.mp hstep
  exact outside_feedText hfeed

end Reader

/-- Reading the characters outside of strings ends outside of strings, if it does not fail. -/
def Passes (cs : List Char) : Prop :=
  ∀ r r' : Reader, r.Outside → r.run cs = some r' → r'.Outside

/-- The characters are refused wherever they stand outside of strings. -/
def Refused (cs : List Char) : Prop := ∀ r : Reader, r.Outside → r.run cs = none

theorem Passes.append {a b : List Char} (ha : Passes a) (hb : Passes b) : Passes (a ++ b) := by
  intro r r' hr hrun
  rw [Reader.run_append] at hrun
  obtain ⟨middle, hmiddle, hrest⟩ := Option.bind_eq_some_iff.mp hrun
  exact hb middle r' (ha r middle hr hmiddle) hrest

theorem Refused.append {a b : List Char} (ha : Passes a) (hb : Refused b) : Refused (a ++ b) := by
  intro r hr
  rw [Reader.run_append]
  cases hrun : r.run a with
  | none => rfl
  | some middle => exact hb middle (ha r middle hr hrun)

theorem Refused.append_right {a : List Char} (ha : Refused a) (b : List Char) :
    Refused (a ++ b) := by
  intro r hr
  rw [Reader.run_append, ha r hr, Option.bind_none]

theorem passes_of_plain {cs : List Char} (h : Text.quotationMark ∉ cs) : Passes cs := by
  induction cs with
  | nil =>
    intro r r' hr hrun
    cases hrun
    exact hr
  | cons c cs ih =>
    rw [List.mem_cons, not_or] at h
    intro r r' hr hrun
    rw [Reader.run_cons] at hrun
    obtain ⟨middle, hstep, hrest⟩ := Option.bind_eq_some_iff.mp hrun
    exact ih h.2 middle r' (hr.step (Ne.symm h.1) hstep) hrest

theorem refused_apostrophe (cs : List Char) : Refused (Text.apostrophe :: cs) := by
  intro r hr
  rw [Reader.run_cons, Reader.step_apostrophe hr, Option.bind_none]

theorem Refused.passes {cs : List Char} (h : Refused cs) : Passes cs := by
  intro r r' hr hrun
  rw [h r hr] at hrun
  cases hrun

/-! What `repr` writes. -/

/-- One character of a text between quotation marks. -/
def reprChar (c : Char) : List Char :=
  if c = '\n' then [Text.backslash, 'n']
  else if c = '\r' then [Text.backslash, 'r']
  else if c = '\t' then [Text.backslash, 't']
  else if c = Text.backslash then [Text.backslash, c]
  else [c]

theorem Reader.Inside.run_reprChar {r r' : Reader} (h : r.Inside) {c : Char}
    (hc : c ≠ Text.quotationMark) (hrun : r.run (reprChar c) = some r') : r'.Inside := by
  obtain ⟨rev, hmode⟩ := h
  have hescape : ∀ d, d ∈ ['n', 'r', 't', Text.backslash] →
      r.run [Text.backslash, d] = some r' → r'.Inside := by
    intro d hd hread
    have hfirst : r.step Text.backslash = some { r with mode := .escaped rev } := by
      simp only [step, hmode]
      rfl
    have hsecond : ∃ unit, ({ r with mode := .escaped rev } : Reader).step d =
        some { r with mode := .text (unit :: rev) } := by
      simp only [List.mem_cons, List.not_mem_nil, or_false] at hd
      rcases hd with rfl | rfl | rfl | rfl <;> exact ⟨_, rfl⟩
    obtain ⟨unit, hunit⟩ := hsecond
    rw [run_cons, hfirst, Option.bind_some, run_cons, hunit, Option.bind_some, run_nil,
      Option.some.injEq] at hread
    exact ⟨unit :: rev, by rw [← hread]⟩
  unfold reprChar at hrun
  split at hrun
  · exact hescape 'n' (by decide) hrun
  split at hrun
  · exact hescape 'r' (by decide) hrun
  split at hrun
  · exact hescape 't' (by decide) hrun
  split at hrun
  · rename_i hbackslash
    subst hbackslash
    exact hescape Text.backslash (by decide) hrun
  · rename_i hbackslash
    have hread : r.step c = some r' := by
      rw [run_cons] at hrun
      obtain ⟨middle, hstep, hlast⟩ := Option.bind_eq_some_iff.mp hrun
      rw [hstep]
      exact hlast
    simp only [step, hmode, hc, hbackslash, if_false] at hread
    split at hread
    · cases hread
    · cases hread
      exact ⟨_, rfl⟩

theorem Reader.Inside.run_reprChars {r r' : Reader} (h : r.Inside) {cs : List Char}
    (hcs : Text.quotationMark ∉ cs) (hrun : r.run (cs.flatMap reprChar) = some r') :
    r'.Inside := by
  induction cs generalizing r with
  | nil =>
    cases hrun
    exact h
  | cons c cs ih =>
    rw [List.mem_cons, not_or] at hcs
    rw [List.flatMap_cons, run_append] at hrun
    obtain ⟨middle, hmiddle, hrest⟩ := Option.bind_eq_some_iff.mp hrun
    exact ih (h.run_reprChar (Ne.symm hcs.1) hmiddle) hcs.2 hrest

/-- A text is refused, or it is one without a quotation mark between two of them. -/
theorem repr_text (s : String) :
    (∃ cs, (Text.repr s).toList = Text.apostrophe :: cs) ∨
      Text.quotationMark ∉ s.toList ∧ (Text.repr s).toList =
        Text.quotationMark :: (s.toList.flatMap reprChar ++ [Text.quotationMark]) := by
  unfold Text.repr
  cases hquote : s.toList.contains Text.apostrophe && !s.toList.contains Text.quotationMark with
  | true =>
    right
    have hplain : Text.quotationMark ∉ s.toList := by
      rw [Bool.and_eq_true, Bool.not_eq_true', ← Bool.not_eq_true, List.contains_iff_mem,
        List.contains_iff_mem] at hquote
      exact hquote.2
    refine ⟨hplain, ?_⟩
    have hchars : ∀ c ∈ s.toList, (if c = '\n' then [Text.backslash, 'n']
        else if c = '\r' then [Text.backslash, 'r']
        else if c = '\t' then [Text.backslash, 't']
        else if (decide (c = Text.backslash) || decide (c = Text.quotationMark)) = true then
          [Text.backslash, c]
        else [c]) = reprChar c := by
      intro c hc
      have hne : c ≠ Text.quotationMark := fun heq => hplain (heq ▸ hc)
      simp [reprChar, hne]
    simp only [if_true, String.toList_ofList, List.cons_append, List.nil_append]
    rw [List.flatMap_congr hchars]
  | false =>
    left
    simp only [Bool.false_eq_true, if_false, String.toList_ofList, List.cons_append]
    exact ⟨_, rfl⟩

theorem passes_repr_text (s : String) : Passes (Text.repr s).toList := by
  rcases repr_text s with ⟨cs, hcs⟩ | ⟨hplain, hcs⟩
  · rw [hcs]
    exact (refused_apostrophe cs).passes
  · intro r r' hr hrun
    rw [hcs, Reader.run_cons] at hrun
    obtain ⟨opened, hopen, hrest⟩ := Option.bind_eq_some_iff.mp hrun
    rw [Reader.run_append] at hrest
    obtain ⟨read, hread, hlast⟩ := Option.bind_eq_some_iff.mp hrest
    rw [Reader.run_cons] at hlast
    obtain ⟨closed, hclose, hend⟩ := Option.bind_eq_some_iff.mp hlast
    cases hend
    exact ((hr.step_quotationMark hopen).run_reprChars hplain hread).step_quotationMark hclose

theorem toList_join_cons (sep part next : String) (parts : List String) :
    (Text.join sep (part :: next :: parts)).toList =
      part.toList ++ (sep.toList ++ (Text.join sep (next :: parts)).toList) := by
  rw [Text.join, String.intercalate_cons_cons, String.toList_append, String.toList_append,
    List.append_assoc]
  rfl

theorem passes_join {sep : String} {parts : List String} (hsep : Passes sep.toList)
    (h : ∀ part ∈ parts, Passes part.toList) : Passes (Text.join sep parts).toList := by
  induction parts with
  | nil => exact passes_of_plain List.not_mem_nil
  | cons part parts ih =>
    rw [List.forall_mem_cons] at h
    cases parts with
    | nil => simpa [Text.join] using h.1
    | cons next parts =>
      rw [toList_join_cons]
      exact h.1.append (hsep.append (ih h.2))

theorem refused_join {sep : String} {parts : List String} (hsep : Passes sep.toList)
    (h : ∀ part ∈ parts, Passes part.toList) {refused : String} (hmem : refused ∈ parts)
    (hrefused : Refused refused.toList) : Refused (Text.join sep parts).toList := by
  induction parts with
  | nil => cases hmem
  | cons part parts ih =>
    rw [List.forall_mem_cons] at h
    cases parts with
    | nil =>
      rw [List.mem_singleton] at hmem
      subst hmem
      simpa [Text.join] using hrefused
    | cons next parts =>
      rw [toList_join_cons]
      rcases List.mem_cons.mp hmem with rfl | hrest
      · exact hrefused.append_right _
      · exact Refused.append h.1 (Refused.append hsep (ih h.2 hrest))

theorem passes_separator : Passes (", " : String).toList := passes_of_plain (by decide)

mutual

theorem passes_repr : ∀ value : Json, Passes value.repr.toList
  | .null => passes_of_plain (by decide)
  | .bool b => by cases b <;> exact passes_of_plain (by decide)
  | .int value => by
    rw [repr]
    apply passes_of_plain
    intro hmem
    have hatom := isAtomChar_of_mem_toString hmem
    exact absurd hatom (by decide)
  | .str text => by
    rw [repr]
    exact passes_repr_text text
  | .arr items => by
    rw [repr, String.toList_append, String.toList_append]
    have hitems := passes_join passes_separator (passes_reprItems items)
    exact ((passes_of_plain (by decide)).append hitems).append (passes_of_plain (by decide))
  | .obj fields => by
    rw [repr, String.toList_append, String.toList_append]
    have hfields := passes_join passes_separator (passes_reprFields fields)
    exact ((passes_of_plain (by decide)).append hfields).append (passes_of_plain (by decide))

theorem passes_reprItems : ∀ items : List Json, ∀ part ∈ reprItems items, Passes part.toList
  | [] => fun _ h => absurd h List.not_mem_nil
  | value :: rest => by
    rw [reprItems, List.forall_mem_cons]
    exact ⟨passes_repr value, passes_reprItems rest⟩

theorem passes_reprFields :
    ∀ fields : List (String × Json), ∀ part ∈ reprFields fields, Passes part.toList
  | [] => fun _ h => absurd h List.not_mem_nil
  | (key, value) :: rest => by
    rw [reprFields, List.forall_mem_cons]
    refine ⟨?_, passes_reprFields rest⟩
    rw [String.toList_append, String.toList_append]
    exact ((passes_repr_text key).append (passes_of_plain (by decide))).append (passes_repr value)

end

theorem mem_reprFields {fields : List (String × Json)} {key : String} {value : Json}
    (h : (key, value) ∈ fields) : Text.repr key ++ ": " ++ value.repr ∈ reprFields fields := by
  induction fields with
  | nil => cases h
  | cons field fields ih =>
    obtain ⟨k, v⟩ := field
    rw [reprFields]
    rcases List.mem_cons.mp h with heq | hmem
    · cases heq
      exact List.mem_cons_self
    · exact List.mem_cons_of_mem _ (ih hmem)

/-- A dictionary with a key that `repr` puts between apostrophes has no JSON text. -/
theorem loads_repr {fields : List (String × Json)} {key : String} {value : Json}
    (h : (key, value) ∈ fields) {cs : List Char}
    (hkey : (Text.repr key).toList = Text.apostrophe :: cs) : loads (obj fields).repr = none := by
  have hfield : Refused (Text.repr key ++ ": " ++ value.repr).toList := by
    rw [String.toList_append, String.toList_append, hkey, List.append_assoc]
    exact refused_apostrophe _
  have hfields := refused_join passes_separator (passes_reprFields fields)
    (mem_reprFields h) hfield
  have hrefused : Refused (obj fields).repr.toList := by
    rw [repr, String.toList_append, String.toList_append]
    exact (Refused.append (passes_of_plain (by decide)) hfields).append_right _
  unfold loads
  rw [hrefused Reader.start (Or.inl rfl), Option.bind_none]

end ProjectOS.Base.Json
