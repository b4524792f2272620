import Mathlib.Data.List.DropRight
import Mathlib.Data.List.Infix
import ProjectOS.Base.Text

/-! The first occurrence of a word in a text, and what a replacement there does. -/
namespace ProjectOS.Base.Text

variable {words : List (List Char)} {w x y a b t : List Char}

/-- The text before the first of some words, and the text from it on. -/
def splitFirst (words : List (List Char)) : List Char → Option (List Char × List Char)
  | [] => if words.any (·.isPrefixOf []) then some ([], []) else none
  | c :: t =>
      if words.any (·.isPrefixOf (c :: t)) then some ([], c :: t)
      else (splitFirst words t).map fun m => (c :: m.1, m.2)

/-- `text.replace(x, y, 1)`. -/
def replaceFirst (x y text : List Char) : List Char :=
  match splitFirst [x] text with
  | none => text
  | some (front, back) => front ++ y ++ back.drop x.length

/-- `text.rstrip()`. -/
def rstrip (t : List Char) : List Char := t.rdropWhile isSpace

/-! Occurrences in parts of a text. -/

/-- A word without a character stands on one side of it. -/
theorem infix_of_sep {c : Char} {l r : List Char} (hc : c ∉ w) (h : w <:+: l ++ c :: r) :
    w <:+: l ∨ w <:+: r := by
  rcases List.infix_append_iff.1 h with h | h | ⟨w₁, w₂, rfl, h₁, h₂⟩
  · exact .inl h
  · rcases List.infix_cons_iff.1 h with h | h
    · cases w with
      | nil => exact .inl List.nil_infix
      | cons d w => exact absurd ((List.cons_prefix_cons.1 h).1 ▸ List.mem_cons_self) hc
    · exact .inr h
  · cases w₂ with
    | nil => exact .inl (by simpa using h₁.isInfix)
    | cons d w₂ =>
      have hd : d = c := (List.cons_prefix_cons.1 h₂).1
      exact absurd (hd ▸ List.mem_append_right _ List.mem_cons_self) hc

/-- A word does not reach into a tail without its last character. -/
theorem infix_of_tail {d : Char} {k : List Char} (hd : d ∉ k) (h : x ++ [d] <:+: a ++ k) :
    x ++ [d] <:+: a := by
  induction k using List.reverseRecOn with
  | nil => simpa using h
  | append_singleton k c ih =>
    rw [List.mem_append, not_or] at hd
    rw [← List.append_assoc, List.infix_concat_iff] at h
    rcases h with h | h
    · have hlast := List.suffix_concat_iff.1 h
      rcases hlast with hnil | ⟨t, ht, -⟩
      · simp at hnil
      · have hdc := (List.append_inj' ht rfl).2
        exact absurd (by simpa using hdc) hd.2
    · exact ih hd.1 h

theorem prefix_of_tail {d : Char} {k : List Char} (hd : d ∉ k) :
    x ++ [d] <+: a ++ k ↔ x ++ [d] <+: a := by
  refine ⟨fun h => ?_, fun h => h.trans (List.prefix_append a k)⟩
  rcases List.prefix_or_prefix_of_prefix h (List.prefix_append a k) with h' | ⟨z, hz⟩
  · exact h'
  · obtain ⟨u, hu⟩ := h
    rw [← hz, List.append_assoc] at hu
    have hk : z ++ u = k := List.append_cancel_left hu
    cases z using List.reverseRecOn with
    | nil =>
      rw [List.append_nil] at hz
      rw [hz]
    | append_singleton z e _ =>
      rw [← List.append_assoc] at hz
      have he : e = d := by simpa using (List.append_inj' hz rfl).2
      refine absurd ?_ hd
      rw [← hk, he]
      simp

/-! The first occurrence. -/

theorem splitFirst_eq_none : splitFirst words t = none ↔ ∀ w ∈ words, ¬ w <:+: t := by
  induction t with
  | nil =>
    simp only [splitFirst, List.infix_nil]
    grind
  | cons c t ih =>
    simp only [splitFirst, List.infix_cons_iff, not_or]
    by_cases hany : words.any (·.isPrefixOf (c :: t))
    · rw [if_pos hany]
      obtain ⟨w, hw, hpre⟩ := List.any_eq_true.1 hany
      simp only [reduceCtorEq, false_iff]
      exact fun h => (h w hw).1 (List.isPrefixOf_iff_prefix.1 hpre)
    · rw [if_neg hany, Option.map_eq_none_iff, ih]
      have hnone : ∀ w ∈ words, ¬ w <+: c :: t := by simpa using hany
      exact ⟨fun h w hw => ⟨hnone w hw, h w hw⟩, fun h w hw => (h w hw).2⟩

/-- A word stands at the split and none before it. -/
theorem splitFirst_eq_some (h : splitFirst words t = some (a, b)) :
    t = a ++ b ∧ (∃ w ∈ words, w <+: b) ∧
      ∀ a₁ a₂, a = a₁ ++ a₂ → a₂ ≠ [] → ∀ w ∈ words, ¬ w <+: a₂ ++ b := by
  induction t generalizing a with
  | nil =>
    simp only [splitFirst] at h
    split at h
    · rename_i hany
      cases h
      obtain ⟨w, hw, hpre⟩ := List.any_eq_true.1 hany
      refine ⟨rfl, ⟨w, hw, List.isPrefixOf_iff_prefix.1 hpre⟩, fun a₁ a₂ hnil hne => ?_⟩
      exact absurd (List.append_eq_nil_iff.1 hnil.symm).2 hne
    · cases h
  | cons c t ih =>
    simp only [splitFirst] at h
    split at h
    · rename_i hany
      cases h
      obtain ⟨w, hw, hpre⟩ := List.any_eq_true.1 hany
      refine ⟨rfl, ⟨w, hw, List.isPrefixOf_iff_prefix.1 hpre⟩, fun a₁ a₂ hnil hne => ?_⟩
      exact absurd (List.append_eq_nil_iff.1 hnil.symm).2 hne
    · rename_i hany
      obtain ⟨⟨front, back⟩, hm, hpair⟩ := Option.map_eq_some_iff.1 h
      obtain ⟨rfl, rfl⟩ := Prod.mk.inj hpair
      obtain ⟨rfl, hword, hbefore⟩ := ih hm
      refine ⟨rfl, hword, fun a₁ a₂ ha hne w hw => ?_⟩
      cases a₁ with
      | nil =>
        obtain rfl : c :: front = a₂ := ha
        have hnone : ∀ w ∈ words, ¬ w <+: c :: (front ++ back) := by simpa using hany
        exact hnone w hw
      | cons d a₁ => exact hbefore a₁ a₂ (List.cons.inj ha).2 hne w hw

theorem not_infix_of_splitFirst (h : splitFirst words t = some (a, b)) (hw : w ∈ words)
    (hne : w ≠ []) : ¬ w <:+: a := by
  rintro ⟨u, v, huv⟩
  obtain ⟨-, -, hbefore⟩ := splitFirst_eq_some h
  refine hbefore u (w ++ v) (by rw [← huv, List.append_assoc]) (by simp [hne]) w hw ?_
  rw [List.append_assoc]
  exact List.prefix_append w _

/-- Behind a text without the words, and a character that is in none of them. -/
theorem splitFirst_append {c : Char} (hc : ∀ w ∈ words, c ∉ w ∧ w ≠ [])
    (ha : ∀ w ∈ words, ¬ w <:+: a) (r : List Char) :
    splitFirst words (a ++ c :: r) = (splitFirst words r).map fun m => (a ++ c :: m.1, m.2) := by
  induction a with
  | nil =>
    have hnone : ¬ words.any (·.isPrefixOf (c :: r)) := by
      simp only [List.any_eq_true, not_exists, not_and]
      intro w hw hpre
      cases w with
      | nil => exact absurd rfl (hc _ hw).2
      | cons d w =>
        have hd := (List.cons_prefix_cons.1 (List.isPrefixOf_iff_prefix.1 hpre)).1
        exact absurd (hd ▸ List.mem_cons_self) (hc _ hw).1
    simp only [List.nil_append, splitFirst, if_neg hnone]
  | cons d a ih =>
    have hnone : ¬ words.any (·.isPrefixOf (d :: (a ++ c :: r))) := by
      simp only [List.any_eq_true, not_exists, not_and]
      intro w hw hpre
      have hin : w <+: d :: a ++ c :: r := List.isPrefixOf_iff_prefix.1 hpre
      rcases List.prefix_or_prefix_of_prefix hin (List.prefix_append (d :: a) (c :: r)) with h | h
      · exact ha w hw h.isInfix
      · obtain ⟨z, rfl⟩ := h
        cases z with
        | nil => exact ha _ hw (by simp)
        | cons e z =>
          have he : e = c :=
            (List.cons_prefix_cons.1 ((List.prefix_append_right_inj (d :: a)).1 hin)).1
          exact absurd (he ▸ List.mem_append_right _ List.mem_cons_self) (hc _ hw).1
    have hrest : ∀ w ∈ words, ¬ w <:+: a := fun w hw h =>
      ha w hw (List.infix_cons_iff.2 (.inr h))
    simp only [List.cons_append, splitFirst, if_neg hnone, ih hrest, Option.map_map]
    rfl

/-- A tail without the last character of the word leaves the first occurrence as it is. -/
theorem splitFirst_tail {d : Char} {k : List Char} (hd : d ∉ k) (t : List Char) :
    splitFirst [x ++ [d]] (t ++ k) =
      (splitFirst [x ++ [d]] t).map fun m => (m.1, m.2 ++ k) := by
  induction t with
  | nil =>
    have hnone : splitFirst [x ++ [d]] k = none := by
      rw [splitFirst_eq_none]
      intro w hw h
      rw [List.mem_singleton.1 hw] at h
      have := infix_of_tail (a := []) hd h
      simp at this
    simpa [splitFirst] using hnone
  | cons c t ih =>
    have hpre := prefix_of_tail (x := x) (a := c :: t) hd
    rw [List.cons_append] at hpre
    simp only [List.cons_append, splitFirst, List.any_cons, List.any_nil, Bool.or_false,
      List.isPrefixOf_iff_prefix, hpre]
    split
    · rfl
    · rw [ih]
      simp only [Option.map_map]
      rfl

/-! The replacement. -/

theorem replaceFirst_of_absent (h : ¬ x <:+: t) : replaceFirst x y t = t := by
  have hnone : splitFirst [x] t = none := splitFirst_eq_none.2 (by simpa using h)
  rw [replaceFirst, hnone]

/-- What a replacement does where there is something to replace. -/
theorem replaceFirst_of_infix (hne : x ≠ []) (h : x <:+: t) :
    ∃ a v, t = a ++ x ++ v ∧ replaceFirst x y t = a ++ y ++ v ∧ ¬ x <:+: a ∧
      ∀ a' v', t = a' ++ x ++ v' → a.length ≤ a'.length := by
  cases hsplit : splitFirst [x] t with
  | none => exact absurd h (splitFirst_eq_none.1 hsplit x (List.mem_singleton.2 rfl))
  | some m =>
    obtain ⟨a, b⟩ := m
    obtain ⟨rfl, ⟨w, hw, hpre⟩, hbefore⟩ := splitFirst_eq_some hsplit
    obtain rfl := List.mem_singleton.1 hw
    obtain ⟨v, rfl⟩ := hpre
    refine ⟨a, v, by rw [List.append_assoc], by simp [replaceFirst, hsplit],
      not_infix_of_splitFirst hsplit hw hne, fun a' v' ht => ?_⟩
    by_contra hlong
    rw [List.append_assoc] at ht
    obtain ⟨a₂, rfl, hrest⟩ | ⟨a₂, ha, hrest⟩ := List.append_eq_append_iff.1 ht
    · simp at hlong
    · subst ha
      have hne₂ : a₂ ≠ [] := by
        rintro rfl
        simp at hlong
      refine hbefore a' a₂ rfl hne₂ w hw ?_
      rw [← hrest]
      exact List.prefix_append w v'

theorem replaceFirst_tail {d : Char} {k : List Char} (hd : d ∉ k) (y t : List Char) :
    replaceFirst (x ++ [d]) y (t ++ k) = replaceFirst (x ++ [d]) y t ++ k := by
  unfold replaceFirst
  rw [splitFirst_tail hd]
  cases hsplit : splitFirst [x ++ [d]] t with
  | none => rfl
  | some m =>
    obtain ⟨a, b⟩ := m
    obtain ⟨-, ⟨w, hw, hpre⟩, -⟩ := splitFirst_eq_some hsplit
    obtain rfl := List.mem_singleton.1 hw
    have hdrop : (b ++ k).drop (x ++ [d]).length = b.drop (x ++ [d]).length ++ k :=
      List.drop_append_of_le_length hpre.length_le
    simp only [Option.map_some, hdrop, List.append_assoc]

/-! Trailing white space. -/

theorem rstrip_append_blank {ws : List Char} (h : ∀ c ∈ ws, isSpace c = true) (t : List Char) :
    rstrip (t ++ ws) = rstrip t := by
  induction ws using List.reverseRecOn with
  | nil => rw [List.append_nil]
  | append_singleton ws c ih =>
    have hc : isSpace c = true := h c (by simp)
    rw [← List.append_assoc, rstrip, List.rdropWhile_concat_pos _ _ _ hc]
    exact ih fun d hd => h d (List.mem_append_left _ hd)

theorem eq_rstrip_append (t : List Char) : t = rstrip t ++ t.rtakeWhile isSpace :=
  (List.rdropWhile_append_rtakeWhile (p := isSpace) (l := t)).symm

theorem blank_rtakeWhile {t : List Char} : ∀ c ∈ t.rtakeWhile isSpace, isSpace c = true :=
  fun _ h => List.mem_rtakeWhile_imp h

@[simp] theorem rstrip_rstrip (t : List Char) : rstrip (rstrip t) = rstrip t :=
  List.rdropWhile_idempotent isSpace t

theorem prefix_of_rstrip (t : List Char) : rstrip t <+: t := List.rdropWhile_prefix isSpace t

end ProjectOS.Base.Text
