import ProjectOS.Base.Text

/-! Reading a text in characters: upper case, words between white space, and the
first place where a character stands. -/
namespace ProjectOS.Base.Text

/-- The code points besides ASCII whose upper case has an ASCII letter. -/
def upperImages : List (Nat × List Char) := [
  (0xDF, ['S', 'S']), (0x131, ['I']), (0x149, [Char.ofNat 0x2BC, 'N']), (0x17F, ['S']),
  (0x1F0, ['J', Char.ofNat 0x30C]), (0x1E96, ['H', Char.ofNat 0x331]),
  (0x1E97, ['T', Char.ofNat 0x308]), (0x1E98, ['W', Char.ofNat 0x30A]),
  (0x1E99, ['Y', Char.ofNat 0x30A]), (0x1E9A, ['A', Char.ofNat 0x2BE]),
  (0xFB00, ['F', 'F']), (0xFB01, ['F', 'I']), (0xFB02, ['F', 'L']),
  (0xFB03, ['F', 'F', 'I']), (0xFB04, ['F', 'F', 'L']), (0xFB05, ['S', 'T']), (0xFB06, ['S', 'T'])]

/-- Upper case of one code point; what has no ASCII letter stays as it is. -/
def upperChar (c : Char) : List Char := (upperImages.lookup c.toNat).getD [c.toUpper]

def upper (cs : List Char) : List Char := cs.flatMap upperChar

/-- `s.strip()` in characters. -/
def stripped (cs : List Char) : List Char := (cs.dropWhile isSpace).rdropWhile isSpace

/-- `s.split()`. -/
def words (cs : List Char) : List (List Char) := (cs.splitOnP isSpace).filter (· ≠ [])

/-- What stands before the first `stop`, and what follows it. -/
def cutAt (stop : Char) (cs : List Char) : Option (List Char × List Char) :=
  match cs.dropWhile (· ≠ stop) with
  | [] => none
  | _ :: rest => some (cs.takeWhile (· ≠ stop), rest)

/-- The text starts with the keyword in any case; ASCII letters only. -/
def startsWithKeyword (keyword cs : List Char) : Bool :=
  (keyword.map Char.toLower).isPrefixOf (cs.map Char.toLower)

/-- White space. -/
structure Gap where
  chars : List Char
  blank : ∀ c ∈ chars, isSpace c = true := by decide

structure Space extends Gap where
  nonempty : chars ≠ [] := by decide

theorem Gap.not_mem {gap : Gap} {c : Char} (hc : isSpace c = false) : c ∉ gap.chars := by
  intro h
  rw [gap.blank c h] at hc
  cases hc

theorem Gap.no_comma (gap : Gap) : ',' ∉ gap.chars := Gap.not_mem (by decide)

theorem space_head (space : Space) (rest : List Char) :
    ∀ c ∈ (space.chars ++ rest).head?, isSpace c = true := by
  intro c hc
  rw [List.head?_append_of_ne_nil _ space.nonempty] at hc
  exact space.blank c (List.mem_of_mem_head? hc)

theorem upper_append (xs ys : List Char) : upper (xs ++ ys) = upper xs ++ upper ys :=
  List.flatMap_append

theorem upper_cons (c : Char) (cs : List Char) : upper (c :: cs) = upperChar c ++ upper cs :=
  List.flatMap_cons

/-- Only lower-case letters change. -/
theorem toUpper_eq {c d : Char} (h : c.toUpper = d) (hd : d.isAlpha = false) : c = d := by
  rw [← h] at hd ⊢
  unfold Char.toUpper at hd ⊢
  split
  · rename_i hlower
    rw [dif_pos hlower] at hd
    delta Char.isAlpha Char.isUpper Char.isLower at hd
    simp [UInt32.le_iff_toNat_le] at hd hlower
    omega
  · rfl

theorem not_mem_upperChar {c d : Char} (hd : d.isAlpha = false) (hascii : d.toNat < 128)
    (h : c ≠ d) : d ∉ upperChar c := by
  have himages : ∀ entry ∈ upperImages, ∀ x ∈ entry.2, x.isAlpha = true ∨ 128 ≤ x.toNat := by decide
  intro hmem
  unfold upperChar at hmem
  cases himage : upperImages.lookup c.toNat with
  | none =>
    rw [himage, Option.getD_none, List.mem_singleton] at hmem
    exact h (toUpper_eq hmem.symm hd)
  | some image =>
    rw [himage, Option.getD_some] at hmem
    obtain ⟨before, after, htable, -⟩ := List.lookup_eq_some_iff.mp himage
    have hentry : (c.toNat, image) ∈ upperImages := by simp [htable]
    rcases himages _ hentry d hmem with halpha | hlarge
    · rw [hd] at halpha
      cases halpha
    · omega

theorem not_mem_upper {cs : List Char} {d : Char} (hd : d.isAlpha = false) (hascii : d.toNat < 128)
    (h : d ∉ cs) : d ∉ upper cs := by
  intro hmem
  obtain ⟨c, hc, hd'⟩ := List.mem_flatMap.mp hmem
  refine not_mem_upperChar hd hascii ?_ hd'
  rintro rfl
  exact h hc

/-- White space around a text that neither starts nor ends with it is cut off. -/
theorem stripped_wrap {before cs after : List Char} (hbefore : ∀ c ∈ before, isSpace c = true)
    (hafter : ∀ c ∈ after, isSpace c = true) (hhead : ∀ c ∈ cs.head?, isSpace c = false)
    (hlast : ∀ c ∈ cs.getLast?, isSpace c = false) (hne : cs ≠ []) :
    stripped (before ++ (cs ++ after)) = cs := by
  have hfront : (before ++ (cs ++ after)).dropWhile isSpace = cs ++ after := by
    rw [List.dropWhile_append_of_pos hbefore]
    cases cs with
    | nil => exact absurd rfl hne
    | cons c cs =>
      have hc : isSpace c = false := hhead c rfl
      rw [List.cons_append, List.dropWhile_cons, hc, if_neg Bool.false_ne_true]
  have hback : (cs ++ after).reverse.dropWhile isSpace = cs.reverse := by
    rw [List.reverse_append, List.dropWhile_append_of_pos fun c hc => hafter c (List.mem_reverse.mp hc)]
    cases hreverse : cs.reverse with
    | nil => rfl
    | cons c rest =>
      have hc : isSpace c = false := by
        apply hlast
        rw [List.getLast?_eq_head?_reverse, hreverse]
        rfl
      rw [List.dropWhile_cons, hc, if_neg Bool.false_ne_true]
  rw [stripped, hfront, List.rdropWhile, hback, List.reverse_reverse]

theorem words_of_forall {cs : List Char} (hne : cs ≠ []) (h : ∀ c ∈ cs, isSpace c = false) :
    words cs = [cs] := by
  rw [words, List.splitOnP_eq_singleton h]
  simp [hne]

theorem words_append {cs : List Char} (hne : cs ≠ []) (h : ∀ c ∈ cs, isSpace c = false) {c : Char}
    (hc : isSpace c = true) (rest : List Char) : words (cs ++ c :: rest) = cs :: words rest := by
  rw [words, List.splitOnP_append_cons_of_forall_mem h c hc]
  simp [hne, words]

theorem cutAt_append {stop : Char} {before : List Char} (h : stop ∉ before) (rest : List Char) :
    cutAt stop (before ++ stop :: rest) = some (before, rest) := by
  have hne : ∀ c ∈ before, decide (c ≠ stop) = true := by
    intro c hc
    rw [decide_eq_true_eq]
    rintro rfl
    exact h hc
  rw [cutAt, List.dropWhile_append_of_pos hne, List.takeWhile_append_of_pos hne]
  simp

section separator
variable {sep : Char} {a b xs ys : List Char}

/-- Across a separator that stands once in a text, an infix is a suffix of what
precedes it and a prefix of what follows. -/
theorem infix_separated (hxs : sep ∉ xs) (hys : sep ∉ ys) :
    a ++ sep :: b <:+: xs ++ sep :: ys ↔ a <:+ xs ∧ b <+: ys := by
  constructor
  · intro ⟨before, after, htext⟩
    rw [List.append_assoc, List.append_assoc, List.cons_append, ← List.append_assoc] at htext
    obtain ⟨hleft, -, hright⟩ := (List.append_cons_inj_of_notMem hxs hys).mp htext.symm
    exact ⟨⟨before, hleft.symm⟩, after, hright.symm⟩
  · intro ⟨⟨before, hbefore⟩, after, hafter⟩
    refine ⟨before, after, ?_⟩
    rw [← hbefore, ← hafter]
    simp

theorem prefix_separated (ha : sep ∉ a) (hxs : sep ∉ xs) :
    a ++ sep :: b <+: xs ++ sep :: ys ↔ a = xs ∧ b <+: ys := by
  constructor
  · intro ⟨after, htext⟩
    have hcut := cutAt_append ha (b ++ after)
    rw [← List.cons_append, ← List.append_assoc, htext, cutAt_append hxs, Option.some.injEq,
      Prod.mk.injEq] at hcut
    exact ⟨hcut.1.symm, after, hcut.2.symm⟩
  · intro ⟨hsame, after, hafter⟩
    refine ⟨after, ?_⟩
    rw [hsame, ← hafter]
    simp

end separator

example : upper "is_not null".toList = "IS_NOT NULL".toList := by decide

end ProjectOS.Base.Text
