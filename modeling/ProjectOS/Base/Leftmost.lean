import Mathlib.Data.List.Find
import Mathlib.Data.List.Infix
import Mathlib.Data.List.Pairwise

/-! The search for the first of finitely many spellings in a text. -/
namespace ProjectOS.Base.Leftmost

variable {α β : Type} [DecidableEq α]

/-- The spellings of a pattern, each with what a match of it yields. -/
abbrev Spellings (α β : Type) := List (List α × β)

/-- The match at the start of a text. -/
def matchAt (spellings : Spellings α β) (text : List α) : Option β :=
  (spellings.find? fun spelling => spelling.1.isPrefixOf text).map Prod.snd

/-- `re.search`: the match at the earliest position. -/
def search (spellings : Spellings α β) : List α → Option β
  | [] => matchAt spellings []
  | x :: xs => (matchAt spellings (x :: xs)).or (search spellings xs)

/-- No spelling starts another. -/
def Exclusive (spellings : Spellings α β) : Prop :=
  ∀ s ∈ spellings, ∀ t ∈ spellings, s.1 <+: t.1 → s = t

/-- A spelling of `b` stands in the text, and none before it. -/
def First (spellings : Spellings α β) (text : List α) (b : β) : Prop :=
  ∃ before spelling after, text = before ++ spelling ++ after ∧ (spelling, b) ∈ spellings ∧
    ∀ early late, text = early ++ late → early.length < before.length →
      ∀ s ∈ spellings, ¬ s.1 <+: late

variable {spellings : Spellings α β} {text : List α} {b : β}

theorem matchAt_eq_none : matchAt spellings text = none ↔ ∀ s ∈ spellings, ¬ s.1 <+: text := by
  simp [matchAt]

theorem matchAt_eq_some (h : Exclusive spellings) :
    matchAt spellings text = some b ↔ ∃ spelling after, text = spelling ++ after ∧
      (spelling, b) ∈ spellings := by
  unfold matchAt
  rw [Option.map_eq_some_iff]
  constructor
  · intro ⟨s, hfind, hb⟩
    have hstarts := List.find?_some hfind
    obtain ⟨after, htext⟩ := List.isPrefixOf_iff_prefix.mp hstarts
    exact ⟨s.1, after, htext.symm, hb ▸ List.mem_of_find?_eq_some hfind⟩
  · intro ⟨spelling, after, htext, hmem⟩
    have hstarts : spelling <+: text := ⟨after, htext.symm⟩
    cases hfind : spellings.find? fun s => s.1.isPrefixOf text with
    | none => exact absurd hstarts (by simpa using List.find?_eq_none.mp hfind _ hmem)
    | some s =>
      have hfound := List.find?_some hfind
      have hs := List.isPrefixOf_iff_prefix.mp hfound
      have hmems := List.mem_of_find?_eq_some hfind
      -- two spellings that start one text start one another
      obtain hshort | hlong := List.prefix_or_prefix_of_prefix hs hstarts
      · exact ⟨s, rfl, congrArg Prod.snd (h s hmems _ hmem hshort)⟩
      · exact ⟨s, rfl, (congrArg Prod.snd (h _ hmem s hmems hlong)).symm⟩

theorem search_eq_none :
    search spellings text = none ↔
      ∀ early late, text = early ++ late → ∀ s ∈ spellings, ¬ s.1 <+: late := by
  induction text with
  | nil =>
    rw [search, matchAt_eq_none]
    constructor
    · intro h early late htext
      obtain ⟨-, rfl⟩ := List.append_eq_nil_iff.mp htext.symm
      exact h
    · exact fun h => h [] [] rfl
  | cons x xs ih =>
    rw [search, Option.or_eq_none_iff, matchAt_eq_none, ih]
    constructor
    · intro ⟨hhere, hlater⟩ early late htext
      cases early with
      | nil =>
        obtain rfl : x :: xs = late := htext
        exact hhere
      | cons y early => exact hlater early late (List.cons.inj htext).2
    · intro h
      exact ⟨h [] _ rfl, fun early late htext => h (x :: early) late (congrArg _ htext)⟩

theorem search_eq_some (h : Exclusive spellings) :
    search spellings text = some b ↔ First spellings text b := by
  induction text with
  | nil =>
    rw [search, matchAt_eq_some h]
    constructor
    · intro ⟨spelling, after, htext, hmem⟩
      exact ⟨[], spelling, after, htext, hmem, fun early late _ hlt => absurd hlt (by simp)⟩
    · intro ⟨before, spelling, after, htext, hmem, _⟩
      obtain ⟨hstart, rfl⟩ := List.append_eq_nil_iff.mp htext.symm
      obtain ⟨-, rfl⟩ := List.append_eq_nil_iff.mp hstart
      exact ⟨[], [], rfl, hmem⟩
  | cons x xs ih =>
    rw [search, Option.or_eq_some_iff, matchAt_eq_some h, matchAt_eq_none, ih]
    constructor
    · rintro (⟨spelling, after, htext, hmem⟩ | ⟨hnone, before, spelling, after, htext, hmem, hfirst⟩)
      · exact ⟨[], spelling, after, htext, hmem, fun early late _ hlt => absurd hlt (by simp)⟩
      · refine ⟨x :: before, spelling, after, congrArg _ htext, hmem, ?_⟩
        intro early late hcut hlt
        cases early with
        | nil =>
          obtain rfl : x :: xs = late := hcut
          exact hnone
        | cons y early =>
          exact hfirst early late (List.cons.inj hcut).2 (Nat.lt_of_succ_lt_succ hlt)
    · intro ⟨before, spelling, after, htext, hmem, hfirst⟩
      cases before with
      | nil => exact .inl ⟨spelling, after, htext, hmem⟩
      | cons y before =>
        refine .inr ⟨hfirst [] _ rfl (by simp), before, spelling, after, (List.cons.inj htext).2,
          hmem, ?_⟩
        intro early late hcut hlt
        exact hfirst (x :: early) late (congrArg _ hcut) (Nat.succ_lt_succ hlt)

variable {sep : α}

theorem isPrefixOf_append {spelling : List α} (hsep : sep ∉ spelling) (xs ys : List α) :
    spelling.isPrefixOf (xs ++ sep :: ys) = spelling.isPrefixOf xs := by
  rw [Bool.eq_iff_iff, List.isPrefixOf_iff_prefix, List.isPrefixOf_iff_prefix]
  constructor
  · intro hstarts
    obtain hinside | ⟨rest, hrest⟩ := List.prefix_or_prefix_of_prefix hstarts
      (List.prefix_append xs (sep :: ys))
    · exact hinside
    · cases rest with
      | nil => rw [← hrest, List.append_nil]
      | cons y rest =>
        -- a longer match would hold the separator
        rw [← hrest, List.prefix_append_right_inj, List.cons_prefix_cons] at hstarts
        rw [← hrest, hstarts.1] at hsep
        exact absurd (List.mem_append_right xs List.mem_cons_self) hsep
  · exact fun hstarts => hstarts.trans (List.prefix_append xs _)

theorem matchAt_append (hsep : ∀ s ∈ spellings, sep ∉ s.1) (xs ys : List α) :
    matchAt spellings (xs ++ sep :: ys) = matchAt spellings xs := by
  unfold matchAt
  rw [List.find?_congr fun s hs => isPrefixOf_append (hsep s hs) xs ys]

/-- No match crosses a character that no spelling holds. -/
theorem search_append (hsep : ∀ s ∈ spellings, sep ∉ s.1) (hnil : matchAt spellings [] = none)
    (xs ys : List α) :
    search spellings (xs ++ sep :: ys) = (search spellings xs).or (search spellings ys) := by
  induction xs with
  | nil =>
    have hhere := matchAt_append hsep [] ys
    rw [List.nil_append] at hhere ⊢
    rw [search, search, hhere, hnil, Option.none_or]
  | cons x xs ih =>
    rw [List.cons_append, search, search, ih, ← List.cons_append, matchAt_append hsep,
      Option.or_assoc]

end ProjectOS.Base.Leftmost
