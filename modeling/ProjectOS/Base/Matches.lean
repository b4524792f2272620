import ProjectOS.Base.Pattern

/-! What the matches of a pattern say about the text: each yields a part of it and
leaves the rest. -/
namespace ProjectOS.Base.Pattern

variable {α β : Type} {text rest : List Char}

/-- `(?:p)?`, tried with the pattern first. -/
def optional (p : Pattern α) : Pattern (Option α) :=
  either (do return some (← p)) (pure none)

/-- `(?:p)*`; a round that matches nothing would not end, so the fuel counts rounds. -/
def many (p : Pattern α) : Nat → Pattern (List α)
  | 0 => pure []
  | fuel + 1 => either (do
      let a ← p
      let others ← many p fuel
      return a :: others) (pure [])

/-- `re.match` with an anchored end. -/
def matches? (p : Pattern α) (text : List Char) : Bool := (first p text).isSome

/-- `re.fullmatch`. -/
def fullMatch (p : Pattern α) (text : List Char) : Bool := (p text).any fun m => m.2.isEmpty

theorem mem_of_first {p : Pattern α} {m : α × List Char} (h : first p text = some m) : m ∈ p text :=
  List.mem_of_head? h

@[simp] theorem mem_pure {a b : α} : (b, rest) ∈ (pure a : Pattern α) text ↔ b = a ∧ rest = text := by
  rw [pure_apply, List.mem_singleton, Prod.mk.injEq]

theorem mem_bind {p : Pattern α} {f : α → Pattern β} {m : β × List Char} :
    m ∈ (p >>= f) text ↔ ∃ a middle, (a, middle) ∈ p text ∧ m ∈ f a middle := by
  rw [bind_apply, List.mem_flatMap]
  simp

theorem mem_either {p q : Pattern α} {m : α × List Char} :
    m ∈ either p q text ↔ m ∈ p text ∨ m ∈ q text := List.mem_append

theorem mem_optional {p : Pattern α} {a : Option α} : (a, rest) ∈ optional p text ↔
    (∃ b, a = some b ∧ (b, rest) ∈ p text) ∨ a = none ∧ rest = text := by
  unfold optional
  rw [mem_either, mem_bind, mem_pure]
  constructor
  · rintro (⟨b, middle, hb, hpure⟩ | hnone)
    · rw [mem_pure] at hpure
      obtain ⟨rfl, rfl⟩ := hpure
      exact .inl ⟨b, rfl, hb⟩
    · exact .inr hnone
  · rintro (⟨b, rfl, hb⟩ | hnone)
    · exact .inl ⟨b, rest, hb, mem_pure.mpr ⟨rfl, rfl⟩⟩
    · exact .inr hnone

theorem mem_char {accepts : Char → Bool} {c : Char} :
    (c, rest) ∈ char accepts text ↔ text = c :: rest ∧ accepts c = true := by
  cases text with
  | nil => simp [char]
  | cons d text =>
    by_cases hd : accepts d = true
    · rw [char, if_pos hd, List.mem_singleton, Prod.mk.injEq, List.cons.injEq]
      constructor
      · rintro ⟨rfl, rfl⟩
        exact ⟨⟨rfl, rfl⟩, hd⟩
      · rintro ⟨⟨rfl, rfl⟩, -⟩
        exact ⟨rfl, rfl⟩
    · rw [char, if_neg hd]
      constructor
      · intro h
        cases h
      · rintro ⟨heq, hc⟩
        cases heq
        exact absurd hc hd

theorem eq_of_mem_literal {word : List Char} {u : Unit} (h : (u, rest) ∈ literal id word text) :
    text = word ++ rest := by
  unfold literal at h
  split at h
  · rename_i hstart
    rw [List.mem_singleton, Prod.mk.injEq] at h
    rw [List.map_id, List.map_id, List.isPrefixOf_iff_prefix] at hstart
    obtain ⟨tail, rfl⟩ := hstart
    rw [h.2, List.drop_left]
  · cases h

theorem of_mem_greedy {accepts : Char → Bool} {run : List Char}
    (h : (run, rest) ∈ greedy accepts text) : text = run ++ rest ∧ ∀ c ∈ run, accepts c = true := by
  induction text generalizing run with
  | nil =>
    rw [greedy, List.mem_singleton, Prod.mk.injEq] at h
    obtain ⟨rfl, rfl⟩ := h
    exact ⟨rfl, fun _ hc => absurd hc List.not_mem_nil⟩
  | cons c text ih =>
    have hnone : ∀ {run}, (run, rest) ∈ [(([] : List Char), c :: text)] →
        c :: text = run ++ rest ∧ ∀ d ∈ run, accepts d = true := by
      intro run hrun
      rw [List.mem_singleton, Prod.mk.injEq] at hrun
      obtain ⟨rfl, rfl⟩ := hrun
      exact ⟨rfl, fun _ hd => absurd hd List.not_mem_nil⟩
    unfold greedy at h
    split at h
    · rename_i hc
      rcases List.mem_append.mp h with hlonger | hshort
      · obtain ⟨⟨tail, rest'⟩, htail, heq⟩ := List.mem_map.mp hlonger
        cases heq
        obtain ⟨rfl, hall⟩ := ih htail
        refine ⟨rfl, fun d hd => ?_⟩
        rcases List.mem_cons.mp hd with rfl | hd
        · exact hc
        · exact hall d hd
      · exact hnone hshort
    · exact hnone h

theorem of_mem_greedy1 {accepts : Char → Bool} {run : List Char}
    (h : (run, rest) ∈ greedy1 accepts text) :
    text = run ++ rest ∧ run ≠ [] ∧ ∀ c ∈ run, accepts c = true := by
  unfold greedy1 at h
  obtain ⟨c, middle, hc, htail⟩ := mem_bind.mp h
  obtain ⟨tail, rest', hgreedy, hpure⟩ := mem_bind.mp htail
  obtain ⟨rfl, rfl⟩ := mem_pure.mp hpure
  obtain ⟨rfl, haccepts⟩ := mem_char.mp hc
  obtain ⟨rfl, hall⟩ := of_mem_greedy hgreedy
  refine ⟨rfl, List.cons_ne_nil _ _, fun d hd => ?_⟩
  rcases List.mem_cons.mp hd with rfl | hd
  · exact haccepts
  · exact hall d hd

theorem mem_atEnd {u : Unit} :
    (u, rest) ∈ atEnd text ↔ rest = text ∧ (text = [] ∨ text = ['\n']) := by
  unfold atEnd
  split
  · rename_i h
    simp [h]
  · rename_i h
    simp [h]

/-- The rounds of a repetition, each a match where the one before it ends. -/
inductive Rounds (p : Pattern α) : List Char → List α → List Char → Prop where
  | nil {text : List Char} : Rounds p text [] text
  | cons {text middle rest : List Char} {a : α} {others : List α} (round : (a, middle) ∈ p text)
      (later : Rounds p middle others rest) : Rounds p text (a :: others) rest

theorem rounds_of_mem_many {p : Pattern α} {fuel : Nat} {as : List α}
    (h : (as, rest) ∈ many p fuel text) : Rounds p text as rest := by
  induction fuel generalizing text as with
  | zero =>
    obtain ⟨rfl, rfl⟩ := mem_pure.mp h
    exact .nil
  | succ fuel ih =>
    unfold many at h
    rcases mem_either.mp h with hmore | hnone
    · obtain ⟨a, middle, hround, hlater⟩ := mem_bind.mp hmore
      obtain ⟨others, middle', hothers, hpure⟩ := mem_bind.mp hlater
      obtain ⟨rfl, rfl⟩ := mem_pure.mp hpure
      exact .cons hround (ih hothers)
    · obtain ⟨rfl, rfl⟩ := mem_pure.mp hnone
      exact .nil

/-- A whole text of one class of characters; the newline at its end is let through. -/
theorem forall_of_matches_greedy1 {accepts : Char → Bool}
    (h : matches? (do let run ← greedy1 accepts; atEnd; return run) text = true) :
    ∀ c ∈ text, accepts c = true ∨ c = '\n' := by
  obtain ⟨⟨run, rest⟩, hfirst⟩ := Option.isSome_iff_exists.mp h
  obtain ⟨run', middle, hrun, hlater⟩ := mem_bind.mp (mem_of_first hfirst)
  obtain ⟨u, middle', hend, -⟩ := mem_bind.mp hlater
  obtain ⟨rfl, -, hall⟩ := of_mem_greedy1 hrun
  obtain ⟨-, hrest⟩ := mem_atEnd.mp hend
  intro c hc
  rcases List.mem_append.mp hc with hin | hin
  · exact .inl (hall c hin)
  · rcases hrest with rfl | rfl
    · cases hin
    · exact .inr (List.mem_singleton.mp hin)

end ProjectOS.Base.Pattern
