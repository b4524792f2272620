import ProjectOS.Base.Dict
import ProjectOS.Base.Downstream

/-! The same set as by rounds, found by a worklist: each key is taken from the
stack once, and what depends on it is pushed as it is found. -/
namespace ProjectOS.Base.Worklist
open Downstream

variable {α κ : Type} [DecidableEq κ]

/-- The keys of the items that depend on a key. -/
def dependents (key : α → κ) (deps : α → List κ) (items : List α) (current : κ) : List κ :=
  dedupe ((items.filter fun x => current ∈ deps x).map key)

def spread (key : α → κ) (deps : α → List κ) (items : List α) : Nat → List κ → List κ → List κ
  | 0, found, _ => found
  | _ + 1, found, [] => found
  | fuel + 1, found, current :: rest =>
      let fresh := (dependents key deps items current).filter (· ∉ found)
      spread key deps items fuel (found ++ fresh) (fresh ++ rest)

variable {key : α → κ} {deps : α → List κ} {items : List α} {seeds found pending : List κ}

theorem mem_dependents {current k : κ} :
    k ∈ dependents key deps items current ↔ ∃ x ∈ items, key x = k ∧ current ∈ deps x := by
  simp only [dependents, mem_dedupe, List.mem_map, List.mem_filter, decide_eq_true_eq]
  constructor
  · rintro ⟨x, ⟨hx, hdep⟩, rfl⟩
    exact ⟨x, hx, rfl, hdep⟩
  · rintro ⟨x, hx, rfl, hdep⟩
    exact ⟨x, ⟨hx, hdep⟩, rfl⟩

/-- What is found is downstream, and what depends on a found key is found, unless
the key is still pending. -/
structure Frontier (key : α → κ) (deps : α → List κ) (items : List α) (seeds found pending : List κ) :
    Prop where
  below : ∀ k ∈ found, Below key deps items seeds k
  seeded : ∀ k ∈ seeds, k ∈ found
  stacked : ∀ k ∈ pending, k ∈ found
  closed : ∀ x ∈ items, ∀ d ∈ deps x, d ∈ found → d ∉ pending → key x ∈ found

omit [DecidableEq κ] in
theorem Frontier.start : Frontier key deps items seeds seeds seeds where
  below _ hk := .seed hk
  seeded _ hk := hk
  stacked _ hk := hk
  closed _ _ _ _ hfound hpending := absurd hfound hpending

theorem Frontier.step {current : κ} {rest : List κ}
    (h : Frontier key deps items seeds found (current :: rest)) :
    let fresh := (dependents key deps items current).filter (· ∉ found)
    Frontier key deps items seeds (found ++ fresh) (fresh ++ rest) := by
  intro fresh
  have hfresh : ∀ {k}, k ∈ fresh ↔ (∃ x ∈ items, key x = k ∧ current ∈ deps x) ∧ k ∉ found := by
    intro k
    rw [List.mem_filter, mem_dependents, decide_eq_true_iff]
  constructor
  · intro k hk
    rcases List.mem_append.mp hk with hk | hk
    · exact h.below k hk
    · obtain ⟨⟨x, hx, rfl, hdep⟩, -⟩ := hfresh.mp hk
      exact .dependent hx hdep (h.below current (h.stacked current List.mem_cons_self))
  · exact fun k hk => List.mem_append_left _ (h.seeded k hk)
  · intro k hk
    rcases List.mem_append.mp hk with hk | hk
    · exact List.mem_append_right _ hk
    · exact List.mem_append_left _ (h.stacked k (List.mem_cons_of_mem _ hk))
  · intro x hx d hd hfound hpending
    rw [List.mem_append, not_or] at hpending
    have hold : d ∈ found := (List.mem_append.mp hfound).resolve_right hpending.1
    by_cases hcurrent : d = current
    · subst hcurrent
      by_cases hknown : key x ∈ found
      · exact List.mem_append_left _ hknown
      · exact List.mem_append_right _ (hfresh.mpr ⟨⟨x, hx, rfl, hd⟩, hknown⟩)
    · apply List.mem_append_left
      apply h.closed x hx d hd hold
      rw [List.mem_cons, not_or]
      exact ⟨hcurrent, hpending.2⟩

/-- The items whose key is not found yet. -/
def missing (key : α → κ) (items : List α) (found : List κ) : List α := items.filter (key · ∉ found)

/-- Each key that is found takes an item from those that are missing. -/
theorem length_missing {fresh : List κ} (hnodup : fresh.Nodup)
    (hfresh : ∀ k ∈ fresh, ∃ x ∈ items, key x = k ∧ k ∉ found) :
    fresh.length + (missing key items (found ++ fresh)).length ≤ (missing key items found).length := by
  have hcover : fresh ⊆ ((missing key items found).filter (key · ∈ fresh)).map key := by
    intro k hk
    obtain ⟨x, hx, rfl, hnew⟩ := hfresh k hk
    refine List.mem_map_of_mem (List.mem_filter.mpr ⟨List.mem_filter.mpr ⟨hx, ?_⟩, ?_⟩)
    · exact decide_eq_true hnew
    · exact decide_eq_true hk
  have htaken : fresh.length ≤ ((missing key items found).filter (key · ∈ fresh)).length := by
    have := (hnodup.subperm hcover).length_le
    rwa [List.length_map] at this
  have hleft : missing key items (found ++ fresh) =
      (missing key items found).filter (key · ∉ fresh) := by
    rw [missing, missing, List.filter_filter]
    apply List.filter_congr
    intro x _
    simp [Bool.and_comm]
  have hsplit := List.length_eq_length_filter_add (l := missing key items found) (key · ∈ fresh)
  rw [hleft]
  simp only [decide_not]
  omega

theorem spread_frontier {fuel : Nat} (h : Frontier key deps items seeds found pending)
    (hfuel : pending.length + (missing key items found).length ≤ fuel) :
    Frontier key deps items seeds (spread key deps items fuel found pending) [] := by
  induction fuel generalizing found pending with
  | zero =>
    have hpending : pending = [] := List.eq_nil_of_length_eq_zero (by omega)
    rw [hpending] at h
    exact h
  | succ fuel ih =>
    cases pending with
    | nil => exact h
    | cons current rest =>
      apply ih h.step
      have hnodup : ((dependents key deps items current).filter (· ∉ found)).Nodup :=
        (nodup_dedupe _).filter _
      have hmissing := @length_missing _ _ _ key items found _ hnodup (by
        intro k hk
        rw [List.mem_filter, mem_dependents, decide_eq_true_iff] at hk
        obtain ⟨⟨x, hx, hkey, -⟩, hnew⟩ := hk
        exact ⟨x, hx, hkey, hnew⟩)
      rw [List.length_append]
      rw [List.length_cons] at hfuel
      omega

/-- The worklist finds the set downstream of its seeds. -/
theorem mem_spread_iff {fuel : Nat} (hfuel : seeds.length + items.length ≤ fuel) {k : κ} :
    k ∈ spread key deps items fuel seeds seeds ↔ Below key deps items seeds k := by
  have hmissing : (missing key items seeds).length ≤ items.length := List.length_filter_le _ _
  have hdone := spread_frontier
    (show Frontier key deps items seeds seeds seeds from Frontier.start)
    (show seeds.length + (missing key items seeds).length ≤ fuel by omega)
  constructor
  · exact hdone.below k
  · intro h
    induction h with
    | seed hk => exact hdone.seeded _ hk
    | dependent hx hd _ ih => exact hdone.closed _ hx _ hd ih List.not_mem_nil

end ProjectOS.Base.Worklist
