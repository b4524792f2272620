import Mathlib.Data.Finset.Card
import Mathlib.Logic.Relation
import ProjectOS.Base.Levels

/-! The levels of a dependency graph as its least schedule, and the graphs that
have one as those without a cycle. -/
namespace ProjectOS.Base.Levels

variable {α : Type} {nodes : Nodes α}

/-- Every node is at its own level at least, and above each of its dependencies. -/
def Schedules (nodes : Nodes α) (level : α → Nat) : Prop :=
  ∀ x own deps, nodes x = some (own, deps) → own ≤ level x ∧ ∀ d ∈ deps, level d < level x

theorem Schedules.chain_le {level : α → Nat} (h : Schedules nodes level) {x : α} {n : Nat}
    (hchain : Chain nodes x n) : n ≤ level x := by
  induction hchain with
  | own known => exact (h _ _ _ known).1
  | edge known dep _ ih => exact Nat.lt_of_le_of_lt ih ((h _ _ _ known).2 _ dep)

/-- No schedule has a node below its level. -/
theorem IsLevel.le_of_schedules {x : α} {value : Nat} (h : IsLevel nodes x value)
    {level : α → Nat} (hlevel : Schedules nodes level) : value ≤ level x := hlevel.chain_le h.1

def Edge (nodes : Nodes α) (x d : α) : Prop := ∃ own deps, nodes x = some (own, deps) ∧ d ∈ deps

theorem Ranked.rank_lt {ids : List α} {rank : α → Nat} (h : Ranked nodes ids rank) {x y : α}
    (hx : x ∈ ids) (hpath : Relation.TransGen (Edge nodes) x y) : y ∈ ids ∧ rank y < rank x := by
  have hstep {x d : α} (hx : x ∈ ids) (hedge : Edge nodes x d) : d ∈ ids ∧ rank d < rank x := by
    obtain ⟨own, deps, hknown, hdeps⟩ := h x hx
    obtain ⟨own', deps', hknown', hd⟩ := hedge
    rw [hknown] at hknown'
    cases hknown'
    exact hdeps d hd
  induction hpath with
  | single hedge => exact hstep hx hedge
  | tail _ hedge ih =>
    have hlast := hstep ih.1 hedge
    exact ⟨hlast.1, hlast.2.trans ih.2⟩

/-- Nodes of a finite graph can be ranked unless there is a cycle: the rank
counts the nodes that can be reached. -/
theorem exists_ranked_iff [DecidableEq α] {ids : List α}
    (hids : ∀ x ∈ ids, ∃ own deps, nodes x = some (own, deps) ∧ deps ⊆ ids) :
    (∃ rank, Ranked nodes ids rank) ↔ ∀ x ∈ ids, ¬ Relation.TransGen (Edge nodes) x x := by
  classical
  constructor
  · rintro ⟨rank, hrank⟩ x hx hcycle
    exact Nat.lt_irrefl _ (hrank.rank_lt hx hcycle).2
  · intro hacyclic
    refine ⟨fun x => {y ∈ ids.toFinset | Relation.TransGen (Edge nodes) x y}.card, ?_⟩
    intro x hx
    obtain ⟨own, deps, hknown, hsub⟩ := hids x hx
    refine ⟨own, deps, hknown, fun d hd => ⟨hsub hd, ?_⟩⟩
    have hedge : Edge nodes x d := ⟨own, deps, hknown, hd⟩
    apply Finset.card_lt_card
    rw [Finset.ssubset_iff_of_subset]
    · refine ⟨d, ?_, ?_⟩
      · rw [Finset.mem_filter, List.mem_toFinset]
        exact ⟨hsub hd, .single hedge⟩
      · rw [Finset.mem_filter]
        exact fun h => hacyclic d (hsub hd) h.2
    · intro y hy
      rw [Finset.mem_filter] at hy ⊢
      exact ⟨hy.1, .head hedge hy.2⟩

variable [DecidableEq α] {memo : Dict α Nat}

/-- The stored levels are a schedule, once every known node is stored. -/
theorem Sound.schedules (h : Sound nodes memo)
    (hall : ∀ x, nodes x ≠ none → ∃ value, memo.get? x = some value) :
    Schedules nodes fun x => (memo.get? x).getD 0 := by
  intro x own deps hknown
  obtain ⟨value, hvalue⟩ := hall x (by simp [hknown])
  obtain ⟨own', deps', hknown', hstored⟩ := h.closed hvalue
  rw [hknown] at hknown'
  cases hknown'
  constructor
  · simpa [hvalue] using (h.isLevel hvalue).2 (.own hknown)
  · intro d hd
    obtain ⟨w, hw⟩ := hstored d hd
    simpa [hvalue, hw] using h.level_lt hknown hd hvalue hw

/-- A level is the own one, or one above that of some dependency. -/
theorem Sound.attained (h : Sound nodes memo) {x : α} {value own : Nat} {deps : List α}
    (hvalue : memo.get? x = some value) (hknown : nodes x = some (own, deps)) :
    value = own ∨ ∃ d ∈ deps, ∃ w, memo.get? d = some w ∧ value = w + 1 := by
  obtain ⟨own', deps', hknown', hstored⟩ := h.closed hvalue
  rw [hknown] at hknown'
  cases hknown'
  cases (h.isLevel hvalue).1 with
  | own known =>
    rw [hknown] at known
    cases known
    exact .inl rfl
  | @edge _ d _ n _ known dep rest =>
    rw [hknown] at known
    cases known
    obtain ⟨w, hw⟩ := hstored d dep
    have hle : n ≤ w := (h.isLevel hw).2 rest
    have hlt := h.level_lt hknown dep hvalue hw
    exact .inr ⟨d, dep, w, hw, by omega⟩

end ProjectOS.Base.Levels
