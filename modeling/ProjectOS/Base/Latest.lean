import Mathlib.Data.List.Induction
import Mathlib.Data.List.Sort
import ProjectOS.Base.Dict

/-! The latest of some dated items, by a stable sort. -/
namespace ProjectOS.Base

variable {α τ κ : Type} [LinearOrder τ] (date : α → τ)

/-- `sorted(items, key=date)`. -/
def sortedBy (items : List α) : List α := items.insertionSort fun a b => date a ≤ date b

/-- No item is dated after this one, and of those with its date it is listed last. -/
def Latest (items : List α) (x : α) : Prop :=
  ∃ front back, items = front ++ x :: back ∧ (∀ y ∈ front, date y ≤ date x) ∧
    ∀ y ∈ back, date y < date x

variable {date}

theorem Latest.mem {items : List α} {x : α} (h : Latest date items x) : x ∈ items := by
  obtain ⟨front, back, rfl, -⟩ := h
  exact List.mem_append_right _ List.mem_cons_self

theorem Latest.le {items : List α} {x : α} (h : Latest date items x) :
    ∀ y ∈ items, date y ≤ date x := by
  obtain ⟨front, back, rfl, hfront, hback⟩ := h
  intro y hy
  rcases List.mem_append.1 hy with hy | hy
  · exact hfront y hy
  · rcases List.mem_cons.1 hy with rfl | hy
    · exact le_rfl
    · exact (hback y hy).le

theorem not_latest_nil (x : α) : ¬ Latest date [] x := fun h => absurd h.mem List.not_mem_nil

/-- A first item is the latest if all others are before it. -/
theorem latest_cons_iff {a x : α} {items : List α} :
    Latest date (a :: items) x ↔
      (Latest date items x ∧ date a ≤ date x) ∨ (a = x ∧ ∀ y ∈ items, date y < date a) := by
  constructor
  · rintro ⟨front, back, hitems, hfront, hback⟩
    cases front with
    | nil =>
      obtain ⟨rfl, rfl⟩ := List.cons.inj hitems
      exact .inr ⟨rfl, hback⟩
    | cons b front =>
      obtain ⟨rfl, rfl⟩ := List.cons.inj hitems
      refine .inl ⟨⟨front, back, rfl, fun y hy => hfront y (List.mem_cons_of_mem _ hy), hback⟩, ?_⟩
      exact hfront a List.mem_cons_self
  · rintro (⟨⟨front, back, rfl, hfront, hback⟩, hle⟩ | ⟨rfl, hback⟩)
    · exact ⟨a :: front, back, rfl, List.forall_mem_cons.2 ⟨hle, hfront⟩, hback⟩
    · exact ⟨[], items, rfl, fun _ h => absurd h List.not_mem_nil, hback⟩

theorem Latest.unique {items : List α} {x y : α} (hx : Latest date items x)
    (hy : Latest date items y) : x = y := by
  induction items with
  | nil => exact absurd hx (not_latest_nil x)
  | cons a items ih =>
    rcases latest_cons_iff.1 hx with ⟨hx, hax⟩ | ⟨rfl, hallx⟩ <;>
      rcases latest_cons_iff.1 hy with ⟨hy, hay⟩ | ⟨rfl, hally⟩
    · exact ih hx hy
    · exact absurd (hally x hx.mem) (not_lt.2 hax)
    · exact absurd (hallx y hy.mem) (not_lt.2 hay)
    · rfl

theorem exists_latest (date : α → τ) {items : List α} (h : items ≠ []) : ∃ x, Latest date items x := by
  induction items with
  | nil => exact absurd rfl h
  | cons a items ih =>
    by_cases hbefore : ∀ y ∈ items, date y < date a
    · exact ⟨a, latest_cons_iff.2 (.inr ⟨rfl, hbefore⟩)⟩
    · push Not at hbefore
      obtain ⟨y, hy, hle⟩ := hbefore
      obtain ⟨x, hx⟩ := ih (List.ne_nil_of_mem hy)
      exact ⟨x, latest_cons_iff.2 (.inl ⟨hx, hle.trans (hx.le y hy)⟩)⟩

section sort

variable {a : α} {s : List α}

theorem mem_sortedBy {items : List α} {x : α} : x ∈ sortedBy date items ↔ x ∈ items :=
  List.mem_insertionSort _

theorem sortedBy_cons (a : α) (items : List α) :
    sortedBy date (a :: items) =
      (sortedBy date items).orderedInsert (fun a b => date a ≤ date b) a := rfl

theorem orderedInsert_of_forall (h : ∀ b ∈ s, date a ≤ date b) :
    s.orderedInsert (fun a b => date a ≤ date b) a = a :: s := by
  cases s with
  | nil => rfl
  | cons b s => rw [List.orderedInsert_cons, if_pos (h b List.mem_cons_self)]

theorem pairwise_orderedInsert (h : s.Pairwise fun a b => date a ≤ date b) :
    (s.orderedInsert (fun a b => date a ≤ date b) a).Pairwise fun a b => date a ≤ date b := by
  induction s with
  | nil => exact List.pairwise_singleton _ _
  | cons b s ih =>
    obtain ⟨hb, hs⟩ := List.pairwise_cons.1 h
    by_cases hab : date a ≤ date b
    · rw [List.orderedInsert_cons, if_pos hab]
      exact List.pairwise_cons.2 ⟨List.forall_mem_cons.2 ⟨hab, fun c hc => hab.trans (hb c hc)⟩, h⟩
    · rw [List.orderedInsert_cons, if_neg hab]
      refine List.pairwise_cons.2 ⟨fun c hc => ?_, ih hs⟩
      rcases (List.mem_orderedInsert _).1 hc with rfl | hc
      · exact (not_le.1 hab).le
      · exact hb c hc

theorem pairwise_sortedBy (items : List α) :
    (sortedBy date items).Pairwise fun a b => date a ≤ date b := by
  induction items with
  | nil => exact List.Pairwise.nil
  | cons a items ih => exact pairwise_orderedInsert ih

theorem filter_orderedInsert (p : α → Bool) (h : s.Pairwise fun a b => date a ≤ date b) :
    (s.orderedInsert (fun a b => date a ≤ date b) a).filter p =
      if p a then (s.filter p).orderedInsert (fun a b => date a ≤ date b) a else s.filter p := by
  induction s with
  | nil => cases hp : p a <;> simp [hp]
  | cons b s ih =>
    obtain ⟨hb, hs⟩ := List.pairwise_cons.1 h
    by_cases hab : date a ≤ date b
    · have hall : ∀ c ∈ (b :: s).filter p, date a ≤ date c := by
        intro c hc
        rcases List.mem_cons.1 (List.mem_of_mem_filter hc) with rfl | hc
        · exact hab
        · exact hab.trans (hb c hc)
      rw [List.orderedInsert_cons, if_pos hab, List.filter_cons, orderedInsert_of_forall hall]
    · rw [List.orderedInsert_cons, if_neg hab, List.filter_cons, ih hs, List.filter_cons]
      cases hpa : p a <;> cases hpb : p b <;> simp [hab]

/-- The sort is stable: the items of a kind are sorted as they are without the others. -/
theorem filter_sortedBy (p : α → Bool) (items : List α) :
    (sortedBy date items).filter p = sortedBy date (items.filter p) := by
  induction items with
  | nil => rfl
  | cons a items ih =>
    rw [sortedBy_cons, filter_orderedInsert p (pairwise_sortedBy items), ih, List.filter_cons]
    split <;> rfl

theorem getLast?_orderedInsert (h : s.Pairwise fun a b => date a ≤ date b) :
    (s.orderedInsert (fun a b => date a ≤ date b) a).getLast? =
      some ((s.getLast?.filter (date a ≤ date ·)).getD a) := by
  induction s with
  | nil => rfl
  | cons b s ih =>
    obtain ⟨hb, hs⟩ := List.pairwise_cons.1 h
    have hlast : ∀ c, (b :: s).getLast? = some c → date b ≤ date c := by
      intro c hc
      rcases List.mem_cons.1 (List.mem_of_getLast? hc) with rfl | hc
      · exact le_rfl
      · exact hb c hc
    by_cases hab : date a ≤ date b
    · rw [List.orderedInsert_cons, if_pos hab, List.getLast?_cons_cons]
      obtain ⟨c, hc⟩ : ∃ c, (b :: s).getLast? = some c := ⟨_, List.getLast?_eq_some_getLast (by simp)⟩
      simp [hc, Option.filter, hab.trans (hlast c hc)]
    · rw [List.orderedInsert_cons, if_neg hab, List.getLast?_cons, ih hs]
      cases s with
      | nil => simp [Option.filter, hab]
      | cons c s => simp [List.getLast?_cons_cons]

/-- The last of the sorted items is the latest one. -/
theorem getLast?_sortedBy {items : List α} {x : α} :
    (sortedBy date items).getLast? = some x ↔ Latest date items x := by
  induction items generalizing x with
  | nil =>
    constructor
    · intro h
      cases h
    · intro h
      exact absurd h (not_latest_nil x)
  | cons a items ih =>
    rw [sortedBy_cons, getLast?_orderedInsert (pairwise_sortedBy items), latest_cons_iff]
    rcases List.eq_nil_or_concat items with rfl | ⟨_, _, hitems⟩
    · simp [sortedBy, not_latest_nil]
    · have hne : items ≠ [] := by
        rw [hitems]
        simp
      obtain ⟨z, hz⟩ := exists_latest date hne
      rw [ih.2 hz]
      by_cases haz : date a ≤ date z
      · have hnot : ¬ ∀ y ∈ items, date y < date a := fun h => absurd (h z hz.mem) (not_lt.2 haz)
        simp only [Option.filter_some, haz, decide_true, if_true, Option.getD_some,
          Option.some.injEq, hnot, and_false, or_false]
        constructor
        · rintro rfl
          exact ⟨hz, haz⟩
        · rintro ⟨hx, -⟩
          exact hz.unique hx
      · have hall : ∀ y ∈ items, date y < date a :=
          fun y hy => (hz.le y hy).trans_lt (not_le.1 haz)
        simp only [Option.filter_some, haz, decide_false, Bool.false_eq_true, if_false,
          Option.getD_none, Option.some.injEq]
        constructor
        · rintro rfl
          exact .inr ⟨rfl, hall⟩
        · rintro (⟨hx, hax⟩ | ⟨rfl, -⟩)
          · obtain rfl := hz.unique hx
            exact absurd hax haz
          · rfl

end sort

/-- Of the items under one key, a dictionary filled in their order keeps the last. -/
theorem get?_ofList_keyed [DecidableEq κ] (key : α → κ) (items : List α) (k : κ) :
    (Dict.ofList (items.map fun x => (key x, x))).get? k =
      (items.filter (key · = k)).getLast? := by
  induction items using List.reverseRecOn with
  | nil => rfl
  | append_singleton items x ih =>
    unfold Dict.ofList at ih ⊢
    rw [List.map_append, List.foldl_append, List.map_singleton, List.foldl_cons, List.foldl_nil,
      Dict.get?_set, ih, List.filter_append]
    by_cases hk : key x = k
    · simp [hk]
    · simp [hk, Ne.symm hk]

end ProjectOS.Base
