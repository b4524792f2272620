import Mathlib.Algebra.Order.BigOperators.Group.List
import Mathlib.Algebra.Order.Group.Nat
import Mathlib.Data.Set.Finite.List
import Mathlib.Logic.Relation
import Mathlib.Order.WellFounded
import ProjectOS.Base.Layers

/-! Reachability in a finite graph: a walk with a stack of pending nodes finds
what can be reached, and a graph is acyclic when no node reaches itself. -/
namespace ProjectOS.Base.Reachability
open Relation

section walk
variable {α : Type} [DecidableEq α]

/-- A node is expanded when it is found first; the fuel counts the pending nodes. -/
def walk (next : α → List α) : Nat → List α → List α → List α
  | 0, found, _ => found
  | _ + 1, found, [] => found
  | fuel + 1, found, x :: rest =>
      if x ∈ found then walk next fuel found rest
      else walk next fuel (x :: found) (next x ++ rest)

def Next (next : α → List α) (a b : α) : Prop := b ∈ next a

/-- The edges that the nodes not yet found can still add. -/
def openEdges (next : α → List α) (nodes found : List α) : Nat :=
  (nodes.map fun x => if x ∈ found then 0 else (next x).length).foldr (· + ·) 0

variable {next : α → List α} {nodes found pending : List α} {x y : α}

theorem openEdges_cons_le (next : α → List α) (found : List α) (x : α) (nodes : List α) :
    openEdges next nodes (x :: found) ≤ openEdges next nodes found := by
  change (nodes.map fun y => if y ∈ x :: found then 0 else (next y).length).sum ≤
    (nodes.map fun y => if y ∈ found then 0 else (next y).length).sum
  apply List.sum_le_sum
  intro y _
  by_cases hy : y ∈ found
  · simp [hy]
  · by_cases hx : y = x <;> simp [hy, hx]

theorem openEdges_cons (hmem : x ∈ nodes) (hnew : x ∉ found) :
    (next x).length + openEdges next nodes (x :: found) ≤ openEdges next nodes found := by
  obtain ⟨front, back, rfl⟩ := List.append_of_mem hmem
  have hfront := openEdges_cons_le next found x front
  have hback := openEdges_cons_le next found x back
  have hsum (nodes found : List α) : openEdges next nodes found =
      (nodes.map fun y => if y ∈ found then 0 else (next y).length).sum := rfl
  simp only [hsum, List.map_append, List.map_cons, List.sum_append, List.sum_cons, if_neg hnew,
    if_pos List.mem_cons_self] at hfront hback ⊢
  omega

omit [DecidableEq α] in
/-- What a found node reaches is found or reached from a pending one. -/
theorem found_or_reached (hclosed : ∀ a ∈ found, ∀ b ∈ next a, b ∈ found ∨ b ∈ pending)
    (hx : x ∈ found) (hreach : ReflTransGen (Next next) x y) :
    y ∈ found ∨ ∃ p ∈ pending, ReflTransGen (Next next) p y := by
  induction hreach with
  | refl => exact .inl hx
  | tail _ hstep ih =>
    rcases ih with ha | ⟨p, hp, hreach⟩
    · rcases hclosed _ ha _ hstep with hb | hb
      · exact .inl hb
      · exact .inr ⟨_, hb, .refl⟩
    · exact .inr ⟨p, hp, hreach.tail hstep⟩

/-- With enough fuel the walk finds what was found and what the pending nodes reach. -/
theorem mem_walk_iff (hnodes : ∀ x, next x ≠ [] → x ∈ nodes) {fuel : Nat}
    (hfuel : pending.length + openEdges next nodes found ≤ fuel)
    (hclosed : ∀ a ∈ found, ∀ b ∈ next a, b ∈ found ∨ b ∈ pending) :
    y ∈ walk next fuel found pending ↔
      y ∈ found ∨ ∃ p ∈ pending, ReflTransGen (Next next) p y := by
  -- Nothing pending: the nodes found are closed under the edges.
  induction fuel generalizing found pending with
  | zero =>
    obtain rfl : pending = [] := List.length_eq_zero_iff.mp (by omega)
    simp [walk]
  | succ fuel ih =>
    cases pending with
    | nil => simp [walk]
    | cons x rest =>
      rw [List.length_cons] at hfuel
      rw [walk]
      split
      · rename_i hfound
        have hrest : ∀ a ∈ found, ∀ b ∈ next a, b ∈ found ∨ b ∈ rest := by
          intro a ha b hb
          rcases hclosed a ha b hb with hb | hb
          · exact .inl hb
          · rcases List.mem_cons.mp hb with rfl | hb
            · exact .inl hfound
            · exact .inr hb
        rw [ih (by omega) hrest]
        constructor
        · rintro (hy | ⟨p, hp, hreach⟩)
          · exact .inl hy
          · exact .inr ⟨p, List.mem_cons_of_mem _ hp, hreach⟩
        · rintro (hy | ⟨p, hp, hreach⟩)
          · exact .inl hy
          · rcases List.mem_cons.mp hp with rfl | hp
            · exact found_or_reached hrest hfound hreach
            · exact .inr ⟨p, hp, hreach⟩
      · rename_i hnew
        have hbound : (next x ++ rest).length + openEdges next nodes (x :: found) ≤ fuel := by
          rw [List.length_append]
          by_cases hnil : next x = []
          · have := openEdges_cons_le next found x nodes
            simp only [hnil, List.length_nil]
            omega
          · have : (next x).length + openEdges next nodes (x :: found) ≤
                openEdges next nodes found := openEdges_cons (hnodes x hnil) hnew
            omega
        have hnext : ∀ a ∈ x :: found, ∀ b ∈ next a, b ∈ x :: found ∨ b ∈ next x ++ rest := by
          intro a ha b hb
          rcases List.mem_cons.mp ha with rfl | ha
          · exact .inr (List.mem_append_left _ hb)
          · rcases hclosed a ha b hb with hb | hb
            · exact .inl (List.mem_cons_of_mem _ hb)
            · rcases List.mem_cons.mp hb with rfl | hb
              · exact .inl List.mem_cons_self
              · exact .inr (List.mem_append_right _ hb)
        rw [ih hbound hnext]
        constructor
        · rintro (hy | ⟨p, hp, hreach⟩)
          · rcases List.mem_cons.mp hy with rfl | hy
            · exact .inr ⟨y, List.mem_cons_self, .refl⟩
            · exact .inl hy
          · rcases List.mem_append.mp hp with hp | hp
            · exact .inr ⟨x, List.mem_cons_self, hreach.head hp⟩
            · exact .inr ⟨p, List.mem_cons_of_mem _ hp, hreach⟩
        · rintro (hy | ⟨p, hp, hreach⟩)
          · exact .inl (List.mem_cons_of_mem _ hy)
          · rcases List.mem_cons.mp hp with rfl | hp
            · rcases hreach.cases_head with rfl | ⟨b, hb, hreach⟩
              · exact .inl List.mem_cons_self
              · exact .inr ⟨b, List.mem_append_left _ hb, hreach⟩
            · exact .inr ⟨p, List.mem_append_right _ hp, hreach⟩

end walk

section levels
variable {α : Type} {E : α → α → Prop} {a b : α}

/-- A path that never goes up and ends on the level it started from stays there. -/
theorem path_within_level (level : α → Nat) (hdown : ∀ {a b}, E a b → level b ≤ level a)
    (h : TransGen E a b) : level b ≤ level a ∧
      (level b = level a →
        TransGen (fun x y => E x y ∧ level x = level a ∧ level y = level a) a b) := by
  induction h with
  | single hstep => exact ⟨hdown hstep, fun heq => .single ⟨hstep, rfl, heq⟩⟩
  | @tail b c _ hstep ih =>
    have hle := hdown hstep
    refine ⟨hle.trans ih.1, fun heq => ?_⟩
    have hb : level b = level a := le_antisymm ih.1 (heq ▸ hle)
    exact (ih.2 hb).tail ⟨hstep, hb, heq⟩

/-- Levels without loops, joined by edges that never go up, have no loop together. -/
theorem irrefl_of_levels (level : α → Nat) (hdown : ∀ {a b}, E a b → level b ≤ level a)
    (hlevel : ∀ n a, ¬ TransGen (fun x y => E x y ∧ level x = n ∧ level y = n) a a) :
    ¬ TransGen E a a :=
  fun hloop => hlevel _ a ((path_within_level level hdown hloop).2 rfl)

end levels

section acyclic
variable {α : Type} {graph : Layers.Graph α}

/-- `a` waits for `b` in the graph. -/
def Edge (graph : Layers.Graph α) (a b : α) : Prop := ∃ e ∈ graph, e.1 = a ∧ b ∈ e.2

theorem irrefl_of_acyclic (hnodup : (Layers.nodes graph).Nodup) (h : Layers.Acyclic graph) (a : α) :
    ¬ TransGen (Edge graph) a a := by
  intro hloop
  have hsource : ∃ e ∈ graph, TransGen (Edge graph) e.1 e.1 := by
    obtain ⟨_, ⟨e, he, rfl, -⟩, -⟩ := TransGen.head'_iff.mp hloop
    exact ⟨e, he, hloop⟩
  obtain ⟨e, he, hself, hfree⟩ := h (fun x => TransGen (Edge graph) x x) hsource
  obtain ⟨b, ⟨e', he', hid, hb⟩, hback⟩ := TransGen.head'_iff.mp hself
  obtain rfl := List.inj_on_of_nodup_map hnodup he' he hid
  exact hfree b hb (TransGen.tail' hback ⟨e', he', rfl, hb⟩)

/-- A set of nodes in which every node waits for another one has a loop. -/
theorem acyclic_of_irrefl (hknown : ∀ e ∈ graph, ∀ d ∈ e.2, d ∈ Layers.nodes graph)
    (h : ∀ a, ¬ TransGen (Edge graph) a a) : Layers.Acyclic graph := by
  intro S ⟨e, he, hSe⟩
  have hfinite : Finite {e // e ∈ graph} := (List.finite_toSet graph).to_subtype
  let below (e' e : {e // e ∈ graph}) : Prop := TransGen (Edge graph) e.1.1 e'.1.1
  have htrans : IsTrans _ below := ⟨fun _ _ _ hab hbc => hbc.trans hab⟩
  have hirrefl : Std.Irrefl below := ⟨fun e => h e.1.1⟩
  have hwf : WellFounded below := Finite.wellFounded_of_trans_of_irrefl below
  obtain ⟨least, hleast, hmin⟩ := hwf.has_min {e | S e.1.1} ⟨⟨e, he⟩, hSe⟩
  refine ⟨least.1, least.2, hleast, fun d hd hSd => ?_⟩
  obtain ⟨e', he', rfl⟩ := List.mem_map.mp (hknown _ least.2 d hd)
  exact hmin ⟨e', he'⟩ hSd (.single ⟨least.1, least.2, rfl, hd⟩)

theorem acyclic_iff (hnodup : (Layers.nodes graph).Nodup)
    (hknown : ∀ e ∈ graph, ∀ d ∈ e.2, d ∈ Layers.nodes graph) :
    Layers.Acyclic graph ↔ ∀ a, ¬ TransGen (Edge graph) a a :=
  ⟨irrefl_of_acyclic hnodup, acyclic_of_irrefl hknown⟩

end acyclic
end ProjectOS.Base.Reachability
