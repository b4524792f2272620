import ProjectOS.Base.Raise

/-! Acyclicity by repeated removal of ready nodes. A graph lists every node
with the nodes it waits for; each round resolves all nodes whose requirements
are resolved, and a round without a ready node is a cycle. -/
namespace ProjectOS.Base.Layers

variable {α : Type} [DecidableEq α]

abbrev Graph (α : Type) := List (α × List α)

def nodes (graph : Graph α) : List α := graph.map Prod.fst

/-- The nodes whose requirements are all resolved. -/
def ready (pending : Graph α) (resolved : List α) : List α :=
  (pending.filter fun e => e.2.all (· ∈ resolved)).map Prod.fst

/-- The loop; the fuel counts rounds and a stuck round reports what is left. -/
def resolve : Nat → Graph α → List α → Except (List α) Unit
  | _, [], _ => .ok ()
  | 0, pending, _ => .error (nodes pending)
  | fuel + 1, pending, resolved =>
      if (ready pending resolved).isEmpty then .error (nodes pending)
      else resolve fuel (pending.filter (·.1 ∉ ready pending resolved))
        (resolved ++ ready pending resolved)

/-- Every round removes a node, so one round for each node is enough. -/
def ensureAcyclic (graph : Graph α) : Except (List α) Unit := resolve graph.length graph []

omit [DecidableEq α] in
/-- Every inhabited set of nodes has a member that waits for none of the set. -/
def Acyclic (graph : Graph α) : Prop :=
  ∀ S : α → Prop, (∃ e ∈ graph, S e.1) → ∃ e ∈ graph, S e.1 ∧ ∀ d ∈ e.2, ¬S d

theorem mem_ready {pending : Graph α} {resolved : List α} {k : α} :
    k ∈ ready pending resolved ↔ ∃ ds, (k, ds) ∈ pending ∧ ∀ d ∈ ds, d ∈ resolved := by
  simp [ready, List.mem_filter]

/-- A completed loop leaves no set of pending nodes that waits only for itself. -/
theorem free_of_resolve {fuel : Nat} {pending : Graph α} {resolved : List α}
    (h : resolve fuel pending resolved = .ok ()) (S : α → Prop)
    (hres : ∀ r ∈ resolved, ¬S r) (hS : ∃ e ∈ pending, S e.1) :
    ∃ e ∈ pending, S e.1 ∧ ∀ d ∈ e.2, ¬S d := by
  induction fuel generalizing pending resolved with
  | zero =>
    obtain ⟨e, he, _⟩ := hS
    cases pending with
    | nil => cases he
    | cons => simp [resolve] at h
  | succ fuel ih =>
    obtain ⟨e, he, hSe⟩ := hS
    rw [resolve] at h
    · split at h
      · simp at h
      · by_cases hready : ∃ k ∈ ready pending resolved, S k
        · obtain ⟨k, hk, hSk⟩ := hready
          obtain ⟨ds, hmem, hds⟩ := mem_ready.mp hk
          exact ⟨(k, ds), hmem, hSk, fun d hd => hres d (hds d hd)⟩
        · have hnone : ∀ k ∈ ready pending resolved, ¬S k := fun k hk hSk => hready ⟨k, hk, hSk⟩
          have hleft : e ∈ pending.filter (·.1 ∉ ready pending resolved) :=
            List.mem_filter.mpr ⟨he, by simpa using fun hk => hnone _ hk hSe⟩
          obtain ⟨e', he', hfree⟩ := ih h
            (fun r hr => (List.mem_append.mp hr).elim (hres r) (hnone r)) ⟨e, hleft, hSe⟩
          exact ⟨e', (List.mem_filter.mp he').1, hfree⟩
    · rintro rfl
      cases he

def remaining (graph : Graph α) (resolved : List α) : Graph α := graph.filter (·.1 ∉ resolved)

theorem mem_remaining {graph : Graph α} {resolved : List α} {e : α × List α} :
    e ∈ remaining graph resolved ↔ e ∈ graph ∧ e.1 ∉ resolved := by
  simp [remaining]

theorem remaining_append (graph : Graph α) (resolved more : List α) :
    (remaining graph resolved).filter (·.1 ∉ more) = remaining graph (resolved ++ more) := by
  unfold remaining
  rw [List.filter_filter]
  apply List.filter_congr
  intro e _
  by_cases h : e.1 ∈ resolved <;> simp [h]

/-- The loop succeeds on what is left of an acyclic graph. -/
theorem resolve_of_acyclic {graph : Graph α} (hacyclic : Acyclic graph) (fuel : Nat)
    (resolved : List α) (hfuel : (remaining graph resolved).length ≤ fuel) :
    resolve fuel (remaining graph resolved) resolved = .ok () := by
  induction fuel generalizing resolved with
  | zero => rw [List.length_eq_zero_iff.mp (Nat.le_zero.mp hfuel), resolve]
  | succ fuel ih =>
    by_cases hempty : remaining graph resolved = []
    · rw [hempty, resolve]
    · obtain ⟨first, hfirst⟩ := List.exists_mem_of_ne_nil _ hempty
      obtain ⟨e, he, hopen, hfree⟩ := hacyclic (· ∉ resolved)
        ⟨first, mem_remaining.mp hfirst⟩
      have hready : e.1 ∈ ready (remaining graph resolved) resolved :=
        mem_ready.mpr ⟨e.2, mem_remaining.mpr ⟨he, hopen⟩, fun d hd => not_not.mp (hfree d hd)⟩
      have hshrink : ((remaining graph resolved).filter
          (·.1 ∉ ready (remaining graph resolved) resolved)).length <
            (remaining graph resolved).length := by
        apply List.length_filter_lt_length_iff_exists.mpr
        exact ⟨e, mem_remaining.mpr ⟨he, hopen⟩, by simpa using hready⟩
      have hsome : (ready (remaining graph resolved) resolved).isEmpty = false := by
        cases hnil : ready (remaining graph resolved) resolved with
        | nil => simp [hnil] at hready
        | cons => rfl
      rw [resolve, hsome, if_neg Bool.false_ne_true]
      · rw [remaining_append] at hshrink ⊢
        exact ih _ (by omega)
      · exact hempty

theorem ensureAcyclic_eq_ok_iff {graph : Graph α} :
    ensureAcyclic graph = .ok () ↔ Acyclic graph := by
  constructor
  · exact fun h S hS => free_of_resolve h S (by simp) hS
  · intro hacyclic
    have hall : remaining graph [] = graph := by simp [remaining]
    have h := resolve_of_acyclic hacyclic graph.length [] (Nat.le_of_eq (congrArg List.length hall))
    rwa [hall] at h

omit [DecidableEq α] in
/-- Strictly decreasing ranks make a graph acyclic. -/
theorem acyclic_of_rank {graph : Graph α} (rank : α → Nat)
    (hrank : ∀ e ∈ graph, ∀ d ∈ e.2, rank d < rank e.1)
    (hknown : ∀ e ∈ graph, ∀ d ∈ e.2, d ∈ nodes graph) : Acyclic graph := by
  intro S ⟨e, he, hSe⟩
  induction hn : rank e.1 using Nat.strongRecOn generalizing e with
  | _ n ih =>
    by_cases hfree : ∀ d ∈ e.2, ¬S d
    · exact ⟨e, he, hSe, hfree⟩
    · push Not at hfree
      obtain ⟨d, hd, hSd⟩ := hfree
      obtain ⟨e', he', rfl⟩ := List.mem_map.mp (hknown e he d hd)
      exact ih _ (hn ▸ hrank e he _ hd) e' he' hSd rfl

end ProjectOS.Base.Layers
