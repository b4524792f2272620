import Mathlib.Data.List.Chain
import Mathlib.Data.List.Perm.Subperm
import Mathlib.Order.WellFounded
import ProjectOS.Base.Raise

/-! Search for a cycle by a depth-first walk. All walks share the visited nodes;
every branch has a path of its own. -/
namespace ProjectOS.Base.DepthFirst

variable {α : Type} [DecidableEq α]

inductive Stop (α : Type) where
  | cycle (nodes : List α)
  | outOfFuel

/-- One step for each node, as long as no step stops. -/
def walkAll (step : List α → α → Except (Stop α) (List α)) :
    List α → List α → Except (Stop α) (List α)
  | visited, [] => .ok visited
  | visited, x :: rest => do
      let visited ← step visited x
      walkAll step visited rest

/-- The walk from one node; its result are the visited nodes. -/
def walk (targets : α → List α) : Nat → List α → List α → α → Except (Stop α) (List α)
  | 0, _, _, _ => .error .outOfFuel
  | fuel + 1, path, visited, x =>
      if x ∈ path then .error (.cycle (path.dropWhile (· ≠ x) ++ [x]))
      else if x ∈ visited then .ok visited
      else walkAll (walk targets fuel (path ++ [x])) (x :: visited) (targets x)

/-- The walk from every root. -/
def search (targets : α → List α) (fuel : Nat) (roots : List α) : Except (Stop α) (List α) :=
  walkAll (walk targets fuel []) [] roots

/-- No infinite chain of targets starts here. -/
def Grounded (targets : α → List α) (x : α) : Prop := Acc (fun d y => d ∈ targets y) x

variable {targets : α → List α}

/-- Away from the path every visited node is grounded. -/
def Settled (targets : α → List α) (path visited : List α) : Prop :=
  ∀ x ∈ visited, x ∉ path → Grounded targets x

omit [DecidableEq α] in
theorem walkAll_settled {step : List α → α → Except (Stop α) (List α)} {path : List α}
    (hstep : ∀ {visited visited' x}, Settled targets path visited →
      step visited x = .ok visited' →
      Settled targets path visited' ∧ visited ⊆ visited' ∧ x ∈ visited' ∧ x ∉ path)
    {visited visited' xs : List α} (hsettled : Settled targets path visited)
    (h : walkAll step visited xs = .ok visited') :
    Settled targets path visited' ∧ visited ⊆ visited' ∧ ∀ x ∈ xs, x ∈ visited' ∧ x ∉ path := by
  induction xs generalizing visited with
  | nil =>
    cases h
    exact ⟨hsettled, fun _ hx => hx, fun _ hx => absurd hx List.not_mem_nil⟩
  | cons x rest ih =>
    simp only [walkAll, bind_eq_ok] at h
    obtain ⟨middle, hx, hrest⟩ := h
    obtain ⟨hmiddle, hgrows, hmem, hpath⟩ := hstep hsettled hx
    obtain ⟨hsettled', hgrows', hall⟩ := ih hmiddle hrest
    refine ⟨hsettled', fun y hy => hgrows' (hgrows hy), ?_⟩
    intro y hy
    rcases List.mem_cons.mp hy with rfl | hlater
    · exact ⟨hgrows' hmem, hpath⟩
    · exact hall y hlater

theorem walk_settled {fuel : Nat} {path visited visited' : List α} {x : α}
    (hsettled : Settled targets path visited)
    (h : walk targets fuel path visited x = .ok visited') :
    Settled targets path visited' ∧ visited ⊆ visited' ∧ x ∈ visited' ∧ x ∉ path := by
  induction fuel generalizing path visited visited' x with
  | zero => cases h
  | succ fuel ih =>
    unfold walk at h
    split at h
    · cases h
    · rename_i hpath
      split at h
      · rename_i hvisited
        cases h
        exact ⟨hsettled, fun _ hx => hx, hvisited, hpath⟩
      · have hinside : Settled targets (path ++ [x]) (x :: visited) := by
          intro y hy hout
          rw [List.mem_append, List.mem_singleton, not_or] at hout
          exact hsettled y ((List.mem_cons.mp hy).resolve_left hout.2) hout.1
        obtain ⟨hafter, hgrows, hall⟩ := walkAll_settled (fun h h' => ih h h') hinside h
        have hx : Grounded targets x := by
          apply Acc.intro
          intro d hd
          exact hafter d (hall d hd).1 (hall d hd).2
        refine ⟨?_, fun y hy => hgrows (List.mem_cons_of_mem _ hy), hgrows List.mem_cons_self, hpath⟩
        intro y hy hout
        by_cases hyx : y = x
        · rw [hyx]
          exact hx
        · apply hafter y hy
          rw [List.mem_append, List.mem_singleton, not_or]
          exact ⟨hout, hyx⟩

omit [DecidableEq α] in
theorem Grounded.not_cycle {x : α} (h : Grounded targets x) :
    ¬ Relation.TransGen (fun d y => d ∈ targets y) x x := by
  have hacc := Acc.transGen h
  clear h
  induction hacc with
  | intro y _ ih => exact fun hy => ih y hy hy

omit [DecidableEq α] in
theorem walkAll_total {step : List α → α → Except (Stop α) (List α)} {xs : List α}
    (hstep : ∀ x ∈ xs, ∀ visited, ∃ visited', step visited x = .ok visited')
    (visited : List α) : ∃ visited', walkAll step visited xs = .ok visited' := by
  induction xs generalizing visited with
  | nil => exact ⟨visited, rfl⟩
  | cons x rest ih =>
    obtain ⟨middle, hx⟩ := hstep x List.mem_cons_self visited
    obtain ⟨visited', hrest⟩ := ih (fun y hy => hstep y (List.mem_cons_of_mem _ hy)) middle
    exact ⟨visited', by rw [walkAll, hx, ok_bind, hrest]⟩

/-- From a grounded node the walk finds no cycle, given fuel for the nodes that
have targets at all. -/
theorem walk_total {keys : List α} (hkeys : ∀ x, x ∉ keys → targets x = []) {fuel : Nat}
    {path : List α} {x : α} (hnodup : path.Nodup) (hsub : path ⊆ keys)
    (hfuel : keys.length < fuel + path.length) (hx : Grounded targets x)
    (hpath : ∀ y ∈ path, Relation.TransGen (fun d y => d ∈ targets y) x y) (visited : List α) :
    ∃ visited', walk targets fuel path visited x = .ok visited' := by
  induction fuel generalizing path visited x with
  | zero =>
    have hlength := (hnodup.subperm hsub).length_le
    omega
  | succ fuel ih =>
    have hnew : x ∉ path := fun hmem => hx.not_cycle (hpath x hmem)
    unfold walk
    rw [if_neg hnew]
    split
    · exact ⟨visited, rfl⟩
    · by_cases hkey : x ∈ keys
      · apply walkAll_total
        intro d hd visited
        apply ih
        · rw [List.nodup_append]
          refine ⟨hnodup, List.nodup_singleton x, fun a ha b hb => ?_⟩
          rw [List.mem_singleton.mp hb]
          exact fun hax => hnew (hax ▸ ha)
        · apply List.append_subset.mpr ⟨hsub, ?_⟩
          intro y hy
          rw [List.mem_singleton.mp hy]
          exact hkey
        · rw [List.length_append, List.length_singleton]
          omega
        · exact hx.inv hd
        · intro y hy
          rcases List.mem_append.mp hy with hold | hlast
          · exact .head hd (hpath y hold)
          · rw [List.mem_singleton.mp hlast]
            exact .single hd
      · rw [hkeys x hkey]
        exact ⟨_, rfl⟩

/-- The search ends without a cycle exactly when every root is grounded. -/
theorem search_isOk_iff {keys : List α} (hkeys : ∀ x, x ∉ keys → targets x = []) {fuel : Nat}
    (hfuel : keys.length < fuel) {roots : List α} :
    (∃ visited, search targets fuel roots = .ok visited) ↔ ∀ x ∈ roots, Grounded targets x := by
  constructor
  · rintro ⟨visited, h⟩ x hx
    obtain ⟨hsettled, -, hall⟩ := walkAll_settled (fun h h' => walk_settled h h')
      (fun y hy => absurd hy List.not_mem_nil) h
    exact hsettled x (hall x hx).1 List.not_mem_nil
  · intro h
    apply walkAll_total
    intro x hx visited
    exact walk_total hkeys List.nodup_nil (List.nil_subset _) (by simpa using hfuel) (h x hx)
      (fun y hy => absurd hy List.not_mem_nil) visited

/-- Each node is a target of the one before it, and the last one is the first again. -/
structure IsCycle (targets : α → List α) (nodes : List α) : Prop where
  follows : nodes.IsChain fun x y => y ∈ targets x
  closes : nodes.head? = nodes.getLast?
  two_le_length : 2 ≤ nodes.length

omit [DecidableEq α] in
theorem IsCycle.transGen {nodes : List α} (h : IsCycle targets nodes) :
    ∃ x, Relation.TransGen (fun x y => y ∈ targets x) x x := by
  obtain ⟨hfollows, hcloses, hlength⟩ := h
  match nodes with
  | [] | [_] => simp at hlength
  | x :: y :: rest =>
    rw [List.isChain_cons_cons] at hfollows
    have hlast : (y :: rest).getLast (List.cons_ne_nil y rest) = x := by
      simpa [List.getLast?_eq_getLast_of_ne_nil] using hcloses.symm
    have hback := List.relationReflTransGen_of_exists_isChain_cons rest hfollows.2 hlast
    exact ⟨x, .head' hfollows.1 hback⟩

theorem exists_dropWhile_ne {x : α} {path : List α} (h : x ∈ path) :
    ∃ rest, path.dropWhile (· ≠ x) = x :: rest := by
  induction path with
  | nil => cases h
  | cons y path ih =>
    by_cases hy : y = x
    · exact ⟨path, by rw [List.dropWhile_cons_of_neg (by simpa using hy), hy]⟩
    · obtain ⟨rest, hrest⟩ := ih ((List.mem_cons.mp h).resolve_left (Ne.symm hy))
      exact ⟨rest, by rw [List.dropWhile_cons_of_pos (by simpa using hy), hrest]⟩

theorem isCycle_of_mem {x : α} {path : List α} (hx : x ∈ path)
    (hpath : (path ++ [x]).IsChain fun x y => y ∈ targets x) :
    IsCycle targets (path.dropWhile (· ≠ x) ++ [x]) := by
  obtain ⟨rest, hrest⟩ := exists_dropWhile_ne hx
  have hsuffix : path.dropWhile (· ≠ x) ++ [x] <:+ path ++ [x] := by
    obtain ⟨front, hfront⟩ := List.dropWhile_suffix (l := path) (· ≠ x)
    exact ⟨front, by rw [← List.append_assoc, hfront]⟩
  constructor
  · exact hpath.suffix hsuffix
  · rw [hrest, List.getLast?_concat]
    rfl
  · rw [hrest]
    simp

omit [DecidableEq α] in
theorem walkAll_eq_error {step : List α → α → Except (Stop α) (List α)} {visited xs : List α}
    {stop : Stop α} (h : walkAll step visited xs = .error stop) :
    ∃ x ∈ xs, ∃ visited', step visited' x = .error stop := by
  induction xs generalizing visited with
  | nil => cases h
  | cons x rest ih =>
    rw [walkAll] at h
    cases hx : step visited x with
    | error stop' =>
      rw [hx] at h
      cases h
      exact ⟨x, List.mem_cons_self, visited, hx⟩
    | ok middle =>
      rw [hx, ok_bind] at h
      obtain ⟨y, hy, hstop⟩ := ih h
      exact ⟨y, List.mem_cons_of_mem x hy, hstop⟩

/-- The walk reports only what its path and the targets really hold. -/
theorem walk_isCycle {fuel : Nat} {path visited : List α} {x : α} {nodes : List α}
    (hpath : (path ++ [x]).IsChain fun x y => y ∈ targets x)
    (h : walk targets fuel path visited x = .error (.cycle nodes)) : IsCycle targets nodes := by
  induction fuel generalizing path visited x with
  | zero => cases h
  | succ fuel ih =>
    unfold walk at h
    split at h
    · rename_i hx
      cases h
      exact isCycle_of_mem hx hpath
    · split at h
      · cases h
      · obtain ⟨d, hd, visited', hdeep⟩ := walkAll_eq_error h
        apply ih _ hdeep
        apply List.IsChain.append hpath (List.isChain_singleton d)
        intro last hlast first hfirst
        rw [List.getLast?_concat, Option.mem_some_iff] at hlast
        rw [List.head?_singleton, Option.mem_some_iff] at hfirst
        rw [← hlast, ← hfirst]
        exact hd

/-- A path has no node twice, so the nodes with targets bound how deep the walk goes. -/
theorem walk_fuel_suffices {keys : List α} (hkeys : ∀ x, x ∉ keys → targets x = []) {fuel : Nat}
    {path visited : List α} {x : α} (hnodup : path.Nodup) (hsub : path ⊆ keys)
    (hfuel : keys.length < fuel + path.length) :
    walk targets fuel path visited x ≠ .error .outOfFuel := by
  intro h
  induction fuel generalizing path visited x with
  | zero =>
    have hlength := (hnodup.subperm hsub).length_le
    omega
  | succ fuel ih =>
    unfold walk at h
    split at h
    · cases h
    · rename_i hnew
      split at h
      · cases h
      · obtain ⟨d, hd, visited', hdeep⟩ := walkAll_eq_error h
        have hx : x ∈ keys := by
          by_contra hout
          rw [hkeys x hout] at hd
          cases hd
        apply ih _ _ _ hdeep
        · simpa [List.nodup_append] using ⟨hnodup, fun y hy hyx => hnew (hyx ▸ hy)⟩
        · simpa using ⟨hsub, hx⟩
        · rw [List.length_append, List.length_singleton]
          omega

/-- With fuel for all nodes that have targets, the search returns, or reports a cycle. -/
theorem search_cases {keys : List α} (hkeys : ∀ x, x ∉ keys → targets x = []) {fuel : Nat}
    (hfuel : keys.length < fuel) (roots : List α) :
    (∃ visited, search targets fuel roots = .ok visited) ∨
      ∃ nodes, search targets fuel roots = .error (.cycle nodes) ∧ IsCycle targets nodes := by
  cases h : search targets fuel roots with
  | ok visited => exact .inl ⟨visited, rfl⟩
  | error stop =>
    obtain ⟨x, -, visited, hx⟩ := walkAll_eq_error h
    cases stop with
    | cycle nodes => exact .inr ⟨nodes, rfl, walk_isCycle (List.isChain_singleton x) hx⟩
    | outOfFuel =>
      exact absurd hx (walk_fuel_suffices hkeys List.nodup_nil (List.nil_subset _) (by simpa))

/-- From all nodes that have targets, the search reports a cycle exactly when there is one. -/
theorem search_reports_iff {keys : List α} (hkeys : ∀ x, x ∉ keys → targets x = []) {fuel : Nat}
    (hfuel : keys.length < fuel) {roots : List α} (hroots : keys ⊆ roots) :
    (∃ nodes, search targets fuel roots = .error (.cycle nodes)) ↔
      ∃ x, Relation.TransGen (fun x y => y ∈ targets x) x x := by
  constructor
  · rintro ⟨nodes, h⟩
    rcases search_cases hkeys hfuel roots with ⟨visited, hok⟩ | ⟨nodes', -, hcycle⟩
    · rw [hok] at h
      cases h
    · exact hcycle.transGen
  · rintro ⟨x, hx⟩
    rcases search_cases hkeys hfuel roots with hok | ⟨nodes, herror, -⟩
    · have hroot : x ∈ roots := by
        obtain ⟨y, hy, -⟩ := Relation.TransGen.head'_iff.mp hx
        apply hroots
        by_contra hout
        rw [hkeys x hout] at hy
        cases hy
      have hgrounded := (search_isOk_iff hkeys hfuel).mp hok x hroot
      exact absurd (Relation.transGen_swap.mp hx) hgrounded.not_cycle
    · exact ⟨nodes, herror⟩

end ProjectOS.Base.DepthFirst
