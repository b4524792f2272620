import Mathlib.Data.List.Nodup
import Mathlib.Data.List.Perm.Subperm

/-! What lies downstream of a set of keys: the least set that contains them and
every item that depends on one of its members, found by rounds. -/
namespace ProjectOS.Base.Downstream

variable {α κ : Type} [DecidableEq κ]

/-- The items outside the set that depend on a member. -/
def descendants (key : α → κ) (deps : α → List κ) (items : List α) (changed : List κ) : List κ :=
  (items.filter fun x => key x ∉ changed && (deps x).any (· ∈ changed)).map key

/-- The rounds; the fuel bounds their number. -/
def saturate (key : α → κ) (deps : α → List κ) (items : List α) : Nat → List κ → List κ
  | 0, changed => changed
  | fuel + 1, changed =>
      if (descendants key deps items changed).isEmpty then changed
      else saturate key deps items fuel (changed ++ descendants key deps items changed)

omit [DecidableEq κ] in
/-- The least set that contains the seeds and is closed under "depends on". -/
inductive Below (key : α → κ) (deps : α → List κ) (items : List α) (seeds : List κ) : κ → Prop where
  | seed {k : κ} (h : k ∈ seeds) : Below key deps items seeds k
  | dependent {x : α} {d : κ} (hx : x ∈ items) (hd : d ∈ deps x)
      (below : Below key deps items seeds d) : Below key deps items seeds (key x)

variable {key : α → κ} {deps : α → List κ} {items : List α} {seeds changed : List κ}

theorem mem_descendants {k : κ} :
    k ∈ descendants key deps items changed ↔
      ∃ x ∈ items, key x = k ∧ k ∉ changed ∧ ∃ d ∈ deps x, d ∈ changed := by
  simp only [descendants, List.mem_map, List.mem_filter, Bool.and_eq_true, decide_eq_true_eq,
    List.any_eq_true]
  constructor
  · rintro ⟨x, ⟨hx, hfresh, hdep⟩, rfl⟩
    exact ⟨x, hx, rfl, hfresh, hdep⟩
  · rintro ⟨x, hx, rfl, hfresh, hdep⟩
    exact ⟨x, ⟨hx, hfresh, hdep⟩, rfl⟩

theorem subset_saturate (fuel : Nat) : changed ⊆ saturate key deps items fuel changed := by
  induction fuel generalizing changed with
  | zero => exact List.Subset.refl _
  | succ fuel ih =>
    unfold saturate
    split
    · exact List.Subset.refl _
    · exact List.Subset.trans (List.subset_append_left _ _) ih

/-- Each round adds only what is downstream. -/
theorem below_of_mem_saturate {fuel : Nat} (hsound : ∀ k ∈ changed, Below key deps items seeds k)
    {k : κ} (h : k ∈ saturate key deps items fuel changed) : Below key deps items seeds k := by
  induction fuel generalizing changed with
  | zero => exact hsound k h
  | succ fuel ih =>
    unfold saturate at h
    split at h
    · exact hsound k h
    · refine ih (fun k' hk' => ?_) h
      rcases List.mem_append.mp hk' with hold | hnew
      · exact hsound k' hold
      · obtain ⟨x, hx, rfl, -, d, hd, hdc⟩ := mem_descendants.mp hnew
        exact .dependent hx hd (hsound d hdc)

/-- The items whose key the rounds have still to reach. -/
def outside (key : α → κ) (items : List α) (changed : List κ) : List α :=
  items.filter fun x => key x ∉ changed

theorem outside_length_lt (h : (descendants key deps items changed).isEmpty = false) :
    (outside key items (changed ++ descendants key deps items changed)).length <
      (outside key items changed).length := by
  obtain ⟨k, hk⟩ := List.exists_mem_of_ne_nil _ (by simpa using h)
  obtain ⟨x, hx, rfl, hfresh, -⟩ := mem_descendants.mp hk
  have hsub : (outside key items (changed ++ descendants key deps items changed)).Sublist
      (outside key items changed) := by
    refine List.monotone_filter_right items fun y hy => ?_
    simp only [decide_eq_true_eq, List.mem_append, not_or] at hy ⊢
    exact hy.1
  refine Nat.lt_of_le_of_ne hsub.length_le fun heq => ?_
  have hout : x ∈ outside key items changed := by simp [outside, hx, hfresh]
  rw [← hsub.eq_of_length heq] at hout
  simp [outside, hk] at hout

/-- With a round for every item the loop ends because nothing is left to add. -/
theorem saturate_closed {fuel : Nat} (hfuel : (outside key items changed).length ≤ fuel) :
    (descendants key deps items (saturate key deps items fuel changed)).isEmpty = true := by
  induction fuel generalizing changed with
  | zero =>
    have hnil : outside key items changed = [] := List.length_eq_zero_iff.mp (by omega)
    have hin : ∀ x ∈ items, key x ∈ changed := by simpa [outside] using hnil
    rw [saturate, List.isEmpty_iff]
    refine List.eq_nil_iff_forall_not_mem.mpr fun k hk => ?_
    obtain ⟨x, hx, rfl, hfresh, -⟩ := mem_descendants.mp hk
    exact hfresh (hin x hx)
  | succ fuel ih =>
    unfold saturate
    split
    · assumption
    · rename_i hsome
      have hlt := @outside_length_lt _ _ _ key deps items changed (by simpa using hsome)
      exact ih (by omega)

/-- The loop computes the set downstream of its seeds. -/
theorem mem_saturate_iff {fuel : Nat} (hfuel : items.length ≤ fuel) {k : κ} :
    k ∈ saturate key deps items fuel seeds ↔ Below key deps items seeds k := by
  constructor
  · exact below_of_mem_saturate fun k' hk' => .seed hk'
  · intro h
    induction h with
    | seed hk => exact subset_saturate fuel hk
    | @dependent x d hx hd _ ih =>
      have hclosed := @saturate_closed _ _ _ key deps items seeds fuel
        (Nat.le_trans (List.length_filter_le (fun x => decide (key x ∉ seeds)) items) hfuel)
      by_contra hfresh
      have hmem := mem_descendants.mpr ⟨x, hx, rfl, hfresh, d, hd, ih⟩
      rw [List.isEmpty_iff.mp hclosed] at hmem
      cases hmem

omit [DecidableEq κ] in
theorem Below.mono {seeds' : List κ} (hseeds : ∀ k ∈ seeds, k ∈ seeds') {k : κ}
    (h : Below key deps items seeds k) : Below key deps items seeds' k := by
  induction h with
  | seed hk => exact .seed (hseeds _ hk)
  | dependent hx hd _ ih => exact .dependent hx hd ih

omit [DecidableEq κ] in
/-- Seeds that nothing outside depends on only add themselves. -/
theorem below_append_iff {gone : List κ}
    (hgone : ∀ x ∈ items, ∀ d ∈ deps x, d ∈ gone → Below key deps items seeds d) {k : κ} :
    Below key deps items (gone ++ seeds) k ↔ k ∈ gone ∨ Below key deps items seeds k := by
  constructor
  · intro h
    induction h with
    | seed hk =>
      rcases List.mem_append.mp hk with hk | hk
      · exact .inl hk
      · exact .inr (.seed hk)
    | @dependent x d hx hd _ ih =>
      rcases ih with hgone' | hbelow
      · exact .inr (.dependent hx hd (hgone x hx d hd hgone'))
      · exact .inr (.dependent hx hd hbelow)
  · rintro (hk | hk)
    · exact .seed (List.mem_append_left _ hk)
    · exact hk.mono fun _ => List.mem_append_right _

end ProjectOS.Base.Downstream
