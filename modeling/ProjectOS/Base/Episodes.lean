import Mathlib.Data.List.Count

/-! A log in which some entries open an episode and others close it. Episode `k`
is what stands between the `k`-th opening and the next one; episode 0 comes before
the first. -/
namespace ProjectOS.Base.Episodes

variable (opens closes : α → Bool)

def opened (log : List α) : Nat := log.countP opens

/-- The closings inside episode `k`. -/
def closedIn : Nat → List α → Nat
  | _, [] => 0
  | 0, entry :: log =>
      if opens entry then 0 else (if closes entry then 1 else 0) + closedIn 0 log
  | k + 1, entry :: log => if opens entry then closedIn k log else closedIn (k + 1) log

/-- The closings since the last opening. -/
def closedLast (log : List α) : Nat := closedIn opens closes (opened opens log) log

variable {opens closes} {log before window : List α} {k : Nat}

theorem opened_append (before window : List α) :
    opened opens (before ++ window) = opened opens before + opened opens window :=
  List.countP_append

theorem opened_cons_of_opens {entry : α} (h : opens entry = true) (log : List α) :
    opened opens (entry :: log) = opened opens log + 1 :=
  List.countP_cons_of_pos h

theorem opened_cons_of_not {entry : α} (h : opens entry = false) (log : List α) :
    opened opens (entry :: log) = opened opens log :=
  List.countP_cons_of_neg (by simp [h])

theorem opened_eq_zero_iff : opened opens log = 0 ↔ ∀ entry ∈ log, opens entry = false := by
  simp [opened, List.countP_eq_zero]

/-- An episode of a log that continues takes part in both halves only if it is the
last of the first half. -/
theorem closedIn_append (k : Nat) (before window : List α) :
    closedIn opens closes k (before ++ window) = closedIn opens closes k before +
      if opened opens before ≤ k then closedIn opens closes (k - opened opens before) window
      else 0 := by
  induction before generalizing k with
  | nil => cases window <;> simp [closedIn, opened]
  | cons entry before ih =>
    rw [List.cons_append]
    by_cases hopens : opens entry = true
    · rw [opened_cons_of_opens hopens]
      cases k with
      | zero => simp [closedIn, hopens]
      | succ k => simp [closedIn, hopens, ih]
    · rw [Bool.not_eq_true] at hopens
      rw [opened_cons_of_not hopens]
      cases k with
      | zero =>
        simp only [closedIn, hopens, Bool.false_eq_true, if_false, ih]
        omega
      | succ k => simp [closedIn, hopens, ih]

theorem closedIn_of_opened_lt (h : opened opens log < k) : closedIn opens closes k log = 0 := by
  induction log generalizing k with
  | nil => cases k <;> rfl
  | cons entry log ih =>
    obtain _ | k := k
    · omega
    by_cases hopens : opens entry = true
    · rw [opened_cons_of_opens hopens] at h
      rw [closedIn, if_pos hopens]
      exact ih (by omega)
    · rw [Bool.not_eq_true] at hopens
      rw [opened_cons_of_not hopens] at h
      rw [closedIn, hopens, if_neg Bool.false_ne_true]
      exact ih h

/-- An episode that is over keeps its closings. -/
theorem closedIn_append_of_lt (h : k < opened opens before) (window : List α) :
    closedIn opens closes k (before ++ window) = closedIn opens closes k before := by
  rw [closedIn_append, if_neg (by omega), Nat.add_zero]

/-- A continuation that opens nothing adds its closings to the last episode. -/
theorem closedIn_zero_of_opened (h : opened opens window = 0) :
    closedIn opens closes 0 window = window.countP closes := by
  induction window with
  | nil => rfl
  | cons entry window ih =>
    have hentry : opens entry = false := opened_eq_zero_iff.mp h entry List.mem_cons_self
    rw [opened_cons_of_not hentry] at h
    rw [closedIn, hentry, if_neg Bool.false_ne_true, ih h, List.countP_cons]
    omega

theorem closedLast_append_of_quiet (h : opened opens window = 0) :
    closedLast opens closes (before ++ window) =
      closedLast opens closes before + window.countP closes := by
  unfold closedLast
  rw [opened_append, h, Nat.add_zero, closedIn_append, if_pos (Nat.le_refl _), Nat.sub_self,
    closedIn_zero_of_opened h]

/-- The episode that an opening ends has what was closed in it by then. -/
theorem closedIn_append_opening {entry : α} (h : opened opens window = 0)
    (hentry : opens entry = true) :
    closedIn opens closes (opened opens before) (before ++ (window ++ [entry])) =
      closedLast opens closes before + window.countP closes := by
  have hwindow : closedIn opens closes 0 window = window.countP closes := closedIn_zero_of_opened h
  rw [closedIn_append, if_pos (Nat.le_refl _), Nat.sub_self, closedIn_append, if_pos (by omega), h,
    Nat.sub_zero, hwindow]
  simp [closedLast, closedIn, hentry]

theorem closedLast_append_opening {entry : α} (h : opens entry = true) :
    closedLast opens closes (before ++ [entry]) = 0 := by
  unfold closedLast
  rw [opened_append, closedIn_append, if_pos (by omega),
    closedIn_of_opened_lt (by rw [opened_cons_of_opens h]; omega), opened_cons_of_opens h,
    show opened opens before + (opened opens [] + 1) - opened opens before = 1 from by
      simp [opened]]
  simp [closedIn, h]

/-- The end of a log in which an episode opens shows the last one whole: if that is
closed, so is it there. -/
theorem exists_closes_of_opens (hopen : ∃ entry ∈ window, opens entry = true)
    (hclosed : closedLast opens closes (before ++ window) ≠ 0) :
    ∃ entry ∈ window, closes entry = true := by
  by_contra hnone
  push Not at hnone
  have hcount : ∀ k, closedIn opens closes k window = 0 := by
    clear hopen hclosed
    induction window with
    | nil => intro k; cases k <;> rfl
    | cons entry window ih =>
      have hrest := ih fun e he => hnone e (List.mem_cons_of_mem _ he)
      intro k
      have hentry := hnone entry List.mem_cons_self
      cases k <;> simp [closedIn, hentry, hrest]
  have hpos : 0 < opened opens window := by
    obtain ⟨entry, hmem, hopens⟩ := hopen
    exact List.countP_pos_iff.mpr ⟨entry, hmem, hopens⟩
  apply hclosed
  unfold closedLast
  rw [opened_append, closedIn_append, hcount, ite_self, Nat.add_zero]
  exact closedIn_of_opened_lt (by omega)

end ProjectOS.Base.Episodes
