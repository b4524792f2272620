import Mathlib.Data.List.Forall2
import Mathlib.Data.List.Nodup

/-! Guards and loops of a validating constructor, read back as propositions.
A `raise` is an `Except` error; the lemmas below turn a successful run of a
sequence of guards into the conjunction of the facts it checked. -/
namespace ProjectOS.Base

/-- `if cond: raise error`. -/
def raiseIf (cond : Bool) (error : ε) : Except ε Unit :=
  if cond then .error error else .ok ()

@[simp] theorem raiseIf_eq_ok {cond : Bool} {error : ε} {u : Unit} :
    raiseIf cond error = .ok u ↔ cond = false := by
  cases cond <;> simp [raiseIf]

@[simp] theorem raiseIf_false (error : ε) : raiseIf false error = .ok () := rfl

@[simp] theorem raiseIf_true (error : ε) : raiseIf true error = .error error := rfl

theorem bind_eq_ok {x : Except ε α} {f : α → Except ε β} {b : β} :
    x >>= f = .ok b ↔ ∃ a, x = .ok a ∧ f a = .ok b := by
  cases x with
  | error e => simp [bind, Except.bind]
  | ok a => simp [bind, Except.bind]

theorem map_eq_ok {x : Except ε α} {f : α → β} {b : β} :
    x.map f = .ok b ↔ ∃ a, x = .ok a ∧ f a = b := by
  cases x with
  | error e => simp [Except.map]
  | ok a => simp [Except.map]

theorem bind_eq_error {x : Except ε α} {f : α → Except ε β} {e : ε} :
    x >>= f = .error e ↔ x = .error e ∨ ∃ a, x = .ok a ∧ f a = .error e := by
  cases x <;> simp [bind, Except.bind]

theorem check_bind_eq_ok {x : Except ε Unit} {f : Unit → Except ε β} {b : β} :
    x >>= f = .ok b ↔ x = .ok () ∧ f () = .ok b := by
  cases x <;> simp [bind, Except.bind]

@[simp] theorem raiseIf_bind_eq_ok {cond : Bool} {error : ε} {f : Unit → Except ε β} {b : β} :
    raiseIf cond error >>= f = .ok b ↔ cond = false ∧ f () = .ok b := by
  cases cond <;> simp [raiseIf, bind, Except.bind]

@[simp] theorem ok_bind (a : α) (f : α → Except ε β) : (Except.ok a >>= f) = f a := rfl

@[simp] theorem error_bind (e : ε) (f : α → Except ε β) : (Except.error e >>= f) = .error e := rfl

@[simp] theorem pure_eq_ok (a : α) : (pure a : Except ε α) = .ok a := rfl

theorem exists_of_isOk {x : Except ε α} (h : x.isOk = true) : ∃ a, x = .ok a := by
  cases x with
  | error => cases h
  | ok a => exact ⟨a, rfl⟩

/-- `for x in xs: body(x)`. -/
def forEach (body : α → Except ε Unit) : List α → Except ε Unit
  | [] => .ok ()
  | x :: xs => do body x; forEach body xs

@[simp] theorem forEach_nil (body : α → Except ε Unit) : forEach body [] = .ok () := rfl

theorem forEach_congr {body body' : α → Except ε Unit} {xs : List α}
    (h : ∀ x ∈ xs, body x = body' x) : forEach body xs = forEach body' xs := by
  induction xs with
  | nil => rfl
  | cons x xs ih =>
    unfold forEach
    rw [h x List.mem_cons_self, ih fun y hy => h y (List.mem_cons_of_mem _ hy)]

theorem forEach_eq_ok {body : α → Except ε Unit} {xs : List α} {u : Unit} :
    forEach body xs = .ok u ↔ ∀ x ∈ xs, body x = .ok () := by
  induction xs with
  | nil => simp
  | cons x xs ih =>
    simp only [forEach, bind_eq_ok, ih, List.mem_cons, forall_eq_or_imp]
    constructor
    · rintro ⟨_, hx, hxs⟩
      exact ⟨hx, hxs⟩
    · rintro ⟨hx, hxs⟩
      exact ⟨(), hx, hxs⟩

/-- `tuple(f(x) for x in xs)`, stopping at the first error. -/
def collect (f : α → Except ε β) : List α → Except ε (List β)
  | [] => .ok []
  | x :: xs => do
      let y ← f x
      let ys ← collect f xs
      .ok (y :: ys)

theorem collect_eq_ok {f : α → Except ε β} {xs : List α} {ys : List β} :
    collect f xs = .ok ys ↔ List.Forall₂ (fun x y => f x = .ok y) xs ys := by
  induction xs generalizing ys with
  | nil => simp [collect, eq_comm]
  | cons x xs ih =>
    simp only [collect, bind_eq_ok, List.forall₂_cons_left_iff, ← ih]
    constructor
    · rintro ⟨y, hy, zs, hzs, h⟩
      exact ⟨y, zs, hy, hzs, (Except.ok.inj h).symm⟩
    · rintro ⟨y, zs, hy, hzs, rfl⟩
      exact ⟨y, hy, zs, hzs, rfl⟩

theorem collect_isOk_iff {f : α → Except ε β} {xs : List α} :
    (∃ ys, collect f xs = .ok ys) ↔ ∀ x ∈ xs, ∃ y, f x = .ok y := by
  induction xs with
  | nil => simp [collect]
  | cons x xs ih =>
    simp only [collect, bind_eq_ok, List.mem_cons, forall_eq_or_imp, ← ih]
    constructor
    · rintro ⟨_, y, hy, ys, hys, _⟩
      exact ⟨⟨y, hy⟩, ys, hys⟩
    · rintro ⟨⟨y, hy⟩, ys, hys⟩
      exact ⟨y :: ys, y, hy, ys, hys, rfl⟩

theorem collect_pure (g : α → β) (xs : List α) :
    collect (ε := ε) (fun x => .ok (g x)) xs = .ok (xs.map g) := by
  induction xs with
  | nil => rfl
  | cons x xs ih => simp [collect, ih]

theorem length_of_collect {f : α → Except ε β} {xs : List α} {ys : List β}
    (h : collect f xs = .ok ys) : ys.length = xs.length :=
  (collect_eq_ok.mp h).length_eq.symm

theorem exists_left_of_forall₂ {R : α → β → Prop} {xs : List α} {ys : List β}
    (h : List.Forall₂ R xs ys) {y : β} (hy : y ∈ ys) : ∃ x ∈ xs, R x y := by
  induction h with
  | nil => cases hy
  | @cons x y' xs ys hxy hrest ih =>
    rcases List.mem_cons.mp hy with rfl | hmem
    · exact ⟨x, List.mem_cons_self, hxy⟩
    · obtain ⟨x', hx', hr⟩ := ih hmem
      exact ⟨x', List.mem_cons_of_mem _ hx', hr⟩

theorem exists_right_of_forall₂ {R : α → β → Prop} {xs : List α} {ys : List β}
    (h : List.Forall₂ R xs ys) {x : α} (hx : x ∈ xs) : ∃ y ∈ ys, R x y :=
  exists_left_of_forall₂ h.flip hx

theorem mem_of_collect {f : α → Except ε β} {xs : List α} {ys : List β}
    (h : collect f xs = .ok ys) {y : β} (hy : y ∈ ys) : ∃ x ∈ xs, f x = .ok y :=
  exists_left_of_forall₂ (collect_eq_ok.mp h) hy

theorem collect_mem {f : α → Except ε β} {xs : List α} {ys : List β}
    (h : collect f xs = .ok ys) {x : α} (hx : x ∈ xs) : ∃ y ∈ ys, f x = .ok y :=
  exists_right_of_forall₂ (collect_eq_ok.mp h) hx

/-- A list built elementwise has the projections its elements were given. -/
theorem map_of_collect {f : α → Except ε β} {xs : List α} {ys : List β}
    (h : collect f xs = .ok ys) {p : β → γ} {q : α → γ}
    (hpq : ∀ x y, f x = .ok y → p y = q x) : ys.map p = xs.map q := by
  have hall := collect_eq_ok.mp h
  clear h
  induction hall with
  | nil => rfl
  | cons hxy _ ih => simp [hpq _ _ hxy, ih]

/-- Reading back what was written elementwise. -/
theorem collect_map_eq_self_iff {f : β → Except ε α} {g : α → β} {xs : List α} :
    collect f (xs.map g) = .ok xs ↔ ∀ x ∈ xs, f (g x) = .ok x := by
  rw [collect_eq_ok, List.forall₂_map_left_iff, List.forall₂_same]

end ProjectOS.Base
