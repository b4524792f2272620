import Mathlib.Logic.Function.Basic

/-! Callers that read one shared cell and later write what they computed from it,
in any interleaving. A write forgets what was written since its own read. -/
namespace ProjectOS.Base.ReadModifyWrite

inductive Phase (σ : Type) where
  | idle
  | holding (seen : σ)
  | written
  | failed

structure Shared (ι σ : Type) where
  cell : σ
  phase : ι → Phase σ

def Shared.start (ι : Type) {σ : Type} (cell : σ) : Shared ι σ := ⟨cell, fun _ => .idle⟩

inductive Action (ι : Type) where
  | read (i : ι)
  | write (i : ι)
  | fail (i : ι)

variable {ι σ : Type} [DecidableEq ι]

def Shared.moved (s : Shared ι σ) (i : ι) (phase : Phase σ) : Shared ι σ :=
  ⟨s.cell, Function.update s.phase i phase⟩

def Shared.wrote (s : Shared ι σ) (i : ι) (next : σ) : Shared ι σ :=
  ⟨next, Function.update s.phase i .written⟩

@[simp] theorem moved_cell (s : Shared ι σ) (i : ι) (phase : Phase σ) :
    (s.moved i phase).cell = s.cell := rfl

@[simp] theorem wrote_cell (s : Shared ι σ) (i : ι) (next : σ) : (s.wrote i next).cell = next := rfl

@[simp] theorem moved_phase (s : Shared ι σ) (i j : ι) (phase : Phase σ) :
    (s.moved i phase).phase j = if j = i then phase else s.phase j := Function.update_apply ..

@[simp] theorem wrote_phase (s : Shared ι σ) (i j : ι) (next : σ) :
    (s.wrote i next).phase j = if j = i then .written else s.phase j := Function.update_apply ..

/-- A call reads the cell once and writes once, or fails on what it read. -/
inductive Step (compute : ι → σ → Option σ) (s : Shared ι σ) : Action ι → Shared ι σ → Prop where
  | read {i : ι} (h : s.phase i = .idle) : Step compute s (.read i) (s.moved i (.holding s.cell))
  | write {i : ι} {seen next : σ} (h : s.phase i = .holding seen)
      (hnext : compute i seen = some next) :
      Step compute s (.write i) (s.wrote i next)
  | fail {i : ι} {seen : σ} (h : s.phase i = .holding seen) (hnone : compute i seen = none) :
      Step compute s (.fail i) (s.moved i .failed)

/-- The states that permitted steps reach. -/
inductive Run (compute : ι → σ → Option σ) (permitted : Shared ι σ → Action ι → Prop) (cell : σ) :
    Shared ι σ → Prop where
  | start : Run compute permitted cell (.start ι cell)
  | step {s s' : Shared ι σ} {action : Action ι} (previous : Run compute permitted cell s)
      (allowed : permitted s action) (next : Step compute s action s') :
      Run compute permitted cell s'

/-- What each finished caller left in the cell is still there. -/
def Visible (left : ι → σ → Prop) (s : Shared ι σ) : Prop :=
  ∀ i, s.phase i = .written → left i s.cell

variable {compute : ι → σ → Option σ} {left : ι → σ → Prop} {s s' : Shared ι σ}

/-- The invariant rule: a fact of the start that permitted steps keep. -/
theorem Run.invariant {permitted : Shared ι σ → Action ι → Prop} {cell : σ}
    {invariant : Shared ι σ → Prop} (hstart : invariant (.start ι cell))
    (hstep : ∀ s action s', invariant s → permitted s action → Step compute s action s' →
      invariant s') (h : Run compute permitted cell s) : invariant s := by
  induction h with
  | start => exact hstart
  | step _ hallowed hnext ih => exact hstep _ _ _ ih hallowed hnext

omit [DecidableEq ι] in
theorem visible_start (cell : σ) : Visible left (.start ι cell) := nofun

theorem visible_moved {phase : Phase σ} {i : ι} (h : Visible left s) (hphase : phase ≠ .written) :
    Visible left (s.moved i phase) := by
  intro j hj
  rw [moved_phase] at hj
  split at hj
  · exact absurd hj hphase
  · exact h j hj

/-- After a write everything is visible when the writer's own update is and the
earlier ones are in what it wrote. -/
theorem visible_wrote_iff {i : ι} {next : σ} (hown : left i next) :
    Visible left (s.wrote i next) ↔ ∀ j, s.phase j = .written → left j next := by
  constructor
  · intro h j hj
    apply h j
    rw [wrote_phase, hj, ite_self]
  · intro h j hj
    rw [wrote_phase] at hj
    split at hj
    · rename_i hij
      exact hij ▸ hown
    · exact h j hj

end ProjectOS.Base.ReadModifyWrite
