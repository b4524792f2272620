import ProjectOS.Base.ReadModifyWrite
import ProjectOS.Orchestration.Traceability

/-! Bindings made by parallel work items. Each call loads the matrix file and later
saves it, and nothing orders the calls. -/
namespace ProjectOS.Orchestration
open Base ReadModifyWrite DeliveryStore TraceabilityMatrix

/-- The calls a running work item makes. -/
inductive BindCall where
  | bindPlan (plan : ExecutionPlan)
  | bindEvidence (requirementIds : List String) (evidenceId : String) (runtime : Bool)

namespace BindCall

def operation : BindCall → StoreOperation
  | .bindPlan plan => .bindPlan plan
  | .bindEvidence requirementIds evidenceId runtime => .bindEvidence requirementIds evidenceId runtime

def additions : BindCall → Additions
  | .bindPlan plan => planAdditions plan
  | .bindEvidence requirementIds evidenceId runtime =>
      requirementIds.map fun id => (evidenceKind runtime, id, evidenceId)

variable {call : BindCall} {seen next : MatrixFile} {matrix : TraceabilityMatrix}

theorem run_ok (hload : loadMatrix seen = .ok matrix) (h : call.operation.run seen = .ok next) :
    ∃ matrix', loadMatrix next = .ok matrix' ∧ Adds call.additions matrix matrix' := by
  cases call with
  | bindPlan plan =>
    obtain ⟨matrix', hmatrix', hadds, -⟩ := StoreOperation.bindPlan_ok hload h
    exact ⟨matrix', hmatrix', hadds⟩
  | bindEvidence requirementIds evidenceId runtime =>
    obtain ⟨matrix', hmatrix', hadds, -⟩ := StoreOperation.bindEvidence_ok hload h
    exact ⟨matrix', hmatrix', hadds⟩

end BindCall

namespace BindingRace
variable {ι : Type} [DecidableEq ι] {calls : ι → BindCall} {first : TraceabilityMatrix}

/-- What a call saves, given the file it loaded; nothing when it raises. -/
def saved (calls : ι → BindCall) (i : ι) (seen : MatrixFile) : Option MatrixFile :=
  ((calls i).operation.run seen).toOption

/-- The requirements of a file are those of the first one. -/
def SameKnown (first : TraceabilityMatrix) (file : MatrixFile) : Prop :=
  ∃ matrix, loadMatrix file = .ok matrix ∧ ∀ id, id ∈ matrix.known ↔ id ∈ first.known

/-- A matrix with every addition to a requirement of the first one. -/
def Bound (first : TraceabilityMatrix) (additions : Additions) (matrix : TraceabilityMatrix) :
    Prop :=
  ∀ a ∈ additions, a.2.1 ∈ first.known → a.2.2 ∈ matrix.bound a.1 a.2.1

/-- The call's additions are in the file. -/
def Left (calls : ι → BindCall) (first : TraceabilityMatrix) (i : ι) (file : MatrixFile) : Prop :=
  ∃ matrix, loadMatrix file = .ok matrix ∧ Bound first (calls i).additions matrix

/-- What was saved since a call loaded the file, it has loaded or adds itself. -/
def Undisturbed (calls : ι → BindCall) (first : TraceabilityMatrix) (s : Shared ι MatrixFile)
    (i : ι) : Prop :=
  ∀ seen matrix, s.phase i = .holding seen → loadMatrix seen = .ok matrix →
    ∀ j, s.phase j = .written → ∀ a ∈ (calls j).additions, a.2.1 ∈ first.known →
      a.2.2 ∈ matrix.bound a.1 a.2.1 ∨ a ∈ (calls i).additions

/-- Only a save needs a condition. -/
def Permitted (calls : ι → BindCall) (first : TraceabilityMatrix) (s : Shared ι MatrixFile) :
    Action ι → Prop
  | .write i => Undisturbed calls first s i
  | _ => True

structure Consistent (calls : ι → BindCall) (first : TraceabilityMatrix)
    (s : Shared ι MatrixFile) : Prop where
  cell : SameKnown first s.cell
  held : ∀ i seen, s.phase i = .holding seen → SameKnown first seen
  visible : Visible (Left calls first) s

variable {s s' : Shared ι MatrixFile}

omit [DecidableEq ι] in
theorem saved_eq_some {i : ι} {seen next : MatrixFile} :
    saved calls i seen = some next ↔ (calls i).operation.run seen = .ok next := by
  unfold saved
  cases (calls i).operation.run seen <;> simp [Except.toOption]

omit [DecidableEq ι] in
/-- What a call saves: the matrix it loaded and its own additions. -/
theorem saved_ok {i : ι} {seen next : MatrixFile} (hseen : SameKnown first seen)
    (h : saved calls i seen = some next) :
    ∃ matrix, loadMatrix seen = .ok matrix ∧ SameKnown first next ∧
      ∀ additions, (∃ matrix', loadMatrix next = .ok matrix' ∧ Bound first additions matrix') ↔
        ∀ a ∈ additions, a.2.1 ∈ first.known →
          a.2.2 ∈ matrix.bound a.1 a.2.1 ∨ a ∈ (calls i).additions := by
  obtain ⟨matrix, hload, hknown⟩ := hseen
  obtain ⟨matrix', hload', hadds⟩ := BindCall.run_ok hload (saved_eq_some.mp h)
  refine ⟨matrix, hload, ⟨matrix', hload', fun id => (hadds.known id).trans (hknown id)⟩, ?_⟩
  intro additions
  have hmem (a : Binding × String × String) (ha : a.2.1 ∈ first.known) :
      a.2.2 ∈ matrix'.bound a.1 a.2.1 ↔
        a.2.2 ∈ matrix.bound a.1 a.2.1 ∨ a ∈ (calls i).additions := by
    rw [hadds.bound, hknown]
    exact or_congr_right (and_iff_right ha)
  constructor
  · rintro ⟨other, hother, hbound⟩ a ha hid
    cases hload'.symm.trans hother
    exact (hmem a hid).mp (hbound a ha hid)
  · exact fun hall => ⟨matrix', hload', fun a ha hid => (hmem a hid).mpr (hall a ha hid)⟩

/-- A save leaves the call's own additions, and the earlier ones exactly when it
was undisturbed. -/
theorem visible_saved_iff {i : ι} {seen next : MatrixFile} (hseen : SameKnown first seen)
    (hi : s.phase i = .holding seen) (h : saved calls i seen = some next) :
    Visible (Left calls first) (s.wrote i next) ↔ Undisturbed calls first s i := by
  obtain ⟨matrix, hload, -, hleft⟩ := saved_ok hseen h
  have hown : Left calls first i next := (hleft _).mpr fun a ha _ => .inr ha
  rw [visible_wrote_iff hown]
  constructor
  · intro hvisible held other hheld hother j hj
    cases hi.symm.trans hheld
    cases hload.symm.trans hother
    exact (hleft _).mp (hvisible j hj)
  · exact fun hundisturbed j hj => (hleft _).mpr (hundisturbed seen matrix hi hload j hj)

omit [DecidableEq ι] in
theorem consistent_start {start : MatrixFile} (h : loadMatrix start = .ok first) :
    Consistent calls first (.start ι start) :=
  ⟨⟨first, h, fun _ => Iff.rfl⟩, nofun, visible_start start⟩

theorem consistent_moved {i : ι} {phase : Phase MatrixFile} (h : Consistent calls first s)
    (hphase : phase ≠ .written) (hheld : ∀ seen, phase = .holding seen → SameKnown first seen) :
    Consistent calls first (s.moved i phase) := by
  refine ⟨h.cell, fun j seen hj => ?_, visible_moved h.visible hphase⟩
  rw [moved_phase] at hj
  split at hj
  · exact hheld seen hj
  · exact h.held j seen hj

/-- One step of one call. -/
theorem consistent_step {action : Action ι} (h : Consistent calls first s)
    (hallowed : Permitted calls first s action) (hstep : Step (saved calls) s action s') :
    Consistent calls first s' := by
  cases hstep with
  | read hidle =>
    have hheld (seen : MatrixFile) (hseen : Phase.holding s.cell = .holding seen) :
        SameKnown first seen := by
      cases hseen
      exact h.cell
    exact consistent_moved h nofun hheld
  | @write i seen next hheld hnext =>
    have hseen := h.held i seen hheld
    obtain ⟨_, -, hknown, -⟩ := saved_ok hseen hnext
    refine ⟨hknown, fun j other hj => ?_, (visible_saved_iff hseen hheld hnext).mpr hallowed⟩
    rw [wrote_phase] at hj
    split at hj
    · cases hj
    · exact h.held j other hj
  | fail hheld hnone => exact consistent_moved h nofun nofun

theorem consistent_of_run {start : MatrixFile} (hstart : loadMatrix start = .ok first)
    (h : Run (saved calls) (Permitted calls first) start s) : Consistent calls first s :=
  h.invariant (consistent_start hstart) fun _ _ _ hs hallowed hstep =>
    consistent_step hs hallowed hstep

/-- With every save undisturbed no update is lost, and the next save loses none
exactly when it is undisturbed. -/
theorem run_loses_nothing {start : MatrixFile} (hstart : loadMatrix start = .ok first)
    (h : Run (saved calls) (Permitted calls first) start s) :
    (∃ matrix, loadMatrix s.cell = .ok matrix ∧ (∀ id, id ∈ matrix.known ↔ id ∈ first.known) ∧
      ∀ i, s.phase i = .written → Bound first (calls i).additions matrix) ∧
    ∀ i s', Step (saved calls) s (.write i) s' →
      (Visible (Left calls first) s' ↔ Undisturbed calls first s i) := by
  have hconsistent := consistent_of_run hstart h
  obtain ⟨matrix, hload, hknown⟩ := hconsistent.cell
  refine ⟨⟨matrix, hload, hknown, fun i hi => ?_⟩, fun i s' hstep => ?_⟩
  · obtain ⟨other, hother, hbound⟩ := hconsistent.visible i hi
    cases hload.symm.trans hother
    exact hbound
  · cases hstep with
    | write hheld hnext => exact visible_saved_iff (hconsistent.held i _ hheld) hheld hnext

omit [DecidableEq ι] in
/-- A save of an unchanged file is undisturbed. -/
theorem undisturbed_of_unchanged {i : ι} (h : Consistent calls first s)
    (hi : s.phase i = .holding s.cell) : Undisturbed calls first s i := by
  intro seen matrix hseen hload j hj a ha hid
  cases hi.symm.trans hseen
  obtain ⟨other, hother, hbound⟩ := h.visible j hj
  cases hload.symm.trans hother
  exact .inl (hbound a ha hid)

/-- A call that loads and saves with nothing in between. -/
theorem run_alone {start next : MatrixFile} {i : ι} (hstart : loadMatrix start = .ok first)
    (h : Run (saved calls) (Permitted calls first) start s) (hi : s.phase i = .idle)
    (hnext : saved calls i s.cell = some next) :
    Run (saved calls) (Permitted calls first) start
      ((s.moved i (.holding s.cell)).wrote i next) := by
  have hread : Run (saved calls) (Permitted calls first) start (s.moved i (.holding s.cell)) := by
    refine .step h ?_ (.read hi)
    trivial
  have hholding : (s.moved i (.holding s.cell)).phase i =
      .holding (s.moved i (.holding s.cell)).cell := by
    simp
  refine .step hread ?_ (.write hholding hnext)
  exact undisturbed_of_unchanged (consistent_of_run hstart hread) hholding

open StoreOperation (criterionMatrix criterionMatrix_stored)

/-- Two test items of one requirement. -/
def twoTests : Bool → BindCall
  | false => .bindEvidence ["AC-1"] "ev-1" false
  | true => .bindEvidence ["AC-1"] "ev-2" false

theorem twoTests_saved (i : Bool) {matrix : TraceabilityMatrix} (h : matrix.Stored) :
    saved twoTests i (saveMatrix matrix) =
      some (saveMatrix (boundEvidence ["AC-1"] (if i then "ev-2" else "ev-1") false matrix)) := by
  rw [saved_eq_some]
  cases i <;>
    simp [twoTests, BindCall.operation, StoreOperation.run, bindEvidence, loadMatrix_saveMatrix h]

/-- Both load the file before either saves it. -/
theorem twoTests_lose_evidence : ∃ s, Run (saved twoTests) (fun _ _ => True)
    (saveMatrix criterionMatrix) s ∧ (∀ i, s.phase i = .written) ∧
    ∃ matrix, loadMatrix s.cell = .ok matrix ∧ "ev-1" ∉ matrix.bound .test "AC-1" := by
  have hsaved (i : Bool) := twoTests_saved i criterionMatrix_stored
  refine ⟨_, .step (.step (.step (.step .start trivial (.read (i := false) rfl)) trivial
    (.read (i := true) rfl)) trivial (.write (i := false) rfl (hsaved false))) trivial
    (.write (i := true) rfl (hsaved true)), ?_, _, loadMatrix_saveMatrix
    (boundEvidence_stored criterionMatrix_stored), by decide⟩
  intro i
  cases i <;> rfl

/-- One after the other. -/
theorem twoTests_in_turn_lose_nothing : ∃ s, (∀ i, s.phase i = .written) ∧
    (∃ matrix, loadMatrix s.cell = .ok matrix ∧
      (∀ id, id ∈ matrix.known ↔ id ∈ criterionMatrix.known) ∧
      ∀ i, s.phase i = .written → Bound criterionMatrix (twoTests i).additions matrix) ∧
    ∀ i s', Step (saved twoTests) s (.write i) s' →
      (Visible (Left twoTests criterionMatrix) s' ↔ Undisturbed twoTests criterionMatrix s i) := by
  have hload := loadMatrix_saveMatrix criterionMatrix_stored
  have hstored : (boundEvidence ["AC-1"] "ev-1" false criterionMatrix).Stored :=
    boundEvidence_stored criterionMatrix_stored
  have hfirst := run_alone hload .start rfl (twoTests_saved false criterionMatrix_stored)
  have hsecond := run_alone hload hfirst rfl (twoTests_saved true hstored)
  refine ⟨_, fun i => ?_, run_loses_nothing hload hsecond⟩
  cases i <;> rfl

end BindingRace
end ProjectOS.Orchestration
