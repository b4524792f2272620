import ProjectOS.Orchestration.WorkerProgress

/-! What holds of the monitoring snapshot after every run of its operations. -/
namespace ProjectOS.Orchestration
open Base WorkerProgressStore

/-- The stored snapshot, with the work items that the last finalization left closed and that
no new attempt has taken up since. -/
structure Monitor where
  stored : Option Snapshot := none
  closed : List String := []

/-- A tracker records this event when it takes up a work item. -/
def ItemActivity.startsAttempt (given : ItemActivity) : Bool := given.eventType = "work_item_started"

def terminalItems (stored : Option Snapshot) : List String :=
  match stored with
  | none => []
  | some snapshot =>
      (snapshot.workItems.entries.filter fun entry => entry.2.lifecycle = .terminal).map Prod.fst

namespace Monitor
variable (monitor : Monitor)

def closedAfter (stored : Option Snapshot) : MonitorOperation → List String
  | .startRun _ _ => []
  | .recordActivity given =>
      if given.startsAttempt then monitor.closed.filter (· ≠ given.workItemId) else monitor.closed
  | .finalizeRun _ _ _ => terminalItems stored
  | _ => monitor.closed

def step (now : Nat) (operation : MonitorOperation) : Monitor :=
  let stored := operation.apply monitor.stored now
  ⟨stored, monitor.closedAfter stored operation⟩

/-- The sequence number of the run. -/
def sequence : Nat := (monitor.stored.map (·.run.sequence)).getD 0

end Monitor

/-- The lists of a batch are disjoint and name its members. -/
structure Partitioned (expected completed failed interrupted : List String) : Prop where
  completed_failed : ∀ id ∈ completed, id ∉ failed
  completed_interrupted : ∀ id ∈ completed, id ∉ interrupted
  failed_interrupted : ∀ id ∈ failed, id ∉ interrupted
  members : ∀ id ∈ completed ++ failed ++ interrupted, id ∈ expected

def BatchProgress.Sound (batch : BatchProgress) : Prop :=
  Partitioned batch.expectedWorkItemIds batch.completedWorkItemIds batch.failedWorkItemIds
    batch.interruptedWorkItemIds

/-- The active batch is open, closed batches divide their members, and closed items stay closed. -/
structure Consistent (monitor : Monitor) : Prop where
  active : ∀ snapshot, monitor.stored = some snapshot → ∀ batchId,
    snapshot.run.activeBatchId = some batchId →
      ∃ batch, snapshot.batches.get? batchId = some batch ∧ batch.lifecycle ≠ .terminal
  batches : ∀ snapshot, monitor.stored = some snapshot → ∀ batchId batch,
    snapshot.batches.get? batchId = some batch → batch.lifecycle = .terminal → batch.Sound
  closed : ∀ id ∈ monitor.closed, ∃ snapshot item, monitor.stored = some snapshot ∧
    snapshot.workItems.get? id = some item ∧ item.lifecycle = .terminal

/-- A batch is finished with disjoint lists of its members. A run with an active batch is
finalized with a root if items are open, and the root and the open items are members of the
batch. A closed item is only recorded as terminal, or by a new attempt. -/
def Permitted (monitor : Monitor) : MonitorOperation → Prop
  | .finishBatch batchId result => ∀ snapshot batch, monitor.stored = some snapshot →
      snapshot.batches.get? batchId = some batch →
      Partitioned batch.expectedWorkItemIds result.completed result.failed result.interrupted
  | .finalizeRun _ _ root => ∀ snapshot batchId batch, monitor.stored = some snapshot →
      snapshot.run.activeBatchId = some batchId → snapshot.batches.get? batchId = some batch →
      batchId ≠ "" → (∀ id ∈ activeItems snapshot.workItems, id ∈ batch.expectedWorkItemIds) ∧
        ((root = none ∨ root = some "") → activeItems snapshot.workItems = []) ∧
        ∀ id, root = some id → id ≠ "" → id ∈ batch.expectedWorkItemIds
  | .recordActivity given => given.workItemId ∈ monitor.closed →
      given.lifecycle = .terminal ∨ given.startsAttempt = true
  | _ => True

/-- The monitors after permitted operations, from no file. -/
inductive MonitorReached : Monitor → Prop
  | start : MonitorReached {}
  | step {monitor : Monitor} {operation : MonitorOperation} (now : Nat)
      (previous : MonitorReached monitor) (permitted : Permitted monitor operation) :
      MonitorReached (monitor.step now operation)

/-- The invariant of one snapshot; an open batch has completed nothing yet. -/
structure Healthy (snapshot : Snapshot) (closed : List String) : Prop where
  active : ∀ batchId, snapshot.run.activeBatchId = some batchId →
    ∃ batch, snapshot.batches.get? batchId = some batch ∧ batch.lifecycle ≠ .terminal
  batches : ∀ batchId batch, snapshot.batches.get? batchId = some batch →
    batch.lifecycle = .terminal → batch.Sound
  waiting : ∀ batchId batch, snapshot.batches.get? batchId = some batch →
    batch.lifecycle ≠ .terminal → batch.completedWorkItemIds = []
  closed : ∀ id ∈ closed, ∃ item, snapshot.workItems.get? id = some item ∧
    item.lifecycle = .terminal

namespace Healthy
variable {snapshot : Snapshot} {closed : List String} {now : Nat}

theorem fresh {snapshot : Snapshot} (hactive : snapshot.run.activeBatchId = none)
    (hbatches : snapshot.batches = ∅) : Healthy snapshot [] := by
  constructor
  · intro batchId hbatch
    rw [hactive] at hbatch
    cases hbatch
  · intro batchId batch hbatch
    rw [hbatches, Dict.get?_empty] at hbatch
    cases hbatch
  · intro batchId batch hbatch
    rw [hbatches, Dict.get?_empty] at hbatch
    cases hbatch
  · exact fun id hid => absurd hid List.not_mem_nil

/-- Of the run only the active batch matters. -/
theorem withRun (h : Healthy snapshot closed) {run : RunProgress}
    (hactive : run.activeBatchId = snapshot.run.activeBatchId) :
    Healthy { snapshot with run := run } closed :=
  ⟨fun batchId hbatch => h.active batchId (hactive ▸ hbatch), h.batches, h.waiting, h.closed⟩

theorem ensureRun (h : Healthy snapshot closed) :
    Healthy (WorkerProgressStore.ensureRun (some snapshot) now) closed := by
  unfold WorkerProgressStore.ensureRun
  dsimp only
  split
  · exact h.withRun rfl
  · exact h

theorem setRunState (h : Healthy snapshot closed) (lifecycle : ExecutionLifecycle)
    (eventType : String) (activity : ExecutionActivity) (outcome : Option ExecutionOutcome)
    (workerProcessState : Option String) :
    Healthy (WorkerProgressStore.setRunState snapshot now lifecycle eventType activity outcome
      workerProcessState) closed := by
  unfold WorkerProgressStore.setRunState
  apply h.withRun
  dsimp only
  split <;> rfl

theorem startBatch (h : Healthy snapshot closed) (batchId : String) (workItemIds : List String) :
    Healthy (WorkerProgressStore.startBatch snapshot now batchId workItemIds) closed := by
  constructor
  · intro other hother
    cases hother
    refine ⟨_, by rw [WorkerProgressStore.startBatch, Dict.get?_set, if_pos rfl], ?_⟩
    exact ExecutionLifecycle.noConfusion
  · intro other batch hbatch hterminal
    rw [WorkerProgressStore.startBatch, Dict.get?_set] at hbatch
    split at hbatch
    · cases hbatch
      cases hterminal
    · exact h.batches other batch hbatch hterminal
  · intro other batch hbatch hopen
    rw [WorkerProgressStore.startBatch, Dict.get?_set] at hbatch
    split at hbatch
    · cases hbatch
      rfl
    · exact h.waiting other batch hbatch hopen
  · exact h.closed

/-- One batch becomes terminal and is active no more. -/
theorem endBatch (h : Healthy snapshot closed) {batchId : String} {batch : BatchProgress}
    {run : RunProgress} (hterminal : batch.lifecycle = .terminal) (hsound : batch.Sound)
    (hactive : ∀ other, run.activeBatchId = some other →
      other ≠ batchId ∧ snapshot.run.activeBatchId = some other) :
    Healthy { snapshot with batches := snapshot.batches.set batchId batch, run := run } closed := by
  constructor
  · intro other hother
    obtain ⟨hne, hbefore⟩ := hactive other hother
    obtain ⟨before, hget, hopen⟩ := h.active other hbefore
    exact ⟨before, by rw [Dict.get?_set, if_neg hne, hget], hopen⟩
  · intro other stored hstored hended
    rw [Dict.get?_set] at hstored
    split at hstored
    · cases hstored
      exact hsound
    · exact h.batches other stored hstored hended
  · intro other stored hstored hopen
    rw [Dict.get?_set] at hstored
    split at hstored
    · cases hstored
      exact absurd hterminal hopen
    · exact h.waiting other stored hstored hopen
  · exact h.closed

theorem finishBatch (h : Healthy snapshot closed) {batchId : String} {result : BatchResult}
    (hresult : ∀ batch, snapshot.batches.get? batchId = some batch →
      Partitioned batch.expectedWorkItemIds result.completed result.failed result.interrupted) :
    Healthy (WorkerProgressStore.finishBatch snapshot now batchId result) closed := by
  unfold WorkerProgressStore.finishBatch
  cases hbatch : snapshot.batches.get? batchId with
  | none => exact h
  | some batch =>
    refine h.endBatch rfl ?_ ?_
    · exact hresult batch hbatch
    · intro other hother
      split at hother
      · cases hother
      · rename_i hne
        refine ⟨?_, hother⟩
        rintro rfl
        exact hne hother

theorem recordActivity (h : Healthy snapshot closed) {given : ItemActivity}
    (hgiven : given.workItemId ∈ closed → given.lifecycle = .terminal) :
    Healthy (recordWorkItemActivity snapshot now given) closed := by
  refine ⟨h.active, h.batches, h.waiting, ?_⟩
  intro id hid
  obtain ⟨item, hitem, hterminal⟩ := h.closed id hid
  by_cases hsame : id = given.workItemId
  · subst hsame
    refine ⟨_, by rw [recordWorkItemActivity, Dict.get?_set, if_pos rfl], ?_⟩
    exact hgiven hid
  · exact ⟨item, by rw [recordWorkItemActivity, Dict.get?_set, if_neg hsame, hitem], hterminal⟩

theorem mono (h : Healthy snapshot closed) {fewer : List String} (hsub : fewer ⊆ closed) :
    Healthy snapshot fewer :=
  ⟨h.active, h.batches, h.waiting, fun id hid => h.closed id (hsub hid)⟩

theorem interruptBatch_sound {batch : BatchProgress} {outcome : ExecutionOutcome}
    {root : Option String} {active : List String} (hcompleted : batch.completedWorkItemIds = [])
    (hmembers : ∀ id ∈ active, id ∈ batch.expectedWorkItemIds)
    (hroot : root = none ∨ root = some "" → active = [])
    (hmember : ∀ id, root = some id → id ≠ "" → id ∈ batch.expectedWorkItemIds) :
    (interruptBatch now outcome root active batch).Sound := by
  have hnone : active = [] → Partitioned batch.expectedWorkItemIds [] active
      (active.filter fun id => some id ≠ root) := by
    rintro rfl
    constructor <;> simp
  unfold BatchProgress.Sound interruptBatch
  rw [hcompleted]
  cases root with
  | none => exact hnone (hroot (.inl rfl))
  | some id =>
    by_cases hempty : id = ""
    · subst hempty
      exact hnone (hroot (.inr rfl))
    · simp only [if_neg hempty]
      constructor
      · exact fun _ hid => absurd hid List.not_mem_nil
      · exact fun _ hid => absurd hid List.not_mem_nil
      · intro other hother
        rw [List.mem_singleton.mp hother]
        simp
      · intro other hother
        simp only [List.nil_append, List.cons_append, List.mem_cons, List.mem_filter] at hother
        rcases hother with rfl | ⟨hactive, -⟩
        · exact hmember other rfl hempty
        · exact hmembers other hactive

theorem ofTerminal (h : Healthy snapshot []) :
    Healthy snapshot (terminalItems (some snapshot)) := by
  refine ⟨h.active, h.batches, h.waiting, ?_⟩
  intro id hid
  obtain ⟨⟨other, item⟩, hmem, rfl⟩ := List.mem_map.mp hid
  rw [List.mem_filter, decide_eq_true_eq] at hmem
  exact ⟨item, Dict.get?_eq_some_iff.mpr hmem.1, hmem.2⟩

theorem finalizeRun (h : Healthy snapshot closed) {outcome : ExecutionOutcome} {event : String}
    {root : Option String}
    (hroot : ∀ batchId batch, snapshot.run.activeBatchId = some batchId →
      snapshot.batches.get? batchId = some batch → batchId ≠ "" →
      (∀ id ∈ activeItems snapshot.workItems, id ∈ batch.expectedWorkItemIds) ∧
        (root = none ∨ root = some "" → activeItems snapshot.workItems = []) ∧
        ∀ id, root = some id → id ≠ "" → id ∈ batch.expectedWorkItemIds) :
    Healthy (WorkerProgressStore.finalizeRun snapshot now outcome event root).1
      (terminalItems (some (WorkerProgressStore.finalizeRun snapshot now outcome event root).1)) := by
  apply ofTerminal
  have hitems : Healthy { snapshot with
      workItems := closeItems snapshot.workItems now outcome root } [] :=
    ⟨h.active, h.batches, h.waiting, fun _ hid => absurd hid List.not_mem_nil⟩
  unfold WorkerProgressStore.finalizeRun
  dsimp only
  cases hactive : snapshot.run.activeBatchId with
  | none => exact hitems.withRun hactive.symm
  | some batchId =>
    obtain ⟨batch, hbatch, hopen⟩ := h.active batchId hactive
    dsimp only
    rw [hbatch]
    dsimp only
    split
    · exact hitems.withRun hactive.symm
    · rename_i hnamed
      obtain ⟨hmembers, hnone, hmember⟩ := hroot batchId batch hactive hbatch hnamed
      refine hitems.endBatch rfl ?_ nofun
      exact interruptBatch_sound (h.waiting batchId batch hbatch hopen) hmembers hnone hmember

end Healthy

/-- Before the first operation there is no snapshot, and nothing is closed. -/
def Monitor.Healthy (monitor : Monitor) : Prop :=
  match monitor.stored with
  | none => monitor.closed = []
  | some snapshot => Orchestration.Healthy snapshot monitor.closed

namespace Monitor.Healthy
variable {monitor : Monitor}

theorem current (h : monitor.Healthy) (now : Nat) :
    Orchestration.Healthy (WorkerProgressStore.current monitor.stored now) monitor.closed := by
  unfold Monitor.Healthy at h
  cases hstored : monitor.stored with
  | none =>
    rw [hstored] at h
    dsimp only at h
    rw [h]
    exact .fresh rfl rfl
  | some snapshot =>
    rw [hstored] at h
    exact h

theorem step (h : monitor.Healthy) {operation : MonitorOperation}
    (hpermitted : Permitted monitor operation) (now : Nat) :
    (monitor.step now operation).Healthy := by
  have hcurrent := h.current now
  cases operation with
  | startRun eventType workerProcessState => exact Orchestration.Healthy.fresh rfl rfl
  | ensureRun =>
    obtain ⟨stored, closed⟩ := monitor
    cases stored with
    | none =>
      cases h
      exact Orchestration.Healthy.fresh rfl rfl
    | some snapshot => exact hcurrent.ensureRun
  | setRunState lifecycle eventType activity outcome workerProcessState =>
    exact hcurrent.setRunState lifecycle eventType activity outcome workerProcessState
  | startBatch batchId workItemIds => exact hcurrent.startBatch batchId workItemIds
  | recordActivity given =>
    change Orchestration.Healthy (recordWorkItemActivity (WorkerProgressStore.current monitor.stored now)
      now given) (if given.startsAttempt then monitor.closed.filter (· ≠ given.workItemId)
        else monitor.closed)
    split
    · apply (hcurrent.mono (List.filter_subset_self _)).recordActivity
      intro hmem
      simp at hmem
    · rename_i hattempt
      exact hcurrent.recordActivity fun hmem => (hpermitted hmem).resolve_right hattempt
  | finishBatch batchId result =>
    obtain ⟨stored, closed⟩ := monitor
    cases stored with
    | none => exact h
    | some snapshot => exact hcurrent.finishBatch fun batch hbatch => hpermitted snapshot batch rfl hbatch
  | finalizeRun outcome event root =>
    apply hcurrent.finalizeRun
    obtain ⟨stored, closed⟩ := monitor
    cases stored with
    | none => exact fun _ _ hactive => by cases hactive
    | some snapshot => exact fun batchId batch => hpermitted snapshot batchId batch rfl

theorem consistent (h : monitor.Healthy) : Consistent monitor := by
  obtain ⟨stored, closed⟩ := monitor
  cases stored with
  | none =>
    cases h
    constructor
    · intro _ hsome
      cases hsome
    · intro _ hsome
      cases hsome
    · exact fun _ hid => absurd hid List.not_mem_nil
  | some snapshot =>
    constructor
    · intro _ hsome
      cases hsome
      exact Orchestration.Healthy.active h
    · intro _ hsome
      cases hsome
      exact Orchestration.Healthy.batches h
    · intro id hid
      obtain ⟨item, hitem, hterminal⟩ := Orchestration.Healthy.closed h id hid
      exact ⟨snapshot, item, rfl, hitem, hterminal⟩

end Monitor.Healthy

/-- Only the start of a run sets its sequence number back. -/
theorem Monitor.sequence_le_step (monitor : Monitor) (now : Nat) (operation : MonitorOperation)
    (hkept : ∀ eventType workerProcessState,
      operation ≠ .startRun eventType workerProcessState) :
    monitor.sequence ≤ (monitor.step now operation).sequence := by
  obtain ⟨stored, closed⟩ := monitor
  have hcurrent : (⟨stored, closed⟩ : Monitor).sequence = (current stored now).run.sequence := by
    cases stored <;> rfl
  rw [hcurrent]
  cases operation with
  | startRun eventType workerProcessState => exact absurd rfl (hkept eventType workerProcessState)
  | ensureRun =>
    cases stored with
    | none => exact Nat.zero_le _
    | some snapshot =>
      change snapshot.run.sequence ≤ (WorkerProgressStore.ensureRun (some snapshot) now).run.sequence
      unfold WorkerProgressStore.ensureRun
      dsimp only
      split
      · exact Nat.le_succ _
      · exact le_rfl
  | setRunState lifecycle eventType activity outcome workerProcessState =>
    change _ ≤ (WorkerProgressStore.setRunState (current stored now) now lifecycle eventType activity
      outcome workerProcessState).run.sequence
    unfold WorkerProgressStore.setRunState
    dsimp only
    split <;> exact Nat.le_succ _
  | startBatch batchId workItemIds => exact le_rfl
  | recordActivity given => exact Nat.le_succ _
  | finishBatch batchId result =>
    cases stored with
    | none => exact le_rfl
    | some snapshot =>
      change snapshot.run.sequence ≤
        (WorkerProgressStore.finishBatch snapshot now batchId result).run.sequence
      unfold WorkerProgressStore.finishBatch
      split
      · exact le_rfl
      · dsimp only
        split <;> exact le_rfl
  | finalizeRun outcome event root =>
    change _ ≤ (WorkerProgressStore.finalizeRun (current stored now) now outcome event
      root).1.run.sequence
    unfold WorkerProgressStore.finalizeRun
    dsimp only
    split
    · exact Nat.le_succ _
    · split
      · exact Nat.le_succ _
      · split <;> exact Nat.le_succ _

theorem MonitorReached.healthy {monitor : Monitor} (h : MonitorReached monitor) :
    monitor.Healthy := by
  induction h with
  | start => rfl
  | step now _ hpermitted ih => exact ih.step hpermitted now

/-- Under permitted operations the snapshot is consistent at every step, and the run's sequence
number only grows until the next start. -/
theorem monitor_consistent (monitor : Monitor) (h : MonitorReached monitor) :
    Consistent monitor ∧ ∀ now operation,
      (∀ eventType workerProcessState, operation ≠ .startRun eventType workerProcessState) →
        monitor.sequence ≤ (monitor.step now operation).sequence :=
  ⟨h.healthy.consistent, monitor.sequence_le_step⟩

def startedItem (id : String) : MonitorOperation :=
  .recordActivity ⟨id, .running, .worker, "work_item_started", .control, none, [], none⟩

/-- A run with one batch of two running items. -/
def twoRunning : Monitor :=
  ((((({} : Monitor).step 1 (.startRun "worker_started" "running")).step 2
    (.startBatch "batch-w0" ["wi-a", "wi-b"])).step 3 (startedItem "wi-a")).step 4
    (startedItem "wi-b"))

theorem twoRunning_reached : MonitorReached twoRunning := by
  refine .step 4 (.step 3 (.step 2 (.step 1 .start ?_) ?_) ?_) ?_
  · exact trivial
  · exact trivial
  · exact fun hclosed => absurd hclosed List.not_mem_nil
  · exact fun hclosed => absurd hclosed List.not_mem_nil

theorem rooted_finalization_consistent :
    Consistent (twoRunning.step 5 (.finalizeRun .failed "worker_timed_out" (some "wi-a"))) := by
  refine (monitor_consistent _ (.step 5 twoRunning_reached ?_)).1
  intro snapshot batchId batch hstored hactive hbatch _
  cases hstored
  cases hactive
  cases hbatch
  exact ⟨by decide, by decide, fun id hid _ => by cases hid; decide⟩

/-- Finalized without a root, the items of the batch are both failed and interrupted, and a late
event of an abandoned call makes a closed item run again. -/
theorem rootless_finalization_inconsistent :
    let finalized := twoRunning.step 5 (.finalizeRun .failed "worker_failed" none)
    let late := finalized.step 6 (.recordActivity
      ⟨"wi-a", .running, .llm, "llm_chunk_batch_received", .transport, none, [], none⟩)
    (finalized.stored.bind (·.batches.get? "batch-w0")).map (fun batch =>
        (batch.lifecycle, batch.failedWorkItemIds, batch.interruptedWorkItemIds)) =
      some (.terminal, ["wi-a", "wi-b"], ["wi-a", "wi-b"]) ∧
    "wi-a" ∈ finalized.closed ∧
    (late.stored.bind (·.workItems.get? "wi-a")).map (·.lifecycle) = some .running := by
  decide

end ProjectOS.Orchestration
