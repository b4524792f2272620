import ProjectOS.Base.Dict
import ProjectOS.Base.Text

/-! The monitoring snapshot of one trace: a record of the run, one for each batch of parallel
work items and one for each work item. Every operation is one read and one write of the file. -/
namespace ProjectOS.Orchestration
open Base

inductive ExecutionLifecycle where
  | pending
  | running
  | waiting
  | retrying
  | terminal
deriving DecidableEq, Repr

inductive ExecutionActivity where
  | dispatch
  | worker
  | llm
  | tool
  | artifact
  | sandbox
  | integration
  | approval
deriving DecidableEq, Repr

inductive ExecutionOutcome where
  | completed
  | blocked
  | failed
  | cancelled
  | interrupted
deriving DecidableEq, Repr

inductive ProgressSignalKind where
  | transport
  | semantic
  | control
  | heartbeat
deriving DecidableEq, Repr

/-- The signal says that the work itself goes on. -/
def ProgressSignalKind.meaningful (signal : ProgressSignalKind) : Bool :=
  signal = .semantic || signal = .control

structure LlmCall where
  state : String
  callId : Option String := none
  terminalAt : Option Nat := none
deriving DecidableEq

structure RunProgress where
  lifecycle : ExecutionLifecycle := .pending
  outcome : Option ExecutionOutcome := none
  activity : ExecutionActivity := .dispatch
  eventType : String := "run_created"
  sequence : Nat := 0
  startedAt : Nat
  lastEventAt : Nat
  lastMeaningfulAt : Nat
  heartbeatAt : Option Nat := none
  terminalAt : Option Nat := none
  workerProcessState : String := "not_started"
  activeBatchId : Option String := none
  counters : Dict String Nat := .ofList
    [("llm_calls", 0), ("llm_chunks", 0), ("llm_bytes", 0), ("tool_calls", 0)]

structure BatchProgress where
  lifecycle : ExecutionLifecycle := .running
  outcome : Option ExecutionOutcome := none
  eventType : String := "batch_started"
  sequence : Nat := 1
  startedAt : Nat
  lastEventAt : Nat
  terminalAt : Option Nat := none
  expectedWorkItemIds : List String
  completedWorkItemIds : List String := []
  failedWorkItemIds : List String := []
  interruptedWorkItemIds : List String := []
  rootFailureWorkItemId : Option String := none
  barrierState : String := "waiting_for_members"

structure ItemProgress where
  lifecycle : ExecutionLifecycle
  outcome : Option ExecutionOutcome
  activity : ExecutionActivity
  eventType : String
  sequence : Nat
  startedAt : Nat
  lastEventAt : Nat
  lastMeaningfulAt : Option Nat
  terminalAt : Option Nat
  counters : Dict String Nat
  llm : Option LlmCall

structure Snapshot where
  run : RunProgress
  batches : Dict String BatchProgress := ∅
  workItems : Dict String ItemProgress := ∅

/-- What `record_work_item_activity` is given. -/
structure ItemActivity where
  workItemId : String
  lifecycle : ExecutionLifecycle
  activity : ExecutionActivity
  eventType : String
  signal : ProgressSignalKind
  outcome : Option ExecutionOutcome := none
  counters : List (String × Nat) := []
  llm : Option LlmCall := none

namespace WorkerProgressStore

/-- `_empty`. -/
def empty (now : Nat) : Snapshot := { run := { startedAt := now, lastEventAt := now, lastMeaningfulAt := now } }

/-- `_current`. -/
def current (stored : Option Snapshot) (now : Nat) : Snapshot := stored.getD (empty now)

def startRun (now : Nat) (eventType workerProcessState : String) : Snapshot :=
  { empty now with
    run := { (empty now).run with
      lifecycle := .running
      activity := .worker
      eventType := eventType
      sequence := 1
      heartbeatAt := some now
      workerProcessState := workerProcessState } }

def ensureRun (stored : Option Snapshot) (now : Nat) : Snapshot :=
  match stored with
  | none => startRun now "graph_runner_started" "embedded"
  | some snapshot =>
      if snapshot.run.lifecycle = .pending then
        { snapshot with
          run := { snapshot.run with
            lifecycle := .running
            activity := .dispatch
            eventType := "graph_runner_started"
            sequence := snapshot.run.sequence + 1
            lastEventAt := now
            lastMeaningfulAt := now } }
      else snapshot

def setRunState (snapshot : Snapshot) (now : Nat) (lifecycle : ExecutionLifecycle)
    (eventType : String) (activity : ExecutionActivity) (outcome : Option ExecutionOutcome)
    (workerProcessState : Option String) : Snapshot :=
  let run := { snapshot.run with
    lifecycle := lifecycle
    outcome := outcome
    activity := activity
    eventType := eventType
    sequence := snapshot.run.sequence + 1
    lastEventAt := now
    workerProcessState := workerProcessState.getD snapshot.run.workerProcessState }
  { snapshot with
    run := if lifecycle = .terminal then { run with terminalAt := some now }
      else { run with lastMeaningfulAt := now } }

def startBatch (snapshot : Snapshot) (now : Nat) (batchId : String) (workItemIds : List String) :
    Snapshot :=
  { snapshot with
    batches := snapshot.batches.set batchId
      { startedAt := now, lastEventAt := now, expectedWorkItemIds := workItemIds }
    run := { snapshot.run with activeBatchId := some batchId } }

def batchEvent : ExecutionOutcome → String
  | .completed => "batch_completed"
  | .blocked => "batch_blocked"
  | .cancelled => "batch_interrupted"
  | .interrupted => "batch_interrupted"
  | .failed => "batch_failed"

def barrierState : ExecutionOutcome → String
  | .completed => "released"
  | .blocked => "waiting_for_approval"
  | _ => "blocked"

/-- What `finish_batch` is given. -/
structure BatchResult where
  completed : List String := []
  failed : List String := []
  interrupted : List String := []
  outcome : Option ExecutionOutcome := none
  rootFailureWorkItemId : Option String := none

def finishBatch (snapshot : Snapshot) (now : Nat) (batchId : String) (result : BatchResult) :
    Snapshot :=
  match snapshot.batches.get? batchId with
  | none => snapshot
  | some batch =>
      let outcome := result.outcome.getD (if result.failed = [] then .completed else .failed)
      { snapshot with
        batches := snapshot.batches.set batchId { batch with
          lifecycle := .terminal
          outcome := some outcome
          eventType := batchEvent outcome
          sequence := batch.sequence + 1
          lastEventAt := now
          terminalAt := some now
          completedWorkItemIds := result.completed
          failedWorkItemIds := result.failed
          interruptedWorkItemIds := result.interrupted
          rootFailureWorkItemId := result.rootFailureWorkItemId
          barrierState := barrierState outcome }
        run := if snapshot.run.activeBatchId = some batchId then
          { snapshot.run with activeBatchId := none } else snapshot.run }

/-- The record of a work item after an activity; `previous` is the one before, if any. -/
def itemAfter (previous : Option ItemProgress) (now : Nat) (given : ItemActivity) : ItemProgress where
  lifecycle := given.lifecycle
  outcome := given.outcome
  activity := given.activity
  eventType := given.eventType
  sequence := (previous.map (·.sequence)).getD 0 + 1
  startedAt := (previous.map (·.startedAt)).getD now
  lastEventAt := now
  lastMeaningfulAt := if given.signal.meaningful then some now
    else previous.bind (·.lastMeaningfulAt)
  terminalAt := if given.lifecycle = .terminal then some now else previous.bind (·.terminalAt)
  counters := given.counters.foldl (fun counters entry => counters.set entry.1 entry.2)
    ((previous.map (·.counters)).getD ∅)
  llm := given.llm.or (previous.bind (·.llm))

/-- The sum of one counter over the work items. -/
def total (items : Dict String ItemProgress) (key : String) : Nat :=
  (items.values.map fun item => (item.counters.get? key).getD 0).foldr (· + ·) 0

def recordWorkItemActivity (snapshot : Snapshot) (now : Nat) (given : ItemActivity) : Snapshot :=
  let items := snapshot.workItems.set given.workItemId
    (itemAfter (snapshot.workItems.get? given.workItemId) now given)
  { snapshot with
    workItems := items
    run := { snapshot.run with
      lastEventAt := now
      sequence := snapshot.run.sequence + 1
      lastMeaningfulAt := if given.signal.meaningful then now else snapshot.run.lastMeaningfulAt
      counters := given.counters.foldl (fun counters entry => counters.set entry.1 (total items entry.1))
        snapshot.run.counters } }

/-- The lifecycles that a finalization closes. -/
def isOpen (lifecycle : ExecutionLifecycle) : Bool :=
  lifecycle = .running || lifecycle = .retrying || lifecycle = .waiting

def itemEvent (outcome itemOutcome : ExecutionOutcome) : String :=
  if itemOutcome = .interrupted then "work_item_interrupted"
  else match outcome with
    | .completed => "work_item_completed"
    | .blocked => "work_item_blocked"
    | .cancelled => "work_item_cancelled"
    | _ => "work_item_failed"

/-- The call of the item, ended with the run unless it had ended before. -/
def closeCall (now : Nat) (outcome : ExecutionOutcome) (call : LlmCall) : LlmCall :=
  if call.state ∈ ["completed", "failed", "cancelled"] then call
  else { call with
    state := if outcome = .cancelled then "cancelled" else "failed"
    terminalAt := some now }

def closeItem (now : Nat) (outcome : ExecutionOutcome) (root : Option String) (id : String)
    (item : ItemProgress) : ItemProgress :=
  if !isOpen item.lifecycle then item
  else
    let itemOutcome := if root = some id || root = none then outcome else .interrupted
    { item with
      lifecycle := .terminal
      outcome := some itemOutcome
      eventType := itemEvent outcome itemOutcome
      activity := .worker
      lastEventAt := now
      terminalAt := some now
      llm := item.llm.map (closeCall now outcome) }

def closeItems (items : Dict String ItemProgress) (now : Nat) (outcome : ExecutionOutcome)
    (root : Option String) : Dict String ItemProgress :=
  ⟨items.entries.map fun entry => (entry.1, closeItem now outcome root entry.1 entry.2), by
    simpa [Function.comp_def] using items.nodup⟩

/-- The items a finalization closes, in their order. -/
def activeItems (items : Dict String ItemProgress) : List String :=
  (items.entries.filter fun entry => isOpen entry.2.lifecycle).map Prod.fst

/-- The active batch, ended with the run. -/
def interruptBatch (now : Nat) (outcome : ExecutionOutcome) (root : Option String)
    (active : List String) (batch : BatchProgress) : BatchProgress :=
  { batch with
    lifecycle := .terminal
    outcome := some outcome
    eventType := "batch_interrupted"
    terminalAt := some now
    barrierState := "blocked"
    rootFailureWorkItemId := root
    interruptedWorkItemIds := active.filter fun id => some id ≠ root
    failedWorkItemIds := match root with
      | some id => if id = "" then active else [id]
      | none => active }

/-- The snapshot and the closed work items. -/
def finalizeRun (snapshot : Snapshot) (now : Nat) (outcome : ExecutionOutcome) (event : String)
    (root : Option String) : Snapshot × List String :=
  let active := activeItems snapshot.workItems
  let run := { snapshot.run with
    lifecycle := .terminal
    outcome := some outcome
    activity := .worker
    eventType := event
    sequence := snapshot.run.sequence + 1
    lastEventAt := now
    terminalAt := some now
    workerProcessState := "terminated" }
  let closed := { snapshot with
    run := run, workItems := closeItems snapshot.workItems now outcome root }
  match run.activeBatchId with
  | none => (closed, active)
  | some batchId =>
      match snapshot.batches.get? batchId with
      | none => (closed, active)
      | some batch =>
          if batchId = "" then (closed, active)
          else
            ({ closed with
              batches := snapshot.batches.set batchId (interruptBatch now outcome root active batch)
              run := { run with activeBatchId := none } }, active)

end WorkerProgressStore

/-- The operations on one trace. -/
inductive MonitorOperation where
  | startRun (eventType workerProcessState : String)
  | ensureRun
  | setRunState (lifecycle : ExecutionLifecycle) (eventType : String)
      (activity : ExecutionActivity) (outcome : Option ExecutionOutcome)
      (workerProcessState : Option String)
  | startBatch (batchId : String) (workItemIds : List String)
  | recordActivity (given : ItemActivity)
  | finishBatch (batchId : String) (result : WorkerProgressStore.BatchResult)
  | finalizeRun (outcome : ExecutionOutcome) (event : String) (root : Option String)

open WorkerProgressStore in
/-- What the file holds after an operation. -/
def MonitorOperation.apply (stored : Option Snapshot) (now : Nat) :
    MonitorOperation → Option Snapshot
  | .startRun eventType workerProcessState =>
      some (WorkerProgressStore.startRun now eventType workerProcessState)
  | .ensureRun => some (WorkerProgressStore.ensureRun stored now)
  | .setRunState lifecycle eventType activity outcome workerProcessState =>
      some (WorkerProgressStore.setRunState (current stored now) now lifecycle eventType activity
        outcome workerProcessState)
  | .startBatch batchId workItemIds =>
      some (WorkerProgressStore.startBatch (current stored now) now batchId workItemIds)
  | .recordActivity given => some (recordWorkItemActivity (current stored now) now given)
  | .finishBatch batchId result =>
      -- without the batch nothing is written
      stored.map fun snapshot => WorkerProgressStore.finishBatch snapshot now batchId result
  | .finalizeRun outcome event root =>
      some (WorkerProgressStore.finalizeRun (current stored now) now outcome event root).1

end ProjectOS.Orchestration
