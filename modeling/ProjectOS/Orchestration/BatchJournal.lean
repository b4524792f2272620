import ProjectOS.Orchestration.RunLoop

/-! The batches of a run, from the threads of the items to the three records of a result:
the state, the checkpoint and the event log. -/
namespace ProjectOS.Orchestration
open Base

/-- The events of a work item in the log. -/
inductive WorkEvent where
  | started
  | completed
  | waitingCapability
  | needsReplan
  | failed
  | cancelled
deriving DecidableEq, Repr

def NodeStatus.event : NodeStatus → WorkEvent
  | completed => .completed
  | needsCapability => .waitingCapability
  | needsReplan => .needsReplan
  | failed => .failed

/-- What the threads of the items come to: a result that names its item, or an exception
that nothing has caught. -/
structure Threads where
  run : WorkItem → Result NodeResult
  own : ∀ item result, run item = .ok result →
    result.workItemId = item.id ∧ result.agentId = item.agentId

/-- What one pass of the loop meets; `handled` is the content with which the control plane
completes a capability request itself. -/
structure BatchPass where
  cancelled : Bool := false
  workspace : Rewrite → Workspace
  waveFails : Bool := false
  threads : Threads
  cancelledBefore : WorkItem → Bool := fun _ => false
  handled : WorkItem → Option String := fun _ => none

/-- The state in memory, the last checkpoint written and the event log. -/
structure Journal where
  state : RunState
  checkpoint : Option Json := none
  events : List (WorkEvent × String) := []

namespace Journal

def log (journal : Journal) (events : List (WorkEvent × String)) : Journal :=
  { journal with events := journal.events ++ events }

/-- `cancelled_result`: every item without result is logged as cancelled. -/
def cancel (journal : Journal) : Journal :=
  journal.log ((journal.state.plan.workItems.filter fun item =>
    (journal.state.nodeResults.get? item.id).isNone).map fun item => (.cancelled, item.id))

/-- `state.record`, `_record_result` and `_record_checkpoint`. -/
def record (journal : Journal) (item : WorkItem) (result : NodeResult) : Result Journal := do
  let state ← journal.state.record item result
  .ok { state := state
        checkpoint := some state.asCheckpoint
        events := journal.events ++ [(result.status.event, item.id)] }

/-- A rewrite that takes place is followed by a checkpoint. -/
def rewrite (runner : GraphRunner) (pass : BatchPass) (rewrite : Rewrite) (journal : Journal) :
    Except Journal Journal :=
  match rewrite.plan runner (pass.workspace rewrite) journal.state with
  | .error _ => .error journal
  | .ok none => .ok journal
  | .ok (some plan) =>
      let state := { journal.state with plan := plan }
      .ok { journal with state := state, checkpoint := some state.asCheckpoint }

end Journal

/-- A result as the batch records it: what is logged before, and whether it stops the run. -/
structure Settled where
  result : NodeResult
  events : List (WorkEvent × String) := []
  stops : Bool

namespace BatchPass

/-- A capability request that the control plane completes is logged and replaced. -/
def settle (pass : BatchPass) (item : WorkItem) (result : NodeResult) : Settled :=
  if result.status = .needsCapability then
    match pass.handled item with
    | some content => {
        result := {
          workItemId := result.workItemId
          agentId := result.agentId
          status := .completed
          content := some content }
        events := [(.waitingCapability, item.id)]
        stops := false }
    | none => { result := result, stops := true }
  else { result := result, stops := !result.isCompleted }

end BatchPass

namespace GraphRunner

/-- `_run_ready_items`: every thread runs to its end, and the first exception is raised. -/
def runReadyItems (threads : Threads) (items : List WorkItem) : Result (Dict String NodeResult) := do
  let results ← collect (fun item => (threads.run item).map fun result => (item.id, result)) items
  .ok (Dict.ofList results)

/-- The loop over the batch: the journal, and whether a result stops the run. -/
def recordSettled (pass : BatchPass) (results : Dict String NodeResult) :
    Journal → Bool → List WorkItem → Except Journal (Journal × Bool)
  | journal, stopped, [] => .ok (journal, stopped)
  | journal, stopped, item :: rest =>
      if pass.cancelledBefore item then .error journal.cancel
      else match results.get? item.id with
        | none => .error journal
        | some result =>
            let settled := pass.settle item result
            match (journal.log settled.events).record item settled.result with
            | .ok next => recordSettled pass results next (stopped || settled.stops) rest
            | .error _ => .error (journal.log settled.events)

def runBatch (pass : BatchPass) (journal : Journal) (batch : List WorkItem) :
    Except Journal Journal :=
  let started := journal.log (batch.map fun item => (.started, item.id))
  match runReadyItems pass.threads batch with
  | .error _ => .error started
  | .ok results =>
      match recordSettled pass results started false batch with
      | .error final => .error final
      | .ok (recorded, stopped) => if stopped then .error recorded else .ok recorded

/-- A pass up to the choice of its batch. New code items with project documents need the
delivery owners, which is checked before the checkpoint. -/
def prepare (runner : GraphRunner) (pass : BatchPass) (journal : Journal) :
    Except Journal Journal := do
  if pass.cancelled then .error journal.cancel
  else
    let modules ← journal.rewrite runner pass .modules
    let designed ← modules.rewrite runner pass .implementations
    let tailed ← designed.rewrite runner pass .tail
    let expanded ← tailed.rewrite runner pass .implementationPlan
    match checkDelivery tailed.state.plan expanded.state.plan with
    | .ok () => .ok expanded
    | .error _ => .error { tailed with state := expanded.state }

/-- The batch of a prepared pass; none where the run ends before. -/
def batch (runner : GraphRunner) (pass : BatchPass) (journal : Journal) : List WorkItem :=
  if pass.waveFails || journal.state.isComplete then []
  else runner.selectSchedulable journal.state.readyItems

def runPass (runner : GraphRunner) (pass : BatchPass) (journal : Journal) : Except Journal Journal := do
  let prepared ← runner.prepare pass journal
  match runner.batch pass prepared with
  | [] => .error prepared
  | item :: rest => runBatch pass prepared (item :: rest)

/-- The journal when the run returns or raises, or after the last pass. -/
def runPasses (runner : GraphRunner) : List BatchPass → Journal → Journal
  | [], journal => journal
  | pass :: rest, journal =>
      match runner.runPass pass journal with
      | .ok next => runner.runPasses rest next
      | .error final => final

/-- The batches that a run schedules, each with its pass. -/
def batches (runner : GraphRunner) : List BatchPass → Journal → List (BatchPass × List WorkItem)
  | [], _ => []
  | pass :: rest, journal =>
      match runner.prepare pass journal with
      | .error _ => []
      | .ok prepared => (pass, runner.batch pass prepared) ::
          match runner.runPass pass journal with
          | .ok next => runner.batches rest next
          | .error _ => []

end GraphRunner

/-- The items that a checkpoint records as completed. -/
def completedIn (checkpoint : Json) (id : String) : Prop :=
  ∃ ids, checkpoint.get "completed_work_items" = .strs ids ∧ id ∈ ids

/-- The item is completed in the state, the last checkpoint and the event log, and what a
resume restores from the checkpoint is not ready to execute it. -/
structure Journal.Recorded (journal : Journal) (id : String) : Prop where
  state : journal.state.hasCompleted id = true
  checkpoint : ∃ checkpoint, journal.checkpoint = some checkpoint ∧ completedIn checkpoint id ∧
    ∀ plan restored, RunState.fromCheckpoint plan checkpoint = .ok restored →
      ∀ item ∈ restored.readyItems, item.id ≠ id
  event : (WorkEvent.completed, id) ∈ journal.events

namespace GraphRunner

/-- Every item of a batch whose own result is completed is recorded in the end. -/
def SiblingsKept (runner : GraphRunner) (passes : List BatchPass) (journal : Journal) : Prop :=
  ∀ scheduled ∈ runner.batches passes journal, ∀ item ∈ scheduled.2, ∀ result,
    scheduled.1.threads.run item = .ok result → result.isCompleted = true →
      (runner.runPasses passes journal).Recorded item.id

/-- No thread of the batch raises, and no cancellation is seen before a completed item or
an earlier one. -/
def Undisturbed (pass : BatchPass) (batch : List WorkItem) : Prop :=
  ∀ before item after result, batch = before ++ item :: after →
    pass.threads.run item = .ok result → result.isCompleted = true →
      (∀ other ∈ batch, (pass.threads.run other).isOk = true) ∧
        ∀ other ∈ before ++ [item], pass.cancelledBefore other = false

end GraphRunner

end ProjectOS.Orchestration
