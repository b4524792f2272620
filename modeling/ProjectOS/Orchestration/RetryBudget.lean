import Mathlib.Logic.Relation
import ProjectOS.Orchestration.NodeResult
import ProjectOS.Orchestration.Retry
import ProjectOS.Orchestration.WorkItem

/-! What the runner writes to the retry ledger, and the bound on the retries it
grants. Other processes may append to the same ledger at any time. -/
namespace ProjectOS.Orchestration
open Base

/-- `_record_retry_decision`. -/
def recordRetryDecision (policy : RetryPolicy) (ledger : RetryLedger) (item : WorkItem)
    (signal : FailureSignal) (action : RecoveryAction) (createdAt : String) :
    Result (RetryLedger × RetryRecord) := do
  let attempt ← ledger.nextAttempt .workItem item.id
  let record ← RetryRecord.create {
    scope := .workItem
    subjectId := item.id
    attempt := attempt
    maxAttempts := policy.maxWorkItemAttempts
    action := action
    failure := signal
    rootWorkItemId := some item.id
    createdAt := createdAt }
  let ledger ← ledger.append record
  .ok (ledger, record)

/-- `_recovery_action`, which holds the retry lock from the counts to the append. -/
def recoveryAction (policy : RetryPolicy) (ledger : RetryLedger) (item : WorkItem)
    (signal : FailureSignal) (createdAt : String) : Result (RetryLedger × RetryRecord) := do
  let counts ← ledger.counts item.id signal.kind
  recordRetryDecision policy ledger item signal (policy.actionFor signal counts) createdAt

/-- What becomes of a failed attempt before a retry is considered. -/
inductive FailureRoute where
  | controlPlane
  | circuitOpen
  | repairPlanner
  | recovery
deriving DecidableEq

/-- The branches of `_run_item_with_retries` up to the recovery decision. -/
def routeFailure (ledger : RetryLedger) (item : WorkItem) (signal : FailureSignal) :
    Result FailureRoute := do
  if signal.scope ≠ "current_work_item" || signal.requiresControlPlane then .ok .controlPlane
  else do
    let repeated ← ledger.hasSameFailureWithoutNewEvidence item.id signal
    if signal.kind = .architectureSchemaValidation && repeated then .ok .circuitOpen
    else if item.agentId = "code_integration_agent" && signal.kind = .codeDeliveryIncomplete then
      .ok .repairPlanner
    else .ok .recovery

/-- A signal without an input digest carries the digest of the item's contract. -/
def withInputDigest (item : WorkItem) (signal : FailureSignal) : FailureSignal :=
  { signal with inputDigest := signal.inputDigest.orElse fun _ => item.contractDigest }

/-- One failed attempt of an item; the record it leaves in the ledger, if any. -/
def handleFailure (policy : RetryPolicy) (ledger : RetryLedger) (item : WorkItem)
    (observed : FailureSignal) (createdAt : String) :
    Result (RetryLedger × Option RetryRecord) := do
  let signal := withInputDigest item observed
  match ← routeFailure ledger item signal with
  | .circuitOpen => do
      let (ledger, record) ← recordRetryDecision policy ledger item signal .fail createdAt
      .ok (ledger, some record)
  | .recovery => do
      let (ledger, record) ← recoveryAction policy ledger item signal createdAt
      .ok (ledger, some record)
  | _ => .ok (ledger, none)

def isFailed (result : NodeResult) : Bool := result.status = .failed || result.status = .needsReplan

def batchSignal (result : NodeResult) : FailureSignal :=
  match result.failureSignal with
  | some signal => signal
  | none => {
      kind := .agentRuntime
      summary := match result.error with
        | some "" => "batch member failed"
        | some error => error
        | none => "batch member failed" }

/-- `_finish_monitor_batch`: the barrier record of a batch with a failed member. -/
def finishMonitorBatch (policy : RetryPolicy) (ledger : RetryLedger) (batchId : String)
    (results : List (String × NodeResult)) (createdAt : String) :
    Result (RetryLedger × Option RetryRecord) :=
  match results.find? (isFailed ·.2) with
  | none => .ok (ledger, none)
  | some (root, rootResult) => do
      let signal := batchSignal rootResult
      let attempt ← ledger.nextAttempt .batch batchId
      let record ← RetryRecord.create {
        scope := .batch
        subjectId := batchId
        attempt := attempt
        maxAttempts := policy.limits.maxAttemptsFor signal.kind
        action := if results.any (·.2.status = .needsReplan) then .requestReplan else .fail
        failure := signal
        rootWorkItemId := some root
        createdAt := createdAt }
      let ledger ← ledger.append record
      .ok (ledger, some record)

/-- The ledger beside the records the runner itself appended, oldest first. -/
structure RecoveryRun where
  ledger : RetryLedger
  totalRetries : Nat := 0
  ownRecords : List RetryRecord := []

namespace RecoveryRun

/-- The steps of a run, in any order and for any items: a failed attempt of some
worker thread, the end of a batch, an append by another process, a restart. The
total kept in memory is never read beside a ledger, so it may be anything. -/
inductive Step (policy : RetryPolicy) : RecoveryRun → RecoveryRun → Prop where
  | failure {run : RecoveryRun} {item : WorkItem} {signal : FailureSignal} {createdAt : String}
      {ledger : RetryLedger} {record : Option RetryRecord} {totalRetries : Nat}
      (handled : handleFailure policy run.ledger item signal createdAt = .ok (ledger, record)) :
      Step policy run ⟨ledger, totalRetries, run.ownRecords ++ record.toList⟩
  | batch {run : RecoveryRun} {batchId : String} {results : List (String × NodeResult)}
      {createdAt : String} {ledger : RetryLedger} {record : Option RetryRecord}
      (finished : finishMonitorBatch policy run.ledger batchId results createdAt =
        .ok (ledger, record)) :
      Step policy run ⟨ledger, run.totalRetries, run.ownRecords ++ record.toList⟩
  | foreign {run : RecoveryRun} {record : RetryRecord} {ledger : RetryLedger}
      (appended : run.ledger.append record = .ok ledger) :
      Step policy run { run with ledger := ledger }
  | restart {run : RecoveryRun} {records : List RetryRecord}
      (read : run.ledger.records = .ok records) :
      Step policy run { run with totalRetries := budgetCount records }

/-- The runner's own records are in the ledger and spend at most the limits. -/
structure WithinLimits (policy : RetryPolicy) (run : RecoveryRun) : Prop where
  kept : ∃ records, run.ledger.records = .ok records ∧ run.ownRecords.Sublist records
  total : budgetCount run.ownRecords ≤ policy.limits.maxTotalRetries
  item : ∀ id, budgetCountForWorkItem id run.ownRecords ≤ policy.limits.maxRetriesPerWorkItem
  kind : ∀ id kind, budgetCountForKind id kind run.ownRecords ≤ policy.limits.maxRetriesFor kind

variable {policy : RetryPolicy}

/-- A decision record is about its item, and spends a retry only within the
limits read under the lock. -/
structure DecidedFor (policy : RetryPolicy) (records : List RetryRecord) (workItemId : String)
    (record : RetryRecord) : Prop where
  subject : record.subjectId = workItemId
  root : record.rootWorkItemId = some workItemId
  within : record.action.spendsBudget = true →
    budgetCount records < policy.limits.maxTotalRetries ∧
      budgetCountForWorkItem workItemId records < policy.limits.maxRetriesPerWorkItem ∧
      budgetCountForKind workItemId record.failure.kind records <
        policy.limits.maxRetriesFor record.failure.kind

theorem recordRetryDecision_eq_ok {ledger ledger' : RetryLedger} {item : WorkItem}
    {signal : FailureSignal} {action : RecoveryAction} {createdAt : String} {record : RetryRecord}
    (h : recordRetryDecision policy ledger item signal action createdAt = .ok (ledger', record)) :
    ledger.append record = .ok ledger' ∧ record.subjectId = item.id ∧
      record.rootWorkItemId = some item.id ∧ record.action = action ∧ record.failure = signal := by
  simp only [recordRetryDecision, bind_eq_ok] at h
  obtain ⟨attempt, _, made, hmade, appended, hledger, heq⟩ := h
  cases heq
  rw [RetryRecord.create_eq_ok.mp hmade]
  exact ⟨hledger, rfl, rfl, rfl, rfl⟩

theorem recoveryAction_eq_ok {ledger ledger' : RetryLedger} {item : WorkItem}
    {signal : FailureSignal} {createdAt : String} {record : RetryRecord} {records : List RetryRecord}
    (hread : ledger.records = .ok records)
    (h : recoveryAction policy ledger item signal createdAt = .ok (ledger', record)) :
    ledger.append record = .ok ledger' ∧ DecidedFor policy records item.id record := by
  simp only [recoveryAction, RetryLedger.counts, hread, ok_bind] at h
  obtain ⟨happend, hsubject, hroot, haction, hfailure⟩ := recordRetryDecision_eq_ok h
  refine ⟨happend, hsubject, hroot, fun hspends => ?_⟩
  rw [haction] at hspends
  rw [hfailure]
  exact RetryPolicy.lt_limits_of_actionFor hspends

theorem handleFailure_eq_ok {ledger ledger' : RetryLedger} {item : WorkItem}
    {signal : FailureSignal} {createdAt : String} {record : Option RetryRecord}
    {records : List RetryRecord} (hread : ledger.records = .ok records)
    (h : handleFailure policy ledger item signal createdAt = .ok (ledger', record)) :
    (record = none ∧ ledger' = ledger) ∨
      ∃ made, record = some made ∧ ledger.append made = .ok ledger' ∧
        DecidedFor policy records item.id made := by
  simp only [handleFailure, bind_eq_ok] at h
  obtain ⟨route, _, h⟩ := h
  cases route with
  | controlPlane =>
    cases h
    exact .inl ⟨rfl, rfl⟩
  | circuitOpen =>
    simp only [bind_eq_ok] at h
    obtain ⟨⟨appended, made⟩, hmade, heq⟩ := h
    cases heq
    obtain ⟨happend, hsubject, hroot, haction, _⟩ := recordRetryDecision_eq_ok hmade
    exact .inr ⟨made, rfl, happend, hsubject, hroot, fun hspends => by simp [haction,
      RecoveryAction.spendsBudget] at hspends⟩
  | repairPlanner =>
    cases h
    exact .inl ⟨rfl, rfl⟩
  | recovery =>
    simp only [bind_eq_ok] at h
    obtain ⟨⟨appended, made⟩, hmade, heq⟩ := h
    cases heq
    exact .inr ⟨made, rfl, recoveryAction_eq_ok hread hmade⟩

/-- A batch record never spends a retry. -/
theorem finishMonitorBatch_eq_ok {ledger ledger' : RetryLedger} {batchId createdAt : String}
    {results : List (String × NodeResult)} {record : Option RetryRecord}
    (h : finishMonitorBatch policy ledger batchId results createdAt = .ok (ledger', record)) :
    (record = none ∧ ledger' = ledger) ∨
      ∃ made, record = some made ∧ ledger.append made = .ok ledger' ∧
        made.action.spendsBudget = false := by
  unfold finishMonitorBatch at h
  split at h
  · cases h
    exact .inl ⟨rfl, rfl⟩
  · simp only [bind_eq_ok] at h
    obtain ⟨attempt, _, made, hmade, appended, happend, heq⟩ := h
    cases heq
    refine .inr ⟨made, rfl, happend, ?_⟩
    rw [RetryRecord.create_eq_ok.mp hmade]
    dsimp only
    split <;> rfl

theorem concerns_eq_false {record : RetryRecord} {workItemId other : String}
    (hsubject : record.subjectId = workItemId) (hroot : record.rootWorkItemId = some workItemId)
    (h : other ≠ workItemId) : record.concerns other = false := by
  simp [RetryRecord.concerns, hsubject, hroot, Ne.symm h]

namespace WithinLimits
variable {run : RecoveryRun}

theorem of_append (h : run.WithinLimits policy) {ledger : RetryLedger} {record : RetryRecord}
    (happend : run.ledger.append record = .ok ledger) :
    ∃ records, ledger.records = .ok records ∧ (run.ownRecords ++ [record]).Sublist records ∧
      run.ownRecords.Sublist records := by
  obtain ⟨before, hread, hsub⟩ := h.kept
  obtain ⟨records, hrecords, hafter⟩ := RetryLedger.append_eq_ok happend
  cases hread.symm.trans hrecords
  exact ⟨_, hafter, hsub.append (List.Sublist.refl _), hsub.trans (List.sublist_append_left _ _)⟩

/-- Appending a record that spends nothing. -/
theorem append_unspent (h : run.WithinLimits policy) {ledger : RetryLedger} {record : RetryRecord}
    {totalRetries : Nat} (happend : run.ledger.append record = .ok ledger)
    (hspends : record.action.spendsBudget = false) :
    WithinLimits policy ⟨ledger, totalRetries, run.ownRecords ++ [record]⟩ := by
  obtain ⟨records, hread, hsub, _⟩ := h.of_append happend
  refine ⟨⟨records, hread, hsub⟩, ?_, ?_, ?_⟩
  · simpa [budgetCount, hspends] using h.total
  · intro id
    simpa [budgetCountForWorkItem, hspends] using h.item id
  · intro id kind
    simpa [budgetCountForKind, hspends] using h.kind id kind

/-- Appending a retry that was within the limits of the whole ledger. -/
theorem append_decided (h : run.WithinLimits policy) {ledger : RetryLedger} {record : RetryRecord}
    {totalRetries : Nat} {workItemId : String} {records : List RetryRecord}
    (hread : run.ledger.records = .ok records) (happend : run.ledger.append record = .ok ledger)
    (hdecided : DecidedFor policy records workItemId record) :
    WithinLimits policy ⟨ledger, totalRetries, run.ownRecords ++ [record]⟩ := by
  cases hspends : record.action.spendsBudget with
  | false => exact h.append_unspent happend hspends
  | true =>
    obtain ⟨before, hbefore, hsub⟩ := h.kept
    cases hread.symm.trans hbefore
    obtain ⟨htotal, hitem, hkind⟩ := hdecided.within hspends
    obtain ⟨after, hafter, hkept, _⟩ := h.of_append happend
    refine ⟨⟨after, hafter, hkept⟩, ?_, ?_, ?_⟩
    · have hown : budgetCount run.ownRecords ≤ budgetCount records := hsub.countP_le
      simp only [budgetCount, List.countP_append, List.countP_singleton, hspends] at hown htotal ⊢
      simp only [if_true]
      omega
    · intro id
      by_cases hid : id = workItemId
      · subst hid
        have hown : budgetCountForWorkItem id run.ownRecords ≤ budgetCountForWorkItem id records :=
          hsub.countP_le
        have hone : List.countP (fun record : RetryRecord =>
            record.action.spendsBudget && record.concerns id) [record] ≤ 1 := List.countP_le_length
        simp only [budgetCountForWorkItem, List.countP_append] at hown hitem ⊢
        omega
      · have hother := concerns_eq_false hdecided.subject hdecided.root hid
        simpa [budgetCountForWorkItem, hother] using h.item id
    · intro id kind
      by_cases hsame : id = workItemId ∧ kind = record.failure.kind
      · obtain ⟨rfl, rfl⟩ := hsame
        have hown : budgetCountForKind id record.failure.kind run.ownRecords ≤
            budgetCountForKind id record.failure.kind records := hsub.countP_le
        have hone : List.countP (fun r : RetryRecord => r.action.spendsBudget &&
            r.failure.kind == record.failure.kind && r.concerns id) [record] ≤ 1 :=
          List.countP_le_length
        simp only [budgetCountForKind, List.countP_append] at hown hkind ⊢
        omega
      · have hother : (record.failure.kind == kind && record.concerns id) = false := by
          by_cases hid : id = workItemId
          · have hne : record.failure.kind ≠ kind := fun hk => hsame ⟨hid, hk.symm⟩
            simp [hne]
          · simp [concerns_eq_false hdecided.subject hdecided.root hid]
        have hskip : budgetCountForKind id kind [record] = 0 := by
          simp [budgetCountForKind, Bool.and_assoc, hother]
        have happended : budgetCountForKind id kind (run.ownRecords ++ [record]) =
            budgetCountForKind id kind run.ownRecords + budgetCountForKind id kind [record] :=
          List.countP_append
        rw [happended, hskip]
        exact h.kind id kind

end WithinLimits

theorem Step.withinLimits {run run' : RecoveryRun} (step : Step policy run run')
    (h : run.WithinLimits policy) : run'.WithinLimits policy := by
  cases step with
  | failure handled =>
    obtain ⟨records, hread, _⟩ := h.kept
    rcases handleFailure_eq_ok hread handled with ⟨rfl, rfl⟩ | ⟨made, rfl, happend, hdecided⟩
    · simpa using ⟨h.kept, h.total, h.item, h.kind⟩
    · exact h.append_decided hread happend hdecided
  | batch finished =>
    rcases finishMonitorBatch_eq_ok finished with ⟨rfl, rfl⟩ | ⟨made, rfl, happend, hspends⟩
    · simpa using ⟨h.kept, h.total, h.item, h.kind⟩
    · exact h.append_unspent happend hspends
  | foreign appended =>
    obtain ⟨records, hread, _, hsub⟩ := h.of_append appended
    exact ⟨⟨records, hread, hsub⟩, h.total, h.item, h.kind⟩
  | restart _ => exact ⟨h.kept, h.total, h.item, h.kind⟩

/-- A run over an existing ledger file, before the runner appended anything. -/
structure Initial (run : RecoveryRun) : Prop where
  none_own : run.ownRecords = []
  readable : ∃ records, run.ledger.records = .ok records

theorem Initial.withinLimits {run : RecoveryRun} (h : run.Initial) : run.WithinLimits policy := by
  obtain ⟨records, hread⟩ := h.readable
  refine ⟨⟨records, hread, ?_⟩, ?_, ?_, ?_⟩
  · rw [h.none_own]
    exact List.nil_sublist _
  · simp [h.none_own, budgetCount]
  · simp [h.none_own, budgetCountForWorkItem]
  · simp [h.none_own, budgetCountForKind]

/-- In every run the retries the runner granted stay within the total limit, the
limit of each work item and the limit of each item and failure kind. -/
theorem retries_within_limits {start run : RecoveryRun} (hstart : start.Initial)
    (hrun : Relation.ReflTransGen (Step policy) start run) :
    budgetCount run.ownRecords ≤ policy.limits.maxTotalRetries ∧
      (∀ id, budgetCountForWorkItem id run.ownRecords ≤ policy.limits.maxRetriesPerWorkItem) ∧
      ∀ id kind, budgetCountForKind id kind run.ownRecords ≤ policy.limits.maxRetriesFor kind := by
  have hinv : run.WithinLimits policy := by
    induction hrun with
    | refl => exact hstart.withinLimits
    | tail _ step ih => exact step.withinLimits ih
  exact ⟨hinv.total, hinv.item, hinv.kind⟩

def draftItem : WorkItem := .ofFields {
  id := "wi-01-notes"
  agentId := "requirement_agent"
  objective := "整理需求"
  outputKey := "notes" } (by decide)

/-- The first runtime failure of an item is retried, and stays within the default limits. -/
theorem first_retry_within_limits : ∃ run : RecoveryRun,
    Relation.ReflTransGen (Step {}) ⟨{ traceId := "tr-1" }, 0, []⟩ run ∧
      budgetCount run.ownRecords = 1 ∧
      budgetCount run.ownRecords ≤ ({} : RetryPolicy).limits.maxTotalRetries := by
  obtain ⟨run, step, hspent⟩ : ∃ run : RecoveryRun,
      Step {} ⟨{ traceId := "tr-1" }, 0, []⟩ run ∧ budgetCount run.ownRecords = 1 :=
    ⟨_, @Step.failure {} _ draftItem { kind := .agentRuntime, summary := "中断" }
      "2026-01-01T00:00:00+00:00" _ _ 1 rfl, by decide⟩
  have hrun := Relation.ReflTransGen.single step
  exact ⟨run, hrun, hspent, (retries_within_limits ⟨rfl, [], rfl⟩ hrun).1⟩

end RecoveryRun
end ProjectOS.Orchestration
