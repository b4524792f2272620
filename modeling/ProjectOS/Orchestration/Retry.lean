import ProjectOS.Base.Dict
import ProjectOS.Orchestration.Failure

/-! Recovery decisions: the durable ledger, the budgets derived from it and the
policy that picks an action. -/
namespace ProjectOS.Orchestration
open Base

inductive RecoveryAction where
  | retryItem
  | retryBatch
  | resume
  | requestReplan
  | block
  | fail
deriving DecidableEq, Repr

namespace RecoveryAction

def value : RecoveryAction → String
  | retryItem => "retry_item"
  | retryBatch => "retry_batch"
  | resume => "resume"
  | requestReplan => "request_replan"
  | block => "block"
  | fail => "fail"

def all : List RecoveryAction := [retryItem, retryBatch, resume, requestReplan, block, fail]

/-- `RecoveryAction(text)`. -/
def parse (text : String) : Result RecoveryAction := enumMember "RecoveryAction" all value text

@[simp] theorem parse_value (action : RecoveryAction) : parse action.value = .ok action := by
  cases action <;> decide

/-- `_budget_actions`: the actions that spend a retry. -/
def spendsBudget : RecoveryAction → Bool
  | retryItem => true
  | retryBatch => true
  | resume => true
  | _ => false

end RecoveryAction

inductive RetryScope where
  | planning
  | run
  | batch
  | workItem
deriving DecidableEq, Repr

namespace RetryScope

def value : RetryScope → String
  | planning => "planning"
  | run => "run"
  | batch => "batch"
  | workItem => "work_item"

def all : List RetryScope := [planning, run, batch, workItem]

/-- `RetryScope(text)`. -/
def parse (text : String) : Result RetryScope := enumMember "RetryScope" all value text

@[simp] theorem parse_value (scope : RetryScope) : parse scope.value = .ok scope := by
  cases scope <;> decide

end RetryScope

structure RecordFields where
  scope : RetryScope
  subjectId : String
  attempt : Int
  maxAttempts : Int
  action : RecoveryAction
  failure : FailureSignal
  rootWorkItemId : Option String := none
  interruptedWorkItemIds : List String := []
  createdAt : String
deriving DecidableEq

def RecordFields.postInit (raw : RecordFields) : Result Unit := do
  raiseWhen (Text.blank raw.subjectId) "RetryRecord.subject_id 不能为空"
  raiseWhen (raw.attempt < 1 || raw.maxAttempts < 1) "RetryRecord 尝试次数必须从 1 开始"
  raiseWhen (raw.rootWorkItemId.any Text.blank) "RetryRecord.root_work_item_id 不能为空字符串"
  raiseWhen (raw.interruptedWorkItemIds.any Text.blank)
    "RetryRecord.interrupted_work_item_ids 包含空值"
  raiseWhen (hasDuplicates raw.interruptedWorkItemIds)
    "RetryRecord.interrupted_work_item_ids 不能重复"
  raiseWhen (raw.rootWorkItemId.any (· ∈ raw.interruptedWorkItemIds))
    "RetryRecord 根因不能同时标记为 interrupted"

/-- One durable recovery decision. -/
structure RetryRecord extends RecordFields where
  accepted : toRecordFields.postInit = .ok ()

namespace RetryRecord

def create (raw : RecordFields) : Result RetryRecord :=
  match h : raw.postInit with
  | .ok () => .ok ⟨raw, h⟩
  | .error e => .error e

theorem create_eq_ok {raw : RecordFields} {record : RetryRecord} :
    create raw = .ok record ↔ record.toRecordFields = raw := by
  unfold create
  split
  · rename_i h
    constructor
    · intro h'
      cases h'
      rfl
    · intro h'
      subst h'
      rfl
  · rename_i e h
    simp only [reduceCtorEq, false_iff]
    rintro rfl
    rw [record.accepted] at h
    cases h

def asDict (record : RetryRecord) : Json := .obj [
  ("scope", .str record.scope.value),
  ("subject_id", .str record.subjectId),
  ("attempt", .int record.attempt),
  ("max_attempts", .int record.maxAttempts),
  ("action", .str record.action.value),
  ("failure", record.failure.asDict),
  ("root_work_item_id", .optStr record.rootWorkItemId),
  ("interrupted_work_item_ids", .strs record.interruptedWorkItemIds),
  ("created_at", .str record.createdAt)]

def fromDict (payload : Json) : Result RetryRecord :=
  match payload.get "failure", payload.getD "interrupted_work_item_ids" (.arr []) with
  | .obj failure, .arr interrupted => do
      let scope ← RetryScope.parse (← require payload "scope").pyStr
      let subjectId ← require payload "subject_id"
      let attempt ← pyInt (← require payload "attempt")
      let maxAttempts ← pyInt (← require payload "max_attempts")
      let action ← RecoveryAction.parse (← require payload "action").pyStr
      let failure ← FailureSignal.fromDict (.obj failure)
      let createdAt ← require payload "created_at"
      create {
        scope := scope
        subjectId := subjectId.pyStr
        attempt := attempt
        maxAttempts := maxAttempts
        action := action
        failure := failure
        rootWorkItemId := (payload.get "root_work_item_id").optText
        interruptedWorkItemIds := interrupted.map Json.pyStr
        createdAt := createdAt.pyStr }
  | _, _ => raise "retry ledger 记录格式无效"

@[simp] theorem fromDict_asDict (record : RetryRecord) : fromDict record.asDict = .ok record := by
  obtain ⟨fields, hfields⟩ : ∃ fields, record.failure.asDict = .obj fields := ⟨_, rfl⟩
  have hfailure : record.asDict.get "failure" = .obj fields := by
    simp [asDict, Json.get, Json.getD, hfields]
  have hinterrupted : record.asDict.getD "interrupted_work_item_ids" (.arr []) =
      .arr (record.interruptedWorkItemIds.map .str) := by
    simp [asDict, Json.getD, Json.strs]
  have hsignal : FailureSignal.fromDict (.obj fields) = .ok record.failure := by
    rw [← hfields]
    exact FailureSignal.fromDict_asDict record.failure
  simp only [fromDict, hfailure, hinterrupted, hsignal]
  simp [asDict, require, Json.get, Json.getD, create_eq_ok]

/-- The records a work item's budget counts. -/
def concerns (record : RetryRecord) (workItemId : String) : Bool :=
  record.subjectId == workItemId || record.rootWorkItemId == some workItemId

end RetryRecord

/-- The ledger of one trace with the content of its file. -/
structure RetryLedger where
  traceId : String
  file : Option Json := none

/-- The three counts a decision reads. -/
structure RetryCounts where
  totalRetries : Nat
  itemRetries : Nat
  kindRetries : Nat

def budgetCount (records : List RetryRecord) : Nat := records.countP (·.action.spendsBudget)

def budgetCountForWorkItem (workItemId : String) (records : List RetryRecord) : Nat :=
  records.countP fun record => record.action.spendsBudget && record.concerns workItemId

def budgetCountForKind (workItemId : String) (kind : FailureKind) (records : List RetryRecord) :
    Nat :=
  records.countP fun record =>
    record.action.spendsBudget && record.failure.kind == kind && record.concerns workItemId

namespace RetryLedger

def schemaVersion : Int := 1

def records (ledger : RetryLedger) : Result (List RetryRecord) :=
  match ledger.file with
  | none => .ok []
  | some payload =>
      match payload.get "records" with
      | .arr raws =>
          if (payload.get "schema_version").isInt schemaVersion &&
              (payload.get "trace_id").isStr ledger.traceId then
            collect RetryRecord.fromDict (raws.filter Json.isDict)
          else raise "retry ledger 元数据无效"
      | _ => raise "retry ledger 元数据无效"

def write (ledger : RetryLedger) (records : List RetryRecord) : RetryLedger :=
  { ledger with file := some (.obj [
      ("schema_version", .int schemaVersion),
      ("trace_id", .str ledger.traceId),
      ("records", .arr (records.map RetryRecord.asDict))]) }

def append (ledger : RetryLedger) (record : RetryRecord) : Result RetryLedger := do
  let records ← ledger.records
  .ok (ledger.write (records ++ [record]))

def nextAttempt (ledger : RetryLedger) (scope : RetryScope) (subjectId : String) : Result Nat := do
  let records ← ledger.records
  .ok (1 + records.countP fun record => record.scope == scope && record.subjectId == subjectId)

/-- The counts for one item and failure kind. -/
def counts (ledger : RetryLedger) (workItemId : String) (kind : FailureKind) :
    Result RetryCounts := do
  let records ← ledger.records
  .ok {
    totalRetries := budgetCount records
    itemRetries := budgetCountForWorkItem workItemId records
    kindRetries := budgetCountForKind workItemId kind records }

/-- An earlier record of the item with the same failure on the same evidence. -/
def hasSameFailureWithoutNewEvidence (ledger : RetryLedger) (workItemId : String)
    (signal : FailureSignal) : Result Bool := do
  let records ← ledger.records
  .ok (records.reverse.any fun record => record.concerns workItemId &&
    record.failure.failureFingerprint == signal.failureFingerprint &&
    record.failure.inputDigest == signal.inputDigest &&
    record.failure.evidenceId == signal.evidenceId)

/-- What is written is read back. -/
@[simp] theorem records_write (ledger : RetryLedger) (records : List RetryRecord) :
    (ledger.write records).records = .ok records := by
  have hread : collect RetryRecord.fromDict (records.map RetryRecord.asDict) = .ok records := by
    rw [collect_eq_ok]
    induction records with
    | nil => exact .nil
    | cons record rest ih => exact .cons (RetryRecord.fromDict_asDict record) ih
  have hdicts : (records.map RetryRecord.asDict).filter Json.isDict =
      records.map RetryRecord.asDict := by
    rw [List.filter_eq_self]
    intro payload hmem
    obtain ⟨record, _, rfl⟩ := List.mem_map.mp hmem
    rfl
  simp [write, RetryLedger.records, Json.get, Json.getD, Json.isInt, Json.isStr, hdicts, hread]

theorem append_eq_ok {ledger ledger' : RetryLedger} {record : RetryRecord}
    (h : ledger.append record = .ok ledger') :
    ∃ records, ledger.records = .ok records ∧ ledger'.records = .ok (records ++ [record]) := by
  obtain ⟨records, hrecords, hwrite⟩ := bind_eq_ok.mp h
  refine ⟨records, hrecords, ?_⟩
  rw [← Except.ok.inj hwrite, records_write]

end RetryLedger

/-- Limits of a whole run, of one work item and of one failure kind. -/
structure RetryLimits where
  maxTotalRetries : Nat := 12
  maxRetriesPerWorkItem : Nat := 2
  maxRetriesByKind : List (FailureKind × Nat) := [
    (.agentRuntime, 1), (.providerTransport, 1), (.providerEmptyResponse, 1),
    (.providerTerminalMissing, 1), (.sandboxTimeout, 1), (.testFailure, 0), (.sandboxSetup, 0),
    (.testEvidenceMissing, 1), (.implementationSummaryMissing, 1), (.repairNoFileChange, 1),
    (.runtimePreflight, 0), (.architectureContractMissing, 2), (.architectureSchemaValidation, 1),
    (.toolContractMismatch, 0), (.artifactContractViolation, 1), (.artifactCommitFailure, 0),
    (.codeDeliveryIncomplete, 2), (.toolExecution, 1), (.plannerValidation, 1), (.providerStall, 1),
    (.workerTimeout, 1), (.workerCrash, 1), (.workerBootstrapFailure, 0)]

def RetryLimits.maxRetriesFor (limits : RetryLimits) (kind : FailureKind) : Nat :=
  ((Dict.ofList limits.maxRetriesByKind).get? kind).getD 0

def RetryLimits.maxAttemptsFor (limits : RetryLimits) (kind : FailureKind) : Nat :=
  limits.maxRetriesFor kind + 1

structure RetryPolicy where
  limits : RetryLimits := {}

namespace RetryPolicy

def maxWorkItemAttempts (policy : RetryPolicy) : Nat := policy.limits.maxRetriesPerWorkItem + 1

def exhausted (policy : RetryPolicy) (kind : FailureKind) (counts : RetryCounts) : Bool :=
  counts.totalRetries ≥ policy.limits.maxTotalRetries ||
    counts.itemRetries ≥ policy.limits.maxRetriesPerWorkItem ||
    counts.kindRetries ≥ policy.limits.maxRetriesFor kind

/-- The action of a failure kind that still has budget. -/
def actionWithinBudget : FailureKind → RecoveryAction
  | .providerStall | .workerTimeout | .workerCrash => .resume
  | .sandboxTimeout | .testEvidenceMissing | .implementationSummaryMissing
  | .repairNoFileChange | .agentRuntime | .providerTransport | .providerEmptyResponse
  | .providerTerminalMissing | .architectureContractMissing | .architectureSchemaValidation
  | .artifactContractViolation | .codeDeliveryIncomplete | .plannerValidation => .retryItem
  | _ => .fail

def actionFor (policy : RetryPolicy) (signal : FailureSignal) (counts : RetryCounts) :
    RecoveryAction :=
  if !signal.retryable then .block
  else if signal.kind ∈ [.sandboxSetup, .workerBootstrapFailure, .toolContractMismatch,
      .artifactCommitFailure] then .block
  else if signal.kind = .testFailure then .requestReplan
  else if policy.exhausted signal.kind counts then .fail
  else actionWithinBudget signal.kind

/-- An action that spends a retry was within all three limits. -/
theorem lt_limits_of_actionFor {policy : RetryPolicy} {signal : FailureSignal}
    {counts : RetryCounts} (h : (policy.actionFor signal counts).spendsBudget = true) :
    counts.totalRetries < policy.limits.maxTotalRetries ∧
      counts.itemRetries < policy.limits.maxRetriesPerWorkItem ∧
      counts.kindRetries < policy.limits.maxRetriesFor signal.kind := by
  have hexhausted : policy.exhausted signal.kind counts = false := by
    unfold actionFor at h
    split at h
    · cases h
    · split at h
      · cases h
      · split at h
        · cases h
        · split at h
          · cases h
          · rename_i hopen
            simpa using hopen
  simpa [exhausted, and_assoc] using hexhausted

/-- The default limits name every kind once except the explicit policy rejection,
which is never retried. -/
example : (FailureKind.all.filter fun kind =>
    kind ∉ ({} : RetryLimits).maxRetriesByKind.map Prod.fst) = [.providerPolicyRejected] := by
  decide

end RetryPolicy
end ProjectOS.Orchestration
