import ProjectOS.Orchestration.RetryBudget

/-! Retries of a worker that the watchdog stopped. Each stop of an open run is
filed in the retry ledger of the trace, beside the decisions of the runner and of
the planner, and the ledger decides whether the run may resume by itself. -/
namespace ProjectOS.Application
open Base Orchestration

/-- `_monitor_failure_kind`; a cancellation is no failure. -/
def monitorFailureKind (event source : String) : Option FailureKind :=
  if event = "provider_stall_timeout" then some .providerStall
  else if event = "worker_timed_out" then some .workerTimeout
  else if event = "worker_failed" then
    some (if source = "worker_bootstrap" || source = "worker_startup" then .workerBootstrapFailure
      else .workerCrash)
  else none

/-- A forced stop of the worker, with the batch its progress names. A detail that
is absent is the empty text. -/
structure ExternalStop where
  event : String
  summary : String
  error : String
  source : String := ""
  workItemId : String := ""
  stalledWorkItems : List String := []
  contractDigest : String := ""
  activeBatchId : Option String := none
  batchItems : List String := []
  closedItems : List String := []
  traceIsTerminal : Bool := false
  failed : Bool := true
  createdAt : String := ""

namespace ExternalStop
variable (stop : ExternalStop)

def rootWorkItemId : Option String :=
  if stop.workItemId ≠ "" then some stop.workItemId
  else match stop.stalledWorkItems with
    | first :: _ => some first
    | [] => stop.batchItems.head?

/-- The item the budgets are read for: an empty id counts as none. -/
def root : Option String := stop.rootWorkItemId.filter (· ≠ "")

def signal (kind : FailureKind) : FailureSignal where
  kind := kind
  summary := stop.summary ++ ": " ++ stop.error
  inputDigest := if stop.contractDigest = "" then none else some stop.contractDigest
  retryHint := some (if kind = .workerBootstrapFailure then "repair_worker_bootstrap"
    else "resume_from_checkpoint")

def scope : RetryScope := if stop.activeBatchId.isSome then .batch else .run

def subjectId (traceId : String) : String := stop.activeBatchId.getD traceId

def activeItems : List String := if stop.closedItems.isEmpty then stop.batchItems else stop.closedItems

/-- The counts behind the decision; without a root only the total is read. -/
def counts (kind : FailureKind) (records : List RetryRecord) : RetryCounts where
  totalRetries := budgetCount records
  itemRetries := match stop.root with
    | some item => budgetCountForWorkItem item records
    | none => 0
  kindRetries := match stop.root with
    | some item => budgetCountForKind item kind records
    | none => 0

def action (policy : RetryPolicy) (kind : FailureKind) (records : List RetryRecord) :
    RecoveryAction :=
  let action := policy.actionFor (stop.signal kind) (stop.counts kind records)
  if stop.scope = .batch && action = .resume then .retryBatch else action

/-- `_record_monitor_retry`. -/
def recordMonitorRetry (policy : RetryPolicy) (ledger : RetryLedger) (kind : FailureKind) :
    Result (RetryLedger × RetryRecord) := do
  let records ← ledger.records
  let attempt ← ledger.nextAttempt stop.scope (stop.subjectId ledger.traceId)
  let record ← RetryRecord.create {
    scope := stop.scope
    subjectId := stop.subjectId ledger.traceId
    attempt := attempt
    maxAttempts := policy.limits.maxAttemptsFor kind
    action := stop.action policy kind records
    failure := stop.signal kind
    rootWorkItemId := stop.rootWorkItemId
    interruptedWorkItemIds := stop.activeItems.filter (some · ≠ stop.rootWorkItemId)
    createdAt := stop.createdAt }
  .ok (← ledger.append record, record)

/-- The failure that `_finalize_external_run` files, if any. -/
def filed : Option FailureKind :=
  if stop.traceIsTerminal || !stop.failed then none
  else monitorFailureKind stop.event stop.source

def finalizeExternalRun (policy : RetryPolicy) (ledger : RetryLedger) : Result RetryLedger :=
  match stop.filed with
  | none => .ok ledger
  | some kind => do
      let (ledger, _) ← stop.recordMonitorRetry policy ledger kind
      .ok ledger

end ExternalStop

/-- What happens to the ledger of a trace: a stop by the watchdog, a decision of
the runner on an item or a batch, a decision of the planner. -/
inductive Activity where
  | watchdog (stop : ExternalStop)
  | item (item : WorkItem) (signal : FailureSignal) (createdAt : String)
  | batch (batchId : String) (results : List (String × NodeResult)) (createdAt : String)
  | planning (record : RetryRecord)

/-- A planner's decision is filed under the plan, without a root. -/
def planningDecision (ledger : RetryLedger) (record : RetryRecord) : Result RetryLedger := do
  let attempt ← ledger.nextAttempt .planning record.subjectId
  if record.scope = .planning ∧ record.rootWorkItemId = none ∧ record.attempt = attempt then
    ledger.append record
  else .ok ledger

/-- The ledger after an activity; one that raises files nothing. -/
def step (policy : RetryPolicy) (ledger : RetryLedger) : Activity → RetryLedger
  | .watchdog stop => (stop.finalizeExternalRun policy ledger).toOption.getD ledger
  | .item item signal createdAt =>
      ((handleFailure policy ledger item signal createdAt).map (·.1)).toOption.getD ledger
  | .batch batchId results createdAt =>
      ((finishMonitorBatch policy ledger batchId results createdAt).map (·.1)).toOption.getD ledger
  | .planning record => (planningDecision ledger record).toOption.getD ledger

/-- Every ledger of a run, the first one included. -/
def ledgers (policy : RetryPolicy) (ledger : RetryLedger) : List Activity → List RetryLedger
  | [] => [ledger]
  | activity :: rest => ledger :: ledgers policy (step policy ledger activity) rest

/-- What a recovery belongs to: the root work item or, without one, the batch or the run. -/
inductive RecoverySubject where
  | workItem (id : String)
  | batch (id : String)
  | run (id : String)

def RecoverySubject.owns : RecoverySubject → RetryRecord → Bool
  | .workItem id, record => record.rootWorkItemId == some id
  | .batch id, record =>
      record.rootWorkItemId == none && record.scope == .batch && record.subjectId == id
  | .run id, record =>
      record.rootWorkItemId == none && record.scope == .run && record.subjectId == id

/-- The action lets the run go on by itself. -/
def resumesByItself (action : RecoveryAction) : Bool := action == .resume || action == .retryBatch

def resumes (subject : RecoverySubject) (kind : FailureKind) (records : List RetryRecord) : Nat :=
  records.countP fun record =>
    resumesByItself record.action && record.failure.kind == kind && subject.owns record

def attempts (scope : RetryScope) (subjectId : String) (records : List RetryRecord) : List Int :=
  (records.filter fun record => record.scope == scope && record.subjectId == subjectId).map
    (·.attempt)

/-- The resumes of every subject and kind are within the limit of the kind. -/
def Bounded (policy : RetryPolicy) (records : List RetryRecord) : Prop :=
  ∀ subject kind, resumes subject kind records ≤ policy.limits.maxRetriesFor kind

/-- The attempts of a scope and subject are numbered from one on. -/
def Numbered (records : List RetryRecord) : Prop :=
  ∀ scope subjectId, attempts scope subjectId records =
    (List.range (attempts scope subjectId records).length).map fun k : Nat => (k : Int) + 1

/-- The ledger can be read and holds what the budgets promise. -/
structure Kept (policy : RetryPolicy) (ledger : RetryLedger) : Prop where
  kept : ∃ records, ledger.records = .ok records ∧ Bounded policy records ∧ Numbered records

section append
variable {policy : RetryPolicy} {ledger ledger' : RetryLedger} {records : List RetryRecord}
  {record : RetryRecord}

/-- The record is appended with the next number of its scope and subject. -/
structure Filed (ledger ledger' : RetryLedger) (record : RetryRecord) : Prop where
  append : ledger.append record = .ok ledger'
  attempt : ∃ attempt, ledger.nextAttempt record.scope record.subjectId = .ok attempt ∧
    record.attempt = attempt

theorem spendsBudget_of_resumes {action : RecoveryAction} (h : resumesByItself action = true) :
    action.spendsBudget = true := by
  revert h
  cases action <;> simp [resumesByItself, RecoveryAction.spendsBudget]

/-- The resumes of an item are among the retries its budget counts. -/
theorem resumes_le_budgetCountForKind (id : String) (kind : FailureKind)
    (records : List RetryRecord) :
    resumes (.workItem id) kind records ≤ budgetCountForKind id kind records := by
  apply List.countP_mono_left
  intro record _ hrecord
  simp only [RecoverySubject.owns, Bool.and_eq_true, beq_iff_eq] at hrecord
  obtain ⟨⟨hresumes, hkind⟩, hroot⟩ := hrecord
  simp [RetryRecord.concerns, spendsBudget_of_resumes hresumes, hkind, hroot]

/-- A resume is below the limit of its kind for every subject it belongs to. -/
def Within (policy : RetryPolicy) (records : List RetryRecord) (record : RetryRecord) : Prop :=
  ∀ subject : RecoverySubject, subject.owns record = true → resumesByItself record.action = true →
    resumes subject record.failure.kind records < policy.limits.maxRetriesFor record.failure.kind

theorem resumes_append (subject : RecoverySubject) (kind : FailureKind) :
    resumes subject kind (records ++ [record]) = resumes subject kind records +
      if resumesByItself record.action && record.failure.kind == kind && subject.owns record
      then 1 else 0 := by
  rw [resumes, List.countP_append, List.countP_singleton]
  rfl

theorem bounded_append_iff (h : Bounded policy records) :
    Bounded policy (records ++ [record]) ↔ Within policy records record := by
  constructor
  · intro hbounded subject howns hresumes
    have hcount := hbounded subject record.failure.kind
    rw [resumes_append, hresumes, howns, beq_self_eq_true, Bool.and_self, Bool.and_self,
      if_pos rfl] at hcount
    omega
  · intro hwithin subject kind
    rw [resumes_append]
    split
    · rename_i hcounts
      simp only [Bool.and_eq_true, beq_iff_eq] at hcounts
      obtain ⟨⟨hresumes, rfl⟩, howns⟩ := hcounts
      exact hwithin subject howns hresumes
    · exact h subject kind

theorem attempts_append (scope : RetryScope) (subjectId : String) :
    attempts scope subjectId (records ++ [record]) = attempts scope subjectId records ++
      if record.scope == scope && record.subjectId == subjectId then [record.attempt] else [] := by
  rw [attempts, attempts, List.filter_append, List.map_append, List.filter_singleton]
  cases record.scope == scope && record.subjectId == subjectId <;> rfl

theorem Numbered.append (h : Numbered records)
    (hattempt : record.attempt = ((attempts record.scope record.subjectId records).length : Int) + 1) :
    Numbered (records ++ [record]) := by
  intro scope subjectId
  rw [attempts_append]
  split
  · rename_i hsame
    simp only [Bool.and_eq_true, beq_iff_eq] at hsame
    obtain ⟨rfl, rfl⟩ := hsame
    rw [List.length_append, List.length_singleton, List.range_succ, List.map_append,
      ← h record.scope record.subjectId, List.map_singleton, hattempt]
  · rw [List.append_nil]
    exact h scope subjectId

theorem Filed.kept_iff (hfiled : Filed ledger ledger' record) (hread : ledger.records = .ok records)
    (hbounded : Bounded policy records) (hnumbered : Numbered records) :
    Kept policy ledger' ↔ Within policy records record := by
  obtain ⟨before, hbefore, hafter⟩ := RetryLedger.append_eq_ok hfiled.append
  cases hread.symm.trans hbefore
  obtain ⟨attempt, hnext, hattempt⟩ := hfiled.attempt
  have hnumber : Numbered (records ++ [record]) := by
    apply hnumbered.append
    simp only [RetryLedger.nextAttempt, hread, ok_bind, Except.ok.injEq] at hnext
    rw [hattempt, ← hnext, attempts, List.length_map, ← List.countP_eq_length_filter]
    omega
  rw [← bounded_append_iff hbounded]
  constructor
  · rintro ⟨after, hread', hkept, -⟩
    cases hafter.symm.trans hread'
    exact hkept
  · exact fun hkept => ⟨_, hafter, hkept, hnumber⟩

end append

namespace ExternalStop
variable {stop : ExternalStop} {policy : RetryPolicy} {ledger ledger' : RetryLedger}
  {records : List RetryRecord} {record : RetryRecord} {kind : FailureKind}

def subject (stop : ExternalStop) (traceId : String) : RecoverySubject :=
  match stop.activeBatchId with
  | some batchId => .batch batchId
  | none => .run traceId

/-- Where no root is known the retry was checked against the total only: either
that stops it, or the kind has resumes left for the batch or the run. -/
def Covered (stop : ExternalStop) (policy : RetryPolicy) (ledger : RetryLedger) : Prop :=
  ∀ kind records, stop.filed = some kind → ledger.records = .ok records →
    stop.rootWorkItemId.isSome = true ∨ kind = .workerBootstrapFailure ∨
      policy.exhausted kind ⟨budgetCount records, 0, 0⟩ = true ∨
      resumes (stop.subject ledger.traceId) kind records < policy.limits.maxRetriesFor kind

/-- What a filed record says of the stop. -/
structure Describes (stop : ExternalStop) (policy : RetryPolicy) (traceId : String)
    (kind : FailureKind) (records : List RetryRecord) (record : RetryRecord) : Prop where
  scope : record.scope = stop.scope
  subjectId : record.subjectId = stop.subjectId traceId
  action : record.action = stop.action policy kind records
  kind : record.failure.kind = kind
  root : record.rootWorkItemId = stop.rootWorkItemId
  named : ∀ item, stop.rootWorkItemId = some item → stop.root = some item

theorem recordMonitorRetry_eq_ok (hread : ledger.records = .ok records)
    (h : stop.recordMonitorRetry policy ledger kind = .ok (ledger', record)) :
    Filed ledger ledger' record ∧ stop.Describes policy ledger.traceId kind records record := by
  simp only [recordMonitorRetry, bind_eq_ok] at h
  obtain ⟨before, hbefore, attempt, hattempt, made, hmade, appended, happend, heq⟩ := h
  cases hread.symm.trans hbefore
  cases heq
  have hfields := RetryRecord.create_eq_ok.mp hmade
  have hnamed : ∀ item, stop.rootWorkItemId = some item → stop.root = some item := by
    intro item hitem
    have haccepted := record.accepted
    rw [hfields, hitem] at haccepted
    have hblank : Text.blank item = false := by
      simp only [RecordFields.postInit, raiseWhen_bind_eq_ok, Option.any_some] at haccepted
      exact haccepted.2.2.1
    rw [root, hitem, Option.filter_some, if_pos]
    rw [decide_eq_true_eq]
    rintro rfl
    cases hblank
  constructor
  · constructor
    · exact happend
    · rw [hfields]
      exact ⟨attempt, hattempt, rfl⟩
  · constructor
    · rw [hfields]
    · rw [hfields]
    · rw [hfields]
    · rw [hfields]
      rfl
    · rw [hfields]
    · exact hnamed

/-- A resume was granted by the policy, within the limits it was shown. -/
theorem lt_limits_of_action (h : resumesByItself (stop.action policy kind records) = true) :
    kind ≠ .workerBootstrapFailure ∧
      (stop.counts kind records).totalRetries < policy.limits.maxTotalRetries ∧
      (stop.counts kind records).itemRetries < policy.limits.maxRetriesPerWorkItem ∧
      (stop.counts kind records).kindRetries < policy.limits.maxRetriesFor kind := by
  have hspends : (policy.actionFor (stop.signal kind) (stop.counts kind records)).spendsBudget =
      true := by
    unfold action at h
    dsimp only at h
    split at h
    · rename_i hbatch
      rw [Bool.and_eq_true, decide_eq_true_eq, decide_eq_true_eq] at hbatch
      rw [hbatch.2]
      rfl
    · revert h
      cases policy.actionFor (stop.signal kind) (stop.counts kind records) <;>
        simp [resumesByItself, RecoveryAction.spendsBudget]
  refine ⟨?_, RetryPolicy.lt_limits_of_actionFor hspends⟩
  rintro rfl
  have hblock : policy.actionFor (stop.signal .workerBootstrapFailure)
      (stop.counts .workerBootstrapFailure records) = .block := rfl
  rw [hblock] at hspends
  cases hspends

theorem exhausted_eq_false (h : stop.rootWorkItemId = none)
    (hresumes : resumesByItself (stop.action policy kind records) = true) :
    policy.exhausted kind ⟨budgetCount records, 0, 0⟩ = false := by
  obtain ⟨-, htotal, hitem, hkind⟩ := lt_limits_of_action hresumes
  have hroot : stop.root = none := by rw [root, h, Option.filter_none]
  simp only [counts, hroot] at htotal hitem hkind
  simp only [RetryPolicy.exhausted, Bool.or_eq_false_iff, decide_eq_false_iff_not]
  omega

theorem filed_kind (h : stop.filed = some kind) :
    kind = .providerStall ∨ kind = .workerTimeout ∨ kind = .workerCrash ∨
      kind = .workerBootstrapFailure := by
  unfold filed at h
  split at h
  · cases h
  · unfold monitorFailureKind at h
    split_ifs at h <;> simp_all

/-- Without a root the policy grants what the total allows. -/
theorem resumes_of_open (hroot : stop.rootWorkItemId = none) (hfiled : stop.filed = some kind)
    (hkind : kind ≠ .workerBootstrapFailure)
    (hopen : policy.exhausted kind ⟨budgetCount records, 0, 0⟩ = false) :
    resumesByItself (stop.action policy kind records) = true := by
  have hnone : stop.root = none := by rw [root, hroot, Option.filter_none]
  have hcounts : stop.counts kind records = ⟨budgetCount records, 0, 0⟩ := by
    rw [counts, hnone]
  have haction : policy.actionFor (stop.signal kind) (stop.counts kind records) = .resume := by
    rw [hcounts]
    rcases filed_kind hfiled with rfl | rfl | rfl | rfl
    · simp [RetryPolicy.actionFor, signal, hopen, RetryPolicy.actionWithinBudget]
    · simp [RetryPolicy.actionFor, signal, hopen, RetryPolicy.actionWithinBudget]
    · simp [RetryPolicy.actionFor, signal, hopen, RetryPolicy.actionWithinBudget]
    · exact absurd rfl hkind
  rw [action, haction]
  split <;> rfl

theorem owns_iff (h : stop.Describes policy ledger.traceId kind records record)
    (hroot : stop.rootWorkItemId = none) (subject : RecoverySubject) :
    subject.owns record = true ↔ subject = stop.subject ledger.traceId := by
  have hnone : record.rootWorkItemId = none := h.root.trans hroot
  cases hbatch : stop.activeBatchId with
  | none =>
    have hscope : record.scope = .run := by rw [h.scope, scope, hbatch]; rfl
    have hid : record.subjectId = ledger.traceId := by rw [h.subjectId, subjectId, hbatch]; rfl
    cases subject with
    | workItem id => simp [RecoverySubject.owns, ExternalStop.subject, hbatch, hnone]
    | batch id => simp [RecoverySubject.owns, ExternalStop.subject, hbatch, hnone, hscope]
    | run id =>
      simp only [RecoverySubject.owns, ExternalStop.subject, hbatch, hnone, hscope, hid,
        beq_self_eq_true, Bool.and_self, Bool.true_and, beq_iff_eq, RecoverySubject.run.injEq]
      exact eq_comm
  | some batchId =>
    have hscope : record.scope = .batch := by rw [h.scope, scope, hbatch]; rfl
    have hid : record.subjectId = batchId := by rw [h.subjectId, subjectId, hbatch]; rfl
    cases subject with
    | workItem id => simp [RecoverySubject.owns, ExternalStop.subject, hbatch, hnone]
    | run id => simp [RecoverySubject.owns, ExternalStop.subject, hbatch, hnone, hscope]
    | batch id =>
      simp only [RecoverySubject.owns, ExternalStop.subject, hbatch, hnone, hscope, hid,
        beq_self_eq_true, Bool.and_self, Bool.true_and, beq_iff_eq, RecoverySubject.batch.injEq]
      exact eq_comm

/-- A filed stop keeps the budgets exactly where it is covered. -/
theorem within_iff_covered (hfiled : stop.filed = some kind) (hread : ledger.records = .ok records)
    (h : stop.Describes policy ledger.traceId kind records record) :
    Within policy records record ↔ stop.Covered policy ledger := by
  rw [Within, h.action, h.kind]
  cases hroot : stop.rootWorkItemId with
  | some item =>
    refine iff_of_true ?_ fun _ _ _ _ => .inl (by rw [hroot]; rfl)
    intro subject howns hresumes
    obtain ⟨-, -, -, hkind⟩ := lt_limits_of_action hresumes
    rw [counts, h.named item hroot] at hkind
    have hsubject : subject = .workItem item := by
      have hsome : record.rootWorkItemId = some item := h.root.trans hroot
      cases subject <;> simp_all [RecoverySubject.owns]
    rw [hsubject]
    exact (resumes_le_budgetCountForKind item kind records).trans_lt hkind
  | none =>
    simp only [owns_iff h hroot, forall_eq]
    constructor
    · intro hwithin kind' records' hfiled' hread'
      cases hfiled.symm.trans hfiled'
      cases hread.symm.trans hread'
      by_cases hkind : kind = .workerBootstrapFailure
      · exact .inr (.inl hkind)
      · cases hopen : policy.exhausted kind ⟨budgetCount records, 0, 0⟩ with
        | true => exact .inr (.inr (.inl rfl))
        | false => exact .inr (.inr (.inr (hwithin (resumes_of_open hroot hfiled hkind hopen))))
    · intro hcovered hresumes
      rcases hcovered kind records hfiled hread with hsome | hkind | hexhausted | hbelow
      · rw [hroot] at hsome
        cases hsome
      · exact absurd hkind (lt_limits_of_action hresumes).1
      · rw [exhausted_eq_false hroot hresumes] at hexhausted
        cases hexhausted
      · exact hbelow

end ExternalStop

section run
variable {policy : RetryPolicy} {ledger ledger' : RetryLedger} {records : List RetryRecord}

theorem recordRetryDecision_filed {item : WorkItem} {signal : FailureSignal}
    {action : RecoveryAction} {createdAt : String} {record : RetryRecord}
    (h : recordRetryDecision policy ledger item signal action createdAt = .ok (ledger', record)) :
    Filed ledger ledger' record := by
  simp only [recordRetryDecision, bind_eq_ok] at h
  obtain ⟨attempt, hattempt, made, hmade, appended, happend, heq⟩ := h
  cases heq
  have hfields := RetryRecord.create_eq_ok.mp hmade
  constructor
  · exact happend
  · rw [hfields]
    exact ⟨attempt, hattempt, rfl⟩

/-- A decision on an item is filed under the item, below the limits it read. -/
theorem handleFailure_filed {item : WorkItem} {signal : FailureSignal} {createdAt : String}
    {made : Option RetryRecord} (hread : ledger.records = .ok records)
    (h : handleFailure policy ledger item signal createdAt = .ok (ledger', made)) :
    ledger' = ledger ∨ ∃ record, Filed ledger ledger' record ∧ Within policy records record := by
  rcases RecoveryRun.handleFailure_eq_ok hread h with ⟨-, hsame⟩ | ⟨record, rfl, -, hdecided⟩
  · exact .inl hsame
  · refine .inr ⟨record, ?_, ?_⟩
    · simp only [handleFailure, bind_eq_ok] at h
      obtain ⟨route, -, h⟩ := h
      cases route with
      | controlPlane | repairPlanner => cases h
      | circuitOpen =>
        simp only [bind_eq_ok] at h
        obtain ⟨⟨appended, made⟩, hmade, heq⟩ := h
        cases heq
        exact recordRetryDecision_filed hmade
      | recovery =>
        simp only [bind_eq_ok] at h
        obtain ⟨⟨appended, made⟩, hmade, heq⟩ := h
        cases heq
        simp only [recoveryAction, bind_eq_ok] at hmade
        obtain ⟨counts, -, hmade⟩ := hmade
        exact recordRetryDecision_filed hmade
    · intro subject howns hresumes
      obtain ⟨-, -, hkind⟩ := hdecided.within (spendsBudget_of_resumes hresumes)
      have hsubject : subject = .workItem item.id := by
        cases subject <;> simp_all [RecoverySubject.owns, hdecided.root]
      rw [hsubject]
      exact (resumes_le_budgetCountForKind item.id _ records).trans_lt hkind

/-- The record of a batch grants nothing. -/
theorem finishMonitorBatch_filed {batchId createdAt : String} {results : List (String × NodeResult)}
    {made : Option RetryRecord}
    (h : finishMonitorBatch policy ledger batchId results createdAt = .ok (ledger', made)) :
    ledger' = ledger ∨ ∃ record, Filed ledger ledger' record ∧ Within policy records record := by
  rcases RecoveryRun.finishMonitorBatch_eq_ok h with ⟨-, hsame⟩ | ⟨record, rfl, -, hspends⟩
  · exact .inl hsame
  · refine .inr ⟨record, ?_, ?_⟩
    · unfold finishMonitorBatch at h
      split at h
      · cases h
      · simp only [bind_eq_ok] at h
        obtain ⟨attempt, hattempt, made, hmade, appended, happend, heq⟩ := h
        cases heq
        have hfields := RetryRecord.create_eq_ok.mp hmade
        constructor
        · exact happend
        · rw [hfields]
          exact ⟨attempt, hattempt, rfl⟩
    · intro subject _ hresumes
      rw [spendsBudget_of_resumes hresumes] at hspends
      cases hspends

/-- A record of the planner belongs to none of the subjects. -/
theorem planningDecision_filed {record : RetryRecord}
    (h : planningDecision ledger record = .ok ledger') :
    ledger' = ledger ∨ ∃ record, Filed ledger ledger' record ∧ Within policy records record := by
  simp only [planningDecision, bind_eq_ok] at h
  obtain ⟨attempt, hattempt, h⟩ := h
  split at h
  · rename_i hplanning
    obtain ⟨hscope, hroot, hnumber⟩ := hplanning
    refine .inr ⟨record, ⟨h, attempt, by rw [hscope, hattempt], hnumber⟩, ?_⟩
    intro subject howns _
    cases subject <;> simp [RecoverySubject.owns, hroot, hscope] at howns
  · exact .inl (Except.ok.inj h).symm

/-- A stop without a root is covered; every other activity checks the limits itself. -/
def Activity.Covered (policy : RetryPolicy) (ledger : RetryLedger) : Activity → Prop
  | .watchdog stop => stop.Covered policy ledger
  | _ => True

theorem finalizeExternalRun_filed {stop : ExternalStop} (hread : ledger.records = .ok records)
    (h : stop.finalizeExternalRun policy ledger = .ok ledger') :
    ledger' = ledger ∨ ∃ record, Filed ledger ledger' record ∧
      (Within policy records record ↔ stop.Covered policy ledger) := by
  unfold ExternalStop.finalizeExternalRun at h
  split at h
  · exact .inl (Except.ok.inj h).symm
  · rename_i kind hfiled
    simp only [bind_eq_ok] at h
    obtain ⟨⟨appended, record⟩, hrecord, heq⟩ := h
    cases heq
    obtain ⟨happended, hdescribes⟩ := ExternalStop.recordMonitorRetry_eq_ok hread hrecord
    exact .inr ⟨record, happended, ExternalStop.within_iff_covered hfiled hread hdescribes⟩

/-- An activity leaves the ledger as it is or files one record. -/
theorem step_cases (hread : ledger.records = .ok records) (activity : Activity) :
    step policy ledger activity = ledger ∨ ∃ record, Filed ledger (step policy ledger activity) record ∧
      (activity.Covered policy ledger → Within policy records record) := by
  cases activity with
  | watchdog stop =>
    cases hstop : stop.finalizeExternalRun policy ledger with
    | error => exact .inl (by rw [step, hstop]; rfl)
    | ok ledger' =>
      have hstep : step policy ledger (.watchdog stop) = ledger' := by rw [step, hstop]; rfl
      rw [hstep]
      exact (finalizeExternalRun_filed hread hstop).imp_right fun ⟨record, hfiled, hiff⟩ =>
        ⟨record, hfiled, hiff.mpr⟩
  | item item signal createdAt =>
    cases hitem : handleFailure policy ledger item signal createdAt with
    | error => exact .inl (by rw [step, hitem]; rfl)
    | ok out =>
      have hstep : step policy ledger (.item item signal createdAt) = out.1 := by
        rw [step, hitem]; rfl
      rw [hstep]
      exact (handleFailure_filed hread hitem).imp_right fun ⟨record, hfiled, hwithin⟩ =>
        ⟨record, hfiled, fun _ => hwithin⟩
  | batch batchId results createdAt =>
    cases hbatch : finishMonitorBatch policy ledger batchId results createdAt with
    | error => exact .inl (by rw [step, hbatch]; rfl)
    | ok out =>
      have hstep : step policy ledger (.batch batchId results createdAt) = out.1 := by
        rw [step, hbatch]; rfl
      rw [hstep]
      exact (finishMonitorBatch_filed hbatch).imp_right fun ⟨record, hfiled, hwithin⟩ =>
        ⟨record, hfiled, fun _ => hwithin⟩
  | planning record =>
    cases hplanning : planningDecision ledger record with
    | error => exact .inl (by rw [step, hplanning]; rfl)
    | ok ledger' =>
      have hstep : step policy ledger (.planning record) = ledger' := by rw [step, hplanning]; rfl
      rw [hstep]
      exact (planningDecision_filed hplanning).imp_right fun ⟨record, hfiled, hwithin⟩ =>
        ⟨record, hfiled, fun _ => hwithin⟩

theorem step_kept (h : Kept policy ledger) {activity : Activity}
    (hcovered : activity.Covered policy ledger) : Kept policy (step policy ledger activity) := by
  obtain ⟨records, hread, hbounded, hnumbered⟩ := h.kept
  rcases step_cases hread activity with hsame | ⟨record, hfiled, hwithin⟩
  · rw [hsame]
    exact h
  · exact (hfiled.kept_iff hread hbounded hnumbered).mpr (hwithin hcovered)

/-- A stop that is filed keeps the budgets exactly where it is covered. -/
theorem stop_kept_iff (h : Kept policy ledger) {stop : ExternalStop}
    (hstop : stop.finalizeExternalRun policy ledger = .ok ledger') (hfiled : ledger' ≠ ledger) :
    Kept policy ledger' ↔ stop.Covered policy ledger := by
  obtain ⟨records, hread, hbounded, hnumbered⟩ := h.kept
  rcases finalizeExternalRun_filed hread hstop with hsame | ⟨record, happended, hiff⟩
  · exact absurd hsame hfiled
  · exact (happended.kept_iff hread hbounded hnumbered).trans hiff

/-- Every activity of the run is covered in the ledger it meets. -/
def AllCovered (policy : RetryPolicy) (ledger : RetryLedger) : List Activity → Prop
  | [] => True
  | activity :: rest =>
      activity.Covered policy ledger ∧ AllCovered policy (step policy ledger activity) rest

theorem ledgers_kept (h : Kept policy ledger) {activities : List Activity}
    (hcovered : AllCovered policy ledger activities) :
    ∀ reached ∈ ledgers policy ledger activities, Kept policy reached := by
  induction activities generalizing ledger with
  | nil =>
    intro reached hreached
    rw [List.mem_singleton.mp hreached]
    exact h
  | cons activity rest ih =>
    intro reached hreached
    rcases List.mem_cons.mp hreached with rfl | hlater
    · exact h
    · exact ih (step_kept h hcovered.1) hcovered.2 reached hlater

theorem kept_empty (traceId : String) : Kept policy { traceId := traceId } :=
  ⟨[], rfl, fun _ _ => Nat.zero_le _, fun _ _ => rfl⟩

/-- From an empty ledger on, in any order of activities, the resumes of every
subject and kind stay within the limit of the kind, and attempts are numbered
without a gap. -/
theorem automatic_resumes_bounded {traceId : String} {activities : List Activity}
    (hcovered : AllCovered policy { traceId := traceId } activities) :
    ∀ reached ∈ ledgers policy { traceId := traceId } activities, Kept policy reached :=
  ledgers_kept (kept_empty traceId) hcovered

/-- A crash of the worker in a batch, with a root. -/
def batchCrash : ExternalStop where
  event := "worker_failed"
  summary := "worker stopped"
  error := "exit code 1"
  activeBatchId := some "batch-01"
  batchItems := ["wi-01", "wi-02"]

/-- A crash of the worker before any batch. -/
def earlyCrash : ExternalStop where
  event := "worker_failed"
  summary := "worker stopped"
  error := "exit code 1"

theorem batch_crashes_bounded :
    (ledgers {} { traceId := "tr-1" } [.watchdog batchCrash, .watchdog batchCrash]).length = 3 ∧
      ∀ reached ∈ ledgers {} { traceId := "tr-1" } [.watchdog batchCrash, .watchdog batchCrash],
        Kept {} reached := by
  refine ⟨rfl, ?_⟩
  exact automatic_resumes_bounded ⟨fun _ _ _ _ => .inl rfl, fun _ _ _ _ => .inl rfl, trivial⟩

/-- Two crashes before any batch resume the run twice, where the limit is one. -/
theorem early_crashes_exceed :
    ¬ ∀ (policy : RetryPolicy) (traceId : String) (activities : List Activity),
      ∀ reached ∈ ledgers policy { traceId := traceId } activities, Kept policy reached := by
  intro h
  obtain ⟨records, hread, hbounded, -⟩ := (h {} "tr-1" [.watchdog earlyCrash, .watchdog earlyCrash]
    _ (List.mem_cons_of_mem _ (List.mem_cons_of_mem _ List.mem_cons_self))).kept
  have hcount := hbounded (.run "tr-1") .workerCrash
  have hresumed : (step {} (step {} { traceId := "tr-1" } (.watchdog earlyCrash))
      (.watchdog earlyCrash)).records.map (resumes (.run "tr-1") .workerCrash) = .ok 2 := by
    decide +kernel
  rw [hread] at hresumed
  have htwo : resumes (.run "tr-1") .workerCrash records = 2 := Except.ok.inj hresumed
  have hone : ({} : RetryPolicy).limits.maxRetriesFor .workerCrash = 1 := rfl
  omega

end run

end ProjectOS.Application
