import Mathlib.Logic.Function.Basic
import ProjectOS.Orchestration.RetryBudget

/-! The loop of `_run_item_with_retries` around the attempts of one work item, with the durable
ledger or with the counters of the process alone. -/
namespace ProjectOS.Orchestration
open Base

namespace RetryLoop

/-- What one attempt finds in its surroundings. -/
structure Attempt where
  /-- What `_run_item` returns. -/
  result : NodeResult
  /-- A live grant covers the capability that the result asks for. -/
  granted : Bool := false
  /-- What other workers appended to the ledger meanwhile. -/
  others : List RetryRecord := []
  /-- The retries of the whole run, as the process counts them. -/
  totalRetries : Nat := 0
  createdAt : String

/-- `_failure_signal_for`. -/
def failureSignalFor (item : WorkItem) (attempt : Attempt) : Option FailureSignal :=
  match attempt.result.status with
  | .needsCapability =>
      match attempt.result.capabilityRequest with
      | some request =>
          if !attempt.granted then none
          else if item.agentId = "code_agent" && item.executionMode = .partitioned then some {
            kind := .codeDeliveryIncomplete
            summary := "能力 " ++ Text.quote request.capability ++ " 已获当前 Trace 授权；" ++
              "这是代码交付重试，不得再次申请能力。" ++
              "如需规范核实请调用已暴露的 search_docs/get_doc，随后必须调用 " ++
              "write_staged_code_file 完成 owned_files 落盘" }
          else some {
            kind := .agentRuntime
            summary := "能力 " ++ Text.quote request.capability ++ " 已获当前 Trace 授权；" ++
              "节点未调用已暴露工具，必须在本次重试中完成工具调用和交付" }
      | none => none
  | .needsReplan => attempt.result.failureSignal
  | .failed => some {
      kind := .agentRuntime
      summary := Text.orElse attempt.result.error "Agent 执行失败" }
  | .completed => none

/-- Between two attempts. -/
structure LoopState where
  ledger : Option RetryLedger
  itemRetries : Nat
  retriesByKind : FailureKind → Nat
  /-- How often `_run_item` was called. -/
  calls : Nat

/-- How the loop ends. -/
structure Exit where
  result : NodeResult
  calls : Nat

section Loop
variable (policy : RetryPolicy) (item : WorkItem)

/-- The budget of the item before its first attempt. -/
def startLoop : Option RetryLedger → Result LoopState
  | none => .ok ⟨none, 0, fun _ => 0, 0⟩
  | some ledger => do
      let records ← ledger.records
      .ok ⟨some ledger, budgetCountForWorkItem item.id records,
        fun kind => budgetCountForKind item.id kind records, 0⟩

def appendAll (ledger : RetryLedger) : List RetryRecord → Result RetryLedger
  | [] => .ok ledger
  | record :: rest => do
      let ledger ← ledger.append record
      appendAll ledger rest

/-- The ledger as other workers have left it. -/
def withOthers (others : List RetryRecord) : Option RetryLedger → Result (Option RetryLedger)
  | some ledger => do
      let ledger ← appendAll ledger others
      .ok (some ledger)
  | none => .ok none

/-- The route of a failure; without a ledger there is no circuit breaker. -/
def routeWith (ledger : Option RetryLedger) (signal : FailureSignal) : Result FailureRoute :=
  match ledger with
  | some ledger => routeFailure ledger item signal
  | none =>
      if signal.scope ≠ "current_work_item" || signal.requiresControlPlane then .ok .controlPlane
      else if item.agentId = "code_integration_agent" && signal.kind = .codeDeliveryIncomplete then
        .ok .repairPlanner
      else .ok .recovery

/-- `_recovery_action` with either budget. -/
def recoveryWith (state : LoopState) (signal : FailureSignal) (attempt : Attempt) :
    Result (Option RetryLedger × RecoveryAction) :=
  match state.ledger with
  | some ledger => do
      let (ledger, record) ← recoveryAction policy ledger item signal attempt.createdAt
      .ok (some ledger, record.action)
  | none => .ok (none, policy.actionFor signal {
      totalRetries := attempt.totalRetries
      itemRetries := state.itemRetries
      kindRetries := state.retriesByKind signal.kind })

def needsReplan (signal : FailureSignal) (content : Option String := none) : NodeResult where
  workItemId := item.id
  agentId := item.agentId
  status := .needsReplan
  content := content
  failureSignal := some signal

def failedResult (error : String) : NodeResult where
  workItemId := item.id
  agentId := item.agentId
  status := .failed
  error := some error

def completedResult (content : Option String) : NodeResult where
  workItemId := item.id
  agentId := item.agentId
  status := .completed
  content := content

/-- The last answer stands in for the summary that was never saved. -/
def fallbackApplies (artifacts : Bool) (signal : FailureSignal) (result : NodeResult) : Bool :=
  signal.kind = .implementationSummaryMissing && artifacts &&
    !Text.blank (result.content.getD "")

/-- An open circuit leaves its decision in the ledger. -/
def openCircuit (ledger : Option RetryLedger) (signal : FailureSignal) (createdAt : String) :
    Result Unit :=
  match ledger with
  | some ledger => do
      let _ ← recordRetryDecision policy ledger item signal .fail createdAt
      .ok ()
  | none => .ok ()

/-- What the loop does with a failure that goes through the retry policy. -/
def applyPolicy (artifacts : Bool) (state : LoopState) (signal : FailureSignal) (attempt : Attempt) :
    Result (LoopState ⊕ Exit) := do
  let (ledger, action) ← recoveryWith policy item state signal attempt
  match action with
  | .retryItem => .ok (.inl {
      ledger := ledger
      itemRetries := state.itemRetries + 1
      retriesByKind :=
        Function.update state.retriesByKind signal.kind (state.retriesByKind signal.kind + 1)
      calls := state.calls })
  | .requestReplan | .block => .ok (.inr ⟨needsReplan item signal, state.calls⟩)
  | _ =>
      if fallbackApplies artifacts signal attempt.result then
        .ok (.inr ⟨completedResult item attempt.result.content, state.calls⟩)
      else .ok (.inr ⟨failedResult item ("工作项 " ++ Text.quote item.id ++ " 的 " ++
        signal.kind.value ++ " 重试额度已耗尽: " ++ signal.summary), state.calls⟩)

/-- One turn of the loop: an attempt, and the state or the exit that follows from it. -/
def turn (artifacts : Bool) (state : LoopState) (attempt : Attempt) :
    Result (LoopState ⊕ Exit) := do
  let ledger ← withOthers attempt.others state.ledger
  let state := { state with ledger := ledger, calls := state.calls + 1 }
  match failureSignalFor item attempt with
  | none => .ok (.inr ⟨attempt.result, state.calls⟩)
  | some observed =>
      let signal := withInputDigest item observed
      match ← routeWith item state.ledger signal with
      | .controlPlane | .repairPlanner =>
          .ok (.inr ⟨needsReplan item signal attempt.result.content, state.calls⟩)
      | .circuitOpen => do
          openCircuit policy item state.ledger signal attempt.createdAt
          .ok (.inr ⟨failedResult item ("工作项 " ++ Text.quote item.id ++ " 在相同输入下重复出现 " ++
            signal.kind.value ++ "；熔断已打开，未再次请求模型：" ++ signal.summary), state.calls⟩)
      | .recovery => applyPolicy policy item artifacts state signal attempt

/-- `while True`, as far as the fuel reaches; none when it runs out. -/
def loop (artifacts : Bool) (stream : Nat → Attempt) : Nat → LoopState → Option (Result Exit)
  | 0, _ => none
  | fuel + 1, state =>
      match turn policy item artifacts state (stream state.calls) with
      | .error e => some (.error e)
      | .ok (.inr exit) => some (.ok exit)
      | .ok (.inl state) => loop artifacts stream fuel state

/-- `_run_item_with_retries`. -/
def runItemWithRetries (artifacts : Bool) (stream : Nat → Attempt) (ledger : Option RetryLedger)
    (fuel : Nat) : Option (Result Exit) :=
  match startLoop item ledger with
  | .error e => some (.error e)
  | .ok state => loop policy item artifacts stream fuel state

end Loop

variable {policy : RetryPolicy} {item : WorkItem}

/-- The budget has counted this many attempts of the item. -/
def Spent (item : WorkItem) (state : LoopState) (count : Nat) : Prop :=
  match state.ledger with
  | none => count ≤ state.itemRetries
  | some ledger =>
      ∃ records, ledger.records = .ok records ∧ count ≤ budgetCountForWorkItem item.id records

/-- A result of the item that claims success only where nothing failed. -/
structure Ends (item : WorkItem) (artifacts : Bool) (attempt : Attempt) (result : NodeResult) :
    Prop where
  own : result.workItemId = item.id
  earned : result.status = .completed ∨ result.status = .needsCapability →
    failureSignalFor item attempt = none ∨
      ∃ signal, failureSignalFor item attempt = some signal ∧
        fallbackApplies artifacts signal attempt.result = true

theorem ends_needsReplan {artifacts : Bool} {attempt : Attempt} (signal : FailureSignal)
    (content : Option String) : Ends item artifacts attempt (needsReplan item signal content) :=
  ⟨rfl, fun h => h.elim (fun h => by cases h) (fun h => by cases h)⟩

theorem ends_failedResult {artifacts : Bool} {attempt : Attempt} (error : String) :
    Ends item artifacts attempt (failedResult item error) :=
  ⟨rfl, fun h => h.elim (fun h => by cases h) (fun h => by cases h)⟩

theorem recordRetryDecision_isOk {ledger : RetryLedger} {records : List RetryRecord}
    (hread : ledger.records = .ok records) (signal : FailureSignal) (action : RecoveryAction)
    (createdAt : String) :
    ∃ ledger' record, recordRetryDecision policy ledger item signal action createdAt =
      .ok (ledger', record) ∧ ledger'.records = .ok (records ++ [record]) := by
  have hattempt : ledger.nextAttempt .workItem item.id = .ok (1 + records.countP fun record =>
      record.scope == .workItem && record.subjectId == item.id) := by
    rw [RetryLedger.nextAttempt, hread, ok_bind]
  let raw : RecordFields := {
    scope := .workItem
    subjectId := item.id
    attempt := (1 + records.countP fun record =>
      record.scope == .workItem && record.subjectId == item.id : Nat)
    maxAttempts := policy.maxWorkItemAttempts
    action := action
    failure := signal
    rootWorkItemId := some item.id
    createdAt := createdAt }
  have haccepted : raw.postInit = .ok () := by
    have hpositive : ¬ (raw.attempt < 1) ∧ ¬ (raw.maxAttempts < 1) := by
      simp only [raw, RetryPolicy.maxWorkItemAttempts]
      omega
    simp [RecordFields.postInit, raw, item.id_not_blank, hasDuplicates] at hpositive ⊢
    omega
  let record : RetryRecord := ⟨raw, haccepted⟩
  refine ⟨ledger.write (records ++ [record]), record, ?_, RetryLedger.records_write _ _⟩
  have hcreate : RetryRecord.create raw = .ok record := RetryRecord.create_eq_ok.mpr rfl
  have happend : ledger.append record = .ok (ledger.write (records ++ [record])) := by
    rw [RetryLedger.append, hread, ok_bind]
  simp only [recordRetryDecision, hattempt, ok_bind]
  rw [hcreate, ok_bind, happend, ok_bind]

theorem appendAll_isOk {ledger : RetryLedger} {records : List RetryRecord}
    (hread : ledger.records = .ok records) (others : List RetryRecord) :
    ∃ ledger', appendAll ledger others = .ok ledger' ∧
      ledger'.records = .ok (records ++ others) := by
  induction others generalizing ledger records with
  | nil => exact ⟨ledger, rfl, by rw [List.append_nil]; exact hread⟩
  | cons record rest ih =>
    have happend : ledger.append record = .ok (ledger.write (records ++ [record])) := by
      rw [RetryLedger.append, hread, ok_bind]
    obtain ⟨ledger', hrest, hrecords⟩ := ih (RetryLedger.records_write ledger (records ++ [record]))
    refine ⟨ledger', ?_, by simpa using hrecords⟩
    rw [appendAll, happend, ok_bind]
    exact hrest

/-- A granted retry was below the limit of the item, and is counted from then on. -/
theorem recoveryWith_isOk {state : LoopState} {count : Nat} (h : Spent item state count)
    (signal : FailureSignal) (attempt : Attempt) :
    ∃ ledger action, recoveryWith policy item state signal attempt = .ok (ledger, action) ∧
      (action = .retryItem → count < policy.limits.maxRetriesPerWorkItem ∧
        ∀ byKind calls, Spent item ⟨ledger, state.itemRetries + 1, byKind, calls⟩ (count + 1)) := by
  unfold recoveryWith
  unfold Spent at h
  cases hledger : state.ledger with
  | none =>
    simp only [hledger] at h
    refine ⟨none, _, rfl, fun haction => ?_⟩
    have hlimits := RetryPolicy.lt_limits_of_actionFor (congrArg RecoveryAction.spendsBudget haction)
    refine ⟨h.trans_lt hlimits.2.1, fun byKind calls => ?_⟩
    exact Nat.succ_le_succ h
  | some ledger =>
    simp only [hledger] at h
    obtain ⟨records, hread, hcount⟩ := h
    have hcounts : ledger.counts item.id signal.kind = .ok {
        totalRetries := budgetCount records
        itemRetries := budgetCountForWorkItem item.id records
        kindRetries := budgetCountForKind item.id signal.kind records } := by
      rw [RetryLedger.counts, hread, ok_bind]
    obtain ⟨ledger', record, hrecord, hread'⟩ := recordRetryDecision_isOk hread signal
      (policy.actionFor signal {
        totalRetries := budgetCount records
        itemRetries := budgetCountForWorkItem item.id records
        kindRetries := budgetCountForKind item.id signal.kind records }) attempt.createdAt
    have hrecovery : recoveryAction policy ledger item signal attempt.createdAt =
        .ok (ledger', record) := by
      rw [recoveryAction, hcounts, ok_bind]
      exact hrecord
    refine ⟨some ledger', record.action, by simp only [hrecovery, ok_bind], fun haction => ?_⟩
    obtain ⟨-, hdecided⟩ := RecoveryRun.recoveryAction_eq_ok hread hrecovery
    have hspends : record.action.spendsBudget = true := by
      rw [haction]
      rfl
    refine ⟨hcount.trans_lt (hdecided.within hspends).2.1, fun byKind calls => ?_⟩
    refine ⟨records ++ [record], hread', ?_⟩
    have hown : budgetCountForWorkItem item.id [record] = 1 := by
      simp [budgetCountForWorkItem, hspends, RetryRecord.concerns, hdecided.subject]
    have hsum : budgetCountForWorkItem item.id (records ++ [record]) =
        budgetCountForWorkItem item.id records + budgetCountForWorkItem item.id [record] :=
      List.countP_append
    omega

theorem fallbackApplies_withInputDigest {artifacts : Bool} {signal : FailureSignal}
    {result : NodeResult} : fallbackApplies artifacts (withInputDigest item signal) result =
      fallbackApplies artifacts signal result := rfl

/-- What follows from one turn: an exit, or one more retry that the limit allowed. -/
def Follows (policy : RetryPolicy) (item : WorkItem) (artifacts : Bool) (attempt : Attempt)
    (calls count : Nat) : LoopState ⊕ Exit → Prop
  | .inl state => state.calls = calls ∧ count < policy.limits.maxRetriesPerWorkItem ∧
      Spent item state (count + 1)
  | .inr exit => exit.calls = calls ∧ Ends item artifacts attempt exit.result

theorem applyPolicy_isOk {state : LoopState} {count : Nat} (h : Spent item state count)
    {artifacts : Bool} {observed : FailureSignal} {attempt : Attempt}
    (hsignal : failureSignalFor item attempt = some observed) :
    ∃ next, applyPolicy policy item artifacts state (withInputDigest item observed) attempt =
      .ok next ∧ Follows policy item artifacts attempt state.calls count next := by
  obtain ⟨ledger, action, hrecovery, hretry⟩ :=
    recoveryWith_isOk h (withInputDigest item observed) attempt
  unfold applyPolicy
  rw [hrecovery, ok_bind]
  have hexhausted : ∃ next, (if fallbackApplies artifacts (withInputDigest item observed)
        attempt.result = true then
      (.ok (.inr ⟨completedResult item attempt.result.content, state.calls⟩) :
        Result (LoopState ⊕ Exit))
      else .ok (.inr ⟨failedResult item ("工作项 " ++ Text.quote item.id ++ " 的 " ++
        (withInputDigest item observed).kind.value ++ " 重试额度已耗尽: " ++
        (withInputDigest item observed).summary), state.calls⟩)) = .ok next ∧
      Follows policy item artifacts attempt state.calls count next := by
    split
    · rename_i hfallback
      rw [fallbackApplies_withInputDigest] at hfallback
      exact ⟨_, rfl, rfl, rfl, fun _ => Or.inr ⟨observed, hsignal, hfallback⟩⟩
    · exact ⟨_, rfl, rfl, ends_failedResult _⟩
  cases action with
  | retryItem =>
    obtain ⟨hlimit, hspent⟩ := hretry rfl
    exact ⟨_, rfl, rfl, hlimit, hspent _ _⟩
  | requestReplan => exact ⟨_, rfl, rfl, ends_needsReplan _ _⟩
  | block => exact ⟨_, rfl, rfl, ends_needsReplan _ _⟩
  | retryBatch => exact hexhausted
  | resume => exact hexhausted
  | fail => exact hexhausted

theorem routeWith_isOk {state : LoopState} {count : Nat} (h : Spent item state count)
    (signal : FailureSignal) : ∃ route, routeWith item state.ledger signal = .ok route := by
  unfold routeWith
  unfold Spent at h
  cases hledger : state.ledger with
  | none =>
    dsimp only
    split
    · exact ⟨_, rfl⟩
    · split <;> exact ⟨_, rfl⟩
  | some ledger =>
    simp only [hledger] at h
    obtain ⟨records, hread, -⟩ := h
    dsimp only
    unfold routeFailure
    split
    · exact ⟨_, rfl⟩
    · simp only [RetryLedger.hasSameFailureWithoutNewEvidence, hread, ok_bind]
      split
      · exact ⟨_, rfl⟩
      · split <;> exact ⟨_, rfl⟩

theorem openCircuit_isOk {state : LoopState} {count : Nat} (h : Spent item state count)
    (signal : FailureSignal) (createdAt : String) :
    openCircuit policy item state.ledger signal createdAt = .ok () := by
  unfold openCircuit
  unfold Spent at h
  cases hledger : state.ledger with
  | none => rfl
  | some ledger =>
    simp only [hledger] at h
    obtain ⟨records, hread, -⟩ := h
    obtain ⟨ledger', record, hrecord, -⟩ :=
      @recordRetryDecision_isOk policy item ledger records hread signal .fail createdAt
    dsimp only
    rw [hrecord, ok_bind]

/-- An attempt reads the ledger as others have left it, and they only add to it. -/
theorem spent_others {state : LoopState} {count : Nat} (h : Spent item state count)
    (others : List RetryRecord) :
    ∃ ledger, withOthers others state.ledger = .ok ledger ∧
      ∀ calls, Spent item { state with ledger := ledger, calls := calls } count := by
  unfold Spent at h
  cases hledger : state.ledger with
  | none =>
    simp only [hledger] at h
    exact ⟨none, rfl, fun _ => h⟩
  | some ledger =>
    simp only [hledger] at h
    obtain ⟨records, hread, hcount⟩ := h
    obtain ⟨ledger', hall, hread'⟩ := appendAll_isOk hread others
    refine ⟨some ledger', by rw [withOthers, hall, ok_bind], fun _ => ?_⟩
    refine ⟨records ++ others, hread', hcount.trans ?_⟩
    exact (List.sublist_append_left records others).countP_le

theorem turn_isOk {state : LoopState} {count : Nat} (h : Spent item state count)
    {artifacts : Bool} {attempt : Attempt} (hown : attempt.result.workItemId = item.id) :
    ∃ next, turn policy item artifacts state attempt = .ok next ∧
      Follows policy item artifacts attempt (state.calls + 1) count next := by
  obtain ⟨ledger, hledger, hspent⟩ := spent_others h attempt.others
  have hspent := hspent (state.calls + 1)
  unfold turn
  rw [hledger, ok_bind]
  dsimp only
  cases hsignal : failureSignalFor item attempt with
  | none => exact ⟨_, rfl, rfl, hown, fun _ => Or.inl hsignal⟩
  | some observed =>
    obtain ⟨route, hroute⟩ := routeWith_isOk hspent (withInputDigest item observed)
    dsimp only at hroute ⊢
    rw [hroute, ok_bind]
    cases route with
    | controlPlane => exact ⟨_, rfl, rfl, ends_needsReplan _ _⟩
    | repairPlanner => exact ⟨_, rfl, rfl, ends_needsReplan _ _⟩
    | circuitOpen =>
      have hopen := @openCircuit_isOk policy item _ _ hspent (withInputDigest item observed)
        attempt.createdAt
      dsimp only at hopen ⊢
      rw [hopen, ok_bind]
      exact ⟨_, rfl, rfl, ends_failedResult _⟩
    | recovery => exact applyPolicy_isOk hspent hsignal

/-- The loop ends before its fuel does: every retry uses up one of the item's. -/
theorem loop_isOk {artifacts : Bool} {stream : Nat → Attempt}
    (hown : ∀ n, (stream n).result.workItemId = item.id) {fuel : Nat} {state : LoopState}
    (hspent : Spent item state state.calls)
    (hcalls : state.calls ≤ policy.limits.maxRetriesPerWorkItem)
    (hfuel : policy.limits.maxRetriesPerWorkItem < state.calls + fuel) :
    ∃ exit, loop policy item artifacts stream fuel state = some (.ok exit) ∧
      0 < exit.calls ∧ exit.calls ≤ policy.limits.maxRetriesPerWorkItem + 1 ∧
      Ends item artifacts (stream (exit.calls - 1)) exit.result := by
  induction fuel generalizing state with
  | zero => omega
  | succ fuel ih =>
    obtain ⟨next, hturn, hfollows⟩ :=
      @turn_isOk policy item state _ hspent artifacts _ (hown state.calls)
    unfold loop
    rw [hturn]
    cases next with
    | inl state' =>
      obtain ⟨hcalls', hlimit, hspent'⟩ := hfollows
      apply ih
      · rwa [hcalls']
      · omega
      · omega
    | inr exit =>
      obtain ⟨hcalls', hends⟩ := hfollows
      refine ⟨exit, rfl, by omega, by omega, ?_⟩
      rwa [hcalls', Nat.add_sub_cancel]

end RetryLoop

open RetryLoop

/-- One turn more than the item has retries is enough for every stream of attempts; the loop then
ends with a result of the item, unless the ledger cannot be read at all. -/
theorem runItemWithRetries_terminates (policy : RetryPolicy) (item : WorkItem) (artifacts : Bool)
    (stream : Nat → Attempt) (ledger : Option RetryLedger)
    (hown : ∀ n, (stream n).result.workItemId = item.id) :
    ∃ outcome, runItemWithRetries policy item artifacts stream ledger
        (policy.limits.maxRetriesPerWorkItem + 1) = some outcome ∧
      ((∀ file ∈ ledger, ∃ records, file.records = .ok records) → ∃ exit, outcome = .ok exit) ∧
      ∀ exit, outcome = .ok exit →
        exit.calls ≤ 1 + policy.limits.maxRetriesPerWorkItem ∧
        exit.result.workItemId = item.id ∧
        (exit.result.status = .completed ∨ exit.result.status = .needsCapability →
          failureSignalFor item (stream (exit.calls - 1)) = none ∨
            ∃ signal, failureSignalFor item (stream (exit.calls - 1)) = some signal ∧
              fallbackApplies artifacts signal (stream (exit.calls - 1)).result = true) := by
  have hrun : ∀ state, startLoop item ledger = .ok state → Spent item state state.calls ∧
      state.calls = 0 := by
    intro state hstart
    cases ledger with
    | none =>
      cases Except.ok.inj hstart
      exact ⟨Nat.zero_le _, rfl⟩
    | some file =>
      obtain ⟨records, hread, hstate⟩ := bind_eq_ok.mp hstart
      cases Except.ok.inj hstate
      exact ⟨⟨records, hread, Nat.zero_le _⟩, rfl⟩
  unfold runItemWithRetries
  cases hstart : startLoop item ledger with
  | error e =>
    refine ⟨.error e, rfl, fun hread => ?_, fun exit h => by cases h⟩
    cases ledger with
    | none => cases hstart
    | some file =>
      obtain ⟨records, hrecords⟩ := hread file rfl
      rw [startLoop, hrecords, ok_bind] at hstart
      cases hstart
  | ok state =>
    obtain ⟨hspent, hzero⟩ := hrun state hstart
    obtain ⟨exit, hloop, -, hcalls, hends⟩ :=
      @loop_isOk policy item artifacts stream hown (policy.limits.maxRetriesPerWorkItem + 1) state
        hspent (by omega) (by omega)
    refine ⟨.ok exit, hloop, fun _ => ⟨exit, rfl⟩, fun exit' h => ?_⟩
    cases Except.ok.inj h
    exact ⟨by omega, hends.own, hends.earned⟩

def buildItem : WorkItem :=
  WorkItem.ofFields {
    id := "build"
    agentId := "bootstrap_agent"
    objective := "prepare the environment"
    outputKey := "environment" } (by decide)

/-- Every attempt fails in the same way. -/
def failingStream (n : Nat) : Attempt where
  result := failedResult buildItem "connection reset"
  createdAt := toString n

/-- An item that never succeeds is given up. -/
theorem failingStream_terminates :
    ∃ outcome, runItemWithRetries {} buildItem true failingStream none 3 = some outcome ∧
      ((∀ file ∈ (none : Option RetryLedger), ∃ records, file.records = .ok records) →
        ∃ exit, outcome = .ok exit) ∧
      ∀ exit, outcome = .ok exit →
        exit.calls ≤ 3 ∧ exit.result.workItemId = buildItem.id ∧
        (exit.result.status = .completed ∨ exit.result.status = .needsCapability →
          failureSignalFor buildItem (failingStream (exit.calls - 1)) = none ∨
            ∃ signal, failureSignalFor buildItem (failingStream (exit.calls - 1)) = some signal ∧
              fallbackApplies true signal (failingStream (exit.calls - 1)).result = true) :=
  runItemWithRetries_terminates {} buildItem true failingStream none fun _ => rfl

end ProjectOS.Orchestration
