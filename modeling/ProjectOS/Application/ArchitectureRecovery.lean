import ProjectOS.Application.ArchitectureFindings
import ProjectOS.Base.Worklist

/-! Recovery of a failed architecture integration. A resume looks at the newest
failure of the log; if its error names one design, the results of that design's
work item and of all that depend on it are dropped and the item is forced to run
again. -/
namespace ProjectOS.Application
open Base Orchestration

/-- What a resume reads of a logged event. -/
structure TraceEvent where
  type : String
  workItemId : String := ""
  error : String := ""
deriving DecidableEq, Repr

namespace TraceEvent

def isFailure (event : TraceEvent) : Bool :=
  event.type = "work_item_failed" || event.type = "work_item_needs_replan"

def completes (event : TraceEvent) (workItemId : String) : Bool :=
  event.type = "work_item_completed" && event.workItemId = workItemId

end TraceEvent

def latestFailure (log : List TraceEvent) : Option TraceEvent := log.reverse.find? (·.isFailure)

/-- What was logged after the newest failure. -/
def sinceFailure (log : List TraceEvent) : List TraceEvent :=
  log.rtakeWhile fun event => !event.isFailure

/-- The architecture integration that failed for its inputs. -/
def failedIntegration (plan : ExecutionPlan) (failure : TraceEvent) : Option WorkItem :=
  (plan.workItem failure.workItemId).filter fun item =>
    item.agentId = "architecture_agent" && item.executionMode = .integration &&
      item.publishTarget = some "architecture" &&
      (Text.contains failure.error "architecture_contract_missing" ||
        failure.type = "work_item_needs_replan" && Text.contains failure.error
          "Architecture integration inputs failed deterministic validation")

structure Recovery where
  failed : WorkItem
  owner : WorkItem
  diagnostic : String

section recovery
variable (designs : StagedDesigns) (plan : ExecutionPlan) (log : List TraceEvent) (state : RunState)

/-- The recovery that the newest failure asks for, if it names a single owner. -/
def requestedRecovery : Result (Option Recovery) :=
  match latestFailure log with
  | none => .ok none
  | some failure =>
      match failedIntegration plan failure with
      | none => .ok none
      | some failed => do
          match ← designs.attribution plan state failure.error with
          | none => .ok none
          | some attribution => .ok ((StagedDesigns.one attribution.owners).map fun owner =>
              ⟨failed, owner, attribution.diagnostic⟩)

def invalidated (owner : WorkItem) : List String :=
  Worklist.spread (·.id) (·.dependencyIds) plan.workItems (plan.workItems.length + 1) [owner.id]
    [owner.id]

/-- The results and the texts of these items are taken out of the state. -/
def dropResults (ids : List String) : RunState := { state with
  nodeResults := ids.foldl Dict.erase state.nodeResults
  artifacts := ids.foldl (fun artifacts id =>
    match plan.workItem id with
    | some item => artifacts.erase item.outputKey
    | none => artifacts) state.artifacts }

/-- The state after the recovery was scheduled. -/
def scheduled (recovery : Recovery) : RunState :=
  let dropped := dropResults plan state (invalidated plan recovery.owner)
  { dropped with
    forcedRerunWorkItemIds := dropped.forcedRerunWorkItemIds ++ [recovery.owner.id]
    recoveryDiagnostics := dropped.recoveryDiagnostics.set recovery.owner.id recovery.diagnostic }

/-- `_prepare_architecture_contract_recovery`, with the recovery it schedules. -/
def prepareArchitectureContractRecovery : Result (RunState × Option Recovery) := do
  match ← requestedRecovery designs plan log state with
  | none => .ok (state, none)
  | some recovery =>
      if recovery.owner.id ∈ state.forcedRerunWorkItemIds then .ok (state, none)
      else if !state.hasCompleted recovery.owner.id then .ok (state, none)
      else .ok (scheduled plan state recovery, some recovery)

end recovery

/-- The owner or an item that depends on it, directly or not. -/
def Affected (plan : ExecutionPlan) (owner : WorkItem) : String → Prop :=
  Downstream.Below (·.id) (·.dependencyIds) plan.workItems [owner.id]

/-- A recovery that is due: the failure came after the last completion of the
owner, exactly the owner and what depends on it lose their results, and only the
owner is forced and given a diagnostic. -/
structure Due (plan : ExecutionPlan) (log : List TraceEvent) (state next : RunState)
    (recovery : Recovery) : Prop where
  failed : ∃ failure, latestFailure log = some failure ∧
    failedIntegration plan failure = some recovery.failed
  after : ∀ event ∈ sinceFailure log, event.completes recovery.owner.id = false
  dropped : ∀ id, Affected plan recovery.owner id → next.nodeResults.get? id = none
  kept : ∀ id, ¬ Affected plan recovery.owner id → next.nodeResults.get? id = state.nodeResults.get? id
  forced : ∀ id, id ∈ next.forcedRerunWorkItemIds ↔
    id ∈ state.forcedRerunWorkItemIds ∨ id = recovery.owner.id
  diagnostics : ∀ id, next.recoveryDiagnostics.get? id =
    if id = recovery.owner.id then some recovery.diagnostic else state.recoveryDiagnostics.get? id

section resume
variable {designs : StagedDesigns} {plan : ExecutionPlan} {log : List TraceEvent} {state : RunState}

/-- An owner that is not forced and has a result has not completed since the
failure that names it. -/
def Outstanding (designs : StagedDesigns) (plan : ExecutionPlan) (log : List TraceEvent)
    (state : RunState) : Prop :=
  ∀ recovery, requestedRecovery designs plan log state = .ok (some recovery) →
    recovery.owner.id ∉ state.forcedRerunWorkItemIds → state.hasCompleted recovery.owner.id = true →
      ∀ event ∈ sinceFailure log, event.completes recovery.owner.id = false

theorem mem_invalidated {owner : WorkItem} {id : String} :
    id ∈ invalidated plan owner ↔ Affected plan owner id :=
  Worklist.mem_spread_iff (by rw [List.length_singleton]; omega)

theorem get?_foldl_erase (ids : List String) (results : Dict String NodeResult) (id : String) :
    (ids.foldl Dict.erase results).get? id = if id ∈ ids then none else results.get? id := by
  induction ids generalizing results with
  | nil => rfl
  | cons first ids ih =>
    rw [List.foldl_cons, ih, Dict.get?_erase]
    by_cases hids : id ∈ ids
    · simp [hids]
    · by_cases hfirst : id = first
      · simp [hfirst]
      · simp [hids, hfirst]

theorem prepare_eq_scheduled {next : RunState} {recovery : Recovery} :
    prepareArchitectureContractRecovery designs plan log state = .ok (next, some recovery) ↔
      requestedRecovery designs plan log state = .ok (some recovery) ∧
        recovery.owner.id ∉ state.forcedRerunWorkItemIds ∧
        state.hasCompleted recovery.owner.id = true ∧ next = scheduled plan state recovery := by
  simp only [prepareArchitectureContractRecovery, bind_eq_ok]
  constructor
  · intro ⟨requested, hrequested, h⟩
    cases requested with
    | none => cases h
    | some found =>
      dsimp only at h
      split at h
      · cases h
      · rename_i hforced
        split at h
        · cases h
        · rename_i hcompleted
          cases h
          exact ⟨hrequested, hforced, by simpa using hcompleted, rfl⟩
  · intro ⟨hrequested, hforced, hcompleted, hnext⟩
    refine ⟨some recovery, hrequested, ?_⟩
    rw [hnext]
    simp [hforced, hcompleted]

theorem requested_failed {recovery : Recovery}
    (h : requestedRecovery designs plan log state = .ok (some recovery)) :
    ∃ failure, latestFailure log = some failure ∧
      failedIntegration plan failure = some recovery.failed := by
  unfold requestedRecovery at h
  split at h
  · cases h
  · rename_i failure hfailure
    split at h
    · cases h
    · rename_i failed hfailed
      simp only [bind_eq_ok] at h
      obtain ⟨attribution, -, h⟩ := h
      cases attribution with
      | none => cases h
      | some attribution =>
        obtain ⟨owner, -, hrecovery⟩ := Option.map_eq_some_iff.mp (Except.ok.inj h)
        rw [← hrecovery]
        exact ⟨failure, hfailure, hfailed⟩

theorem due_scheduled {recovery : Recovery}
    (h : requestedRecovery designs plan log state = .ok (some recovery))
    (hafter : ∀ event ∈ sinceFailure log, event.completes recovery.owner.id = false) :
    Due plan log state (scheduled plan state recovery) recovery where
  failed := requested_failed h
  after := hafter
  dropped := by
    intro id haffected
    rw [scheduled, dropResults, get?_foldl_erase, if_pos (mem_invalidated.mpr haffected)]
  kept := by
    intro id haffected
    rw [scheduled, dropResults, get?_foldl_erase, if_neg (mt mem_invalidated.mp haffected)]
  forced := by
    intro id
    rw [scheduled, dropResults, List.mem_append, List.mem_singleton]
  diagnostics := by
    intro id
    rw [scheduled, dropResults, Dict.get?_set]

/-- A resume schedules only what is due exactly where the owner is outstanding. -/
theorem due_iff_outstanding :
    (∀ next recovery, prepareArchitectureContractRecovery designs plan log state =
      .ok (next, some recovery) → Due plan log state next recovery) ↔
      Outstanding designs plan log state := by
  constructor
  · intro hdue recovery hrequested hforced hcompleted
    exact (hdue _ recovery
      (prepare_eq_scheduled.mpr ⟨hrequested, hforced, hcompleted, rfl⟩)).after
  · intro houtstanding next recovery hprepare
    obtain ⟨hrequested, hforced, hcompleted, rfl⟩ := prepare_eq_scheduled.mp hprepare
    exact due_scheduled hrequested (houtstanding recovery hrequested hforced hcompleted)

end resume

/-- One resume of a run: what was logged before it, and the state and the designs
that were loaded for it. -/
structure Resume where
  events : List TraceEvent
  state : RunState
  designs : StagedDesigns

/-- A resume with the log it finds. -/
structure Visit extends Resume where
  log : List TraceEvent

namespace Visit
variable (plan : ExecutionPlan) (visit : Visit)

def outcome : Result (RunState × Option Recovery) :=
  prepareArchitectureContractRecovery visit.designs plan visit.log visit.state

/-- The resume invalidates this owner. -/
def Schedules (recovery : Recovery) : Prop := ∃ next, visit.outcome plan = .ok (next, some recovery)

/-- The event that a scheduled recovery logs. -/
def logged : List TraceEvent :=
  match visit.outcome plan with
  | .ok (_, some _) => [{ type := "architecture_contract_recovery_scheduled", workItemId := "control" }]
  | _ => []

end Visit

/-- The resumes of a run over one growing log. -/
def visits (plan : ExecutionPlan) : List TraceEvent → List Resume → List Visit
  | _, [] => []
  | log, resume :: rest =>
      let visit : Visit := { resume with log := log ++ resume.events }
      visit :: visits plan (visit.log ++ visit.logged plan) rest

/-- Where two resumes invalidate one owner and no failure was logged in between,
the owner has not completed in between. -/
def NoResultLost (plan : ExecutionPlan) (earlier later : Visit) : Prop :=
  ∀ first second, earlier.Schedules plan first → later.Schedules plan second →
    first.owner.id = second.owner.id →
      ∃ between, later.log = earlier.log ++ between ∧
        ((∀ event ∈ between, event.isFailure = false) →
          ∀ event ∈ between, event.completes second.owner.id = false)

section run
variable {plan : ExecutionPlan} {log : List TraceEvent} {resumes : List Resume}

theorem prefix_of_mem_visits {visit : Visit} (h : visit ∈ visits plan log resumes) :
    log <+: visit.log := by
  induction resumes generalizing log with
  | nil => cases h
  | cons resume rest ih =>
    rcases List.mem_cons.mp h with rfl | hlater
    · exact List.prefix_append _ _
    · have hgrown := ih hlater
      rw [List.append_assoc] at hgrown
      exact (List.prefix_append _ _).trans hgrown

/-- What follows the newest failure stays with the log that grows without one. -/
theorem subset_sinceFailure {before between : List TraceEvent}
    (h : ∀ event ∈ between, event.isFailure = false) :
    ∀ event ∈ between, event ∈ sinceFailure (before ++ between) := by
  intro event hevent
  have hall : between.reverse.takeWhile (fun event => !event.isFailure) = between.reverse := by
    rw [List.takeWhile_eq_self_iff]
    intro other hother
    rw [h other (List.mem_reverse.mp hother)]
    rfl
  rw [sinceFailure, List.rtakeWhile, List.mem_reverse, List.reverse_append,
    List.takeWhile_append_of_pos (List.takeWhile_eq_self_iff.mp hall)]
  exact List.mem_append_left _ (List.mem_reverse.mpr hevent)

theorem Visit.due {visit : Visit} (h : Outstanding visit.designs plan visit.log visit.state)
    {next : RunState} {recovery : Recovery} (houtcome : visit.outcome plan = .ok (next, some recovery)) :
    Due plan visit.log visit.state next recovery :=
  due_iff_outstanding.mpr h next recovery houtcome

theorem visits_pairwise
    (h : ∀ visit ∈ visits plan log resumes, Outstanding visit.designs plan visit.log visit.state) :
    (visits plan log resumes).Pairwise (NoResultLost plan) := by
  induction resumes generalizing log with
  | nil => exact List.Pairwise.nil
  | cons resume rest ih =>
    rw [visits]
    refine List.Pairwise.cons ?_ (ih fun visit hvisit => h visit (List.mem_cons_of_mem _ hvisit))
    intro later hlater first second hfirst hsecond howner
    obtain ⟨between, hbetween⟩ := prefix_of_mem_visits hlater
    refine ⟨_, by rw [← hbetween, List.append_assoc], ?_⟩
    intro hquiet event hevent
    obtain ⟨next, hnext⟩ := hsecond
    have hdue := Visit.due (h later (List.mem_cons_of_mem _ hlater)) hnext
    apply hdue.after
    rw [← hbetween, List.append_assoc]
    exact subset_sinceFailure hquiet event hevent

end run

def ordersDesignFields : WorkItemFields where
  id := "wi-04-orders"
  agentId := "architecture_agent"
  objective := "设计订单实现"
  outputKey := "architecture_implementation_orders"
  executionMode := .partitioned
  slot := some "implementation-orders"

def ordersDesign : WorkItem := .ofFields ordersDesignFields (by decide)

def integrationFields : WorkItemFields where
  id := "wi-05-architecture-layered-integration"
  agentId := "architecture_agent"
  objective := "集成架构"
  outputKey := "architecture"
  executionMode := .integration
  publishTarget := some "architecture"
  dependencies := [⟨⟨"wi-04-orders", .template, "tpl"⟩, by decide⟩]

def integration : WorkItem := .ofFields integrationFields (by decide)

def ordersPlan : ExecutionPlan where
  id := "plan-1"
  goal := "订单"
  workItems := [ordersDesign, integration]
  trace := { requirementId := "req-1", traceId := "tr-1" }
  accepted := by decide +kernel

def ordersFailed : TraceEvent where
  type := "work_item_failed"
  workItemId := "wi-05-architecture-layered-integration"
  error := "architecture_contract_missing: 实现设计 orders 引用了未声明的接口: pay.charge"

def ordersCompleted : TraceEvent where
  type := "work_item_completed"
  workItemId := "wi-04-orders"

/-- The design of the orders is done. -/
def ordersState : RunState where
  plan := ordersPlan
  nodeResults := Dict.ofList [("wi-04-orders",
    { workItemId := "wi-04-orders", agentId := "architecture_agent", status := .completed })]

def ordersResume (events : List TraceEvent) : Resume where
  events := events
  state := ordersState
  designs := { load := fun _ _ _ => none, parse := fun _ => none }

theorem sinceFailure_concat (log : List TraceEvent) {failure : TraceEvent}
    (h : failure.isFailure = true) : sinceFailure (log ++ [failure]) = [] :=
  List.rtakeWhile_concat_neg _ _ _ (by simp [h])

theorem ordersFailed_owner : ∃ finding,
    (ordersResume []).designs.attribution ordersPlan ordersState ordersFailed.error =
      .ok (some finding) ∧ (StagedDesigns.one finding.owners).map (·.id) = some "wi-04-orders" := by
  have hread : ((ordersResume []).designs.attribution ordersPlan ordersState
      ordersFailed.error).toOption.join.any (fun finding =>
        (StagedDesigns.one finding.owners).map (·.id) = some "wi-04-orders") = true := by
    decide +kernel
  obtain ⟨finding, hfinding, howner⟩ := (Option.any_eq_true ..).mp hread
  have hsome := Option.join_eq_some_iff.mp hfinding
  cases hattribution : (ordersResume []).designs.attribution ordersPlan ordersState
      ordersFailed.error with
  | error =>
    rw [hattribution] at hsome
    cases hsome
  | ok found =>
    rw [hattribution] at hsome
    cases hsome
    exact ⟨finding, rfl, of_decide_eq_true howner⟩

theorem orders_requested : (requestedRecovery (ordersResume []).designs ordersPlan
    [ordersFailed, ordersCompleted] ordersState).toOption.join.map (·.owner.id) =
      some "wi-04-orders" := by
  obtain ⟨finding, hfinding, howner⟩ := ordersFailed_owner
  have hlatest : latestFailure [ordersFailed, ordersCompleted] = some ordersFailed := by decide
  obtain ⟨failed, hfailed⟩ : ∃ failed, failedIntegration ordersPlan ordersFailed = some failed :=
    Option.isSome_iff_exists.mp (by decide +kernel)
  unfold requestedRecovery
  rw [hlatest]
  dsimp only
  rw [hfailed]
  dsimp only
  rw [hfinding, ok_bind]
  simp only [Except.toOption, Option.join_some, Option.map_map]
  exact howner

end ProjectOS.Application
