import ProjectOS.Orchestration.Failure

/-! Results of single work items and their wire form. -/
namespace ProjectOS.Orchestration
open Base

inductive NodeStatus where
  | completed
  | needsCapability
  | needsReplan
  | failed
deriving DecidableEq, Repr

namespace NodeStatus

def value : NodeStatus → String
  | completed => "completed"
  | needsCapability => "needs_capability"
  | needsReplan => "needs_replan"
  | failed => "failed"

def all : List NodeStatus := [completed, needsCapability, needsReplan, failed]

/-- `NodeStatus(text)`. -/
def parse (text : String) : Result NodeStatus := enumMember "NodeStatus" all value text

@[simp] theorem parse_value (status : NodeStatus) : parse status.value = .ok status := by
  cases status <;> decide

end NodeStatus

structure CapabilityRequest where
  capability : String
  reason : String
deriving DecidableEq

structure NodeResult where
  workItemId : String
  agentId : String
  status : NodeStatus
  content : Option String := none
  capabilityRequest : Option CapabilityRequest := none
  failureSignal : Option FailureSignal := none
  error : Option String := none
deriving DecidableEq

namespace NodeResult

def isCompleted (result : NodeResult) : Bool := result.status = .completed

def asDict (result : NodeResult) : Json := .obj [
  ("work_item_id", .str result.workItemId),
  ("agent_id", .str result.agentId),
  ("status", .str result.status.value),
  ("content", .optStr result.content),
  ("capability_request", match result.capabilityRequest with
    | some request => .obj [
        ("capability", .str request.capability), ("reason", .str request.reason)]
    | none => .null),
  ("failure_signal", match result.failureSignal with
    | some signal => signal.asDict
    | none => .null),
  ("error", .optStr result.error)]

def capabilityFromDict (payload : Json) : Result (Option CapabilityRequest) :=
  if payload.isDict then do
    let capability ← require payload "capability"
    let reason ← require payload "reason"
    .ok (some ⟨capability.pyStr, reason.pyStr⟩)
  else .ok none

def failureFromDict (payload : Json) : Result (Option FailureSignal) :=
  if payload.isDict then do
    let signal ← FailureSignal.fromDict payload
    .ok (some signal)
  else .ok none

/-- Older checkpoints name the item `node_id`. -/
def fromDict (payload : Json) : Result NodeResult := do
  let capabilityRequest ← capabilityFromDict (payload.get "capability_request")
  let failureSignal ← failureFromDict (payload.get "failure_signal")
  let agentId ← require payload "agent_id"
  let status ← NodeStatus.parse (← require payload "status").pyStr
  .ok {
    workItemId := (payload.getD "work_item_id" (payload.getD "node_id" (.str ""))).pyStr
    agentId := agentId.pyStr
    status := status
    content := (payload.get "content").optText
    capabilityRequest := capabilityRequest
    failureSignal := failureSignal
    error := (payload.get "error").optText }

@[simp] theorem fromDict_asDict (result : NodeResult) : fromDict result.asDict = .ok result := by
  obtain ⟨workItemId, agentId, status, content, request, signal, error⟩ := result
  have hrequest : ∀ request : Option CapabilityRequest, capabilityFromDict
      (match request with
        | some request => .obj [
            ("capability", .str request.capability), ("reason", .str request.reason)]
        | none => .null) = .ok request := by
    intro request
    cases request <;> simp [capabilityFromDict, require, Json.isDict]
  have hsignal : ∀ signal : Option FailureSignal, failureFromDict
      (match signal with
        | some signal => signal.asDict
        | none => .null) = .ok signal := by
    intro signal
    cases signal with
    | none => rfl
    | some signal =>
      have hdict : signal.asDict.isDict = true := rfl
      simp [failureFromDict, hdict]
  simp [fromDict, asDict, require, Json.get, Json.getD, hrequest, hsignal]

@[simp] theorem isDict_asDict (result : NodeResult) : result.asDict.isDict = true := rfl

/-- The form kept in a checkpoint: the content stays in the artifact store. -/
def withoutContent (result : NodeResult) : NodeResult := { result with content := none }

theorem asDict_set_content (result : NodeResult) :
    result.asDict.set "content" .null = result.withoutContent.asDict := rfl

@[simp] theorem withoutContent_status (result : NodeResult) :
    result.withoutContent.status = result.status := rfl

@[simp] theorem withoutContent_workItemId (result : NodeResult) :
    result.withoutContent.workItemId = result.workItemId := rfl

@[simp] theorem withoutContent_agentId (result : NodeResult) :
    result.withoutContent.agentId = result.agentId := rfl

@[simp] theorem withoutContent_isCompleted (result : NodeResult) :
    result.withoutContent.isCompleted = result.isCompleted := rfl

end NodeResult
end ProjectOS.Orchestration
