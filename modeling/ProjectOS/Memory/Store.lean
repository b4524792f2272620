import ProjectOS.Memory.Event

/-! The memory of a trace as a file of one event a line. -/
namespace ProjectOS.Memory
open Base

/-- The texts of the files `<trace id>/memory.jsonl`. -/
abbrev MemoryStore := Dict String String

/-- What `append` is called with, with the fresh id and the time it takes. -/
structure AppendCall where
  traceId : String
  role : String
  content : String
  eventType : String := "message"
  workItemId : Option String := none
  agentId : Option String := none
  attempt : Option Int := none
  toolName : Option String := none
  sourceRefs : List String := []
  metadata : Json.Payload := default
  tier : String := "raw"
  lifecycle : String := "active"
  expiresAt : Option String := none
  retrievalEnabled : Option Bool := none
  hex : String
  now : String

/-- `_clip`. -/
def clip (content : String) : String :=
  let value := Text.strip content
  if value.length ≤ maxContent then value
  else String.ofList (value.toList.take (maxContent - 40)) ++
    "\n[内容已截断，完整内容见 Trace/Evidence]"

/-- `_default_retrieval_enabled`. -/
def defaultRetrievalEnabled (role eventType : String) : Bool :=
  !(role = "system" ||
    eventType ∈ ["checkpoint", "agent_input", "planner_input", "planner_repair_input"])

def AppendCall.event (call : AppendCall) (sequence : Nat) : EventFields := {
  id := "mem-" ++ call.hex
  traceId := call.traceId
  sequence := sequence
  role := call.role
  content := clip call.content
  eventType := call.eventType
  workItemId := call.workItemId
  agentId := call.agentId
  attempt := call.attempt
  toolName := call.toolName
  sourceRefs := call.sourceRefs
  metadata := call.metadata.val
  createdAt := call.now
  tier := call.tier
  lifecycle := call.lifecycle
  expiresAt := call.expiresAt
  retrievalEnabled := call.retrievalEnabled.getD
    (call.tier ≠ "temporary" && defaultRetrievalEnabled call.role call.eventType) }

namespace MemoryStore

/-- The loop over the lines. A last line that is no JSON text is left out. -/
def readLines : List String → Result (List MemoryEvent)
  | [] => .ok []
  | line :: rest =>
      if Text.blank line then readLines rest
      else
        match Json.loads line with
        | none => if rest = [] then .ok [] else raise "JSONDecodeError"
        | some payload => do
            let event ← MemoryEvent.fromDict payload
            let events ← readLines rest
            .ok (event :: events)

/-- `_read_unlocked`; a missing file has no lines. -/
def readUnlocked (store : MemoryStore) (traceId : String) : Result (List MemoryEvent) :=
  readLines (Text.splitlines (Text.readText ((store.get? traceId).getD "")))

/-- `_read`. -/
def read (store : MemoryStore) (traceId : String) : Result (List MemoryEvent) := do
  validateId "trace id" traceId
  store.readUnlocked traceId

def append (store : MemoryStore) (call : AppendCall) : Result (MemoryEvent × MemoryStore) := do
  validateId "trace id" call.traceId
  let events ← store.readUnlocked call.traceId
  let event ← MemoryEvent.create (call.event (events.length + 1))
  let text := (store.get? call.traceId).getD "" ++ String.ofList event.asDict.line
  .ok (event, store.set call.traceId text)

/-- Calls of `append` that all succeed, with the events they return. -/
def appendAll (store : MemoryStore) : List AppendCall → Result (List MemoryEvent × MemoryStore)
  | [] => .ok ([], store)
  | call :: rest => do
      let (event, store) ← store.append call
      let (events, store) ← appendAll store rest
      .ok (event :: events, store)

end MemoryStore

end ProjectOS.Memory
