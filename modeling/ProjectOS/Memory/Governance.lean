import ProjectOS.Memory.Lossless

/-! What is retrieved from the memory of a project, and the calls that govern it: the state of
an event is only in the events that follow it. -/
namespace ProjectOS.Memory
open Base

/-- `metadata.get(key)` as the id of another event. -/
def MemoryEvent.reference (event : MemoryEvent) (key : String) : Option String :=
  textOrNone ((Json.obj event.metadata).get key)

/-- `_suppressed_ids`. -/
def suppressedIds (events : List MemoryEvent) : List String :=
  (events.filter fun event => event.eventType ∈ ["memory_expired", "memory_superseded"]).filterMap
    (·.reference "target_event_id")

def promotedIds (events : List MemoryEvent) : List String :=
  (events.filter fun event => event.eventType = "memory_promoted").filterMap
    (·.reference "promoted_from")

/-- `_is_retrievable`. -/
def isRetrievable (now : String) (event : MemoryEvent) : Bool :=
  event.retrievalEnabled && event.lifecycle = "active" && event.expiresAt.all (now < ·) &&
    event.eventType ≠ "checkpoint"

/-- `max(1, min(limit, most))`. -/
def window (most limit : Int) : Nat := (max 1 (min limit most)).toNat

/-- `xs[-n:]` of a positive `n`. -/
def lastOf (n : Nat) (xs : List α) : List α := xs.drop (xs.length - n)

/-- `MemoryView`. -/
structure MemoryView where
  traceId : String
  workItemId : Option String
  events : List MemoryEvent
  checkpoint : Option (List (String × Json))

/-- Events leave at the front until their contents fit. -/
def fitChars (maxChars : Int) : List MemoryEvent → List MemoryEvent
  | [] => []
  | event :: events =>
      if maxChars < (((event :: events).map (·.content.length)).foldr (· + ·) 0 : Nat) then
        fitChars maxChars events
      else event :: events

/-- The content of the last checkpoint event, if it is a dictionary. -/
def latestCheckpoint (events : List MemoryEvent) : Option (List (String × Json)) :=
  (events.reverse.find? fun event => event.eventType = "checkpoint").bind fun event =>
    match Json.loads event.content with
    | some (.obj fields) => some fields
    | _ => none

/-- The fresh id and the time that an append takes. -/
structure Stamp where
  hex : String
  now : String

namespace MemoryStore

/-- `_all_events`. -/
def allEvents (store : MemoryStore) : Result (List MemoryEvent) :=
  (collect store.read (Text.sorted store.keys)).map List.flatten

/-- The events of one trace, or of all traces. -/
def scope (store : MemoryStore) : Option String → Result (List MemoryEvent)
  | none => store.allEvents
  | some traceId => store.read traceId

/-- The last part of `search` and of `search_durable`: the ranked ids that the log admits. -/
def rankedHits (events : List MemoryEvent) (ranked : List String) (limit : Int)
    (admitted : MemoryEvent → Bool) : List MemoryEvent :=
  let byId := Dict.ofList (events.map fun event => (event.id, event))
  (ranked.filterMap fun id => (byId.get? id).filter fun event =>
    !(event.id ∈ suppressedIds events) && admitted event).take (window 100 limit)

/-- `search` under the ranking of the two indexes. -/
def search (store : MemoryStore) (ranked : List String) (traceId now : String)
    (tiers : List String := ["working", "episodic", "durable", "raw"])
    (roles : List String := ["user", "planner", "assistant", "tool", "control"])
    (limit : Int := 20) : Result (List MemoryEvent) := do
  let events ← store.read traceId
  .ok (rankedHits events ranked limit fun event =>
    event.tier ∈ tiers && event.role ∈ roles && event.retrievalEnabled &&
      event.lifecycle = "active" && event.expiresAt.all (now < ·))

/-- `search_durable` under the ranking of the two indexes. -/
def searchDurable (store : MemoryStore) (ranked : List String) (now : String)
    (limit : Int := 20) : Result (List MemoryEvent) := do
  let events ← store.allEvents
  .ok (rankedHits events ranked limit fun event => event.tier = "durable" && isRetrievable now event)

def view (store : MemoryStore) (traceId now : String) (workItemId : Option String := none)
    (roles : List String := []) (limit : Int := 12) (maxChars : Int := 12000)
    (checkpoint : Option (List (String × Json)) := none) : Result MemoryView := do
  let all ← store.read traceId
  let selected := lastOf (window 500 limit) (all.filter fun event =>
    !(event.id ∈ suppressedIds all) && isRetrievable now event &&
      workItemId.all (some · = event.workItemId) && (roles = [] || event.role ∈ roles))
  .ok {
    traceId := traceId
    workItemId := workItemId
    events := fitChars maxChars (selected.filter fun event => event.eventType ≠ "checkpoint")
    checkpoint := checkpoint <|> latestCheckpoint all }

def proposal (traceId content : String) (sourceRefs : List String) (metadata : Json.Payload)
    (stamp : Stamp) : AppendCall where
  traceId := traceId
  role := "control"
  eventType := "memory_candidate"
  content := content
  sourceRefs := sourceRefs
  metadata := metadata
  tier := "durable"
  lifecycle := "candidate"
  retrievalEnabled := some false
  hex := stamp.hex
  now := stamp.now

def proposeDurable (store : MemoryStore) (traceId content : String) (sourceRefs : List String)
    (metadata : Json.Payload) (stamp : Stamp) : Result (MemoryEvent × MemoryStore) :=
  store.append (proposal traceId content sourceRefs metadata stamp)

def promotion (source : MemoryEvent) (traceId : String) (stamp : Stamp) : AppendCall where
  traceId := traceId
  role := "control"
  eventType := "memory_promoted"
  content := source.content
  sourceRefs := source.id :: source.sourceRefs
  metadata := ⟨[("promoted_from", .str source.id)], rfl⟩
  tier := "durable"
  lifecycle := "active"
  retrievalEnabled := some true
  hex := stamp.hex
  now := stamp.now

def promote (store : MemoryStore) (eventId traceId : String) (stamp : Stamp) :
    Result (MemoryEvent × MemoryStore) := do
  let events ← store.read traceId
  match events.find? fun event => event.id = eventId with
  | none => .error (.keyError ("MemoryEvent 不存在: " ++ eventId))
  | some source => do
      raiseWhen (source.lifecycle ≠ "candidate") "只有 candidate MemoryEvent 可以被提升"
      store.append (promotion source traceId stamp)

/-- `durable_candidates`. -/
def durableCandidates (store : MemoryStore) (traceId : Option String) (limit : Int)
    (now : String) : Result (List MemoryEvent) := do
  let all ← store.scope traceId
  .ok (lastOf (window 500 limit) (all.filter fun event =>
    event.tier = "durable" && event.lifecycle = "candidate" &&
      !(event.id ∈ suppressedIds all) && !(event.id ∈ promotedIds all) &&
      event.expiresAt.all (now < ·)))

def stateChange (traceId eventId eventType lifecycle : String) (stamp : Stamp) : AppendCall where
  traceId := traceId
  role := "control"
  eventType := eventType
  content := "MemoryEvent " ++ eventId ++ " -> " ++ lifecycle
  metadata := ⟨[("target_event_id", .str eventId)], rfl⟩
  tier := "raw"
  lifecycle := "active"
  retrievalEnabled := some false
  hex := stamp.hex
  now := stamp.now

/-- `_state_event`. -/
def stateEvent (store : MemoryStore) (traceId eventId eventType lifecycle : String)
    (stamp : Stamp) : Result (MemoryEvent × MemoryStore) := do
  let events ← store.read traceId
  if events.any fun event => event.id = eventId then
    store.append (stateChange traceId eventId eventType lifecycle stamp)
  else .error (.keyError ("MemoryEvent 不存在: " ++ eventId))

def expire (store : MemoryStore) (eventId traceId : String) (stamp : Stamp) :
    Result (MemoryEvent × MemoryStore) :=
  store.stateEvent traceId eventId "memory_expired" "expired" stamp

def supersede (store : MemoryStore) (eventId traceId : String) (stamp : Stamp) :
    Result (MemoryEvent × MemoryStore) :=
  store.stateEvent traceId eventId "memory_superseded" "superseded" stamp

end MemoryStore

/-- What a call has written when it returns or raises. -/
structure Written where
  store : MemoryStore
  events : List MemoryEvent := []
  error : Option Error := none

namespace MemoryStore

/-- A call that writes one event, or none. -/
def written (store : MemoryStore) (result : Result (MemoryEvent × MemoryStore)) : Written :=
  match result with
  | .ok (event, store') => ⟨store', [event], none⟩
  | .error error => ⟨store, [], some error⟩

/-- `for event in events: change(event.id, ..)`. -/
def forEvents (change : MemoryStore → MemoryEvent → Stamp → Result (MemoryEvent × MemoryStore))
    (store : MemoryStore) (stamps : Nat → Stamp) : List MemoryEvent → Written
  | [] => ⟨store, [], none⟩
  | event :: rest =>
      match change store event (stamps 0) with
      | .error error => ⟨store, [], some error⟩
      | .ok (state, store') =>
          let after := forEvents change store' (fun i => stamps (i + 1)) rest
          { after with events := state :: after.events }

/-- The events that `cleanup_expired` finds. -/
def expiredOf (now : String) (events : List MemoryEvent) : List MemoryEvent :=
  events.filter fun event => !(event.id ∈ suppressedIds events) &&
    event.lifecycle = "active" && event.expiresAt.any (· ≤ now)

/-- `cleanup_expired`. -/
def cleanupExpired (store : MemoryStore) (traceId : Option String) (limit : Int) (now : String)
    (stamps : Nat → Stamp) : Written :=
  match store.scope traceId with
  | .error error => ⟨store, [], some error⟩
  | .ok all =>
      forEvents (fun store event stamp => store.expire event.id event.traceId stamp) store stamps
        ((expiredOf now all).take (window 500 limit))

/-- The summaries that nothing has replaced yet. -/
def activeSummaries (events : List MemoryEvent) : List MemoryEvent :=
  events.filter fun event => event.eventType = "run_summary" && event.lifecycle = "active" &&
    !(event.id ∈ suppressedIds events)

/-- The events a summary is made of. -/
def relevantEvents (events : List MemoryEvent) : List MemoryEvent :=
  let goals := events.filter fun event => event.eventType = "goal"
  let results := events.filterMap fun event =>
    if event.eventType = "work_item_result" then
      (event.workItemId.filter (· ≠ "")).map fun id => (id, event)
    else none
  let outputs := events.filter fun event => event.eventType ∈ ["assistant_output", "tool_result"]
  lastOf 16 (goals.take 1 ++ (Dict.ofList results).values ++ outputs)

def summaryLine (event : MemoryEvent) : String :=
  "- " ++ event.eventType ++ (match event.workItemId.filter (· ≠ "") with
    | some id => "[" ++ id ++ "]"
    | none => "") ++ ": " ++ event.content

def summaryContent (status : String) (error : Option String) (relevant : List MemoryEvent) :
    String :=
  let lines := ["Trace 运行摘要：status=" ++ status] ++
    ((error.filter (· ≠ "")).map fun error => "终止原因：" ++ error).toList ++
    relevant.map summaryLine
  Text.join "\n" (if lines.length = 1 then lines ++ ["- 本次运行没有可压缩的交互事件。"] else lines)

/-- The issues of `validate_summary`. -/
def summaryIssues (content status : String) (sourceRefs available : List String) : List String :=
  let missing := Text.sorted ((dedupe sourceRefs).filter fun ref => !(ref ∈ available))
  (if Text.blank content then ["摘要内容不能为空"] else []) ++
  (if Text.blank status then ["摘要必须包含 Trace 状态"] else []) ++
  (if sourceRefs = [] then ["摘要必须引用至少一个原始事件"] else []) ++
  (if missing ≠ [] then ["摘要引用了不存在的事件: " ++ Text.join ", " missing] else []) ++
  (if !Text.contains content "Trace 运行摘要" then ["摘要缺少固定标题"] else []) ++
  (if !Text.contains content ("status=" ++ status) then ["摘要状态与正文不一致"] else [])

def summary (traceId status content : String) (relevant : List MemoryEvent) (stamp : Stamp) :
    AppendCall where
  traceId := traceId
  role := "control"
  eventType := "run_summary"
  content := content
  sourceRefs := relevant.map (·.id)
  metadata := ⟨[("summary_version", .int 1), ("status", .str status),
    ("source_count", .nat relevant.length)], rfl⟩
  tier := "episodic"
  lifecycle := "active"
  retrievalEnabled := some true
  hex := stamp.hex
  now := stamp.now

/-- The second half of `summarize_trace`. -/
def appendSummary (store : MemoryStore) (traceId status : String) (error : Option String)
    (stamp : Stamp) : Result (MemoryEvent × MemoryStore) := do
  let events ← store.read traceId
  let relevant := relevantEvents events
  let content := summaryContent status error relevant
  let issues := summaryIssues content status (relevant.map (·.id)) (events.map (·.id))
  raiseWhen (issues ≠ []) ("Trace 摘要未通过质量校验: " ++ Text.join "; " issues)
  store.append (summary traceId status content relevant stamp)

/-- `summarize_trace`. -/
def summarizeTrace (store : MemoryStore) (traceId status : String) (error : Option String)
    (stamps : Nat → Stamp) : Written :=
  match store.read traceId with
  | .error error => ⟨store, [], some error⟩
  | .ok all =>
      let replaced := forEvents (fun store event stamp => store.supersede event.id traceId stamp)
        store (fun i => stamps (i + 1)) (activeSummaries all)
      if replaced.error.isSome then replaced
      else
        let added := replaced.store.written
          (replaced.store.appendSummary traceId status error (stamps 0))
        { added with events := replaced.events ++ added.events }

end MemoryStore

inductive GovernanceCall where
  | append (call : AppendCall)
  | proposeDurable (traceId content : String) (sourceRefs : List String) (metadata : Json.Payload)
      (stamp : Stamp)
  | promote (eventId traceId : String) (stamp : Stamp)
  | expire (eventId traceId : String) (stamp : Stamp)
  | supersede (eventId traceId : String) (stamp : Stamp)
  | cleanupExpired (traceId : Option String) (limit : Int) (now : String) (stamps : Nat → Stamp)
  | summarizeTrace (traceId status : String) (error : Option String) (stamps : Nat → Stamp)

def MemoryStore.perform (store : MemoryStore) : GovernanceCall → Written
  | .append call => store.written (store.append call)
  | .proposeDurable traceId content sourceRefs metadata stamp =>
      store.written (store.proposeDurable traceId content sourceRefs metadata stamp)
  | .promote eventId traceId stamp => store.written (store.promote eventId traceId stamp)
  | .expire eventId traceId stamp => store.written (store.expire eventId traceId stamp)
  | .supersede eventId traceId stamp => store.written (store.supersede eventId traceId stamp)
  | .cleanupExpired traceId limit now stamps => store.cleanupExpired traceId limit now stamps
  | .summarizeTrace traceId status error stamps => store.summarizeTrace traceId status error stamps

/-- The memory of a project with all that was ever written to it. -/
structure Governed where
  store : MemoryStore := ∅
  log : List MemoryEvent := []

namespace Governed

def apply (run : Governed) (call : GovernanceCall) : Governed :=
  let written := run.store.perform call
  ⟨written.store, run.log ++ written.events⟩

/-- The memory after calls on an empty project. -/
def after (calls : List GovernanceCall) : Governed := calls.foldl apply {}

/-- The event was expired or superseded. -/
def Retired (run : Governed) (traceId id : String) : Prop :=
  id ∈ suppressedIds (MemoryStore.ofTrace traceId run.log)

def Promoted (run : Governed) (traceId id : String) : Prop :=
  id ∈ promotedIds (MemoryStore.ofTrace traceId run.log)

end Governed

end ProjectOS.Memory
