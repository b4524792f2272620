import ProjectOS.Base.JsonLines
import ProjectOS.Error

/-! The control events of a trace as a file of one record a line. -/
namespace ProjectOS.Orchestration
open Base

/-- `_validate_trace_id`, where `alnum` says which characters `str.isalnum` takes. -/
def validTraceId (alnum : Char → Bool) (traceId : String) : Bool :=
  Text.startswith traceId "tr-" && Text.removePrefix traceId "tr-" != "" &&
    (Text.removePrefix traceId "tr-").toList.all alnum

/-- The ids `start_trace` hands out, which the readers check. -/
abbrev TraceId (alnum : Char → Bool) := { traceId : String // validTraceId alnum traceId = true }

/-- What `record_event` is called with, with the fresh id and the time it takes. -/
structure EventCall (alnum : Char → Bool) where
  traceId : TraceId alnum
  workItemId : String
  eventType : String
  details : Json.Payload := default
  hex : String
  now : String

variable {alnum : Char → Bool}

def EventCall.fields (call : EventCall alnum) : List (String × Json) := [
  ("event_id", .str ("evt-" ++ call.hex)),
  ("trace_id", .str call.traceId.val),
  ("work_item_id", .str call.workItemId),
  ("type", .str call.eventType),
  ("created_at", .str call.now),
  ("details", .obj call.details.val)]

/-- The record of an event. -/
def EventCall.record (call : EventCall alnum) : Json := .obj call.fields

/-- The texts of the files `runs/<trace id>/events.jsonl`. -/
abbrev EventLogs (alnum : Char → Bool) := Dict (TraceId alnum) String

namespace EventLogs

/-- `record_event`. -/
def recordEvent (logs : EventLogs alnum) (call : EventCall alnum) : EventLogs alnum :=
  logs.set call.traceId
    ((logs.get? call.traceId).getD "" ++ String.ofList call.record.line)

def recordAll (logs : EventLogs alnum) (calls : List (EventCall alnum)) : EventLogs alnum :=
  calls.foldl recordEvent logs

/-- `json.loads(line)`. -/
def parseLine (line : String) : Result Json :=
  match Json.loads line with
  | some value => .ok value
  | none => raise "JSONDecodeError"

def listLines (lines : List String) : Result (List Json) :=
  collect parseLine (lines.filter fun line => !Text.blank line)

/-- `list_events`; a missing file has no lines. -/
def listEvents (logs : EventLogs alnum) (traceId : TraceId alnum) : Result (List Json) :=
  listLines (Text.splitlines (Text.readText ((logs.get? traceId).getD "")))

end EventLogs

/-- No string of the record holds a wide line break. -/
def EventCall.OneLine (call : EventCall alnum) : Prop :=
  ∀ text ∈ call.record.strings, Json.unbroken text = true

theorem EventCall.distinct_record (call : EventCall alnum) : call.record.distinct = true := by
  have hkeys : ["event_id", "trace_id", "work_item_id", "type", "created_at", "details"].Nodup := by
    decide
  have hdetails := call.details.property
  rw [record, Json.distinct, Bool.and_eq_true]
  refine ⟨decide_eq_true hkeys, ?_⟩
  simp only [fields, Json.distinctFields, hdetails, Bool.and_true]
  rfl

namespace EventLogs

/-- What the lines of a log are read as. -/
theorem listLines_log {calls : List (EventCall alnum)} {read : List Json} :
    listLines ((Text.splitlinesOf (Json.log (calls.map EventCall.record))).map
        String.ofList) = .ok read ↔
      (∀ call ∈ calls, call.OneLine) ∧ read = calls.map EventCall.record :=
  @Json.readObjects_log Error Json (EventCall alnum) .ok (.valueError "JSONDecodeError")
    EventCall.fields EventCall.record calls (fun call _ => call.distinct_record) (fun _ _ => rfl) read

/-- The calls of one trace. -/
def ofTrace (traceId : TraceId alnum) (calls : List (EventCall alnum)) : List (EventCall alnum) :=
  calls.filter fun call => call.traceId = traceId

/-- Each file holds the records of its trace. -/
def Holds (logs : EventLogs alnum) (calls : List (EventCall alnum)) : Prop :=
  ∀ traceId, (logs.get? traceId).getD "" =
    String.ofList (Json.log ((ofTrace traceId calls).map EventCall.record))

theorem recordEvent_holds {logs : EventLogs alnum} {done : List (EventCall alnum)}
    (h : Holds logs done) (call : EventCall alnum) :
    Holds (logs.recordEvent call) (done ++ [call]) := by
  intro traceId
  rw [recordEvent, Dict.get?_set]
  by_cases hid : traceId = call.traceId
  · subst hid
    simp [ofTrace, h call.traceId, Json.log]
  · simp [ofTrace, hid, Ne.symm hid, h traceId]

theorem recordAll_holds {logs : EventLogs alnum} {done : List (EventCall alnum)}
    (h : Holds logs done) (calls : List (EventCall alnum)) :
    Holds (logs.recordAll calls) (done ++ calls) := by
  induction calls generalizing logs done with
  | nil => simpa [recordAll] using h
  | cons call calls ih => simpa [recordAll] using ih (recordEvent_holds h call)

theorem listEvents_iff {logs : EventLogs alnum} {calls : List (EventCall alnum)}
    (h : Holds logs calls) (traceId : TraceId alnum) {read : List Json} :
    logs.listEvents traceId = .ok read ↔
      (∀ call ∈ ofTrace traceId calls, call.OneLine) ∧
        read = (ofTrace traceId calls).map EventCall.record := by
  rw [listEvents, h traceId, Json.splitlines_log]
  exact listLines_log

/-- Listing a trace gives back its records. -/
def Lossless (logs : EventLogs alnum) (calls : List (EventCall alnum)) : Prop :=
  ∀ traceId, logs.listEvents traceId = .ok ((ofTrace traceId calls).map EventCall.record)

theorem lossless_iff (calls : List (EventCall alnum)) :
    Lossless (recordAll ∅ calls) calls ↔ ∀ call ∈ calls, call.OneLine := by
  have hholds : Holds (recordAll ∅ calls) calls := by
    simpa using @recordAll_holds alnum ∅ [] (fun _ => rfl) calls
  unfold Lossless
  simp only [listEvents_iff hholds, and_true]
  constructor
  · intro h call hcall
    exact h call.traceId call (List.mem_filter.mpr ⟨hcall, by simp⟩)
  · exact fun h traceId call hcall => h call (List.mem_of_mem_filter hcall)

end EventLogs

end ProjectOS.Orchestration
