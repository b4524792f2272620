import ProjectOS.Base.JsonLines
import ProjectOS.Error

/-! Memory events: what a trace keeps of one interaction, and its record. -/
namespace ProjectOS.Memory
open Base

/-- `[A-Za-z0-9][A-Za-z0-9_.:-]{0,127}`. -/
def safeId (value : String) : Bool :=
  match value.toList with
  | [] => false
  | c :: rest =>
      (Text.isAsciiLetter c || Text.isAsciiDigit c) && rest.length ≤ 127 &&
        rest.all fun c => Text.isSafeChar c || c = ':'

def validateId (name value : String) : Result Unit :=
  raiseWhen (!safeId value) (name ++ " 必须是受限 ID")

def roles : List String := ["user", "system", "planner", "assistant", "tool", "control"]

def maxContent : Nat := 16000

def tiers : List String := ["raw", "temporary", "working", "episodic", "durable"]

def lifecycles : List String := ["active", "candidate", "superseded", "expired"]

structure EventFields where
  id : String
  traceId : String
  sequence : Int
  role : String
  content : String
  eventType : String := "message"
  workItemId : Option String := none
  agentId : Option String := none
  attempt : Option Int := none
  toolName : Option String := none
  sourceRefs : List String := []
  metadata : List (String × Json) := []
  createdAt : String := ""
  tier : String := "raw"
  lifecycle : String := "active"
  expiresAt : Option String := none
  retrievalEnabled : Bool := true

def validateOptionalId (name : String) : Option String → Result Unit
  | some value => validateId name value
  | none => .ok ()

/-- `MemoryEvent.__post_init__`. -/
def EventFields.postInit (event : EventFields) : Result Unit := do
  validateId "event id" event.id
  validateId "trace id" event.traceId
  validateOptionalId "work item id" event.workItemId
  validateOptionalId "agent id" event.agentId
  raiseWhen (event.role ∉ roles)
    ("MemoryEvent.role 必须是: " ++ Text.join ", " (Text.sorted roles))
  raiseWhen (event.sequence < 1) "MemoryEvent.sequence 必须从 1 开始"
  raiseWhen (Text.blank event.content || maxContent < event.content.length)
    "MemoryEvent.content 不能为空且不能超过 16000 字符"
  raiseWhen (event.attempt.any (· < 1)) "MemoryEvent.attempt 必须从 1 开始"
  raiseWhen (event.tier ∉ tiers)
    ("MemoryEvent.tier 必须是: " ++ Text.join ", " (Text.sorted tiers))
  raiseWhen (event.lifecycle ∉ lifecycles)
    ("MemoryEvent.lifecycle 必须是: " ++ Text.join ", " (Text.sorted lifecycles))

structure MemoryEvent extends EventFields where
  accepted : toEventFields.postInit = .ok ()

namespace MemoryEvent

def create (raw : EventFields) : Result MemoryEvent :=
  match h : raw.postInit with
  | .ok () => .ok ⟨raw, h⟩
  | .error e => .error e

theorem create_eq_ok {raw : EventFields} {event : MemoryEvent} :
    create raw = .ok event ↔ event.toEventFields = raw := by
  unfold create
  split
  · rename_i h
    constructor
    · intro h'
      cases h'
      rfl
    · intro h'
      subst h'
      rfl
  · rename_i e h
    simp only [reduceCtorEq, false_iff]
    rintro rfl
    rw [event.accepted] at h
    cases h

end MemoryEvent

namespace EventFields

def pairs (event : EventFields) : List (String × Json) := [
  ("id", .str event.id),
  ("trace_id", .str event.traceId),
  ("sequence", .int event.sequence),
  ("role", .str event.role),
  ("content", .str event.content),
  ("event_type", .str event.eventType),
  ("work_item_id", .optStr event.workItemId),
  ("agent_id", .optStr event.agentId),
  ("attempt", .optInt event.attempt),
  ("tool_name", .optStr event.toolName),
  ("source_refs", .strs event.sourceRefs),
  ("metadata", .obj event.metadata),
  ("created_at", .str event.createdAt),
  ("tier", .str event.tier),
  ("lifecycle", .str event.lifecycle),
  ("expires_at", .optStr event.expiresAt),
  ("retrieval_enabled", .bool event.retrievalEnabled)]

/-- `as_dict()`. -/
def asDict (event : EventFields) : Json := .obj event.pairs

end EventFields

/-- `dict(value)` of a dictionary. -/
def dictOf (value : Json) : Result (List (String × Json)) :=
  match value with
  | .obj fields => .ok fields
  | _ => .error (.typeError "cannot convert to a dictionary")

/-- `int(value) if value is not None else None`. -/
def intOrNone (value : Json) : Result (Option Int) :=
  if value.isNull then .ok none else (pyInt value).map some

/-- `MemoryEvent.from_dict`. -/
def MemoryEvent.fromDict (payload : Json) : Result MemoryEvent := do
  let id ← require payload "id"
  let traceId ← require payload "trace_id"
  let sequence ← require payload "sequence"
  let sequence ← pyInt sequence
  let role ← require payload "role"
  let content ← require payload "content"
  let attempt ← intOrNone (payload.get "attempt")
  let sourceRefs ← texts (payload.getD "source_refs" (.arr []))
  let metadata ← dictOf (payload.getD "metadata" (.obj []))
  MemoryEvent.create {
    id := id.pyStr
    traceId := traceId.pyStr
    sequence := sequence
    role := role.pyStr
    content := content.pyStr
    eventType := (payload.getD "event_type" (.str "message")).pyStr
    workItemId := textOrNone (payload.get "work_item_id")
    agentId := textOrNone (payload.get "agent_id")
    attempt := attempt
    toolName := textOrNone (payload.get "tool_name")
    sourceRefs := sourceRefs
    metadata := metadata
    createdAt := (payload.getD "created_at" (.str "")).pyStr
    tier := (payload.getD "tier" (.str "raw")).pyStr
    lifecycle := (payload.getD "lifecycle" (.str "active")).pyStr
    expiresAt := textOrNone (payload.get "expires_at")
    retrievalEnabled := (payload.getD "retrieval_enabled" (.bool true)).truthy }

theorem ne_empty_of_safeId {value : String} (h : safeId value = true) : value ≠ "" := by
  rintro rfl
  revert h
  decide

theorem textOrNone_optStr (value : Option String) :
    textOrNone (.optStr value) = value.filter (· ≠ "") := by
  cases value with
  | none => rfl
  | some text =>
    by_cases h : text = "" <;>
      simp [textOrNone, Json.optStr, Json.truthy, h, Option.filter]

theorem intOrNone_optInt (value : Option Int) : intOrNone (.optInt value) = .ok value := by
  cases value <;> rfl

theorem filter_of_validateOptionalId {name : String} {value : Option String}
    (h : validateOptionalId name value = .ok ()) : value.filter (· ≠ "") = value := by
  cases value with
  | none => rfl
  | some text =>
    have hsafe : safeId text = true := by simpa [validateOptionalId, validateId] using h
    simp [ne_empty_of_safeId hsafe]

/-- The event read back from a record: an empty tool name or expiry is lost. -/
def EventFields.reread (event : EventFields) : EventFields :=
  { event with
    toolName := event.toolName.filter (· ≠ "")
    expiresAt := event.expiresAt.filter (· ≠ "") }

def MemoryEvent.reread (event : MemoryEvent) : MemoryEvent :=
  ⟨event.toEventFields.reread, event.accepted⟩

theorem fromDict_asDict (event : MemoryEvent) :
    MemoryEvent.fromDict event.asDict = .ok event.reread := by
  have hid : event.workItemId.filter (· ≠ "") = event.workItemId ∧
      event.agentId.filter (· ≠ "") = event.agentId := by
    have h := event.accepted
    unfold EventFields.postInit at h
    obtain ⟨-, h⟩ := check_bind_eq_ok.mp h
    obtain ⟨-, h⟩ := check_bind_eq_ok.mp h
    obtain ⟨hwork, h⟩ := check_bind_eq_ok.mp h
    obtain ⟨hagent, -⟩ := check_bind_eq_ok.mp h
    exact ⟨filter_of_validateOptionalId hwork, filter_of_validateOptionalId hagent⟩
  have hrequire (key : String) {value : Json} (h : event.asDict.get? key = some value) :
      require event.asDict key = .ok value := by
    unfold require
    rw [h]
  have hget (key : String) {value default : Json} (h : event.asDict.get? key = some value) :
      event.asDict.getD key default = value := by
    unfold Json.getD
    rw [h, Option.getD_some]
  unfold MemoryEvent.fromDict Json.get
  rw [hrequire "id" rfl, hrequire "trace_id" rfl,
    hrequire "sequence" rfl, hrequire "role" rfl,
    hrequire "content" rfl, hget "attempt" rfl,
    hget "source_refs" rfl, hget "metadata" rfl,
    hget "event_type" rfl, hget "work_item_id" rfl,
    hget "agent_id" rfl, hget "tool_name" rfl,
    hget "created_at" rfl, hget "tier" rfl, hget "lifecycle" rfl,
    hget "expires_at" rfl, hget "retrieval_enabled" rfl]
  simp only [ok_bind, pyInt_int, intOrNone_optInt, texts_strs, dictOf, textOrNone_optStr,
    Json.pyStr_str, hid.1, hid.2]
  rw [MemoryEvent.create_eq_ok]
  rfl

end ProjectOS.Memory
