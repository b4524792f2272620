import ProjectOS.Memory.Event

/-! The turns of a conversation as a file of one record a line, numbered from a
read of the latest ones. -/
namespace ProjectOS.Application
open Base

def maxMessage : Nat := 8000

structure ConversationTurn where
  id : String
  conversationId : String
  sequence : Int
  role : String
  content : String
  traceId : Option String := none
  createdAt : String := ""
deriving DecidableEq

structure Conversation where
  id : String
  projectId : String
  createdAt : String
  updatedAt : String
deriving DecidableEq

/-- The two files of one conversation. -/
structure ConversationStore where
  conversation : Option Conversation
  messages : String := ""

/-- What `append` is called with, with the fresh id and the time it takes. -/
structure AppendCall where
  role : String
  content : String
  traceId : Option String := none
  hex : String
  now : String

def roles : List String := ["user", "assistant", "system"]

def validateConversationId (value : String) : Result Unit :=
  raiseWhen (!Memory.safeId value) "conversation id 格式无效"

namespace ConversationTurn

/-- `as_dict()`. -/
def asDict (turn : ConversationTurn) : List (String × Json) := [
  ("id", .str turn.id),
  ("conversation_id", .str turn.conversationId),
  ("sequence", .int turn.sequence),
  ("role", .str turn.role),
  ("content", .str turn.content),
  ("trace_id", .optStr turn.traceId),
  ("created_at", .str turn.createdAt)]

/-- The turn of a payload. -/
def fromPayload (payload : Json) : Result ConversationTurn := do
  let id ← require payload "id"
  let conversationId ← require payload "conversation_id"
  let sequence ← require payload "sequence"
  let sequence ← pyInt sequence
  let role ← require payload "role"
  let content ← require payload "content"
  let createdAt ← require payload "created_at"
  .ok {
    id := id.pyStr
    conversationId := conversationId.pyStr
    sequence := sequence
    role := role.pyStr
    content := content.pyStr
    traceId := textOrNone (payload.get "trace_id")
    createdAt := createdAt.pyStr }

/-- The turn read back from its record: an empty trace id is lost. -/
def reread (turn : ConversationTurn) : ConversationTurn :=
  { turn with traceId := turn.traceId.filter (· ≠ "") }

end ConversationTurn

def AppendCall.turn (call : AppendCall) (conversationId : String) (sequence : Nat) :
    ConversationTurn := {
  id := "turn-" ++ call.hex
  conversationId := conversationId
  sequence := sequence
  role := call.role
  content := Text.strip call.content
  traceId := call.traceId
  createdAt := call.now }

/-- The checks of `append` on its own arguments. -/
def AppendCall.check (call : AppendCall) : Result Unit := do
  raiseWhen (call.role ∉ roles) "会话消息 role 无效"
  raiseWhen (Text.strip call.content = "" || maxMessage < (Text.strip call.content).length)
    "会话消息不能为空且不能超过 8000 字符"

/-- `turns[-max(1, min(limit, 200)):]`. -/
def latest (limit : Int) (turns : List α) : List α :=
  turns.drop (turns.length - (max 1 (min limit 200)).toNat)

namespace ConversationStore

def load (store : ConversationStore) (conversationId : String) : Result Conversation := do
  validateConversationId conversationId
  match store.conversation with
  | some conversation => .ok conversation
  | none => .error (.fileNotFound ("会话不存在: " ++ conversationId))

/-- `turns`; a missing file has no lines. -/
def turns (store : ConversationStore) (conversationId : String) (limit : Int := 100) :
    Result (List ConversationTurn) := do
  let _ ← store.load conversationId
  let turns ← Json.readObjects ConversationTurn.fromPayload (.valueError "JSONDecodeError")
    (Text.splitlines (Text.readText store.messages))
  .ok (latest limit turns)

def append (store : ConversationStore) (conversationId : String) (call : AppendCall) :
    Result (ConversationTurn × ConversationStore) := do
  call.check
  let conversation ← store.load conversationId
  let turns ← store.turns conversationId
  let turn := call.turn conversationId (turns.length + 1)
  .ok (turn, {
    conversation := some { conversation with updatedAt := turn.createdAt }
    messages := store.messages ++ String.ofList (Json.obj turn.asDict).line })

/-- Calls of `append` that all succeed, with the turns they return. -/
def appendAll (store : ConversationStore) (conversationId : String) :
    List AppendCall → Result (List ConversationTurn × ConversationStore)
  | [] => .ok ([], store)
  | call :: rest => do
      let (turn, store) ← store.append conversationId call
      let (turns, store) ← appendAll store conversationId rest
      .ok (turn :: turns, store)

end ConversationStore

theorem fromPayload_asDict (turn : ConversationTurn) :
    ConversationTurn.fromPayload (.obj turn.asDict) = .ok turn.reread := by
  have hrequire (key : String) {value : Json} (h : (Json.obj turn.asDict).get? key = some value) :
      require (.obj turn.asDict) key = .ok value := by
    unfold require
    rw [h]
  have htrace : (Json.obj turn.asDict).get "trace_id" = .optStr turn.traceId := rfl
  unfold ConversationTurn.fromPayload
  rw [hrequire "id" rfl, hrequire "conversation_id" rfl, hrequire "sequence" rfl,
    hrequire "role" rfl, hrequire "content" rfl, hrequire "created_at" rfl, htrace]
  simp only [ok_bind, pyInt_int, Memory.textOrNone_optStr, Json.pyStr_str]
  rfl

theorem distinct_asDict (turn : ConversationTurn) : (Json.obj turn.asDict).distinct = true := by
  have hkeys : ["id", "conversation_id", "sequence", "role", "content", "trace_id",
      "created_at"].Nodup := by decide
  rw [Json.distinct, Bool.and_eq_true]
  refine ⟨decide_eq_true hkeys, ?_⟩
  simp only [ConversationTurn.asDict, Json.distinctFields, Json.distinct_optStr, Bool.and_true]
  rfl

end ProjectOS.Application
