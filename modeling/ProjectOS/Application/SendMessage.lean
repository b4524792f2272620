import ProjectOS.Application.ResultSummary
import ProjectOS.Orchestration.Failure

/-! One message of a conversation: the user's turn, what it asks the run service for
and the turn that answers it; and the projection of ended traces into turns. Turns
that were appended before an exception stay. -/
namespace ProjectOS.Application
open Base Orchestration

inductive ConversationIntent where
  | newRequest | modifyRequest | continue | inspectResult | resume | authorize
deriving DecidableEq

/-- The words that tell an intent, in the order in which they are looked for. -/
def intentTokens : List (ConversationIntent × List String) := [
  (.authorize, ["授权", "批准", "允许", "approve", "authorize"]),
  (.resume, ["恢复", "resume", "从断点"]),
  (.inspectResult, ["查看结果", "查看运行", "运行结果", "为什么失败", "测试怎么样", "状态怎么样",
    "发生了什么"]),
  (.modifyRequest, ["修改需求", "修改计划", "修改架构", "修改任务", "继续修改", "请修改", "需要修改",
    "改成", "换成", "补充需求", "修正需求", "调整需求", "调整计划", "调整架构"]),
  (.continue, ["继续", "接着", "下一步", "continue"])]

def modificationStarts : List String := ["修改 ", "修改：", "修改:", "补充 ", "补充："]

/-- The starts of a modification are tried right after its phrases. -/
def classifyIntent (content : String) : ConversationIntent :=
  let text := String.ofList
    ([' '].intercalate (Text.words (Text.lower (Text.strip content)).toList))
  let told := intentTokens.find? fun (intent, tokens) =>
    tokens.any (Text.contains text) ||
      (intent = .modifyRequest && modificationStarts.any (Text.startswith text))
  (told.map (·.1)).getD .newRequest

/-- The fresh part of a turn's id and its time. -/
structure Stamp where
  hex : String
  now : String
  hexUnbroken : Json.unbroken ("turn-" ++ hex) = true
  nowUnbroken : Json.unbroken now = true

/-- The id that the trace store gives to a trace. -/
structure TraceId where
  value : String
  safe : Memory.safeId value = true

/-- The files of one conversation, the traces of its project and, for the record, the
turns that were appended since it was created. -/
structure Session where
  store : ConversationStore
  turns : List ConversationTurn := []
  traces : Dict String TraceFacts := ∅

/-- What a message asks the run service for. -/
inductive RunRequest where
  | resumeRun (traceId : String)
  | startPatchPlan (traceId changeRequest : String)
  | startDynamicPlan (goal planId : String)

inductive RunOutcome where
  | started (traceId : TraceId) (planId : String)
  | plannerFailure (message : String) (traceId : Option TraceId) (kind : Option FailureKind)
  | raised (error : Error) (typeName text : String)

/-- An answer of the run service and the traces it leaves behind. -/
structure RunAnswer where
  outcome : RunOutcome
  traces : Dict String TraceFacts

structure Message where
  content : String
  planHex : String
  userStamp : Stamp
  replyStamp : Stamp
  service : RunRequest → RunAnswer

structure ConversationActionResult where
  intent : ConversationIntent
  userTurn : ConversationTurn
  message : ConversationTurn
  startedRun : Option String := none

/-- An action on a session that may raise. -/
def Acting (α : Type) : Type := Session → Result α × Session

namespace Acting

instance : Monad Acting where
  pure value := fun session => (.ok value, session)
  bind action next := fun session =>
    match action session with
    | (.ok value, session) => next value session
    | (.error error, session) => (.error error, session)

def throw (error : Error) : Acting α := fun session => (.error error, session)

/-- A read of the session. -/
def asks (read : Session → Result α) : Acting α := fun session => (read session, session)

variable {action : Acting α} {next : α → Acting β} {session session' : Session} {value : α}
  {error : Error}

theorem bind_of_ok (h : action session = (.ok value, session')) :
    (action >>= next) session = next value session' := by
  simp only [bind, h]

theorem bind_of_error (h : action session = (.error error, session')) :
    (action >>= next) session = (.error error, session') := by
  simp only [bind, h]

theorem asks_bind {read : Session → Result α} (h : read session = .ok value) :
    (asks read >>= next) session = next value session := by
  simp only [bind, asks, h]

theorem asks_bind_error {read : Session → Result α} (h : read session = .error error) :
    (asks read >>= next) session = (.error error, session) := by
  simp only [bind, asks, h]

/-- What follows without touching the session leaves what the action left. -/
theorem snd_bind (h : ∀ value session, (next value session).2 = session) :
    ((action >>= next) session).2 = (action session).2 := by
  cases hrun : action session with
  | mk result last =>
    cases result with
    | ok value => rw [bind_of_ok hrun, h]
    | error error => rw [bind_of_error hrun]

theorem snd_map (f : α → β) (action : Acting α) (session : Session) :
    ((f <$> action) session).2 = (action session).2 :=
  snd_bind fun _ _ => rfl

end Acting

open Acting

def Stamp.call (stamp : Stamp) (role content : String) (traceId : Option String) : AppendCall where
  role := role
  content := content
  traceId := traceId
  hex := stamp.hex
  now := stamp.now

/-- `store.append`. -/
def say (conversationId role content : String) (traceId : Option String) (stamp : Stamp) :
    Acting ConversationTurn := fun session =>
  match session.store.append conversationId (stamp.call role content traceId) with
  | .ok (turn, store) => (.ok turn, { session with store, turns := session.turns ++ [turn] })
  | .error error => (.error error, session)

def ask (message : Message) (request : RunRequest) : Acting RunOutcome := fun session =>
  let answer := message.service request
  (.ok answer.outcome, { session with traces := answer.traces })

/-- `_latest_trace`: the trace that the latest turn with an id names, if it can be read. -/
def latestTrace (traces : Dict String TraceFacts) (turns : List ConversationTurn) :
    Option (String × TraceFacts) := do
  let traceId ← turns.reverse.findSome? (·.traceId)
  let facts ← traces.get? traceId
  return (traceId, facts)

def maxHistory : Nat := 8000

/-- `prompt_history`. -/
def promptHistory (turns : List ConversationTurn) : String :=
  let value := Text.join "\n" (turns.map fun turn => "[" ++ turn.role ++ "] " ++ turn.content)
  String.ofList (value.toList.drop (value.length - maxHistory))

/-- The note that a patch could not be planned. -/
def patchFailed : String := "Planner 无法在局部修改范围内生成合法补丁。"

def planFailed (traceId : Option TraceId) (kind : Option FailureKind) : String :=
  "Planner 无法为本轮请求生成合法执行计划。" ++
    (match traceId with
      | some traceId => " Trace：" ++ traceId.value ++ "。"
      | none => "") ++
    (match kind with
      | some kind => " 失败类型：" ++ kind.value ++ "。"
      | none => "")

/-- `PlannerFailure` and `ConversationBusy` are runtime errors. -/
def plannerFailure (message : String) : Error := .runtimeError message

def inspectResult (id : String) (message : Message) (trace : Option (String × TraceFacts)) :
    Acting ConversationTurn :=
  match trace with
  | none => say id "assistant" "当前会话还没有可查看的执行结果。" none message.replyStamp
  | some (traceId, facts) => do
      let content ← asks fun _ => facts.summarize
      say id "assistant" content (some traceId) message.replyStamp

def continueTask (id : String) (message : Message) (trace : Option (String × TraceFacts)) :
    Acting ConversationTurn :=
  let content := match trace with
    | none => "当前会话还没有可继续的执行任务。"
    | some (traceId, facts) =>
        if facts.status.active then "当前任务仍在执行中，Trace：" ++ traceId ++ "。"
        else "最近一次任务已结束，状态：" ++ facts.status.value ++
          "。如需从断点继续，请发送“恢复任务”。"
  say id "assistant" content (trace.map (·.1)) message.replyStamp

def authorizeRequest (id : String) (message : Message) (trace : Option (String × TraceFacts)) :
    Acting ConversationTurn :=
  say id "assistant" "授权请求需要通过运行控制接口明确批准，当前消息未启动新任务。"
    (trace.map (·.1)) message.replyStamp

/-- The turn that announces a started run, with the trace of the run. -/
def announce (id : String) (message : Message) (content traceId : String) (started : TraceId) :
    Acting (ConversationTurn × String) := do
  let turn ← say id "system" content (some traceId) message.replyStamp
  return (turn, started.value)

def resumed (id : String) (message : Message) (traceId : String) :
    RunOutcome → Acting (ConversationTurn × String)
  | .started started _ => announce id message ("已从 Trace 恢复执行：" ++ traceId) traceId started
  | .plannerFailure text _ _ => throw (plannerFailure text)
  | .raised error _ _ => throw error

def resumeTask (id : String) (message : Message) (trace : Option (String × TraceFacts)) :
    Acting (ConversationTurn × String) :=
  match trace with
  | none => throw (plannerFailure "当前会话没有可恢复的 Trace")
  | some (traceId, _) => ask message (.resumeRun traceId) >>= resumed id message traceId

def patched (id : String) (message : Message) (traceId : String) :
    RunOutcome → Acting (ConversationTurn × String)
  | .started started planId =>
      announce id message ("已应用局部计划修改并恢复执行：" ++ planId) started.value started
  | .plannerFailure text _ _ => do
      let _ ← say id "system" patchFailed (some traceId) message.replyStamp
      throw (plannerFailure text)
  | .raised error _ _ => throw error

def modifyPlan (id : String) (message : Message) (trace : Option (String × TraceFacts)) :
    Acting (ConversationTurn × String) :=
  match trace with
  | none => throw (plannerFailure "当前会话没有可修改的计划")
  | some (traceId, _) =>
      ask message (.startPatchPlan traceId message.content) >>= patched id message traceId

/-- The goal of a new plan: the first message as it is, a later one with the history. -/
def planGoal (message : Message) (existing latest : List ConversationTurn) : String :=
  if existing = [] then message.content
  else "这是一个连续会话中的新用户请求。请结合历史上下文，只为本轮请求生成最小可执行计划。\n\n" ++
    "会话历史：\n" ++ promptHistory latest ++ "\n\n" ++
    "当前请求已经包含在会话历史最后一条 user 消息中。"

def planned (id : String) (message : Message) : RunOutcome → Acting (ConversationTurn × String)
  | .started started _ =>
      announce id message ("已创建执行 Trace: " ++ started.value) started.value started
  | .plannerFailure text traceId kind => do
      let _ ← say id "system" (planFailed traceId kind) (traceId.map (·.value)) message.replyStamp
      throw (plannerFailure text)
  | .raised _ typeName text => do
      let diagnostic := "本轮模型规划未完成：" ++ typeName ++ ": " ++ text
      let _ ← say id "assistant" diagnostic none message.replyStamp
      throw (plannerFailure diagnostic)

def newRequest (id : String) (message : Message) (existing : List ConversationTurn) :
    Acting (ConversationTurn × String) := do
  let latest ← asks fun session => session.store.turns id 20
  let goal := planGoal message existing latest
  ask message (.startDynamicPlan goal (id ++ "-" ++ message.planHex)) >>= planned id message

/-- What follows the user's turn. -/
def reply (id : String) (message : Message) (existing : List ConversationTurn)
    (trace : Option (String × TraceFacts)) (userTurn : ConversationTurn) :
    Acting ConversationActionResult :=
  let intent := classifyIntent message.content
  let active := trace.any fun (_, facts) => facts.status.active
  let answered := fun turn : ConversationTurn =>
    ({ intent, userTurn, message := turn } : ConversationActionResult)
  let started := fun (turn, traceId) =>
    ({ intent, userTurn, message := turn, startedRun := some traceId } : ConversationActionResult)
  match intent with
  | .inspectResult => answered <$> inspectResult id message trace
  | .continue => answered <$> continueTask id message trace
  | .authorize => answered <$> authorizeRequest id message trace
  | .resume => started <$> resumeTask id message trace
  | .modifyRequest =>
      if active then throw (.runtimeError "当前会话仍有运行中的任务，请先查询会话状态或恢复该 Trace")
      else started <$> modifyPlan id message trace
  | .newRequest =>
      if active then throw (.runtimeError "当前会话仍有运行中的任务，请先查询会话状态或恢复该 Trace")
      else started <$> newRequest id message existing

def sendMessage (id : String) (message : Message) : Acting ConversationActionResult := do
  let _ ← asks fun session => session.store.load id
  let existing ← asks fun session => session.store.turns id
  let userTurn ← say id "user" message.content none message.userStamp
  let trace ← asks fun session => .ok (latestTrace session.traces existing)
  reply id message existing trace userTurn

/-- The order in which a set of trace ids is gone through, and the stamps of the turns. -/
structure Projection where
  arrange : List String → List String
  perm : ∀ ids, (arrange ids).Perm ids
  stamp : String → Stamp

/-- `trace_ids - known_assistant_traces`. -/
def pendingTraces (turns : List ConversationTurn) : List String :=
  let known := (turns.filter (·.role = "assistant")).filterMap (·.traceId)
  let traceIds := (turns.filter (·.role = "system")).filterMap (·.traceId)
  (dedupe traceIds).filter (· ∉ known)

/-- What is said of an ended trace. -/
def TraceFacts.projected (facts : TraceFacts) : String :=
  match facts.summarize with
  | .ok content => content
  | .error _ => facts.fallback

/-- The body of the loop. -/
def projectTrace (id : String) (projection : Projection) (traceId : String) : Acting Unit := do
  let trace ← asks fun session => .ok (session.traces.get? traceId)
  match trace with
  | none => pure ()
  | some facts =>
      if facts.status.active then pure ()
      else do
        let _ ← say id "assistant" facts.projected (some traceId) (projection.stamp traceId)
        pure ()

def projectAll (id : String) (projection : Projection) : List String → Acting Unit
  | [] => pure ()
  | traceId :: rest => do
      projectTrace id projection traceId
      projectAll id projection rest

def syncTerminalTurns (id : String) (projection : Projection) : Acting (List ConversationTurn) := do
  let turns ← asks fun session => session.store.turns id
  projectAll id projection (projection.arrange (pendingTraces turns))
  asks fun session => session.store.turns id

end ProjectOS.Application
