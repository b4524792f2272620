import ProjectOS.Application.SendMessage
import ProjectOS.Base.Episodes

/-! The runs of a conversation's traces and the turns that tell how they ended. A
system turn with the id of a trace announces a run, but for the note of a patch that
could not be planned; an assistant turn with the id answers it. -/
namespace ProjectOS.Application
open Base Orchestration

def announces (traceId : String) (turn : ConversationTurn) : Bool :=
  turn.role = "system" && turn.traceId = some traceId && turn.content ≠ patchFailed

def notes (traceId : String) (turn : ConversationTurn) : Bool :=
  turn.role = "system" && turn.traceId = some traceId && turn.content = patchFailed

def answers (traceId : String) (turn : ConversationTurn) : Bool :=
  turn.role = "assistant" && turn.traceId = some traceId

def RunOutcome.texts : RunOutcome → List String
  | .started _ planId => [planId]
  | .plannerFailure _ _ _ => []
  | .raised _ typeName text => [typeName, text]

def Message.userTurn (message : Message) (id : String) (turns : List ConversationTurn) :
    ConversationTurn :=
  (message.userStamp.call "user" message.content none).turn id (min turns.length 100 + 1)

namespace Session
variable (session : Session)

/-- The trace that the next message is about. -/
def currentTrace : Option (String × TraceFacts) := latestTrace session.traces (latest 100 session.turns)

/-- The request that a message makes of the run service. -/
def request (id : String) (message : Message) : Option RunRequest :=
  match classifyIntent message.content, session.currentTrace with
  | .resume, some (traceId, _) => some (.resumeRun traceId)
  | .modifyRequest, some (traceId, facts) =>
      if facts.status.active then none else some (.startPatchPlan traceId message.content)
  | .newRequest, trace =>
      if trace.any fun (_, facts) => facts.status.active then none
      else some (.startDynamicPlan
        (planGoal message (latest 100 session.turns)
          (latest 20 (session.turns ++ [message.userTurn id session.turns])))
        (id ++ "-" ++ message.planHex))
  | _, _ => none

end Session

/-- The trace whose run an answered request announces. -/
def RunOutcome.announced : RunRequest → RunOutcome → Option String
  | .resumeRun traceId, .started _ _ => some traceId
  | .startPatchPlan _ _, .started run _ => some run.value
  | .startDynamicPlan _ _, .started run _ => some run.value
  | .startDynamicPlan _ _, .plannerFailure _ traceId _ => traceId.map (·.value)
  | _, _ => none

inductive ConversationStep where
  | message (message : Message)
  | sync (projection : Projection)
  /-- The workers change the traces. -/
  | work (traces : Dict String TraceFacts)

namespace Session

def step (id : String) (session : Session) : ConversationStep → Session
  | .message message => (sendMessage id message session).2
  | .sync projection => (syncTerminalTurns id projection session).2
  | .work traces => { session with traces }

def run (id : String) (session : Session) (steps : List ConversationStep) : Session :=
  steps.foldl (step id) session

def created (conversation : Conversation) (traces : Dict String TraceFacts) : Session where
  store := { conversation := some conversation }
  traces := traces

variable (session : Session) (traceId : String)

/-- The runs of the trace that were announced. -/
def announced : Nat := Episodes.opened (announces traceId) session.turns

/-- The turns that answer the run with that number. -/
def answered (run : Nat) : Nat :=
  Episodes.closedIn (announces traceId) (answers traceId) run session.turns

/-- The turns that answer the latest run. -/
def answeredLast : Nat := session.answered traceId (session.announced traceId)

def window : List ConversationTurn := latest 100 session.turns

/-- The window names the trace in a system turn and in no assistant turn. -/
def Pending : Prop :=
  (∃ turn ∈ session.window, turn.role = "system" ∧ turn.traceId = some traceId) ∧
    ∀ turn ∈ session.window, answers traceId turn = false

/-- The latest announced run of the trace has ended and is not answered. -/
def Owed : Prop :=
  0 < session.announced traceId ∧ session.answeredLast traceId = 0 ∧
    ∃ facts, session.traces.get? traceId = some facts ∧ facts.status.terminal = true

/-- No ended run is taken back before it is answered. -/
def Lasting (traces : Dict String TraceFacts) : Prop :=
  ∀ traceId, session.Owed traceId →
    ∃ facts, traces.get? traceId = some facts ∧ facts.status.terminal = true

/-- The texts of the message stay on one line; it does not speak as the assistant about
a run that is answered, it does not announce a run of a trace whose last one ended
without an answer, and the service takes no ended run back. -/
structure Permits (id : String) (message : Message) : Prop where
  content : Json.unbroken (Text.strip message.content) = true
  texts : ∀ request, session.request id message = some request →
    ∀ text ∈ (message.service request).outcome.texts, Json.unbroken text = true
  answer : classifyIntent message.content ∈ [.inspectResult, .continue, .authorize] →
    ∀ traceId facts, session.currentTrace = some (traceId, facts) →
      0 < session.announced traceId → session.answeredLast traceId = 0
  announcement : ∀ request, session.request id message = some request →
    ∀ traceId, (message.service request).outcome.announced request = some traceId →
      ¬ session.Owed traceId
  lasting : ∀ request, session.request id message = some request →
    session.Lasting (message.service request).traces

/-- The latest hundred turns show what a projection needs: the announcement of every
unanswered run that is over, no answer to an earlier run of the same trace, and the
answer wherever they show a note. What stands in for an unreadable summary can be said. -/
structure Shows : Prop where
  due : ∀ traceId facts, session.traces.get? traceId = some facts → facts.status.active = false →
    0 < session.announced traceId → session.answeredLast traceId = 0 → session.Pending traceId
  noted : ∀ traceId facts, session.traces.get? traceId = some facts → facts.status.active = false →
    (∃ turn ∈ session.window, notes traceId turn = true) → session.answeredLast traceId ≠ 0 →
      ∃ turn ∈ session.window, answers traceId turn = true
  readable : ∀ traceId facts, session.traces.get? traceId = some facts → facts.status.active = false →
    session.Pending traceId → facts.events = none →
      facts.fallback.length ≤ maxMessage ∧ Json.unbroken facts.error = true

/-- The condition under which a step keeps the projection exact. -/
def Sound (id : String) : ConversationStep → Prop
  | .message message => session.Permits id message
  | .sync _ => session.Shows
  | .work traces => session.Lasting traces

/-- Every step of a run meets its condition. -/
def Runs (id : String) (session : Session) : List ConversationStep → Prop
  | [] => True
  | step :: steps => session.Sound id step ∧ Runs id (session.step id step) steps

/-- The file holds the turns, each of which is read back as it was written. -/
structure Intact : Prop where
  holds : session.store.Holds session.turns
  lines : ∀ turn ∈ session.turns, turn.OneLine
  named : ∀ turn ∈ session.turns, turn.traceId ≠ some ""

/-- No run has more than one answer. -/
def AtMostOnce : Prop :=
  ∀ traceId, 0 < session.announced traceId → session.answeredLast traceId ≤ 1

end Session

/-- One more turn was appended; the traces are as they were. -/
structure Appends (session : Session) (turn : ConversationTurn) (session' : Session) : Prop where
  turns : session'.turns = session.turns ++ [turn]
  traces : session'.traces = session.traces
  intact : session'.Intact

variable {id : String} {session session' : Session}

theorem oneLine_traceId {turn : ConversationTurn} (h : turn.OneLine) :
    ∀ traceId ∈ turn.traceId, Json.unbroken traceId = true := by
  intro traceId htrace
  apply h
  simp only [ConversationTurn.asDict, Json.strings, Json.stringsOfFields, Json.strings_optStr,
    List.mem_append, List.mem_cons]
  rw [htrace]
  simp

theorem reread_eq_self {turn : ConversationTurn} (h : turn.traceId ≠ some "") :
    turn.reread = turn := by
  have hfilter : turn.traceId.filter (· ≠ "") = turn.traceId := Memory.filter_eq_self_iff.mpr h
  simp only [ConversationTurn.reread, hfilter]

theorem Session.Intact.read (hid : Memory.safeId id = true) (h : session.Intact) (limit : Int) :
    session.store.turns id limit = .ok (latest limit session.turns) := by
  have hsame : session.turns.map (·.reread) = session.turns := by
    rw [List.map_congr_left fun turn hturn => reread_eq_self (h.named turn hturn), List.map_id']
  have hread : session.store.turns id limit = .ok (latest limit (session.turns.map (·.reread))) :=
    (ConversationStore.turns_iff hid h.holds).mpr ⟨h.lines, rfl⟩
  rw [hread, hsame]

section
variable {content : String} {traceId : Option String} (role : String) (stamp : Stamp)

/-- A call of `append` in a session that is intact raises and changes nothing, or it
appends its turn. -/
theorem say_cases (hid : Memory.safeId id = true) (h : session.Intact)
    (hcontent : Json.unbroken (Text.strip content) = true)
    (htrace : ∀ t ∈ traceId, t ≠ "" ∧ Json.unbroken t = true) :
    (∃ error, (stamp.call role content traceId).check = .error error ∧
      say id role content traceId stamp session = (.error error, session)) ∨
    ∃ session', say id role content traceId stamp session =
        (.ok ((stamp.call role content traceId).turn id (min session.turns.length 100 + 1)), session') ∧
      Appends session ((stamp.call role content traceId).turn id (min session.turns.length 100 + 1))
        session' := by
  obtain ⟨conversation, hload⟩ := ConversationStore.load_ok hid h.holds
  have hread := h.read hid 100
  cases hcheck : (stamp.call role content traceId).check with
  | error error =>
    left
    refine ⟨error, rfl, ?_⟩
    unfold say ConversationStore.append
    rw [hcheck, error_bind]
  | ok u =>
    right
    have happend : ∃ turn store, session.store.append id (stamp.call role content traceId) =
        .ok (turn, store) := by
      unfold ConversationStore.append
      rw [hcheck, ok_bind, hload, ok_bind, hread, ok_bind]
      exact ⟨_, _, rfl⟩
    obtain ⟨turn, store, happend⟩ := happend
    obtain ⟨rfl, hholds⟩ := ConversationStore.append_eq_ok hid h.holds happend
    refine ⟨{ session with store, turns := session.turns ++ [_] }, ?_, rfl, rfl, hholds, ?_, ?_⟩
    · unfold say
      rw [happend]
    · rw [List.forall_mem_append, List.forall_mem_singleton]
      refine ⟨h.lines, (AppendCall.oneLine_turn hid hcheck _).mpr ?_⟩
      simp only [AppendCall.texts, Stamp.call, List.forall_mem_append, List.forall_mem_cons,
        List.not_mem_nil, false_implies, implies_true, and_true]
      refine ⟨⟨hcontent, stamp.hexUnbroken, stamp.nowUnbroken⟩, ?_⟩
      intro t ht
      exact (htrace t (Option.mem_toList.mp ht)).2
    · rw [List.forall_mem_append, List.forall_mem_singleton]
      refine ⟨h.named, ?_⟩
      intro hempty
      exact (htrace "" hempty).1 rfl

theorem check_sayable (hrole : role ∈ roles) (hcontent : Sayable content) :
    (stamp.call role content traceId).check = .ok () := by
  have hshort := hcontent.short
  simp only [AppendCall.check, Stamp.call, raiseWhen_bind_eq_ok, raiseWhen_eq_ok, hrole,
    hcontent.said, not_true, decide_false, Bool.false_or, true_and]
  exact decide_eq_false (by omega)

theorem say_sayable (hid : Memory.safeId id = true) (h : session.Intact) (hrole : role ∈ roles)
    (hcontent : Sayable content) (htrace : ∀ t ∈ traceId, t ≠ "" ∧ Json.unbroken t = true) :
    ∃ session', say id role content traceId stamp session =
        (.ok ((stamp.call role content traceId).turn id (min session.turns.length 100 + 1)), session') ∧
      Appends session ((stamp.call role content traceId).turn id (min session.turns.length 100 + 1))
        session' := by
  obtain ⟨error, hcheck, -⟩ | hsaid := say_cases role stamp hid h hcontent.unbroken htrace
  · rw [check_sayable role stamp hrole hcontent] at hcheck
    cases hcheck
  · exact hsaid

end

/-! What a step may mean to one trace: nothing, an answer to an unanswered run, or the
announcement of a run where the last one is not left without an answer. -/

def Quiet (traceId : String) (turns : List ConversationTurn) : Prop :=
  ∀ turn ∈ turns, announces traceId turn = false ∧ answers traceId turn = false

inductive Follows (traceId : String) (session session' : Session) : Prop where
  | quiet {added} (turns : session'.turns = session.turns ++ added) (h : Quiet traceId added)
  | answer {added} (turns : session'.turns = session.turns ++ added)
      (opened : ∀ turn ∈ added, announces traceId turn = false)
      (closed : added.countP (answers traceId) = 1)
      (unanswered : 0 < session.announced traceId → session.answeredLast traceId = 0)
  | announcement {added turn} (turns : session'.turns = session.turns ++ added ++ [turn])
      (quiet : Quiet traceId added) (announced : announces traceId turn = true)
      (notOwed : ¬ session.Owed traceId)

/-- The run is answered once, or it is the latest one and owed its answer. -/
def Session.Settles (session : Session) (traceId : String) (run : Nat) : Prop :=
  session.answered traceId run = 1 ∨ run = session.announced traceId ∧ session.Owed traceId

section
variable {traceId : String} {run : Nat} {added : List ConversationTurn}

theorem Quiet.opened (h : Quiet traceId added) : Episodes.opened (announces traceId) added = 0 :=
  Episodes.opened_eq_zero_iff.mpr fun turn hturn => (h turn hturn).1

theorem Quiet.closed (h : Quiet traceId added) : added.countP (answers traceId) = 0 := by
  rw [List.countP_eq_zero]
  intro turn hturn
  simp [(h turn hturn).2]

theorem announced_append (hturns : session'.turns = session.turns ++ added)
    (hopened : Episodes.opened (announces traceId) added = 0) :
    session'.announced traceId = session.announced traceId := by
  rw [Session.announced, hturns, Episodes.opened_append, hopened]
  rfl

theorem answeredLast_append (hturns : session'.turns = session.turns ++ added)
    (hopened : Episodes.opened (announces traceId) added = 0) :
    session'.answeredLast traceId =
      session.answeredLast traceId + added.countP (answers traceId) := by
  unfold Session.answeredLast Session.answered Session.announced
  rw [hturns]
  exact Episodes.closedLast_append_of_quiet hopened

theorem answered_append_of_lt (hturns : session'.turns = session.turns ++ added)
    (hrun : run < session.announced traceId) :
    session'.answered traceId run = session.answered traceId run := by
  rw [Session.answered, hturns]
  exact Episodes.closedIn_append_of_lt hrun added

theorem le_announced_of_answered (h : session.answered traceId run ≠ 0) :
    run ≤ session.announced traceId := by
  by_contra hlt
  exact h (Episodes.closedIn_of_opened_lt (by simpa [Session.announced] using hlt))

/-- An owed run stays owed until it is answered. -/
theorem owed_of_quiet (hturns : session'.turns = session.turns ++ added) (hquiet : Quiet traceId added)
    (hlasting : session.Lasting session'.traces) (h : session.Owed traceId) :
    session'.Owed traceId := by
  refine ⟨?_, ?_, hlasting traceId h⟩
  · rw [announced_append hturns hquiet.opened]
    exact h.1
  · rw [answeredLast_append hturns hquiet.opened, hquiet.closed, h.2.1]

theorem Follows.settles (h : Follows traceId session session')
    (hlasting : session.Lasting session'.traces) (hrun : 0 < run)
    (hsettles : session.Settles traceId run) : session'.Settles traceId run := by
  -- an earlier run keeps its answers, so what is left is the latest one
  have hearlier {new : List ConversationTurn} (hturns : session'.turns = session.turns ++ new)
      (hlt : run < session.announced traceId) : session'.Settles traceId run := by
    obtain hone | ⟨rfl, -⟩ := hsettles
    · exact .inl ((answered_append_of_lt hturns hlt).trans hone)
    · omega
  have hle : run ≤ session.announced traceId := by
    obtain hone | ⟨rfl, -⟩ := hsettles
    · exact le_announced_of_answered (by omega)
    · exact Nat.le_refl _
  cases h with
  | quiet hturns hquiet =>
    obtain hlt | rfl := Nat.lt_or_eq_of_le hle
    · exact hearlier hturns hlt
    obtain hone | ⟨-, howed⟩ := hsettles
    · left
      have hlast := answeredLast_append hturns hquiet.opened
      rw [Session.answeredLast, announced_append hturns hquiet.opened, hquiet.closed] at hlast
      exact hlast.trans hone
    · right
      exact ⟨(announced_append hturns hquiet.opened).symm, owed_of_quiet hturns hquiet hlasting howed⟩
  | answer hturns hopened hclosed hunanswered =>
    obtain hlt | rfl := Nat.lt_or_eq_of_le hle
    · exact hearlier hturns hlt
    left
    have hopened := Episodes.opened_eq_zero_iff.mpr hopened
    have hlast := answeredLast_append hturns hopened
    rw [hclosed, hunanswered hrun, Session.answeredLast, announced_append hturns hopened] at hlast
    exact hlast
  | announcement hturns hquiet hannounced hnot =>
    rw [List.append_assoc] at hturns
    obtain hlt | rfl := Nat.lt_or_eq_of_le hle
    · exact hearlier hturns hlt
    obtain hone | ⟨-, howed⟩ := hsettles
    · left
      have hlast := @Episodes.closedIn_append_opening _ (announces traceId) (answers traceId)
        session.turns _ _ hquiet.opened hannounced
      rw [hquiet.closed, ← hturns] at hlast
      exact hlast.trans hone
    · exact absurd howed hnot

theorem Follows.atMostOnce (h : Follows traceId session session')
    (hone : 0 < session.announced traceId → session.answeredLast traceId ≤ 1)
    (hannounced : 0 < session'.announced traceId) : session'.answeredLast traceId ≤ 1 := by
  cases h with
  | quiet hturns hquiet =>
    rw [announced_append hturns hquiet.opened] at hannounced
    rw [answeredLast_append hturns hquiet.opened, hquiet.closed]
    exact hone hannounced
  | answer hturns hopened hclosed hunanswered =>
    have hopened := Episodes.opened_eq_zero_iff.mpr hopened
    rw [announced_append hturns hopened] at hannounced
    rw [answeredLast_append hturns hopened, hclosed, hunanswered hannounced]
  | announcement hturns _ hopens _ =>
    unfold Session.answeredLast Session.answered Session.announced
    rw [hturns]
    exact (Nat.le_of_eq (Episodes.closedLast_append_opening hopens)).trans (Nat.zero_le 1)

end

/-! A projection appends one answer for each pending trace that is over. -/

def Session.over (session : Session) (traceId : String) : Bool :=
  (session.traces.get? traceId).any fun facts => !facts.status.active

theorem over_iff {traceId : String} : session.over traceId = true ↔
    ∃ facts, session.traces.get? traceId = some facts ∧ facts.status.active = false := by
  simp [Session.over, Option.any_eq_true]

/-- The turns answer the traces of the list, one after the other. -/
def AnswersAll (turns : List ConversationTurn) (traceIds : List String) : Prop :=
  turns.map (fun turn => (turn.role, turn.traceId)) = traceIds.map fun t => ("assistant", some t)

theorem AnswersAll.announces {turns : List ConversationTurn} {traceIds : List String}
    (h : AnswersAll turns traceIds) (traceId : String) :
    ∀ turn ∈ turns, announces traceId turn = false := by
  intro turn hturn
  have hmem : (turn.role, turn.traceId) ∈ turns.map fun turn => (turn.role, turn.traceId) :=
    List.mem_map_of_mem hturn
  rw [h] at hmem
  obtain ⟨t, -, ht⟩ := List.mem_map.mp hmem
  have hrole : turn.role = "assistant" := (congrArg Prod.fst ht).symm
  simp [ProjectOS.Application.announces, hrole]

theorem AnswersAll.countP {turns : List ConversationTurn} {traceIds : List String}
    (h : AnswersAll turns traceIds) (traceId : String) :
    turns.countP (answers traceId) = traceIds.count traceId := by
  have hturns : turns.countP (answers traceId) =
      (turns.map fun turn => (turn.role, turn.traceId)).countP (· = ("assistant", some traceId)) := by
    rw [List.countP_map]
    congr 1
    funext turn
    simp [answers]
  rw [hturns, h, List.countP_map, List.count]
  congr 1
  funext t
  simp [beq_eq_decide]

section
variable (projection : Projection) {traceIds : List String}

theorem sayable_projected {facts : TraceFacts}
    (h : facts.events = none → facts.fallback.length ≤ maxMessage ∧ Json.unbroken facts.error = true) :
    Sayable facts.projected := by
  unfold TraceFacts.projected
  cases hsummary : facts.summarize with
  | ok content => exact TraceFacts.sayable_summarize hsummary
  | error error =>
    have hevents : facts.events = none := by
      unfold TraceFacts.summarize at hsummary
      split at hsummary
      · assumption
      · cases hsummary
    exact TraceFacts.sayable_fallback (h hevents).1 (h hevents).2

theorem projectTrace_spec (hid : Memory.safeId id = true) (h : session.Intact) {traceId : String}
    (hname : traceId ≠ "" ∧ Json.unbroken traceId = true)
    (hsay : ∀ facts, session.traces.get? traceId = some facts → facts.status.active = false →
      Sayable facts.projected) :
    ∃ session' added, projectTrace id projection traceId session = (.ok (), session') ∧
      session'.turns = session.turns ++ added ∧ session'.traces = session.traces ∧
      session'.Intact ∧ AnswersAll added ([traceId].filter session.over) := by
  have hnothing (hover : session.over traceId = false)
      (hrun : projectTrace id projection traceId session = (.ok (), session)) :
      ∃ session' added, projectTrace id projection traceId session = (.ok (), session') ∧
        session'.turns = session.turns ++ added ∧ session'.traces = session.traces ∧
        session'.Intact ∧ AnswersAll added ([traceId].filter session.over) := by
    refine ⟨session, [], hrun, (List.append_nil _).symm, rfl, h, ?_⟩
    rw [List.filter_cons_of_neg (by simp [hover])]
    rfl
  have hrun {facts : TraceFacts} (hfacts : session.traces.get? traceId = some facts) :
      projectTrace id projection traceId session =
        (if facts.status.active then pure ()
          else do
            let _ ← say id "assistant" facts.projected (some traceId) (projection.stamp traceId)
            pure () : Acting Unit) session := by
    simp only [projectTrace, Acting.asks, bind, hfacts]
  cases hfacts : session.traces.get? traceId with
  | none =>
    apply hnothing
    · simp [Session.over, hfacts]
    · simp only [projectTrace, Acting.asks, bind, hfacts]
      rfl
  | some facts =>
    cases hactive : facts.status.active with
    | true =>
      apply hnothing
      · simp [Session.over, hfacts, hactive]
      · rw [hrun hfacts, if_pos hactive]
        rfl
    | false =>
      have hname : ∀ t ∈ some traceId, t ≠ "" ∧ Json.unbroken t = true := by
        intro t ht
        cases ht
        exact hname
      obtain ⟨session', hsaid, happends⟩ := say_sayable "assistant" (projection.stamp traceId) hid h
        (by decide) (hsay facts hfacts hactive) hname
      refine ⟨session', _, ?_, happends.turns, happends.traces, happends.intact, ?_⟩
      · rw [hrun hfacts, if_neg (by simp [hactive]), Acting.bind_of_ok hsaid]
        rfl
      · rw [List.filter_cons_of_pos (by simp [Session.over, hfacts, hactive])]
        rfl

theorem projectAll_spec (hid : Memory.safeId id = true) (h : session.Intact)
    (hname : ∀ t ∈ traceIds, t ≠ "" ∧ Json.unbroken t = true)
    (hsay : ∀ t ∈ traceIds, ∀ facts, session.traces.get? t = some facts →
      facts.status.active = false → Sayable facts.projected) :
    ∃ session' added, projectAll id projection traceIds session = (.ok (), session') ∧
      session'.turns = session.turns ++ added ∧ session'.traces = session.traces ∧
      session'.Intact ∧ AnswersAll added (traceIds.filter session.over) := by
  induction traceIds generalizing session with
  | nil => exact ⟨session, [], rfl, (List.append_nil _).symm, rfl, h, rfl⟩
  | cons traceId rest ih =>
    rw [List.forall_mem_cons] at hname hsay
    obtain ⟨middle, first, hfirst, hturns, htraces, hintact, hanswers⟩ :=
      projectTrace_spec projection hid h hname.1 hsay.1
    obtain ⟨last, added, hrest, hturns', htraces', hintact', hanswers'⟩ :=
      ih hintact hname.2 (by rw [htraces]; exact hsay.2)
    have hover : middle.over = session.over := by
      funext t
      rw [Session.over, Session.over, htraces]
    refine ⟨last, first ++ added, ?_, ?_, htraces'.trans htraces, hintact', ?_⟩
    · rw [projectAll, Acting.bind_of_ok hfirst, hrest]
    · rw [hturns', hturns, List.append_assoc]
    · rw [hover] at hanswers'
      unfold AnswersAll at hanswers hanswers' ⊢
      rw [List.map_append, hanswers, hanswers', ← List.map_append, ← List.filter_append]
      rfl

theorem mem_pendingTraces {traceId : String} :
    traceId ∈ pendingTraces session.window ↔ session.Pending traceId := by
  unfold pendingTraces Session.Pending
  simp only [List.mem_filter, mem_dedupe, List.mem_filterMap, decide_eq_true_eq, answers]
  constructor
  · rintro ⟨⟨turn, ⟨hturn, hrole⟩, htrace⟩, hunknown⟩
    refine ⟨⟨turn, hturn, hrole, htrace⟩, ?_⟩
    intro answer hanswer
    by_contra hanswers
    simp only [Bool.not_eq_false, Bool.and_eq_true, decide_eq_true_eq] at hanswers
    exact hunknown ⟨answer, ⟨hanswer, hanswers.1⟩, hanswers.2⟩
  · rintro ⟨⟨turn, hturn, hrole, htrace⟩, hunknown⟩
    refine ⟨⟨turn, ⟨hturn, hrole⟩, htrace⟩, ?_⟩
    rintro ⟨answer, ⟨hanswer, hrole⟩, htrace⟩
    simpa [hrole, htrace] using hunknown answer hanswer

theorem mem_turns_of_mem_window {turn : ConversationTurn} (h : turn ∈ session.window) :
    turn ∈ session.turns :=
  List.mem_of_mem_drop h

/-- A projection that sees what it needs succeeds and answers each pending trace that is
over, once. -/
theorem sync_spec (hid : Memory.safeId id = true) (h : session.Intact) (hshows : session.Shows) :
    ∃ added turns traceIds,
      syncTerminalTurns id projection session = (.ok turns, session.step id (.sync projection)) ∧
      (session.step id (.sync projection)).turns = session.turns ++ added ∧
      (session.step id (.sync projection)).traces = session.traces ∧
      (session.step id (.sync projection)).Intact ∧ AnswersAll added traceIds ∧ traceIds.Nodup ∧
      ∀ t, t ∈ traceIds ↔ session.Pending t ∧ session.over t = true := by
  have hperm := projection.perm (pendingTraces session.window)
  have hname : ∀ t ∈ projection.arrange (pendingTraces session.window),
      t ≠ "" ∧ Json.unbroken t = true := by
    intro t ht
    obtain ⟨⟨turn, hturn, -, htrace⟩, -⟩ := mem_pendingTraces.mp (hperm.subset ht)
    have hmem := mem_turns_of_mem_window hturn
    refine ⟨?_, oneLine_traceId (h.lines turn hmem) t htrace⟩
    rintro rfl
    exact h.named turn hmem htrace
  have hsay : ∀ t ∈ projection.arrange (pendingTraces session.window), ∀ facts,
      session.traces.get? t = some facts → facts.status.active = false →
        Sayable facts.projected := by
    intro t ht facts hfacts hactive
    exact sayable_projected
      (hshows.readable t facts hfacts hactive (mem_pendingTraces.mp (hperm.subset ht)))
  obtain ⟨session', added, hall, hturns, htraces, hintact, hanswers⟩ :=
    projectAll_spec projection hid h hname hsay
  have hread : session.store.turns id = .ok session.window := h.read hid 100
  have hread' : session'.store.turns id = .ok (latest 100 session'.turns) := hintact.read hid 100
  have hrun : syncTerminalTurns id projection session = (.ok (latest 100 session'.turns), session') := by
    rw [syncTerminalTurns, Acting.asks_bind hread, Acting.bind_of_ok hall, Acting.asks, hread']
  have hstep : session.step id (.sync projection) = session' := by
    rw [Session.step, hrun]
  rw [hstep]
  refine ⟨added, _, _, hrun, hturns, htraces, hintact, hanswers, ?_, ?_⟩
  · exact (hperm.nodup_iff.mpr ((nodup_dedupe _).filter _)).filter _
  · intro t
    rw [List.mem_filter, hperm.mem_iff, mem_pendingTraces]

/-- Where a system turn is seen and no answer, the latest run has none. -/
theorem answeredLast_of_pending {traceId : String} (hshows : session.Shows)
    (hpending : session.Pending traceId) (hover : session.over traceId = true) :
    session.answeredLast traceId = 0 := by
  obtain ⟨facts, hfacts, hactive⟩ := over_iff.mp hover
  obtain ⟨⟨turn, hturn, hrole, htrace⟩, hunknown⟩ := hpending
  by_contra hanswered
  have hsplit : session.turns = session.turns.take (session.turns.length - 100) ++ session.window :=
    (List.take_append_drop _ _).symm
  have hknown : ∃ turn ∈ session.window, answers traceId turn = true := by
    by_cases hnote : turn.content = patchFailed
    · apply hshows.noted traceId facts hfacts hactive _ hanswered
      exact ⟨turn, hturn, by simp [notes, hrole, htrace, hnote]⟩
    · have hannounces : announces traceId turn = true := by
        simp [announces, hrole, htrace, hnote]
      apply Episodes.exists_closes_of_opens ⟨turn, hturn, hannounces⟩
      rwa [← hsplit]
  obtain ⟨answer, hanswer, hanswers⟩ := hknown
  rw [hunknown answer hanswer] at hanswers
  cases hanswers

theorem follows_sync {session' : Session} {added : List ConversationTurn}
    (hshows : session.Shows) (hturns : session'.turns = session.turns ++ added)
    (hanswers : AnswersAll added traceIds) (hnodup : traceIds.Nodup)
    (hmem : ∀ t, t ∈ traceIds ↔ session.Pending t ∧ session.over t = true) (traceId : String) :
    Follows traceId session session' := by
  by_cases htrace : traceId ∈ traceIds
  · apply Follows.answer hturns (hanswers.announces traceId)
    · rw [hanswers.countP, List.count_eq_one_of_mem hnodup htrace]
    · intro _
      obtain ⟨hpending, hover⟩ := (hmem traceId).mp htrace
      exact answeredLast_of_pending hshows hpending hover
  · apply Follows.quiet hturns
    intro turn hturn
    refine ⟨hanswers.announces traceId turn hturn, ?_⟩
    have hnone : added.countP (answers traceId) = 0 := by
      rw [hanswers.countP, List.count_eq_zero]
      exact htrace
    rw [← Bool.not_eq_true]
    exact List.countP_eq_zero.mp hnone turn hturn

end

end ProjectOS.Application
