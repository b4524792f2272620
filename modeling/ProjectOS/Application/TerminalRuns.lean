import ProjectOS.Application.TerminalTurns

/-! Whole histories of a conversation: messages, projections and the work on its
traces, in any order. -/
namespace ProjectOS.Application
open Base Orchestration

variable {id : String} {session session' : Session}

/-! A message: the user's turn, and a turn that answers it in one of the permitted ways. -/

theorem announces_iff {traceId : String} {turn : ConversationTurn} :
    announces traceId turn = true ↔
      turn.role = "system" ∧ turn.traceId = some traceId ∧ turn.content ≠ patchFailed := by
  simp [announces, and_assoc]

theorem answers_iff {traceId : String} {turn : ConversationTurn} :
    answers traceId turn = true ↔ turn.role = "assistant" ∧ turn.traceId = some traceId := by
  simp [answers]

/-- What a permitted step leaves. -/
structure Fine (session session' : Session) : Prop where
  intact : session'.Intact
  lasting : session.Lasting session'.traces
  follows : ∀ traceId, Follows traceId session session'

/-- The user's turn was appended; the run service may have been asked. -/
structure Heard (session : Session) (user : ConversationTurn) (session' : Session) : Prop where
  turns : session'.turns = session.turns ++ [user]
  quiet : ∀ traceId, Quiet traceId [user]
  intact : session'.Intact
  lasting : session.Lasting session'.traces

theorem Session.Lasting.refl (session : Session) : session.Lasting session.traces :=
  fun _ howed => howed.2.2

theorem Session.Intact.fine (h : session.Intact) : Fine session session where
  intact := h
  lasting := .refl session
  follows _ := .quiet (List.append_nil _).symm nofun

theorem Heard.fine {user : ConversationTurn} (h : Heard session user session') :
    Fine session session' where
  intact := h.intact
  lasting := h.lasting
  follows traceId := .quiet h.turns (h.quiet traceId)

section
variable {user : ConversationTurn} {content : String} {stamp : Stamp}

/-- A reply that means nothing to any trace, or what it may mean to one. -/
theorem Heard.append_fine {last : Session} {reply : ConversationTurn} (h : Heard session user session')
    (happends : Appends session' reply last)
    (hmeaning : ∀ t, (announces t reply = true → ¬ session.Owed t) ∧
      (answers t reply = true → 0 < session.announced t → session.answeredLast t = 0)) :
    Fine session last := by
  have hturns := happends.turns
  rw [h.turns] at hturns
  refine ⟨happends.intact, ?_, ?_⟩
  · rw [happends.traces]
    exact h.lasting
  intro t
  have hquiet := h.quiet t
  cases hannounces : announces t reply with
  | true => exact .announcement hturns hquiet hannounces ((hmeaning t).1 hannounces)
  | false =>
    rw [List.append_assoc] at hturns
    cases hanswers : answers t reply with
    | true =>
      apply Follows.answer hturns _ _ ((hmeaning t).2 hanswers)
      · intro turn hturn
        obtain hturn | hturn := List.mem_append.mp hturn
        · exact (hquiet turn hturn).1
        · rw [List.mem_singleton.mp hturn]
          exact hannounces
      · rw [List.countP_append, hquiet.closed, List.countP_singleton, hanswers]
        rfl
    | false =>
      apply Follows.quiet hturns
      intro turn hturn
      obtain hturn | hturn := List.mem_append.mp hturn
      · exact hquiet turn hturn
      · rw [List.mem_singleton.mp hturn]
        exact ⟨hannounces, hanswers⟩

theorem Heard.say_fine (hid : Memory.safeId id = true) (h : Heard session user session')
    {role : String} {traceId : Option String} (hcontent : Json.unbroken (Text.strip content) = true)
    (hname : ∀ t ∈ traceId, t ≠ "" ∧ Json.unbroken t = true)
    (hmeaning : ∀ t, (role = "system" → traceId = some t → Text.strip content ≠ patchFailed →
        ¬ session.Owed t) ∧
      (role = "assistant" → traceId = some t → 0 < session.announced t →
        session.answeredLast t = 0)) :
    Fine session (say id role content traceId stamp session').2 := by
  obtain ⟨_, -, hsaid⟩ | ⟨last, hsaid, happends⟩ :=
    say_cases role stamp hid h.intact hcontent hname
  · rw [hsaid]
    exact h.fine
  rw [hsaid]
  apply h.append_fine happends
  intro t
  constructor
  · intro hannounces
    obtain ⟨hrole, htrace, hcontent⟩ := announces_iff.mp hannounces
    exact (hmeaning t).1 hrole htrace hcontent
  · intro hanswers
    obtain ⟨hrole, htrace⟩ := answers_iff.mp hanswers
    exact (hmeaning t).2 hrole htrace

theorem Heard.plain_fine (hid : Memory.safeId id = true) (h : Heard session user session')
    {role : String} (hcontent : Json.unbroken (Text.strip content) = true) :
    Fine session (say id role content none stamp session').2 :=
  h.say_fine hid hcontent nofun fun _ => ⟨nofun, nofun⟩

theorem Heard.assistant_fine (hid : Memory.safeId id = true) (h : Heard session user session')
    {traceId : String} (hcontent : Json.unbroken (Text.strip content) = true)
    (hname : traceId ≠ "" ∧ Json.unbroken traceId = true)
    (hunanswered : 0 < session.announced traceId → session.answeredLast traceId = 0) :
    Fine session (say id "assistant" content (some traceId) stamp session').2 := by
  apply h.say_fine hid hcontent
  · rintro t ⟨⟩
    exact hname
  · refine fun t => ⟨nofun, ?_⟩
    rintro - ⟨⟩
    exact hunanswered

theorem Heard.system_fine (hid : Memory.safeId id = true) (h : Heard session user session')
    {traceId : String} (hcontent : Json.unbroken (Text.strip content) = true)
    (hname : traceId ≠ "" ∧ Json.unbroken traceId = true)
    (hmeaning : Text.strip content ≠ patchFailed → ¬ session.Owed traceId) :
    Fine session (say id "system" content (some traceId) stamp session').2 := by
  apply h.say_fine hid hcontent
  · rintro t ⟨⟩
    exact hname
  · refine fun t => ⟨?_, nofun⟩
    rintro - ⟨⟩
    exact hmeaning

theorem unbroken_strip {text : String} (h : Json.unbroken text = true) :
    Json.unbroken (Text.strip text) = true :=
  unbroken_of_subset (fun _ hc => (toList_strip_sublist text).mem hc) h

theorem TraceId.named (traceId : TraceId) :
    traceId.value ≠ "" ∧ Json.unbroken traceId.value = true := by
  refine ⟨?_, Memory.unbroken_of_safeId traceId.safe⟩
  intro hempty
  have hsafe := traceId.safe
  rw [hempty] at hsafe
  revert hsafe
  decide

theorem Session.Intact.current_named (h : session.Intact) {traceId : String} {facts : TraceFacts}
    (hcurrent : session.currentTrace = some (traceId, facts)) :
    traceId ≠ "" ∧ Json.unbroken traceId = true := by
  obtain ⟨found, hfound, hrest⟩ := Option.bind_eq_some_iff.mp hcurrent
  obtain ⟨_, -, hpair⟩ := Option.bind_eq_some_iff.mp hrest
  cases hpair
  obtain ⟨turn, hturn, htrace⟩ := List.exists_of_findSome?_eq_some hfound
  have hmem := mem_turns_of_mem_window (List.mem_reverse.mp hturn)
  refine ⟨?_, oneLine_traceId (h.lines turn hmem) traceId htrace⟩
  rintro rfl
  exact h.named turn hmem htrace

variable {message : Message}

theorem inspectResult_fine (hid : Memory.safeId id = true) (hintact : session.Intact)
    (hpermits : session.Permits id message) (hintent : classifyIntent message.content = .inspectResult)
    (h : Heard session user session') :
    Fine session (inspectResult id message session.currentTrace session').2 := by
  cases hcurrent : session.currentTrace with
  | none =>
    have hrun : inspectResult id message none =
        say id "assistant" "当前会话还没有可查看的执行结果。" none message.replyStamp := rfl
    rw [hrun]
    exact h.plain_fine hid (unbroken_strip (unbroken_ofList (by decide)))
  | some trace =>
    obtain ⟨traceId, facts⟩ := trace
    have hrun : inspectResult id message (some (traceId, facts)) = (do
        let content ← Acting.asks fun _ => facts.summarize
        say id "assistant" content (some traceId) message.replyStamp) := rfl
    rw [hrun]
    cases hsummary : facts.summarize with
    | error error =>
      have hread : (fun _ => .error error : Session → Result String) session' = .error error := rfl
      rw [Acting.asks_bind_error hread]
      exact h.fine
    | ok content =>
      have hread : (fun _ => .ok content : Session → Result String) session' = .ok content := rfl
      rw [Acting.asks_bind hread]
      exact h.assistant_fine hid (TraceFacts.sayable_summarize hsummary).unbroken
        (hintact.current_named hcurrent)
        (hpermits.answer (by rw [hintent]; decide) traceId facts hcurrent)

theorem continueTask_fine (hid : Memory.safeId id = true) (hintact : session.Intact)
    (hpermits : session.Permits id message) (hintent : classifyIntent message.content = .continue)
    (h : Heard session user session') :
    Fine session (continueTask id message session.currentTrace session').2 := by
  unfold continueTask
  cases hcurrent : session.currentTrace with
  | none => exact h.plain_fine hid (unbroken_strip (unbroken_ofList (by decide)))
  | some trace =>
    obtain ⟨traceId, facts⟩ := trace
    have hname := hintact.current_named hcurrent
    apply h.assistant_fine hid _ hname
      (hpermits.answer (by rw [hintent]; decide) traceId facts hcurrent)
    apply unbroken_strip
    have hstatus := facts.status.unbroken_value
    have hwords : Json.unbroken "当前任务仍在执行中，Trace：" = true ∧ Json.unbroken "。" = true ∧
        Json.unbroken "最近一次任务已结束，状态：" = true ∧
        Json.unbroken "。如需从断点继续，请发送“恢复任务”。" = true := by
      and_intros <;> exact unbroken_ofList (by decide)
    dsimp only
    split <;> simp only [unbroken_append, hname.2, hstatus, hwords, and_self]

theorem authorizeRequest_fine (hid : Memory.safeId id = true) (hintact : session.Intact)
    (hpermits : session.Permits id message) (hintent : classifyIntent message.content = .authorize)
    (h : Heard session user session') :
    Fine session (authorizeRequest id message session.currentTrace session').2 := by
  unfold authorizeRequest
  have hcontent : Json.unbroken
      (Text.strip "授权请求需要通过运行控制接口明确批准，当前消息未启动新任务。") = true :=
    unbroken_strip (unbroken_ofList (by decide))
  cases hcurrent : session.currentTrace with
  | none => exact h.plain_fine hid hcontent
  | some trace =>
    exact h.assistant_fine hid hcontent (hintact.current_named hcurrent)
      (hpermits.answer (by rw [hintent]; decide) trace.1 trace.2 hcurrent)

/-- After the run service was asked, the session holds the traces it left. -/
theorem Heard.ask (h : Heard session user session') {request : RunRequest}
    (hlasting : session.Lasting (message.service request).traces) :
    ∃ last, ProjectOS.Application.ask message request session' =
      (.ok (message.service request).outcome, last) ∧ Heard session user last ∧
        last.traces = (message.service request).traces :=
  ⟨_, rfl, ⟨h.turns, h.quiet, ⟨h.intact.holds, h.intact.lines, h.intact.named⟩, hlasting⟩, rfl⟩

theorem request_resume (hintent : classifyIntent message.content = .resume) {traceId : String}
    {facts : TraceFacts} (hcurrent : session.currentTrace = some (traceId, facts)) :
    session.request id message = some (.resumeRun traceId) := by
  unfold Session.request
  rw [hintent, hcurrent]

theorem unbroken_planFailed (traceId : Option TraceId) (kind : Option FailureKind) :
    Json.unbroken (planFailed traceId kind) = true := by
  have hwords : Json.unbroken "Planner 无法为本轮请求生成合法执行计划。" = true ∧
      Json.unbroken " Trace：" = true ∧ Json.unbroken "。" = true ∧
      Json.unbroken " 失败类型：" = true ∧ Json.unbroken "" = true := by
    and_intros <;> exact unbroken_ofList (by decide)
  have hkind : ∀ kind : FailureKind, Json.unbroken kind.value = true := by
    intro kind
    cases kind <;> exact unbroken_ofList (by decide)
  unfold planFailed
  rw [unbroken_append, unbroken_append]
  refine ⟨⟨hwords.1, ?_⟩, ?_⟩
  · cases traceId with
    | none => exact hwords.2.2.2.2
    | some traceId => simp only [unbroken_append, traceId.named.2, hwords, and_self]
  · cases kind with
    | none => exact hwords.2.2.2.2
    | some kind => simp only [unbroken_append, hkind, hwords, and_self]

theorem announce_fine (hid : Memory.safeId id = true) (h : Heard session user session')
    {traceId : String} {started : TraceId} (hcontent : Json.unbroken content = true)
    (hname : traceId ≠ "" ∧ Json.unbroken traceId = true) (hnot : ¬ session.Owed traceId) :
    Fine session (announce id message content traceId started session').2 := by
  rw [announce, Acting.snd_bind fun _ _ => rfl]
  exact h.system_fine hid (unbroken_strip hcontent) hname fun _ => hnot

theorem resumeTask_fine (hid : Memory.safeId id = true) (hintact : session.Intact)
    (hpermits : session.Permits id message) (hintent : classifyIntent message.content = .resume)
    (h : Heard session user session') :
    Fine session (resumeTask id message session.currentTrace session').2 := by
  cases hcurrent : session.currentTrace with
  | none => exact h.fine
  | some trace =>
    obtain ⟨traceId, facts⟩ := trace
    have hrequest : session.request id message = some (.resumeRun traceId) :=
      request_resume hintent hcurrent
    have hname := hintact.current_named hcurrent
    have hrun : resumeTask id message (some (traceId, facts)) =
        ask message (.resumeRun traceId) >>= resumed id message traceId := rfl
    obtain ⟨last, hask, hheard, -⟩ := h.ask (hpermits.lasting _ hrequest)
    have hannounced := hpermits.announcement _ hrequest
    rw [hrun, Acting.bind_of_ok hask]
    cases houtcome : (message.service (.resumeRun traceId)).outcome with
    | started started planId =>
      rw [houtcome] at hannounced
      have hcontent : Json.unbroken ("已从 Trace 恢复执行：" ++ traceId) = true :=
        unbroken_append.mpr ⟨unbroken_ofList (by decide), hname.2⟩
      rw [resumed]
      exact announce_fine hid hheard hcontent hname (hannounced traceId rfl)
    | plannerFailure text traceId kind =>
      rw [resumed]
      exact hheard.fine
    | raised error typeName text =>
      rw [resumed]
      exact hheard.fine

theorem request_modify (hintent : classifyIntent message.content = .modifyRequest)
    {traceId : String} {facts : TraceFacts} (hactive : facts.status.active = false)
    (hcurrent : session.currentTrace = some (traceId, facts)) :
    session.request id message = some (.startPatchPlan traceId message.content) := by
  unfold Session.request
  rw [hintent, hcurrent]
  dsimp only
  rw [hactive, if_neg Bool.false_ne_true]

theorem modifyPlan_fine (hid : Memory.safeId id = true) (hintact : session.Intact)
    (hpermits : session.Permits id message) (hintent : classifyIntent message.content = .modifyRequest)
    (hactive : (session.currentTrace.any fun (_, facts) => facts.status.active) = false)
    (h : Heard session user session') :
    Fine session (modifyPlan id message session.currentTrace session').2 := by
  cases hcurrent : session.currentTrace with
  | none => exact h.fine
  | some trace =>
    obtain ⟨traceId, facts⟩ := trace
    rw [hcurrent] at hactive
    have hrequest : session.request id message = some (.startPatchPlan traceId message.content) :=
      request_modify hintent hactive hcurrent
    have hname := hintact.current_named hcurrent
    have hrun : modifyPlan id message (some (traceId, facts)) =
        ask message (.startPatchPlan traceId message.content) >>= patched id message traceId := rfl
    obtain ⟨last, hask, hheard, -⟩ := h.ask (hpermits.lasting _ hrequest)
    have hannounced := hpermits.announcement _ hrequest
    have htexts := hpermits.texts _ hrequest
    rw [hrun, Acting.bind_of_ok hask]
    cases houtcome : (message.service (.startPatchPlan traceId message.content)).outcome with
    | started started planId =>
      rw [houtcome] at hannounced htexts
      have hcontent : Json.unbroken ("已应用局部计划修改并恢复执行：" ++ planId) = true :=
        unbroken_append.mpr ⟨unbroken_ofList (by decide), htexts planId List.mem_cons_self⟩
      rw [patched]
      exact announce_fine hid hheard hcontent started.named (hannounced started.value rfl)
    | plannerFailure text _ kind =>
      have hnote : Text.strip patchFailed = patchFailed := strip_ofList (by decide)
      have hcontent : Json.unbroken (Text.strip patchFailed) = true :=
        unbroken_strip (unbroken_ofList (by decide))
      rw [patched, Acting.snd_bind fun _ _ => rfl]
      exact hheard.system_fine hid hcontent hname fun hne => absurd hnote hne
    | raised error typeName text =>
      rw [patched]
      exact hheard.fine

theorem request_new (hintent : classifyIntent message.content = .newRequest)
    (hactive : (session.currentTrace.any fun (_, facts) => facts.status.active) = false) :
    session.request id message = some (.startDynamicPlan
      (planGoal message (latest 100 session.turns)
        (latest 20 (session.turns ++ [message.userTurn id session.turns])))
      (id ++ "-" ++ message.planHex)) := by
  unfold Session.request
  rw [hintent]
  dsimp only
  rw [hactive, if_neg Bool.false_ne_true]

theorem newRequest_fine (hid : Memory.safeId id = true)
    (hpermits : session.Permits id message) (hintent : classifyIntent message.content = .newRequest)
    (hactive : (session.currentTrace.any fun (_, facts) => facts.status.active) = false)
    (h : Heard session (message.userTurn id session.turns) session') :
    Fine session (newRequest id message session.window session').2 := by
  have hrequest : session.request id message = some (.startDynamicPlan _ _) :=
    request_new hintent hactive
  have hread : session'.store.turns id 20 =
      .ok (latest 20 (session.turns ++ [message.userTurn id session.turns])) := by
    rw [← h.turns]
    exact h.intact.read hid 20
  obtain ⟨last, hask, hheard, -⟩ := h.ask (hpermits.lasting _ hrequest)
  have hannounced := hpermits.announcement _ hrequest
  have htexts := hpermits.texts _ hrequest
  rw [newRequest, Acting.asks_bind hread, Session.window, Acting.bind_of_ok hask]
  cases houtcome : (message.service (.startDynamicPlan _ _)).outcome with
  | started started planId =>
    rw [houtcome] at hannounced
    have hcontent : Json.unbroken ("已创建执行 Trace: " ++ started.value) = true :=
      unbroken_append.mpr ⟨unbroken_ofList (by decide), started.named.2⟩
    rw [planned]
    exact announce_fine hid hheard hcontent started.named (hannounced started.value rfl)
  | plannerFailure text traceId kind =>
    rw [houtcome] at hannounced
    have hcontent := unbroken_strip (unbroken_planFailed traceId kind)
    rw [planned, Acting.snd_bind fun _ _ => rfl]
    cases traceId with
    | none => exact hheard.plain_fine hid hcontent
    | some started =>
      exact hheard.system_fine hid hcontent started.named fun _ => hannounced started.value rfl
  | raised error typeName text =>
    rw [houtcome] at htexts
    have hcontent : Json.unbroken ("本轮模型规划未完成：" ++ typeName ++ ": " ++ text) = true := by
      simp only [unbroken_append, htexts typeName List.mem_cons_self,
        htexts text (List.mem_cons_of_mem _ List.mem_cons_self), and_true]
      and_intros <;> exact unbroken_ofList (by decide)
    rw [planned, Acting.snd_bind fun _ _ => rfl]
    exact hheard.plain_fine hid (unbroken_strip hcontent)

end

theorem reply_fine {message : Message} {user : ConversationTurn} (hid : Memory.safeId id = true)
    (h : session.Intact) (hpermits : session.Permits id message)
    (hheard : Heard session (message.userTurn id session.turns) session') :
    Fine session (reply id message session.window session.currentTrace user session').2 := by
  cases hintent : classifyIntent message.content with
  | inspectResult =>
    unfold reply
    rw [hintent]
    dsimp only
    rw [Acting.snd_map]
    exact inspectResult_fine hid h hpermits hintent hheard
  | «continue» =>
    unfold reply
    rw [hintent]
    dsimp only
    rw [Acting.snd_map]
    exact continueTask_fine hid h hpermits hintent hheard
  | authorize =>
    -- the state it leaves would be computed here: the answer is a long text
    obtain ⟨answered, hrun⟩ : ∃ answered, reply id message session.window session.currentTrace user =
        answered <$> authorizeRequest id message session.currentTrace := by
      unfold reply
      rw [hintent]
      exact ⟨_, rfl⟩
    rw [hrun, Acting.snd_map]
    exact authorizeRequest_fine hid h hpermits hintent hheard
  | resume =>
    unfold reply
    rw [hintent]
    dsimp only
    rw [Acting.snd_map]
    exact resumeTask_fine hid h hpermits hintent hheard
  | modifyRequest =>
    unfold reply
    rw [hintent]
    dsimp only
    split
    · exact hheard.fine
    · next hactive =>
      rw [Bool.not_eq_true] at hactive
      rw [Acting.snd_map]
      exact modifyPlan_fine hid h hpermits hintent hactive hheard
  | newRequest =>
    unfold reply
    rw [hintent]
    dsimp only
    split
    · exact hheard.fine
    · next hactive =>
      rw [Bool.not_eq_true] at hactive
      rw [Acting.snd_map]
      exact newRequest_fine hid hpermits hintent hactive hheard

/-- A message whose text stays on one line is refused, or it is heard and replied to. -/
theorem sendMessage_cases {message : Message} (hid : Memory.safeId id = true) (h : session.Intact)
    (hcontent : Json.unbroken (Text.strip message.content) = true) :
    (∃ error, (message.userStamp.call "user" message.content none).check = .error error ∧
        sendMessage id message session = (.error error, session)) ∨
      ∃ heard, Heard session (message.userTurn id session.turns) heard ∧
        heard.traces = session.traces ∧
        sendMessage id message session = reply id message session.window session.currentTrace
          (message.userTurn id session.turns) heard := by
  obtain ⟨conversation, hload⟩ := ConversationStore.load_ok hid h.holds
  have hread : session.store.turns id = .ok session.window := h.read hid 100
  have hname : ∀ t ∈ (none : Option String), t ≠ "" ∧ Json.unbroken t = true := nofun
  rw [sendMessage, Acting.asks_bind hload, Acting.asks_bind hread]
  obtain ⟨error, hcheck, hsaid⟩ | ⟨heard, hsaid, happends⟩ :=
    say_cases "user" message.userStamp hid h hcontent hname
  · left
    exact ⟨error, hcheck, Acting.bind_of_error hsaid⟩
  right
  have hcurrent : (fun s : Session => (.ok (latestTrace s.traces session.window) :
      Result (Option (String × TraceFacts)))) heard = .ok session.currentTrace := by
    dsimp only
    rw [happends.traces]
    rfl
  refine ⟨heard, ⟨happends.turns, ?_, happends.intact, ?_⟩, happends.traces, ?_⟩
  · intro traceId turn hturn
    rw [List.mem_singleton.mp hturn]
    exact ⟨rfl, rfl⟩
  · rw [happends.traces]
    exact .refl session
  · rw [Acting.bind_of_ok hsaid, Acting.asks_bind hcurrent]
    rfl

theorem sendMessage_fine {message : Message} (hid : Memory.safeId id = true) (h : session.Intact)
    (hpermits : session.Permits id message) : Fine session (sendMessage id message session).2 := by
  obtain ⟨error, -, hrefused⟩ | ⟨heard, hheard, -, hsent⟩ :=
    sendMessage_cases hid h hpermits.content
  · rw [hrefused]
    exact h.fine
  · rw [hsent]
    exact reply_fine hid h hpermits hheard

/-! Every step whose condition holds, and so every run of such steps. -/

theorem step_fine {step : ConversationStep} (hid : Memory.safeId id = true) (h : session.Intact)
    (hsound : session.Sound id step) : Fine session (session.step id step) := by
  cases step with
  | message message => exact sendMessage_fine hid h hsound
  | sync projection =>
    obtain ⟨added, turns, traceIds, -, hturns, htraces, hintact, hanswers, hnodup, hmem⟩ :=
      sync_spec projection hid h hsound
    refine ⟨hintact, ?_, follows_sync hsound hturns hanswers hnodup hmem⟩
    rw [htraces]
    exact .refl session
  | work traces =>
    refine ⟨⟨h.holds, h.lines, h.named⟩, hsound, ?_⟩
    intro traceId
    exact .quiet (List.append_nil _).symm nofun

theorem run_append (steps rest : List ConversationStep) :
    session.run id (steps ++ rest) = (session.run id steps).run id rest :=
  List.foldl_append

theorem runs_append {steps rest : List ConversationStep} :
    session.Runs id (steps ++ rest) ↔
      session.Runs id steps ∧ (session.run id steps).Runs id rest := by
  induction steps generalizing session with
  | nil => simp [Session.Runs, Session.run]
  | cons step steps ih =>
    rw [List.cons_append, Session.Runs, Session.Runs, ih, and_assoc]
    rfl

/-- What every session of such a run satisfies. -/
structure Session.Exact (session : Session) : Prop where
  intact : session.Intact
  atMostOnce : session.AtMostOnce

theorem Fine.exact (h : Fine session session') (hone : session.AtMostOnce) : session'.Exact where
  intact := h.intact
  atMostOnce traceId := (h.follows traceId).atMostOnce (hone traceId)

theorem exact_run {steps : List ConversationStep} (hid : Memory.safeId id = true)
    (h : session.Exact) (hruns : session.Runs id steps) :
    (session.run id steps).Exact ∧ ∀ traceId run, 0 < run → session.Settles traceId run →
      (session.run id steps).Settles traceId run := by
  induction steps generalizing session with
  | nil => exact ⟨h, fun _ _ _ hsettles => hsettles⟩
  | cons step steps ih =>
    have hfine := step_fine hid h.intact hruns.1
    obtain ⟨hexact, hkeeps⟩ := ih (hfine.exact h.atMostOnce) hruns.2
    refine ⟨hexact, ?_⟩
    intro traceId run hrun hsettles
    exact hkeeps traceId run hrun ((hfine.follows traceId).settles hfine.lasting hrun hsettles)

theorem exact_created (conversation : Conversation) (traces : Dict String TraceFacts) :
    (Session.created conversation traces).Exact where
  intact := ⟨ConversationStore.holds_created, List.forall_mem_nil _, List.forall_mem_nil _⟩
  atMostOnce _ h := absurd h (Nat.lt_irrefl 0)

/-- After a projection no ended run is owed an answer. -/
theorem not_owed_sync {projection : Projection} (hid : Memory.safeId id = true) (h : session.Intact)
    (hshows : session.Shows) (traceId : String) :
    ¬ (session.step id (.sync projection)).Owed traceId := by
  obtain ⟨added, turns, traceIds, -, hturns, htraces, -, hanswers, -, hmem⟩ :=
    sync_spec projection hid h hshows
  intro ⟨hannounced, hnone, facts, hfacts, hterminal⟩
  have hopened := Episodes.opened_eq_zero_iff.mpr (hanswers.announces traceId)
  rw [announced_append hturns hopened] at hannounced
  rw [answeredLast_append hturns hopened, hanswers.countP, Nat.add_eq_zero_iff] at hnone
  rw [htraces] at hfacts
  have hactive : facts.status.active = false := by
    revert hterminal
    cases facts.status <;> decide
  have hpending := hshows.due traceId facts hfacts hactive hannounced hnone.1
  have hin : traceId ∈ traceIds := (hmem traceId).mpr ⟨hpending, over_iff.mpr ⟨facts, hfacts, hactive⟩⟩
  exact List.count_eq_zero.mp hnone.2 hin

/-- The runs of the trace that have ended are each answered once. -/
theorem Session.Settles.answered {traceId : String} {run : Nat} (h : session.Settles traceId run)
    (hnot : ¬ session.Owed traceId) : session.answered traceId run = 1 :=
  h.resolve_right fun howed => hnot howed.2

/-- An ended latest run is answered once or owed its answer. -/
theorem Session.Exact.settles (h : session.Exact) {traceId : String}
    (hannounced : 0 < session.announced traceId) {facts : TraceFacts}
    (hfacts : session.traces.get? traceId = some facts) (hterminal : facts.status.terminal = true) :
    session.Settles traceId (session.announced traceId) := by
  have hone := h.atMostOnce traceId hannounced
  obtain hnone | hanswered := Nat.le_one_iff_eq_zero_or_eq_one.mp hone
  · exact .inr ⟨rfl, hannounced, hnone, facts, hfacts, hterminal⟩
  · exact .inl hanswered

theorem projectAll_idle (projection : Projection) {traceIds : List String}
    (h : ∀ t ∈ traceIds, session.over t = false) :
    projectAll id projection traceIds session = (.ok (), session) := by
  induction traceIds with
  | nil => rfl
  | cons traceId rest ih =>
    rw [List.forall_mem_cons] at h
    have hfirst : projectTrace id projection traceId session = (.ok (), session) := by
      have hread : (fun s : Session => (.ok (s.traces.get? traceId) : Result (Option TraceFacts)))
          session = .ok (session.traces.get? traceId) := rfl
      rw [projectTrace, Acting.asks_bind hread]
      cases hfacts : session.traces.get? traceId with
      | none => rfl
      | some facts =>
        have hactive : facts.status.active = true := by
          simpa [Session.over, hfacts] using h.1
        dsimp only
        rw [if_pos hactive]
        rfl
    rw [projectAll, Acting.bind_of_ok hfirst, ih h.2]

/-- The traces that the new window shows pending were pending before. -/
theorem pending_of_pending {session' : Session} {added : List ConversationTurn}
    {traceIds : List String} {traceId : String} (hshows : session.Shows)
    (hturns : session'.turns = session.turns ++ added) (hanswers : AnswersAll added traceIds)
    (hover : session.over traceId = true) (hnone : session.answeredLast traceId = 0)
    (hpending : session'.Pending traceId) : session.Pending traceId := by
  obtain ⟨turn, hturn, hrole, htrace⟩ := hpending.1
  have hwindow : turn ∈ session.window := by
    unfold Session.window latest at hturn
    rw [hturns, List.drop_append, List.mem_append] at hturn
    obtain hold | hnew := hturn
    · exact (List.drop_subset_drop_left _ (by rw [List.length_append]; omega)) hold
    · have hmem : (turn.role, turn.traceId) ∈ added.map fun turn => (turn.role, turn.traceId) :=
        List.mem_map_of_mem (List.mem_of_mem_drop hnew)
      rw [hanswers] at hmem
      obtain ⟨_, -, heq⟩ := List.mem_map.mp hmem
      rw [hrole] at heq
      have hroles : "assistant" = "system" := congrArg Prod.fst heq
      exact absurd hroles (by decide)
  obtain ⟨facts, hfacts, hactive⟩ := over_iff.mp hover
  by_cases hannounced : 0 < session.announced traceId
  · exact hshows.due traceId facts hfacts hactive hannounced hnone
  · -- nothing was announced, so nothing was answered at all
    have hzero : Episodes.opened (announces traceId) session.turns = 0 := by
      simpa [Session.announced] using hannounced
    have hcount : session.turns.countP (answers traceId) = 0 := by
      have hlast : session.answeredLast traceId = session.answered traceId 0 := by
        rw [Session.answeredLast, Session.announced, hzero]
      rw [← Episodes.closedIn_zero_of_opened hzero, ← Session.answered, ← hlast, hnone]
    refine ⟨⟨turn, hwindow, hrole, htrace⟩, ?_⟩
    intro answer hanswer
    rw [← Bool.not_eq_true]
    exact List.countP_eq_zero.mp hcount answer (mem_turns_of_mem_window hanswer)

/-- A projection that finds no pending trace that is over says nothing. -/
theorem sync_idle (projection : Projection) (hid : Memory.safeId id = true) (h : session.Intact)
    (hidle : ∀ t, session.Pending t → session.over t = false) :
    session.step id (.sync projection) = session := by
  have hread : session.store.turns id = .ok session.window := h.read hid 100
  have hnone : ∀ t ∈ projection.arrange (pendingTraces session.window), session.over t = false :=
    fun t ht => hidle t (mem_pendingTraces.mp ((projection.perm _).subset ht))
  have hsync : syncTerminalTurns id projection session = (.ok session.window, session) := by
    rw [syncTerminalTurns, Acting.asks_bind hread, Acting.bind_of_ok (projectAll_idle projection hnone),
      Acting.asks, hread]
  rw [Session.step, hsync]

/-- A second projection finds nothing to say. -/
theorem sync_again {projection : Projection} (again : Projection) (hid : Memory.safeId id = true)
    (h : session.Intact) (hshows : session.Shows)
    (hlater : (session.step id (.sync projection)).Shows) :
    (session.step id (.sync projection)).step id (.sync again) =
      session.step id (.sync projection) := by
  obtain ⟨added, turns, traceIds, -, hturns, htraces, hintact, hanswers, -, hmem⟩ :=
    sync_spec projection hid h hshows
  apply sync_idle again hid hintact
  intro t hpending
  rw [← Bool.not_eq_true]
  intro hover
  have hnone := answeredLast_of_pending hlater hpending hover
  have hopened := Episodes.opened_eq_zero_iff.mpr (hanswers.announces t)
  rw [answeredLast_append hturns hopened, hanswers.countP, Nat.add_eq_zero_iff] at hnone
  have hbefore : session.over t = true := by
    rw [Session.over, ← htraces]
    exact hover
  have hfirst := pending_of_pending hshows hturns hanswers hbefore hnone.1 hpending
  exact List.count_eq_zero.mp hnone.2 ((hmem t).mpr ⟨hfirst, hbefore⟩)

/-- In a history whose steps meet their conditions every projection succeeds. After it
each announced run that had ended, at whatever time, is answered once, and another
projection that sees what it needs changes nothing. -/
theorem terminalTurns_projected {conversation : Conversation} {traces : Dict String TraceFacts}
    {before after : List ConversationStep} {projection : Projection}
    (hid : Memory.safeId id = true)
    (hruns : (Session.created conversation traces).Runs id
      (before ++ (after ++ [.sync projection]))) :
    let earlier := (Session.created conversation traces).run id before
    let ready := earlier.run id after
    let synced := ready.step id (.sync projection)
    (∃ turns, syncTerminalTurns id projection ready = (.ok turns, synced)) ∧
      (∀ traceId facts, 0 < earlier.announced traceId → earlier.traces.get? traceId = some facts →
        facts.status.terminal = true → synced.answered traceId (earlier.announced traceId) = 1) ∧
      ∀ again, synced.Shows → synced.step id (.sync again) = synced := by
  intro earlier ready synced
  obtain ⟨hbefore, hafter⟩ := runs_append.mp hruns
  obtain ⟨hafter, hlast⟩ := runs_append.mp hafter
  have hshows : ready.Shows := hlast.1
  obtain ⟨hearlier, -⟩ := exact_run hid (exact_created conversation traces) hbefore
  obtain ⟨hready, hkeeps⟩ := exact_run hid hearlier hafter
  obtain ⟨-, hkept⟩ := exact_run hid hready hlast
  refine ⟨?_, ?_, ?_⟩
  · obtain ⟨_, turns, _, hrun, -⟩ := sync_spec projection hid hready.intact hshows
    exact ⟨turns, hrun⟩
  · intro traceId facts hannounced hfacts hterminal
    have hsettles := hkeeps traceId _ hannounced (hearlier.settles hannounced hfacts hterminal)
    exact (hkept traceId _ hannounced hsettles).answered
      (not_owed_sync hid hready.intact hshows traceId)
  · intro again hlater
    exact sync_again again hid hready.intact hshows hlater

/-! A run that starts, fails, is resumed and ends again. -/

theorem announces_call {content traceId : String} (h : Text.strip content ≠ patchFailed)
    (stamp : Stamp) (id : String) (sequence : Nat) :
    announces traceId ((stamp.call "system" content (some traceId)).turn id sequence) = true :=
  announces_iff.mpr ⟨rfl, rfl, h⟩

/-- A message started a run: its own turn and the announcement were appended. -/
structure Announced (session : Session) (traceId : String) (traces : Dict String TraceFacts)
    (last : Session) : Prop where
  intact : last.Intact
  traces : last.traces = traces
  turns : ∃ user announcement, last.turns = session.turns ++ [user, announcement] ∧
    user.role = "user" ∧ user.traceId = none ∧ announces traceId announcement = true

section
variable {message : Message} {content traceId planId : String} {started : TraceId}
  {traces : Dict String TraceFacts}

theorem Heard.announced (hid : Memory.safeId id = true)
    (h : Heard session (message.userTurn id session.turns) session') (hcontent : Sayable content)
    (hnote : Text.strip content ≠ patchFailed)
    (hname : traceId ≠ "" ∧ Json.unbroken traceId = true) :
    Announced session traceId session'.traces
      (announce id message content traceId started session').2 := by
  have hname : ∀ t ∈ some traceId, t ≠ "" ∧ Json.unbroken t = true := by
    rintro t ⟨⟩
    exact hname
  obtain ⟨last, hsaid, happends⟩ :=
    say_sayable "system" message.replyStamp hid h.intact (by decide) hcontent hname
  have hturns := happends.turns
  rw [h.turns, List.append_assoc] at hturns
  rw [announce, Acting.snd_bind fun _ _ => rfl, hsaid]
  exact ⟨happends.intact, happends.traces, _, _, hturns, rfl, rfl,
    announces_call hnote message.replyStamp id _⟩

/-- A message that can be said is heard. -/
theorem sendMessage_heard (hid : Memory.safeId id = true) (h : session.Intact)
    (hcontent : Sayable message.content) :
    ∃ heard, Heard session (message.userTurn id session.turns) heard ∧
      sendMessage id message session = reply id message session.window session.currentTrace
        (message.userTurn id session.turns) heard := by
  obtain ⟨error, hcheck, -⟩ | ⟨heard, hheard, -, hsent⟩ := sendMessage_cases hid h hcontent.unbroken
  · rw [check_sayable "user" message.userStamp (by decide) hcontent] at hcheck
    cases hcheck
  · exact ⟨heard, hheard, hsent⟩

theorem reply_new {user : ConversationTurn} {existing : List ConversationTurn}
    (hintent : classifyIntent message.content = .newRequest) :
    (reply id message existing none user session).2 = (newRequest id message existing session).2 := by
  unfold reply
  rw [hintent]
  exact Acting.snd_map _ _ _

theorem reply_resume {user : ConversationTurn} {existing : List ConversationTurn}
    {trace : Option (String × TraceFacts)} (hintent : classifyIntent message.content = .resume) :
    (reply id message existing trace user session).2 = (resumeTask id message trace session).2 := by
  unfold reply
  rw [hintent]
  exact Acting.snd_map _ _ _

theorem sendMessage_starts (hid : Memory.safeId id = true) (h : session.Intact)
    (hintent : classifyIntent message.content = .newRequest) (hcontent : Sayable message.content)
    (hcurrent : session.currentTrace = none) (hlasting : session.Lasting traces)
    (hservice : ∀ request, message.service request = ⟨.started started planId, traces⟩)
    (hreply : Sayable ("已创建执行 Trace: " ++ started.value))
    (hnote : Text.strip ("已创建执行 Trace: " ++ started.value) ≠ patchFailed) :
    Announced session started.value traces (sendMessage id message session).2 := by
  obtain ⟨heard, hheard, hsent⟩ := sendMessage_heard hid h hcontent
  have hread : heard.store.turns id 20 = .ok (latest 20 heard.turns) := hheard.intact.read hid 20
  have hlasting : session.Lasting (message.service (.startDynamicPlan
      (planGoal message session.window (latest 20 heard.turns))
      (id ++ "-" ++ message.planHex))).traces := by
    rw [hservice]
    exact hlasting
  obtain ⟨last, hask, hlast, htraces⟩ := hheard.ask hlasting
  have htraces : last.traces = traces := htraces.trans (by rw [hservice])
  rw [hservice] at hask
  rw [hsent, hcurrent, reply_new hintent, newRequest, Acting.asks_bind hread,
    Acting.bind_of_ok hask, planned]
  rw [← htraces]
  exact hlast.announced hid hreply hnote started.named

theorem sendMessage_resumes {facts : TraceFacts} (hid : Memory.safeId id = true) (h : session.Intact)
    (hintent : classifyIntent message.content = .resume) (hcontent : Sayable message.content)
    (hcurrent : session.currentTrace = some (traceId, facts)) (hlasting : session.Lasting traces)
    (hservice : ∀ request, message.service request = ⟨.started started planId, traces⟩)
    (hreply : Sayable ("已从 Trace 恢复执行：" ++ traceId))
    (hnote : Text.strip ("已从 Trace 恢复执行：" ++ traceId) ≠ patchFailed) :
    Announced session traceId traces (sendMessage id message session).2 := by
  obtain ⟨heard, hheard, hsent⟩ := sendMessage_heard hid h hcontent
  have hlasting : session.Lasting (message.service (.resumeRun traceId)).traces := by
    rw [hservice]
    exact hlasting
  obtain ⟨last, hask, hlast, htraces⟩ := hheard.ask hlasting
  have htraces : last.traces = traces := htraces.trans (by rw [hservice])
  rw [hservice] at hask
  rw [hsent, hcurrent, reply_resume hintent, resumeTask, Acting.bind_of_ok hask, resumed]
  rw [← htraces]
  exact hlast.announced hid hreply hnote (h.current_named hcurrent)

end

def sampleStamp (hex : String) (h : Json.unbroken ("turn-" ++ hex) = true) : Stamp where
  hex := hex
  now := "2024-01-01T00:00:00+00:00"
  hexUnbroken := h
  nowUnbroken := unbroken_ofList (by decide)

def shopTrace : TraceId := ⟨"tr-1", by decide +kernel⟩

def shopTraces (status : TraceStatus) : Dict String TraceFacts := Dict.ofList [("tr-1", { status })]

/-- A message whose run the service takes up. -/
def shopMessage (content : String) : Message where
  content := content
  planHex := "aa"
  userStamp := sampleStamp "1" (by decide +kernel)
  replyStamp := sampleStamp "2" (by decide +kernel)
  service _ := ⟨.started shopTrace "plan-1", shopTraces .running⟩

def inOrder : Projection where
  arrange ids := ids
  perm _ := .refl _
  stamp _ := sampleStamp "3" (by decide +kernel)

def newShop : Session := Session.created firstConversation ∅

def firstSteps : List ConversationStep :=
  [.message (shopMessage "build a shop"), .work (shopTraces .failed)]

theorem safe_first : Memory.safeId "conv-1" = true := by decide +kernel

theorem sayable_plain {content : String} (h : Text.strip content = content ∧ content ≠ "" ∧
    content.length ≤ maxMessage ∧ Json.unbroken content = true) : Sayable content := by
  obtain ⟨hplain, hne, hshort, hunbroken⟩ := h
  constructor <;> rw [hplain] <;> assumption

theorem get?_shopTraces {status : TraceStatus} {traceId : String} {facts : TraceFacts}
    (h : (shopTraces status).get? traceId = some facts) :
    traceId = "tr-1" ∧ facts = { status } := by
  have hlookup : (if "tr-1" = traceId then some ({ status } : TraceFacts) else none) = some facts := h
  split at hlookup
  · next heq =>
    cases hlookup
    exact ⟨heq.symm, rfl⟩
  · cases hlookup

theorem not_owed_newShop (traceId : String) : ¬ newShop.Owed traceId :=
  fun howed => absurd howed.1 (Nat.lt_irrefl 0)

theorem window_of_short (h : session.turns.length ≤ 100) : session.window = session.turns := by
  unfold Session.window latest
  rw [show session.turns.length - (max 1 (min (100 : Int) 200)).toNat = 0 by omega, List.drop_zero]

theorem step_message {message : Message} :
    session.step id (.message message) = (sendMessage id message session).2 := rfl

theorem build_intent : classifyIntent (shopMessage "build a shop").content = .newRequest := by
  decide +kernel

theorem build_announced : Announced newShop "tr-1" (shopTraces .running)
    (newShop.step "conv-1" (.message (shopMessage "build a shop"))) := by
  have hmessage : Sayable "build a shop" := sayable_plain (by decide +kernel)
  have hreply : Sayable ("已创建执行 Trace: " ++ shopTrace.value) := sayable_plain (by decide +kernel)
  have hnote : Text.strip ("已创建执行 Trace: " ++ shopTrace.value) ≠ patchFailed := by
    decide +kernel
  have hservice : ∀ request, (shopMessage "build a shop").service request =
      ⟨.started shopTrace "plan-1", shopTraces .running⟩ := fun _ => rfl
  have hlasting : newShop.Lasting (shopTraces .running) :=
    fun traceId howed => absurd howed (not_owed_newShop traceId)
  have hintact : newShop.Intact := (exact_created firstConversation ∅).intact
  have hcurrent : newShop.currentTrace = none := rfl
  rw [step_message]
  exact sendMessage_starts safe_first hintact build_intent hmessage hcurrent hlasting hservice hreply hnote

theorem run_cons (step : ConversationStep) (steps : List ConversationStep) :
    session.run id (step :: steps) = (session.step id step).run id steps := rfl

theorem run_nil : session.run id [] = session := rfl

theorem Announced.work {last : Session} {traceId : String} {traces : Dict String TraceFacts}
    (h : Announced session traceId traces last) (id : String) (traces' : Dict String TraceFacts) :
    Announced session traceId traces' (last.step id (.work traces')) where
  intact := ⟨h.intact.holds, h.intact.lines, h.intact.named⟩
  traces := rfl
  turns := h.turns

/-- The session in which the first run has failed. -/
theorem firstSteps_failed :
    Announced newShop "tr-1" (shopTraces .failed) (newShop.run "conv-1" firstSteps) := by
  rw [firstSteps, run_cons, run_cons, run_nil]
  exact build_announced.work "conv-1" (shopTraces .failed)

theorem eq_of_announces {traceId traceId' : String} {turn : ConversationTurn}
    (h : announces traceId turn = true) (h' : announces traceId' turn = true) : traceId = traceId' := by
  have heq := (announces_iff.mp h).2.1.symm.trans (announces_iff.mp h').2.1
  exact Option.some.inj heq

section
variable {last : Session} {status : TraceStatus}

/-- What the window of a conversation with one announced run shows. -/
theorem Announced.window_eq (h : Announced newShop "tr-1" (shopTraces status) last) :
    ∃ user announcement, last.window = [user, announcement] ∧ user.role = "user" ∧
      announces "tr-1" announcement = true := by
  obtain ⟨user, announcement, hturns, hrole, -, hannounces⟩ := h.turns
  have hshort : last.turns.length ≤ 100 := by
    rw [hturns]
    exact (show 2 ≤ 100 by decide)
  refine ⟨user, announcement, ?_, hrole, hannounces⟩
  rw [window_of_short hshort, hturns]
  rfl

theorem Announced.pending (h : Announced newShop "tr-1" (shopTraces status) last) :
    last.Pending "tr-1" := by
  obtain ⟨user, announcement, hwindow, hrole, hannounces⟩ := h.window_eq
  obtain ⟨hsystem, htrace, -⟩ := announces_iff.mp hannounces
  rw [Session.Pending, hwindow]
  refine ⟨⟨announcement, List.mem_cons_of_mem _ List.mem_cons_self, hsystem, htrace⟩, ?_⟩
  rw [List.forall_mem_cons, List.forall_mem_singleton]
  simp [answers, hrole, hsystem]

/-- A conversation whose one run is announced and not answered shows it. -/
theorem Announced.shows (h : Announced newShop "tr-1" (shopTraces status) last) : last.Shows := by
  constructor
  · intro traceId facts hfacts _ _ _
    obtain ⟨rfl, -⟩ := get?_shopTraces (h.traces ▸ hfacts)
    exact h.pending
  · intro traceId facts _ _ ⟨turn, hturn, hnotes⟩ _
    obtain ⟨user, announcement, hwindow, hrole, hannounces⟩ := h.window_eq
    rw [hwindow] at hturn
    simp only [notes, Bool.and_eq_true, decide_eq_true_eq] at hnotes
    obtain rfl | hturn := List.mem_cons.mp hturn
    · exact absurd (hrole.symm.trans hnotes.1.1) (by decide)
    · rw [List.mem_singleton.mp hturn] at hnotes
      exact absurd hnotes.2 (announces_iff.mp hannounces).2.2
  · intro traceId facts hfacts _ _ hevents
    obtain ⟨-, rfl⟩ := get?_shopTraces (h.traces ▸ hfacts)
    cases hevents

end

theorem permits_build : newShop.Permits "conv-1" (shopMessage "build a shop") where
  content := unbroken_strip (unbroken_ofList (by decide))
  texts _ _ := by
    have hplan : Json.unbroken "plan-1" = true := unbroken_ofList (by decide)
    rw [show ((shopMessage "build a shop").service _).outcome.texts = ["plan-1"] from rfl,
      List.forall_mem_singleton]
    exact hplan
  answer hintent := absurd hintent (by rw [build_intent]; decide)
  announcement _ _ traceId _ := not_owed_newShop traceId
  lasting _ _ traceId howed := absurd howed (not_owed_newShop traceId)

theorem announced_firstSteps : (newShop.run "conv-1" firstSteps).announced "tr-1" = 1 := by
  obtain ⟨user, announcement, hturns, hrole, hnone, hannounces⟩ := firstSteps_failed.turns
  have huser : announces "tr-1" user = false := by simp [announces, hnone]
  rw [Session.announced, hturns, Episodes.opened, List.countP_append, List.countP_cons_of_neg (by simp [huser]),
    List.countP_cons_of_pos hannounces]
  rfl

theorem firstRun_runs : newShop.Runs "conv-1" (firstSteps ++ ([] ++ [.sync inOrder])) := by
  refine runs_append.mpr ⟨⟨permits_build, ?_, trivial⟩, ?_, trivial⟩
  · intro traceId ⟨_, _, facts, hfacts, hterminal⟩
    obtain ⟨-, rfl⟩ := get?_shopTraces (build_announced.traces ▸ hfacts)
    cases hterminal
  · exact firstSteps_failed.shows

/-- The failed first run of a shop is answered by the next projection. -/
theorem failedRun_projected :
    ((newShop.run "conv-1" firstSteps).step "conv-1" (.sync inOrder)).answered "tr-1" 1 = 1 := by
  have hprojected := (terminalTurns_projected safe_first firstRun_runs).2.1 "tr-1" { status := .failed }
  rw [run_nil, ← newShop, announced_firstSteps] at hprojected
  apply hprojected (by decide) _ (by decide)
  rw [firstSteps_failed.traces]
  rfl

def resumeSteps : List ConversationStep :=
  [.message (shopMessage "resume"), .work (shopTraces .completed), .sync inOrder]

/-- A session in which the failed run has its answer. -/
structure FailureTold (session : Session) : Prop where
  intact : session.Intact
  traces : session.traces = shopTraces .failed
  notOwed : ∀ traceId, ¬ session.Owed traceId
  turns : ∃ user announcement answer, session.turns = [user, announcement, answer] ∧
    user.traceId = none ∧ announces "tr-1" announcement = true ∧ answers "tr-1" answer = true

theorem failedRun_told :
    FailureTold ((newShop.run "conv-1" firstSteps).step "conv-1" (.sync inOrder)) := by
  have hfirst := firstSteps_failed
  obtain ⟨added, turns, traceIds, -, hturns, htraces, hintact, hanswers, hnodup, hmem⟩ :=
    sync_spec inOrder safe_first hfirst.intact hfirst.shows
  have hover : (newShop.run "conv-1" firstSteps).over "tr-1" = true := by
    rw [Session.over, hfirst.traces]
    rfl
  have hids : traceIds = ["tr-1"] := by
    apply List.perm_singleton.mp
    rw [List.perm_ext_iff_of_nodup hnodup (List.nodup_singleton _)]
    intro t
    rw [hmem, List.mem_singleton]
    constructor
    · rintro ⟨_, hover⟩
      obtain ⟨facts, hfacts, -⟩ := over_iff.mp hover
      exact (get?_shopTraces (hfirst.traces ▸ hfacts)).1
    · rintro rfl
      exact ⟨hfirst.pending, hover⟩
  rw [hids] at hanswers
  obtain ⟨answer, rfl, hanswer⟩ := List.map_eq_singleton_iff.mp hanswers
  obtain ⟨user, announcement, hbefore, -, hnone, hannounces⟩ := hfirst.turns
  rw [hbefore] at hturns
  obtain ⟨hrole, htrace⟩ := Prod.mk.inj hanswer
  exact ⟨hintact, htraces.trans hfirst.traces,
    not_owed_sync safe_first hfirst.intact hfirst.shows,
    user, announcement, answer, hturns, hnone, hannounces, answers_iff.mpr ⟨hrole, htrace⟩⟩

theorem FailureTold.current (h : FailureTold session) :
    session.currentTrace = some ("tr-1", { status := .failed }) := by
  obtain ⟨user, announcement, answer, hturns, -, -, hanswers⟩ := h.turns
  obtain ⟨-, htrace⟩ := answers_iff.mp hanswers
  have hshort : session.turns.length ≤ 100 := by
    rw [hturns]
    exact (show 3 ≤ 100 by decide)
  have hlatest : session.window.reverse.findSome? (·.traceId) = some "tr-1" := by
    rw [window_of_short hshort, hturns]
    simp [htrace]
  have hfacts : session.traces.get? "tr-1" = some { status := .failed } := by
    rw [h.traces]
    rfl
  rw [Session.currentTrace, latestTrace, ← Session.window, hlatest]
  simp [hfacts]

theorem FailureTold.resumed (h : FailureTold session) :
    Announced session "tr-1" (shopTraces .running)
      (session.step "conv-1" (.message (shopMessage "resume"))) := by
  have hmessage : Sayable "resume" := sayable_plain (by decide +kernel)
  have hreply : Sayable ("已从 Trace 恢复执行：" ++ "tr-1") := sayable_plain (by decide +kernel)
  have hnote : Text.strip ("已从 Trace 恢复执行：" ++ "tr-1") ≠ patchFailed := by decide +kernel
  have hintent : classifyIntent (shopMessage "resume").content = .resume := by decide +kernel
  have hservice : ∀ request, (shopMessage "resume").service request =
      ⟨.started shopTrace "plan-1", shopTraces .running⟩ := fun _ => rfl
  have hlasting : session.Lasting (shopTraces .running) :=
    fun traceId howed => absurd howed (h.notOwed traceId)
  rw [step_message]
  exact sendMessage_resumes safe_first h.intact hintent hmessage h.current hlasting hservice hreply
    hnote

/-- The second run is announced and the answer to the first still stands in the window. -/
theorem FailureTold.untold (h : FailureTold session) :
    let ended := session.run "conv-1" resumeSteps
    ended.announced "tr-1" = 2 ∧ ended.traces = shopTraces .completed ∧
      ended.answered "tr-1" 2 = 0 := by
  obtain ⟨user, announcement, answer, hturns, hnone, hannounces, hanswers⟩ := h.turns
  have hended := h.resumed.work "conv-1" (shopTraces .completed)
  obtain ⟨user', announcement', hturns', -, hnone', hannounces'⟩ := hended.turns
  rw [hturns] at hturns'
  have hidle : session.run "conv-1" resumeSteps =
      (session.step "conv-1" (.message (shopMessage "resume"))).step "conv-1"
        (.work (shopTraces .completed)) := by
    rw [resumeSteps, run_cons, run_cons, run_cons, run_nil]
    apply sync_idle inOrder safe_first hended.intact
    intro t hpending
    rw [← Bool.not_eq_true]
    intro hover
    obtain ⟨facts, hfacts, -⟩ := over_iff.mp hover
    obtain ⟨rfl, -⟩ := get?_shopTraces (hended.traces ▸ hfacts)
    have hmem := hpending.2 answer
    rw [window_of_short (by rw [hturns']; exact (show 5 ≤ 100 by decide)), hturns'] at hmem
    have hunknown := hmem (by simp)
    rw [hanswers] at hunknown
    cases hunknown
  have huser : announces "tr-1" user = false := by simp [announces, hnone]
  have huser' : announces "tr-1" user' = false := by simp [announces, hnone']
  have hanswer : announces "tr-1" answer = false := by
    simp [announces, (answers_iff.mp hanswers).1]
  rw [hidle]
  refine ⟨?_, hended.traces, ?_⟩
  · rw [Session.announced, hturns']
    simp [Episodes.opened, huser, huser', hanswer, hannounces, hannounces']
  · rw [Session.answered, hturns']
    simp [Episodes.closedIn, huser, huser', hanswer, hannounces, hannounces']

/-- A resumed run is announced and completes, and no projection tells of it. -/
theorem resumedRun_unanswered :
    let session := newShop.run "conv-1" (firstSteps ++ .sync inOrder :: resumeSteps)
    session.announced "tr-1" = 2 ∧
      (session.traces.get? "tr-1").map (·.status) = some .completed ∧
      session.answered "tr-1" 2 = 0 := by
  obtain ⟨hannounced, htraces, hanswered⟩ := failedRun_told.untold
  rw [run_append, run_cons]
  refine ⟨hannounced, ?_, hanswered⟩
  rw [htraces]
  rfl

end ProjectOS.Application
