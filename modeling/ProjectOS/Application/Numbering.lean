import ProjectOS.Application.Conversations
import ProjectOS.Base.JsonLines
import ProjectOS.Memory.Lossless

/-! The numbers that appended turns carry and what is read back of them. The number
comes from a read of at most a hundred turns, so it stops growing there. -/
namespace ProjectOS.Application
open Base

/-- The texts of a call that reach its record unchecked. -/
def AppendCall.texts (call : AppendCall) : List String :=
  [Text.strip call.content, "turn-" ++ call.hex, call.now] ++ call.traceId.toList

/-- The turn of the call stays on one line and is read back as it was written. -/
def AppendCall.Kept (call : AppendCall) : Prop :=
  (∀ text ∈ call.texts, Json.unbroken text = true) ∧ call.traceId ≠ some ""

def ConversationTurn.OneLine (turn : ConversationTurn) : Prop := (Json.obj turn.asDict).OneLine

theorem AppendCall.oneLine_turn {call : AppendCall} {conversationId : String}
    (hid : Memory.safeId conversationId = true) (hcheck : call.check = .ok ()) (sequence : Nat) :
    (call.turn conversationId sequence).OneLine ↔
      ∀ text ∈ call.texts, Json.unbroken text = true := by
  have hkeys : ["id", "conversation_id", "sequence", "role", "content", "trace_id",
      "created_at"].all Json.unbroken = true := by decide
  simp only [List.all_cons, List.all_nil, Bool.and_true, Bool.and_eq_true] at hkeys
  have hconversation := Memory.unbroken_of_safeId hid
  have hrole : Json.unbroken call.role = true := by
    simp only [check, raiseWhen_bind_eq_ok, decide_eq_false_iff_not, not_not] at hcheck
    exact Memory.unbroken_of_mem (by decide) hcheck.1
  unfold ConversationTurn.OneLine Json.OneLine
  simp only [ConversationTurn.asDict, turn, texts, Json.strings, Json.stringsOfFields,
    Json.strings_optStr, List.forall_mem_append, List.forall_mem_cons, List.not_mem_nil,
    false_implies, implies_true, and_true, hkeys, hconversation, hrole, true_and]
  constructor
  · rintro ⟨hturn, hcontent, htrace, hnow⟩
    exact ⟨⟨hcontent, hturn, hnow⟩, htrace⟩
  · rintro ⟨⟨hcontent, hturn, hnow⟩, htrace⟩
    exact ⟨hturn, hcontent, htrace, hnow⟩

theorem AppendCall.reread_turn {call : AppendCall} {conversationId : String} {sequence : Nat} :
    (call.turn conversationId sequence).reread = call.turn conversationId sequence ↔
      call.traceId ≠ some "" := by
  rw [← Memory.filter_eq_self_iff]
  constructor
  · exact fun h => congrArg ConversationTurn.traceId h
  · intro h
    simp only [ConversationTurn.reread, turn, h]

theorem length_latest (limit : Int) (turns : List α) :
    (latest limit turns).length = min turns.length (max 1 (min limit 200)).toNat := by
  rw [latest, List.length_drop]
  omega

/-- The turns of calls that are appended after `done` others. -/
def numbered (conversationId : String) (done : Nat) : List AppendCall → List ConversationTurn
  | [] => []
  | call :: rest =>
      call.turn conversationId (min done 100 + 1) :: numbered conversationId (done + 1) rest

theorem length_numbered (conversationId : String) (done : Nat) (calls : List AppendCall) :
    (numbered conversationId done calls).length = calls.length := by
  induction calls generalizing done with
  | nil => rfl
  | cons call calls ih => rw [numbered, List.length_cons, List.length_cons, ih]

theorem sequences_numbered (conversationId : String) (done : Nat) (calls : List AppendCall) :
    (numbered conversationId done calls).map (·.sequence) =
      (List.range calls.length).map fun i => ((min (done + i) 100 : Nat) : Int) + 1 := by
  induction calls generalizing done with
  | nil => rfl
  | cons call calls ih =>
    rw [numbered, List.map_cons, ih, List.length_cons, List.range_succ_eq_map, List.map_cons,
      List.map_map]
    congr 1
    apply List.map_congr_left
    intro i _
    rw [Function.comp_apply, Nat.succ_eq_add_one, Nat.add_right_comm, Nat.add_assoc]

/-- The numbers run from one without repetition as long as the read sees every turn. -/
theorem sequences_iff (conversationId : String) (calls : List AppendCall) :
    (numbered conversationId 0 calls).map (·.sequence) =
        (List.range calls.length).map (fun i : Nat => (i : Int) + 1) ↔ calls.length ≤ 101 := by
  rw [sequences_numbered, List.map_inj_left]
  constructor
  · intro h
    by_contra hlong
    have hrepeated := h 101 (List.mem_range.mpr (by omega))
    omega
  · intro hshort i hi
    have := List.mem_range.mp hi
    omega

namespace ConversationStore

/-- The conversation exists and its file holds the records of the turns. -/
structure Holds (store : ConversationStore) (turns : List ConversationTurn) : Prop where
  created : store.conversation.isSome = true
  text : store.messages =
    String.ofList (Json.log (turns.map fun turn => .obj turn.asDict))

variable {store store' : ConversationStore} {conversationId : String}
  {turns read : List ConversationTurn}

theorem load_ok (hid : Memory.safeId conversationId = true) (h : Holds store turns) :
    ∃ conversation, store.load conversationId = .ok conversation := by
  obtain ⟨conversation, hconversation⟩ := Option.isSome_iff_exists.mp h.created
  refine ⟨conversation, ?_⟩
  rw [load, hconversation, validateConversationId, hid]
  rfl

theorem turns_iff (hid : Memory.safeId conversationId = true) (h : Holds store turns)
    {limit : Int} :
    store.turns conversationId limit = .ok read ↔
      (∀ turn ∈ turns, turn.OneLine) ∧ read = latest limit (turns.map (·.reread)) := by
  obtain ⟨conversation, hload⟩ := load_ok hid h
  have hlog := fun lines => @Json.readObjects_log Error ConversationTurn ConversationTurn
    ConversationTurn.fromPayload (.valueError "JSONDecodeError") ConversationTurn.asDict (·.reread)
    turns (fun turn _ => distinct_asDict turn) (fun turn _ => fromPayload_asDict turn) lines
  rw [ConversationStore.turns, hload, ok_bind, h.text, Json.splitlines_log, bind_eq_ok]
  constructor
  · intro ⟨lines, hlines, hread⟩
    cases hread
    obtain ⟨hline, rfl⟩ := (hlog lines).mp hlines
    exact ⟨hline, rfl⟩
  · intro ⟨hline, hread⟩
    exact ⟨_, (hlog _).mpr ⟨hline, rfl⟩, by rw [hread]⟩

/-- An append numbers its turn after those that a read of a hundred shows. -/
theorem append_eq_ok (hid : Memory.safeId conversationId = true) (h : Holds store turns)
    {call : AppendCall} {turn : ConversationTurn}
    (happend : store.append conversationId call = .ok (turn, store')) :
    turn = call.turn conversationId (min turns.length 100 + 1) ∧
      Holds store' (turns ++ [turn]) := by
  obtain ⟨conversation, hload⟩ := load_ok hid h
  unfold append at happend
  obtain ⟨-, happend⟩ := check_bind_eq_ok.mp happend
  rw [hload, ok_bind] at happend
  obtain ⟨read, hread, happend⟩ := bind_eq_ok.mp happend
  cases happend
  obtain ⟨-, rfl⟩ := (turns_iff hid h).mp hread
  rw [length_latest, List.length_map]
  refine ⟨rfl, rfl, ?_⟩
  rw [List.map_append, List.map_singleton, Json.log_append, String.ofList_append, h.text]

/-- The turns that calls appended one after another return. -/
theorem appendAll_eq_ok (hid : Memory.safeId conversationId = true) {calls : List AppendCall}
    {done : List ConversationTurn} (h : Holds store done)
    (happend : store.appendAll conversationId calls = .ok (turns, store')) :
    turns = numbered conversationId done.length calls ∧ Holds store' (done ++ turns) := by
  induction calls generalizing store done turns with
  | nil =>
    cases happend
    exact ⟨rfl, by simpa using h⟩
  | cons call calls ih =>
    obtain ⟨⟨turn, middle⟩, hfirst, happend⟩ := bind_eq_ok.mp happend
    obtain ⟨⟨rest, last⟩, hrest, happend⟩ := bind_eq_ok.mp happend
    cases happend
    obtain ⟨hturn, hholds⟩ := append_eq_ok hid h hfirst
    obtain ⟨hturns, hfinal⟩ := ih hholds hrest
    rw [List.length_append, List.length_singleton] at hturns
    refine ⟨?_, by simpa using hfinal⟩
    rw [numbered, hturn, hturns]

/-- Calls whose texts stay on one line all succeed. -/
theorem exists_appendAll (hid : Memory.safeId conversationId = true) {calls : List AppendCall}
    {done : List ConversationTurn} (h : Holds store done)
    (hdone : ∀ turn ∈ done, turn.OneLine) (hcheck : ∀ call ∈ calls, call.check = .ok ())
    (hcalls : ∀ call ∈ calls, ∀ text ∈ call.texts, Json.unbroken text = true) :
    ∃ result, store.appendAll conversationId calls = .ok result := by
  induction calls generalizing store done with
  | nil => exact ⟨_, rfl⟩
  | cons call calls ih =>
    rw [List.forall_mem_cons] at hcheck hcalls
    obtain ⟨conversation, hload⟩ := load_ok hid h
    have hread : store.turns conversationId = .ok (latest 100 (done.map (·.reread))) :=
      (turns_iff hid h).mpr ⟨hdone, rfl⟩
    have hfirst : ∃ turn next, store.append conversationId call = .ok (turn, next) := by
      unfold append
      rw [hcheck.1, ok_bind, hload, ok_bind, hread, ok_bind]
      exact ⟨_, _, rfl⟩
    obtain ⟨turn, next, hfirst⟩ := hfirst
    obtain ⟨hturn, hnext⟩ := append_eq_ok hid h hfirst
    have hline : turn.OneLine := by
      rw [hturn]
      exact (AppendCall.oneLine_turn hid hcheck.1 _).mpr hcalls.1
    have hall : ∀ t ∈ done ++ [turn], t.OneLine := by
      rw [List.forall_mem_append, List.forall_mem_singleton]
      exact ⟨hdone, hline⟩
    obtain ⟨result, hrest⟩ := ih hnext hall hcheck.2 hcalls.2
    refine ⟨(turn :: result.1, result.2), ?_⟩
    rw [appendAll, hfirst, ok_bind]
    dsimp only
    rw [hrest]
    rfl

/-- The appends succeed with the numbers 1, …, n, and reading the latest `k` turns
gives back the last of them as they were appended. -/
def Lawful (store : ConversationStore) (conversationId : String) (calls : List AppendCall) : Prop :=
  ∃ turns store', store.appendAll conversationId calls = .ok (turns, store') ∧
    turns.map (·.sequence) = (List.range calls.length).map (fun i : Nat => (i : Int) + 1) ∧
    ∀ k : Nat, 1 ≤ k → store'.turns conversationId k =
      .ok (turns.drop (turns.length - min (min k turns.length) 200))

theorem forall_numbered {p : AppendCall → Prop} {q : ConversationTurn → Prop}
    {calls : List AppendCall}
    (h : ∀ call ∈ calls, ∀ sequence, p call ↔ q (call.turn conversationId sequence)) (done : Nat) :
    (∀ turn ∈ numbered conversationId done calls, q turn) ↔ ∀ call ∈ calls, p call := by
  induction calls generalizing done with
  | nil => simp [numbered]
  | cons call calls ih =>
    rw [List.forall_mem_cons] at h
    rw [numbered, List.forall_mem_cons, List.forall_mem_cons, ih h.2, h.1 (min done 100 + 1)]

theorem latest_nat {k : Nat} (hk : 1 ≤ k) (turns : List α) :
    latest k turns = turns.drop (turns.length - min (min k turns.length) 200) := by
  unfold latest
  congr 1
  omega

variable {conversation : Conversation} {calls : List AppendCall}

theorem holds_created : Holds { conversation := some conversation } [] := ⟨rfl, rfl⟩

theorem oneLine_numbered (hid : Memory.safeId conversationId = true)
    (hcheck : ∀ call ∈ calls, call.check = .ok ()) (done : Nat) :
    (∀ turn ∈ numbered conversationId done calls, turn.OneLine) ↔
      ∀ call ∈ calls, ∀ text ∈ call.texts, Json.unbroken text = true :=
  forall_numbered (fun call hcall sequence =>
    (AppendCall.oneLine_turn hid (hcheck call hcall) sequence).symm) done

theorem reread_numbered (conversationId : String) (calls : List AppendCall) (done : Nat) :
    (∀ turn ∈ numbered conversationId done calls, turn.reread = turn) ↔
      ∀ call ∈ calls, call.traceId ≠ some "" :=
  forall_numbered (fun _ _ _ => AppendCall.reread_turn.symm) done

theorem Lawful.short_kept (hid : Memory.safeId conversationId = true)
    (hcheck : ∀ call ∈ calls, call.check = .ok ())
    (h : Lawful { conversation := some conversation } conversationId calls) :
    calls.length ≤ 101 ∧ ∀ call ∈ calls, call.Kept := by
  obtain ⟨turns, store', happend, hsequences, hread⟩ := h
  obtain ⟨rfl, hholds⟩ := appendAll_eq_ok hid holds_created happend
  rw [List.length_nil] at hsequences hread hholds
  have hshort := (sequences_iff conversationId calls).mp hsequences
  obtain ⟨hlines, hback⟩ := (turns_iff hid hholds).mp (hread 200 (by omega))
  rw [List.nil_append] at hlines hback
  -- a short conversation is read whole
  have hwhole : numbered conversationId 0 calls =
      (numbered conversationId 0 calls).map (·.reread) := by
    have hlength := length_numbered conversationId 0 calls
    rw [latest, List.length_map, hlength] at hback
    rwa [show calls.length - min (min 200 calls.length) 200 = 0 by omega,
      show calls.length - (max 1 (min ((200 : Nat) : Int) 200)).toNat = 0 by omega,
      List.drop_zero, List.drop_zero] at hback
  have hsame : ∀ turn ∈ numbered conversationId 0 calls, turn.reread = turn := by
    rw [← List.map_inj_left, List.map_id']
    exact hwhole.symm
  have hlines := (oneLine_numbered hid hcheck 0).mp hlines
  have hsame := (reread_numbered conversationId calls 0).mp hsame
  exact ⟨hshort, fun call hcall => ⟨hlines call hcall, hsame call hcall⟩⟩

theorem lawful_of_kept (hid : Memory.safeId conversationId = true)
    (hcheck : ∀ call ∈ calls, call.check = .ok ()) (hshort : calls.length ≤ 101)
    (hkept : ∀ call ∈ calls, call.Kept) :
    Lawful { conversation := some conversation } conversationId calls := by
  have htexts : ∀ call ∈ calls, ∀ text ∈ call.texts, Json.unbroken text = true :=
    fun call hcall => (hkept call hcall).1
  obtain ⟨⟨turns, store'⟩, happend⟩ := exists_appendAll hid holds_created (List.forall_mem_nil _) hcheck htexts
  obtain ⟨rfl, hholds⟩ := appendAll_eq_ok hid holds_created happend
  refine ⟨_, store', happend, (sequences_iff conversationId calls).mpr hshort, ?_⟩
  intro k hk
  have hlines := (oneLine_numbered hid hcheck 0).mpr htexts
  have hsame := (reread_numbered conversationId calls 0).mpr fun call hcall => (hkept call hcall).2
  rw [(turns_iff hid hholds).mpr ⟨by simpa using hlines, rfl⟩, ← latest_nat hk,
    List.nil_append, List.length_nil]
  congr 2
  rw [List.map_congr_left hsame, List.map_id']

/-- A conversation is numbered and read back faithfully exactly if it has at most 101
turns, none of their texts holds U+0085, U+2028 or U+2029 and no trace id is empty. -/
theorem append_lawful_iff (hid : Memory.safeId conversationId = true)
    (hcheck : ∀ call ∈ calls, call.check = .ok ()) :
    Lawful { conversation := some conversation } conversationId calls ↔
      calls.length ≤ 101 ∧ ∀ call ∈ calls, call.Kept :=
  ⟨Lawful.short_kept hid hcheck, fun ⟨hshort, hkept⟩ => lawful_of_kept hid hcheck hshort hkept⟩

end ConversationStore

def firstConversation : Conversation := ⟨"conv-1", "shop", "2024-01-01", "2024-01-01"⟩

/-- A message of the user as the conversation takes it. -/
def message (hex content : String) : AppendCall where
  role := "user"
  content := content
  hex := hex
  now := "2024-01-01T00:00:00+00:00"

def plainMessages : List AppendCall := [message "1" " add a cart\n", message "2" "\"now\""]

theorem plainMessages_lawful : ConversationStore.Lawful
    { conversation := some firstConversation } "conv-1" plainMessages := by
  have hcheck : ∀ call ∈ plainMessages, call.check = .ok () := by
    unfold plainMessages
    rw [List.forall_mem_cons, List.forall_mem_singleton]
    decide +kernel
  refine (ConversationStore.append_lawful_iff (by decide) hcheck).mpr ⟨by decide, ?_⟩
  unfold plainMessages
  rw [List.forall_mem_cons, List.forall_mem_singleton]
  exact ⟨⟨by decide +kernel, by decide⟩, ⟨by decide +kernel, by decide⟩⟩

/-- A line separator in the first message, and 102 plain messages. -/
theorem lineSeparator_longConversation_not_lawful :
    ¬ ConversationStore.Lawful { conversation := some firstConversation } "conv-1"
        [message "1" "a\u2028b"] ∧
      ¬ ConversationStore.Lawful { conversation := some firstConversation } "conv-1"
        (List.replicate 102 (message "1" "next")) := by
  constructor
  · intro h
    have hcheck : ∀ call ∈ [message "1" "a\u2028b"], call.check = .ok () := by
      rw [List.forall_mem_singleton]
      decide +kernel
    have hkept := (h.short_kept (by decide) hcheck).2 _ (List.mem_singleton_self _)
    exact absurd (hkept.1 "a\u2028b" (by decide +kernel)) (by decide)
  · intro h
    have hcheck : ∀ call ∈ List.replicate 102 (message "1" "next"), call.check = .ok () := by
      intro call hcall
      rw [List.eq_of_mem_replicate hcall]
      decide +kernel
    have hshort := (h.short_kept (by decide) hcheck).1
    rw [List.length_replicate] at hshort
    omega

end ProjectOS.Application
