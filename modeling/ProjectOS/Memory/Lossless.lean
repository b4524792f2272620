import ProjectOS.Memory.Store

/-! What a memory log gives back of the events appended to it. -/
namespace ProjectOS.Memory
open Base

theorem distinct_asDict {event : EventFields} (h : (Json.obj event.metadata).distinct = true) :
    event.asDict.distinct = true := by
  have hkeys : ["id", "trace_id", "sequence", "role", "content", "event_type", "work_item_id",
      "agent_id", "attempt", "tool_name", "source_refs", "metadata", "created_at", "tier",
      "lifecycle", "expires_at", "retrieval_enabled"].Nodup := by decide
  rw [EventFields.asDict, Json.distinct, Bool.and_eq_true]
  refine ⟨decide_eq_true hkeys, ?_⟩
  simp only [EventFields.pairs, Json.distinctFields, Json.distinct_optStr, Json.distinct_optInt, Json.distinct_strs, h,
    Bool.and_true]
  rfl

/-- No string of the record holds a wide line break. -/
def MemoryEvent.OneLine (event : MemoryEvent) : Prop :=
  ∀ text ∈ event.asDict.strings, Json.unbroken text = true

namespace MemoryStore

/-- What the lines of a log are read as. -/
theorem readLines_log {events : List MemoryEvent}
    (hdistinct : ∀ event ∈ events, (Json.obj event.metadata).distinct = true)
    {read : List MemoryEvent} :
    readLines ((Text.splitlinesOf (Json.log (events.map fun event => event.asDict))).map
        String.ofList) = .ok read ↔
      (∀ event ∈ events, event.OneLine) ∧ read = events.map MemoryEvent.reread := by
  induction events generalizing read with
  | nil => simp [Json.log, Text.splitlinesOf, readLines, eq_comm]
  | cons event events ih =>
    have hevent := distinct_asDict (hdistinct event List.mem_cons_self)
    have hrest := fun read => @ih (fun e he => hdistinct e (List.mem_cons_of_mem _ he)) read
    rw [List.forall_mem_cons]
    rw [List.map_cons, Json.log, List.flatMap_cons]
    by_cases hline : event.OneLine
    · have hblank : Text.blank (String.ofList event.asDict.chars) = false := Json.not_blank_chars _
      rw [Json.splitlinesOf_line hline, List.map_cons, readLines, if_neg (by simp [hblank]),
        Json.loads_chars hevent]
      simp only [fromDict_asDict, ok_bind]
      constructor
      · intro h
        obtain ⟨tail, htail, h⟩ := bind_eq_ok.mp h
        cases h
        obtain ⟨hlines, rfl⟩ := (hrest tail).mp htail
        exact ⟨⟨hline, hlines⟩, rfl⟩
      · rintro ⟨⟨-, hlines⟩, rfl⟩
        exact bind_eq_ok.mpr ⟨_, (hrest _).mpr ⟨hlines, rfl⟩, rfl⟩
    · have hbroken : ∃ text ∈ event.asDict.strings, Json.unbroken text = false := by
        simpa [MemoryEvent.OneLine] using hline
      obtain ⟨piece, lines, hsplit, hlines, hloads⟩ := Json.splitlinesOf_broken hevent hbroken
        ((events.map fun event => event.asDict).flatMap Json.line)
      have hblank := Json.not_blank_brace piece
      rw [EventFields.asDict, hsplit, List.map_cons, readLines,
        if_neg (by rw [hblank]; exact Bool.false_ne_true), hloads]
      simp [hlines, hline]

/-- The events of one trace. -/
def ofTrace (traceId : String) (events : List MemoryEvent) : List MemoryEvent :=
  events.filter fun event => event.traceId = traceId

/-- Each file holds the records of its trace, numbered from one. -/
structure Holds (store : MemoryStore) (events : List MemoryEvent) : Prop where
  text : ∀ traceId, (store.get? traceId).getD "" =
    String.ofList (Json.log ((ofTrace traceId events).map fun event => event.asDict))
  numbered : ∀ traceId, (ofTrace traceId events).map (·.sequence) =
    (List.range (ofTrace traceId events).length).map fun i => (i : Int) + 1
  distinct : ∀ event ∈ events, (Json.obj event.metadata).distinct = true

variable {store store' : MemoryStore} {events read : List MemoryEvent}

theorem readUnlocked_iff (h : Holds store events) (traceId : String) :
    store.readUnlocked traceId = .ok read ↔
      (∀ event ∈ ofTrace traceId events, event.OneLine) ∧
        read = (ofTrace traceId events).map MemoryEvent.reread := by
  rw [readUnlocked, h.text traceId, Json.splitlines_log]
  exact readLines_log fun event hevent => h.distinct event (List.mem_of_mem_filter hevent)

theorem ofTrace_concat (traceId : String) (events : List MemoryEvent) (event : MemoryEvent) :
    ofTrace traceId (events ++ [event]) =
      ofTrace traceId events ++ if event.traceId = traceId then [event] else [] := by
  by_cases h : event.traceId = traceId <;> simp [ofTrace, h]

/-- A successful `append` adds the event of its call as the next of its trace. -/
theorem append_eq_ok (h : Holds store events) {call : AppendCall} {event : MemoryEvent}
    (happend : store.append call = .ok (event, store')) :
    event.toEventFields = call.event ((ofTrace call.traceId events).length + 1) ∧
      Holds store' (events ++ [event]) := by
  unfold append at happend
  obtain ⟨-, happend⟩ := check_bind_eq_ok.mp happend
  obtain ⟨read, hread, happend⟩ := bind_eq_ok.mp happend
  obtain ⟨event', hevent, happend⟩ := bind_eq_ok.mp happend
  cases happend
  obtain ⟨-, rfl⟩ := (readUnlocked_iff h call.traceId).mp hread
  rw [List.length_map, MemoryEvent.create_eq_ok] at hevent
  have htrace : event.traceId = call.traceId := by rw [hevent]; rfl
  have hsequence : event.sequence = ((ofTrace call.traceId events).length : Int) + 1 := by
    rw [hevent]
    simp [AppendCall.event]
  refine ⟨hevent, ⟨fun traceId => ?_, fun traceId => ?_, fun e he => ?_⟩⟩
  · rw [Dict.get?_set, ofTrace_concat]
    by_cases hid : traceId = call.traceId
    · subst hid
      simp [htrace, h.text call.traceId, Json.log]
    · simp [hid, htrace, Ne.symm hid, h.text traceId]
  · rw [ofTrace_concat, List.map_append, List.length_append, h.numbered traceId]
    by_cases hid : event.traceId = traceId
    · rw [htrace] at hid
      simp [hid, htrace, hsequence, List.range_succ]
    · simp [hid]
  · obtain he | he := List.mem_append.mp he
    · exact h.distinct e he
    · obtain rfl := List.mem_singleton.mp he
      rw [hevent]
      exact call.metadata.property

/-- The events returned by calls that all succeed are those of the calls, in order. -/
theorem appendAll_eq_ok {calls : List AppendCall} {done : List MemoryEvent} (h : Holds store done)
    (happend : store.appendAll calls = .ok (events, store')) :
    List.Forall₂ (fun call event => ∃ sequence, event.toEventFields = call.event sequence)
        calls events ∧ Holds store' (done ++ events) := by
  induction calls generalizing store done events with
  | nil =>
    cases happend
    exact ⟨.nil, by simpa using h⟩
  | cons call calls ih =>
    obtain ⟨⟨event, middle⟩, hfirst, happend⟩ := bind_eq_ok.mp happend
    obtain ⟨⟨rest, last⟩, hrest, happend⟩ := bind_eq_ok.mp happend
    cases happend
    obtain ⟨hevent, hholds⟩ := append_eq_ok h hfirst
    obtain ⟨hevents, hfinal⟩ := ih hholds hrest
    exact ⟨.cons ⟨_, hevent⟩ hevents, by simpa using hfinal⟩

theorem holds_empty : Holds ∅ [] :=
  ⟨fun _ => rfl, fun _ => rfl, List.forall_mem_nil _⟩

end MemoryStore

/-- The texts of a call that its checks leave free. -/
def AppendCall.texts (call : AppendCall) : List String :=
  [clip call.content, call.eventType, call.now] ++ call.toolName.toList ++ call.expiresAt.toList ++
    call.sourceRefs ++ (Json.obj call.metadata.val).strings

theorem unbroken_of_ascii {text : String} (h : ∀ c ∈ text.toList, c.toNat < 128) :
    Json.unbroken text = true := by
  unfold Json.unbroken
  rw [Bool.not_eq_true', List.any_eq_false]
  intro c hc hwide
  have hhigh := Json.wideBreak_high hwide
  have hlow := h c hc
  omega

theorem ascii_of_isSafeChar {c : Char} (h : (Text.isSafeChar c || c = ':') = true) :
    c.toNat < 128 := by
  have hshape : Text.isSafeChar c = (Text.isAsciiLetter c || Text.isAsciiDigit c || c = '_' ||
      c = '.' || c = '-') := rfl
  have hatom {d : Char} (hd : Json.isAtomChar d = true) : d.toNat < 128 :=
    (Json.ascii_of_isAtomChar hd).2
  simp only [hshape, Bool.or_eq_true, decide_eq_true_eq] at h
  obtain ((((hletter | hdigit) | rfl) | rfl) | rfl) | rfl := h
  · exact hatom (by simp [Json.isAtomChar, hletter])
  · exact hatom (by simp [Json.isAtomChar, hdigit])
  all_goals decide

theorem unbroken_of_safeId {text : String} (h : safeId text = true) : Json.unbroken text = true := by
  apply unbroken_of_ascii
  unfold safeId at h
  split at h
  · cases h
  · rename_i first rest htext
    simp only [Bool.and_eq_true, List.all_eq_true] at h
    intro c hc
    rw [htext] at hc
    obtain rfl | hc := List.mem_cons.mp hc
    · have hatom : Json.isAtomChar c = true := by
        simp only [Json.isAtomChar, h.1.1, Bool.true_or]
      exact (Json.ascii_of_isAtomChar hatom).2
    · exact ascii_of_isSafeChar (h.2 c hc)

theorem unbroken_of_mem {values : List String} (hvalues : values.all Json.unbroken = true)
    {text : String} (h : text ∈ values) : Json.unbroken text = true :=
  List.all_eq_true.mp hvalues text h

theorem unbroken_of_validateOptionalId {name : String} {value : Option String}
    (h : validateOptionalId name value = .ok ()) : ∀ text ∈ value.toList, Json.unbroken text = true := by
  intro text htext
  obtain rfl : value = some text := by simpa using htext
  exact unbroken_of_safeId (by simpa [validateOptionalId, validateId] using h)

/-- The checked texts of an event hold no line break. -/
theorem checked_unbroken (event : MemoryEvent) :
    ∀ text ∈ [event.id, event.traceId, event.role, event.tier, event.lifecycle] ++
      event.workItemId.toList ++ event.agentId.toList, Json.unbroken text = true := by
  have h := event.accepted
  unfold EventFields.postInit at h
  obtain ⟨hid, h⟩ := check_bind_eq_ok.mp h
  obtain ⟨htrace, h⟩ := check_bind_eq_ok.mp h
  obtain ⟨hwork, h⟩ := check_bind_eq_ok.mp h
  obtain ⟨hagent, h⟩ := check_bind_eq_ok.mp h
  simp only [raiseWhen_bind_eq_ok, raiseWhen_eq_ok, decide_eq_false_iff_not, not_not] at h
  obtain ⟨hrole, -, -, -, htier, hlifecycle⟩ := h
  have hid : Json.unbroken event.id = true := unbroken_of_safeId (by simpa [validateId] using hid)
  have htrace : Json.unbroken event.traceId = true :=
    unbroken_of_safeId (by simpa [validateId] using htrace)
  have hrole := unbroken_of_mem (by decide) hrole
  have htier := unbroken_of_mem (by decide) htier
  have hlifecycle := unbroken_of_mem (by decide) hlifecycle
  intro text htext
  simp only [List.mem_append, List.mem_cons, List.not_mem_nil, or_false] at htext
  obtain ((rfl | rfl | rfl | rfl | rfl) | htext) | htext := htext
  · exact hid
  · exact htrace
  · exact hrole
  · exact htier
  · exact hlifecycle
  · exact unbroken_of_validateOptionalId hwork text htext
  · exact unbroken_of_validateOptionalId hagent text htext

theorem oneLine_iff_pairs (event : MemoryEvent) :
    event.OneLine ↔ ∀ field ∈ event.pairs, Json.unbroken field.1 = true ∧
      ∀ text ∈ field.2.strings, Json.unbroken text = true := by
  unfold MemoryEvent.OneLine
  simp only [EventFields.asDict, Json.strings, Json.mem_stringsOfFields]
  constructor
  · intro h field hfield
    exact ⟨h _ ⟨field, hfield, .inl rfl⟩, fun text htext => h text ⟨field, hfield, .inr htext⟩⟩
  · rintro h text ⟨field, hfield, rfl | htext⟩
    · exact (h field hfield).1
    · exact (h field hfield).2 text htext

/-- Only the free texts decide whether the record of a call stays on one line. -/
theorem oneLine_iff {call : AppendCall} {event : MemoryEvent} {sequence : Nat}
    (h : event.toEventFields = call.event sequence) :
    event.OneLine ↔ ∀ text ∈ call.texts, Json.unbroken text = true := by
  have hchecked := checked_unbroken event
  simp only [List.forall_mem_append, List.forall_mem_cons, List.not_mem_nil, false_implies,
    implies_true, and_true] at hchecked
  obtain ⟨⟨⟨hid, htrace, hrole, htier, hlifecycle⟩, hwork⟩, hagent⟩ := hchecked
  have hkeys : ["id", "trace_id", "sequence", "role", "content", "event_type", "work_item_id",
      "agent_id", "attempt", "tool_name", "source_refs", "metadata", "created_at", "tier",
      "lifecycle", "expires_at", "retrieval_enabled"].all Json.unbroken = true := by decide
  simp only [List.all_cons, List.all_nil, Bool.and_true, Bool.and_eq_true] at hkeys
  rw [oneLine_iff_pairs]
  simp only [EventFields.pairs, AppendCall.texts, List.forall_mem_append, List.forall_mem_cons,
    List.not_mem_nil, false_implies, implies_true, and_true, Json.strings, Json.strings_optStr,
    Json.strings_optInt, Json.strings_strs, hid, htrace, hrole, htier, hlifecycle, hkeys, true_and]
  rw [h] at hwork hagent ⊢
  simp only [AppendCall.event] at hwork hagent ⊢
  constructor
  · rintro ⟨hcontent, htype, -, -, htool, hrefs, hmetadata, hnow, hexpires⟩
    exact ⟨⟨⟨⟨⟨hcontent, htype, hnow⟩, htool⟩, hexpires⟩, hrefs⟩, hmetadata⟩
  · rintro ⟨⟨⟨⟨⟨hcontent, htype, hnow⟩, htool⟩, hexpires⟩, hrefs⟩, hmetadata⟩
    exact ⟨hcontent, htype, hwork, hagent, htool, hrefs, hmetadata, hnow, hexpires⟩

theorem filter_eq_self_iff {text : Option String} :
    text.filter (· ≠ "") = text ↔ text ≠ some "" := by
  cases text with
  | none => simp
  | some text => by_cases h : text = "" <;> simp [Option.filter, h]

theorem reread_eq_self_iff {event : MemoryEvent} :
    event.reread = event ↔ event.toolName ≠ some "" ∧ event.expiresAt ≠ some "" := by
  rw [← filter_eq_self_iff, ← filter_eq_self_iff]
  constructor
  · intro h
    exact ⟨congrArg (fun e : MemoryEvent => e.toolName) h,
      congrArg (fun e : MemoryEvent => e.expiresAt) h⟩
  · rintro ⟨htool, hexpires⟩
    cases event
    simp only [MemoryEvent.reread, EventFields.reread, htool, hexpires]

/-- The record of the call stays on one line and is read back as it was written. -/
def AppendCall.Kept (call : AppendCall) : Prop :=
  (∀ text ∈ call.texts, Json.unbroken text = true) ∧
    call.toolName ≠ some "" ∧ call.expiresAt ≠ some ""

theorem kept_iff {call : AppendCall} {event : MemoryEvent} {sequence : Nat}
    (h : event.toEventFields = call.event sequence) :
    call.Kept ↔ event.OneLine ∧ event.reread = event := by
  have htool : event.toolName = call.toolName := by rw [h]; rfl
  have hexpires : event.expiresAt = call.expiresAt := by rw [h]; rfl
  rw [AppendCall.Kept, ← oneLine_iff h, reread_eq_self_iff, htool, hexpires]

namespace MemoryStore

/-- Reading a trace gives back its events, numbered from one. -/
def Lossless (store : MemoryStore) (events : List MemoryEvent) : Prop :=
  ∀ traceId, safeId traceId = true →
    store.read traceId = .ok (ofTrace traceId events) ∧
      (ofTrace traceId events).map (·.sequence) =
        (List.range (ofTrace traceId events).length).map fun i => (i : Int) + 1

theorem lossless_iff_events {store : MemoryStore} {events : List MemoryEvent}
    (h : Holds store events) :
    Lossless store events ↔ ∀ event ∈ events, event.OneLine ∧ event.reread = event := by
  have hread (traceId : String) (hid : safeId traceId = true) :
      store.read traceId = .ok (ofTrace traceId events) ↔
        ∀ event ∈ ofTrace traceId events, event.OneLine ∧ event.reread = event := by
    have hvalid : validateId "trace id" traceId = .ok () := by simp [validateId, hid]
    have hself : (ofTrace traceId events).map MemoryEvent.reread = ofTrace traceId events ↔
        ∀ event ∈ ofTrace traceId events, event.reread = event := by
      conv_lhs => rhs; rw [← List.map_id (ofTrace traceId events)]
      exact List.map_inj_left
    rw [read, hvalid, ok_bind, readUnlocked_iff h, @eq_comm _ (ofTrace traceId events), hself]
    exact ⟨fun h e he => ⟨h.1 e he, h.2 e he⟩,
      fun hall => ⟨fun e he => (hall e he).1, fun e he => (hall e he).2⟩⟩
  have htrace (event : MemoryEvent) : safeId event.traceId = true := by
    have hchecked := event.accepted
    unfold EventFields.postInit at hchecked
    obtain ⟨-, hchecked⟩ := check_bind_eq_ok.mp hchecked
    obtain ⟨htrace, -⟩ := check_bind_eq_ok.mp hchecked
    simpa [validateId] using htrace
  constructor
  · intro hlossless event hevent
    exact (hread _ (htrace event)).mp (hlossless _ (htrace event)).1 event
      (List.mem_filter.mpr ⟨hevent, by simp⟩)
  · intro hall traceId hid
    exact ⟨(hread traceId hid).mpr fun e he => hall e (List.mem_of_mem_filter he),
      h.numbered traceId⟩

theorem lossless_iff {calls : List AppendCall} {events : List MemoryEvent} {store : MemoryStore}
    (h : appendAll ∅ calls = .ok (events, store)) :
    Lossless store events ↔ ∀ call ∈ calls, call.Kept := by
  obtain ⟨hevents, hholds⟩ := appendAll_eq_ok holds_empty h
  rw [List.nil_append] at hholds
  rw [lossless_iff_events hholds]
  clear h hholds
  induction hevents with
  | nil => simp
  | cons hfirst _ ih =>
    obtain ⟨sequence, hfirst⟩ := hfirst
    rw [List.forall_mem_cons, List.forall_mem_cons, ih, kept_iff hfirst]

theorem postInit_event (call : AppendCall) (n : Nat) :
    (call.event (n + 1)).postInit = (call.event 1).postInit := by
  have hfrom (m : Nat) : decide ((call.event (m + 1)).sequence < 1) = false := by
    apply decide_eq_false
    change ¬ (((m + 1 : Nat) : Int) < 1)
    omega
  unfold EventFields.postInit
  rw [hfrom n, hfrom 0]
  rfl

/-- Behind lines that can be read an event that passes its checks is appended. -/
theorem exists_append {store : MemoryStore} {log : List MemoryEvent} (h : Holds store log)
    {call : AppendCall} (hline : ∀ event ∈ ofTrace call.traceId log, event.OneLine)
    {event : MemoryEvent}
    (hfields : event.toEventFields = call.event ((ofTrace call.traceId log).length + 1)) :
    ∃ store', store.append call = .ok (event, store') := by
  have hid : validateId "trace id" call.traceId = .ok () := by
    have haccepted := event.accepted
    unfold EventFields.postInit at haccepted
    obtain ⟨-, haccepted⟩ := check_bind_eq_ok.mp haccepted
    have htrace : event.traceId = call.traceId := by rw [hfields]; rfl
    rw [← htrace]
    exact (check_bind_eq_ok.mp haccepted).1
  have hread := (readUnlocked_iff h call.traceId).mpr ⟨hline, rfl⟩
  unfold append
  rw [hid, ok_bind, hread, ok_bind, List.length_map, MemoryEvent.create_eq_ok.mpr hfields]
  exact ⟨_, rfl⟩

/-- Acceptable calls that keep to one line all succeed. -/
theorem exists_appendAll {calls : List AppendCall} {store : MemoryStore}
    {done : List MemoryEvent} (h : Holds store done) (hdone : ∀ event ∈ done, event.OneLine)
    (hcalls : ∀ call ∈ calls, (∀ text ∈ call.texts, Json.unbroken text = true) ∧
      (call.event 1).postInit = .ok ()) :
    ∃ result, store.appendAll calls = .ok result := by
  induction calls generalizing store done with
  | nil => exact ⟨_, rfl⟩
  | cons call calls ih =>
    rw [List.forall_mem_cons] at hcalls
    obtain ⟨⟨htexts, haccepted⟩, hcalls⟩ := hcalls
    let event : MemoryEvent := ⟨call.event ((ofTrace call.traceId done).length + 1),
      (postInit_event call _).trans haccepted⟩
    obtain ⟨next, happend⟩ := @exists_append _ _ h call
      (fun e he => hdone e (List.mem_of_mem_filter he)) event rfl
    obtain ⟨hevent, hnext⟩ := append_eq_ok h happend
    have hline : event.OneLine := (oneLine_iff hevent).mpr htexts
    obtain ⟨result, hresult⟩ := ih hnext
      (fun e he => by
        obtain he | he := List.mem_append.mp he
        · exact hdone e he
        · exact List.mem_singleton.mp he ▸ hline)
      hcalls
    refine ⟨(event :: result.1, result.2), ?_⟩
    rw [appendAll, happend, ok_bind]
    dsimp only
    rw [hresult]
    rfl

end MemoryStore

end ProjectOS.Memory
