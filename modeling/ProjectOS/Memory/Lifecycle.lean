import ProjectOS.Memory.Governance

/-! The lifecycle of memory events over all histories: what is retired stays retired. -/
namespace ProjectOS.Memory
open Base

variable {id traceId : String}

theorem mem_suppressedIds {events : List MemoryEvent} :
    id ∈ suppressedIds events ↔ ∃ event ∈ events,
      event.eventType ∈ ["memory_expired", "memory_superseded"] ∧
        event.reference "target_event_id" = some id := by
  simp only [suppressedIds, List.mem_filterMap, List.mem_filter, decide_eq_true_eq, and_assoc]

theorem mem_promotedIds {events : List MemoryEvent} :
    id ∈ promotedIds events ↔ ∃ event ∈ events,
      event.eventType = "memory_promoted" ∧ event.reference "promoted_from" = some id := by
  simp only [promotedIds, List.mem_filterMap, List.mem_filter, decide_eq_true_eq, and_assoc]

theorem suppressedIds_append (events more : List MemoryEvent) :
    suppressedIds (events ++ more) = suppressedIds events ++ suppressedIds more := by
  rw [suppressedIds, List.filter_append, List.filterMap_append]
  rfl

theorem promotedIds_append (events more : List MemoryEvent) :
    promotedIds (events ++ more) = promotedIds events ++ promotedIds more := by
  rw [promotedIds, List.filter_append, List.filterMap_append]
  rfl

theorem mem_of_mem_lastOf {α : Type} {n : Nat} {xs : List α} {x : α} (h : x ∈ lastOf n xs) :
    x ∈ xs :=
  List.mem_of_mem_drop h

theorem mem_of_mem_fitChars {maxChars : Int} {events : List MemoryEvent} {event : MemoryEvent}
    (h : event ∈ fitChars maxChars events) : event ∈ events := by
  induction events with
  | nil => exact h
  | cons first rest ih =>
    rw [fitChars] at h
    split at h
    · exact List.mem_cons_of_mem _ (ih h)
    · exact h

namespace MemoryStore

theorem ofTrace_append (traceId : String) (events more : List MemoryEvent) :
    ofTrace traceId (events ++ more) = ofTrace traceId events ++ ofTrace traceId more :=
  List.filter_append _ _

theorem mem_ofTrace {events : List MemoryEvent} {event : MemoryEvent} :
    event ∈ ofTrace traceId events ↔ event ∈ events ∧ event.traceId = traceId := by
  rw [ofTrace, List.mem_filter, decide_eq_true_eq]

theorem mem_rankedHits {events : List MemoryEvent} {ranked : List String} {limit : Int}
    {admitted : MemoryEvent → Bool} {event : MemoryEvent}
    (h : event ∈ rankedHits events ranked limit admitted) :
    event ∈ events ∧ event.id ∉ suppressedIds events := by
  obtain ⟨key, -, hkey⟩ := List.mem_filterMap.mp (List.mem_of_mem_take h)
  obtain ⟨hget, hfilter⟩ := Option.filter_eq_some_iff.mp hkey
  have hentry := Dict.mem_of_mem_ofList (Dict.get?_eq_some_iff.mp hget)
  obtain ⟨found, hfound, heq⟩ := List.mem_map.mp hentry
  obtain ⟨-, rfl⟩ := Prod.mk.inj heq
  rw [Bool.and_eq_true, Bool.not_eq_true', decide_eq_false_iff_not] at hfilter
  exact ⟨hfound, hfilter.1⟩

variable {store store' : MemoryStore} {log : List MemoryEvent}

/-- A trace that has events has a file. -/
theorem mem_keys_of_holds (h : Holds store log) {event : MemoryEvent} (hevent : event ∈ log) :
    event.traceId ∈ store.keys := by
  rw [Dict.mem_keys_iff]
  cases hfile : store.get? event.traceId with
  | some text => exact ⟨text, rfl⟩
  | none =>
    have htext := h.text event.traceId
    rw [hfile, Option.getD_none, ← String.ofList_nil, String.ofList_inj] at htext
    obtain ⟨before, rest, hsplit⟩ := List.append_of_mem (mem_ofTrace.mpr ⟨hevent, rfl⟩)
    rw [hsplit, List.map_append, List.map_cons, Json.log, List.flatMap_append, List.flatMap_cons,
      Json.line] at htext
    simp at htext

/-- What is read is what the log holds, of one trace or of all. -/
theorem mem_scope (h : Holds store log) {scope : Option String} {all : List MemoryEvent}
    (hall : store.scope scope = .ok all) (event : MemoryEvent) :
    event ∈ all ↔ ∃ raw ∈ log, (∀ traceId ∈ scope, raw.traceId = traceId) ∧ raw.reread = event := by
  have hread {traceId : String} {events : List MemoryEvent} (hread : store.read traceId = .ok events) :
      event ∈ events ↔ ∃ raw ∈ log, raw.traceId = traceId ∧ raw.reread = event := by
    obtain ⟨-, hread⟩ := check_bind_eq_ok.mp hread
    rw [((readUnlocked_iff h traceId).mp hread).2, List.mem_map]
    simp only [mem_ofTrace, and_assoc]
  cases scope with
  | some traceId =>
    rw [hread hall]
    simp
  | none =>
    unfold MemoryStore.scope allEvents at hall
    cases hlists : collect store.read (Text.sorted store.keys) with
    | error error => rw [hlists] at hall; cases hall
    | ok lists =>
      rw [hlists] at hall
      cases hall
      rw [List.mem_flatten]
      constructor
      · rintro ⟨events, hevents, hmem⟩
        obtain ⟨traceId, -, hok⟩ := mem_of_collect hlists hevents
        obtain ⟨raw, hraw, -, heq⟩ := (hread hok).mp hmem
        exact ⟨raw, hraw, nofun, heq⟩
      · rintro ⟨raw, hraw, -, heq⟩
        obtain ⟨events, hevents, hok⟩ :=
          collect_mem hlists (Text.mem_sorted.mpr (mem_keys_of_holds h hraw))
        exact ⟨events, hevents, (hread hok).mpr ⟨raw, hraw, rfl, heq⟩⟩

/-- A state event that is in the log of a trace is seen by every read that sees the trace. -/
theorem retired_of_scope (h : Holds store log) {scope : Option String} {all : List MemoryEvent}
    (hall : store.scope scope = .ok all) {event : MemoryEvent} (hevent : event ∈ all) :
    (event.id ∈ suppressedIds (ofTrace event.traceId log) → event.id ∈ suppressedIds all) ∧
      (event.id ∈ promotedIds (ofTrace event.traceId log) → event.id ∈ promotedIds all) := by
  obtain ⟨raw, -, hscope, heq⟩ := (mem_scope h hall event).mp hevent
  have htrace : raw.traceId = event.traceId := by rw [← heq]; rfl
  have hseen {state : MemoryEvent} (hstate : state ∈ ofTrace event.traceId log) :
      state.reread ∈ all := by
    obtain ⟨hlog, hid⟩ := mem_ofTrace.mp hstate
    refine (mem_scope h hall _).mpr ⟨state, hlog, fun traceId ht => ?_, rfl⟩
    rw [hid, ← htrace, hscope traceId ht]
  constructor
  · intro hretired
    obtain ⟨state, hstate, htype, htarget⟩ := mem_suppressedIds.mp hretired
    exact mem_suppressedIds.mpr ⟨state.reread, hseen hstate, htype, htarget⟩
  · intro hpromoted
    obtain ⟨state, hstate, htype, htarget⟩ := mem_promotedIds.mp hpromoted
    exact mem_promotedIds.mpr ⟨state.reread, hseen hstate, htype, htarget⟩

/-- A state event of a trace, about an event of it. -/
structure StateOf (traceId id : String) (state : MemoryEvent) : Prop where
  trace : state.traceId = traceId
  suppresses : id ∈ suppressedIds [state]
  type : state.eventType ≠ "run_summary"
  lasting : state.expiresAt = none

theorem append_holds (h : Holds store log) {call : AppendCall} {event : MemoryEvent}
    (happend : store.append call = .ok (event, store')) :
    Holds store' (log ++ [event]) ∧ ∃ sequence, event.toEventFields = call.event sequence := by
  obtain ⟨hfields, hholds⟩ := append_eq_ok h happend
  exact ⟨hholds, _, hfields⟩

theorem stateEvent_eq_ok (h : Holds store log) {eventId eventType lifecycle : String}
    (htype : eventType ∈ ["memory_expired", "memory_superseded"]) {stamp : Stamp}
    {state : MemoryEvent}
    (hstate : store.stateEvent traceId eventId eventType lifecycle stamp = .ok (state, store')) :
    Holds store' (log ++ [state]) ∧ StateOf traceId eventId state := by
  obtain ⟨events, -, hstate⟩ := bind_eq_ok.mp hstate
  split at hstate
  · rename_i hany
    obtain ⟨hholds, sequence, hfields⟩ := append_holds h hstate
    obtain ⟨target, -, hid⟩ := List.any_eq_true.mp hany
    have hsafe : safeId eventId = true := by
      have haccepted := target.accepted
      unfold EventFields.postInit at haccepted
      rw [← of_decide_eq_true hid]
      simpa [validateId] using (check_bind_eq_ok.mp haccepted).1
    have htruthy : (Json.str eventId).truthy = true := by
      simp [Json.truthy, ne_empty_of_safeId hsafe]
    have hevent : state.eventType = eventType := by rw [hfields]; rfl
    refine ⟨hholds, by rw [hfields]; rfl, ?_, ?_, by rw [hfields]; rfl⟩
    · refine mem_suppressedIds.mpr ⟨state, List.mem_singleton_self _, hevent ▸ htype, ?_⟩
      have hreference : state.reference "target_event_id" = textOrNone (.str eventId) := by
        rw [MemoryEvent.reference, hfields]
        rfl
      rw [hreference, textOrNone, if_pos htruthy]
      rfl
    · rw [hevent]
      rintro rfl
      revert htype
      decide
  · cases hstate

theorem expire_eq_ok (h : Holds store log) {eventId : String} {stamp : Stamp} {state : MemoryEvent}
    (hstate : store.expire eventId traceId stamp = .ok (state, store')) :
    Holds store' (log ++ [state]) ∧ StateOf traceId eventId state :=
  stateEvent_eq_ok h (by decide) hstate

theorem supersede_eq_ok (h : Holds store log) {eventId : String} {stamp : Stamp}
    {state : MemoryEvent} (hstate : store.supersede eventId traceId stamp = .ok (state, store')) :
    Holds store' (log ++ [state]) ∧ StateOf traceId eventId state :=
  stateEvent_eq_ok h (by decide) hstate

theorem promote_eq_ok {eventId : String} {stamp : Stamp} {result : MemoryEvent × MemoryStore}
    (h : store.promote eventId traceId stamp = .ok result) :
    ∃ events source, store.read traceId = .ok events ∧
      events.find? (fun event => event.id = eventId) = some source ∧
        source.lifecycle = "candidate" ∧ store.append (promotion source traceId stamp) = .ok result := by
  obtain ⟨events, hread, h⟩ := bind_eq_ok.mp h
  split at h
  · cases h
  · rename_i source hfind
    rw [raiseWhen_bind_eq_ok, decide_eq_false_iff_not, not_not] at h
    exact ⟨events, source, hread, hfind, h⟩

theorem appendSummary_eq_ok {status : String} {error : Option String} {stamp : Stamp}
    {result : MemoryEvent × MemoryStore}
    (h : store.appendSummary traceId status error stamp = .ok result) :
    ∃ content relevant, store.append (summary traceId status content relevant stamp) = .ok result := by
  obtain ⟨events, -, h⟩ := bind_eq_ok.mp h
  exact ⟨_, _, (raiseWhen_bind_eq_ok.mp h).2⟩

/-- What holds of every write of a loop, and what a loop that ends has written. -/
theorem forEvents_spec {P : MemoryEvent → MemoryEvent → Prop}
    {change : MemoryStore → MemoryEvent → Stamp → Result (MemoryEvent × MemoryStore)}
    (hchange : ∀ {store log event stamp state store'}, Holds store log →
      change store event stamp = .ok (state, store') →
        Holds store' (log ++ [state]) ∧ P event state)
    (h : Holds store log) (stamps : Nat → Stamp) (targets : List MemoryEvent) :
    Holds (forEvents change store stamps targets).store
        (log ++ (forEvents change store stamps targets).events) ∧
      (∀ state ∈ (forEvents change store stamps targets).events, ∃ event ∈ targets, P event state) ∧
        ((forEvents change store stamps targets).error = none → ∀ event ∈ targets,
          ∃ state ∈ (forEvents change store stamps targets).events, P event state) := by
  induction targets generalizing store log stamps with
  | nil => exact ⟨by rwa [forEvents, List.append_nil], fun _ h => absurd h List.not_mem_nil,
    fun _ _ h => absurd h List.not_mem_nil⟩
  | cons event rest ih =>
    rw [forEvents]
    cases hfirst : change store event (stamps 0) with
    | error error =>
      exact ⟨by rwa [List.append_nil], fun _ h => absurd h List.not_mem_nil, fun h => nomatch h⟩
    | ok result =>
      obtain ⟨state, store'⟩ := result
      obtain ⟨hholds, hstate⟩ := hchange h hfirst
      obtain ⟨hrest, hof, hall⟩ := ih hholds fun i => stamps (i + 1)
      rw [List.append_assoc, List.singleton_append] at hrest
      refine ⟨hrest, ?_, fun hnone => ?_⟩
      · rw [List.forall_mem_cons]
        refine ⟨⟨event, List.mem_cons_self, hstate⟩, fun later hlater => ?_⟩
        obtain ⟨target, htarget, hp⟩ := hof later hlater
        exact ⟨target, List.mem_cons_of_mem _ htarget, hp⟩
      · rw [List.forall_mem_cons]
        refine ⟨⟨state, List.mem_cons_self, hstate⟩, fun target htarget => ?_⟩
        obtain ⟨later, hlater, hp⟩ := hall hnone target htarget
        exact ⟨later, List.mem_cons_of_mem _ hlater, hp⟩

theorem written_spec {P : MemoryEvent → Prop} (h : Holds store log)
    {result : Result (MemoryEvent × MemoryStore)} (hok : ∀ {event store'},
      result = .ok (event, store') → Holds store' (log ++ [event]) ∧ P event) :
    Holds (store.written result).store (log ++ (store.written result).events) ∧
      ∀ event ∈ (store.written result).events, P event := by
  cases result with
  | error error => exact ⟨by rwa [written, List.append_nil], fun _ h => absurd h List.not_mem_nil⟩
  | ok result =>
    obtain ⟨hholds, hp⟩ := hok rfl
    exact ⟨hholds, List.forall_mem_singleton.mpr hp⟩

/-- An append keeps the type it is given. -/
theorem append_type (h : Holds store log) {call : AppendCall} {event : MemoryEvent}
    (happend : store.append call = .ok (event, store')) :
    Holds store' (log ++ [event]) ∧ event.eventType = call.eventType := by
  obtain ⟨hholds, sequence, hfields⟩ := append_holds h happend
  exact ⟨hholds, by rw [hfields]; rfl⟩

theorem cleanupExpired_spec (h : Holds store log) (scope : Option String) (limit : Int)
    (now : String) (stamps : Nat → Stamp) :
    Holds (store.cleanupExpired scope limit now stamps).store
        (log ++ (store.cleanupExpired scope limit now stamps).events) ∧
      ∀ state ∈ (store.cleanupExpired scope limit now stamps).events,
        ∃ event : MemoryEvent, StateOf event.traceId event.id state := by
  unfold cleanupExpired
  cases store.scope scope with
  | error error => exact ⟨by rwa [List.append_nil], fun _ h => absurd h List.not_mem_nil⟩
  | ok all =>
    obtain ⟨hholds, hof, -⟩ := forEvents_spec (P := fun event => StateOf event.traceId event.id)
      (fun hstore hexpire => expire_eq_ok hstore hexpire) h stamps
        ((expiredOf now all).take (window 500 limit))
    refine ⟨hholds, fun state hstate => ?_⟩
    obtain ⟨event, -, hp⟩ := hof state hstate
    exact ⟨event, hp⟩

/-- The run summaries that are neither expired nor superseded. -/
def standing (events : List MemoryEvent) : List MemoryEvent :=
  events.filter fun event => event.eventType = "run_summary" && !(event.id ∈ suppressedIds events)

theorem mem_standing {events : List MemoryEvent} {event : MemoryEvent} :
    event ∈ standing events ↔
      event ∈ events ∧ event.eventType = "run_summary" ∧ event.id ∉ suppressedIds events := by
  simp only [standing, List.mem_filter, Bool.and_eq_true, decide_eq_true_eq, Bool.not_eq_true',
    decide_eq_false_iff_not]

/-- Every summary is active, and no trace has two that stand. -/
structure OneSummary (log : List MemoryEvent) : Prop where
  active : ∀ event ∈ log, event.eventType = "run_summary" → event.lifecycle = "active"
  single : ∀ traceId, (standing (ofTrace traceId log)).length ≤ 1

theorem filter_standing (events more : List MemoryEvent) :
    (events.filter fun event => event.eventType = "run_summary" &&
      !(event.id ∈ suppressedIds (events ++ more))).Sublist (standing events) := by
  refine List.monotone_filter_right _ fun event => ?_
  rw [Bool.and_eq_true, Bool.and_eq_true, Bool.not_eq_true', Bool.not_eq_true',
    decide_eq_false_iff_not, decide_eq_false_iff_not, suppressedIds_append, List.mem_append, not_or]
  exact fun h => ⟨h.1, h.2.1⟩

/-- Events that are no summaries only make summaries fall. -/
theorem standing_append {events more : List MemoryEvent}
    (hmore : ∀ event ∈ more, event.eventType ≠ "run_summary") :
    (standing (events ++ more)).Sublist (standing events) := by
  have hnone : more.filter (fun event => event.eventType = "run_summary" &&
      !(event.id ∈ suppressedIds (events ++ more))) = [] := by
    rw [List.filter_eq_nil_iff]
    intro event hevent
    rw [Bool.and_eq_true, decide_eq_true_eq]
    exact fun h => hmore event hevent h.1
  rw [standing, List.filter_append, hnone, List.append_nil]
  exact filter_standing events more

theorem OneSummary.append (h : OneSummary log) {more : List MemoryEvent}
    (hmore : ∀ event ∈ more, event.eventType ≠ "run_summary") : OneSummary (log ++ more) := by
  constructor
  · rw [List.forall_mem_append]
    exact ⟨h.active, fun event hevent htype => absurd htype (hmore event hevent)⟩
  · intro traceId
    rw [ofTrace_append]
    have hsub : (standing (ofTrace traceId log ++ ofTrace traceId more)).Sublist _ :=
      standing_append fun event hevent => hmore event (mem_ofTrace.mp hevent).1
    exact le_trans hsub.length_le (h.single traceId)

/-- Where none stands a new summary may be added. -/
theorem OneSummary.add (h : OneSummary log) {event : MemoryEvent}
    (hactive : event.lifecycle = "active") (hnone : standing (ofTrace event.traceId log) = []) :
    OneSummary (log ++ [event]) := by
  constructor
  · rw [List.forall_mem_append, List.forall_mem_singleton]
    exact ⟨h.active, fun _ => hactive⟩
  · intro traceId
    rw [ofTrace_concat]
    by_cases htrace : event.traceId = traceId
    · subst htrace
      have hlength : (standing (ofTrace event.traceId log ++ [event])).length ≤
          (standing (ofTrace event.traceId log)).length + 1 := by
        rw [standing, List.filter_append, List.length_append]
        apply Nat.add_le_add
        · exact (filter_standing _ _).length_le
        · exact List.length_filter_le _ _
      rw [hnone, List.length_nil] at hlength
      rw [if_pos rfl]
      exact hlength
    · rw [if_neg htrace, List.append_nil]
      exact h.single traceId

theorem suppressedIds_reread (events : List MemoryEvent) :
    suppressedIds (events.map MemoryEvent.reread) = suppressedIds events := by
  rw [suppressedIds, List.filter_map, List.filterMap_map]
  rfl

theorem standing_reread (events : List MemoryEvent) :
    standing (events.map MemoryEvent.reread) = (standing events).map MemoryEvent.reread := by
  rw [standing, suppressedIds_reread, List.filter_map]
  rfl

theorem read_eq_ok (h : Holds store log) {events : List MemoryEvent}
    (hread : store.read traceId = .ok events) :
    events = (ofTrace traceId log).map MemoryEvent.reread :=
  ((readUnlocked_iff h traceId).mp (check_bind_eq_ok.mp hread).2).2

/-- Once each standing summary of a trace has its state event, none stands. -/
theorem standing_replaced {states : List MemoryEvent}
    (hstates : ∀ state ∈ states, state.traceId = traceId ∧ state.eventType ≠ "run_summary")
    (hall : ∀ event ∈ standing (ofTrace traceId log), ∃ state ∈ states,
      event.id ∈ suppressedIds [state]) : standing (ofTrace traceId (log ++ states)) = [] := by
  rw [List.eq_nil_iff_forall_not_mem]
  intro event hevent
  have hself : ofTrace traceId states = states := by
    rw [ofTrace, List.filter_eq_self]
    exact fun state hstate => decide_eq_true (hstates state hstate).1
  rw [ofTrace_append, hself] at hevent
  have hold := (standing_append fun state hstate => (hstates state hstate).2).subset hevent
  obtain ⟨state, hstate, hsuppressed⟩ := hall event hold
  obtain ⟨-, -, hfree⟩ := mem_standing.mp hevent
  obtain ⟨found, hfound, htype⟩ := mem_suppressedIds.mp hsuppressed
  rw [List.mem_singleton.mp hfound] at htype
  exact hfree (mem_suppressedIds.mpr ⟨state, List.mem_append_right _ hstate, htype⟩)

/-- `summarize_trace` leaves a sound log, and keeps to one summary. -/
theorem summarizeTrace_spec (h : Holds store log) (traceId status : String)
    (error : Option String) (stamps : Nat → Stamp) :
    Holds (store.summarizeTrace traceId status error stamps).store
        (log ++ (store.summarizeTrace traceId status error stamps).events) ∧
      (OneSummary log →
        OneSummary (log ++ (store.summarizeTrace traceId status error stamps).events)) := by
  unfold summarizeTrace
  cases hread : store.read traceId with
  | error raised =>
    refine ⟨by rwa [List.append_nil], fun hone => ?_⟩
    rwa [List.append_nil]
  | ok all =>
    obtain ⟨hholds, hof, hall⟩ := forEvents_spec (P := fun event => StateOf traceId event.id)
      (fun hstore hsupersede => supersede_eq_ok hstore hsupersede) h (fun i => stamps (i + 1))
        (activeSummaries all)
    dsimp only
    generalize forEvents (fun store event stamp => store.supersede event.id traceId stamp) store
      (fun i => stamps (i + 1)) (activeSummaries all) = replaced at hholds hof hall ⊢
    have hstates : ∀ state ∈ replaced.events,
        state.traceId = traceId ∧ state.eventType ≠ "run_summary" := by
      intro state hstate
      obtain ⟨event, -, hof⟩ := hof state hstate
      exact ⟨hof.trace, hof.type⟩
    have hkept (hone : OneSummary log) : OneSummary (log ++ replaced.events) :=
      hone.append fun state hstate => (hstates state hstate).2
    cases hfailed : replaced.error with
    | some raised => exact ⟨hholds, hkept⟩
    | none =>
      rw [if_neg (by simp)]
      cases hadded : replaced.store.appendSummary traceId status error (stamps 0) with
      | error raised =>
        dsimp only [written]
        rw [List.append_nil]
        exact ⟨hholds, hkept⟩
      | ok result =>
        obtain ⟨added, last⟩ := result
        obtain ⟨content, relevant, happend⟩ := appendSummary_eq_ok hadded
        obtain ⟨hlast, sequence, hfields⟩ := append_holds hholds happend
        rw [List.append_assoc] at hlast
        refine ⟨hlast, fun hone => ?_⟩
        have htrace : added.traceId = traceId := by rw [hfields]; rfl
        have hactive : added.lifecycle = "active" := by rw [hfields]; rfl
        have hnone : standing (ofTrace added.traceId (log ++ replaced.events)) = [] := by
          rw [htrace]
          refine standing_replaced hstates fun event hevent => ?_
          obtain ⟨hmem, htype, hfree⟩ := mem_standing.mp hevent
          have hfound : event.reread ∈ activeSummaries all := by
            rw [read_eq_ok h hread, activeSummaries, suppressedIds_reread, List.mem_filter]
            refine ⟨List.mem_map_of_mem hmem, ?_⟩
            have hlifecycle := hone.active event (mem_ofTrace.mp hmem).1 htype
            simp only [Bool.and_eq_true, decide_eq_true_eq, Bool.not_eq_true',
              decide_eq_false_iff_not]
            exact ⟨⟨htype, hlifecycle⟩, hfree⟩
          obtain ⟨state, hstate, hof⟩ := hall hfailed _ hfound
          exact ⟨state, hstate, hof.suppresses⟩
        rw [written, ← List.append_assoc]
        exact (hkept hone).add hactive hnone

theorem cleanupExpired_of_scope {scope : Option String} {all : List MemoryEvent}
    (h : store.scope scope = .ok all) (limit : Int) (now : String) (stamps : Nat → Stamp) :
    store.cleanupExpired scope limit now stamps =
      forEvents (fun store event stamp => store.expire event.id event.traceId stamp) store stamps
        ((expiredOf now all).take (window 500 limit)) := by
  rw [cleanupExpired, h]

/-- A second clean-up at the same time finds what the first left over. -/
theorem cleanupExpired_again (h : Holds store log) {scope : Option String} {limit : Int}
    {now : String} {stamps : Nat → Stamp} {all : List MemoryEvent}
    (hall : store.scope scope = .ok all)
    (hfew : (expiredOf now all).length ≤ window 500 limit)
    (hdone : (store.cleanupExpired scope limit now stamps).error = none) (again : Nat → Stamp) :
    let first := store.cleanupExpired scope limit now stamps
    (first.store.cleanupExpired scope limit now again).events = [] ∧
      (first.store.cleanupExpired scope limit now again).store = first.store := by
  obtain ⟨hholds, hstates⟩ := cleanupExpired_spec h scope limit now stamps
  have hevery : ∀ event ∈ expiredOf now all, ∃ state ∈
      (store.cleanupExpired scope limit now stamps).events,
        StateOf event.traceId event.id state := by
    rw [cleanupExpired_of_scope hall, List.take_of_length_le hfew] at hdone ⊢
    exact (forEvents_spec (P := fun event => StateOf event.traceId event.id)
      (fun hstore hexpire => expire_eq_ok hstore hexpire) h stamps (expiredOf now all)).2.2 hdone
  dsimp only
  generalize store.cleanupExpired scope limit now stamps = first at hholds hstates hevery ⊢
  cases hsecond : first.store.scope scope with
  | error error =>
    rw [cleanupExpired, hsecond]
    exact ⟨rfl, rfl⟩
  | ok later =>
    have hnone : expiredOf now later = [] := by
      rw [List.eq_nil_iff_forall_not_mem]
      intro event hevent
      rw [expiredOf, List.mem_filter, Bool.and_eq_true, Bool.and_eq_true, Bool.not_eq_true',
        decide_eq_false_iff_not] at hevent
      obtain ⟨hmem, ⟨hfree, hactive⟩, hexpired⟩ := hevent
      obtain ⟨raw, hraw, hscope, heq⟩ := (mem_scope hholds hsecond event).mp hmem
      obtain hold | hnew := List.mem_append.mp hraw
      · have hseen : event ∈ all := (mem_scope h hall event).mpr ⟨raw, hold, hscope, heq⟩
        have hfound : event ∈ expiredOf now all := by
          rw [expiredOf, List.mem_filter, Bool.and_eq_true, Bool.and_eq_true, Bool.not_eq_true',
            decide_eq_false_iff_not]
          refine ⟨hseen, ⟨fun hsuppressed => hfree ?_, hactive⟩, hexpired⟩
          obtain ⟨state, hstate, htarget⟩ := mem_suppressedIds.mp hsuppressed
          obtain ⟨rawState, hrawState, hstateScope, hstateEq⟩ := (mem_scope h hall state).mp hstate
          exact mem_suppressedIds.mpr ⟨state, (mem_scope hholds hsecond state).mpr
            ⟨rawState, List.mem_append_left _ hrawState, hstateScope, hstateEq⟩, htarget⟩
        obtain ⟨state, hstate, hof⟩ := hevery event hfound
        have hlater : state.reread ∈ later := by
          refine (mem_scope hholds hsecond _).mpr
            ⟨state, List.mem_append_right _ hstate, fun traceId ht => ?_, rfl⟩
          rw [hof.trace, ← heq]
          exact hscope traceId ht
        obtain ⟨found, hsingle, htarget⟩ := mem_suppressedIds.mp hof.suppresses
        rw [List.mem_singleton.mp hsingle] at htarget
        exact hfree (mem_suppressedIds.mpr ⟨state.reread, hlater, htarget⟩)
      · obtain ⟨target, hof⟩ := hstates raw hnew
        have hlasting : event.expiresAt = none := by
          rw [← heq]
          exact congrArg (Option.filter (· ≠ "")) hof.lasting
        rw [hlasting] at hexpired
        cases hexpired
    rw [cleanupExpired_of_scope hsecond, hnone, List.take_nil, forEvents]
    exact ⟨rfl, rfl⟩

end MemoryStore

/-- The call writes no run summary of its own. -/
def GovernanceCall.Plain : GovernanceCall → Prop
  | .append call => call.eventType ≠ "run_summary"
  | _ => True

open MemoryStore in
/-- Every call leaves a sound log, and keeps to one summary unless it appends one itself. -/
theorem MemoryStore.perform_spec {store : MemoryStore} {log : List MemoryEvent}
    (h : Holds store log) (call : GovernanceCall) :
    Holds (store.perform call).store (log ++ (store.perform call).events) ∧
      (call.Plain → OneSummary log → OneSummary (log ++ (store.perform call).events)) := by
  have hplain {written : Written} (hwritten : Holds written.store (log ++ written.events) ∧
      ∀ event ∈ written.events, event.eventType ≠ "run_summary") :
      Holds written.store (log ++ written.events) ∧
        (call.Plain → OneSummary log → OneSummary (log ++ written.events)) :=
    ⟨hwritten.1, fun _ hone => hone.append hwritten.2⟩
  have hnew {result : Result (MemoryEvent × MemoryStore)} {eventType : String}
      (htype : eventType ≠ "run_summary") (happend : ∀ {event store'}, result = .ok (event, store') →
        Holds store' (log ++ [event]) ∧ event.eventType = eventType) :=
    written_spec (P := fun event => event.eventType ≠ "run_summary") h
      fun hok => ⟨(happend hok).1, by rw [(happend hok).2]; exact htype⟩
  cases call with
  | append call =>
    have hwritten := written_spec (P := fun event => event.eventType = call.eventType) h
      fun hok => append_type h hok
    exact ⟨hwritten.1, fun hcall hone => hone.append fun event hevent => by
      rw [hwritten.2 event hevent]
      exact hcall⟩
  | proposeDurable traceId content sourceRefs metadata stamp =>
    exact hplain (@hnew _ "memory_candidate" (by decide) fun hok => append_type h hok)
  | promote eventId traceId stamp =>
    refine hplain (@hnew _ "memory_promoted" (by decide) fun hok => ?_)
    obtain ⟨events, source, -, -, -, happend⟩ := promote_eq_ok hok
    exact append_type h happend
  | expire eventId traceId stamp =>
    refine hplain (written_spec h fun hok => ?_)
    obtain ⟨hholds, hof⟩ := expire_eq_ok h hok
    exact ⟨hholds, hof.type⟩
  | supersede eventId traceId stamp =>
    refine hplain (written_spec h fun hok => ?_)
    obtain ⟨hholds, hof⟩ := supersede_eq_ok h hok
    exact ⟨hholds, hof.type⟩
  | cleanupExpired scope limit now stamps =>
    obtain ⟨hholds, hstates⟩ := cleanupExpired_spec h scope limit now stamps
    refine hplain ⟨hholds, fun state hstate => ?_⟩
    obtain ⟨event, hof⟩ := hstates state hstate
    exact hof.type
  | summarizeTrace traceId status error stamps =>
    obtain ⟨hholds, hone⟩ := summarizeTrace_spec h traceId status error stamps
    exact ⟨hholds, fun _ => hone⟩

namespace Governed

theorem after_concat (calls : List GovernanceCall) (call : GovernanceCall) :
    after (calls ++ [call]) = (after calls).apply call :=
  List.foldl_concat ..

theorem after_holds (calls : List GovernanceCall) :
    MemoryStore.Holds (after calls).store (after calls).log := by
  induction calls using List.reverseRecOn with
  | nil => exact MemoryStore.holds_empty
  | append_singleton calls call ih =>
    rw [after_concat]
    exact (MemoryStore.perform_spec ih call).1

theorem after_oneSummary {calls : List GovernanceCall} (hplain : ∀ call ∈ calls, call.Plain) :
    MemoryStore.OneSummary (after calls).log := by
  induction calls using List.reverseRecOn with
  | nil => exact ⟨fun _ h => absurd h List.not_mem_nil, fun _ => Nat.zero_le 1⟩
  | append_singleton calls call ih =>
    rw [List.forall_mem_append, List.forall_mem_singleton] at hplain
    rw [after_concat]
    exact (MemoryStore.perform_spec (after_holds calls) call).2 hplain.2 (ih hplain.1)

theorem log_after_append (calls more : List GovernanceCall) :
    ∃ added, (after (calls ++ more)).log = (after calls).log ++ added := by
  induction more using List.reverseRecOn with
  | nil => exact ⟨[], by rw [List.append_nil, List.append_nil]⟩
  | append_singleton more call ih =>
    obtain ⟨added, hadded⟩ := ih
    rw [← List.append_assoc, after_concat, apply, hadded]
    exact ⟨_, List.append_assoc ..⟩

theorem Retired.later {calls : List GovernanceCall} {traceId id : String}
    (h : (after calls).Retired traceId id) (more : List GovernanceCall) :
    (after (calls ++ more)).Retired traceId id := by
  obtain ⟨added, hadded⟩ := log_after_append calls more
  rw [Retired, hadded, MemoryStore.ofTrace_append, suppressedIds_append]
  exact List.mem_append_left _ h

theorem Promoted.later {calls : List GovernanceCall} {traceId id : String}
    (h : (after calls).Promoted traceId id) (more : List GovernanceCall) :
    (after (calls ++ more)).Promoted traceId id := by
  obtain ⟨added, hadded⟩ := log_after_append calls more
  rw [Promoted, hadded, MemoryStore.ofTrace_append, promotedIds_append]
  exact List.mem_append_left _ h

end Governed

end ProjectOS.Memory
