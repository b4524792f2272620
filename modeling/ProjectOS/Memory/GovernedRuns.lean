import ProjectOS.Memory.Lifecycle

/-! Every history of the governing calls of a project's memory. -/
namespace ProjectOS.Memory
open Base MemoryStore

/-- A read returns the event. -/
def MemoryStore.Returns (store : MemoryStore) (event : MemoryEvent) : Prop :=
  (∃ ranked traceId now tiers roles limit hits,
    store.search ranked traceId now tiers roles limit = .ok hits ∧ event ∈ hits) ∨
  (∃ ranked now limit hits, store.searchDurable ranked now limit = .ok hits ∧ event ∈ hits) ∨
  ∃ traceId now workItemId roles limit maxChars checkpoint memory,
    store.view traceId now workItemId roles limit maxChars checkpoint = .ok memory ∧
      event ∈ memory.events

namespace Governed

variable {calls : List GovernanceCall} {event : MemoryEvent}

theorem not_retired_of_scope {scope : Option String} {all : List MemoryEvent}
    (hall : (after calls).store.scope scope = .ok all) (hmem : event ∈ all)
    (hfree : event.id ∉ suppressedIds all) : ¬ (after calls).Retired event.traceId event.id :=
  fun hretired => hfree ((retired_of_scope (after_holds calls) hall hmem).1 hretired)

theorem not_retired_of_returns (h : (after calls).store.Returns event) :
    ¬ (after calls).Retired event.traceId event.id := by
  obtain ⟨ranked, traceId, now, tiers, roles, limit, hits, hsearch, hmem⟩ |
    ⟨ranked, now, limit, hits, hsearch, hmem⟩ |
      ⟨traceId, now, workItemId, roles, limit, maxChars, checkpoint, memory, hview, hmem⟩ := h
  · obtain ⟨all, hread, hhits⟩ := bind_eq_ok.mp hsearch
    cases hhits
    obtain ⟨hevent, hfree⟩ := mem_rankedHits hmem
    exact @not_retired_of_scope _ _ (some traceId) all hread hevent hfree
  · obtain ⟨all, hread, hhits⟩ := bind_eq_ok.mp hsearch
    cases hhits
    obtain ⟨hevent, hfree⟩ := mem_rankedHits hmem
    exact @not_retired_of_scope _ _ none all hread hevent hfree
  · obtain ⟨all, hread, hmemory⟩ := bind_eq_ok.mp hview
    cases hmemory
    have hselected := mem_of_mem_lastOf (List.mem_of_mem_filter (mem_of_mem_fitChars hmem))
    rw [List.mem_filter, Bool.and_eq_true, Bool.and_eq_true, Bool.and_eq_true, Bool.not_eq_true',
      decide_eq_false_iff_not] at hselected
    exact @not_retired_of_scope _ _ (some traceId) all hread hselected.1 hselected.2.1.1.1

theorem candidate_of_listed {scope : Option String} {limit : Int} {now : String}
    {listed : List MemoryEvent}
    (h : (after calls).store.durableCandidates scope limit now = .ok listed)
    (hmem : event ∈ listed) :
    ¬ (after calls).Retired event.traceId event.id ∧
      ¬ (after calls).Promoted event.traceId event.id := by
  obtain ⟨all, hall, hlisted⟩ := bind_eq_ok.mp h
  cases hlisted
  have hselected := mem_of_mem_lastOf hmem
  simp only [List.mem_filter, Bool.and_eq_true, Bool.not_eq_true', decide_eq_false_iff_not]
    at hselected
  obtain ⟨hevent, ⟨⟨-, hfree⟩, hwaiting⟩, -⟩ := hselected
  exact ⟨not_retired_of_scope hall hevent hfree, fun hpromoted =>
    hwaiting ((retired_of_scope (after_holds calls) hall hevent).2 hpromoted)⟩

theorem log_append_one {call : GovernanceCall} {result : Result (MemoryEvent × MemoryStore)}
    (hperform : (after calls).store.perform call = (after calls).store.written result)
    {store : MemoryStore} (hok : result = .ok (event, store)) :
    (after (calls ++ [call])).log = (after calls).log ++ [event] := by
  rw [after_concat, apply, hperform, hok]
  rfl

theorem retired_of_state {traceId eventId : String} {log : List MemoryEvent}
    (h : StateOf traceId eventId event) :
    eventId ∈ suppressedIds (ofTrace traceId (log ++ [event])) := by
  rw [ofTrace_concat, if_pos h.trace, suppressedIds_append]
  exact List.mem_append_right _ h.suppresses

theorem retired_of_expire {eventId traceId : String} {stamp : Stamp} {store : MemoryStore}
    (h : (after calls).store.expire eventId traceId stamp = .ok (event, store)) :
    (after (calls ++ [.expire eventId traceId stamp])).Retired traceId eventId := by
  rw [Retired, log_append_one rfl h]
  exact retired_of_state (expire_eq_ok (after_holds calls) h).2

theorem retired_of_supersede {eventId traceId : String} {stamp : Stamp} {store : MemoryStore}
    (h : (after calls).store.supersede eventId traceId stamp = .ok (event, store)) :
    (after (calls ++ [.supersede eventId traceId stamp])).Retired traceId eventId := by
  rw [Retired, log_append_one rfl h]
  exact retired_of_state (supersede_eq_ok (after_holds calls) h).2

theorem promoted_of_promote {eventId traceId : String} {stamp : Stamp} {store : MemoryStore}
    (h : (after calls).store.promote eventId traceId stamp = .ok (event, store)) :
    (after (calls ++ [.promote eventId traceId stamp])).Promoted traceId eventId := by
  rw [Promoted, log_append_one rfl h]
  obtain ⟨events, source, -, hfind, -, happend⟩ := promote_eq_ok h
  obtain ⟨-, sequence, hfields⟩ := append_holds (after_holds calls) happend
  have hid : source.id = eventId := of_decide_eq_true (List.find?_some hfind :)
  have htrace : event.traceId = traceId := by rw [hfields]; rfl
  have htype : event.eventType = "memory_promoted" := by rw [hfields]; rfl
  have htruthy : (Json.str source.id).truthy = true := by
    have haccepted := source.accepted
    unfold EventFields.postInit at haccepted
    have hsafe : safeId source.id = true := by
      simpa [validateId] using (check_bind_eq_ok.mp haccepted).1
    simp [Json.truthy, ne_empty_of_safeId hsafe]
  have hreference : event.reference "promoted_from" = textOrNone (.str source.id) := by
    rw [MemoryEvent.reference, hfields]
    rfl
  rw [ofTrace_concat, if_pos htrace, promotedIds_append]
  refine List.mem_append_right _ (mem_promotedIds.mpr ⟨event, List.mem_singleton_self _, htype, ?_⟩)
  rw [hreference, textOrNone, if_pos htruthy, hid]
  rfl

end Governed

open Governed in
/-- Only candidates are promoted; what was promoted or retired is never listed again, what was
retired is never read again; one summary stands unless more are appended; a clean-up that
found no more than its limit finds nothing when it is repeated. -/
theorem memory_governed (calls : List GovernanceCall) :
    (∀ eventId traceId stamp result,
      (after calls).store.promote eventId traceId stamp = .ok result →
        (after (calls ++ [.promote eventId traceId stamp])).Promoted traceId eventId ∧
        ∃ events source, (after calls).store.read traceId = .ok events ∧
          events.find? (fun event => event.id = eventId) = some source ∧
            source.lifecycle = "candidate") ∧
    (∀ eventId traceId stamp result,
      (after calls).store.expire eventId traceId stamp = .ok result →
        (after (calls ++ [.expire eventId traceId stamp])).Retired traceId eventId) ∧
    (∀ eventId traceId stamp result,
      (after calls).store.supersede eventId traceId stamp = .ok result →
        (after (calls ++ [.supersede eventId traceId stamp])).Retired traceId eventId) ∧
    (∀ more scope limit now listed,
      (after (calls ++ more)).store.durableCandidates scope limit now = .ok listed →
        ∀ event ∈ listed, ¬ (after calls).Retired event.traceId event.id ∧
          ¬ (after calls).Promoted event.traceId event.id) ∧
    (∀ more event, (after (calls ++ more)).store.Returns event →
      ¬ (after calls).Retired event.traceId event.id) ∧
    ((∀ call ∈ calls, call.Plain) → ∀ traceId events,
      (after calls).store.read traceId = .ok events → (standing events).length ≤ 1) ∧
    ∀ scope limit now stamps all, (after calls).store.scope scope = .ok all →
      (expiredOf now all).length ≤ window 500 limit →
        ((after calls).store.cleanupExpired scope limit now stamps).error = none → ∀ again,
          let first := (after calls).store.cleanupExpired scope limit now stamps
          (first.store.cleanupExpired scope limit now again).events = [] ∧
            (first.store.cleanupExpired scope limit now again).store = first.store := by
  refine ⟨?_, ?_, ?_, ?_, ?_, ?_, ?_⟩
  · intro eventId traceId stamp ⟨event, store⟩ h
    obtain ⟨events, source, hread, hfind, hlifecycle, -⟩ := promote_eq_ok h
    exact ⟨promoted_of_promote h, events, source, hread, hfind, hlifecycle⟩
  · intro eventId traceId stamp ⟨event, store⟩ h
    exact retired_of_expire h
  · intro eventId traceId stamp ⟨event, store⟩ h
    exact retired_of_supersede h
  · intro more scope limit now listed h event hevent
    obtain ⟨hretired, hpromoted⟩ := candidate_of_listed h hevent
    exact ⟨fun hearlier => hretired (hearlier.later more),
      fun hearlier => hpromoted (hearlier.later more)⟩
  · intro more event h hearlier
    exact not_retired_of_returns h (hearlier.later more)
  · intro hplain traceId events hread
    rw [read_eq_ok (after_holds calls) hread, standing_reread, List.length_map]
    exact (after_oneSummary hplain).single traceId
  · intro scope limit now stamps all hall hfew hdone again
    exact cleanupExpired_again (after_holds calls) hall hfew hdone again

/-! Runs on one trace. -/
section
variable {store : MemoryStore} {log : List MemoryEvent} {traceId eventId : String}
  {event : MemoryEvent} {stamp : Stamp}

theorem MemoryStore.read_ok (h : Holds store log) (hid : safeId traceId = true)
    (hline : ∀ event ∈ log, event.OneLine) :
    store.read traceId = .ok ((ofTrace traceId log).map MemoryEvent.reread) := by
  have hvalid : validateId "trace id" traceId = .ok () := by simp [validateId, hid]
  rw [read, hvalid, ok_bind]
  exact (readUnlocked_iff h traceId).mpr
    ⟨fun event hevent => hline event (List.mem_of_mem_filter hevent), rfl⟩

theorem MemoryStore.exists_promote (h : Holds store log) (hid : safeId traceId = true)
    (hline : ∀ event ∈ log, event.OneLine) {source : MemoryEvent}
    (hfind : ((ofTrace traceId log).map MemoryEvent.reread).find?
      (fun event => event.id = eventId) = some source) (hcandidate : source.lifecycle = "candidate")
    (hfields : event.toEventFields =
      (promotion source traceId stamp).event ((ofTrace traceId log).length + 1)) :
    ∃ store', store.promote eventId traceId stamp = .ok (event, store') := by
  unfold promote
  rw [read_ok h hid hline, ok_bind, hfind]
  dsimp only
  rw [hcandidate]
  exact exists_append h (fun event hevent => hline event (List.mem_of_mem_filter hevent)) hfields

theorem MemoryStore.exists_expire (h : Holds store log) (hid : safeId traceId = true)
    (hline : ∀ event ∈ log, event.OneLine)
    (hany : ((ofTrace traceId log).map MemoryEvent.reread).any
      (fun event => event.id = eventId) = true)
    (hfields : event.toEventFields = (stateChange traceId eventId "memory_expired" "expired"
      stamp).event ((ofTrace traceId log).length + 1)) :
    ∃ store', store.expire eventId traceId stamp = .ok (event, store') := by
  unfold expire stateEvent
  rw [read_ok h hid hline, ok_bind, if_pos hany]
  exact exists_append h (fun event hevent => hline event (List.mem_of_mem_filter hevent)) hfields

end

theorem Governed.holds_of_log {calls : List GovernanceCall} {log : List MemoryEvent}
    (h : (after calls).log = log) : Holds (after calls).store log :=
  h ▸ after_holds calls

theorem MemoryStore.ofTrace_reread
    (h : ∀ event ∈ log, event.traceId = traceId ∧ event.reread = event) :
    (ofTrace traceId log).map MemoryEvent.reread = log := by
  rw [ofTrace, List.filter_eq_self.mpr fun event hevent => decide_eq_true (h event hevent).1]
  conv_rhs => rw [← List.map_id log]
  exact List.map_congr_left fun event hevent => (h event hevent).2

/-- A log whose lines can be read can be continued. -/
theorem Governed.exists_after {calls : List GovernanceCall} {log : List MemoryEvent}
    (hlog : (after calls).log = log) (hline : ∀ event ∈ log, event.OneLine) (call : AppendCall)
    {event : MemoryEvent}
    (hfields : event.toEventFields = call.event ((ofTrace call.traceId log).length + 1)) :
    ∃ calls', (after calls').log = log ++ [event] := by
  subst hlog
  obtain ⟨store', happend⟩ := exists_append (after_holds calls)
    (fun event hevent => hline event (List.mem_of_mem_filter hevent)) hfields
  exact ⟨_, @log_append_one calls event (.append call) _ rfl _ happend⟩

def preference : AppendCall := proposal "tr-1" "x" [] default ⟨"1", "t"⟩

def candidate : MemoryEvent := ⟨preference.event 1, by decide +kernel⟩

def promotedOnce : MemoryEvent :=
  ⟨(promotion candidate "tr-1" ⟨"2", "t"⟩).event 2, by decide +kernel⟩

def promotedTwice : MemoryEvent :=
  ⟨(promotion candidate "tr-1" ⟨"3", "t"⟩).event 3, by decide +kernel⟩

/-- A candidate is promoted although it was promoted before. -/
theorem promoted_again : ∃ calls result,
    (Governed.after calls).store.promote "mem-1" "tr-1" ⟨"3", "t"⟩ = .ok result ∧
      (Governed.after calls).Promoted "tr-1" "mem-1" := by
  have hlines : ∀ event ∈ [candidate, promotedOnce], event.OneLine := by
    rw [List.forall_mem_cons, List.forall_mem_singleton]
    unfold MemoryEvent.OneLine
    decide +kernel
  have hone : ∀ event ∈ [candidate], event.OneLine :=
    List.forall_mem_singleton.mpr (hlines _ List.mem_cons_self)
  obtain ⟨calls, hfirst⟩ := @Governed.exists_after [] [] rfl (fun _ h => absurd h List.not_mem_nil)
    preference candidate rfl
  obtain ⟨store, hpromote⟩ := @exists_promote _ _ "tr-1" "mem-1" promotedOnce ⟨"2", "t"⟩
    (Governed.holds_of_log hfirst) (by decide) hone candidate rfl rfl rfl
  have hsecond := @Governed.log_append_one calls promotedOnce (.promote "mem-1" "tr-1" ⟨"2", "t"⟩)
    ((Governed.after calls).store.promote "mem-1" "tr-1" ⟨"2", "t"⟩) rfl store hpromote
  rw [hfirst] at hsecond
  obtain ⟨last, hagain⟩ := @exists_promote _ _ "tr-1" "mem-1" promotedTwice ⟨"3", "t"⟩
    (Governed.holds_of_log hsecond) (by decide) hlines candidate rfl rfl rfl
  exact ⟨_, _, hagain, Governed.promoted_of_promote hpromote⟩

/-- A summary that is appended as a message. -/
def digest (hex : String) : AppendCall where
  traceId := "tr-1"
  role := "control"
  eventType := "run_summary"
  content := "x"
  hex := hex
  now := "t"

def digested : MemoryEvent := ⟨(digest "1").event 1, by decide +kernel⟩

def digestedAgain : MemoryEvent := ⟨(digest "2").event 2, by decide +kernel⟩

/-- Two summaries stand. -/
theorem summaries_stand : ∃ calls events,
    (Governed.after calls).store.read "tr-1" = .ok events ∧ (standing events).length = 2 := by
  have hlines : ∀ event ∈ [digested, digestedAgain], event.OneLine := by
    rw [List.forall_mem_cons, List.forall_mem_singleton]
    unfold MemoryEvent.OneLine
    decide +kernel
  have hone : ∀ event ∈ [digested], event.OneLine :=
    List.forall_mem_singleton.mpr (hlines _ List.mem_cons_self)
  obtain ⟨first, hfirst⟩ := @Governed.exists_after [] [] rfl (fun _ h => absurd h List.not_mem_nil)
    (digest "1") digested rfl
  obtain ⟨calls, hlog⟩ := @Governed.exists_after _ _ hfirst hone (digest "2") digestedAgain rfl
  exact ⟨calls, _, read_ok (Governed.holds_of_log hlog) (by decide) hlines, by decide +kernel⟩

/-- A message that has expired. -/
def stale (hex : String) : AppendCall where
  traceId := "tr-1"
  role := "assistant"
  content := "x"
  expiresAt := some "2000"
  hex := hex
  now := "t"

def staleFirst : MemoryEvent := ⟨(stale "1").event 1, by decide +kernel⟩

def staleSecond : MemoryEvent := ⟨(stale "2").event 2, by decide +kernel⟩

/-- The state event of an expired message. -/
def expiry (eventId hex : String) : AppendCall :=
  stateChange "tr-1" eventId "memory_expired" "expired" ⟨hex, "t"⟩

def expiredFirst : MemoryEvent := ⟨(expiry "mem-1" "3").event 3, by decide +kernel⟩

def expiredSecond : MemoryEvent := ⟨(expiry "mem-2" "4").event 4, by decide +kernel⟩

/-- A clean-up that handles one event. -/
theorem cleanup_one {store store' : MemoryStore} {all rest : List MemoryEvent}
    {event state : MemoryEvent} {stamp : Stamp} (hread : store.read "tr-1" = .ok all)
    (hfound : expiredOf "2024" all = event :: rest)
    (hexpire : store.expire event.id event.traceId stamp = .ok (state, store')) :
    store.cleanupExpired (some "tr-1") 1 "2024" (fun _ => stamp) = ⟨store', [state], none⟩ := by
  have hwindow : window 500 1 = 1 := rfl
  rw [@cleanupExpired_of_scope _ (some "tr-1") _ hread, hfound, hwindow, List.take_succ_cons,
    List.take_zero, forEvents, hexpire]
  rfl

/-- A clean-up of one event at a time goes on when it is repeated. -/
theorem cleanup_goes_on : ∃ calls,
    let first := (Governed.after calls).store.cleanupExpired (some "tr-1") 1 "2024"
      fun _ => ⟨"3", "t"⟩
    first.error = none ∧ (first.store.cleanupExpired (some "tr-1") 1 "2024"
      fun _ => ⟨"4", "t"⟩).events = [expiredSecond] := by
  have hlines : ∀ event ∈ [staleFirst, staleSecond, expiredFirst], event.OneLine := by
    rw [List.forall_mem_cons, List.forall_mem_cons, List.forall_mem_singleton]
    unfold MemoryEvent.OneLine
    decide +kernel
  have htwo : ∀ event ∈ [staleFirst, staleSecond], event.OneLine :=
    fun event h => hlines event (List.mem_append_left [expiredFirst] h)
  have hone : ∀ event ∈ [staleFirst], event.OneLine :=
    fun event h => htwo event (List.mem_append_left [staleSecond] h)
  obtain ⟨first, hfirst⟩ := @Governed.exists_after [] [] rfl (fun _ h => absurd h List.not_mem_nil)
    (stale "1") staleFirst rfl
  obtain ⟨calls, hlog⟩ := @Governed.exists_after _ _ hfirst hone (stale "2") staleSecond rfl
  have hholds : Holds (Governed.after calls).store [staleFirst, staleSecond] :=
    Governed.holds_of_log hlog
  obtain ⟨store, hexpire⟩ := @exists_expire _ _ "tr-1" "mem-1" expiredFirst ⟨"3", "t"⟩ hholds
    (by decide) htwo rfl rfl
  have hafter : Holds store [staleFirst, staleSecond, expiredFirst] :=
    (expire_eq_ok hholds hexpire).1
  obtain ⟨last, hagain⟩ := @exists_expire _ _ "tr-1" "mem-2" expiredSecond ⟨"4", "t"⟩ hafter
    (by decide) hlines rfl rfl
  have htrace : ∀ event ∈ [staleFirst, staleSecond, expiredFirst],
      event.traceId = "tr-1" ∧ event.reread = event := by
    simp only [List.forall_mem_cons, reread_eq_self_iff]
    decide +kernel
  have hread := @read_ok _ _ "tr-1" hholds (by decide) htwo
  have hreadAgain := @read_ok _ _ "tr-1" hafter (by decide) hlines
  rw [ofTrace_reread fun event h => htrace event (List.mem_append_left [expiredFirst] h)] at hread
  rw [ofTrace_reread htrace] at hreadAgain
  have hstale : expiredOf "2024" [staleFirst, staleSecond] = [staleFirst, staleSecond] := by
    rw [expiredOf, List.filter_eq_self]
    decide +kernel
  have hleft : expiredOf "2024" [staleFirst, staleSecond, expiredFirst] = [staleSecond] := by
    rw [expiredOf, List.filter_cons_of_neg (by decide +kernel),
      List.filter_cons_of_pos (by decide +kernel), List.filter_cons_of_neg (by decide +kernel)]
    rfl
  refine ⟨calls, ?_⟩
  rw [cleanup_one hread hstale hexpire]
  dsimp only
  rw [cleanup_one hreadAgain hleft hagain]
  exact ⟨rfl, rfl⟩

/-- A promotion finds its candidate in the queue. -/
def PromotesListed : Prop :=
  ∀ calls eventId traceId stamp result,
    (Governed.after calls).store.promote eventId traceId stamp = .ok result → ∀ now,
      ∃ limit listed, (Governed.after calls).store.durableCandidates (some traceId) limit now =
        .ok listed ∧ ∃ event ∈ listed, event.id = eventId

/-- A candidate can be promoted twice, two summaries can stand, and a clean-up can go on. -/
theorem governance_not_sound :
    ¬ PromotesListed ∧
    (¬ ∀ calls traceId events, (Governed.after calls).store.read traceId = .ok events →
      (standing events).length ≤ 1) ∧
    ¬ ∀ calls scope limit now stamps,
      let first := (Governed.after calls).store.cleanupExpired scope limit now stamps
      first.error = none → ∀ again,
        (first.store.cleanupExpired scope limit now again).events = [] := by
  refine ⟨fun h => ?_, fun h => ?_, fun h => ?_⟩
  · obtain ⟨calls, result, hpromote, hpromoted⟩ := promoted_again
    obtain ⟨limit, listed, hlisted, event, hevent, hid⟩ := h _ _ _ _ _ hpromote "t"
    obtain ⟨all, hall, hmem⟩ := bind_eq_ok.mp hlisted
    cases hmem
    obtain ⟨raw, -, hscope, heq⟩ := (mem_scope (Governed.after_holds calls) hall event).mp
      (List.mem_of_mem_filter (mem_of_mem_lastOf hevent))
    have htrace : event.traceId = "tr-1" := by
      rw [← heq]
      exact hscope "tr-1" rfl
    have hwaiting := (Governed.candidate_of_listed hlisted hevent).2
    rw [hid, htrace] at hwaiting
    exact hwaiting hpromoted
  · obtain ⟨calls, events, hread, htwo⟩ := summaries_stand
    have hone := h calls "tr-1" events hread
    omega
  · obtain ⟨calls, hdone, hagain⟩ := cleanup_goes_on
    rw [h calls _ _ _ _ hdone] at hagain
    cases hagain

end ProjectOS.Memory
