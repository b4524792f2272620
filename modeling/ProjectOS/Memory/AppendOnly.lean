import ProjectOS.Memory.Lossless
import ProjectOS.Orchestration.EventLog

/-! The append-only logs of a trace, its memory and its control events, under
arbitrary texts. -/
namespace ProjectOS.Memory
open Base Orchestration

/-- Both logs give back what was written exactly if no text of theirs holds U+0085,
U+2028 or U+2029 and no memory event has an empty tool name or expiry. -/
theorem logs_lossless_iff {alnum : Char → Bool} {calls : List AppendCall}
    {events : List MemoryEvent} {store : MemoryStore}
    (h : MemoryStore.appendAll ∅ calls = .ok (events, store)) (records : List (EventCall alnum)) :
    (MemoryStore.Lossless store events ↔ ∀ call ∈ calls, call.Kept) ∧
      (EventLogs.Lossless (EventLogs.recordAll ∅ records) records ↔
        ∀ call ∈ records, call.OneLine) :=
  ⟨MemoryStore.lossless_iff h, EventLogs.lossless_iff records⟩

def asciiAlnum (c : Char) : Bool := Text.isAsciiLetter c || Text.isAsciiDigit c

def firstTrace : TraceId asciiAlnum := ⟨"tr-1", by decide⟩

/-- The answer of an agent as the memory takes it. -/
def answer (hex content : String) : AppendCall where
  traceId := "tr-1"
  role := "assistant"
  content := content
  hex := hex
  now := "2024-01-01T00:00:00+00:00"

/-- The error text of an agent as the event log takes it. -/
def failure (error : String) (h : (Json.obj [("error", .str error)]).distinct = true := by decide) :
    EventCall asciiAlnum where
  traceId := firstTrace
  workItemId := "api"
  eventType := "work_item_failed"
  details := ⟨[("error", .str error)], h⟩
  hex := "1"
  now := "2024-01-01T00:00:00+00:00"

def plainAnswers : List AppendCall := [answer "1" "done\nhere", answer "2" "\"ok\""]

theorem plainAnswers_kept : ∀ call ∈ plainAnswers, call.Kept := by
  unfold plainAnswers
  rw [List.forall_mem_cons, List.forall_mem_singleton]
  exact ⟨⟨by decide +kernel, by decide, by decide⟩, ⟨by decide +kernel, by decide, by decide⟩⟩

theorem plainAnswers_appended : ∃ result, MemoryStore.appendAll ∅ plainAnswers = .ok result := by
  refine MemoryStore.exists_appendAll MemoryStore.holds_empty (List.forall_mem_nil _) fun call hcall =>
    ⟨(plainAnswers_kept call hcall).1, ?_⟩
  have haccepted : ∀ call ∈ plainAnswers, (call.event 1).postInit = .ok () := by
    unfold plainAnswers
    rw [List.forall_mem_cons, List.forall_mem_singleton]
    decide +kernel
  exact haccepted call hcall

def plainFailure : EventCall asciiAlnum := failure "bad\r\nline"

theorem plainFailure_oneLine : ∀ call ∈ [plainFailure], call.OneLine := by
  rw [List.forall_mem_singleton]
  unfold EventCall.OneLine
  decide +kernel

theorem plainTexts_lossless : ∃ result, MemoryStore.appendAll ∅ plainAnswers = .ok result ∧
    MemoryStore.Lossless result.2 result.1 ∧
      EventLogs.Lossless (EventLogs.recordAll ∅ [plainFailure]) [plainFailure] := by
  obtain ⟨result, h⟩ := plainAnswers_appended
  have hboth := logs_lossless_iff h [plainFailure]
  exact ⟨result, h, hboth.1.mpr plainAnswers_kept, hboth.2.mpr plainFailure_oneLine⟩

/-- A line separator in an answer, and a next-line character in an error. -/
theorem lineSeparator_not_lossless : (∃ events store,
    MemoryStore.appendAll ∅ [answer "1" "a\u2028b"] = .ok (events, store) ∧
      ¬ MemoryStore.Lossless store events) ∧
    ¬ EventLogs.Lossless (EventLogs.recordAll ∅ [failure "a\u0085b"]) [failure "a\u0085b"] := by
  constructor
  · obtain ⟨⟨events, store⟩, h⟩ := exists_of_isOk (show (MemoryStore.appendAll ∅
      [answer "1" "a\u2028b"]).isOk = true by decide +kernel)
    refine ⟨events, store, h, fun hlossless => ?_⟩
    have hkept := (MemoryStore.lossless_iff h).mp hlossless _ (List.mem_singleton_self _)
    exact absurd (hkept.1 "a\u2028b" (by decide +kernel)) (by decide)
  · intro hlossless
    have hline := (EventLogs.lossless_iff _).mp hlossless _ (List.mem_singleton_self _)
    exact absurd (hline "a\u0085b" (by decide +kernel)) (by decide)

end ProjectOS.Memory
