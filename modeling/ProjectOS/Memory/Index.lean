import Mathlib.Algebra.Order.Field.Rat
import Mathlib.Tactic.FieldSimp
import Mathlib.Tactic.Positivity
import ProjectOS.Memory.Lifecycle
import ProjectOS.Base.Pattern

/-! The lexical index over the memory of a project: a table of the events, searched by FTS5 and,
where that finds nothing, by a substring. -/
namespace ProjectOS.Memory
open Base

/-- What SQLite decides: whether a content matches an FTS5 expression or a LIKE pattern, and the
order `bm25(memory_events_fts), e.sequence DESC` of the rows that match. -/
structure Fts where
  isMatch : String → String → Bool
  like : String → String → Bool
  order : String → List MemoryEvent → List MemoryEvent
  order_perm : ∀ expression rows, (order expression rows).Perm rows

/-- The rows of `memory_events`; `memory_events_fts` has the same ids, traces and contents. -/
abbrev MemoryIndex := List MemoryEvent

/-- `_TOKEN`, a word character or one of the CJK block. -/
def isTokenChar (w : WordChars) (c : Char) : Bool :=
  w.isWord c || (0x4e00 ≤ c.toNat && c.toNat ≤ 0x9fff)

/-- `_fts_query`: the first tokens, quoted. -/
def ftsQuery (w : WordChars) (query : String) : String :=
  let tokens := ((Text.strip query).toList.splitOnP (!isTokenChar w ·)).filter (· ≠ [])
  Text.join " OR " ((tokens.take 24).map fun token =>
    String.ofList (Text.quotationMark :: (token ++ [Text.quotationMark])))

/-- What a search asks for. -/
structure MemoryQuery where
  query : String
  traceId : String
  workItemId : Option String := none
  tiers : List String := ["working", "episodic", "durable", "raw"]
  roles : List String := ["user", "planner", "assistant", "tool", "control"]
  limit : Int := 20

/-- The conditions that both queries have: `e.retrieval_enabled = 1`, `e.lifecycle = 'active'` and
`e.expires_at IS NULL OR e.expires_at > datetime('now')`. -/
def live (sqlNow : String) (event : MemoryEvent) : Bool :=
  event.retrievalEnabled && event.lifecycle = "active" && event.expiresAt.all (sqlNow < ·)

def inWorkItem (workItemId : Option String) (event : MemoryEvent) : Bool :=
  workItemId.all (some · = event.workItemId)

namespace MemoryIndex

/-- `INSERT OR REPLACE`, by the event id. -/
def put (index : MemoryIndex) (event : MemoryEvent) : MemoryIndex :=
  index.filter (·.id ≠ event.id) ++ [event]

def sync (index : MemoryIndex) (events : List MemoryEvent) : MemoryIndex := events.foldl put index

section Search
variable (fts : Fts) (w : WordChars) (sqlNow : String) (index : MemoryIndex)

/-- The rows of the FTS5 query before its limit. -/
def matched (ask : MemoryQuery) : List MemoryEvent :=
  let expression := ftsQuery w ask.query
  fts.order expression (index.filter fun row =>
    fts.isMatch expression row.content && row.traceId = ask.traceId && live sqlNow row &&
      inWorkItem ask.workItemId row)

/-- The rows of the LIKE query before its limit; it does not ask for the work item. -/
def similar (ask : MemoryQuery) : List MemoryEvent :=
  (index.filter fun row =>
    row.traceId = ask.traceId && live sqlNow row &&
      fts.like ("%" ++ Text.strip ask.query ++ "%") row.content).mergeSort
    fun a b => b.sequence ≤ a.sequence

/-- `MemoryIndex.search`. -/
def search (ask : MemoryQuery) (limit : Int) : List String :=
  if ftsQuery w ask.query = "" then []
  else
    let rows := (index.matched fts w sqlNow ask).take (window 100 limit)
    let rows :=
      if rows = [] then (index.similar fts sqlNow ask).take (window 100 limit) else rows
    rows.map (·.id)

end Search

end MemoryIndex

/-- `0.65 * lexical_rank`, with no vector store. -/
def lexicalScore (rank : Nat) : ℚ := 65 / 100 * (1 / ((rank : ℚ) + 1))

/-- The ids by falling score. The scores differ, so that the sequence never decides. -/
def rankedIds (lexicalIds : List String) : List String :=
  (lexicalIds.zipIdx.mergeSort fun a b => lexicalScore b.2 ≤ lexicalScore a.2).map Prod.fst

/-- `MemoryStore.search` over the lexical index alone. -/
def MemoryStore.recall (fts : Fts) (w : WordChars) (sqlNow now : String) (store : MemoryStore)
    (index : MemoryIndex) (ask : MemoryQuery) : Result (List MemoryEvent) := do
  let events ← store.read ask.traceId
  let lexicalIds := (index.sync events).search fts w sqlNow ask (ask.limit * 3)
  store.search (rankedIds lexicalIds) ask.traceId now ask.tiers ask.roles ask.limit

/-- The stores and indexes that a history leaves: each append takes a fresh id and puts its event
into the index, and each read of a trace puts its events there again. -/
inductive Reachable : MemoryStore → MemoryIndex → List MemoryEvent → Prop where
  | start : Reachable ∅ [] []
  | append {store store' : MemoryStore} {index : MemoryIndex} {log : List MemoryEvent}
      {call : AppendCall} {event : MemoryEvent} (before : Reachable store index log)
      (appended : store.append call = .ok (event, store'))
      (fresh : event.id ∉ log.map (·.id)) :
      Reachable store' (index.sync [event]) (log ++ [event])
  | read {store : MemoryStore} {index : MemoryIndex} {log events : List MemoryEvent}
      {traceId : String} (before : Reachable store index log)
      (found : store.read traceId = .ok events) : Reachable store (index.sync events) log

/-! What the index holds of a trace is what is read from its log. -/

namespace MemoryIndex

theorem sync_eq {events : List MemoryEvent} (h : (events.map (·.id)).Nodup) (index : MemoryIndex) :
    index.sync events = index.filter (fun row => row.id ∉ events.map (·.id)) ++ events := by
  induction events generalizing index with
  | nil => simp [sync]
  | cons event events ih =>
    rw [List.map_cons, List.nodup_cons] at h
    have hsync : index.sync (event :: events) = (index.put event).sync events := rfl
    rw [hsync, ih h.2, put, List.filter_append, List.filter_filter]
    have hevent : [event].filter (fun row => row.id ∉ events.map (·.id)) = [event] := by
      simpa using h.1
    rw [hevent, List.append_assoc, List.singleton_append]
    congr 1
    apply List.filter_congr
    intro row _
    simp only [List.map_cons, List.mem_cons, not_or, Bool.decide_and, Bool.and_comm]

end MemoryIndex

/-- What holds of every reachable store and index. -/
structure Indexed (store : MemoryStore) (index : MemoryIndex) (log : List MemoryEvent) : Prop where
  holds : MemoryStore.Holds store log
  distinct : (log.map (·.id)).Nodup
  known : ∀ row ∈ index, ∃ event ∈ log, row.id = event.id ∧ row.traceId = event.traceId

theorem nodup_ofTrace {log : List MemoryEvent} (h : (log.map (·.id)).Nodup) (traceId : String) :
    ((MemoryStore.ofTrace traceId log).map (·.id)).Nodup :=
  h.sublist (List.filter_sublist.map _)

theorem ids_reread (events : List MemoryEvent) :
    (events.map MemoryEvent.reread).map (·.id) = events.map (·.id) := by
  rw [List.map_map]
  rfl

theorem Reachable.indexed {store : MemoryStore} {index : MemoryIndex} {log : List MemoryEvent}
    (h : Reachable store index log) : Indexed store index log := by
  induction h with
  | start => exact ⟨MemoryStore.holds_empty, List.nodup_nil, fun row hrow => nomatch hrow⟩
  | @append store store' index log call event before appended fresh ih =>
    refine ⟨(MemoryStore.append_eq_ok ih.holds appended).2, ?_, ?_⟩
    · rw [List.map_append, List.nodup_append]
      refine ⟨ih.distinct, List.nodup_singleton _, ?_⟩
      intro id hid other hother
      rw [List.map_singleton, List.mem_singleton] at hother
      rintro rfl
      exact fresh (hother ▸ hid)
    · intro row hrow
      have hsingle : ([event].map (·.id)).Nodup := List.nodup_singleton _
      rw [MemoryIndex.sync_eq hsingle, List.mem_append] at hrow
      rcases hrow with hrow | hrow
      · obtain ⟨found, hfound, hsame⟩ := ih.known row (List.mem_filter.mp hrow).1
        exact ⟨found, List.mem_append_left _ hfound, hsame⟩
      · rw [List.mem_singleton] at hrow
        exact ⟨event, by simp, hrow ▸ ⟨rfl, rfl⟩⟩
  | @read store index log events traceId before found ih =>
    obtain rfl := MemoryStore.read_eq_ok ih.holds found
    refine ⟨ih.holds, ih.distinct, ?_⟩
    intro row hrow
    rw [MemoryIndex.sync_eq (by rw [ids_reread]; exact nodup_ofTrace ih.distinct traceId),
      List.mem_append] at hrow
    rcases hrow with hrow | hrow
    · exact ih.known row (List.mem_filter.mp hrow).1
    · obtain ⟨event, hevent, rfl⟩ := List.mem_map.mp hrow
      exact ⟨event, (MemoryStore.mem_ofTrace.mp hevent).1, rfl, rfl⟩

end ProjectOS.Memory
