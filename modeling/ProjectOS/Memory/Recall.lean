import ProjectOS.Memory.Index

/-! What a search of the memory of a trace returns, against the events that it should return. -/
namespace ProjectOS.Memory
open Base MemoryStore

/-- Scores fall with the rank. -/
theorem lexicalScore_le {a b : Nat} (h : a ≤ b) : lexicalScore b ≤ lexicalScore a := by
  unfold lexicalScore
  have hcast : (a : ℚ) ≤ b := by exact_mod_cast h
  gcongr

/-- With no vector store the order of the index is kept. -/
theorem rankedIds_eq (lexicalIds : List String) : rankedIds lexicalIds = lexicalIds := by
  have hpairwise : lexicalIds.zipIdx.Pairwise fun a b => lexicalScore b.2 ≤ lexicalScore a.2 := by
    rw [List.pairwise_iff_getElem]
    intro i j hi hj hlt
    rw [List.getElem_zipIdx, List.getElem_zipIdx]
    exact lexicalScore_le (by simpa using hlt.le)
  unfold rankedIds
  rw [List.mergeSort_of_pairwise (by simpa using hpairwise)]
  exact List.zipIdx_map_fst ..

section Rows
variable {store : MemoryStore} {index : MemoryIndex} {log : List MemoryEvent} {traceId : String}

/-- The rows of a trace are its events, once they have been put into the index. -/
theorem filter_sync (h : Indexed store index log) {p : MemoryEvent → Bool}
    (hp : ∀ row, p row = true → row.traceId = traceId) :
    (index.sync ((ofTrace traceId log).map MemoryEvent.reread)).filter p =
      ((ofTrace traceId log).map MemoryEvent.reread).filter p := by
  have hnodup := nodup_ofTrace h.distinct traceId
  rw [MemoryIndex.sync_eq (by rw [ids_reread]; exact hnodup), List.filter_append, List.filter_filter]
  have hnone : index.filter (fun row => p row &&
      decide (row.id ∉ ((ofTrace traceId log).map MemoryEvent.reread).map (·.id))) = [] := by
    rw [List.filter_eq_nil_iff]
    intro row hrow hboth
    rw [Bool.and_eq_true, decide_eq_true_eq, ids_reread] at hboth
    obtain ⟨event, hevent, hid, htrace⟩ := h.known row hrow
    apply hboth.2
    rw [hid]
    exact List.mem_map_of_mem (mem_ofTrace.mpr ⟨hevent, htrace.symm.trans (hp row hboth.1)⟩)
  rw [hnone, List.nil_append]

end Rows

/-- The rows that a ranking of distinct events admits, in its order. -/
theorem rankedHits_ids {events rows : List MemoryEvent} (hdistinct : (events.map (·.id)).Nodup)
    (hrows : ∀ row ∈ rows, row ∈ events) (limit : Int) (admitted : MemoryEvent → Bool) :
    rankedHits events (rows.map (·.id)) limit admitted =
      (rows.filter fun row => !(row.id ∈ suppressedIds events) && admitted row).take
        (window 100 limit) := by
  have hget (row : MemoryEvent) (hrow : row ∈ events) :
      (Dict.ofList (events.map fun event => (event.id, event))).get? row.id = some row := by
    rw [Dict.get?_eq_some_iff, Dict.entries_ofList]
    · exact List.mem_map_of_mem hrow
    · rw [List.map_map]
      exact hdistinct
  unfold rankedHits
  dsimp only
  congr 1
  induction rows with
  | nil => rfl
  | cons row rows ih =>
    rw [List.forall_mem_cons] at hrows
    have hrest := ih hrows.2
    rw [List.map_cons, List.filterMap_cons, hget row hrows.1, hrest]
    cases hkeep : !(decide (row.id ∈ suppressedIds events)) && admitted row <;>
      simp [Option.filter, hkeep]

/-- What stands early in a filtered list, by its place in the whole list. -/
theorem mem_take_filter_iff {α : Type} {p : α → Bool} {xs : List α} {n : Nat} {x : α} :
    x ∈ (xs.filter p).take n ↔ ∃ before after, xs = before ++ x :: after ∧ p x = true ∧
      (before.filter p).length < n := by
  constructor
  · intro h
    induction xs generalizing n with
    | nil => simp at h
    | cons y ys ih =>
      by_cases hy : p y = true
      · rw [List.filter_cons_of_pos hy] at h
        cases n with
        | zero => simp at h
        | succ n =>
          rw [List.take_succ_cons] at h
          rcases List.mem_cons.mp h with rfl | h
          · exact ⟨[], ys, rfl, hy, Nat.succ_pos n⟩
          · obtain ⟨before, after, rfl, hp, hlt⟩ := ih h
            refine ⟨y :: before, after, rfl, hp, ?_⟩
            rw [List.filter_cons_of_pos hy]
            exact Nat.succ_lt_succ hlt
      · rw [List.filter_cons_of_neg hy] at h
        obtain ⟨before, after, rfl, hp, hlt⟩ := ih h
        refine ⟨y :: before, after, rfl, hp, ?_⟩
        rw [List.filter_cons_of_neg hy]
        exact hlt
  · rintro ⟨before, after, rfl, hp, hlt⟩
    rw [List.filter_append, List.filter_cons_of_pos hp]
    rw [List.take_append]
    apply List.mem_append_right
    obtain ⟨k, hk⟩ := Nat.exists_eq_succ_of_ne_zero (Nat.sub_ne_zero_of_lt hlt)
    rw [hk, List.take_succ_cons]
    exact List.mem_cons_self

section Candidates
variable (fts : Fts) (w : WordChars) (sqlNow : String)

/-- The rows that the index ranks: those of the FTS5 query or else those of the LIKE query, and
none for a query without tokens. -/
def MemoryIndex.candidates (index : MemoryIndex) (ask : MemoryQuery) : List MemoryEvent :=
  if ftsQuery w ask.query = "" then []
  else if index.matched fts w sqlNow ask = [] then index.similar fts sqlNow ask
  else index.matched fts w sqlNow ask

variable {fts w sqlNow}

theorem window_pos (most limit : Int) : window most limit ≠ 0 := by
  unfold window
  omega

theorem MemoryIndex.search_eq (index : MemoryIndex) (ask : MemoryQuery) (limit : Int) :
    index.search fts w sqlNow ask limit =
      ((index.candidates fts w sqlNow ask).take (window 100 limit)).map (·.id) := by
  unfold MemoryIndex.search MemoryIndex.candidates
  by_cases htokens : ftsQuery w ask.query = ""
  · rw [if_pos htokens, if_pos htokens, List.take_nil, List.map_nil]
  · rw [if_neg htokens, if_neg htokens]
    by_cases hnone : index.matched fts w sqlNow ask = []
    · simp only [hnone, List.take_nil, if_true]
    · have htake : (index.matched fts w sqlNow ask).take (window 100 limit) ≠ [] := by
        rw [Ne, List.take_eq_nil_iff, not_or]
        exact ⟨window_pos 100 limit, hnone⟩
      simp only [if_neg hnone, if_neg htake]

variable {store : MemoryStore} {index : MemoryIndex} {log : List MemoryEvent}

/-- The candidates are computed from the events of the trace alone. -/
theorem candidates_sync (h : Indexed store index log) (ask : MemoryQuery) :
    (index.sync ((ofTrace ask.traceId log).map MemoryEvent.reread)).candidates fts w sqlNow ask =
      MemoryIndex.candidates fts w sqlNow ((ofTrace ask.traceId log).map MemoryEvent.reread) ask := by
  have hmatched : (index.sync ((ofTrace ask.traceId log).map MemoryEvent.reread)).matched fts w
      sqlNow ask =
      MemoryIndex.matched fts w sqlNow ((ofTrace ask.traceId log).map MemoryEvent.reread) ask := by
    dsimp only [MemoryIndex.matched]
    rw [filter_sync h]
    intro row hrow
    simp only [Bool.and_eq_true, decide_eq_true_eq] at hrow
    exact hrow.1.1.2
  have hsimilar : (index.sync ((ofTrace ask.traceId log).map MemoryEvent.reread)).similar fts
      sqlNow ask =
      MemoryIndex.similar fts sqlNow ((ofTrace ask.traceId log).map MemoryEvent.reread) ask := by
    dsimp only [MemoryIndex.similar]
    rw [filter_sync h]
    intro row hrow
    simp only [Bool.and_eq_true, decide_eq_true_eq] at hrow
    exact hrow.1.1
  unfold MemoryIndex.candidates
  rw [hmatched, hsimilar]

end Candidates

section Exactness
variable (fts : Fts) (w : WordChars) (sqlNow now : String) (ask : MemoryQuery)
  (events : List MemoryEvent)

/-- The event matches the query: by MATCH, or by LIKE where MATCH finds no candidate. -/
def relevant (event : MemoryEvent) : Bool :=
  if ftsQuery w ask.query = "" ∨ MemoryIndex.matched fts w sqlNow events ask = [] then
    fts.like ("%" ++ Text.strip ask.query ++ "%") event.content
  else fts.isMatch (ftsQuery w ask.query) event.content

/-- The events of the trace that a search is to find. -/
def wanted : List MemoryEvent := events.filter fun event =>
  inWorkItem ask.workItemId event && relevant fts w sqlNow ask events event &&
    isRetrievable now event && !(event.id ∈ suppressedIds events) &&
    event.tier ∈ ask.tiers && event.role ∈ ask.roles

/-- Only wanted events, none of them twice, and as many as the limit allows. -/
structure Exact (found : List MemoryEvent) : Prop where
  sound : ∀ event ∈ found, event ∈ wanted fts w sqlNow now ask events
  distinct : (found.map (·.id)).Nodup
  count : found.length = min ask.limit.toNat (wanted fts w sqlNow now ask events).length

/-- The checks of the store on a candidate. -/
def passes (event : MemoryEvent) : Bool :=
  !(event.id ∈ suppressedIds events) && (event.tier ∈ ask.tiers && event.role ∈ ask.roles &&
    event.retrievalEnabled && event.lifecycle = "active" && event.expiresAt.all (now < ·))

/-- The candidates that the index hands out. -/
def front : List MemoryEvent :=
  (MemoryIndex.candidates fts w sqlNow events ask).take (min (3 * ask.limit.toNat) 100)

/-- When a search is exact. No event of another work item and no checkpoint is among the candidates
that pass with fewer than `limit` others before them, and enough candidates pass. -/
structure Reaches : Prop where
  own : ∀ before event after, front fts w sqlNow ask events = before ++ event :: after →
    passes now ask events event = true →
    (before.filter (passes now ask events)).length < ask.limit.toNat →
      inWorkItem ask.workItemId event = true ∧ event.eventType ≠ "checkpoint"
  enough : min ask.limit.toNat (wanted fts w sqlNow now ask events).length ≤
    ((front fts w sqlNow ask events).filter (passes now ask events)).length

end Exactness

section Exactness
variable {fts : Fts} {w : WordChars} {sqlNow now : String} {ask : MemoryQuery}
  {events : List MemoryEvent}

theorem matched_perm : (MemoryIndex.matched fts w sqlNow events ask).Perm
    (events.filter fun row => fts.isMatch (ftsQuery w ask.query) row.content &&
      row.traceId = ask.traceId && live sqlNow row && inWorkItem ask.workItemId row) :=
  fts.order_perm _ _

theorem similar_perm : (MemoryIndex.similar fts sqlNow events ask).Perm
    (events.filter fun row => row.traceId = ask.traceId && live sqlNow row &&
      fts.like ("%" ++ Text.strip ask.query ++ "%") row.content) :=
  List.mergeSort_perm ..

/-- A candidate is an event that matches. -/
theorem mem_of_candidate {event : MemoryEvent}
    (h : event ∈ MemoryIndex.candidates fts w sqlNow events ask) :
    event ∈ events ∧ relevant fts w sqlNow ask events event = true := by
  unfold MemoryIndex.candidates at h
  unfold relevant
  by_cases htokens : ftsQuery w ask.query = ""
  · rw [if_pos htokens] at h
    cases h
  · rw [if_neg htokens] at h
    by_cases hnone : MemoryIndex.matched fts w sqlNow events ask = []
    · rw [if_pos hnone, similar_perm.mem_iff, List.mem_filter] at h
      rw [if_pos (.inr hnone)]
      exact ⟨h.1, (Bool.and_eq_true_iff.mp h.2).2⟩
    · rw [if_neg hnone, matched_perm.mem_iff, List.mem_filter] at h
      rw [if_neg (not_or.mpr ⟨htokens, hnone⟩)]
      simp only [Bool.and_eq_true] at h
      exact ⟨h.1, h.2.1.1.1⟩

theorem nodup_candidates (h : (events.map (·.id)).Nodup) :
    ((MemoryIndex.candidates fts w sqlNow events ask).map (·.id)).Nodup := by
  unfold MemoryIndex.candidates
  split_ifs
  · exact List.nodup_nil
  · rw [(similar_perm.map _).nodup_iff]
    exact h.sublist (List.filter_sublist.map _)
  · rw [(matched_perm.map _).nodup_iff]
    exact h.sublist (List.filter_sublist.map _)

/-- What passes is wanted, up to the work item and the checkpoints. -/
theorem mem_wanted_iff {event : MemoryEvent}
    (h : event ∈ MemoryIndex.candidates fts w sqlNow events ask)
    (hpass : passes now ask events event = true) :
    event ∈ wanted fts w sqlNow now ask events ↔
      inWorkItem ask.workItemId event = true ∧ event.eventType ≠ "checkpoint" := by
  obtain ⟨hmem, hrelevant⟩ := mem_of_candidate h
  simp only [passes, Bool.and_eq_true, Bool.not_eq_true', decide_eq_false_iff_not,
    decide_eq_true_eq] at hpass
  obtain ⟨hsuppressed, ⟨⟨⟨htier, hrole⟩, henabled⟩, hactive⟩, hexpires⟩ := hpass
  have hretrievable : isRetrievable now event = true ↔ event.eventType ≠ "checkpoint" := by
    simp only [isRetrievable, henabled, hactive, hexpires, decide_true, Bool.true_and,
      decide_eq_true_eq]
  simp only [wanted, List.mem_filter, Bool.and_eq_true, hretrievable, hmem, hrelevant,
    Bool.not_eq_true', decide_eq_false_iff_not, hsuppressed, not_false_eq_true, decide_eq_true_eq,
    htier, hrole, true_and, and_true]

/-- What the checks leave of the candidates is exact if and only if it reaches far enough. -/
theorem exact_iff_reaches (hdistinct : (events.map (·.id)).Nodup) :
    Exact fts w sqlNow now ask events
        (((front fts w sqlNow ask events).filter (passes now ask events)).take ask.limit.toNat) ↔
      Reaches fts w sqlNow now ask events := by
  have hcandidate {event : MemoryEvent} (h : event ∈ front fts w sqlNow ask events) :
      event ∈ MemoryIndex.candidates fts w sqlNow events ask := List.mem_of_mem_take h
  have hnodup : ((((front fts w sqlNow ask events).filter (passes now ask events)).take
      ask.limit.toNat).map (·.id)).Nodup :=
    (nodup_candidates hdistinct).sublist
      (((List.take_sublist _ _).trans (List.filter_sublist.trans (List.take_sublist _ _))).map _)
  constructor
  · intro hexact
    refine ⟨fun before event after hfront hpass hlt => ?_, ?_⟩
    · have hfound := mem_take_filter_iff.mpr ⟨before, after, hfront, hpass, hlt⟩
      have hmem : event ∈ front fts w sqlNow ask events := hfront ▸ List.mem_append_cons_self
      exact (mem_wanted_iff (hcandidate hmem) hpass).mp (hexact.sound event hfound)
    · have hcount := hexact.count
      rw [List.length_take] at hcount
      omega
  · intro hreaches
    have hsound : ∀ event ∈ ((front fts w sqlNow ask events).filter (passes now ask events)).take
        ask.limit.toNat, event ∈ wanted fts w sqlNow now ask events := by
      intro event hfound
      obtain ⟨before, after, hfront, hpass, hlt⟩ := mem_take_filter_iff.mp hfound
      have hmem : event ∈ front fts w sqlNow ask events := hfront ▸ List.mem_append_cons_self
      exact (mem_wanted_iff (hcandidate hmem) hpass).mpr
        (hreaches.own before event after hfront hpass hlt)
    refine ⟨hsound, hnodup, ?_⟩
    have hle := (List.subperm_of_subset (List.Nodup.of_map _ hnodup) hsound).length_le
    have henough := hreaches.enough
    rw [List.length_take] at hle ⊢
    omega

end Exactness

section Search
variable {fts : Fts} {w : WordChars} {sqlNow now : String} {ask : MemoryQuery}
  {store : MemoryStore} {index : MemoryIndex} {log : List MemoryEvent}

/-- The events of the trace as a search reads them. -/
def readEvents (log : List MemoryEvent) (ask : MemoryQuery) : List MemoryEvent :=
  (ofTrace ask.traceId log).map MemoryEvent.reread

theorem readEvents_distinct (h : Indexed store index log) :
    ((readEvents log ask).map (·.id)).Nodup := by
  rw [readEvents, ids_reread]
  exact nodup_ofTrace h.distinct ask.traceId

/-- What a search returns. -/
theorem recall_eq (h : Indexed store index log) (hlimit : 1 ≤ ask.limit ∧ ask.limit ≤ 100)
    (hread : store.read ask.traceId = .ok (readEvents log ask)) :
    store.recall fts w sqlNow now index ask =
      .ok (((front fts w sqlNow ask (readEvents log ask)).filter
        (passes now ask (readEvents log ask))).take ask.limit.toNat) := by
  have hfront : (((index.sync (readEvents log ask)).candidates fts w sqlNow ask).take
      (window 100 (ask.limit * 3))) = front fts w sqlNow ask (readEvents log ask) := by
    rw [readEvents, candidates_sync h, front]
    congr 1
    unfold window
    omega
  have hwindow : window 100 ask.limit = ask.limit.toNat := by
    unfold window
    omega
  unfold MemoryStore.recall MemoryStore.search
  rw [hread, ok_bind]
  dsimp only
  rw [rankedIds_eq, MemoryIndex.search_eq, hfront, ok_bind, rankedHits_ids]
  · rw [hwindow]
    rfl
  · exact readEvents_distinct h
  · exact fun row hrow => (mem_of_candidate (List.mem_of_mem_take hrow)).1

theorem read_iff (h : Indexed store index log) {events : List MemoryEvent} :
    store.read ask.traceId = .ok events ↔
      (safeId ask.traceId = true ∧ ∀ event ∈ ofTrace ask.traceId log, event.OneLine) ∧
        events = readEvents log ask := by
  have hid : validateId "trace id" ask.traceId = .ok () ↔ safeId ask.traceId = true := by
    simp [validateId]
  unfold MemoryStore.read
  rw [check_bind_eq_ok, hid, readUnlocked_iff h.holds, and_assoc]
  rfl

/-- The search returns, and what it returns is exact. -/
def SearchesExactly (fts : Fts) (w : WordChars) (sqlNow now : String) (store : MemoryStore)
    (index : MemoryIndex) (log : List MemoryEvent) (ask : MemoryQuery) : Prop :=
  ∃ found, store.recall fts w sqlNow now index ask = .ok found ∧
    Exact fts w sqlNow now ask (readEvents log ask) found

theorem searchesExactly_of_read (h : Indexed store index log)
    (hlimit : 1 ≤ ask.limit ∧ ask.limit ≤ 100)
    (hread : store.read ask.traceId = .ok (readEvents log ask)) :
    SearchesExactly fts w sqlNow now store index log ask ↔
      Reaches fts w sqlNow now ask (readEvents log ask) := by
  unfold SearchesExactly
  rw [recall_eq h hlimit hread, ← exact_iff_reaches (readEvents_distinct h)]
  simp

end Search

def wordFts : Fts where
  isMatch expression content :=
    ((content.toList.splitOnP (!isTokenChar asciiWords ·)).filter (· ≠ [])).any fun word =>
      Text.contains expression
        (String.ofList (Text.quotationMark :: (word ++ [Text.quotationMark])))
  like pattern content := Text.contains content (Text.stripBy (· = '%') pattern)
  order _ rows := rows
  order_perm _ _ := .refl _

/-- What the agent of one work item has said. -/
def billingCall : AppendCall where
  traceId := "tr-1"
  role := "assistant"
  content := "定义接口边界"
  workItemId := some "billing"
  hex := "0"
  now := "2024-01-01T00:00:00+00:00"

def billingEvent : MemoryEvent := ⟨billingCall.event 1, by decide +kernel⟩

/-- A search for a part of it. -/
def interfaceQuery (workItemId : String) : MemoryQuery where
  query := "接口"
  traceId := "tr-1"
  workItemId := some workItemId

theorem reachable_billing :
    ∃ store, Reachable store (MemoryIndex.sync [] [billingEvent]) [billingEvent] := by
  have happended : ∃ store, MemoryStore.append ∅ billingCall = .ok (billingEvent, store) :=
    MemoryStore.exists_append MemoryStore.holds_empty (List.forall_mem_nil _) rfl
  obtain ⟨store, happend⟩ := happended
  exact ⟨store, .append .start happend List.not_mem_nil⟩

theorem interfaceQuery_query (workItemId : String) :
    (interfaceQuery workItemId).query = "接口" := rfl

theorem candidates_billing (workItemId : String) :
    MemoryIndex.candidates wordFts asciiWords "2024-01-02 00:00:00" [billingEvent]
      (interfaceQuery workItemId) = [billingEvent] := by
  have htokens : ftsQuery asciiWords "接口" ≠ "" := by decide +kernel
  have hmatch : wordFts.isMatch (ftsQuery asciiWords "接口") billingEvent.content = false := by
    decide +kernel
  have hlike : wordFts.like ("%" ++ Text.strip "接口" ++ "%") billingEvent.content = true := by
    decide +kernel
  have hnone : MemoryIndex.matched wordFts asciiWords "2024-01-02 00:00:00" [billingEvent]
      (interfaceQuery workItemId) = [] := by
    rw [List.eq_nil_iff_forall_not_mem]
    intro row hrow
    rw [matched_perm.mem_iff, List.mem_filter, List.mem_singleton] at hrow
    obtain ⟨rfl, hrow⟩ := hrow
    rw [interfaceQuery_query, hmatch] at hrow
    cases hrow
  have hsimilar : MemoryIndex.similar wordFts "2024-01-02 00:00:00" [billingEvent]
      (interfaceQuery workItemId) = [billingEvent] := by
    unfold MemoryIndex.similar
    rw [List.filter_cons_of_pos, List.filter_nil, List.mergeSort_singleton]
    rw [interfaceQuery_query, hlike]
    rfl
  unfold MemoryIndex.candidates
  rw [interfaceQuery_query, if_neg htokens, if_pos hnone, hsimilar]

theorem readEvents_billing (workItemId : String) :
    readEvents [billingEvent] (interfaceQuery workItemId) = [billingEvent] := rfl

theorem front_billing (workItemId : String) :
    front wordFts asciiWords "2024-01-02 00:00:00" (interfaceQuery workItemId) [billingEvent] =
      [billingEvent] := by
  rw [front, candidates_billing]
  rfl

theorem passes_billing (now workItemId : String) :
    passes now (interfaceQuery workItemId) [billingEvent] billingEvent = true := rfl

theorem billing_reads (workItemId : String) :
    safeId (interfaceQuery workItemId).traceId = true ∧
      ∀ event ∈ ofTrace (interfaceQuery workItemId).traceId [billingEvent], event.OneLine := by
  refine ⟨by change safeId "tr-1" = true; decide, ?_⟩
  intro event hevent
  obtain rfl := List.mem_singleton.mp (mem_ofTrace.mp hevent).1
  unfold MemoryEvent.OneLine
  decide +kernel

end ProjectOS.Memory
