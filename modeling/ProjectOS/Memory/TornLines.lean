import ProjectOS.Memory.Crashes

/-! When acknowledged memory survives killed writers: exactly the lines that may be left torn. -/
namespace ProjectOS.Memory
open Base

theorem splitlinesOf_alone {torn : List Char} (hplain : ∀ c ∈ torn, Text.isLineBreak c = false)
    (hne : torn ≠ []) : Text.splitlinesOf torn = [torn] := by
  induction torn with
  | nil => exact absurd rfl hne
  | cons c rest ih =>
    rw [List.forall_mem_cons] at hplain
    rw [Text.splitlinesOf, if_neg (by simp [hplain.1])]
    · cases rest with
      | nil => rfl
      | cons d rest => rw [ih hplain.2 (List.cons_ne_nil _ _)]
    · rintro cs rfl
      exact absurd hplain.1 (by decide)

/-- Neither line break occurs in a text that stays on one line. -/
theorem chars_plain {event : MemoryEvent} {cs : List Char} (hcs : ∀ c ∈ cs, c ∈ event.asDict.chars)
    (hunbroken : ∀ c ∈ cs, Json.wideBreak c = false) : ∀ c ∈ cs, Text.isLineBreak c = false := by
  intro c hc
  by_contra hbreak
  rw [Bool.not_eq_false] at hbreak
  have hwide := Json.wideBreak_of_isLineBreak hbreak (Json.mem_chars _ (hcs c hc)).1
  rw [hunbroken c hc] at hwide
  cases hwide

theorem MemoryEvent.oneLine_iff_narrow {event : MemoryEvent} :
    event.OneLine ↔ ∀ c ∈ event.asDict.chars, Json.wideBreak c = false := by
  constructor
  · intro hline c hc
    by_contra hwide
    rw [Bool.not_eq_false] at hwide
    obtain ⟨text, htext, hbroken⟩ := Json.any_isLineBreak_chars.mp
      (List.any_eq_true.mpr ⟨c, hc, (Json.isLineBreak_of_wideBreak hwide).1⟩)
    rw [hline text htext] at hbroken
    cases hbroken
  · intro hnarrow text htext
    by_contra hbroken
    rw [Bool.not_eq_true] at hbroken
    obtain ⟨c, hc, hbreak⟩ :=
      List.any_eq_true.mp (Json.any_isLineBreak_chars.mpr ⟨text, htext, hbroken⟩)
    have hwide := Json.wideBreak_of_isLineBreak hbreak (Json.mem_chars _ hc).1
    rw [hnarrow c hc] at hwide
    cases hwide

theorem distinct_of_fields {event : MemoryEvent} {call : AppendCall} {sequence : Nat}
    (h : event.toEventFields = call.event sequence) :
    (Json.obj event.metadata).distinct = true := by
  rw [h]
  exact call.metadata.property

/-- What a killed writer left after the last newline. -/
structure Fragment (torn : List Char) : Prop where
  brace : ∃ rest, torn = '{' :: rest
  plain : ∀ c ∈ torn, Text.isLineBreak c = false
  text : Json.loads (String.ofList torn) = none ∨ ∃ event : MemoryEvent,
    (Json.obj event.metadata).distinct = true ∧ torn = event.asDict.chars

/-- An append that returns has written the line of its event. -/
theorem CrashLog.append_eq_ok {log log' : CrashLog} {call : AppendCall} {event : MemoryEvent}
    (h : log.append call = .ok (event, log')) : log.next call = .ok event ∧
      log' = { log with store := log.store.write call.traceId event.asDict.line } := by
  unfold append at h
  unfold next
  cases hcut : log.undecodable with
  | true => rw [hcut] at h; cases h
  | false =>
    rw [hcut, if_neg Bool.false_ne_true, MemoryStore.append_eq_next] at h
    rw [if_neg Bool.false_ne_true]
    cases hnext : log.store.next call with
    | error error => rw [hnext] at h; cases h
    | ok found =>
      rw [hnext] at h
      cases h
      exact ⟨rfl, rfl⟩

namespace MemoryStore

/-- The records before the last lines are read whatever these hold. -/
theorem readLines_log_append {records : List MemoryEvent}
    (hline : ∀ event ∈ records, event.OneLine)
    (hdistinct : ∀ event ∈ records, (Json.obj event.metadata).distinct = true) (rest : List Char) :
    readLines ((Text.splitlinesOf (Json.log (records.map fun event => event.asDict) ++ rest)).map
        String.ofList) =
      (readLines ((Text.splitlinesOf rest).map String.ofList)).map
        (records.map MemoryEvent.reread ++ ·) := by
  induction records with
  | nil =>
    rw [List.map_nil, Json.log, List.flatMap_nil, List.nil_append]
    cases readLines ((Text.splitlinesOf rest).map String.ofList) <;> rfl
  | cons event records ih =>
    rw [List.forall_mem_cons] at hline hdistinct
    have hblank : Text.blank (String.ofList event.asDict.chars) = false := Json.not_blank_chars _
    rw [List.map_cons, Json.log, List.flatMap_cons, List.append_assoc,
      Json.splitlinesOf_line hline.1, List.map_cons, readLines, if_neg (by simp [hblank]),
      Json.loads_chars (distinct_asDict hdistinct.1)]
    dsimp only
    rw [fromDict_asDict, ok_bind]
    change (readLines ((Text.splitlinesOf (Json.log (records.map fun event => event.asDict) ++
      rest)).map String.ofList) >>= _) = _
    rw [ih hline.2 hdistinct.2]
    cases readLines ((Text.splitlinesOf rest).map String.ofList) <;> rfl

/-- A torn line is left out, or is the record of an event that lacks only its newline. -/
theorem readLines_fragment {torn : List Char} (h : Fragment torn) :
    ∃ read, readLines ((Text.splitlinesOf torn).map String.ofList) = .ok read := by
  obtain ⟨rest, hbrace⟩ := h.brace
  have hblank : Text.blank (String.ofList torn) = false := hbrace ▸ Json.not_blank_brace rest
  rw [splitlinesOf_alone h.plain (by rw [hbrace]; exact List.cons_ne_nil _ _), List.map_singleton,
    readLines, if_neg (by simp [hblank])]
  obtain hnone | ⟨event, hdistinct, htext⟩ := h.text
  · rw [hnone]
    exact ⟨[], rfl⟩
  · rw [htext, Json.loads_chars (distinct_asDict hdistinct)]
    dsimp only
    rw [fromDict_asDict]
    exact ⟨[event.reread], rfl⟩

end MemoryStore

/-- Whole records, and perhaps a torn line behind them. -/
structure Intact (traceId : String) (run : MemoryRun) (records : List MemoryEvent)
    (torn : List Char) : Prop where
  decodable : run.log.undecodable = false
  text : (run.log.store.get? traceId).getD "" =
    String.ofList (Json.log (records.map fun event => event.asDict) ++ torn)
  line : ∀ event ∈ records, event.OneLine
  distinct : ∀ event ∈ records, (Json.obj event.metadata).distinct = true
  torn : torn = [] ∨ Fragment torn
  acked : run.acked.Sublist (records.map MemoryEvent.reread)
  increasing : (run.acked.map (·.sequence)).Pairwise (· < ·)
  bounded : ∀ event ∈ run.acked, event.sequence ≤ records.length

namespace Intact

variable {traceId : String} {run : MemoryRun} {records : List MemoryEvent} {torn : List Char}

theorem plain (h : Intact traceId run records torn) : ∀ c ∈ torn, Text.isLineBreak c = false := by
  obtain rfl | hfragment := h.torn
  · nofun
  · exact hfragment.plain

theorem splitlines_eq (h : Intact traceId run records torn) :
    Text.splitlines (Text.readText ((run.log.store.get? traceId).getD "")) =
      (Text.splitlinesOf (Json.log (records.map fun event => event.asDict) ++ torn)).map
        String.ofList := by
  have hcarriage : '\r' ∉ Json.log (records.map fun event => event.asDict) ++ torn := by
    rw [List.mem_append, not_or]
    exact ⟨Json.log_noCarriage _, fun hc => absurd (h.plain '\r' hc) (by decide)⟩
  rw [h.text, Text.splitlines, Text.readText, String.toList_ofList, String.toList_ofList,
    Text.translateNewlines_of_noCarriage hcarriage]

/-- Every record is read, and at most one event more. -/
theorem readUnlocked_ok (h : Intact traceId run records torn) :
    ∃ more, run.log.store.readUnlocked traceId = .ok (records.map MemoryEvent.reread ++ more) ∧
      (torn = [] → more = []) := by
  rw [MemoryStore.readUnlocked, h.splitlines_eq, MemoryStore.readLines_log_append h.line h.distinct]
  obtain rfl | hfragment := h.torn
  · exact ⟨[], rfl, fun _ => rfl⟩
  · obtain ⟨read, hread⟩ := MemoryStore.readLines_fragment hfragment
    obtain ⟨rest, hbrace⟩ := hfragment.brace
    rw [hread]
    exact ⟨read, rfl, fun hnil => absurd (hbrace.symm.trans hnil) (List.cons_ne_nil _ _)⟩

theorem tail_eq (h : Intact traceId run records torn) : run.log.tail traceId = torn := by
  have hnewline : ∀ c ∈ torn.reverse, decide (c ≠ '\n') = true := by
    intro c hc
    have hplain := h.plain c (List.mem_reverse.mp hc)
    rw [decide_eq_true_eq]
    rintro rfl
    exact absurd hplain (by decide)
  have hends : (Json.log (records.map fun event => event.asDict)).reverse.takeWhile
      (· ≠ '\n') = [] := by
    obtain rfl | ⟨before, last, rfl⟩ := List.eq_nil_or_concat records
    · rfl
    · rw [List.concat_eq_append, List.map_append, List.map_singleton, Json.log_append, Json.line,
        ← List.append_assoc, List.reverse_concat]
      rfl
  rw [CrashLog.tail, h.text, String.toList_ofList, List.reverse_append,
    List.takeWhile_append_of_pos hnewline, hends, List.append_nil, List.reverse_reverse]

theorem survives (hid : safeId traceId = true) (h : Intact traceId run records torn) :
    run.Survives traceId := by
  obtain ⟨more, hread, -⟩ := h.readUnlocked_ok
  have hvalid : validateId "trace id" traceId = .ok () := by simp [validateId, hid]
  constructor
  · refine ⟨_, ?_, h.acked.trans (List.sublist_append_left _ more)⟩
    rw [CrashLog.read, h.decodable, if_neg Bool.false_ne_true, MemoryStore.read, hvalid, ok_bind,
      hread]
  · rintro call rfl hcreate
    obtain ⟨event, hevent⟩ := exists_of_isOk (hcreate
      ((records.map MemoryEvent.reread ++ more).length + 1) (Nat.le_add_left 1 _))
    rw [CrashLog.append, h.decodable, if_neg Bool.false_ne_true, MemoryStore.append, hvalid,
      ok_bind, hread, ok_bind, hevent]
    rfl
  · exact h.increasing

theorem start (traceId : String) : Intact traceId {} [] [] :=
  { decodable := rfl
    text := rfl
    line := fun _ h => absurd h List.not_mem_nil
    distinct := fun _ h => absurd h List.not_mem_nil
    torn := .inl rfl
    acked := List.Sublist.refl []
    increasing := List.Pairwise.nil
    bounded := fun _ h => absurd h List.not_mem_nil }

theorem write_text {store : MemoryStore} {text : List Char}
    (h : (store.get? traceId).getD "" = String.ofList text) (cs : List Char) :
    ((store.write traceId cs).get? traceId).getD "" = String.ofList (text ++ cs) := by
  rw [MemoryStore.write, Dict.get?_set, if_pos rfl, Option.getD_some, h, String.ofList_append]

/-- The fields of the event that is about to be written. -/
theorem next_ok (h : Intact traceId run records torn) {call : AppendCall}
    (htrace : call.traceId = traceId) {event : MemoryEvent}
    (hnext : run.log.next call = .ok event) : ∃ count,
      event.toEventFields = call.event (count + 1) ∧ (torn = [] → count = records.length) := by
  subst htrace
  obtain ⟨more, hread, hmore⟩ := h.readUnlocked_ok
  unfold CrashLog.next MemoryStore.next at hnext
  rw [h.decodable, if_neg Bool.false_ne_true, hread] at hnext
  obtain ⟨-, hnext⟩ := check_bind_eq_ok.mp hnext
  rw [ok_bind, MemoryEvent.create_eq_ok] at hnext
  refine ⟨_, hnext, fun htorn => ?_⟩
  rw [hmore htorn, List.append_nil, List.length_map]

/-- What an append that returns has written behind whole lines. -/
theorem append_kept (h : Intact traceId run records []) {call : AppendCall}
    (htrace : call.traceId = traceId) (hkept : call.Kept) {event : MemoryEvent} {log : CrashLog}
    (happend : run.log.append call = .ok (event, log)) :
    Intact traceId ⟨log, run.acked ++ [event]⟩ (records ++ [event]) [] := by
  obtain ⟨hnext, rfl⟩ := CrashLog.append_eq_ok happend
  obtain ⟨count, hfields, hcount⟩ := h.next_ok htrace hnext
  obtain rfl := hcount rfl
  subst htrace
  obtain ⟨hline, hreread⟩ := (kept_iff hfields).mp hkept
  have hsequence : event.sequence = (records.length : Int) + 1 := by
    rw [hfields]
    simp [AppendCall.event]
  have htext := h.text
  rw [List.append_nil] at htext
  refine ⟨h.decodable, ?_, ?_, ?_, .inl rfl, ?_, ?_, ?_⟩
  · rw [List.append_nil, List.map_append, List.map_singleton, Json.log_append]
    exact write_text htext _
  · rw [List.forall_mem_append, List.forall_mem_singleton]
    exact ⟨h.line, hline⟩
  · rw [List.forall_mem_append, List.forall_mem_singleton]
    exact ⟨h.distinct, distinct_of_fields hfields⟩
  · rw [List.map_append, List.map_singleton, hreread]
    exact h.acked.append (List.Sublist.refl _)
  · rw [List.map_append, List.map_singleton, List.pairwise_append]
    refine ⟨h.increasing, List.pairwise_singleton _ _, fun before hbefore after hafter => ?_⟩
    obtain ⟨e, he, rfl⟩ := List.mem_map.mp hbefore
    rw [List.mem_singleton.mp hafter, hsequence]
    have hbound := h.bounded e he
    omega
  · rw [List.forall_mem_append, List.forall_mem_singleton, List.length_append,
      List.length_singleton, hsequence]
    refine ⟨fun e he => ?_, by omega⟩
    have hbound := h.bounded e he
    omega

/-- The part of a line that was written after whole lines. -/
theorem whole_or_fragment {event : MemoryEvent}
    (hdistinct : (Json.obj event.metadata).distinct = true) (written : Nat)
    (hunbroken : ∀ c ∈ event.asDict.line.take written, Json.wideBreak c = false) :
    event.asDict.line.take written = [] ∨ Fragment (event.asDict.line.take written) ∨
      (event.asDict.line.take written = event.asDict.line ∧ event.OneLine) := by
  by_cases hwhole : event.asDict.chars.length < written
  · have htake : event.asDict.line.take written = event.asDict.line := by
      rw [Json.line]
      apply List.take_of_length_le
      rw [List.length_append, List.length_singleton]
      exact hwhole
    rw [htake] at hunbroken ⊢
    refine .inr (.inr ⟨rfl, MemoryEvent.oneLine_iff_narrow.mpr fun c hc => ?_⟩)
    exact hunbroken c (List.mem_append_left _ hc)
  · have htake : event.asDict.line.take written = event.asDict.chars.take written := by
      rw [Json.line]
      exact List.take_append_of_le_length (Nat.le_of_not_lt hwhole)
    rw [htake] at hunbroken ⊢
    have hcut := (List.take_append_drop written event.asDict.chars).symm
    have hplain := chars_plain (fun c hc => List.mem_of_mem_take hc) hunbroken
    cases htaken : event.asDict.chars.take written with
    | nil => exact .inl rfl
    | cons c rest =>
      refine .inr (.inl ⟨⟨rest, ?_⟩, htaken ▸ hplain, ?_⟩)
      · rw [htaken, EventFields.asDict, Json.chars, List.cons_append, List.cons.injEq] at hcut
        rw [← hcut.1]
      · rw [← htaken]
        by_cases hrest : event.asDict.chars.drop written = []
        · rw [hrest, List.append_nil] at hcut
          exact .inr ⟨event, hdistinct, hcut.symm⟩
        · exact .inl (Json.loads_proper (distinct_asDict hdistinct) hcut hrest)

/-- A killed writer that keeps to its terms leaves the records and their readers alone. -/
theorem kill_torn (h : Intact traceId run records torn) {call : AppendCall} {written : Nat}
    {inside : Bool} (htrace : call.traceId = traceId)
    (hterms : ∀ event, run.log.next call = .ok event →
      MemoryRun.Torn (run.log.tail traceId) event.asDict.line written inside) :
    ∃ records' torn', Intact traceId { run with log := run.log.kill call written inside }
      records' torn' := by
  subst htrace
  rw [h.tail_eq] at hterms
  unfold CrashLog.kill
  cases hnext : run.log.next call with
  | error error => exact ⟨records, torn, h⟩
  | ok event =>
    have hterm := hterms event hnext
    have hdecodable : (inside && (event.asDict.line.drop written).head?.any (127 < ·.toNat)) =
        false := by
      cases hhead : (event.asDict.line.drop written).head? with
      | none => rw [Option.any_none, Bool.and_false]
      | some c =>
        cases inside with
        | false => rfl
        | true =>
          have hlow := hterm.whole rfl c hhead
          rw [Option.any_some, Bool.true_and, decide_eq_false_iff_not]
          omega
    obtain ⟨count, hfields, -⟩ := h.next_ok rfl hnext
    have hdistinct := distinct_of_fields hfields
    have htext := write_text h.text (event.asDict.line.take written)
    rw [List.append_assoc] at htext
    -- the same records, behind which another line is torn
    have hbehind {torn' : List Char} (heq : torn ++ event.asDict.line.take written = torn')
        (htorn : torn' = [] ∨ Fragment torn') :
        Intact call.traceId { run with log := ⟨run.log.store.write call.traceId
          (event.asDict.line.take written), inside &&
            (event.asDict.line.drop written).head?.any (127 < ·.toNat)⟩ } records torn' :=
      { decodable := hdecodable, text := heq ▸ htext, line := h.line, distinct := h.distinct,
        torn := htorn, acked := h.acked, increasing := h.increasing, bounded := h.bounded }
    obtain rfl | hfragment := h.torn
    · obtain hnone | hpart | ⟨hall, hline⟩ := whole_or_fragment hdistinct written hterm.unbroken
      · exact ⟨records, [], hbehind hnone (.inl rfl)⟩
      · exact ⟨records, _, hbehind rfl (.inr hpart)⟩
      · refine ⟨records ++ [event], [], hdecodable, ?_, ?_, ?_, .inl rfl, ?_, h.increasing, ?_⟩
        · rw [htext, hall, List.append_nil, List.map_append, List.map_singleton, Json.log_append]
          rfl
        · rw [List.forall_mem_append, List.forall_mem_singleton]
          exact ⟨h.line, hline⟩
        · rw [List.forall_mem_append, List.forall_mem_singleton]
          exact ⟨h.distinct, hdistinct⟩
        · rw [List.map_append]
          exact h.acked.trans (List.sublist_append_left _ _)
        · intro e he
          have hbound := h.bounded e he
          rw [List.length_append, List.length_singleton]
          omega
    · by_cases hnothing : event.asDict.line.take written = []
      · exact ⟨records, torn, hbehind (by rw [hnothing, List.append_nil]) (.inr hfragment)⟩
      · obtain ⟨rest, hbrace⟩ := hfragment.brace
        obtain ⟨hnewline, hloads⟩ :=
          hterm.alone (by rw [hbrace]; exact List.cons_ne_nil _ _) hnothing
        refine ⟨records, _, hbehind rfl (.inr ⟨⟨rest ++ event.asDict.line.take written, ?_⟩, ?_,
          .inl hloads⟩)⟩
        · rw [hbrace, List.cons_append]
        · rw [List.forall_mem_append]
          refine ⟨hfragment.plain, @chars_plain event _ (fun c hc => ?_) hterm.unbroken⟩
          obtain hchars | hend := List.mem_append.mp (List.mem_of_mem_take hc)
          · exact hchars
          · exact absurd (List.mem_singleton.mp hend ▸ hc) hnewline

theorem apply_append (h : Intact traceId run records []) {call : AppendCall}
    (htrace : call.traceId = traceId) (hkept : call.Kept) :
    ∃ records', Intact traceId (run.apply (.append call)) records' [] := by
  rw [MemoryRun.apply]
  cases happend : run.log.append call with
  | error error => exact ⟨records, h⟩
  | ok result =>
    obtain ⟨event, log⟩ := result
    exact ⟨_, h.append_kept htrace hkept happend⟩

/-- Behind whole lines a record that stays on its own may be cut between any two characters. -/
theorem permitted_kill (h : Intact traceId run records []) {call : AppendCall}
    (htrace : call.traceId = traceId) (hkept : call.Kept) (written : Nat) :
    run.Permitted traceId (.kill call written false) := by
  intro event hnext
  obtain ⟨count, hfields, -⟩ := h.next_ok htrace hnext
  have hline := ((kept_iff hfields).mp hkept).1
  refine ⟨nofun, fun c hc => ?_, fun htorn => absurd h.tail_eq htorn⟩
  obtain hchars | hend := List.mem_append.mp (List.mem_of_mem_take hc)
  · exact MemoryEvent.oneLine_iff_narrow.mp hline c hchars
  · rw [List.mem_singleton.mp hend]
    decide

/-- One permitted step keeps the log intact. -/
theorem apply (h : Intact traceId run records torn) {action : MemoryAction}
    (htrace : action.call.traceId = traceId) (hpermitted : run.Permitted traceId action) :
    ∃ records' torn', Intact traceId (run.apply action) records' torn' := by
  cases action with
  | kill call written inside => exact h.kill_torn htrace hpermitted
  | append call =>
    obtain ⟨hkept, htail⟩ := hpermitted
    rw [h.tail_eq] at htail
    subst htail
    obtain ⟨records', hrecords⟩ := h.apply_append htrace hkept
    exact ⟨records', [], hrecords⟩

theorem reached {traceId : String} {run : MemoryRun}
    (h : MemoryRun.Reached traceId (MemoryRun.Permitted traceId) run) :
    ∃ records torn, Intact traceId run records torn := by
  induction h with
  | start => exact ⟨[], [], start traceId⟩
  | step previous htrace hpermitted ih =>
    obtain ⟨records, torn, hintact⟩ := ih
    exact hintact.apply htrace hpermitted

end Intact

/-- Acknowledged memory survives the runs in which an append finds the log ending in a newline,
its record on one line, and killed writers leave only what the reader forgives. -/
theorem acknowledged_survive {traceId : String} {run : MemoryRun} (hid : safeId traceId = true)
    (h : MemoryRun.Reached traceId (MemoryRun.Permitted traceId) run) : run.Survives traceId := by
  obtain ⟨records, torn, hintact⟩ := Intact.reached h
  exact hintact.survives hid

/-- A log of one answer. -/
def answered : MemoryRun := ({} : MemoryRun).apply (.append (answer "1" "done\nhere"))

/-- Behind a whole answer five characters of the next may be written: the first is still read. -/
theorem answered_survives :
    (answered.apply (.kill (answer "2" "\"ok\"") 5 false)).Survives "tr-1" := by
  have htail : ({} : MemoryRun).log.tail "tr-1" = [] := by decide
  have hfirst := plainAnswers_kept (answer "1" "done\nhere") List.mem_cons_self
  have hsecond := plainAnswers_kept (answer "2" "\"ok\"")
    (List.mem_cons_of_mem _ (List.mem_singleton_self _))
  obtain ⟨records, hintact⟩ := (Intact.start "tr-1").apply_append rfl hfirst
  have hreached : MemoryRun.Reached "tr-1" (MemoryRun.Permitted "tr-1") answered :=
    .step .start rfl ⟨hfirst, htail⟩
  exact acknowledged_survive (by decide)
    (.step hreached rfl (hintact.permitted_kill rfl hsecond 5))

/-- Two opening braces begin no JSON text. -/
theorem loads_braces (cs : List Char) : Json.loads (String.ofList ('{' :: '{' :: cs)) = none := by
  unfold Json.loads
  rw [String.toList_ofList, Json.Reader.run_cons]
  rfl

/-- A record that is appended behind a single brace is lost. -/
theorem Intact.append_behind_brace {traceId : String} {run : MemoryRun}
    (h : Intact traceId run [] ['{']) {call : AppendCall} (htrace : call.traceId = traceId)
    (hkept : call.Kept) {event : MemoryEvent} {log : CrashLog}
    (happend : run.log.append call = .ok (event, log)) :
    log.store.readUnlocked traceId = .ok [] := by
  obtain ⟨hnext, rfl⟩ := CrashLog.append_eq_ok happend
  obtain ⟨count, hfields, -⟩ := h.next_ok htrace hnext
  subst htrace
  have hline := ((kept_iff hfields).mp hkept).1
  have htext : ((run.log.store.write call.traceId event.asDict.line).get? call.traceId).getD "" =
      String.ofList (('{' :: event.asDict.chars) ++ '\n' :: []) := by
    rw [write_text h.text]
    rfl
  have hplain : ∀ c ∈ '{' :: event.asDict.chars, Text.isLineBreak c = false := by
    rw [List.forall_mem_cons]
    exact ⟨by decide, chars_plain (fun c hc => hc) (MemoryEvent.oneLine_iff_narrow.mp hline)⟩
  have hcarriage : '\r' ∉ ('{' :: event.asDict.chars) ++ '\n' :: [] := by
    rw [List.mem_append, not_or]
    exact ⟨fun hc => absurd (hplain _ hc) (by decide), by decide⟩
  have hblank := Json.not_blank_brace event.asDict.chars
  rw [MemoryStore.readUnlocked, htext, Text.splitlines, Text.readText, String.toList_ofList,
    String.toList_ofList, Text.translateNewlines_of_noCarriage hcarriage,
    Text.splitlinesOf_append hplain (by decide) (by decide), Text.splitlinesOf, List.map_singleton,
    MemoryStore.readLines, if_neg (by rw [hblank]; exact Bool.false_ne_true), EventFields.asDict, Json.chars,
    loads_braces]
  rfl

/-- One character of a record leaves a single brace. -/
theorem Intact.kill_first {traceId : String} {run : MemoryRun} (h : Intact traceId run [] [])
    {call : AppendCall} (htrace : call.traceId = traceId)
    (hnext : (run.log.next call).isOk = true) :
    Intact traceId (run.apply (.kill call 1 false)) [] ['{'] := by
  subst htrace
  obtain ⟨event, hevent⟩ := exists_of_isOk hnext
  rw [MemoryRun.apply, CrashLog.kill, hevent]
  have hplain : ∀ c ∈ ['{'], Text.isLineBreak c = false := by
    intro c hc
    rw [List.mem_singleton.mp hc]
    decide
  have hfragment : Fragment ['{'] := ⟨⟨[], rfl⟩, hplain, .inl rfl⟩
  exact { h with decodable := rfl, text := write_text h.text ['{'], torn := .inr hfragment }

theorem create_isOk {call : AppendCall} (h : (call.event 1).postInit = .ok ()) {sequence : Nat}
    (hsequence : 1 ≤ sequence) : (MemoryEvent.create (call.event sequence)).isOk = true := by
  obtain ⟨n, rfl⟩ := Nat.exists_eq_add_of_le' hsequence
  have hcreate : MemoryEvent.create (call.event (n + 1)) =
      .ok ⟨call.event (n + 1), (MemoryStore.postInit_event call n).trans h⟩ :=
    MemoryEvent.create_eq_ok.mpr rfl
  rw [hcreate]
  rfl

/-- One character of a record, and an answer appended behind it: its writer was told that it
is kept, and nothing is read. -/
theorem acknowledged_lost : ¬ ∀ traceId run, safeId traceId = true →
    MemoryRun.Reached traceId (fun _ _ => True) run → run.Survives traceId := by
  intro h
  let first := answer "1" "done\nhere"
  let second := answer "2" "\"ok\""
  have hkept : second.Kept :=
    plainAnswers_kept second (List.mem_cons_of_mem _ (List.mem_singleton_self _))
  have hbrace : Intact "tr-1" (({} : MemoryRun).apply (.kill first 1 false)) [] ['{'] :=
    (Intact.start "tr-1").kill_first rfl (by decide +kernel)
  have haccepted : (second.event 1).postInit = .ok () := by decide +kernel
  obtain ⟨⟨event, log⟩, happend⟩ := exists_of_isOk ((hbrace.survives (by decide)).append second rfl
    fun _ hsequence => create_isOk haccepted hsequence)
  have hreached : MemoryRun.Reached "tr-1" (fun _ _ => True)
      ((({} : MemoryRun).apply (.kill first 1 false)).apply (.append second)) :=
    .step (.step .start rfl trivial) rfl trivial
  obtain ⟨events, hread, hacked⟩ := (h _ _ (by decide) hreached).read
  have hlost := hbrace.append_behind_brace rfl hkept happend
  have hlog := (CrashLog.append_eq_ok happend).2
  rw [MemoryRun.apply, happend] at hread hacked
  have hdecodable : log.undecodable = false := by rw [hlog]; exact hbrace.decodable
  rw [CrashLog.read, hdecodable, if_neg Bool.false_ne_true, MemoryStore.read] at hread
  obtain ⟨-, hread⟩ := check_bind_eq_ok.mp hread
  rw [hlost] at hread
  cases hread
  have hlength := hacked.length_le
  rw [List.length_append, List.length_singleton, List.length_nil] at hlength
  omega

end ProjectOS.Memory
