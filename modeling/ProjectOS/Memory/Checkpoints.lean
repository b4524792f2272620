import ProjectOS.Base.JsonSorted
import ProjectOS.Memory.Governance

/-! The checkpoint of a run as an event of its memory, and the view that restores it. -/
namespace ProjectOS.Memory
open Base

/-- `json.dumps(state, ensure_ascii=False, sort_keys=True)`. -/
def stateText (fields : List (String × Json)) : String :=
  String.ofList (Json.obj fields).sorted.chars

def checkpointCall (traceId : String) (state : Json.Payload) (stamp : Stamp) : AppendCall where
  traceId := traceId
  role := "control"
  eventType := "checkpoint"
  content := stateText state.val
  metadata := ⟨[("checkpoint", .bool true)], rfl⟩
  tier := "working"
  retrievalEnabled := some false
  hex := stamp.hex
  now := stamp.now

def MemoryStore.checkpoint (store : MemoryStore) (traceId : String) (state : Json.Payload)
    (stamp : Stamp) : Result (MemoryEvent × MemoryStore) :=
  store.append (checkpointCall traceId state stamp)

theorem strip_braces (body : List Char) :
    Text.strip (String.ofList ('{' :: body ++ ['}'])) = String.ofList ('{' :: body ++ ['}']) := by
  have hback : ('{' :: body ++ ['}']).rdropWhile Text.isSpace = '{' :: body ++ ['}'] :=
    List.rdropWhile_concat_neg _ _ _ (by decide)
  rw [Text.strip, Text.stripBy, Text.rstripBy, Text.lstripBy, String.toList_ofList,
    String.toList_ofList, List.cons_append, List.dropWhile_cons_of_neg (by decide),
    ← List.cons_append, hback]

def cutMark : String := "\n[内容已截断，完整内容见 Trace/Evidence]"

/-- The text of a state is kept as it is, or cut behind its opening brace. -/
theorem clip_stateText (fields : List (String × Json)) :
    clip (stateText fields) = if (stateText fields).length ≤ maxContent then stateText fields
      else String.ofList ((stateText fields).toList.take (maxContent - 40)) ++ cutMark := by
  obtain ⟨body, hbody⟩ := Json.exists_braces fields
  have hstrip : Text.strip (stateText fields) = stateText fields := by
    rw [stateText, hbody]
    exact strip_braces body
  unfold clip
  rw [hstrip]
  rfl

/-- What is kept of a state is never blank and fits into an event. -/
theorem clip_accepted (fields : List (String × Json)) :
    Text.blank (clip (stateText fields)) = false ∧
      (clip (stateText fields)).length ≤ maxContent := by
  obtain ⟨body, hbody⟩ := Json.exists_braces fields
  have hclip := clip_stateText fields
  have hopen (cs : List Char) : Text.blank (String.ofList ('{' :: cs)) = false :=
    Text.blank_ofList_cons (by decide)
  split at hclip
  · rename_i hfits
    rw [hclip]
    refine ⟨?_, hfits⟩
    rw [stateText, hbody]
    exact hopen _
  · have htake : (stateText fields).toList.take (maxContent - 40) =
        '{' :: (body ++ ['}']).take (maxContent - 41) := by
      rw [stateText, hbody, String.toList_ofList]
      exact List.take_succ_cons
    rw [hclip, htake, Text.blank_append, hopen, Bool.false_and, String.length_append,
      String.length_ofList, List.length_cons, List.length_take]
    refine ⟨rfl, ?_⟩
    have hmark : cutMark.length = 29 := by decide
    have hmax : maxContent = 16000 := rfl
    omega

/-- The text of a state is read back if it fits, and is no text any more if it is cut. -/
theorem loads_clip {fields : List (String × Json)} (h : (Json.obj fields).distinct = true) :
    (∃ found, Json.loads (clip (stateText fields)) = some (.obj found) ∧
        Json.Same (.obj found) (.obj fields)) ↔ (stateText fields).length ≤ maxContent := by
  have hclip := clip_stateText fields
  split at hclip
  · rename_i hfits
    rw [hclip]
    exact ⟨fun _ => hfits, fun _ => Json.loads_sorted h⟩
  · rename_i hcut
    have hnone : Json.loads (clip (stateText fields)) = none := by
      have htext := Json.loads_cut_mark ((stateText fields).toList.take (maxContent - 40))
        (show 127 < '内'.toNat by decide) "容已截断，完整内容见 Trace/Evidence]".toList
      rw [String.ofList_append] at htext
      rw [hclip]
      exact htext
    rw [hnone]
    exact ⟨fun ⟨_, hfound, _⟩ => (nomatch hfound), fun h => absurd h hcut⟩

/-- The last checkpoint of a trace is the one that no other follows. -/
theorem latestCheckpoint_append {before after : List MemoryEvent} {event : MemoryEvent}
    (htype : event.eventType = "checkpoint")
    (hafter : ∀ later ∈ after, later.eventType ≠ "checkpoint") {found : List (String × Json)} :
    latestCheckpoint (before ++ event :: after) = some found ↔
      Json.loads event.content = some (.obj found) := by
  have hfind : (before ++ event :: after).reverse.find? (fun event => event.eventType = "checkpoint") =
      some event := by
    rw [List.reverse_append, List.reverse_cons, List.append_assoc, List.find?_append,
      List.find?_eq_none.mpr (fun later hlater => by
        simpa using hafter later (List.mem_reverse.mp hlater)), Option.none_or,
      List.singleton_append, List.find?_cons_of_pos (by simpa using htype)]
  rw [latestCheckpoint, hfind, Option.bind_some]
  split
  · rename_i fields hloads
    rw [hloads, Option.some_inj, Option.some_inj, Json.obj.injEq]
  · rename_i hnone
    exact ⟨fun h => (nomatch h), fun h => absurd h (hnone found)⟩

namespace MemoryStore
variable {store store' : MemoryStore} {log : List MemoryEvent} {traceId now : String}

/-- A view is built exactly if all events of its trace are on lines of their own; it then
shows what the last checkpoint event holds. -/
theorem view_eq_ok_iff (h : Holds store log) (hid : safeId traceId = true)
    {workItemId : Option String} {roles : List String} {limit maxChars : Int}
    {shown : Option (List (String × Json))} :
    (∃ memory, store.view traceId now workItemId roles limit maxChars = .ok memory ∧
        memory.checkpoint = shown) ↔
      (∀ event ∈ ofTrace traceId log, event.OneLine) ∧
        latestCheckpoint ((ofTrace traceId log).map MemoryEvent.reread) = shown := by
  have hvalid : validateId "trace id" traceId = .ok () := by simp [validateId, hid]
  unfold view read
  rw [hvalid, ok_bind]
  constructor
  · rintro ⟨memory, hview, rfl⟩
    obtain ⟨all, hall, hmemory⟩ := bind_eq_ok.mp hview
    obtain ⟨hlines, rfl⟩ := (readUnlocked_iff h traceId).mp hall
    cases hmemory
    exact ⟨hlines, rfl⟩
  · rintro ⟨hlines, rfl⟩
    rw [(readUnlocked_iff h traceId).mpr ⟨hlines, rfl⟩, ok_bind]
    exact ⟨_, rfl, rfl⟩

/-- A call that succeeds has read all events of its trace. -/
theorem oneLine_of_append (h : Holds store log) {call : AppendCall} {event : MemoryEvent}
    (happend : store.append call = .ok (event, store')) :
    safeId call.traceId = true ∧ ∀ event ∈ ofTrace call.traceId log, event.OneLine := by
  unfold append at happend
  obtain ⟨hid, happend⟩ := check_bind_eq_ok.mp happend
  obtain ⟨read, hread, -⟩ := bind_eq_ok.mp happend
  exact ⟨by simpa [validateId] using hid, ((readUnlocked_iff h call.traceId).mp hread).1⟩

end MemoryStore

/-- The checks of an event that the control plane writes. -/
theorem postInit_of_control {event : EventFields} (hid : safeId event.id = true)
    (htrace : safeId event.traceId = true) (hwork : event.workItemId = none)
    (hagent : event.agentId = none) (hrole : event.role = "control") (hsequence : event.sequence = 1)
    (hblank : Text.blank event.content = false) (hlength : event.content.length ≤ maxContent)
    (hattempt : event.attempt = none) (htier : event.tier ∈ tiers)
    (hlifecycle : event.lifecycle = "active") : event.postInit = .ok () := by
  have hrole' : event.role ∈ roles := hrole ▸ by decide
  have hlifecycle' : event.lifecycle ∈ lifecycles := hlifecycle ▸ by decide
  unfold EventFields.postInit
  simp [validateId, validateOptionalId, hid, htrace, hwork, hagent, hrole', hsequence, hblank,
    hlength, hattempt, htier, hlifecycle']

/-- A checkpoint of any state is accepted behind lines that can be read. -/
theorem exists_checkpoint {store : MemoryStore} {log : List MemoryEvent}
    (h : MemoryStore.Holds store log) {traceId : String} (hid : safeId traceId = true)
    (hlines : ∀ event ∈ MemoryStore.ofTrace traceId log, event.OneLine) (state : Json.Payload)
    {stamp : Stamp} (hhex : safeId ("mem-" ++ stamp.hex) = true) :
    ∃ event next, store.checkpoint traceId state stamp = .ok (event, next) := by
  let call := checkpointCall traceId state stamp
  have haccepted : (call.event ((MemoryStore.ofTrace call.traceId log).length + 1)).postInit =
      .ok () := by
    obtain ⟨hblank, hlength⟩ := clip_accepted state.val
    rw [MemoryStore.postInit_event]
    apply postInit_of_control <;> simp only [call, AppendCall.event, checkpointCall]
    case hid => exact hhex
    case htrace => exact hid
    case hsequence => rfl
    case hblank => exact hblank
    case hlength => exact hlength
    case htier => decide
  let event : MemoryEvent := ⟨_, haccepted⟩
  obtain ⟨next, hnext⟩ := @MemoryStore.exists_append store log h call hlines event rfl
  exact ⟨event, next, hnext⟩

/-- The checkpoint event that no other follows is the one that is shown. -/
theorem shown_state {traceId : String} {state : Json.Payload} {stamp : Stamp} {n : Nat}
    {before after : List MemoryEvent} {event : MemoryEvent}
    (hevent : event.toEventFields = (checkpointCall traceId state stamp).event n)
    (hafter : ∀ later ∈ after, later.eventType ≠ "checkpoint") {found : List (String × Json)} :
    latestCheckpoint ((before ++ event :: after).map MemoryEvent.reread) = some found ↔
      Json.loads (clip (stateText state.val)) = some (.obj found) := by
  have hcontent : event.reread.content = clip (stateText state.val) := by
    change event.content = _
    simp only [hevent, AppendCall.event, checkpointCall]
  have htype : event.reread.eventType = "checkpoint" := by
    change event.eventType = _
    simp only [hevent, AppendCall.event, checkpointCall]
  have hreread : ∀ later ∈ after.map MemoryEvent.reread, later.eventType ≠ "checkpoint" := by
    rw [List.forall_mem_map]
    exact hafter
  rw [List.map_append, List.map_cons, latestCheckpoint_append htype hreread, hcontent]

/-- What a view shows of the last checkpoint of a trace: the state that was given, if its text
fits into an event and the trace can still be read. -/
theorem viewed_checkpoint_iff {earlier later : List AppendCall} {traceId : String}
    {state : Json.Payload} {stamp : Stamp} {events events' : List MemoryEvent}
    {event : MemoryEvent} {before middle last : MemoryStore}
    (hearlier : MemoryStore.appendAll ∅ earlier = .ok (events, before))
    (hcheckpoint : before.checkpoint traceId state stamp = .ok (event, middle))
    (hlater : middle.appendAll later = .ok (events', last))
    (hlast : ∀ call ∈ later, call.traceId = traceId → call.eventType ≠ "checkpoint")
    (now : String) (workItemId : Option String) (roles : List String) (limit maxChars : Int) :
    (∃ memory, last.view traceId now workItemId roles limit maxChars = .ok memory ∧
        ∃ found, memory.checkpoint = some found ∧ Json.Same (.obj found) (.obj state.val)) ↔
      (stateText state.val).length ≤ maxContent ∧
        ∀ call ∈ checkpointCall traceId state stamp :: later, call.traceId = traceId →
          ∀ text ∈ call.texts, Json.unbroken text = true := by
  obtain ⟨-, hbefore⟩ := MemoryStore.appendAll_eq_ok MemoryStore.holds_empty hearlier
  rw [List.nil_append] at hbefore
  obtain ⟨hevent, hmiddle⟩ := MemoryStore.append_eq_ok hbefore hcheckpoint
  obtain ⟨hid, hlines⟩ := MemoryStore.oneLine_of_append hbefore hcheckpoint
  obtain ⟨hevents, hholds⟩ := MemoryStore.appendAll_eq_ok hmiddle hlater
  have htrace : event.traceId = traceId := by rw [hevent]; rfl
  have hlog : MemoryStore.ofTrace traceId (events ++ [event] ++ events') =
      MemoryStore.ofTrace traceId events ++ event :: MemoryStore.ofTrace traceId events' := by
    simp [MemoryStore.ofTrace, htrace]
  have hafter : ∀ later ∈ MemoryStore.ofTrace traceId events', later.eventType ≠ "checkpoint" := by
    intro later hmem
    obtain ⟨hmem, hsame⟩ := List.mem_filter.mp hmem
    obtain ⟨call, hcall, sequence, hfields⟩ := exists_left_of_forall₂ hevents hmem
    have hid : later.traceId = call.traceId := by rw [hfields]; rfl
    have htype : later.eventType = call.eventType := by rw [hfields]; rfl
    rw [htype]
    exact hlast call hcall (hid ▸ of_decide_eq_true hsame)
  have hshown (found : List (String × Json)) :
      latestCheckpoint ((MemoryStore.ofTrace traceId (events ++ [event] ++ events')).map
          MemoryEvent.reread) = some found ↔
        Json.loads (clip (stateText state.val)) = some (.obj found) := by
    rw [hlog]
    exact shown_state hevent hafter
  have hread : (∀ read ∈ MemoryStore.ofTrace traceId (events ++ [event] ++ events'),
      read.OneLine) ↔ ∀ call ∈ checkpointCall traceId state stamp :: later,
        call.traceId = traceId → ∀ text ∈ call.texts, Json.unbroken text = true := by
    rw [hlog, List.forall_mem_append, List.forall_mem_cons, List.forall_mem_cons, oneLine_iff hevent]
    constructor
    · rintro ⟨_, hfirst, hrest⟩
      refine ⟨fun _ => hfirst, fun call hcall hid => ?_⟩
      obtain ⟨later, hmem, sequence, hfields⟩ := exists_right_of_forall₂ hevents hcall
      have hid : later.traceId = traceId := by rw [hfields]; exact hid
      exact (oneLine_iff hfields).mp
        (hrest later (List.mem_filter.mpr ⟨hmem, decide_eq_true hid⟩))
    · rintro ⟨hfirst, hrest⟩
      refine ⟨hlines, hfirst rfl, fun later hmem => ?_⟩
      obtain ⟨hmem, hsame⟩ := List.mem_filter.mp hmem
      obtain ⟨call, hcall, sequence, hfields⟩ := exists_left_of_forall₂ hevents hmem
      have hid : later.traceId = call.traceId := by rw [hfields]; rfl
      exact (oneLine_iff hfields).mpr (hrest call hcall (hid ▸ of_decide_eq_true hsame))
  rw [← hread, ← loads_clip state.property]
  have hview (found : List (String × Json)) :=
    @MemoryStore.view_eq_ok_iff last _ traceId now hholds hid workItemId roles limit maxChars
      (some found)
  constructor
  · rintro ⟨memory, hmemory, found, hfound, hsame⟩
    obtain ⟨hlines, hlatest⟩ := (hview found).mp ⟨memory, hmemory, hfound⟩
    exact ⟨⟨found, (hshown found).mp hlatest, hsame⟩, hlines⟩
  · rintro ⟨⟨found, hloads, hsame⟩, hlines⟩
    obtain ⟨memory, hmemory, hfound⟩ := (hview found).mpr ⟨hlines, (hshown found).mpr hloads⟩
    exact ⟨memory, hmemory, found, hfound, hsame⟩

def firstStamp : Stamp := ⟨"1", "2024-01-01T00:00:00+00:00"⟩

def runningState : Json.Payload := ⟨[("status", .str "running"), ("attempt", .int 1)], by decide⟩

/-- The answer of an agent after a checkpoint. -/
def laterAnswer : AppendCall where
  traceId := "tr-1"
  role := "assistant"
  content := "done"
  hex := "2"
  now := "2024-01-01T00:00:01+00:00"

theorem runningState_fits : (stateText runningState.val).length ≤ maxContent := by decide +kernel

theorem runningState_unbroken :
    ∀ call ∈ [checkpointCall "tr-1" runningState firstStamp, laterAnswer],
      ∀ text ∈ call.texts, Json.unbroken text = true := by
  rw [List.forall_mem_cons, List.forall_mem_singleton]
  exact ⟨by decide +kernel, by decide +kernel⟩

theorem laterAnswer_accepted : (laterAnswer.event 1).postInit = .ok () := by decide +kernel

theorem runningState_viewed : ∃ event middle, (∅ : MemoryStore).checkpoint "tr-1" runningState
    firstStamp = .ok (event, middle) ∧ ∃ events last, middle.appendAll [laterAnswer] =
      .ok (events, last) ∧ ∃ memory, last.view "tr-1" "2024-01-02T00:00:00+00:00" = .ok memory ∧
        ∃ found, memory.checkpoint = some found ∧
          Json.Same (.obj found) (.obj runningState.val) := by
  obtain ⟨event, middle, hcheckpoint⟩ := @exists_checkpoint ∅ [] MemoryStore.holds_empty "tr-1"
    (by decide +kernel) (fun _ h => absurd h List.not_mem_nil) runningState firstStamp (by decide +kernel)
  obtain ⟨hevent, hholds⟩ := MemoryStore.append_eq_ok MemoryStore.holds_empty hcheckpoint
  have htexts := runningState_unbroken
  rw [List.forall_mem_cons] at htexts
  obtain ⟨⟨events, last⟩, hlater⟩ := @MemoryStore.exists_appendAll [laterAnswer] _ _ hholds
    (List.forall_mem_singleton.mpr ((oneLine_iff hevent).mpr htexts.1))
    (List.forall_mem_singleton.mpr ⟨List.forall_mem_singleton.mp htexts.2, laterAnswer_accepted⟩)
  refine ⟨event, middle, hcheckpoint, events, last, hlater, ?_⟩
  have hlast : ∀ call ∈ [laterAnswer], call.traceId = "tr-1" → call.eventType ≠ "checkpoint" := by
    decide
  exact (@viewed_checkpoint_iff [] _ _ _ _ [] _ _ _ _ _ rfl hcheckpoint hlater hlast _ none [] 12
    12000).mpr ⟨runningState_fits, fun call hcall _ => runningState_unbroken call hcall⟩

theorem length_le_quotedChars (text : String) : text.length < (Json.quotedChars text).length := by
  have hescaped (cs : List Char) : cs.length ≤ (cs.flatMap Json.escapeChar).length := by
    induction cs with
    | nil => exact Nat.le_refl _
    | cons c cs ih =>
      have hc : 0 < (Json.escapeChar c).length := by
        unfold Json.escapeChar
        split_ifs <;> exact Nat.zero_lt_succ _
      rw [List.flatMap_cons, List.length_append, List.length_cons]
      omega
  have htext := hescaped text.toList
  rw [String.length_toList] at htext
  rw [Json.quotedChars, List.length_cons, List.length_append]
  omega

/-- A state with some notes. -/
def notesState (notes : String) : Json.Payload := ⟨[("notes", .str notes)], rfl⟩

theorem length_notesState (notes : String) :
    notes.length < (stateText (notesState notes).val).length := by
  have hchars : (Json.obj (notesState notes).val).sorted.chars = '{' ::
      (Json.quotedChars "notes" ++ ':' :: ' ' :: Json.quotedChars notes ++ ['}']) := by
    simp [notesState, Json.sorted, Json.sortedFields, Json.chars, Json.fieldChars, List.intercalate]
  have hnotes := length_le_quotedChars notes
  rw [stateText, String.length_ofList, hchars]
  simp only [List.length_cons, List.length_append]
  omega

/-- A state whose text is longer than an event is lost. -/
theorem state_lost {state : Json.Payload} (h : maxContent < (stateText state.val).length) :
    ∃ event store, (∅ : MemoryStore).checkpoint "tr-1" state firstStamp = .ok (event, store) ∧
      ¬ ∃ memory, store.view "tr-1" "2024-01-02T00:00:00+00:00" = .ok memory ∧
        ∃ found, memory.checkpoint = some found ∧ Json.Same (.obj found) (.obj state.val) := by
  obtain ⟨event, store, hcheckpoint⟩ := @exists_checkpoint ∅ [] MemoryStore.holds_empty "tr-1"
    (by decide +kernel) (fun _ h => absurd h List.not_mem_nil) state firstStamp (by decide +kernel)
  refine ⟨event, store, hcheckpoint, ?_⟩
  obtain ⟨hevent, hholds⟩ := MemoryStore.append_eq_ok MemoryStore.holds_empty hcheckpoint
  rintro ⟨memory, hmemory, found, hfound, hsame⟩
  have hlatest := ((@MemoryStore.view_eq_ok_iff _ _ "tr-1" _ hholds (by decide +kernel) none [] 12 12000
    (some found)).mp ⟨memory, hmemory, hfound⟩).2
  have htrace : event.traceId = "tr-1" := by simp only [hevent, AppendCall.event, checkpointCall]
  have hlog : MemoryStore.ofTrace "tr-1" ([] ++ [event]) = [] ++ [event] :=
    List.filter_eq_self.mpr (List.forall_mem_singleton.mpr (decide_eq_true htrace))
  rw [hlog] at hlatest
  have hloads := (@shown_state "tr-1" state firstStamp _ [] [] event hevent
    (fun _ h => absurd h List.not_mem_nil) found).mp hlatest
  have hfits := (loads_clip state.property).mp ⟨found, hloads, hsame⟩
  exact absurd hfits (not_le.mpr h)

def longNotes : String := String.ofList (List.replicate maxContent 'x')

/-- Notes as long as an event make a state that is lost. -/
theorem notesState_lost : ∃ event store,
    (∅ : MemoryStore).checkpoint "tr-1" (notesState longNotes) firstStamp = .ok (event, store) ∧
      ¬ ∃ memory, store.view "tr-1" "2024-01-02T00:00:00+00:00" = .ok memory ∧
        ∃ found, memory.checkpoint = some found ∧
          Json.Same (.obj found) (.obj (notesState longNotes).val) := by
  apply state_lost
  have hlong := length_notesState longNotes
  have hlength : longNotes.length = maxContent := by
    rw [longNotes, String.length_ofList, List.length_replicate]
  omega

end ProjectOS.Memory
