import ProjectOS.Base.JsonText

/-! The streamed responses of a language model, and the function calls that they hand back.
A relay may leave out fields of an event; an absent field is read as the empty text. -/
namespace ProjectOS.Llm
open Base

/-- An output item of the kind `function_call`. -/
structure CallItem where
  itemId : String
  callId : String
  name : String
  arguments : String

inductive OutputItem where
  | functionCall (item : CallItem)
  | other

/-- An event about the arguments of a call: the item it belongs to, the call id where the
relay sends one, and the fragment or the whole text. -/
structure ArgumentsEvent where
  itemId : String
  callId : String
  text : String

/-- `ρ` are the responses of the SDK. -/
inductive StreamEvent (ρ : Type) where
  | created (responseId : String)
  | textDelta (delta : String)
  | argumentsDelta (event : ArgumentsEvent)
  | argumentsDone (event : ArgumentsEvent)
  | itemAdded (item : Option OutputItem)
  | itemDone (item : OutputItem)
  | completed (response : ρ)
  | other

structure FunctionCall where
  id : String
  name : String
  arguments : String
deriving DecidableEq, Repr

/-- The depths of the three architecture writers. -/
def writerDepths : List (String × Int) :=
  [("write_architecture_blueprint", 0), ("write_module_design", 1),
    ("write_implementation_design", 2)]

/-- `_normalize_architecture_tool_arguments`. -/
def normalizeArchitectureToolArguments (name arguments : String) : String :=
  match writerDepths.lookup name with
  | none => arguments
  | some expectedDepth =>
      match Json.loads arguments with
      | some (.obj fields) =>
          let parsed := Json.obj fields
          if (parsed.get? "design").isSome then arguments
          else if !((parsed.get? "depth").any (·.isInt expectedDepth)) ||
              (parsed.get? "design_id").isNone then arguments
          else String.ofList (Json.obj [("design", parsed)]).chars
      | _ => arguments

/-- What the handler has kept of the events so far. -/
structure Stream (ρ : Type) where
  fullResponse : String := ""
  functionCalls : List FunctionCall := []
  finalResponse : Option ρ := none
  responseIdStream : Option String := none
  argumentDeltas : Dict String String := ∅
  functionNames : Dict String String := ∅

namespace Stream
variable {ρ : Type}

/-- `d.get(key, "")`. -/
def textOf (d : Dict String String) (key : String) : String := (d.get? key).getD ""

/-- `x or y`. -/
def orText (x y : String) : String := if x = "" then y else x

/-- The function call that is handed back for a finished item. -/
def call (s : Stream ρ) (item : CallItem) : FunctionCall :=
  let name := orText item.name (textOf s.functionNames item.callId)
  { id := item.callId
    name := name
    arguments := normalizeArchitectureToolArguments name
      (orText item.arguments (textOf s.argumentDeltas item.callId)) }

/-- The body of the loop over the events. -/
def handle (s : Stream ρ) : StreamEvent ρ → Stream ρ
  | .created responseId => { s with responseIdStream := some responseId }
  | .textDelta delta => { s with fullResponse := s.fullResponse ++ delta }
  | .argumentsDelta event =>
      let received := textOf s.argumentDeltas event.callId
      { s with argumentDeltas := s.argumentDeltas.set event.callId (received ++ event.text) }
  | .argumentsDone event =>
      if event.callId ≠ "" ∧ event.text ≠ "" then
        { s with argumentDeltas := s.argumentDeltas.set event.callId event.text }
      else s
  | .itemAdded (some (.functionCall item)) =>
      if item.callId ≠ "" then
        { s with functionNames := s.functionNames.set item.callId item.name }
      else s
  | .itemAdded _ => s
  | .itemDone (.functionCall item) =>
      { s with functionCalls := s.functionCalls ++ [s.call item] }
  | .itemDone .other => s
  | .completed response => { s with finalResponse := some response }
  | .other => s

def run (events : List (StreamEvent ρ)) : Stream ρ := events.foldl handle {}

end Stream

/-- What the handlers use of the SDK, and the options of the request. -/
structure Sdk (ρ ν : Type) where
  parseToolOutputs : Bool
  builtinToolOutputs : ρ → ν
  /-- `_handle_tool_execution`, if functions are available. -/
  toolExecution : Option (String → Json → Option ν)
  /-- `_validate_structured_output`, if a response model is given. -/
  structuredOutput : Option (String → Option ν)
  applyStopWords : String → String
  afterCallHooks : String → ν

inductive Reply (ν : Type) where
  | value (value : ν)
  | functionCalls (calls : List FunctionCall)

/-- What follows the loop. -/
def Sdk.reply {ρ ν : Type} (sdk : Sdk ρ ν) (s : Stream ρ) : Reply ν :=
  let text : Reply ν :=
    match sdk.structuredOutput.bind (· s.fullResponse) with
    | some value => .value value
    | none => .value (sdk.afterCallHooks (sdk.applyStopWords s.fullResponse))
  match s.finalResponse.filter (fun _ => sdk.parseToolOutputs) with
  | some response => .value (sdk.builtinToolOutputs response)
  | none =>
      match sdk.toolExecution with
      | none => if s.functionCalls = [] then text else .functionCalls s.functionCalls
      | some execute =>
          match s.functionCalls.findSome? fun call =>
            execute call.name ((Json.loads call.arguments).getD (.obj [])) with
          | some value => .value value
          | none => text

/-- `_handle_streaming_responses`, once the stream is open. -/
def handleStreamingResponses {ρ ν : Type} (sdk : Sdk ρ ν) (events : List (StreamEvent ρ)) :
    Reply ν :=
  sdk.reply (Stream.run events)

/-- `_ahandle_streaming_responses`, whose text is that of the other handler. -/
def ahandleStreamingResponses {ρ ν : Type} (sdk : Sdk ρ ν) (events : List (StreamEvent ρ)) :
    Reply ν :=
  sdk.reply (Stream.run events)

/-! What the calls of a stream are, told by the items that the events belong to. -/

variable {ρ ν : Type}

namespace StreamEvent

def arguments? : StreamEvent ρ → Option ArgumentsEvent
  | .argumentsDelta event => some event
  | .argumentsDone event => some event
  | _ => none

def done? : StreamEvent ρ → Option CallItem
  | .itemDone (.functionCall item) => some item
  | _ => none

/-- The name that the event announces for a call. -/
def name? (callId : String) : StreamEvent ρ → Option String
  | .itemAdded (some (.functionCall item)) =>
      if item.callId = callId ∧ callId ≠ "" then some item.name else none
  | _ => none

/-- The fragment that the event brings for an item. -/
def fragment? (itemId : String) : StreamEvent ρ → Option String
  | .argumentsDelta event => if event.itemId = itemId then some event.text else none
  | _ => none

/-- The whole text that the event brings for an item. -/
def whole? (itemId : String) : StreamEvent ρ → Option String
  | .argumentsDone event =>
      if event.itemId = itemId ∧ event.text ≠ "" then some event.text else none
  | _ => none

end StreamEvent

/-- The finished calls of a stream, in order. -/
def doneItems (events : List (StreamEvent ρ)) : List CallItem := events.filterMap (·.done?)

/-- The name under which the last added item of a call id was announced. -/
def announcedName (callId : String) (events : List (StreamEvent ρ)) : String :=
  (events.filterMap (·.name? callId)).getLast?.getD ""

/-- The fragments of an item, joined in order. -/
def ownDeltas (itemId : String) (events : List (StreamEvent ρ)) : String :=
  String.join (events.filterMap (·.fragment? itemId))

/-- The argument events of the item carry its call id, and those of no other item do. -/
structure Traced (item : CallItem) (events : List (StreamEvent ρ)) : Prop where
  named : item.callId ≠ ""
  labelled : ∀ event ∈ events, ∀ a, event.arguments? = some a →
    (a.itemId = item.itemId ↔ a.callId = item.callId)

/-- The text is what the events bring for the item: its last whole text with the fragments
behind it, or all its fragments where no whole text came. -/
structure OwnText (item : CallItem) (events : List (StreamEvent ρ)) (text : String) : Prop where
  fragments : (∀ event ∈ events, event.whole? item.itemId = none) →
    text = ownDeltas item.itemId events
  whole : ∀ front event back value, events = front ++ event :: back →
    event.whole? item.itemId = some value →
      (∀ later ∈ back, later.whole? item.itemId = none) →
        text = value ++ ownDeltas item.itemId back

/-- The call that is handed back for an item, after the events before it. -/
structure OwnCall (item : CallItem) (before : List (StreamEvent ρ)) (call : FunctionCall) :
    Prop where
  id : call.id = item.callId
  name : call.name = Stream.orText item.name (announcedName item.callId before)
  given : item.arguments ≠ "" →
    call.arguments = normalizeArchitectureToolArguments call.name item.arguments
  streamed : item.arguments = "" → Traced item before → ∃ text, OwnText item before text ∧
    call.arguments = normalizeArchitectureToolArguments call.name text

@[simp] theorem doneItems_append (front back : List (StreamEvent ρ)) :
    doneItems (front ++ back) = doneItems front ++ doneItems back := List.filterMap_append

@[simp] theorem ownDeltas_nil (itemId : String) : ownDeltas (ρ := ρ) itemId [] = "" := rfl

theorem ownDeltas_cons (itemId : String) (event : StreamEvent ρ) (events : List (StreamEvent ρ)) :
    ownDeltas itemId (event :: events) =
      (event.fragment? itemId).getD "" ++ ownDeltas itemId events := by
  unfold ownDeltas
  cases h : event.fragment? itemId with
  | none => simp [h]
  | some text => simp [h]

namespace Stream

theorem run_append (front back : List (StreamEvent ρ)) :
    run (front ++ back) = back.foldl handle (run front) := List.foldl_append

theorem textOf_set_self (d : Dict String String) (key value : String) :
    textOf (d.set key value) key = value := by
  simp [textOf, Dict.get?_set]

theorem textOf_set_of_ne {key key' : String} (h : key' ≠ key) (d : Dict String String)
    (value : String) : textOf (d.set key value) key' = textOf d key' := by
  simp [textOf, Dict.get?_set, h]

/-! The names. -/

theorem functionNames_handle (callId : String) (s : Stream ρ) (event : StreamEvent ρ) :
    textOf (s.handle event).functionNames callId =
      (event.name? callId).getD (textOf s.functionNames callId) := by
  match event with
  | .created _ | .textDelta _ | .argumentsDelta _ | .itemDone .other | .itemDone (.functionCall _)
  | .itemAdded none | .itemAdded (some .other) | .completed _ | .other => rfl
  | .argumentsDone whole =>
      simp only [handle, StreamEvent.name?]
      split <;> rfl
  | .itemAdded (some (.functionCall item)) =>
      simp only [handle, StreamEvent.name?]
      by_cases hid : item.callId = callId
      · subst hid
        by_cases hempty : item.callId = ""
        · simp [hempty]
        · simp [hempty, textOf_set_self]
      · by_cases hempty : item.callId = ""
        · simp [hempty]
        · simp [hempty, hid, textOf_set_of_ne (Ne.symm hid)]

theorem functionNames_run (callId : String) (events : List (StreamEvent ρ)) :
    textOf (run events).functionNames callId = announcedName callId events := by
  induction events using List.reverseRecOn with
  | nil => rfl
  | append_singleton events event ih =>
    rw [run_append, List.foldl_cons, List.foldl_nil, functionNames_handle, ih]
    unfold announcedName
    rw [List.filterMap_append, List.getLast?_append]
    cases h : event.name? callId <;> simp [h]

/-! The arguments. -/

/-- One event adds its own fragment to what was received for the item, or replaces it by its
whole text. -/
theorem argumentDeltas_handle {item : CallItem} {event : StreamEvent ρ} (hnamed : item.callId ≠ "")
    (hlabelled : ∀ a, event.arguments? = some a →
      (a.itemId = item.itemId ↔ a.callId = item.callId)) (s : Stream ρ) :
    textOf (s.handle event).argumentDeltas item.callId =
      (event.whole? item.itemId).getD
        (textOf s.argumentDeltas item.callId ++ (event.fragment? item.itemId).getD "") := by
  match event with
  | .created _ | .textDelta _ | .itemDone .other | .itemDone (.functionCall _)
  | .itemAdded none | .itemAdded (some .other) | .completed _ | .other =>
      simp [handle, StreamEvent.whole?, StreamEvent.fragment?]
  | .itemAdded (some (.functionCall added)) =>
      simp only [handle, StreamEvent.whole?, StreamEvent.fragment?]
      split <;> simp
  | .argumentsDelta a =>
      have hown := hlabelled a rfl
      simp only [handle, StreamEvent.whole?, StreamEvent.fragment?]
      by_cases hitem : a.itemId = item.itemId
      · simp [hitem, hown.1 hitem, textOf_set_self]
      · simp [hitem, textOf_set_of_ne (fun h => hitem (hown.2 h.symm))]
  | .argumentsDone a =>
      have hown := hlabelled a rfl
      simp only [handle, StreamEvent.whole?, StreamEvent.fragment?]
      by_cases hitem : a.itemId = item.itemId
      · by_cases htext : a.text = ""
        · simp [htext]
        · simp [hitem, htext, hown.1 hitem, hnamed, textOf_set_self]
      · split
        · simp [hitem, textOf_set_of_ne (fun h => hitem (hown.2 h.symm))]
        · simp [hitem]

/-- Without a whole text, the received text grows by the item's own fragments. -/
theorem argumentDeltas_fragments {item : CallItem} {events : List (StreamEvent ρ)}
    (htraced : Traced item events)
    (hwhole : ∀ event ∈ events, event.whole? item.itemId = none) (s : Stream ρ) :
    textOf (events.foldl handle s).argumentDeltas item.callId =
      textOf s.argumentDeltas item.callId ++ ownDeltas item.itemId events := by
  induction events generalizing s with
  | nil => simp
  | cons event events ih =>
    have hrest : Traced item events :=
      ⟨htraced.named, fun e he => htraced.labelled e (List.mem_cons_of_mem _ he)⟩
    have hnone : event.whole? item.itemId = none := hwhole event List.mem_cons_self
    rw [List.foldl_cons, ih hrest (fun e he => hwhole e (List.mem_cons_of_mem _ he)),
      argumentDeltas_handle htraced.named (htraced.labelled event List.mem_cons_self),
      ownDeltas_cons, hnone, Option.getD_none, String.append_assoc]

theorem argumentDeltas_run {item : CallItem} {events : List (StreamEvent ρ)}
    (htraced : Traced item events) :
    OwnText item events (textOf (run events).argumentDeltas item.callId) where
  fragments hwhole := by
    have h := argumentDeltas_fragments htraced hwhole {}
    simpa [run, textOf] using h
  whole front event back value hevents hvalue hback := by
    subst hevents
    have hlater : Traced item back := ⟨htraced.named, fun e he =>
      htraced.labelled e (List.mem_append_right _ (List.mem_cons_of_mem _ he))⟩
    have hevent := htraced.labelled event (List.mem_append_right _ List.mem_cons_self)
    rw [run_append, List.foldl_cons, argumentDeltas_fragments hlater hback,
      argumentDeltas_handle htraced.named hevent, hvalue, Option.getD_some]

/-! The calls. -/

theorem call_own (item : CallItem) (before : List (StreamEvent ρ)) :
    OwnCall item before ((run before).call item) where
  id := rfl
  name := by rw [← functionNames_run]; rfl
  given hgiven := by simp [call, orText, hgiven]
  streamed hempty htraced :=
    ⟨_, argumentDeltas_run htraced, by simp [call, orText, hempty]⟩

theorem functionCalls_handle (s : Stream ρ) (event : StreamEvent ρ) :
    (s.handle event).functionCalls =
      s.functionCalls ++ (event.done?.map s.call).toList := by
  match event with
  | .created _ | .textDelta _ | .argumentsDelta _ | .itemDone .other
  | .itemAdded none | .itemAdded (some .other) | .completed _ | .other =>
      simp [handle, StreamEvent.done?]
  | .itemDone (.functionCall _) => rfl
  | .argumentsDone whole =>
      simp only [handle, StreamEvent.done?]
      split <;> simp
  | .itemAdded (some (.functionCall item)) =>
      simp only [handle, StreamEvent.done?]
      split <;> simp

theorem functionCalls_run_concat (events : List (StreamEvent ρ)) (event : StreamEvent ρ) :
    (run (events ++ [event])).functionCalls =
      (run events).functionCalls ++ (event.done?.map (run events).call).toList := by
  rw [run_append, List.foldl_cons, List.foldl_nil, functionCalls_handle]

theorem length_functionCalls (events : List (StreamEvent ρ)) :
    (run events).functionCalls.length = (doneItems events).length := by
  induction events using List.reverseRecOn with
  | nil => rfl
  | append_singleton events event ih =>
    rw [functionCalls_run_concat, List.length_append, ih, doneItems_append, List.length_append]
    cases h : event.done? <;> simp [doneItems, h]

/-- The call of a finished item stands at its place from its event on. -/
theorem getElem?_functionCalls (before after : List (StreamEvent ρ)) (item : CallItem) :
    (run (before ++ .itemDone (.functionCall item) :: after)).functionCalls[
        (doneItems before).length]? = some ((run before).call item) := by
  induction after using List.reverseRecOn with
  | nil =>
    rw [functionCalls_run_concat, ← length_functionCalls]
    exact List.getElem?_concat_length
  | append_singleton after event ih =>
    rw [← List.cons_append, ← List.append_assoc, functionCalls_run_concat,
      List.getElem?_append_left, ih]
    exact (List.getElem?_eq_some_iff.1 ih).1

end Stream

/-- The reply hands back the function calls where nobody else consumes the stream. -/
def Sdk.handsBack (sdk : Sdk ρ ν) (events : List (StreamEvent ρ)) : Prop :=
  sdk.toolExecution.isNone ∧
    ((Stream.run events).finalResponse.filter fun _ => sdk.parseToolOutputs) = none

theorem Sdk.reply_of_handsBack {sdk : Sdk ρ ν} {events : List (StreamEvent ρ)}
    (h : sdk.handsBack events) (hcalls : (Stream.run events).functionCalls ≠ []) :
    sdk.reply (Stream.run events) = .functionCalls (Stream.run events).functionCalls := by
  obtain ⟨hexecution, houtputs⟩ := h
  unfold Sdk.reply
  rw [houtputs, Option.isNone_iff_eq_none.1 hexecution]
  simp [hcalls]

theorem Sdk.eq_of_reply {sdk : Sdk ρ ν} {s : Stream ρ} {calls : List FunctionCall}
    (h : sdk.reply s = .functionCalls calls) : calls = s.functionCalls := by
  unfold Sdk.reply at h
  grind

/-- The two handlers give the same reply. The calls they hand back are one for each finished
item, in order, each with the id, the name and the arguments of its own item. -/
theorem functionCalls_own (sdk : Sdk ρ ν) (events : List (StreamEvent ρ)) :
    handleStreamingResponses sdk events = ahandleStreamingResponses sdk events ∧
      (sdk.handsBack events → doneItems events ≠ [] →
        ∃ calls, handleStreamingResponses sdk events = .functionCalls calls) ∧
      ∀ calls, handleStreamingResponses sdk events = .functionCalls calls →
        calls.length = (doneItems events).length ∧
          ∀ before item after, events = before ++ .itemDone (.functionCall item) :: after →
            ∃ call, calls[(doneItems before).length]? = some call ∧ OwnCall item before call := by
  refine ⟨rfl, fun hback hdone => ?_, fun calls hreply => ?_⟩
  · have hcalls : (Stream.run events).functionCalls ≠ [] := by
      intro h
      have hlength := Stream.length_functionCalls events
      rw [h] at hlength
      exact hdone (List.length_eq_zero_iff.1 hlength.symm)
    exact ⟨_, Sdk.reply_of_handsBack hback hcalls⟩
  · obtain rfl : calls = (Stream.run events).functionCalls := Sdk.eq_of_reply hreply
    refine ⟨Stream.length_functionCalls events, fun before item after hevents => ?_⟩
    subst hevents
    exact ⟨_, Stream.getElem?_functionCalls before after item, Stream.call_own item before⟩

/-- Fragments of two parallel calls, where the relay leaves out the arguments at the end. -/
example :
    (Stream.run (ρ := Unit) [.argumentsDelta ⟨"fc-1", "c1", "a"⟩, .argumentsDelta ⟨"fc-2", "c2", "x"⟩,
      .argumentsDelta ⟨"fc-1", "c1", "b"⟩, .itemDone (.functionCall ⟨"fc-2", "c2", "g", ""⟩),
      .itemDone (.functionCall ⟨"fc-1", "c1", "f", ""⟩)]).functionCalls =
        [⟨"c2", "g", "x"⟩, ⟨"c1", "f", "ab"⟩] := by
  decide +kernel

/-- A relay's call of a writer without its envelope. -/
def flattenedCall : CallItem where
  itemId := "fc-1"
  callId := "call-1"
  name := "write_module_design"
  arguments := "\x7b\"design_id\": \"d\", \"depth\": 1\x7d"

/-- The SDK of an agent that executes the calls itself. -/
def agentSdk : Sdk Unit Unit where
  parseToolOutputs := false
  builtinToolOutputs := id
  toolExecution := none
  structuredOutput := none
  applyStopWords := id
  afterCallHooks := fun _ => ()

/-- The arguments of a finished item are not always handed back as they are: the envelope is
put around them. -/
theorem flattened_call_wrapped :
    ¬ ∀ (events : List (StreamEvent Unit)) (calls : List FunctionCall),
      handleStreamingResponses agentSdk events = .functionCalls calls →
        ∀ before item after, events = before ++ .itemDone (.functionCall item) :: after →
          item.arguments ≠ "" →
            ∃ call, calls[(doneItems before).length]? = some call ∧
              call.arguments = item.arguments := by
  intro h
  obtain ⟨call, hcall, harguments⟩ := h [.itemDone (.functionCall flattenedCall)] _ rfl
    [] flattenedCall [] rfl (by decide +kernel)
  obtain rfl : Stream.call (ρ := Unit) {} flattenedCall = call := Option.some.inj hcall
  have hwrapped : (Stream.call (ρ := Unit) {} flattenedCall).arguments =
      "\x7b\"design\": \x7b\"design_id\": \"d\", \"depth\": 1\x7d\x7d" := by
    decide +kernel
  rw [hwrapped] at harguments
  exact absurd harguments (by decide +kernel)

end ProjectOS.Llm
