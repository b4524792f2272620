import ProjectOS.Base.JsonRepr
import ProjectOS.Error

/-! What a tool returns, and how the control plane tells a failure from a success. -/
namespace ProjectOS.ToolManager
open Base

inductive ToolResultStatus where
  | completed
  | failed
  | retryable
  | blocked
deriving DecidableEq, Repr

structure ToolResult where
  toolName : String
  status : ToolResultStatus
  message : String := ""
  data : Option Json := none
  errorType : Option String := none
  retryable : Bool := false
  expectedTool : Option String := none

/-- `str(error)`; that of a `KeyError` quotes the key. -/
def errorText : Error → String
  | .keyError key => Text.repr key
  | .valueError message | .typeError message | .fileNotFound message | .attributeError message
  | .runtimeError message | .permissionError message | .fileExists message => message

def classifyToolError : Error → String
  | .permissionError _ => "tool_authorization"
  | .fileNotFound _ | .keyError _ => "input_missing"
  | .typeError _ | .valueError _ => "tool_validation"
  | .fileExists _ => "tool_transport"
  | .attributeError _ | .runtimeError _ => "tool_execution"

namespace ToolResult

def ok (result : ToolResult) : Bool := result.status = .completed

def failure (toolName : String) (error : Error) : ToolResult :=
  let kind := classifyToolError error
  let retryable := kind ∈ ["tool_validation", "input_missing", "tool_transport", "tool_protocol"]
  { toolName := toolName
    status := if retryable then .retryable else .failed
    message := errorText error
    errorType := some kind
    retryable := retryable }

/-- `a or b`. -/
def either (a b : Json) : Json := if a.truthy then a else b

def isBool : Json → Bool
  | .bool _ => true
  | _ => false

def failedStatus (value : Json) : ToolResultStatus :=
  if (value.get "status").isStr "blocked" then .blocked
  else if (value.get "retryable").truthy || (value.get "status").isStr "retryable" then .retryable
  else .failed

/-- An envelope that reports its failure. -/
def ofFailed (toolName : String) (value : Json) : ToolResult :=
  let detail := either (value.get "errors") (value.get "details")
  let message :=
    (either (either (value.get "message") (value.get "error")) (.str "工具返回失败")).pyStr
  let errorType := (either (value.get "error_type") (.str "tool_result_invalid")).pyStr
  { toolName := toolName
    status := failedStatus value
    message := if detail.truthy then message ++ ": " ++ String.ofList detail.chars else message
    data := some value
    errorType := some errorType
    retryable := (value.get "retryable").truthy || failedStatus value = .retryable
    expectedTool := textOrNone (value.get "expected_tool") }

/-- `from_value` of an object. -/
def ofObject (toolName : String) (value : Json) : ToolResult :=
  match value.get? "ok" with
  | some (.bool false) => ofFailed toolName value
  | some (.bool true) | none => {
      toolName := toolName, status := .completed, message := value.pyStr, data := some value }
  | some _ => {
      toolName := toolName
      status := .failed
      message := "工具结果 ok 字段必须是 boolean"
      data := some value
      errorType := some "tool_result_invalid" }

/-- `from_value` of a text. -/
def ofText (toolName : String) (text : String) : ToolResult :=
  let plain := {
    toolName := toolName, status := .completed, message := text, data := some (.str text) }
  match Json.loads text with
  | some (.obj fields) =>
      if ((Json.obj fields).get "ok").isFalse then ofObject toolName (.obj fields) else plain
  | _ => plain

/-- `from_value`. -/
def fromValue (toolName : String) : Json → ToolResult
  | .obj fields => ofObject toolName (.obj fields)
  | .str text => ofText toolName text
  | value => {
      toolName := toolName, status := .completed, message := value.pyStr, data := some value }

end ToolResult

/-- The local sources; one of them hands its functions the execution context. -/
inductive SourceKind where
  | toolSet
  | executionToolSet
deriving DecidableEq

/-- `execute` of a source on a call that returns or raises; the error is the result that a
`ToolExecutionError` carries. -/
def execute (source : SourceKind) (hasContext : Bool) (name : String) (call : Result Json) :
    Except ToolResult String :=
  if source = .executionToolSet && !hasContext then
    .error (.failure name (.runtimeError
      ("工具 " ++ Text.quote name ++ " 必须由 GraphRunner 在 Trace 中执行")))
  else
    match call with
    | .error error => .error (.failure name error)
    | .ok value => .ok value.pyStr

inductive ToolError where
  | permission (message : String)
  | execution (result : ToolResult)

/-- `ProjectOSTool._run`. -/
def runTool (source : SourceKind) (authorized hasContext : Bool) (name : String)
    (call : Result Json) : Except ToolError String :=
  if !authorized then .error (.permission ("工具 " ++ Text.quote name ++ " 当前未获授权"))
  else
    match execute source hasContext name call with
    | .error result => .error (.execution result)
    | .ok text =>
        let result := ToolResult.fromValue name (.str text)
        if result.ok then .ok text else .error (.execution result)

/-- A `ToolExecutionError` was raised. -/
def Refuses (outcome : Except ToolError String) : Prop := ∃ result, outcome = .error (.execution result)

/-- The control plane sees the same in both results. -/
structure SameReading (a b : ToolResult) : Prop where
  status : a.status = b.status
  errorType : a.errorType = b.errorType
  retryable : a.retryable = b.retryable
  expectedTool : a.expectedTool = b.expectedTool

namespace ToolResult
variable {name text : String} {fields : List (String × Json)}

theorem failedStatus_ne_completed (value : Json) : failedStatus value ≠ .completed := by
  unfold failedStatus
  split
  · nofun
  · split <;> nofun

theorem ofFailed_ok (value : Json) : (ofFailed name value).ok = false := by
  simp [ok, ofFailed, failedStatus_ne_completed]

theorem isFalse_iff {value : Json} : value.isFalse = true ↔ value = .bool false := by
  cases value <;> simp [Json.isFalse]

theorem get_isFalse_iff :
    ((Json.obj fields).get "ok").isFalse = true ↔
      (Json.obj fields).get? "ok" = some (.bool false) := by
  rw [isFalse_iff, Json.get, Json.getD]
  cases (Json.obj fields).get? "ok" <;> simp

/-- A text is a failure only if it holds an object with a false `ok`. -/
theorem ofText_ok_iff (hload : Json.loads text = some (.obj fields)) :
    (ofText name text).ok = false ↔ (Json.obj fields).get? "ok" = some (.bool false) := by
  unfold ofText
  simp only [hload]
  by_cases hok : (Json.obj fields).get? "ok" = some (.bool false)
  · simp only [get_isFalse_iff.mpr hok, if_true, ofObject, hok, ofFailed_ok]
  · have hfalse : ((Json.obj fields).get "ok").isFalse = false := by
      rw [Bool.eq_false_iff, ne_eq, get_isFalse_iff]
      exact hok
    simp [hfalse, hok, ok]

theorem ofText_ok_of_not_json (h : Json.loads text = none) : (ofText name text).ok = true := by
  simp [ofText, h, ok]

end ToolResult

section Carried
variable {source : SourceKind} {name text : String} {fields : List (String × Json)}

theorem refuses_runTool_iff {value : Json} :
    Refuses (runTool source true true name (.ok value)) ↔
      (ToolResult.ofText name value.pyStr).ok = false := by
  unfold runTool execute Refuses
  cases hok : (ToolResult.ofText name value.pyStr).ok <;> simp [ToolResult.fromValue, hok]

theorem runTool_of_not_refuses {value : Json}
    (h : ¬ Refuses (runTool source true true name (.ok value))) :
    runTool source true true name (.ok value) = .ok value.pyStr := by
  rw [refuses_runTool_iff, Bool.not_eq_false] at h
  simp [runTool, execute, ToolResult.fromValue, h]

theorem mem_of_get? {key : String} {value : Json} (h : (Json.obj fields).get? key = some value) :
    (key, value) ∈ fields := by
  induction fields with
  | nil => cases h
  | cons field fields ih =>
    obtain ⟨k, v⟩ := field
    rw [Json.get?_obj_cons] at h
    split at h
    · rename_i hk
      cases h
      rw [hk]
      exact List.mem_cons_self
    · exact List.mem_cons_of_mem _ (ih h)

/-- The text of a Python dictionary is never read as the envelope that it shows. -/
theorem not_refuses_dict {value : Json} (h : (Json.obj fields).get? "ok" = some value) :
    ¬ Refuses (runTool source true true name (.ok (.obj fields))) := by
  rw [refuses_runTool_iff, Json.pyStr]
  · have hkey : (Text.repr "ok").toList = Text.apostrophe :: ['o', 'k', Text.apostrophe] := by decide
    rw [ToolResult.ofText_ok_of_not_json (Json.loads_repr (mem_of_get? h) hkey)]
    exact Bool.noConfusion
  · exact fun _ h => by cases h

/-- An object and its text are read alike when `ok` is absent or Boolean. -/
theorem sameReading_iff (hload : Json.loads text = some (.obj fields)) :
    SameReading (ToolResult.fromValue name (.obj fields)) (ToolResult.fromValue name (.str text)) ↔
      ∀ value, (Json.obj fields).get? "ok" = some value → ToolResult.isBool value = true := by
  unfold ToolResult.fromValue ToolResult.ofText
  simp only [hload]
  by_cases hfalse : (Json.obj fields).get? "ok" = some (.bool false)
  · rw [if_pos (ToolResult.get_isFalse_iff.mpr hfalse)]
    refine iff_of_true ⟨rfl, rfl, rfl, rfl⟩ fun value hvalue => ?_
    cases hfalse.symm.trans hvalue
    rfl
  · rw [if_neg (mt ToolResult.get_isFalse_iff.mp hfalse)]
    cases hok : (Json.obj fields).get? "ok" with
    | none =>
      simp only [ToolResult.ofObject, hok]
      exact iff_of_true ⟨rfl, rfl, rfl, rfl⟩ fun _ h => by cases h
    | some value =>
      by_cases hbool : ToolResult.isBool value = true
      · have htrue : value = .bool true := by
          cases value with
          | bool b =>
            cases b with
            | false => exact absurd hok hfalse
            | true => rfl
          | _ => cases hbool
        simp only [ToolResult.ofObject, hok, htrue]
        refine iff_of_true ⟨rfl, rfl, rfl, rfl⟩ fun _ h => ?_
        cases h
        rfl
      · have hstatus : (ToolResult.ofObject name (.obj fields)).status = .failed := by
          unfold ToolResult.ofObject
          cases value <;> simp_all [ToolResult.isBool]
        refine iff_of_false (fun h => ?_) fun h => hbool (h value rfl)
        have hsame := h.status
        rw [hstatus] at hsame
        cases hsame

end Carried

/-- A failed call raises exactly when its envelope is a JSON text with `ok` false, and an envelope
is read alike in both forms exactly when its `ok` is Boolean. -/
theorem toolFailures_refused_iff (source : SourceKind) (name : String)
    (fields : List (String × Json)) :
    (∀ value, (Json.obj fields).get? "ok" = some value → value ≠ .bool true →
      (∀ text, Json.loads text = some (.obj fields) →
        (Refuses (runTool source true true name (.ok (.str text))) ↔ value = .bool false)) ∧
      ¬ Refuses (runTool source true true name (.ok (.obj fields)))) ∧
    ∀ text, Json.loads text = some (.obj fields) →
      (SameReading (ToolResult.fromValue name (.obj fields))
          (ToolResult.fromValue name (.str text)) ↔
        ∀ value, (Json.obj fields).get? "ok" = some value → ToolResult.isBool value = true) := by
  refine ⟨fun value hvalue _ => ⟨fun text hload => ?_, not_refuses_dict hvalue⟩,
    fun text hload => sameReading_iff hload⟩
  rw [refuses_runTool_iff, Json.pyStr_str, ToolResult.ofText_ok_iff hload, hvalue,
    Option.some.injEq]

/-- A dictionary with `ok` false is taken for a success, and so is the text of one without a
Boolean `ok`, which as an object is a failure. -/
theorem toolFailures_accepted :
    runTool .toolSet true true "save" (.ok (.obj [("ok", .bool false)])) =
        .ok "\x7b'ok': False\x7d" ∧
      (∃ text, Json.loads text = some (.obj [("ok", .null)]) ∧
        runTool .toolSet true true "save" (.ok (.str text)) = .ok text ∧
        ¬ SameReading (ToolResult.fromValue "save" (.obj [("ok", .null)]))
          (ToolResult.fromValue "save" (.str text))) := by
  have hload : Json.loads (String.ofList (Json.obj [("ok", .null)]).chars) =
      some (.obj [("ok", .null)]) := Json.loads_chars rfl
  refine ⟨runTool_of_not_refuses (not_refuses_dict rfl), _, hload, ?_, ?_⟩
  · apply runTool_of_not_refuses
    rw [refuses_runTool_iff, Json.pyStr_str, ToolResult.ofText_ok_iff hload]
    intro h
    cases Option.some.inj h
  · rw [sameReading_iff hload]
    intro h
    cases h .null rfl

end ProjectOS.ToolManager
