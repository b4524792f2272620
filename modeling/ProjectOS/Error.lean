import ProjectOS.Base.Json
import ProjectOS.Base.Raise

/-! The exceptions the control plane raises, with their messages. -/
namespace ProjectOS
open Base

inductive Error where
  | valueError (message : String)
  | keyError (key : String)
  | typeError (message : String)
  | fileNotFound (message : String)
  | attributeError (message : String)
  | runtimeError (message : String)
  | permissionError (message : String)
  | fileExists (message : String)
deriving DecidableEq, Repr

abbrev Result := Except Error

def raise (message : String) : Result α := .error (.valueError message)

def raiseWhen (cond : Bool) (message : String) : Result Unit := raiseIf cond (.valueError message)

@[simp] theorem raiseWhen_bind_eq_ok {cond : Bool} {message : String} {f : Unit → Result β} {b : β} :
    raiseWhen cond message >>= f = .ok b ↔ cond = false ∧ f () = .ok b := raiseIf_bind_eq_ok

@[simp] theorem raiseWhen_eq_ok {cond : Bool} {message : String} {u : Unit} :
    raiseWhen cond message = .ok u ↔ cond = false := raiseIf_eq_ok

@[simp] theorem raise_ne_ok {message : String} {a : α} : raise message ≠ .ok a := nofun

/-- `payload[key]`. -/
def require (payload : Json) (key : String) : Result Json :=
  match payload.get? key with
  | some value => .ok value
  | none => .error (.keyError key)

/-- `d[key]`. -/
def subscript (d : Dict String ν) (key : String) : Result ν :=
  match d.get? key with
  | some value => .ok value
  | none => .error (.keyError key)

@[simp] theorem subscript_eq_ok {d : Dict String ν} {key : String} {value : ν} :
    subscript d key = .ok value ↔ d.get? key = some value := by
  unfold subscript
  split <;> simp [*]

/-- `str(value) if value else None`. -/
def textOrNone (value : Json) : Option String := if value.truthy then some value.pyStr else none

/-- `tuple(str(value) for value in values)`. -/
def texts (values : Json) : Result (List String) :=
  match values.iterate? with
  | some items => .ok (items.map Json.pyStr)
  | none => .error (.typeError "object is not iterable")

@[simp] theorem texts_strs (values : List String) : texts (Json.strs values) = .ok values := by
  simp [texts]

/-- `int(value)`. -/
def pyInt (value : Json) : Result Int :=
  match value with
  | .int i => .ok i
  | .bool b => .ok (if b then 1 else 0)
  | .str text =>
      match (Text.strip text).toInt? with
      | some i => .ok i
      | none => raise ("invalid literal for int() with base 10: " ++ Text.repr text)
  | _ => .error (.typeError "int() argument must be a string or a number")

@[simp] theorem pyInt_int (i : Int) : pyInt (.int i) = .ok i := rfl

/-- `Enum(value)`: the member with that value. -/
def enumMember (name : String) (members : List α) (value : α → String) (text : String) :
    Result α :=
  match members.find? fun m => value m == text with
  | some m => .ok m
  | none => raise (Text.repr text ++ " is not a valid " ++ name)

end ProjectOS
