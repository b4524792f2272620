import ProjectOS.Base.Dict
import ProjectOS.Base.Text

/-! JSON values as Python objects: `dict.get`, `str(value)` and the canonical
`json.dumps(value, ensure_ascii=False, sort_keys=True, separators=(",", ":"))`.
Numbers are integers; no payload of the control plane holds a fraction. -/
namespace ProjectOS.Base

inductive Json where
  | null
  | bool (b : Bool)
  | int (value : Int)
  | str (text : String)
  | arr (items : List Json)
  | obj (fields : List (String × Json))

namespace Json

def strs (texts : List String) : Json := .arr (texts.map .str)

def nat (n : Nat) : Json := .int n

def optStr : Option String → Json
  | some text => .str text
  | none => .null

def optInt : Option Int → Json
  | some value => .int value
  | none => .null

def lookup (key : String) : List (String × Json) → Option Json
  | [] => none
  | (k, value) :: rest => if k = key then some value else lookup key rest

/-- `payload.get(key)`; only called on dictionaries. -/
def get? (payload : Json) (key : String) : Option Json :=
  match payload with
  | .obj fields => lookup key fields
  | _ => none

/-- `payload.get(key, default)`. -/
def getD (payload : Json) (key : String) (default : Json) : Json :=
  (payload.get? key).getD default

/-- `payload.get(key)`, absent read as `None`. -/
def get (payload : Json) (key : String) : Json := payload.getD key .null

def setField (key : String) (value : Json) : List (String × Json) → List (String × Json)
  | [] => [(key, value)]
  | (k, v) :: rest => if k = key then (k, value) :: rest else (k, v) :: setField key value rest

/-- `{**payload, key: value}`. -/
def set (payload : Json) (key : String) (value : Json) : Json :=
  match payload with
  | .obj fields => .obj (setField key value fields)
  | other => other

def isDict : Json → Bool
  | .obj _ => true
  | _ => false

def isNull : Json → Bool
  | .null => true
  | _ => false

def isStr : Json → String → Bool
  | .str text, expected => text == expected
  | _, _ => false

/-- `value == expected`; a Boolean equals zero or one. -/
def isInt : Json → Int → Bool
  | .int value, expected => value == expected
  | .bool b, expected => (if b then 1 else 0) == expected
  | _, _ => false

/-- `value is True`. -/
def isTrue : Json → Bool
  | .bool b => b
  | _ => false

/-- `value is False`. -/
def isFalse : Json → Bool
  | .bool b => !b
  | _ => false

/-- `bool(value)`. -/
def truthy : Json → Bool
  | .null => false
  | .bool b => b
  | .int value => value != 0
  | .str text => text != ""
  | .arr items => !items.isEmpty
  | .obj fields => !fields.isEmpty

def escapeChar (c : Char) : List Char :=
  if c = Text.quotationMark || c = Text.backslash then [Text.backslash, c]
  else if c = '\n' then [Text.backslash, 'n']
  else if c = '\r' then [Text.backslash, 'r']
  else if c = '\t' then [Text.backslash, 't']
  else if c.toNat = 8 then [Text.backslash, 'b']
  else if c.toNat = 12 then [Text.backslash, 'f']
  else if c.toNat < 32 then
    [Text.backslash, 'u', '0', '0', (Nat.toDigits 16 (c.toNat / 16)).headD '0',
      (Nat.toDigits 16 (c.toNat % 16)).headD '0']
  else [c]

def quoted (text : String) : String :=
  String.ofList ([Text.quotationMark] ++ text.toList.flatMap escapeChar ++ [Text.quotationMark])

/-- Fields in key order; `sort_keys` compares the names only. -/
def sortFields (fields : List (String × String)) : List (String × String) :=
  fields.insertionSort (fun a b => a.1 ≤ b.1)

mutual

def dumps : Json → String
  | .null => "null"
  | .bool b => if b then "true" else "false"
  | .int value => toString value
  | .str text => quoted text
  | .arr items => "[" ++ Text.join "," (dumpsItems items) ++ "]"
  | .obj fields =>
      "\x7b" ++ Text.join "," ((sortFields (dumpsFields fields)).map fun e =>
        quoted e.1 ++ ":" ++ e.2) ++ "\x7d"

def dumpsItems : List Json → List String
  | [] => []
  | value :: rest => value.dumps :: dumpsItems rest

def dumpsFields : List (String × Json) → List (String × String)
  | [] => []
  | (key, value) :: rest => (key, value.dumps) :: dumpsFields rest

end

mutual

/-- `repr(value)`. -/
def repr : Json → String
  | .null => "None"
  | .bool b => if b then "True" else "False"
  | .int value => toString value
  | .str text => Text.repr text
  | .arr items => "[" ++ Text.join ", " (reprItems items) ++ "]"
  | .obj fields => "\x7b" ++ Text.join ", " (reprFields fields) ++ "\x7d"

def reprItems : List Json → List String
  | [] => []
  | value :: rest => value.repr :: reprItems rest

def reprFields : List (String × Json) → List String
  | [] => []
  | (key, value) :: rest => (Text.repr key ++ ": " ++ value.repr) :: reprFields rest

end

/-- `str(value)`. -/
def pyStr : Json → String
  | .str text => text
  | value => value.repr

/-- `str(value) if value is not None else None`. -/
def optText : Json → Option String
  | .null => none
  | value => some value.pyStr

/-- The items of `for item in value`; a string iterates over its characters,
a dictionary over its keys, and no other value is iterable. -/
def iterate? : Json → Option (List Json)
  | .arr items => some items
  | .str text => some (text.toList.map fun c => .str (String.singleton c))
  | .obj fields => some (fields.map fun e => .str e.1)
  | _ => none

@[simp] theorem pyStr_str (text : String) : (Json.str text).pyStr = text := rfl

@[simp] theorem optText_optStr (text : Option String) : (optStr text).optText = text := by
  cases text <;> rfl

theorem pyStr_ne_empty {value : Json} (h : value.truthy = true) : value.pyStr ≠ "" := by
  have hne {s : String} (hs : s.toList ≠ []) : s ≠ "" := fun he => hs (he ▸ rfl)
  cases value with
  | null => cases h
  | bool b => cases b <;> decide
  | int i =>
    apply hne
    cases i with
    | ofNat n => simp [pyStr, repr, toString, Int.repr, Nat.repr]
    | negSucc n => simp [pyStr, repr, toString, Int.repr]
  | str text => simpa [truthy] using h
  | arr items => exact hne (by simp [pyStr, repr])
  | obj fields => exact hne (by simp [pyStr, repr])

@[simp] theorem isTrue_bool (b : Bool) : (Json.bool b).isTrue = b := rfl

@[simp] theorem isFalse_bool (b : Bool) : (Json.bool b).isFalse = !b := rfl

@[simp] theorem iterate?_strs (texts : List String) :
    (strs texts).iterate? = some (texts.map .str) := rfl

@[simp] theorem pyStr_comp_str : pyStr ∘ str = id := rfl

@[simp] theorem get?_obj_cons (key k : String) (value : Json) (rest : List (String × Json)) :
    (Json.obj ((k, value) :: rest)).get? key =
      if k = key then some value else (Json.obj rest).get? key := rfl

@[simp] theorem get?_obj_nil (key : String) : (Json.obj []).get? key = none := rfl

@[simp] theorem isDict_obj (fields : List (String × Json)) : (Json.obj fields).isDict = true := rfl

/-- Distinct names make lookup exact. -/
theorem get?_obj_eq_some_iff {fields : List (String × Json)} {key : String} {value : Json}
    (h : (fields.map Prod.fst).Nodup) :
    (Json.obj fields).get? key = some value ↔ (key, value) ∈ fields := by
  induction fields with
  | nil => simp
  | cons e rest ih =>
    obtain ⟨k, v⟩ := e
    rw [List.map_cons, List.nodup_cons] at h
    rw [get?_obj_cons]
    by_cases hk : k = key
    · subst hk
      have habsent : (k, value) ∉ rest := fun hmem => h.1 (List.mem_map.mpr ⟨_, hmem, rfl⟩)
      simp [habsent, eq_comm]
    · simp [hk, Ne.symm hk, ih h.2]

example : dumps (.obj [("b", .arr [.null, .int (-3)]), ("a", .str "x")]) =
    "\x7b\"a\":\"x\",\"b\":[null,-3]\x7d" := by decide

end Json
end ProjectOS.Base
