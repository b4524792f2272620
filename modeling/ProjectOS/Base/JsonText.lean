import ProjectOS.Base.Json

/-! The text of a JSON value as `json.dumps(value, ensure_ascii=False)` writes it,
and `json.loads` as one pass over the characters with a stack of the open arrays
and dictionaries. Fractions and lone surrogates are no values here. -/
namespace ProjectOS.Base.Json

def quotedChars (text : String) : List Char :=
  Text.quotationMark :: (text.toList.flatMap escapeChar ++ [Text.quotationMark])

mutual

/-- The characters of `json.dumps(value, ensure_ascii=False)`. -/
def chars : Json → List Char
  | .null => ['n', 'u', 'l', 'l']
  | .bool b => if b then ['t', 'r', 'u', 'e'] else ['f', 'a', 'l', 's', 'e']
  | .int value => (toString value).toList
  | .str text => quotedChars text
  | .arr items => '[' :: ([',', ' '].intercalate (itemChars items) ++ [']'])
  | .obj fields => '{' :: ([',', ' '].intercalate (fieldChars fields) ++ ['}'])

def itemChars : List Json → List (List Char)
  | [] => []
  | value :: rest => value.chars :: itemChars rest

def fieldChars : List (String × Json) → List (List Char)
  | [] => []
  | (key, value) :: rest => (quotedChars key ++ ':' :: ' ' :: value.chars) :: fieldChars rest

end

mutual

/-- The keys of each dictionary differ, as those of a Python `dict` do. -/
def distinct : Json → Bool
  | .arr items => distinctItems items
  | .obj fields => decide (fields.map Prod.fst).Nodup && distinctFields fields
  | _ => true

def distinctItems : List Json → Bool
  | [] => true
  | value :: rest => value.distinct && distinctItems rest

def distinctFields : List (String × Json) → Bool
  | [] => true
  | (_, value) :: rest => value.distinct && distinctFields rest

end

/-- A Python `dict` with texts as keys. -/
abbrev Payload := { fields : List (String × Json) // (obj fields).distinct = true }

instance : Inhabited Payload := ⟨⟨[], rfl⟩⟩

mutual

/-- All strings of a value, keys included. -/
def strings : Json → List String
  | .str text => [text]
  | .arr items => stringsOfItems items
  | .obj fields => stringsOfFields fields
  | _ => []

def stringsOfItems : List Json → List String
  | [] => []
  | value :: rest => value.strings ++ stringsOfItems rest

def stringsOfFields : List (String × Json) → List String
  | [] => []
  | (key, value) :: rest => key :: value.strings ++ stringsOfFields rest

end

theorem mem_stringsOfFields {fields : List (String × Json)} {text : String} :
    text ∈ stringsOfFields fields ↔
      ∃ field ∈ fields, text = field.1 ∨ text ∈ field.2.strings := by
  induction fields with
  | nil => simp [stringsOfFields]
  | cons field rest ih =>
    obtain ⟨key, value⟩ := field
    simp [stringsOfFields, ih, or_assoc]

theorem stringsOfItems_texts (texts : List String) : stringsOfItems (texts.map .str) = texts := by
  induction texts with
  | nil => rfl
  | cons text rest ih => simp [stringsOfItems, strings, ih]

@[simp] theorem strings_strs (texts : List String) : (strs texts).strings = texts :=
  stringsOfItems_texts texts

@[simp] theorem strings_optStr (text : Option String) : (optStr text).strings = text.toList := by
  cases text <;> rfl

@[simp] theorem strings_optInt (value : Option Int) : (optInt value).strings = [] := by
  cases value <;> rfl

theorem distinctItems_texts (texts : List String) : distinctItems (texts.map .str) = true := by
  induction texts with
  | nil => rfl
  | cons text rest ih => simp [distinctItems, distinct, ih]

@[simp] theorem distinct_strs (texts : List String) : (strs texts).distinct = true :=
  distinctItems_texts texts

@[simp] theorem distinct_optStr (text : Option String) : (optStr text).distinct = true := by
  cases text <;> rfl

@[simp] theorem distinct_optInt (value : Option Int) : (optInt value).distinct = true := by
  cases value <;> rfl

/-- Where the reader is between two characters; the characters read are in reverse. -/
inductive Mode where
  | between
  | atom (rev : List Char)
  | text (rev : List Nat)
  | escaped (rev : List Nat)
  | hex (rev digits : List Nat)

/-- What has to come next: a value or a key, where `first` allows the end of an
empty array or dictionary instead. -/
inductive Goal where
  | value (first : Bool)
  | key (fields : List (String × Json)) (first : Bool)
  | colon (fields : List (String × Json)) (key : String)
  | complete (value : Json)

/-- An open array, or a dictionary open at the value of a key. -/
inductive Frame where
  | items (rev : List Json)
  | fields (fields : List (String × Json)) (key : String)

structure Reader where
  mode : Mode
  goal : Goal
  stack : List Frame

/-- Numbers and the constants are runs of these. -/
def isAtomChar (c : Char) : Bool :=
  Text.isAsciiLetter c || Text.isAsciiDigit c || c = '-' || c = '+' || c = '.'

def natOfDigits (digits : List Char) : Option Nat :=
  if digits = [] || !digits.all Char.isDigit then none
  else if digits.head? = some '0' && digits ≠ ['0'] then none
  else some (Nat.ofDigitChars 10 digits 0)

def atomValue : List Char → Option Json
  | ['n', 'u', 'l', 'l'] => some .null
  | ['t', 'r', 'u', 'e'] => some (.bool true)
  | ['f', 'a', 'l', 's', 'e'] => some (.bool false)
  | '-' :: digits => (natOfDigits digits).map fun n => .int (-n)
  | digits => (natOfDigits digits).map fun n => .int n

/-- Code points with an escaped surrogate pair joined. -/
def joinUnits : List Nat → Option (List Char)
  | [] => some []
  | high :: low :: rest =>
      if 0xD800 ≤ high && high < 0xDC00 && 0xDC00 ≤ low && low < 0xE000 then
        (joinUnits rest).map fun cs =>
          Char.ofNat (0x10000 + (high - 0xD800) * 0x400 + (low - 0xDC00)) :: cs
      else if high.isValidChar then (joinUnits (low :: rest)).map fun cs => Char.ofNat high :: cs
      else none
  | [unit] => if unit.isValidChar then some [Char.ofNat unit] else none

def escapedUnit (c : Char) : Option Nat :=
  if c = Text.quotationMark || c = Text.backslash || c = '/' then some c.toNat
  else if c = 'b' then some 8
  else if c = 'f' then some 12
  else if c = 'n' then some 10
  else if c = 'r' then some 13
  else if c = 't' then some 9
  else none

def hexDigit (c : Char) : Option Nat :=
  if Text.isAsciiDigit c then some (c.toNat - '0'.toNat)
  else if 'a' ≤ c && c ≤ 'f' then some (c.toNat - 'a'.toNat + 10)
  else if 'A' ≤ c && c ≤ 'F' then some (c.toNat - 'A'.toNat + 10)
  else none

namespace Reader

def feedValue (r : Reader) (value : Json) : Option Reader :=
  match r.goal with
  | .value _ => some ⟨.between, .complete value, r.stack⟩
  | _ => none

def feedText (r : Reader) (text : String) : Option Reader :=
  match r.goal with
  | .value _ => some ⟨.between, .complete (.str text), r.stack⟩
  | .key fields _ => some ⟨.between, .colon fields text, r.stack⟩
  | _ => none

def punctuate (goal : Goal) (stack : List Frame) (c : Char) : Option Reader :=
  match goal, stack with
  | .value first, stack =>
      if c = '[' then some ⟨.between, .value true, .items [] :: stack⟩
      else if c = '{' then some ⟨.between, .key [] true, stack⟩
      else if c = ']' && first then some ⟨.between, .complete (.arr []), stack.tail⟩
      else none
  | .key fields first, stack =>
      if c = '}' && first then some ⟨.between, .complete (.obj fields), stack⟩ else none
  | .colon fields key, stack =>
      if c = ':' then some ⟨.between, .value false, .fields fields key :: stack⟩ else none
  | .complete value, .items rev :: stack =>
      if c = ',' then some ⟨.between, .value false, .items (value :: rev) :: stack⟩
      else if c = ']' then some ⟨.between, .complete (.arr (value :: rev).reverse), stack⟩
      else none
  | .complete value, .fields fields key :: stack =>
      if c = ',' then some ⟨.between, .key (setField key value fields) false, stack⟩
      else if c = '}' then some ⟨.between, .complete (.obj (setField key value fields)), stack⟩
      else none
  | .complete _, [] => none

def readBetween (r : Reader) (c : Char) : Option Reader :=
  if c = ' ' || c = '\t' || c = '\n' || c = '\r' then some { r with mode := .between }
  else if isAtomChar c then some { r with mode := .atom [c] }
  else if c = Text.quotationMark then some { r with mode := .text [] }
  else punctuate r.goal r.stack c

/-- What a number or a constant comes to at its end. -/
def settle (r : Reader) : Option Reader :=
  match r.mode with
  | .between => some r
  | .atom rev => (atomValue rev.reverse).bind r.feedValue
  | _ => none

def step (r : Reader) (c : Char) : Option Reader :=
  match r.mode with
  | .between => r.readBetween c
  | .atom rev =>
      if isAtomChar c then some { r with mode := .atom (c :: rev) }
      else r.settle.bind fun settled => settled.readBetween c
  | .text rev =>
      if c = Text.quotationMark then
        (joinUnits rev.reverse).bind fun cs => r.feedText (String.ofList cs)
      else if c = Text.backslash then some { r with mode := .escaped rev }
      else if c.toNat < 32 then none
      else some { r with mode := .text (c.toNat :: rev) }
  | .escaped rev =>
      if c = 'u' then some { r with mode := .hex rev [] }
      else (escapedUnit c).map fun unit => { r with mode := .text (unit :: rev) }
  | .hex rev digits => (hexDigit c).map fun digit =>
      if digits.length = 3 then
        { r with mode := .text ((digits.reverse ++ [digit]).foldl (16 * · + ·) 0 :: rev) }
      else { r with mode := .hex rev (digit :: digits) }

def run (r : Reader) (cs : List Char) : Option Reader := cs.foldlM step r

def start : Reader := ⟨.between, .value false, []⟩

end Reader

/-- `json.loads(text)`, none where it raises `JSONDecodeError`. -/
def loads (text : String) : Option Json :=
  match (Reader.start.run text.toList).bind Reader.settle with
  | some ⟨_, .complete value, []⟩ => some value
  | _ => none

/-! What is written is read back. -/

theorem eq_zero_of_head?_toDigits {n : Nat} (h : (Nat.toDigits 10 n).head? = some '0') : n = 0 := by
  induction n using Nat.strongRecOn with
  | ind n ih =>
    by_cases hn : n < 10
    · have hzero : ∀ m < 10, Nat.digitChar m = '0' → m = 0 := by decide
      rw [Nat.toDigits_of_lt_base hn] at h
      exact hzero n hn (Option.some.inj h)
    · rw [Nat.toDigits_of_base_le (by decide) (by omega),
        List.head?_append_of_ne_nil _ Nat.toDigits_ne_nil] at h
      have := ih (n / 10) (by omega) h
      omega

theorem natOfDigits_toDigits (n : Nat) : natOfDigits (Nat.toDigits 10 n) = some n := by
  have hall : (Nat.toDigits 10 n).all Char.isDigit = true := by
    rw [List.all_eq_true]
    intro c hc
    exact Nat.isDigit_of_mem_toDigits (by decide) (by decide) hc
  have hzero : ¬ ((Nat.toDigits 10 n).head? = some '0' ∧ Nat.toDigits 10 n ≠ ['0']) := by
    rintro ⟨hhead, hne⟩
    rw [eq_zero_of_head?_toDigits hhead] at hne
    exact hne rfl
  unfold natOfDigits
  rw [if_neg (by simp [hall, Nat.toDigits_ne_nil]), if_neg (by simpa using hzero),
    Nat.ofDigitChars_ten_toDigits]

theorem toList_toString_int (i : Int) :
    (toString i).toList = if i < 0 then '-' :: Nat.toDigits 10 i.natAbs
      else Nat.toDigits 10 i.natAbs := by
  rw [Int.toString_eq_repr]
  cases i with
  | ofNat n => simp [Int.repr]
  | negSucc n => simp [Int.repr]

theorem atomValue_toDigits (n : Nat) : atomValue (Nat.toDigits 10 n) = some (.int n) := by
  have hdigit : ∀ c ∈ Nat.toDigits 10 n, c.isDigit = true := fun c hc =>
    Nat.isDigit_of_mem_toDigits (by decide) (by decide) hc
  have hvalue := natOfDigits_toDigits n
  cases hdigits : Nat.toDigits 10 n with
  | nil => exact absurd hdigits Nat.toDigits_ne_nil
  | cons c rest =>
    have hc : c.isDigit = true := hdigit c (by simp [hdigits])
    rw [hdigits] at hvalue
    unfold atomValue
    split
    all_goals first
      | (rename_i heq; cases heq; exact absurd hc (by decide))
      | skip
    simp [hvalue]

theorem atomValue_toString (i : Int) : atomValue (toString i).toList = some (.int i) := by
  rw [toList_toString_int]
  split
  · have hneg : -(i.natAbs : Int) = i := by omega
    rw [atomValue, natOfDigits_toDigits]
    exact congrArg (fun i => some (Json.int i)) hneg
  · rw [atomValue_toDigits, Option.some.injEq, Json.int.injEq]
    omega

theorem isAtomChar_of_isDigit {c : Char} (h : c.isDigit = true) : isAtomChar c = true := by
  have : Text.isAsciiDigit c = true := by
    simpa [Text.isAsciiDigit, Char.isDigit, Char.le_def] using h
  simp [isAtomChar, this]

theorem isAtomChar_of_mem_toString {i : Int} {c : Char} (h : c ∈ (toString i).toList) :
    isAtomChar c = true := by
  have hdigit {n : Nat} (hc : c ∈ Nat.toDigits 10 n) : isAtomChar c = true :=
    isAtomChar_of_isDigit (Nat.isDigit_of_mem_toDigits (by decide) (by decide) hc)
  rw [toList_toString_int] at h
  split at h
  · obtain rfl | h := List.mem_cons.mp h
    · decide
    · exact hdigit h
  · exact hdigit h

namespace Reader
variable {goal : Goal} {stack : List Frame}

theorem run_append (r : Reader) (cs ds : List Char) :
    r.run (cs ++ ds) = (r.run cs).bind fun r' => r'.run ds := List.foldlM_append

theorem run_cons (r : Reader) (c : Char) (cs : List Char) :
    r.run (c :: cs) = (r.step c).bind fun r' => r'.run cs := List.foldlM_cons

@[simp] theorem run_nil (r : Reader) : r.run [] = some r := rfl

theorem run_atom {cs : List Char} (h : ∀ c ∈ cs, isAtomChar c = true) (rev : List Char) :
    run ⟨.atom rev, goal, stack⟩ cs = some ⟨.atom (cs.reverse ++ rev), goal, stack⟩ := by
  induction cs generalizing rev with
  | nil => rfl
  | cons c cs ih =>
    rw [run_cons]
    simp only [step, h c List.mem_cons_self, if_true, Option.bind_some]
    rw [ih fun d hd => h d (List.mem_cons_of_mem _ hd)]
    simp

theorem readBetween_of_isAtomChar {r : Reader} {c : Char} (h : isAtomChar c = true) :
    r.readBetween c = some { r with mode := .atom [c] } := by
  have hspace : ¬ ((c = ' ' || c = '\t' || c = '\n' || c = '\r') = true) := by
    intro hspace
    simp only [Bool.or_eq_true, decide_eq_true_eq] at hspace
    obtain ((rfl | rfl) | rfl) | rfl := hspace <;> exact absurd h (by decide)
  simp only [readBetween, if_neg hspace, h, if_true]

/-- Once the run of characters ends, a number or a constant is a complete value. -/
theorem settle_run_atom {cs : List Char} {value : Json} (hvalue : atomValue cs = some value)
    (h : ∀ c ∈ cs, isAtomChar c = true) (first : Bool) :
    (run ⟨.between, .value first, stack⟩ cs).bind settle =
      some ⟨.between, .complete value, stack⟩ := by
  cases cs with
  | nil => cases hvalue
  | cons c cs =>
    rw [run_cons]
    simp only [step, readBetween_of_isAtomChar (h c List.mem_cons_self), Option.bind_some]
    rw [run_atom fun d hd => h d (List.mem_cons_of_mem _ hd)]
    simp [settle, hvalue, feedValue]

theorem hexDigit_toDigits : ∀ n < 16,
    hexDigit ((Nat.toDigits 16 n).headD '0') = some n := by decide

/-- An escaped character is read as itself. -/
theorem run_escapeChar (c : Char) (rev : List Nat) :
    run ⟨.text rev, goal, stack⟩ (escapeChar c) = some ⟨.text (c.toNat :: rev), goal, stack⟩ := by
  have hescape {d : Char} {unit : Nat} (hu : d ≠ 'u') (hunit : escapedUnit d = some unit) :
      run ⟨.text rev, goal, stack⟩ [Text.backslash, d] =
        some ⟨.text (unit :: rev), goal, stack⟩ := by
    rw [run_cons]
    simp only [step, show Text.backslash ≠ Text.quotationMark by decide, if_false, if_true,
      Option.bind_some, run_cons, hu, hunit, Option.map_some, run_nil]
  unfold escapeChar
  split
  · rename_i hc
    simp only [Bool.or_eq_true, decide_eq_true_eq] at hc
    refine hescape ?_ ?_ <;> obtain rfl | rfl := hc <;> decide
  · rename_i hplain
    simp only [Bool.or_eq_true, decide_eq_true_eq, not_or] at hplain
    split
    · subst_vars
      exact hescape (by decide) (by decide)
    split
    · subst_vars
      exact hescape (by decide) (by decide)
    split
    · subst_vars
      exact hescape (by decide) (by decide)
    split
    · rename_i hc
      rw [hc]
      exact hescape (by decide) (by decide)
    split
    · rename_i hc
      rw [hc]
      exact hescape (by decide) (by decide)
    split
    · rename_i hc
      have hhigh := hexDigit_toDigits (c.toNat / 16) (by omega)
      have hlow := hexDigit_toDigits (c.toNat % 16) (by omega)
      have hzero : hexDigit '0' = some 0 := by decide
      have hunit : 16 * (c.toNat / 16) + c.toNat % 16 = c.toNat := by omega
      rw [run_cons]
      simp only [step, show Text.backslash ≠ Text.quotationMark by decide, if_false, if_true,
        Option.bind_some, run_cons, hzero, hhigh, hlow, Option.map_some, run_nil]
      simp [hunit]
    · rename_i hc
      rw [run_cons]
      simp only [step, hplain.1, hplain.2, hc, if_false, Option.bind_some, run_nil]

theorem run_escaped (cs : List Char) (rev : List Nat) :
    run ⟨.text rev, goal, stack⟩ (cs.flatMap escapeChar) =
      some ⟨.text ((cs.map Char.toNat).reverse ++ rev), goal, stack⟩ := by
  induction cs generalizing rev with
  | nil => rfl
  | cons c cs ih =>
    rw [List.flatMap_cons, run_append, run_escapeChar, Option.bind_some, ih]
    simp

end Reader

theorem joinUnits_toNat (cs : List Char) : joinUnits (cs.map Char.toNat) = some cs := by
  induction cs with
  | nil => rfl
  | cons c cs ih =>
    have hvalid : c.toNat.isValidChar := c.valid
    have hhigh : ¬ (0xD800 ≤ c.toNat ∧ c.toNat < 0xDC00) := by
      intro ⟨hle, hlt⟩
      obtain h | ⟨h, _⟩ := hvalid <;> omega
    cases cs with
    | nil => simp [joinUnits, hvalid, Char.ofNat_toNat]
    | cons d cs =>
      rw [List.map_cons, List.map_cons, joinUnits, if_neg (by simp; omega), if_pos hvalid,
        ← List.map_cons, ih]
      simp [Char.ofNat_toNat]

namespace Reader
variable {goal : Goal} {stack : List Frame}

theorem run_quotedChars (goal : Goal) (stack : List Frame) (text : String) :
    run ⟨.between, goal, stack⟩ (quotedChars text) = feedText ⟨.between, goal, stack⟩ text := by
  have hopen : step ⟨.between, goal, stack⟩ Text.quotationMark = some ⟨.text [], goal, stack⟩ := by
    rfl
  unfold quotedChars
  rw [run_cons, hopen, Option.bind_some, run_append, run_escaped, Option.bind_some, run_cons]
  simp only [step, if_true, List.append_nil, List.reverse_reverse, joinUnits_toNat,
    Option.bind_some, String.ofList_toList]
  cases h : feedText ⟨.between, goal, stack⟩ text <;> simp_all [feedText]

theorem settle_mode {r r' : Reader} (h : r.settle = some r') : r'.mode = .between := by
  unfold settle at h
  split at h
  · rename_i hmode
    exact Option.some.inj h ▸ hmode
  · obtain ⟨value, -, hfeed⟩ := Option.bind_eq_some_iff.mp h
    unfold feedValue at hfeed
    split at hfeed <;> cases hfeed
    rfl
  · cases h

/-- A character outside a run is read after the run has settled. -/
theorem step_of_settle {r r' : Reader} (h : r.settle = some r') {c : Char}
    (hc : isAtomChar c = false) : r.step c = r'.step c := by
  have hafter : r'.step c = r'.readBetween c := by simp only [step, settle_mode h]
  have hsettled := h
  unfold settle at h
  split at h
  · rw [Option.some.inj h]
  · rename_i hmode
    rw [hafter]
    simp only [step, hmode, hc, Bool.false_eq_true, if_false, hsettled, Option.bind_some]
  · cases h

theorem run_append_of_settle {r r' : Reader} {cs : List Char}
    (h : (r.run cs).bind settle = some r') {c : Char} (hc : isAtomChar c = false)
    (ds : List Char) : r.run (cs ++ c :: ds) = r'.run (c :: ds) := by
  obtain ⟨read, hread, hsettle⟩ := Option.bind_eq_some_iff.mp h
  rw [run_append, hread, Option.bind_some, run_cons, run_cons, step_of_settle hsettle hc]

theorem settle_of_between {r : Reader} (h : r.mode = .between) : r.settle = some r := by
  simp only [settle, h]

end Reader

theorem setField_of_not_mem {key : String} {value : Json} {fields : List (String × Json)}
    (h : key ∉ fields.map Prod.fst) : setField key value fields = fields ++ [(key, value)] := by
  induction fields with
  | nil => rfl
  | cons e rest ih =>
    simp only [List.map_cons, List.mem_cons, not_or] at h
    simp [setField, Ne.symm h.1, ih h.2]

theorem not_mem_of_nodup_append {done rest : List (String × Json)} {key : String} {value : Json}
    (h : ((done ++ (key, value) :: rest).map Prod.fst).Nodup) : key ∉ done.map Prod.fst := by
  rw [List.map_append, List.nodup_append] at h
  intro hmem
  exact h.2.2 key hmem key (by simp) rfl

theorem intercalate_cons_cons {α : Type} (sep a b : List α) (rest : List (List α)) :
    sep.intercalate (a :: b :: rest) = a ++ sep ++ sep.intercalate (b :: rest) := by
  simp [List.intercalate, List.intersperse]

namespace Reader
variable {goal : Goal} {stack : List Frame} {value : Json}

@[simp] theorem step_space : step ⟨.between, goal, stack⟩ ' ' = some ⟨.between, goal, stack⟩ := rfl

@[simp] theorem step_comma_items {rev : List Json} :
    step ⟨.between, .complete value, .items rev :: stack⟩ ',' =
      some ⟨.between, .value false, .items (value :: rev) :: stack⟩ := rfl

@[simp] theorem step_close_items {rev : List Json} :
    step ⟨.between, .complete value, .items rev :: stack⟩ ']' =
      some ⟨.between, .complete (.arr (value :: rev).reverse), stack⟩ := rfl

@[simp] theorem step_colon {fields : List (String × Json)} {key : String} :
    step ⟨.between, .colon fields key, stack⟩ ':' =
      some ⟨.between, .value false, .fields fields key :: stack⟩ := rfl

@[simp] theorem step_comma_fields {fields : List (String × Json)} {key : String} :
    step ⟨.between, .complete value, .fields fields key :: stack⟩ ',' =
      some ⟨.between, .key (setField key value fields) false, stack⟩ := rfl

@[simp] theorem step_close_fields {fields : List (String × Json)} {key : String} :
    step ⟨.between, .complete value, .fields fields key :: stack⟩ '}' =
      some ⟨.between, .complete (.obj (setField key value fields)), stack⟩ := rfl

/-- A key and its colon open the place of its value. -/
theorem run_key {done : List (String × Json)} {first : Bool} (key : String) (cs : List Char) :
    run ⟨.between, .key done first, stack⟩ (quotedChars key ++ ':' :: ' ' :: cs) =
      run ⟨.between, .value false, .fields done key :: stack⟩ cs := by
  rw [run_append, run_quotedChars]
  simp only [feedText, Option.bind_some, run_cons, step_colon, step_space]

mutual

/-- Reading the text of a value where a value is due completes that value. -/
theorem settle_run_chars : ∀ (value : Json) (first : Bool) (stack : List Frame),
    value.distinct = true → (run ⟨.between, .value first, stack⟩ value.chars).bind settle =
      some ⟨.between, .complete value, stack⟩
  | .null, first, _, _ => settle_run_atom rfl (fun _ => List.all_eq_true.mp rfl _) first
  | .bool true, first, _, _ => settle_run_atom rfl (fun _ => List.all_eq_true.mp rfl _) first
  | .bool false, first, _, _ => settle_run_atom rfl (fun _ => List.all_eq_true.mp rfl _) first
  | .int i, first, _, _ =>
      settle_run_atom (atomValue_toString i) (fun _ => isAtomChar_of_mem_toString) first
  | .str text, first, stack, _ => by
      rw [chars, run_quotedChars]
      rfl
  | .arr [], _, _, _ => rfl
  | .arr (item :: rest), first, stack, h => by
      have hitems := run_items (item :: rest) true [] stack (List.cons_ne_nil _ _)
        (by simpa only [distinct] using h)
      rw [chars, run_cons]
      change ((run ⟨.between, .value true, .items [] :: stack⟩ _).bind settle) = _
      rw [hitems]
      rfl
  | .obj [], _, _, _ => rfl
  | .obj (field :: rest), first, stack, h => by
      simp only [distinct, Bool.and_eq_true, decide_eq_true_eq] at h
      have hfields := run_fields (field :: rest) true [] stack (List.cons_ne_nil _ _) h.2
        (by simpa using h.1)
      rw [chars, run_cons]
      change ((run ⟨.between, .key [] true, stack⟩ _).bind settle) = _
      rw [hfields]
      rfl

theorem run_items : ∀ (items : List Json) (first : Bool) (rev : List Json) (stack : List Frame),
    items ≠ [] → distinctItems items = true →
      run ⟨.between, .value first, .items rev :: stack⟩
          ([',', ' '].intercalate (itemChars items) ++ [']']) =
        some ⟨.between, .complete (.arr (rev.reverse ++ items)), stack⟩
  | [], _, _, _, hne, _ => absurd rfl hne
  | [item], first, rev, stack, _, h => by
      simp only [distinctItems, Bool.and_true] at h
      have hitem := settle_run_chars item first (.items rev :: stack) h
      simp only [itemChars, List.intercalate_singleton]
      rw [run_append_of_settle hitem (by decide), run_cons, step_close_items]
      simp
  | item :: next :: rest, first, rev, stack, _, h => by
      simp only [distinctItems, Bool.and_eq_true] at h
      have hitem := settle_run_chars item first (.items rev :: stack) h.1
      have hrest := run_items (next :: rest) false (item :: rev) stack (List.cons_ne_nil _ _)
        (by simpa only [distinctItems, Bool.and_eq_true] using h.2)
      simp only [itemChars, intercalate_cons_cons, List.append_assoc, List.cons_append,
        List.nil_append] at hrest ⊢
      rw [run_append_of_settle hitem (by decide)]
      simp only [run_cons, step_comma_items, step_space, Option.bind_some]
      rw [hrest]
      simp

theorem run_fields : ∀ (fields : List (String × Json)) (first : Bool)
    (done : List (String × Json)) (stack : List Frame), fields ≠ [] →
      distinctFields fields = true → ((done ++ fields).map Prod.fst).Nodup →
        run ⟨.between, .key done first, stack⟩
            ([',', ' '].intercalate (fieldChars fields) ++ ['}']) =
          some ⟨.between, .complete (.obj (done ++ fields)), stack⟩
  | [], _, _, _, hne, _, _ => absurd rfl hne
  | [(key, value)], first, done, stack, _, h, hnodup => by
      simp only [distinctFields, Bool.and_true] at h
      have hvalue := settle_run_chars value false (.fields done key :: stack) h
      simp only [fieldChars, List.intercalate_singleton, List.append_assoc, List.cons_append]
      rw [run_key, run_append_of_settle hvalue (by decide), run_cons, step_close_fields,
        setField_of_not_mem (not_mem_of_nodup_append hnodup)]
      rfl
  | (key, value) :: next :: rest, first, done, stack, _, h, hnodup => by
      simp only [distinctFields, Bool.and_eq_true] at h
      have hvalue := settle_run_chars value false (.fields done key :: stack) h.1
      have hrest := run_fields (next :: rest) false (done ++ [(key, value)]) stack
        (List.cons_ne_nil _ _) (by simpa only [distinctFields, Bool.and_eq_true] using h.2)
        (by simpa using hnodup)
      simp only [fieldChars, intercalate_cons_cons, List.append_assoc, List.cons_append,
        List.nil_append] at hrest ⊢
      rw [run_key, run_append_of_settle hvalue (by decide)]
      simp only [run_cons, step_comma_fields, step_space, Option.bind_some,
        setField_of_not_mem (not_mem_of_nodup_append hnodup)]
      rw [hrest]

end

end Reader

/-- `json.loads(json.dumps(value, ensure_ascii=False)) == value`. -/
theorem loads_chars {value : Json} (h : value.distinct = true) :
    loads (String.ofList value.chars) = some value := by
  unfold loads Reader.start
  rw [String.toList_ofList, Reader.settle_run_chars value false [] h]

/-! The characters of a text: no control character, and above ASCII only those of the strings. -/

theorem mem_intercalate {α : Type} {sep : List α} {parts : List (List α)} {a : α}
    (h : a ∈ sep.intercalate parts) : a ∈ sep ∨ ∃ part ∈ parts, a ∈ part := by
  induction parts with
  | nil => cases h
  | cons part parts ih =>
    cases parts with
    | nil => exact .inr ⟨part, by simp, by simpa using h⟩
    | cons next parts =>
      rw [intercalate_cons_cons, List.mem_append, List.mem_append] at h
      obtain (h | h) | h := h
      · exact .inr ⟨part, by simp, h⟩
      · exact .inl h
      · exact (ih h).imp_right fun ⟨found, hfound, ha⟩ => ⟨found, List.mem_cons_of_mem _ hfound, ha⟩

theorem mem_intercalate_of_mem {α : Type} {sep : List α} {parts : List (List α)} {part : List α}
    (hpart : part ∈ parts) {a : α} (h : a ∈ part) : a ∈ sep.intercalate parts := by
  induction parts with
  | nil => cases hpart
  | cons first parts ih =>
    cases parts with
    | nil =>
      rw [List.mem_singleton] at hpart
      simpa [← hpart] using h
    | cons next parts =>
      rw [intercalate_cons_cons, List.mem_append, List.mem_append]
      obtain rfl | hpart := List.mem_cons.mp hpart
      · exact .inl (.inl h)
      · exact .inr (ih hpart)

/-- A printable ASCII character, or one of a string. -/
def Plain (texts : List String) (c : Char) : Prop :=
  32 ≤ c.toNat ∧ (c.toNat < 128 ∨ ∃ text ∈ texts, c ∈ text.toList)

theorem Plain.mono {texts texts' : List String} {c : Char} (h : Plain texts c)
    (hsub : texts ⊆ texts') : Plain texts' c :=
  ⟨h.1, h.2.imp_right fun ⟨text, htext, hc⟩ => ⟨text, hsub htext, hc⟩⟩

theorem plain_of_ascii {texts : List String} {c : Char} (h : 32 ≤ c.toNat ∧ c.toNat < 128) :
    Plain texts c := ⟨h.1, .inl h.2⟩

theorem ascii_of_mem_toDigits : ∀ n < 16, 32 ≤ ((Nat.toDigits 16 n).headD '0').toNat ∧
    ((Nat.toDigits 16 n).headD '0').toNat < 128 := by decide

theorem ascii_of_isAtomChar {c : Char} (h : isAtomChar c = true) :
    32 ≤ c.toNat ∧ c.toNat < 128 := by
  have hle {a b : Char} (hab : a ≤ b) : a.toNat ≤ b.toNat := hab
  simp only [isAtomChar, Text.isAsciiLetter, Text.isAsciiDigit, Bool.or_eq_true, Bool.and_eq_true,
    decide_eq_true_eq] at h
  obtain ((((⟨hlow, hhigh⟩ | ⟨hlow, hhigh⟩) | ⟨hlow, hhigh⟩) | rfl) | rfl) | rfl := h
  · have hlow : 97 ≤ c.toNat := hle hlow
    have hhigh : c.toNat ≤ 122 := hle hhigh
    omega
  · have hlow : 65 ≤ c.toNat := hle hlow
    have hhigh : c.toNat ≤ 90 := hle hhigh
    omega
  · have hlow : 48 ≤ c.toNat := hle hlow
    have hhigh : c.toNat ≤ 57 := hle hhigh
    omega
  all_goals decide

theorem ascii_of_mem_separator {c : Char} (h : c ∈ [',', ' ']) :
    32 ≤ c.toNat ∧ c.toNat < 128 := by
  rw [List.mem_pair] at h
  obtain rfl | rfl := h <;> decide

theorem mem_escapeChar {c d : Char} (h : c ∈ escapeChar d) :
    32 ≤ c.toNat ∧ (c.toNat < 128 ∨ c = d) := by
  have hascii (hc : 32 ≤ c.toNat ∧ c.toNat < 128) : 32 ≤ c.toNat ∧ (c.toNat < 128 ∨ c = d) :=
    ⟨hc.1, .inl hc.2⟩
  have hpair {e : Char} (hc : c ∈ [Text.backslash, e]) (he : 32 ≤ e.toNat ∧ e.toNat < 128) :
      32 ≤ c.toNat ∧ (c.toNat < 128 ∨ c = d) := by
    rw [List.mem_pair] at hc
    obtain rfl | rfl := hc
    · exact hascii (by decide)
    · exact hascii he
  unfold escapeChar at h
  split at h
  · rename_i hd
    simp only [Bool.or_eq_true, decide_eq_true_eq] at hd
    exact hpair h (by obtain rfl | rfl := hd <;> decide)
  iterate 5
    split at h
    · exact hpair h (by decide)
  split at h
  · rename_i hd
    have hhigh := ascii_of_mem_toDigits (d.toNat / 16) (by omega)
    have hlow := ascii_of_mem_toDigits (d.toNat % 16) (by omega)
    simp only [List.mem_cons, List.not_mem_nil, or_false] at h
    obtain rfl | rfl | rfl | rfl | rfl | rfl := h
    · exact hascii (by decide)
    · exact hascii (by decide)
    · exact hascii (by decide)
    · exact hascii (by decide)
    · exact hascii hhigh
    · exact hascii hlow
  · rename_i hd
    rw [List.mem_singleton] at h
    subst h
    exact ⟨by omega, .inr rfl⟩

theorem mem_quotedChars {text : String} {c : Char} (h : c ∈ quotedChars text) :
    Plain [text] c := by
  simp only [quotedChars, List.mem_cons, List.mem_append, List.mem_flatMap, List.not_mem_nil,
    or_false] at h
  obtain rfl | ⟨d, hd, hc⟩ | rfl := h
  · exact plain_of_ascii (by decide)
  · obtain ⟨hlow, hascii | rfl⟩ := mem_escapeChar hc
    · exact ⟨hlow, .inl hascii⟩
    · exact ⟨hlow, .inr ⟨text, List.mem_singleton_self _, hd⟩⟩
  · exact plain_of_ascii (by decide)

theorem escapeChar_of_high {c : Char} (h : 127 < c.toNat) : escapeChar c = [c] := by
  have hne {d : Char} (hd : d.toNat ≤ 127) : c ≠ d := fun he => by subst he; omega
  have hnat {n : Nat} (hn : n ≤ 127) : c.toNat ≠ n := by omega
  unfold escapeChar
  rw [if_neg, if_neg (hne (by decide)), if_neg (hne (by decide)), if_neg (hne (by decide)),
    if_neg (hnat (by decide)), if_neg (hnat (by decide)), if_neg (by omega)]
  simp only [Bool.or_eq_true, decide_eq_true_eq, not_or]
  exact ⟨hne (by decide), hne (by decide)⟩

theorem mem_quotedChars_of_high {text : String} {c : Char} (h : 127 < c.toNat)
    (hc : c ∈ text.toList) : c ∈ quotedChars text := by
  refine List.mem_cons_of_mem _ (List.mem_append_left _ (List.mem_flatMap.mpr ⟨c, hc, ?_⟩))
  rw [escapeChar_of_high h]
  exact List.mem_singleton_self _

mutual

theorem mem_chars : ∀ (value : Json) {c : Char}, c ∈ value.chars → Plain value.strings c
  | .null, c, h => plain_of_ascii (ascii_of_isAtomChar (List.all_eq_true.mp rfl c h))
  | .bool true, c, h => plain_of_ascii (ascii_of_isAtomChar (List.all_eq_true.mp rfl c h))
  | .bool false, c, h => plain_of_ascii (ascii_of_isAtomChar (List.all_eq_true.mp rfl c h))
  | .int i, c, h => plain_of_ascii (ascii_of_isAtomChar (isAtomChar_of_mem_toString h))
  | .str _, _, h => mem_quotedChars h
  | .arr items, c, h => by
      simp only [chars, List.mem_cons, List.mem_append, List.not_mem_nil, or_false] at h
      obtain rfl | h | rfl := h
      · exact plain_of_ascii (by decide)
      · obtain hsep | ⟨part, hpart, hc⟩ := mem_intercalate h
        · exact plain_of_ascii (ascii_of_mem_separator hsep)
        · exact mem_itemChars items hpart hc
      · exact plain_of_ascii (by decide)
  | .obj fields, c, h => by
      simp only [chars, List.mem_cons, List.mem_append, List.not_mem_nil, or_false] at h
      obtain rfl | h | rfl := h
      · exact plain_of_ascii (by decide)
      · obtain hsep | ⟨part, hpart, hc⟩ := mem_intercalate h
        · exact plain_of_ascii (ascii_of_mem_separator hsep)
        · exact mem_fieldChars fields hpart hc
      · exact plain_of_ascii (by decide)

theorem mem_itemChars : ∀ (items : List Json) {part : List Char} {c : Char},
    part ∈ itemChars items → c ∈ part → Plain (stringsOfItems items) c
  | [], _, _, hpart, _ => nomatch hpart
  | item :: rest, part, c, hpart, h => by
      rw [itemChars, List.mem_cons] at hpart
      rw [stringsOfItems]
      obtain rfl | hpart := hpart
      · exact (mem_chars item h).mono (List.subset_append_left _ _)
      · exact (mem_itemChars rest hpart h).mono (List.subset_append_right _ _)

theorem mem_fieldChars : ∀ (fields : List (String × Json)) {part : List Char} {c : Char},
    part ∈ fieldChars fields → c ∈ part → Plain (stringsOfFields fields) c
  | [], _, _, hpart, _ => nomatch hpart
  | (key, value) :: rest, part, c, hpart, h => by
      rw [fieldChars, List.mem_cons] at hpart
      rw [stringsOfFields]
      obtain rfl | hpart := hpart
      · simp only [List.mem_append, List.mem_cons] at h
        obtain h | rfl | rfl | h := h
        · exact (mem_quotedChars h).mono (by simp)
        · exact plain_of_ascii (by decide)
        · exact plain_of_ascii (by decide)
        · exact (mem_chars value h).mono fun _ ht => by simp [ht]
      · exact (mem_fieldChars rest hpart h).mono fun _ ht => by simp [ht]

end

mutual

theorem mem_chars_of_string : ∀ (value : Json) {text : String} {c : Char}, 127 < c.toNat →
    text ∈ value.strings → c ∈ text.toList → c ∈ value.chars
  | .str own, text, c, hhigh, htext, hc => by
      rw [strings, List.mem_singleton] at htext
      exact mem_quotedChars_of_high hhigh (htext ▸ hc)
  | .arr items, text, c, hhigh, htext, hc => by
      obtain ⟨part, hpart, hmem⟩ := mem_itemChars_of_string items hhigh htext hc
      exact List.mem_cons_of_mem _ (List.mem_append_left _ (mem_intercalate_of_mem hpart hmem))
  | .obj fields, text, c, hhigh, htext, hc => by
      obtain ⟨part, hpart, hmem⟩ := mem_fieldChars_of_string fields hhigh htext hc
      exact List.mem_cons_of_mem _ (List.mem_append_left _ (mem_intercalate_of_mem hpart hmem))
  | .null, _, _, _, htext, _ | .bool _, _, _, _, htext, _ | .int _, _, _, _, htext, _ =>
      nomatch htext

theorem mem_itemChars_of_string : ∀ (items : List Json) {text : String} {c : Char},
    127 < c.toNat → text ∈ stringsOfItems items → c ∈ text.toList →
      ∃ part ∈ itemChars items, c ∈ part
  | [], _, _, _, htext, _ => nomatch htext
  | item :: rest, text, c, hhigh, htext, hc => by
      rw [stringsOfItems, List.mem_append] at htext
      obtain htext | htext := htext
      · exact ⟨_, List.mem_cons_self, mem_chars_of_string item hhigh htext hc⟩
      · obtain ⟨part, hpart, hmem⟩ := mem_itemChars_of_string rest hhigh htext hc
        exact ⟨part, List.mem_cons_of_mem _ hpart, hmem⟩

theorem mem_fieldChars_of_string : ∀ (fields : List (String × Json)) {text : String} {c : Char},
    127 < c.toNat → text ∈ stringsOfFields fields → c ∈ text.toList →
      ∃ part ∈ fieldChars fields, c ∈ part
  | [], _, _, _, htext, _ => nomatch htext
  | (key, value) :: rest, text, c, hhigh, htext, hc => by
      rw [stringsOfFields, List.mem_append, List.mem_cons] at htext
      obtain (rfl | htext) | htext := htext
      · exact ⟨_, List.mem_cons_self,
          List.mem_append_left _ (mem_quotedChars_of_high hhigh hc)⟩
      · have := mem_chars_of_string value hhigh htext hc
        exact ⟨_, List.mem_cons_self, List.mem_append_right _ (by simp [this])⟩
      · obtain ⟨part, hpart, hmem⟩ := mem_fieldChars_of_string rest hhigh htext hc
        exact ⟨part, List.mem_cons_of_mem _ hpart, hmem⟩

end

/-! A text that ends before a character above ASCII ends inside a string. -/

namespace Reader
variable {c : Char}

theorem readBetween_of_high (r : Reader) (h : 127 < c.toNat) : r.readBetween c = none := by
  have hne {d : Char} (hd : d.toNat ≤ 127) : c ≠ d := fun he => by subst he; omega
  have hatom : isAtomChar c = false := by
    rw [Bool.eq_false_iff]
    intro hatom
    have := (ascii_of_isAtomChar hatom).2
    omega
  have hspace : ¬ ((c = ' ' || c = '\t' || c = '\n' || c = '\r') = true) := by
    simp only [Bool.or_eq_true, decide_eq_true_eq, not_or]
    exact ⟨⟨⟨hne (by decide), hne (by decide)⟩, hne (by decide)⟩, hne (by decide)⟩
  unfold readBetween
  rw [if_neg hspace, hatom, if_neg (by decide), if_neg (hne (by decide))]
  have h1 : c ≠ '[' := hne (by decide)
  have h2 : c ≠ '{' := hne (by decide)
  have h3 : c ≠ ']' := hne (by decide)
  have h4 : c ≠ '}' := hne (by decide)
  have h5 : c ≠ ':' := hne (by decide)
  have h6 : c ≠ ',' := hne (by decide)
  unfold punctuate
  split <;> simp [h1, h2, h3, h4, h5, h6]

theorem settle_of_step_high {r r' : Reader} (h : 127 < c.toNat) (hstep : r.step c = some r') :
    r.settle = none := by
  have hne {d : Char} (hd : d.toNat ≤ 127) : c ≠ d := fun he => by subst he; omega
  cases hmode : r.mode with
  | between => simp [step, hmode, readBetween_of_high r h] at hstep
  | atom rev =>
    have hatom : isAtomChar c = false := by
      rw [Bool.eq_false_iff]
      intro hatom
      have := (ascii_of_isAtomChar hatom).2
      omega
    cases hsettle : r.settle with
    | none => rfl
    | some settled =>
      simp [step, hmode, hatom, hsettle, readBetween_of_high settled h] at hstep
  | text rev | escaped rev | hex rev digits => simp [settle, hmode]

end Reader

/-- The part of a text before a character above ASCII is no text. -/
theorem loads_cut {value : Json} (hdistinct : value.distinct = true) {p q : List Char} {c : Char}
    (hc : 127 < c.toNat) (hcut : value.chars = p ++ c :: q) : loads (String.ofList p) = none := by
  have hread := Reader.settle_run_chars value false [] hdistinct
  rw [hcut, Reader.run_append] at hread
  unfold loads Reader.start
  rw [String.toList_ofList]
  cases hp : Reader.run ⟨.between, .value false, []⟩ p with
  | none => rfl
  | some r =>
    rw [hp, Option.bind_some, Reader.run_cons] at hread
    cases hstep : r.step c with
    | none => simp [hstep] at hread
    | some r' => rw [Option.bind_some, Reader.settle_of_step_high hc hstep]

def isSpace (c : Char) : Bool := c = ' ' || c = '\t' || c = '\n' || c = '\r'

namespace Reader
variable {r r' : Reader} {value : Json} {c : Char} {cs : List Char}

theorem readBetween_of_space (h : isSpace c = true) :
    r.readBetween c = some { r with mode := .between } := if_pos h

/-- Behind a complete text nothing else can be begun. -/
theorem begun_of_complete (hgoal : r.goal = .complete value) (hstack : r.stack = [])
    (hc : isSpace c = false) (h : r.readBetween c = some r') :
    r'.goal = .complete value ∧ r'.stack = [] ∧ r'.mode ≠ .between := by
  unfold readBetween at h
  rw [if_neg (by rw [← isSpace, hc]; exact Bool.false_ne_true)] at h
  split at h
  · cases h
    exact ⟨hgoal, hstack, nofun⟩
  · split at h
    · cases h
      exact ⟨hgoal, hstack, nofun⟩
    · rw [hgoal, hstack] at h
      cases h

/-- What is begun behind a complete text never ends. -/
theorem never_settles (hgoal : r.goal = .complete value) (hstack : r.stack = [])
    (hmode : r.mode ≠ .between) : (r.run cs).bind settle = none := by
  have hfeed (found : Json) : r.feedValue found = none := by simp [feedValue, hgoal]
  induction cs generalizing r with
  | nil =>
    rw [run_nil, Option.bind_some]
    unfold settle
    split
    · exact absurd ‹_› hmode
    · simp [hfeed]
    · rfl
  | cons c cs ih =>
    rw [run_cons]
    cases hstep : r.step c with
    | none => rfl
    | some next =>
      have hnext : next.goal = .complete value ∧ next.stack = [] ∧ next.mode ≠ .between := by
        unfold step at hstep
        split at hstep
        · exact absurd ‹_› hmode
        · split at hstep
          · cases hstep
            exact ⟨hgoal, hstack, nofun⟩
          · rename_i hatom _
            simp [settle, hatom, hfeed] at hstep
        · split at hstep
          · simp [feedText, hgoal] at hstep
          · split at hstep
            · cases hstep
              exact ⟨hgoal, hstack, nofun⟩
            · split at hstep
              · cases hstep
              · cases hstep
                exact ⟨hgoal, hstack, nofun⟩
        · split at hstep
          · cases hstep
            exact ⟨hgoal, hstack, nofun⟩
          · obtain ⟨unit, -, rfl⟩ := Option.map_eq_some_iff.mp hstep
            exact ⟨hgoal, hstack, nofun⟩
        · obtain ⟨digit, -, rfl⟩ := Option.map_eq_some_iff.mp hstep
          split
          · exact ⟨hgoal, hstack, nofun⟩
          · exact ⟨hgoal, hstack, nofun⟩
      exact ih hnext.1 hnext.2.1 hnext.2.2 fun found => by simp [feedValue, hnext.1]

/-- Only blanks may follow a complete text. -/
theorem spaces_of_complete (hgoal : r.goal = .complete value) (hstack : r.stack = [])
    (hmode : r.mode = .between) (h : (r.run cs).bind settle ≠ none) :
    ∀ c ∈ cs, isSpace c = true := by
  induction cs generalizing r with
  | nil => nofun
  | cons c cs ih =>
    have hstep : r.step c = r.readBetween c := by simp only [step, hmode]
    rw [run_cons, hstep] at h
    cases hc : isSpace c with
    | true =>
      rw [readBetween_of_space hc, Option.bind_some] at h
      have hrest := @ih { r with mode := .between } hgoal hstack rfl h
      rw [List.forall_mem_cons]
      exact ⟨hc, hrest⟩
    | false =>
      cases hread : r.readBetween c with
      | none => simp [hread] at h
      | some next =>
        obtain ⟨hgoal', hstack', hmode'⟩ := begun_of_complete hgoal hstack hc hread
        rw [hread, Option.bind_some, never_settles hgoal' hstack' hmode'] at h
        exact absurd rfl h

/-- A number or a constant at the top may go on before the blanks. -/
theorem plain_of_atom {rev : List Char} (hgoal : ∃ first, r.goal = .value first)
    (hstack : r.stack = []) (hmode : r.mode = .atom rev) (h : (r.run cs).bind settle ≠ none) :
    ∀ c ∈ cs, (isAtomChar c || isSpace c) = true := by
  induction cs generalizing r rev with
  | nil => nofun
  | cons c cs ih =>
    rw [run_cons] at h
    rw [List.forall_mem_cons]
    cases hc : isAtomChar c with
    | true =>
      have hstep : r.step c = some { r with mode := .atom (c :: rev) } := by
        simp only [step, hmode, hc, if_true]
      rw [hstep, Option.bind_some] at h
      exact ⟨rfl, @ih { r with mode := .atom (c :: rev) } _ hgoal hstack rfl h⟩
    | false =>
      cases hsettle : r.settle with
      | none =>
        have hstep : r.step c = none := by
          simp [step, hmode, hc, hsettle]
        simp [hstep] at h
      | some settled =>
        rw [step_of_settle hsettle hc] at h
        have hbetween := settle_mode hsettle
        obtain ⟨first, hfirst⟩ := hgoal
        have hsettled : (∃ found, settled.goal = .complete found) ∧ settled.stack = [] := by
          rw [settle, hmode] at hsettle
          obtain ⟨found, -, hfeed⟩ := Option.bind_eq_some_iff.mp hsettle
          rw [feedValue, hfirst] at hfeed
          cases hfeed
          exact ⟨⟨found, rfl⟩, hstack⟩
        obtain ⟨⟨found, hfound⟩, hempty⟩ := hsettled
        have hall := @spaces_of_complete _ _ (c :: cs) hfound hempty hbetween (by rwa [run_cons])
        rw [List.forall_mem_cons] at hall
        exact ⟨hall.1, fun d hd => by rw [hall.2 d hd, Bool.or_true]⟩

end Reader

/-- A part of the text of a dictionary that stops before its end is no text. -/
theorem loads_proper {fields : List (String × Json)} (hdistinct : (obj fields).distinct = true)
    {p q : List Char} (hcut : (obj fields).chars = p ++ q) (hq : q ≠ []) :
    loads (String.ofList p) = none := by
  have hread := Reader.settle_run_chars (obj fields) false [] hdistinct
  rw [hcut, Reader.run_append] at hread
  have hlast : '}' ∈ q := by
    have hend : (obj fields).chars.getLast? = some '}' := by
      rw [chars, List.getLast?_cons, List.getLast?_concat]
      rfl
    rw [hcut, List.getLast?_append_of_ne_nil _ hq] at hend
    exact List.mem_of_getLast? hend
  unfold loads Reader.start
  rw [String.toList_ofList]
  cases hp : Reader.run ⟨.between, .value false, []⟩ p with
  | none => rfl
  | some r =>
    rw [hp, Option.bind_some] at hread
    have hrest : (r.run q).bind Reader.settle ≠ none := by rw [hread]; nofun
    rw [Option.bind_some]
    cases hsettle : r.settle with
    | none => rfl
    | some settled =>
      obtain ⟨mode, goal, stack⟩ := settled
      split
      · rename_i found heq
        cases heq
        have hplain : (Json.isAtomChar '}' || isSpace '}') = true := by
          unfold Reader.settle at hsettle
          split at hsettle
          · obtain rfl := Option.some.inj hsettle
            rw [Reader.spaces_of_complete rfl rfl ‹_› hrest '}' hlast, Bool.or_true]
          · rename_i rev hmode
            obtain ⟨value, -, hfeed⟩ := Option.bind_eq_some_iff.mp hsettle
            unfold Reader.feedValue at hfeed
            split at hfeed
            · rename_i first hfirst
              have hstack : r.stack = [] := congrArg Reader.stack (Option.some.inj hfeed)
              exact Reader.plain_of_atom ⟨first, hfirst⟩ hstack hmode hrest '}' hlast
            · cases hfeed
          · cases hsettle
        exact absurd hplain (by decide)
      · rfl

end ProjectOS.Base.Json
