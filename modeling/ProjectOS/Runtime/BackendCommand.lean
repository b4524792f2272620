import Mathlib.Data.List.Chain
import ProjectOS.Runtime.CommandValidator

/-! What the accepted backend commands run. The launcher cuts a text at every white
space, the shell at spaces and tabs only. -/
namespace ProjectOS.Runtime
open Base Pattern PythonCommandValidator

/-- The blanks of a POSIX shell. -/
def isBlank (c : Char) : Bool := c = ' ' || c = '\t'

/-- What a POSIX shell does not read as part of a plain word. -/
def isSpecial (c : Char) : Bool :=
  c ∈ shellInjectionChars || c ∈ [
    Text.apostrophe, Text.quotationMark, '*', '?', '#', '~', '!']

structure Execution where
  assignments : List (List Char)
  program : List Char
  arguments : List (List Char)
deriving DecidableEq

/-- `name=value` in front of a simple command. -/
def isAssignment (word : List Char) : Bool :=
  match Text.cutAt '=' word with
  | some (c :: name, _) => !Text.isAsciiDigit c && (c :: name).all isNameChar
  | _ => false

/-- A simple command of the shell: the assignments in front are its environment. -/
def simpleCommand : List (List Char) → Option Execution
  | [] => none
  | word :: words =>
      if isAssignment word then
        (simpleCommand words).map fun e => { e with assignments := word :: e.assignments }
      else some { assignments := [], program := word, arguments := words }

/-- `sh -c text` for a text of plain words, and any other command as it stands. -/
def execute : List String → Option Execution
  | ["sh", "-c", text] =>
      if text.toList.any isSpecial then none else simpleCommand (Text.fields isBlank text.toList)
  | program :: arguments =>
      some { assignments := [], program := program.toList, arguments := arguments.map String.toList }
  | [] => none

/-- `python`, `python3` or `python3.<digits>`. -/
def IsPython (program : List Char) : Prop :=
  program = interpreter ∨ program = interpreter ++ ['3'] ∨
    ∃ digits, digits ≠ [] ∧ (∀ c ∈ digits, Text.isAsciiDigit c = true) ∧
      program = interpreter ++ ['3', '.'] ++ digits

/-- ASCII letters, digits, underscores and single inner dots. -/
structure IsModuleName (module : List Char) : Prop where
  nonempty : module ≠ []
  chars : ∀ c ∈ module, isNameChar c = true ∨ c = '.'
  head : module.head? ≠ some '.'
  last : module.getLast? ≠ some '.'
  single : ¬ ['.', '.'] <:+: module

def IsPythonPath (path : List Char) : Prop :=
  ∀ entry ∈ Text.splitOn ':' path, entry.head? ≠ some '/' ∧ ¬ ['.', '.'] <:+: entry

/-- The execution of the words of a text: one module run by Python, with at most one
assignment, and all other words as its arguments. -/
structure RunsModule (value : String) (e : Execution) : Prop where
  words : Text.fields isBlank value.toList = e.assignments ++ e.program :: e.arguments
  environment : e.assignments = [] ∨
    ∃ path, e.assignments = [assignmentStart ++ path] ∧ IsPythonPath path
  program : IsPython e.program
  module : ∃ module rest, e.arguments = ['-', 'm'] :: module :: rest ∧ IsModuleName module

def Confined (value : String) (command : List String) : Prop :=
  ∃ e, execute command = some e ∧ RunsModule value e

/-- How many words there are up to the module name. -/
def leading (value : String) : Nat :=
  if (Text.words value.toList).head?.any (assignmentStart.isPrefixOf ·) then 4 else 3

/-- Spaces and tabs cut the same words as all white space does: for the shell those up to
the module name, else all; and the former are ASCII. -/
structure CutAlike (value : String) : Prop where
  words : if isWrapped value then
      (Text.fields isBlank value.toList).take (leading value) =
        (Text.words value.toList).take (leading value)
    else Text.fields isBlank value.toList = Text.words value.toList
  ascii : ∀ word ∈ (Text.words value.toList).take (leading value), ∀ c ∈ word, c.toNat < 128

/-- The first word of the shell is an assignment of `PYTHONPATH` with white space in it. -/
def Swallowed (value : String) : Prop :=
  ∃ word ∈ (Text.fields isBlank value.toList).head?,
    assignmentStart <+: word ∧ ∃ c ∈ word, Text.isSpace c = true

theorem isSpace_of_isBlank {c : Char} (h : isBlank c = true) : Text.isSpace c = true := by
  simp only [isBlank, Bool.or_eq_true, decide_eq_true_eq] at h
  rcases h with rfl | rfl <;> decide

section Chars
variable {c : Char}

theorem isNameChar_ascii (h : isNameChar c = true) : c.toNat < 128 := by
  simp only [isNameChar, Text.isAsciiLetter, Text.isAsciiDigit, Bool.or_eq_true, Bool.and_eq_true,
    decide_eq_true_eq, Char.le_def, UInt32.le_iff_toNat_le] at h
  have hz : 'z'.val.toNat = 122 := rfl
  have hZ : 'Z'.val.toNat = 90 := rfl
  have h9 : '9'.val.toNat = 57 := rfl
  have hc : c.toNat = c.val.toNat := rfl
  rcases h with ((h | h) | h) | rfl
  · omega
  · omega
  · omega
  · decide

theorem isPathChar_ascii (h : isPathChar c = true) : c.toNat < 128 := by
  simp only [isPathChar, Bool.or_eq_true, decide_eq_true_eq] at h
  rcases h with ((((h | rfl) | rfl) | rfl) | rfl) | rfl
  · exact isNameChar_ascii h
  all_goals decide

theorem not_isSpace_of_isNameChar (h : isNameChar c = true) : Text.isSpace c = false := by
  by_contra hspace
  simp only [isNameChar, Text.isAsciiLetter, Text.isAsciiDigit, Text.isSpace, Bool.or_eq_true,
    Bool.and_eq_true, Bool.not_eq_false, beq_iff_eq, decide_eq_true_eq, Char.le_def,
    UInt32.le_iff_toNat_le] at h hspace
  have ha : 'a'.val.toNat = 97 := rfl
  have hA : 'A'.val.toNat = 65 := rfl
  have hz : 'z'.val.toNat = 122 := rfl
  have hZ : 'Z'.val.toNat = 90 := rfl
  have h0 : '0'.val.toNat = 48 := rfl
  have h9 : '9'.val.toNat = 57 := rfl
  have hc : c.toNat = c.val.toNat := rfl
  rcases h with ((h | h) | h) | rfl
  · omega
  · omega
  · omega
  · simp at hspace

theorem isAsciiDigit_of_isDecimal (h : Text.isDecimal c = true) (hascii : c.toNat < 128) :
    Text.isAsciiDigit c = true := by
  have hzeros : ∀ z ∈ Text.decimalZeros, z = 0x30 ∨ 128 ≤ z := by decide
  obtain ⟨z, hz, hrange⟩ := List.any_eq_true.mp h
  simp only [Bool.and_eq_true, decide_eq_true_eq] at hrange
  have hc : c.toNat = c.val.toNat := rfl
  have h0 : '0'.val.toNat = 48 := rfl
  have h9 : '9'.val.toNat = 57 := rfl
  simp only [Text.isAsciiDigit, Bool.and_eq_true, decide_eq_true_eq, Char.le_def,
    UInt32.le_iff_toNat_le]
  rcases hzeros z hz with rfl | hlarge
  · omega
  · omega


theorem not_isSpace_of_isDecimal (h : Text.isDecimal c = true) : Text.isSpace c = false := by
  have hzeros : ∀ z ∈ Text.decimalZeros, z = 0x30 ∨ (0x660 ≤ z ∧ z ≤ 0x1090) ∨
      (0x17E0 ≤ z ∧ z ≤ 0x1C50) ∨ 0xA620 ≤ z := by decide
  obtain ⟨z, hz, hrange⟩ := List.any_eq_true.mp h
  simp only [Bool.and_eq_true, decide_eq_true_eq] at hrange
  by_contra hspace
  simp only [Text.isSpace, Bool.or_eq_true, Bool.and_eq_true, Bool.not_eq_false, beq_iff_eq,
    decide_eq_true_eq] at hspace
  have hplace := hzeros z hz
  omega

theorem not_isSpace_of_isPathChar (h : isPathChar c = true) : Text.isSpace c = false := by
  simp only [isPathChar, Bool.or_eq_true, decide_eq_true_eq] at h
  rcases h with ((((h | rfl) | rfl) | rfl) | rfl) | rfl
  · exact not_isSpace_of_isNameChar h
  all_goals decide

theorem not_isSpace_of_isModuleChar (h : isModuleChar c = true) : Text.isSpace c = false := by
  simp only [isModuleChar, Bool.or_eq_true, decide_eq_true_eq] at h
  rcases h with (h | rfl) | rfl
  · exact not_isSpace_of_isNameChar h
  all_goals decide

theorem isArgChar_of_isPathChar (h : isPathChar c = true) : isArgChar c = true := by
  simp only [isPathChar, Bool.or_eq_true, decide_eq_true_eq] at h
  rcases h with ((((h | rfl) | rfl) | rfl) | rfl) | rfl
  · simp [isArgChar, h]
  all_goals decide

theorem isArgChar_of_isModuleChar (h : isModuleChar c = true) : isArgChar c = true := by
  simp only [isModuleChar, Bool.or_eq_true, decide_eq_true_eq] at h
  rcases h with (h | rfl) | rfl
  · simp [isArgChar, h]
  all_goals decide

theorem isArgChar_of_isSpace (h : Text.isSpace c = true) : isArgChar c = true := by
  simp [isArgChar, h]

end Chars

/-- The parts of a text that the pattern of start commands matches. -/
structure CommandParts (text : List Char) (groups : Option (List Char) × List Char × Option (List Char))
    (assignment program option module tail : List Char) : Prop where
  text_eq : text = assignment ++ (program ++ (option ++ (module ++ tail)))
  assignment_eq : (groups.1 = none ∧ assignment = []) ∨ ∃ path gap, groups.1 = some path ∧
    assignment = assignmentStart ++ path ++ gap ∧ (∀ c ∈ path, isPathChar c = true) ∧
    gap ≠ [] ∧ ∀ c ∈ gap, Text.isSpace c = true
  program_eq : program = interpreter ∨ program = interpreter ++ ['3'] ∨
    ∃ digits, digits ≠ [] ∧ (∀ c ∈ digits, Text.isDecimal c = true) ∧
      program = interpreter ++ ['3', '.'] ++ digits
  option_eq : ∃ gap gap', option = gap ++ (['-', 'm'] ++ gap') ∧ gap ≠ [] ∧ gap' ≠ [] ∧
    (∀ c ∈ gap, Text.isSpace c = true) ∧ ∀ c ∈ gap', Text.isSpace c = true
  module_eq : module = groups.2.1
  module_ne : module ≠ []
  module_chars : ∀ c ∈ module, isModuleChar c = true
  tail_head : ∀ c ∈ tail.head?, Text.isSpace c = true
  tail_chars : ∀ c ∈ tail, isArgChar c = true

theorem of_mem_version {text rest : List Char} {version : Option (Option (List Char))}
    (h : (version, rest) ∈ (optional (do
      literal id ['3']
      optional (do
        literal id ['.']
        greedy1 Text.isDecimal)) : Pattern _) text) :
    ∃ front, text = front ++ rest ∧ (front = [] ∨ front = ['3'] ∨
      ∃ digits, digits ≠ [] ∧ (∀ c ∈ digits, Text.isDecimal c = true) ∧
        front = ['3', '.'] ++ digits) := by
  rcases mem_optional.mp h with ⟨inner, -, hinner⟩ | ⟨-, rfl⟩
  · obtain ⟨u, middle, hthree, hminor⟩ := mem_bind.mp hinner
    rcases mem_optional.mp hminor with ⟨digits, -, hdigits⟩ | ⟨-, rfl⟩
    · obtain ⟨v, middle', hdot, hrun⟩ := mem_bind.mp hdigits
      obtain ⟨hmiddle, hne, hall⟩ := of_mem_greedy1 hrun
      refine ⟨['3', '.'] ++ digits, ?_, .inr (.inr ⟨digits, hne, hall, rfl⟩)⟩
      rw [eq_of_mem_literal hthree, eq_of_mem_literal hdot, hmiddle]
      rfl
    · exact ⟨['3'], eq_of_mem_literal hthree, .inr (.inl rfl)⟩
  · exact ⟨[], rfl, .inl rfl⟩

theorem of_mem_args {text rest : List Char} {args : Option (List Char)}
    (h : (args, rest) ∈ (optional (do
      let _ ← greedy1 Text.isSpace
      greedy1 isArgChar) : Pattern _) text) :
    ∃ tail, text = tail ++ rest ∧ (∀ c ∈ tail, isArgChar c = true) ∧
      (tail = [] ∨ ∃ c ∈ tail.head?, Text.isSpace c = true) := by
  rcases mem_optional.mp h with ⟨run, -, hrun⟩ | ⟨-, rfl⟩
  · obtain ⟨gap, middle, hgap, hargs⟩ := mem_bind.mp hrun
    obtain ⟨rfl, hne, hspace⟩ := of_mem_greedy1 hgap
    obtain ⟨rfl, -, hall⟩ := of_mem_greedy1 hargs
    refine ⟨gap ++ run, (List.append_assoc gap run rest).symm, fun c hc => ?_, .inr ?_⟩
    · rcases List.mem_append.mp hc with hc | hc
      · exact isArgChar_of_isSpace (hspace c hc)
      · exact hall c hc
    · cases gap with
      | nil => exact absurd rfl hne
      | cons c gap => exact ⟨c, rfl, hspace c List.mem_cons_self⟩
  · exact ⟨[], rfl, fun _ hc => absurd hc List.not_mem_nil, .inl rfl⟩

theorem commandParts_of_match {text rest : List Char}
    {groups : Option (List Char) × List Char × Option (List Char)}
    (h : (groups, rest) ∈ modulePattern text) (hline : '\n' ∉ text) :
    ∃ assignment program option module tail,
      CommandParts text groups assignment program option module tail := by
  unfold modulePattern at h
  obtain ⟨pythonpath, text₁, hpath, h⟩ := mem_bind.mp h
  obtain ⟨_, text₂, hinterpreter, h⟩ := mem_bind.mp h
  obtain ⟨version, text₃, hversion, h⟩ := mem_bind.mp h
  obtain ⟨gap, text₄, hgap, h⟩ := mem_bind.mp h
  obtain ⟨_, text₅, hoption, h⟩ := mem_bind.mp h
  obtain ⟨gap', text₆, hgap', h⟩ := mem_bind.mp h
  obtain ⟨module, text₇, hmodule, h⟩ := mem_bind.mp h
  obtain ⟨args, text₈, hargs, h⟩ := mem_bind.mp h
  obtain ⟨_, text₉, hend, h⟩ := mem_bind.mp h
  obtain ⟨rfl, -⟩ := mem_pure.mp h
  obtain ⟨front, hfront, hversions⟩ := of_mem_version hversion
  obtain ⟨hgapText, hgapNe, hgapSpace⟩ := of_mem_greedy1 hgap
  obtain ⟨hgapText', hgapNe', hgapSpace'⟩ := of_mem_greedy1 hgap'
  obtain ⟨hmoduleText, hmoduleNe, hmoduleChars⟩ := of_mem_greedy1 hmodule
  obtain ⟨tail, htail, htailChars, htailHead⟩ := of_mem_args hargs
  have hbehind : text₁ = interpreter ++ front ++ (gap ++ (['-', 'm'] ++ gap') ++
      (module ++ (tail ++ text₈))) := by
    rw [eq_of_mem_literal hinterpreter, hfront, hgapText, eq_of_mem_literal hoption, hgapText',
      hmoduleText, htail]
    simp only [List.append_assoc]
  have hfinal : text₈ = [] := by
    rcases (mem_atEnd.mp hend).2 with hnil | hnewline
    · exact hnil
    · exfalso
      apply hline
      have hin : '\n' ∈ text₁ := by simp [hbehind, hnewline]
      rcases mem_optional.mp hpath with ⟨path, -, hassign⟩ | ⟨-, rfl⟩
      · obtain ⟨_, middle, hstart, hassign⟩ := mem_bind.mp hassign
        obtain ⟨path', middle', hpathRun, hassign⟩ := mem_bind.mp hassign
        obtain ⟨gap₀, middle'', hgap₀, hassign⟩ := mem_bind.mp hassign
        obtain ⟨-, rfl⟩ := mem_pure.mp hassign
        rw [eq_of_mem_literal hstart, (of_mem_greedy1 hpathRun).1, (of_mem_greedy1 hgap₀).1]
        exact List.mem_append_right _ (List.mem_append_right _ (List.mem_append_right _ hin))
      · exact hin
  rw [hfinal, List.append_nil] at hbehind
  have hshape (assignment : List Char) (htext : text = assignment ++ text₁) :
      text = assignment ++ (interpreter ++ front ++ ((gap ++ (['-', 'm'] ++ gap')) ++
        (module ++ tail))) := by rw [htext, hbehind]
  have hprogram : interpreter ++ front = interpreter ∨ interpreter ++ front = interpreter ++ ['3'] ∨
      ∃ digits, digits ≠ [] ∧ (∀ c ∈ digits, Text.isDecimal c = true) ∧
        interpreter ++ front = interpreter ++ ['3', '.'] ++ digits := by
    rcases hversions with rfl | rfl | ⟨digits, hne, hall, rfl⟩
    · exact .inl (List.append_nil _)
    · exact .inr (.inl rfl)
    · exact .inr (.inr ⟨digits, hne, hall, (List.append_assoc _ _ _).symm⟩)
  have htailSpace : ∀ c ∈ tail.head?, Text.isSpace c = true := by
    rcases htailHead with rfl | ⟨c, hc, hspace⟩
    · exact fun _ hc => absurd hc (Option.not_mem_none _)
    · intro d hd
      cases hc.symm.trans hd
      exact hspace
  rcases mem_optional.mp hpath with ⟨path, hsome, hassign⟩ | ⟨hnone, rfl⟩
  · obtain ⟨_, middle, hstart, hassign⟩ := mem_bind.mp hassign
    obtain ⟨path', middle', hpathRun, hassign⟩ := mem_bind.mp hassign
    obtain ⟨gap₀, middle'', hgap₀, hassign⟩ := mem_bind.mp hassign
    obtain ⟨rfl, rfl⟩ := mem_pure.mp hassign
    obtain ⟨hpathText, -, hpathChars⟩ := of_mem_greedy1 hpathRun
    obtain ⟨hgapText₀, hgapNe₀, hgapSpace₀⟩ := of_mem_greedy1 hgap₀
    have htext : text = assignmentStart ++ path ++ gap₀ ++ text₁ := by
      rw [eq_of_mem_literal hstart, hpathText, hgapText₀]
      simp only [List.append_assoc]
    exact ⟨_, _, _, _, _, hshape _ htext, .inr ⟨path, gap₀, hsome, rfl, hpathChars, hgapNe₀,
      hgapSpace₀⟩, hprogram, ⟨gap, gap', rfl, hgapNe, hgapNe', hgapSpace, hgapSpace'⟩, rfl,
      hmoduleNe, hmoduleChars, htailSpace, htailChars⟩
  · exact ⟨[], _, _, _, _, hshape [] rfl, .inl ⟨hnone, rfl⟩, hprogram, ⟨gap, gap', rfl, hgapNe,
      hgapNe', hgapSpace, hgapSpace'⟩, rfl, hmoduleNe, hmoduleChars, htailSpace, htailChars⟩

/-- A program as the pattern reads it: the digits of its version are decimals of any script. -/
def IsInterpreter (program : List Char) : Prop :=
  program = interpreter ∨ program = interpreter ++ ['3'] ∨
    ∃ digits, digits ≠ [] ∧ (∀ c ∈ digits, Text.isDecimal c = true) ∧
      program = interpreter ++ ['3', '.'] ++ digits

theorem IsInterpreter.exists_rest {program : List Char} (h : IsInterpreter program) :
    ∃ rest, program = interpreter ++ rest ∧
      ∀ c ∈ rest, c = '3' ∨ c = '.' ∨ Text.isDecimal c = true := by
  rcases h with rfl | rfl | ⟨digits, -, hall, rfl⟩
  · exact ⟨[], (List.append_nil _).symm, fun _ hc => absurd hc List.not_mem_nil⟩
  · exact ⟨['3'], rfl, fun c hc => .inl (List.mem_singleton.mp hc)⟩
  · refine ⟨['3', '.'] ++ digits, List.append_assoc _ _ _, fun c hc => ?_⟩
    rcases List.mem_append.mp hc with hc | hc
    · rcases List.mem_cons.mp hc with rfl | hc
      · exact .inl rfl
      · exact .inr (.inl (List.mem_singleton.mp hc))
    · exact .inr (.inr (hall c hc))

theorem IsInterpreter.not_isSpace {program : List Char} (h : IsInterpreter program) :
    ∀ c ∈ program, Text.isSpace c = false := by
  obtain ⟨rest, rfl, hrest⟩ := h.exists_rest
  intro c hc
  rcases List.mem_append.mp hc with hc | hc
  · exact (by decide : ∀ c ∈ interpreter, Text.isSpace c = false) c hc
  · rcases hrest c hc with rfl | rfl | hdecimal
    · decide
    · decide
    · exact not_isSpace_of_isDecimal hdecimal

theorem IsInterpreter.ne_nil {program : List Char} (h : IsInterpreter program) : program ≠ [] := by
  obtain ⟨rest, rfl, -⟩ := h.exists_rest
  exact List.cons_ne_nil _ _

theorem IsInterpreter.head {program : List Char} (h : IsInterpreter program) :
    assignmentStart.isPrefixOf program = false := by
  obtain ⟨rest, rfl, -⟩ := h.exists_rest
  rfl

theorem isPython_iff {program : List Char} :
    IsPython program ↔ IsInterpreter program ∧ ∀ c ∈ program, c.toNat < 128 := by
  have hdecimal {c : Char} (h : Text.isAsciiDigit c = true) :
      Text.isDecimal c = true ∧ c.toNat < 128 := by
    simp only [Text.isAsciiDigit, Bool.and_eq_true, decide_eq_true_eq, Char.le_def,
      UInt32.le_iff_toNat_le] at h
    have hc : c.toNat = c.val.toNat := rfl
    have h0 : '0'.val.toNat = 48 := rfl
    have h9 : '9'.val.toNat = 57 := rfl
    refine ⟨List.any_eq_true.mpr ⟨0x30, by decide, ?_⟩, by omega⟩
    simp only [Bool.and_eq_true, decide_eq_true_eq]
    omega
  constructor
  · rintro (rfl | rfl | ⟨digits, hne, hall, rfl⟩)
    · exact ⟨.inl rfl, by decide⟩
    · exact ⟨.inr (.inl rfl), by decide⟩
    · refine ⟨.inr (.inr ⟨digits, hne, fun c hc => (hdecimal (hall c hc)).1, rfl⟩), fun c hc => ?_⟩
      rcases List.mem_append.mp hc with hc | hc
      · exact (by decide : ∀ c ∈ interpreter ++ ['3', '.'], c.toNat < 128) c hc
      · exact (hdecimal (hall c hc)).2
  · rintro ⟨rfl | rfl | ⟨digits, hne, hall, rfl⟩, hascii⟩
    · exact .inl rfl
    · exact .inr (.inl rfl)
    · refine .inr (.inr ⟨digits, hne, fun c hc => ?_, rfl⟩)
      exact isAsciiDigit_of_isDecimal (hall c hc) (hascii c (List.mem_append_right _ hc))

theorem IsModuleName.not_isSpace {module : List Char} (h : IsModuleName module) :
    ∀ c ∈ module, Text.isSpace c = false := by
  intro c hc
  rcases h.chars c hc with hname | rfl
  · exact not_isSpace_of_isNameChar hname
  · decide

theorem IsModuleName.ascii {module : List Char} (h : IsModuleName module) :
    ∀ c ∈ module, c.toNat < 128 := by
  intro c hc
  rcases h.chars c hc with hname | rfl
  · exact isNameChar_ascii hname
  · decide

/-- What the validator makes sure of about the words of a text. -/
structure AcceptedWords (value : List Char) (assignments : List (List Char))
    (program module : List Char) (later : List (List Char)) : Prop where
  words : Text.words value = assignments ++ program :: ['-', 'm'] :: module :: later
  environment : assignments = [] ∨ ∃ path, assignments = [assignmentStart ++ path] ∧
    IsPythonPath path ∧ ∀ c ∈ path, isPathChar c = true
  program : IsInterpreter program
  module : IsModuleName module
  plain : ∀ c ∈ value, isSpecial c = false

section Validated
variable {value : List Char}

theorem CommandParts.chars {text : List Char}
    {groups : Option (List Char) × List Char × Option (List Char)}
    {assignment program option module tail : List Char}
    (h : CommandParts text groups assignment program option module tail) :
    ∀ c ∈ text, isArgChar c = true ∨ Text.isDecimal c = true := by
  have hspace {gap : List Char} (hgap : ∀ c ∈ gap, Text.isSpace c = true) {c : Char} (hc : c ∈ gap) :
      isArgChar c = true ∨ Text.isDecimal c = true := .inl (isArgChar_of_isSpace (hgap c hc))
  intro c hc
  rw [h.text_eq] at hc
  rcases List.mem_append.mp hc with hc | hc
  · rcases h.assignment_eq with ⟨-, rfl⟩ | ⟨path, gap, -, rfl, hpath, -, hgap⟩
    · cases hc
    · rcases List.mem_append.mp hc with hc | hc
      · rcases List.mem_append.mp hc with hc | hc
        · exact .inl ((by decide : ∀ c ∈ assignmentStart, isArgChar c = true) c hc)
        · exact .inl (isArgChar_of_isPathChar (hpath c hc))
      · exact hspace hgap hc
  rcases List.mem_append.mp hc with hc | hc
  · obtain ⟨rest, hrest, hchars⟩ := IsInterpreter.exists_rest h.program_eq
    rw [hrest] at hc
    rcases List.mem_append.mp hc with hc | hc
    · exact .inl ((by decide : ∀ c ∈ interpreter, isArgChar c = true) c hc)
    · rcases hchars c hc with rfl | rfl | hdecimal
      · exact .inl (by decide)
      · exact .inl (by decide)
      · exact .inr hdecimal
  rcases List.mem_append.mp hc with hc | hc
  · obtain ⟨gap, gap', rfl, -, -, hgap, hgap'⟩ := h.option_eq
    rcases List.mem_append.mp hc with hc | hc
    · exact hspace hgap hc
    · rcases List.mem_append.mp hc with hc | hc
      · exact .inl ((by decide : ∀ c ∈ ['-', 'm'], isArgChar c = true) c hc)
      · exact hspace hgap' hc
  rcases List.mem_append.mp hc with hc | hc
  · exact .inl (isArgChar_of_isModuleChar (h.module_chars c hc))
  · exact .inl (h.tail_chars c hc)

theorem CommandParts.fields_eq {text after : List Char}
    {groups : Option (List Char) × List Char × Option (List Char)}
    {assignment program option module tail : List Char}
    (h : CommandParts text groups assignment program option module tail)
    (hafter : ∀ c ∈ after, Text.isSpace c = true) :
    Text.fields Text.isSpace (text ++ after) =
      (groups.1.map (assignmentStart ++ ·)).toList ++
        program :: ['-', 'm'] :: module :: Text.fields Text.isSpace (tail ++ after) := by
  have hhead {gap rest : List Char} (hne : gap ≠ []) (hgap : ∀ c ∈ gap, Text.isSpace c = true) :
      ∀ c ∈ (gap ++ rest).head?, Text.isSpace c = true := by
    intro c hc
    rw [List.head?_append_of_ne_nil _ hne] at hc
    exact hgap c (List.mem_of_mem_head? hc)
  have htail : ∀ c ∈ (tail ++ after).head?, Text.isSpace c = true := by
    cases htailEq : tail with
    | nil =>
      intro c hc
      exact hafter c (List.mem_of_mem_head? hc)
    | cons d tail' =>
      intro c hc
      apply h.tail_head
      rw [htailEq]
      exact hc
  obtain ⟨gap, gap', rfl, hne, hne', hgap, hgap'⟩ := h.option_eq
  have hoption : ∀ c ∈ ['-', 'm'], Text.isSpace c = false := by decide
  have hprogram : Text.fields Text.isSpace (program ++ ((gap ++ (['-', 'm'] ++ gap')) ++
      (module ++ tail)) ++ after) =
        program :: ['-', 'm'] :: module :: Text.fields Text.isSpace (tail ++ after) := by
    simp only [List.append_assoc]
    rw [Text.fields_word_append (IsInterpreter.ne_nil h.program_eq)
        (IsInterpreter.not_isSpace h.program_eq) (hhead hne hgap), Text.fields_gap_append hgap,
      Text.fields_word_append (List.cons_ne_nil _ _) hoption (hhead hne' hgap'),
      Text.fields_gap_append hgap',
      Text.fields_word_append h.module_ne
        (fun c hc => not_isSpace_of_isModuleChar (h.module_chars c hc)) htail]
  rw [h.text_eq]
  rcases h.assignment_eq with ⟨hnone, rfl⟩ | ⟨path, gap₀, hsome, rfl, hpath, hne₀, hgap₀⟩
  · rw [hnone, List.nil_append]
    exact hprogram
  · have hstart : ∀ c ∈ assignmentStart ++ path, Text.isSpace c = false := by
      intro c hc
      rcases List.mem_append.mp hc with hc | hc
      · exact (by decide : ∀ c ∈ assignmentStart, Text.isSpace c = false) c hc
      · exact not_isSpace_of_isPathChar (hpath c hc)
    have hne : assignmentStart ++ path ≠ [] := List.append_ne_nil_of_left_ne_nil (by decide) path
    rw [List.append_assoc (assignmentStart ++ path), List.append_assoc (assignmentStart ++ path),
      List.append_assoc gap₀, Text.fields_word_append hne hstart (hhead hne₀ hgap₀),
      Text.fields_gap_append hgap₀, hprogram, hsome]
    rfl

theorem isModuleName_of_valid {module : List Char} (h : validateModuleName module = true)
    (hchars : ∀ c ∈ module, isModuleChar c = true) : IsModuleName module := by
  simp only [validateModuleName, Bool.and_eq_true, Bool.not_eq_true', decide_eq_true_eq,
    hasDoubleDot, decide_eq_false_iff_not] at h
  obtain ⟨⟨⟨⟨hne, hmatch⟩, hhead⟩, hlast⟩, hdouble⟩ := h
  refine ⟨by simpa using hne, fun c hc => ?_, hhead, hlast, hdouble⟩
  obtain ⟨⟨u, rest⟩, hfirst⟩ := Option.isSome_iff_exists.mp hmatch
  obtain ⟨d, middle, hd, hlater⟩ := mem_bind.mp (mem_of_first hfirst)
  obtain ⟨run, middle', hrun, hend⟩ := mem_bind.mp hlater
  obtain ⟨htext, hletter⟩ := mem_char.mp hd
  obtain ⟨hmiddle, hall⟩ := of_mem_greedy hrun
  obtain ⟨-, hrest⟩ := mem_atEnd.mp hend
  rw [htext, hmiddle] at hc
  rcases List.mem_cons.mp hc with rfl | hc
  · left
    simp only [Bool.or_eq_true, decide_eq_true_eq] at hletter
    rcases hletter with hletter | rfl
    · simp [isNameChar, hletter]
    · decide
  · rcases List.mem_append.mp hc with hin | hin
    · simpa using hall c hin
    · exfalso
      rcases hrest with rfl | rfl
      · cases hin
      · have hnewline := hchars '\n' (by simp [htext, hmiddle])
        exact absurd hnewline (by decide)

theorem isPythonPath_of_valid {path : List Char} (h : validatePythonpath path = true) :
    IsPythonPath path := by
  simp only [validatePythonpath, Bool.and_eq_true, List.all_eq_true] at h
  intro entry hentry
  have hvalid := h.2 entry hentry
  simp only [validateEntry, Bool.and_eq_true, decide_eq_true_eq, hasDoubleDot, Bool.not_eq_true',
    decide_eq_false_iff_not] at hvalid
  exact ⟨hvalid.1.1.2, hvalid.1.2⟩

/-- A validated text has the words of a module run. -/
theorem acceptedWords_of_validate (h : (validate value).isOk = true) :
    ∃ assignments program module later, AcceptedWords value assignments program module later := by
  obtain ⟨u, hok⟩ := exists_of_isOk h
  unfold validate at hok
  split at hok
  · cases hok
  split at hok
  · cases hok
  rename_i hinjection
  split at hok
  · cases hok
  rename_i pythonpath module args rest hfirst
  rw [List.find?_eq_none] at hinjection
  simp only [decide_eq_true_eq] at hinjection
  simp only [raiseIf_bind_eq_ok, Bool.not_eq_eq_eq_not, Bool.not_false] at hok
  obtain ⟨hpath, hmodule, -⟩ := hok
  obtain ⟨before, after, hbefore, hafter, hvalue⟩ := Text.exists_stripped value
  have hline : '\n' ∉ Text.stripped value := by
    intro hin
    apply hinjection '\n' (by decide)
    rw [hvalue]
    exact List.mem_append_right _ (List.mem_append_left _ hin)
  obtain ⟨assignment, program, option, module', tail, hparts⟩ :=
    commandParts_of_match (mem_of_first hfirst) hline
  obtain rfl : module' = module := hparts.module_eq
  refine ⟨(pythonpath.map (assignmentStart ++ ·)).toList, program, module',
    Text.fields Text.isSpace (tail ++ after), ?_, ?_, hparts.program_eq,
    isModuleName_of_valid hmodule hparts.module_chars, ?_⟩
  · rw [hvalue, Text.words_eq_fields, Text.fields_gap_append hbefore]
    exact hparts.fields_eq hafter
  · rcases hparts.assignment_eq with ⟨hnone, -⟩ | ⟨path, gap, hsome, -, hchars, -⟩
    · left
      rw [show pythonpath = none from hnone]
      rfl
    · right
      have hsome' : pythonpath = some path := hsome
      rw [hsome', Option.any_some] at hpath
      refine ⟨path, by rw [hsome']; rfl, isPythonPath_of_valid (by simpa using hpath), hchars⟩
  · intro c hc
    have hclass : isArgChar c = true ∨ Text.isDecimal c = true := by
      rw [hvalue] at hc
      rcases List.mem_append.mp hc with hc | hc
      · exact .inl (isArgChar_of_isSpace (hbefore c hc))
      · rcases List.mem_append.mp hc with hc | hc
        · exact hparts.chars c hc
        · exact .inl (isArgChar_of_isSpace (hafter c hc))
    have hplain : ∀ c ∈ [Text.apostrophe, Text.quotationMark, '*', '?', '#', '~', '!'],
        isArgChar c = false ∧ Text.isDecimal c = false := by decide
    by_contra hspecial
    simp only [isSpecial, Bool.or_eq_true, Bool.not_eq_false, decide_eq_true_eq] at hspecial
    rcases hspecial with hinject | hquote
    · exact hinjection c hinject hc
    · obtain ⟨harg, hdecimal⟩ := hplain c hquote
      rw [harg, hdecimal] at hclass
      simp at hclass

end Validated

theorem isAssignment_start (path : List Char) : isAssignment (assignmentStart ++ path) = true := by
  have hname : '=' ∉ ['P', 'Y', 'T', 'H', 'O', 'N', 'P', 'A', 'T', 'H'] := by decide
  have hcut : Text.cutAt '=' (assignmentStart ++ path) =
      some (['P', 'Y', 'T', 'H', 'O', 'N', 'P', 'A', 'T', 'H'], path) := Text.cutAt_append hname path
  rw [isAssignment, hcut]
  rfl

theorem IsInterpreter.not_isAssignment {program : List Char} (h : IsInterpreter program) :
    isAssignment program = false := by
  obtain ⟨rest, rfl, hrest⟩ := h.exists_rest
  have hequal : '=' ∉ interpreter ++ rest := by
    intro hmem
    rcases List.mem_append.mp hmem with hin | hin
    · exact absurd hin (by decide)
    · rcases hrest '=' hin with heq | heq | hdecimal
      · exact absurd heq (by decide)
      · exact absurd heq (by decide)
      · exact absurd hdecimal (by decide)
  rw [isAssignment, Text.cutAt_eq_none hequal]

theorem words_of_simpleCommand {words : List (List Char)} {e : Execution}
    (h : simpleCommand words = some e) : words = e.assignments ++ e.program :: e.arguments := by
  induction words generalizing e with
  | nil => cases h
  | cons word words ih =>
    unfold simpleCommand at h
    split at h
    · obtain ⟨e', he', rfl⟩ := Option.map_eq_some_iff.mp h
      rw [ih he']
      rfl
    · cases h
      rfl

theorem simpleCommand_of_words {assignments arguments : List (List Char)} {program : List Char}
    (hassign : ∀ word ∈ assignments, isAssignment word = true)
    (hprogram : isAssignment program = false) :
    simpleCommand (assignments ++ program :: arguments) =
      some { assignments := assignments, program := program, arguments := arguments } := by
  induction assignments with
  | nil => rw [List.nil_append, simpleCommand, hprogram, if_neg Bool.false_ne_true]
  | cons word assignments ih =>
    rw [List.cons_append, simpleCommand, if_pos (hassign word List.mem_cons_self),
      ih fun other hother => hassign other (List.mem_cons_of_mem _ hother)]
    rfl

namespace AcceptedWords
variable {value : String} {assignments : List (List Char)} {program module : List Char}
  {later : List (List Char)} (h : AcceptedWords value.toList assignments program module later)
include h

theorem leading_eq : leading value = assignments.length + 3 := by
  unfold leading
  rw [h.words]
  rcases h.environment with rfl | ⟨path, rfl, -⟩
  · rw [List.nil_append, List.head?_cons, Option.any_some, h.program.head]
    rfl
  · have hprefix : assignmentStart.isPrefixOf (assignmentStart ++ path) = true :=
      List.isPrefixOf_iff_prefix.mpr (List.prefix_append _ _)
    rw [List.cons_append, List.head?_cons, Option.any_some, hprefix]
    rfl

theorem take_words : (Text.words value.toList).take (leading value) =
    assignments ++ [program, ['-', 'm'], module] := by
  rw [h.leading_eq, h.words, List.take_length_add_append]
  rfl

theorem isAssignment_of_mem {word : List Char} (hword : word ∈ assignments) :
    isAssignment word = true := by
  rcases h.environment with rfl | ⟨path, rfl, -⟩
  · cases hword
  · rw [List.mem_singleton.mp hword]
    exact isAssignment_start path

theorem environment_ascii {word : List Char} (hword : word ∈ assignments) :
    ∀ c ∈ word, c.toNat < 128 := by
  rcases h.environment with rfl | ⟨path, rfl, -, hchars⟩
  · cases hword
  · rw [List.mem_singleton.mp hword]
    intro c hc
    rcases List.mem_append.mp hc with hc | hc
    · exact (by decide : ∀ c ∈ assignmentStart, c.toNat < 128) c hc
    · exact isPathChar_ascii (hchars c hc)

theorem execute_wrapped : execute ["sh", "-c", value] =
    simpleCommand (Text.fields isBlank value.toList) := by
  have hplain : value.toList.any isSpecial = false := by
    rw [List.any_eq_false]
    intro c hc
    rw [h.plain c hc]
    exact Bool.false_ne_true
  simp only [execute, hplain]
  rfl

theorem ascii_iff : (∀ word ∈ (Text.words value.toList).take (leading value),
    ∀ c ∈ word, c.toNat < 128) ↔ IsPython program := by
  rw [h.take_words, isPython_iff]
  constructor
  · exact fun hascii => ⟨h.program, hascii program (by simp)⟩
  · rintro ⟨-, hprogram⟩ word hword
    rcases List.mem_append.mp hword with hin | hin
    · exact h.environment_ascii hin
    · simp only [List.mem_cons, List.not_mem_nil, or_false] at hin
      rcases hin with rfl | rfl | rfl
      · exact hprogram
      · decide
      · exact h.module.ascii

/-- Where the first words agree, the shell runs them. -/
theorem confined_wrapped (hcut : (Text.fields isBlank value.toList).take (leading value) =
      (Text.words value.toList).take (leading value)) (hprogram : IsPython program) :
    Confined value ["sh", "-c", value] := by
  rw [h.take_words] at hcut
  have hfields : Text.fields isBlank value.toList = assignments ++ program :: ['-', 'm'] ::
      module :: (Text.fields isBlank value.toList).drop (leading value) := by
    conv_lhs => rw [← List.take_append_drop (leading value) (Text.fields isBlank value.toList), hcut]
    simp
  refine ⟨{ assignments := assignments, program := program, arguments := ['-', 'm'] :: module ::
    (Text.fields isBlank value.toList).drop (leading value) }, ?_, hfields, ?_, hprogram, module,
    _, rfl, h.module⟩
  · rw [h.execute_wrapped]
    conv_lhs => rw [hfields]
    exact simpleCommand_of_words (fun word hword => h.isAssignment_of_mem hword)
      h.program.not_isAssignment
  · rcases h.environment with hnone | ⟨path, hpath, hsafe, -⟩
    · exact .inl hnone
    · exact .inr ⟨path, hpath, hsafe⟩

/-- Without white space in a leading assignment, what runs a module is cut alike. -/
theorem cut_of_confined (hconfined : Confined value ["sh", "-c", value])
    (hkept : ¬ Swallowed value) :
    (Text.fields isBlank value.toList).take (leading value) =
        (Text.words value.toList).take (leading value) ∧ IsPython program := by
  obtain ⟨e, he, hruns⟩ := hconfined
  obtain ⟨module', rest, harguments, hmodule⟩ := hruns.module
  have hfields := hruns.words
  rw [harguments] at hfields
  have hinterpreter := (isPython_iff.mp hruns.program).1
  have hclean : ∀ word ∈ e.assignments ++ [e.program, ['-', 'm'], module'],
      ∀ c ∈ word, Text.isSpace c = false := by
    intro word hword
    rcases List.mem_append.mp hword with hin | hin
    · rcases hruns.environment with hnone | ⟨path, hpath, -⟩
      · rw [hnone] at hin
        cases hin
      · rw [hpath, List.mem_singleton] at hin
        intro c hc
        by_contra hspace
        apply hkept
        refine ⟨word, ?_, ?_, c, hc, by simpa using hspace⟩
        · rw [hfields, hpath, hin]
          rfl
        · rw [hin]
          exact List.prefix_append _ _
    · simp only [List.mem_cons, List.not_mem_nil, or_false] at hin
      rcases hin with rfl | rfl | rfl
      · exact hinterpreter.not_isSpace
      · decide
      · exact hmodule.not_isSpace
  have htake : (Text.fields isBlank value.toList).take (e.assignments.length + 3) =
      e.assignments ++ [e.program, ['-', 'm'], module'] := by
    rw [hfields, List.take_length_add_append]
    rfl
  have hcut := (Text.take_fields_eq_iff (fun c hc => isSpace_of_isBlank hc)
    (e.assignments.length + 3) value.toList).mpr (by rw [htake]; exact hclean)
  -- Both cuts start with the same word, which says whether there is an assignment.
  have hsame : e.assignments.length = assignments.length := by
    rw [htake, ← Text.words_eq_fields, h.words] at hcut
    rcases hruns.environment with hnone | ⟨path, hpath, -⟩
    · rcases h.environment with hnone' | ⟨path', hpath', -⟩
      · rw [hnone, hnone']
      · rw [hnone, hpath'] at hcut
        have hhead : e.program = assignmentStart ++ path' := by simpa using congrArg List.head? hcut
        have hfalse := hinterpreter.not_isAssignment
        rw [hhead, isAssignment_start] at hfalse
        cases hfalse
    · rcases h.environment with hnone' | ⟨path', hpath', -⟩
      · rw [hpath, hnone'] at hcut
        have hhead : assignmentStart ++ path = program := by simpa using congrArg List.head? hcut
        have hfalse := h.program.not_isAssignment
        rw [← hhead, isAssignment_start] at hfalse
        cases hfalse
      · rw [hpath, hpath']
        rfl
  rw [hsame, ← h.leading_eq, ← Text.words_eq_fields] at hcut
  refine ⟨hcut, ?_⟩
  rw [hsame, ← h.leading_eq, hcut, h.take_words] at htake
  have hprograms := List.append_inj_right htake hsame.symm
  rw [List.cons.injEq] at hprograms
  rw [hprograms.1]
  exact hruns.program

end AcceptedWords

theorem execute_direct {program : String} (h : program ≠ "sh") (arguments : List String) :
    execute (program :: arguments) = some {
      assignments := [], program := program.toList, arguments := arguments.map String.toList } := by
  unfold execute
  split
  · rename_i heq
    cases heq
    exact absurd rfl h
  · rename_i heq
    cases heq
    rfl
  · rename_i heq
    cases heq

/-- A command that is run as it was cut runs a module where the shell cuts alike. -/
theorem confined_direct_iff {value : String} {program module : List Char} {later : List (List Char)}
    (hwords : Text.words value.toList = program :: ['-', 'm'] :: module :: later)
    (hprogram : IsInterpreter program) :
    Confined value ((Text.words value.toList).map String.ofList) ↔
      Text.fields isBlank value.toList = Text.words value.toList ∧ IsPython program ∧
        IsModuleName module := by
  have hname : String.ofList program ≠ "sh" := by
    obtain ⟨rest, rfl, -⟩ := hprogram.exists_rest
    intro heq
    have hchars := congrArg String.toList heq
    rw [String.toList_ofList] at hchars
    have hhead : some 'p' = some 's' := congrArg List.head? hchars
    exact absurd hhead (by decide)
  have hexecute : execute ((Text.words value.toList).map String.ofList) = some {
      assignments := [], program := program, arguments := ['-', 'm'] :: module :: later } := by
    rw [hwords, List.map_cons, execute_direct hname]
    simp [List.map_map, Function.comp_def]
  unfold Confined
  simp only [hexecute, Option.some.injEq, exists_eq_left']
  constructor
  · intro hruns
    obtain ⟨module', rest, harguments, hmodule⟩ := hruns.module
    simp only [List.cons.injEq] at harguments
    refine ⟨?_, hruns.program, harguments.2.1 ▸ hmodule⟩
    rw [hwords]
    exact hruns.words
  · rintro ⟨hcut, hpython, hmodule⟩
    exact ⟨by rw [hcut, hwords]; rfl, .inl rfl, hpython, module, later, rfl, hmodule⟩

theorem not_isWrapped {value : String}
    (h : ∀ c ∈ ['=', '&', '|', ';'], c ∉ value.toList) : isWrapped value = false := by
  unfold isWrapped
  rw [List.any_eq_false]
  intro marker hmarker hcontains
  have hin := Text.mem_of_contains hcontains
  simp only [List.mem_cons, List.not_mem_nil, or_false] at hmarker
  rcases hmarker with rfl | rfl | rfl | rfl | rfl
  · exact h '=' (by decide) (hin '=' (by decide))
  · exact h '&' (by decide) (hin '&' (by decide))
  · exact h '|' (by decide) (hin '|' (by decide))
  · exact h '|' (by decide) (hin '|' (by decide))
  · exact h ';' (by decide) (hin ';' (by decide))

theorem isWrapped_of_mem {value : String} (h : '=' ∈ value.toList) : isWrapped value = true := by
  obtain ⟨before, after, hvalue⟩ := List.append_of_mem h
  have hcontains : Text.contains value "=" = true := by
    apply List.any_eq_true.mpr
    refine ⟨'=' :: after, (List.mem_tails _ _).mpr ⟨before, hvalue.symm⟩, ?_⟩
    exact List.isPrefixOf_iff_prefix.mpr ⟨after, rfl⟩
  simp [isWrapped, hcontains]

section Dotted
variable {w : WordChars} {text rest : List Char}

/-- Nowhere two dots in a row. -/
def NoDoubleDot (cs : List Char) : Prop := cs.IsChain fun a b => a ≠ '.' ∨ b ≠ '.'

theorem NoDoubleDot.not_infix {cs : List Char} (h : NoDoubleDot cs) : ¬ ['.', '.'] <:+: cs := by
  intro hinfix
  have hpair : ['.', '.'].IsChain fun a b => a ≠ '.' ∨ b ≠ '.' := List.IsChain.infix h hinfix
  rw [List.isChain_pair] at hpair
  simp at hpair

theorem noDoubleDot_of_not_mem {cs : List Char} (h : '.' ∉ cs) : NoDoubleDot cs := by
  induction cs with
  | nil => exact List.isChain_nil
  | cons c cs ih =>
    rw [List.mem_cons, not_or] at h
    exact List.isChain_cons.mpr ⟨fun _ _ => .inl (Ne.symm h.1), ih h.2⟩

theorem of_mem_identifier {name : List Char} (h : (name, rest) ∈ identifier w text) :
    text = name ++ rest ∧ name ≠ [] ∧ '.' ∉ name ∧
      ∀ c ∈ name, isNameChar c = true ∨ w.isWord c = true := by
  have hdot : w.isWord '.' = false := w.ascii '.' (by decide)
  unfold identifier at h
  obtain ⟨c, middle, hc, hlater⟩ := mem_bind.mp h
  obtain ⟨run, middle', hrun, hpure⟩ := mem_bind.mp hlater
  obtain ⟨rfl, rfl⟩ := mem_pure.mp hpure
  obtain ⟨rfl, hletter⟩ := mem_char.mp hc
  obtain ⟨rfl, hall⟩ := of_mem_greedy hrun
  simp only [Bool.or_eq_true, decide_eq_true_eq] at hletter
  refine ⟨rfl, List.cons_ne_nil _ _, fun hmem => ?_, fun d hd => ?_⟩
  · rcases List.mem_cons.mp hmem with rfl | hin
    · exact absurd hletter (by decide)
    · rw [hall '.' hin] at hdot
      cases hdot
  · rcases List.mem_cons.mp hd with rfl | hin
    · left
      rcases hletter with hletter | rfl
      · simp [isNameChar, hletter]
      · decide
    · exact .inr (hall d hin)

/-- Names joined by dots, after a first one. -/
structure DottedTail (w : WordChars) (name tail : List Char) : Prop where
  single : NoDoubleDot (name ++ tail)
  last : (name ++ tail).getLast? ≠ some '.'
  chars : ∀ c ∈ tail, isNameChar c = true ∨ w.isWord c = true ∨ c = '.'

theorem dottedTail_of_rounds {others : List (List Char)}
    (h : Rounds (do
      literal id ['.']
      identifier w) text others rest) {name : List Char} (hne : name ≠ []) (hdot : '.' ∉ name) :
    ∃ tail, text = tail ++ rest ∧ DottedTail w name tail := by
  induction h generalizing name with
  | nil =>
    refine ⟨[], rfl, ?_, ?_, fun _ hc => absurd hc List.not_mem_nil⟩
    · rw [List.append_nil]
      exact noDoubleDot_of_not_mem hdot
    · rw [List.append_nil]
      exact fun hlast => hdot (List.mem_of_getLast? hlast)
  | @cons text middle rest next others round later ih =>
    obtain ⟨u, middle', hliteral, hnext⟩ := mem_bind.mp round
    obtain ⟨rfl, hnextNe, hnextDot, hnextChars⟩ := of_mem_identifier hnext
    obtain ⟨tail, rfl, htail⟩ := ih hnextNe hnextDot
    refine ⟨'.' :: (next ++ tail), ?_, ?_, ?_, ?_⟩
    · rw [eq_of_mem_literal hliteral]
      simp
    · apply List.isChain_append.mpr
      refine ⟨noDoubleDot_of_not_mem hdot, List.isChain_cons.mpr ⟨?_, htail.single⟩, ?_⟩
      · intro d hd
        right
        rw [List.head?_append_of_ne_nil _ hnextNe] at hd
        rintro rfl
        exact hnextDot (List.mem_of_mem_head? hd)
      · intro a ha b _
        left
        rintro rfl
        exact hdot (List.mem_of_getLast? ha)
    · rw [List.getLast?_append_of_ne_nil _ (List.cons_ne_nil _ _),
        List.getLast?_cons_of_ne_nil (List.append_ne_nil_of_left_ne_nil hnextNe _)]
      exact htail.last
    · intro c hc
      rcases List.mem_cons.mp hc with rfl | hc
      · exact .inr (.inr rfl)
      · rcases List.mem_append.mp hc with hc | hc
        · rcases hnextChars c hc with hname | hword
          · exact .inl hname
          · exact .inr (.inl hword)
        · exact htail.chars c hc

/-- What `re.fullmatch` admits as a module; its letters may be of any script. -/
theorem of_fullMatch_dottedName {module : List Char} {fuel : Nat}
    (h : fullMatch (dottedName w fuel) module = true) :
    module ≠ [] ∧ module.head? ≠ some '.' ∧ module.getLast? ≠ some '.' ∧ NoDoubleDot module ∧
      ∀ c ∈ module, isNameChar c = true ∨ w.isWord c = true ∨ c = '.' := by
  obtain ⟨⟨⟨name, others⟩, rest⟩, hmem, hrest⟩ := List.any_eq_true.mp h
  rw [List.isEmpty_iff] at hrest
  subst hrest
  obtain ⟨name', middle, hname, hlater⟩ := mem_bind.mp hmem
  obtain ⟨others', middle', hothers, hpure⟩ := mem_bind.mp hlater
  obtain ⟨-, rfl⟩ := mem_pure.mp hpure
  obtain ⟨rfl, hne, hdot, hchars⟩ := of_mem_identifier hname
  obtain ⟨tail, rfl, htail⟩ := dottedTail_of_rounds (rounds_of_mem_many hothers) hne hdot
  rw [List.append_nil]
  refine ⟨List.append_ne_nil_of_left_ne_nil hne _, ?_, htail.last, htail.single, fun c hc => ?_⟩
  · rw [List.head?_append_of_ne_nil _ hne]
    exact fun hhead => hdot (List.mem_of_mem_head? hhead)
  · rcases List.mem_append.mp hc with hc | hc
    · rcases hchars c hc with hname | hword
      · exact .inl hname
      · exact .inr (.inl hword)
    · exact htail.chars c hc

theorem isModuleName_iff_ascii {module : List Char} {fuel : Nat}
    (h : fullMatch (dottedName w fuel) module = true) :
    IsModuleName module ↔ ∀ c ∈ module, c.toNat < 128 := by
  obtain ⟨hne, hhead, hlast, hsingle, hchars⟩ := of_fullMatch_dottedName h
  constructor
  · exact IsModuleName.ascii
  · intro hascii
    refine ⟨hne, fun c hc => ?_, hhead, hlast, hsingle.not_infix⟩
    rcases hchars c hc with hname | hword | hdot
    · exact .inl hname
    · left
      rw [w.ascii c (hascii c hc)] at hword
      simpa [isNameChar] using hword
    · exact .inr hdot

end Dotted

theorem not_swallowed {value : String}
    (h : (Text.fields isBlank value.toList).take 1 = (Text.words value.toList).take 1) :
    ¬ Swallowed value := by
  rintro ⟨word, hword, -, c, hc, hspace⟩
  have hmem : word ∈ (Text.words value.toList).take 1 := by
    rw [← h, List.take_one]
    exact Option.mem_toList.mpr hword
  have hclean := ((Text.of_mem_fields (List.mem_of_mem_take hmem)).2 c hc).1
  rw [hspace] at hclean
  cases hclean

/-- The branch of the stdlib application. -/
theorem confined_stdlib_iff {w : WordChars} {value : String} {command : List (List Char)}
    (h : stdlibCommand w value.toList = some command) :
    Confined value (command.map String.ofList) ↔ CutAlike value := by
  unfold stdlibCommand at h
  split at h
  · rename_i program option module hwords
    split at h
    · rename_i hguard
      cases h
      simp only [Bool.and_eq_true, decide_eq_true_eq] at hguard
      obtain ⟨⟨rfl, rfl⟩, hmatch⟩ := hguard
      have hleading : leading value = 3 := by
        unfold leading
        rw [hwords]
        rfl
      have hunwrapped : isWrapped value = false := by
        apply not_isWrapped
        intro c hc hin
        have hspace : Text.isSpace c = false :=
          (by decide : ∀ c ∈ ['=', '&', '|', ';'], Text.isSpace c = false) c hc
        obtain ⟨word, hword, hinWord⟩ := Text.exists_field_of_mem hin hspace
        rw [← Text.words_eq_fields, hwords] at hword
        simp only [List.mem_cons, List.not_mem_nil, or_false] at hword
        rcases hword with rfl | rfl | rfl
        · exact (by decide : ∀ c ∈ ['=', '&', '|', ';'], c ∉ interpreter) c hc hinWord
        · exact (by decide : ∀ c ∈ ['=', '&', '|', ';'], c ∉ ['-', 'm']) c hc hinWord
        · obtain ⟨-, -, -, -, hchars⟩ := of_fullMatch_dottedName hmatch
          have hclass := hchars c hinWord
          have hascii : c.toNat < 128 :=
            (by decide : ∀ c ∈ ['=', '&', '|', ';'], c.toNat < 128) c hc
          rw [w.ascii c hascii] at hclass
          revert hclass
          simp only [List.mem_cons, List.not_mem_nil, or_false] at hc
          rcases hc with rfl | rfl | rfl | rfl <;> decide
      have hdirect := confined_direct_iff hwords (.inl rfl)
      rw [hwords] at hdirect
      rw [hdirect, isModuleName_iff_ascii hmatch]
      constructor
      · rintro ⟨hcut, -, hascii⟩
        refine ⟨by rw [hunwrapped, if_neg Bool.false_ne_true, hwords]; exact hcut, ?_⟩
        rw [hleading, hwords]
        intro word hword
        simp only [List.take_succ_cons, List.take_zero, List.mem_cons, List.not_mem_nil,
          or_false] at hword
        rcases hword with rfl | rfl | rfl
        · decide
        · decide
        · exact hascii
      · rintro ⟨hcut, hascii⟩
        rw [hunwrapped, if_neg Bool.false_ne_true, hwords] at hcut
        rw [hleading, hwords] at hascii
        exact ⟨hcut, .inl rfl, hascii module (by simp)⟩
    · cases h
  · cases h

/-- The branch of all other applications. -/
theorem confined_validated {value : String} (h : (validate value.toList).isOk = true) :
    (CutAlike value → Confined value (if isWrapped value then ["sh", "-c", value]
      else (Text.words value.toList).map String.ofList)) ∧
    (¬ Swallowed value → Confined value (if isWrapped value then ["sh", "-c", value]
      else (Text.words value.toList).map String.ofList) → CutAlike value) := by
  obtain ⟨assignments, program, module, later, haccepted⟩ := acceptedWords_of_validate h
  have hascii := haccepted.ascii_iff
  cases hwrapped : isWrapped value with
  | true =>
    rw [if_pos rfl]
    constructor
    · rintro ⟨hcut, hleading⟩
      rw [hwrapped, if_pos rfl] at hcut
      exact haccepted.confined_wrapped hcut (hascii.mp hleading)
    · intro hkept hconfined
      obtain ⟨hcut, hprogram⟩ := haccepted.cut_of_confined hconfined hkept
      exact ⟨by rw [hwrapped, if_pos rfl]; exact hcut, hascii.mpr hprogram⟩
  | false =>
    rw [if_neg Bool.false_ne_true]
    have hnone : assignments = [] := by
      rcases haccepted.environment with hnone | ⟨path, rfl, -⟩
      · exact hnone
      · have hword : assignmentStart ++ path ∈ Text.fields Text.isSpace value.toList := by
          rw [← Text.words_eq_fields, haccepted.words]
          exact List.mem_cons_self
        have hequal : '=' ∈ value.toList :=
          ((Text.of_mem_fields hword).2 '=' (List.mem_append_left _ (by decide))).2
        rw [isWrapped_of_mem hequal] at hwrapped
        cases hwrapped
    have hwords := haccepted.words
    rw [hnone, List.nil_append] at hwords
    rw [confined_direct_iff hwords haccepted.program]
    constructor
    · rintro ⟨hcut, hleading⟩
      rw [hwrapped, if_neg Bool.false_ne_true] at hcut
      exact ⟨hcut, hascii.mp hleading, haccepted.module⟩
    · rintro - ⟨hcut, hprogram, -⟩
      exact ⟨by rw [hwrapped, if_neg Bool.false_ne_true]; exact hcut, hascii.mpr hprogram⟩

/-- A text that is cut alike runs one module, and no other text does, apart from
those whose leading assignment has white space in it. -/
theorem backendCommand_confined (w : WordChars) (applicationId : Option String) (serviceId : String)
    (payload : Option Json) (value : String) (command : List String)
    (hvalue : payload.bind backendCommandValue = some value)
    (h : contractBackendCommand w applicationId serviceId payload = some command) :
    (CutAlike value → Confined value command) ∧
      (¬ Swallowed value → (Confined value command ↔ CutAlike value)) := by
  simp only [contractBackendCommand, hvalue, Option.bind_eq_bind, Option.bind_some,
    Option.bind_eq_some_iff] at h
  obtain ⟨-, -, -, -, h⟩ := h
  split at h
  · obtain ⟨words, hwords, rfl⟩ := Option.map_eq_some_iff.mp h
    have hiff := confined_stdlib_iff hwords
    exact ⟨hiff.mpr, fun _ => hiff⟩
  · simp only [Option.bind_eq_some_iff] at h
    obtain ⟨_, hvalid, h⟩ := h
    cases h
    have hok : (validate value.toList).isOk = true := by
      by_contra hinvalid
      simp [guard, hinvalid] at hvalid
    obtain ⟨hto, hfrom⟩ := confined_validated hok
    exact ⟨hto, fun hkept => ⟨hfrom hkept, hto⟩⟩

def contractOf (value : String) : Json :=
  .obj [("entrypoints", .obj [("backend_command", .str value)])]

theorem plainCommand_confined : Confined "PYTHONPATH=src python3.11 -m app.main --port=80"
    ["sh", "-c", "PYTHONPATH=src python3.11 -m app.main --port=80"] :=
  (backendCommand_confined asciiWords none "backend"
    (some (contractOf "PYTHONPATH=src python3.11 -m app.main --port=80")) _ _
    (by decide +kernel) (by decide +kernel)).1
    ⟨by decide +kernel, by decide +kernel⟩

/-- No-break spaces keep an interpreter and its module within the assignment. -/
def smuggled : String := "PYTHONPATH=src\u00a0python\u00a0-m\u00a0mod rm -rf /"

theorem smuggled_runs_rm :
    contractBackendCommand asciiWords none "backend" (some (contractOf smuggled)) =
      some ["sh", "-c", smuggled] ∧ ¬ Confined smuggled ["sh", "-c", smuggled] := by
  refine ⟨by decide +kernel, ?_⟩
  rintro ⟨e, he, hruns⟩
  have hprogram : (execute ["sh", "-c", smuggled]).map (·.program) = some ['r', 'm'] := by
    decide +kernel
  rw [he, Option.map_some, Option.some.injEq] at hprogram
  obtain ⟨rest, hrest, -⟩ := (isPython_iff.mp hruns.program).1.exists_rest
  rw [hprogram] at hrest
  have hhead : some 'r' = some 'p' := congrArg List.head? hrest
  exact absurd hhead (by decide)

end ProjectOS.Runtime
