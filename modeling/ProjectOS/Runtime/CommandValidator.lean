import ProjectOS.Base.Fields
import ProjectOS.Base.Json
import ProjectOS.Base.Matches
import ProjectOS.Base.Raise

/-! The validator of start commands, and the backend command that the launcher
takes from the project contract. -/
namespace ProjectOS.Runtime
open Base

namespace PythonCommandValidator
open Pattern

def assignmentStart : List Char := ['P', 'Y', 'T', 'H', 'O', 'N', 'P', 'A', 'T', 'H', '=']

def interpreter : List Char := ['p', 'y', 't', 'h', 'o', 'n']

def isNameChar (c : Char) : Bool := Text.isAsciiLetter c || Text.isAsciiDigit c || c = '_'

def isPathChar (c : Char) : Bool :=
  isNameChar c || c = '/' || c = '.' || c = ':' || c = ',' || c = '-'

def isModuleChar (c : Char) : Bool := isNameChar c || c = '.' || c = '-'

def isArgChar (c : Char) : Bool :=
  isNameChar c || c = '.' || c = ',' || c = '=' || c = ':' || c = '/' || c = '-' || Text.isSpace c

/-- `_SHELL_INJECTION_CHARS`; the first one of the list is reported. -/
def shellInjectionChars : List Char := [
  ';', '|', '&', '$', Char.ofNat 96, Text.backslash, '(', ')', Char.ofNat 123, Char.ofNat 125, '[',
  ']', '<', '>', '\n', '\r']

/-- `_PYTHON_MODULE_PATTERN` with its groups: the path, the module and the arguments. -/
def modulePattern : Pattern (Option (List Char) × List Char × Option (List Char)) := do
  let pythonpath ← optional (do
    literal id assignmentStart
    let path ← greedy1 isPathChar
    let _ ← greedy1 Text.isSpace
    return path)
  literal id interpreter
  let _ ← optional (do
    literal id ['3']
    optional (do
      literal id ['.']
      greedy1 Text.isDecimal))
  let _ ← greedy1 Text.isSpace
  literal id ['-', 'm']
  let _ ← greedy1 Text.isSpace
  let module ← greedy1 isModuleChar
  let args ← optional (do
    let _ ← greedy1 Text.isSpace
    greedy1 isArgChar)
  atEnd
  return (pythonpath, module, args)

def hasDoubleDot (cs : List Char) : Bool := decide (['.', '.'] <:+: cs)

def validateEntry (path : List Char) : Bool :=
  !path.all Text.isSpace && path.head? ≠ some '/' && !hasDoubleDot path &&
    matches? (do
      let run ← greedy1 fun c => isNameChar c || c = '/' || c = '.' || c = '-'
      atEnd
      return run) path

def validatePythonpath (pythonpath : List Char) : Bool :=
  !pythonpath.isEmpty && (Text.splitOn ':' pythonpath).all validateEntry

def validateModuleName (module : List Char) : Bool :=
  !module.isEmpty &&
    matches? (do
      let _ ← char fun c => Text.isAsciiLetter c || c = '_'
      let _ ← greedy fun c => isNameChar c || c = '.'
      atEnd) module &&
    module.head? ≠ some '.' && module.getLast? ≠ some '.' && !hasDoubleDot module

def validateArgs (args : List Char) : Bool :=
  args.isEmpty || matches? (do
    let run ← greedy1 isArgChar
    atEnd
    return run) args

/-- `validate`; an error is the reason of an invalid result. -/
def validate (command : List Char) : Except String Unit :=
  if command.all Text.isSpace then .error "命令为空"
  else match shellInjectionChars.find? (· ∈ command) with
    | some c => .error ("命令包含不安全字符: " ++ Text.repr (String.ofList [c]))
    | none =>
        match first modulePattern (Text.stripped command) with
        | none => .error ("命令格式不符合要求，仅支持 'python -m module.name' 或 " ++
            "'PYTHONPATH=path python -m module.name'")
        | some ((pythonpath, module, args), _) => do
            raiseIf (pythonpath.any (!validatePythonpath ·))
              ("PYTHONPATH 包含不安全路径: " ++ String.ofList (pythonpath.getD []))
            raiseIf (!validateModuleName module) ("模块名不合法: " ++ String.ofList module)
            raiseIf (args.any (!validateArgs ·))
              ("命令参数包含不安全内容: " ++ String.ofList (args.getD []))

end PythonCommandValidator

section Startup
open Pattern PythonCommandValidator

/-- `[A-Za-z_]\w*`. -/
def identifier (w : WordChars) : Pattern (List Char) := do
  let c ← char fun c => Text.isAsciiLetter c || c = '_'
  let rest ← greedy w.isWord
  return c :: rest

/-- `[A-Za-z_]\w*(?:\.[A-Za-z_]\w*)*`. -/
def dottedName (w : WordChars) (fuel : Nat) : Pattern (List Char × List (List Char)) := do
  let name ← identifier w
  let others ← many (do
    literal id ['.']
    identifier w) fuel
  return (name, others)

/-- The branch of the stdlib application: three words, the last a dotted name. -/
def stdlibCommand (w : WordChars) (value : List Char) : Option (List (List Char)) :=
  match Text.words value with
  | [program, option, module] =>
      if program = interpreter && option = ['-', 'm'] &&
          fullMatch (dottedName w module.length) module then
        some [program, option, module]
      else none
  | _ => none

/-- `payload.get("entrypoints", {}).get("backend_command")`, where it is a text. -/
def backendCommandValue (payload : Json) : Option String :=
  let entrypoints := payload.getD "entrypoints" (.obj [])
  if payload.isDict && entrypoints.isDict then
    match entrypoints.get "backend_command" with
    | .str value => some value
    | _ => none
  else none

/-- Whether the command is wrapped for the shell. -/
def isWrapped (value : String) : Bool :=
  ["=", "&&", "||", "|", ";"].any fun marker => Text.contains value marker

/-- `_contract_backend_command`; an unreadable contract is no payload. -/
def contractBackendCommand (w : WordChars) (applicationId : Option String) (serviceId : String)
    (payload : Option Json) : Option (List String) := do
  guard (serviceId = "backend")
  let value ← payload.bind backendCommandValue
  guard (!Text.blank value)
  if applicationId = some "python-backend" then
    (stdlibCommand w value.toList).map (·.map String.ofList)
  else
    guard (validate value.toList).isOk
    some (if isWrapped value then ["sh", "-c", value]
      else (Text.words value.toList).map String.ofList)

end Startup
end ProjectOS.Runtime
