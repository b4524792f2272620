import ProjectOS.Base.Json
import ProjectOS.Base.Dict
import ProjectOS.Orchestration.PathPattern

/-! Python import bindings between implementation units: the module of a
workspace file and the symbols it exports. -/
namespace ProjectOS.Architecture
open Base Orchestration

/-- `[A-Za-z_][A-Za-z0-9_]*`. -/
def pythonName (name : String) : Bool :=
  match name.toList with
  | [] => false
  | c :: rest => (Text.isAsciiLetter c || c = '_') &&
      rest.all fun c => Text.isAsciiLetter c || Text.isAsciiDigit c || c = '_'

/-- A dotted name with an optional call suffix. -/
def pythonDottedName (value : String) : Bool :=
  (Text.split '.' (Text.removeSuffix value "()")).all pythonName

def normalizeWorkspacePath (path : String) : String :=
  stripLeadingSlashes (Text.removePrefix (forwardSlashes path) "workspace/")

def pythonModuleForPath (path : String) : Option String :=
  let normalized := normalizeWorkspacePath path
  if !Text.endswith normalized ".py" then none
  else
    let stem := Text.removeSuffix (Text.removePrefix normalized "backend/") ".py"
    let parts := Text.split '/' stem
    let named := (if parts.getLast? = some "__init__" then parts.dropLast else parts).filter (· ≠ "")
    if named.isEmpty || !named.all pythonName then none else some (Text.join "." named)

/-- `parts[0][:1].isupper()` of a name. -/
def startsUpper (name : String) : Bool :=
  name.toList.head?.any fun c => 'A' ≤ c && c ≤ 'Z'

/-- A concrete symbol: a plain name, or a member of a class. -/
def concreteSymbol (value : String) : Bool :=
  pythonDottedName value &&
    match Text.split '.' (Text.removeSuffix value "()") with
    | first :: _ :: _ => startsUpper first
    | _ => true

def normalizePythonSymbols (values : List String) : List String :=
  dedupe ((values.map Text.strip).filter concreteSymbol)

structure Binding where
  unitId : String
  ownedFile : String
  module : String
  providedSymbols : List String
deriving DecidableEq

def Binding.fields (binding : Binding) : List (String × Json) := [
  ("unit_id", .str binding.unitId),
  ("owned_file", .str binding.ownedFile),
  ("language", .str "python"),
  ("module", .str binding.module),
  ("provided_symbols", .strs binding.providedSymbols)]

def canonicalBinding (unitId ownedFile : String) (providedSymbols : List String) : Option Binding :=
  (pythonModuleForPath ownedFile).map fun module => {
    unitId := unitId
    ownedFile := normalizeWorkspacePath ownedFile
    module := module
    providedSymbols := normalizePythonSymbols providedSymbols }

example : pythonModuleForPath "workspace/backend/app/task_service.py" = some "app.task_service" := by
  decide
example : normalizePythonSymbols ["TaskService.create()", "task.api", " run "] =
    ["TaskService.create()", "run"] := by decide

end ProjectOS.Architecture
