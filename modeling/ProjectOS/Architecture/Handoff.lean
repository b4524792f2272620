import ProjectOS.Architecture.ImplementationContract
import ProjectOS.Base.Shlex

/-! Delivery handoff of a contract: what is missing before code can be started
from it, as the list of gaps the producer reports. -/
namespace ProjectOS.Architecture
open Base Orchestration

/-- `if value:` of an optional text. -/
def given (value : Option String) : Option String := value.filter (· ≠ "")

def backendModule (file : String) : String :=
  Text.replaceChar '/' '.' (Text.removeSuffix file ".py")

/-- `value.split(":", 1)[0]`. -/
def beforeColon (value : String) : String :=
  String.ofList (value.toList.takeWhile (· ≠ ':'))

/-- `value.split(":", 1)[1]` where the value has a colon. -/
def afterColon (value : String) : Option String :=
  if ':' ∈ value.toList then some (String.ofList ((value.toList.dropWhile (· ≠ ':')).drop 1))
  else none

/-- The import names the module of the file, from the project root or from `backend/`. -/
def importMatches (file imported : String) : Bool :=
  Text.endswith file ".py" && (beforeColon imported = backendModule file ||
    beforeColon imported = Text.removePrefix (backendModule file) "backend.")

def launches (command imported : String) : Bool :=
  imported ∈ (Shlex.split command).getD []

def missingGap (key : String) (value : Option String) : List String :=
  if (given value).isNone then ["entrypoints." ++ key ++ " missing"] else []

def requiredGap (key : String) (path : Option String) (requiredFiles : List String) : List String :=
  match given path with
  | some path =>
      if path ∈ requiredFiles then []
      else ["entrypoints." ++ key ++ " not in required_files: " ++ path]
  | none => []

def importGap (backendFile backendImport : Option String) : List String :=
  match given backendFile, given backendImport with
  | some file, some imported =>
      if importMatches file imported then []
      else ["entrypoints.backend_import does not match backend_file"]
  | _, _ => []

def commandGap (backendImport backendCommand : Option String) : List String :=
  match given backendImport, given backendCommand with
  | some imported, some command =>
      if launches command imported then []
      else ["entrypoints.backend_command does not launch backend_import"]
  | _, _ => []

/-- `_entrypoint_gaps`. -/
def entrypointGaps (entry : EntrypointContract) (requiredFiles : List String)
    (needsBackend needsFrontend : Bool) : List String :=
  (if requiredFiles.isEmpty then ["required_files empty"] else []) ++
  (if needsBackend then missingGap "backend_file" entry.backendFile ++
      missingGap "backend_import" entry.backendImport ++
      missingGap "backend_command" entry.backendCommand
    else []) ++
  (if needsFrontend then missingGap "frontend_file" entry.frontendFile else []) ++
  requiredGap "backend_file" entry.backendFile requiredFiles ++
  requiredGap "frontend_file" entry.frontendFile requiredFiles ++
  importGap entry.backendFile entry.backendImport ++
  commandGap entry.backendImport entry.backendCommand

/-- The unit that owns the path; a later unit wins. -/
def ownerOf (units : List UnitFields) (path : String) : Option UnitFields :=
  units.reverse.find? (path ∈ ·.ownedFiles)

def ownedGap (key : String) (path : Option String) (units : List UnitFields) : List String :=
  match given path with
  | some path =>
      if (ownerOf units path).isSome then []
      else ["entrypoints." ++ key ++ " not owned by implementation unit: " ++ path]
  | none => []

def symbolGap (entry : EntrypointContract) (units : List UnitFields) : List String :=
  match given entry.backendFile, (given entry.backendImport).bind afterColon with
  | some file, some symbol =>
      match ownerOf units file with
      | some owner =>
          if symbol ∈ owner.providedSymbols then []
          else ["entrypoints.backend_import symbol not provided: " ++ symbol]
      | none => []
  | _, _ => []

namespace ImplementationContract

def unitFields (contract : ImplementationContract) : List UnitFields :=
  contract.units.map (·.toUnitFields)

def ownsBelow (units : List UnitFields) (folder : String) : Bool :=
  units.any fun unit => unit.ownedFiles.any (Text.startswith · folder)

/-- `contract_handoff_gaps`. -/
def handoffGaps (contract : ImplementationContract) : List String :=
  let units := contract.unitFields
  entrypointGaps contract.entrypoints contract.requiredFiles (ownsBelow units "backend/")
    (ownsBelow units "frontend/") ++
  ownedGap "backend_file" contract.entrypoints.backendFile units ++
  ownedGap "frontend_file" contract.entrypoints.frontendFile units ++
  contract.requiredFiles.flatMap (fun path =>
    if (ownerOf units path).isSome then []
    else ["required_files not owned by implementation unit: " ++ path]) ++
  symbolGap contract.entrypoints units

end ImplementationContract
end ProjectOS.Architecture
