import ProjectOS.Code.Checkout
import ProjectOS.Code.GitRepository
import ProjectOS.Orchestration.Plan

/-! The delivery gate of the runner: what a code work item must have left in its worktree. -/
namespace ProjectOS.Orchestration
open Base Code

namespace CodeDelivery

/-- `[A-Za-z_][A-Za-z0-9_]*`. -/
def isIdentifier (text : String) : Bool :=
  match text.toList with
  | [] => false
  | c :: rest => (Text.isAsciiLetter c || c = '_') &&
      rest.all fun c => Text.isAsciiLetter c || Text.isAsciiDigit c || c = '_'

/-- A dotted name, perhaps with empty brackets behind it. -/
def isSymbol (value : String) : Bool :=
  (Text.split '.' (Text.removeSuffix value "()")).all isIdentifier

def PyNode.names : PyNode → List String
  | .function name => [name]
  | .classDef name body => name :: body.filterMap fun
      | .function member => some (name ++ "." ++ member)
      | _ => none
  | .assign (some target :: _) => [target]
  | _ => []

def PyNode.publicMembers : PyNode → List String
  | .classDef _ body => (body.flatMap fun
      | .function member => [member]
      | .assign targets => targets.filterMap id
      | .other => []).filter fun member => !Text.startswith member "_"
  | _ => []

def dictOr (value : Json) : Json := if value.isDict then value else .obj []

def textOf : Json → Option String
  | .str text => some text
  | _ => none

/-- The file that must define `app`, if the contract asks for one. -/
def applicationFile (contract : Json) : Option String :=
  let entrypoints := dictOr (contract.getD "entrypoints" (.obj []))
  let backendFile := textOf (entrypoints.get "backend_file")
  let required :=
    (textOf (entrypoints.get "backend_command")).any (fun command =>
      ["uvicorn", "hypercorn"].any (Text.contains (Text.lower command))) ||
    (textOf (entrypoints.get "backend_import")).any (fun path =>
      Text.contains (Text.lower path) ":app") ||
    backendFile.any fun file => Text.endswith (forwardSlashes file) "/app/main.py"
  if required then (backendFile.filter (· ≠ "")).map (Text.removePrefix · "workspace/") else none

def providedSymbols (contract : Json) : List Json :=
  match contract.getD "provided_symbols" (.arr []) with
  | .str text => [.str text]
  | .arr items => items
  | _ => []

/-- The names that stand for interfaces and not for symbols. -/
def interfaceIds (contract : Json) : Result (List String) := do
  let ids ← collect (fun key =>
    let value := contract.getD key (.arr [])
    match (if value.truthy then value.iterate? else some []) with
    | some items => .ok (items.filterMap textOf)
    | none => .error (.typeError "object is not iterable")) ["provides_interfaces", "consumes_interfaces"]
  .ok ids.flatten

/-- `value.rsplit(".", 1)[-1].split("(", 1)[0].strip()`. -/
def leaf (value : String) : String :=
  Text.strip (String.ofList ((Text.afterLast '.' value).toList.takeWhile (· ≠ '(')))

def missingSymbols (interfaces : List String) (symbols : List Json) (relative : String)
    (nodes : List PyNode) : List String :=
  let names := nodes.flatMap PyNode.names
  let members := nodes.flatMap PyNode.publicMembers
  (symbols.filterMap textOf).filterMap fun symbol =>
    let value := Text.strip symbol
    if value = "" || value ∈ interfaces || !isSymbol value then none
    else if value ∉ names && leaf value ∉ names && leaf value ∉ members then
      some ("交付文件缺少合同声明符号 " ++ relative ++ ":" ++ value)
    else none

variable (parse : String → Parsed)

/-- The body of the loop of `_validate_delivered_content`. -/
def fileIssues (checkout : Checkout) (contract : Json) (interfaces : List String)
    (relative : String) : Result (List String) :=
  match checkout.readText ("workspace" :: PurePath.parts relative) with
  | .error _ => .ok []
  | .ok content =>
      if Text.blank content then .ok ["交付文件为空: " ++ relative]
      else if Text.endswith relative ".py" then
        match parse content with
        | .valueError message => raise message
        | .syntaxError message => .ok ["交付文件语法错误 " ++ relative ++ ": " ++ message]
        | .tree nodes =>
            .ok ((if applicationFile contract = some relative &&
                "app" ∉ nodes.flatMap PyNode.names then
              ["入口文件缺少必需符号 " ++ relative ++ ":app"] else []) ++
              missingSymbols interfaces (providedSymbols contract) relative nodes)
      else .ok []

/-- `_validate_delivered_content`. -/
def validateDeliveredContent (checkout : Checkout) (item : WorkItemFields)
    (changed : List String) : Result (List String) := do
  let contract := Json.obj (item.deliveryContract.getD [])
  let interfaces ← interfaceIds contract
  let issues ← collect (fileIssues parse checkout contract interfaces) (Text.sorted (dedupe changed))
  .ok issues.flatten

def strictFileContract (item : WorkItemFields) : Bool :=
  item.agentId = "code_agent" && item.implementationUnitId.isSome &&
    item.implementationUnitId ≠ some "project-documents" && !item.compilationStrategy.isStr "semantic"

def exactFileContract (item : WorkItemFields) : Bool :=
  strictFileContract item && item.ownedFiles.length = 1

/-- A change has the file, a match of the pattern, or a file below it. -/
def delivered (item : WorkItemFields) (changed : List String) (expected : String) : Bool :=
  if exactFileContract item then workspaceRelative expected ∈ changed.map workspaceRelative
  else changed.any (delivers expected)

/-- The files of a change that an item of one file does not own. -/
def unexpected (item : WorkItemFields) (changed : List String) : List String :=
  if exactFileContract item then
    Text.sorted (dedupe ((changed.map workspaceRelative).filter fun path =>
      item.ownedFiles.head?.any fun owned => path ≠ workspaceRelative owned))
  else []

/-- `_validate_code_delivery` on a recorded ChangeSet. -/
def deliveryIssues (checkout : Checkout) (item : WorkItemFields) (change : ChangeSet) :
    Result (List String) :=
  if strictFileContract item && item.ownedFiles.length ≠ 1 then
    .ok ["legacy CodeAgent WorkItem 必须且只能声明一个具体 owned_files 文件；当前为 " ++
      DeliveryContractRegistry.reprList item.ownedFiles]
  else do
    let missing := (item.requiredPaths.filter fun path =>
      !delivered item change.changedFiles path).map workspaceRelative
    let unwritten := (item.ownedFiles.filter fun path =>
      !delivered item change.changedFiles path).map fun path => "owned_files 未写入: " ++ path
    let outside := unexpected item change.changedFiles
    let content ← validateDeliveredContent parse checkout item (change.changedFiles.map workspaceRelative)
    .ok (dedupe (missing ++ unwritten ++
      (if outside = [] then [] else ["ChangeSet 越过单文件交付边界: " ++ Text.join ", " outside]) ++
      content))

end CodeDelivery

end ProjectOS.Orchestration
