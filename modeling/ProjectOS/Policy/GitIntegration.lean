import ProjectOS.Artifact.Ref
import ProjectOS.Code.Checkout
import ProjectOS.Code.GitRepository
import ProjectOS.Orchestration.PathPattern

/-! The integration policy: what the ChangeSets of a wave must hold before they are merged. -/
namespace ProjectOS.Policy
open Base Artifact Code Orchestration

structure QualityIssue where
  ruleId : String
  summary : String
  evidenceRefs : List String := []
deriving DecidableEq

namespace GitCodeIntegrationPolicy

/-- `"workspace/..."` below the workspace, as the policy cuts it. -/
def relativeTo (path : String) : String := Text.removePrefix path "workspace/"

/-- `any(token in normalized for token in "*?[")`. -/
def hasWildcard (pattern : String) : Bool := pattern.toList.any Glob.isSpecial

def requiredMatches (checkout : Checkout) (required : String) : List (List String) :=
  if hasWildcard required then checkout.glob ["workspace"] required
  else [("workspace" :: PurePath.parts required)]

def isDirectoryForm (required : String) : Bool :=
  Text.endswith required "/" || Text.endswith required "/**" || Text.endswith required "/*"

def requiredIsDirectory (checkout : Checkout) (required : String) : Bool :=
  isDirectoryForm required || (requiredMatches checkout required).any checkout.isDir

/-- Something of the kind that is required is on the disk. -/
def present (checkout : Checkout) (required : String) : Bool :=
  if requiredIsDirectory checkout required then (requiredMatches checkout required).any checkout.isDir
  else (requiredMatches checkout required).any checkout.isFile

/-- A changed file is the required directory, or lies below it. -/
def folderChanged (files : List String) (required : String) : Bool :=
  files.any fun candidate =>
    candidate = Text.rstripBy (· = '*') (stripTrailingSlashes required) ||
      Text.startswith candidate (stripTrailingSlashes
        (Text.removeSuffix (Text.removeSuffix required "**") "*") ++ "/")

def fileChanged (files : List String) (required : String) : Bool :=
  files.any fun candidate => globMatches candidate required

def changed (checkout : Checkout) (files : List String) (required : String) : Bool :=
  if requiredIsDirectory checkout required then folderChanged files required
  else fileChanged files required

def requiredIssues (checkout : Checkout) (ref : ArtifactRef) (change : ChangeSet)
    (path : String) : List QualityIssue :=
  let required := workspaceRelative path
  if !present checkout required then
    [⟨"code.required_path_missing",
      "分区 " ++ ref.slot.getD "None" ++ " 缺少合同要求文件: " ++ required,
      [ref.refId, toString change.commit]⟩]
  else if !changed checkout (change.changedFiles.map relativeTo) required then
    [⟨"code.required_path_not_changed", "合同要求文件未包含在本次 ChangeSet: " ++ required,
      [ref.refId, toString change.commit]⟩]
  else []

def partition (slot : Option String) : String :=
  match slot with
  | some "backend" => "workspace/backend/"
  | some "frontend" => "workspace/frontend/"
  | _ => "workspace/"

variable (parse : String → Parsed)

/-- What is wrong with a Python source. -/
def sourceError (checkout : Checkout) (path : String) : Option String :=
  match checkout.readText (PurePath.parts path) with
  | .error message => some message
  | .ok content =>
      match parse content with
      | .syntaxError message => some message
      | .valueError message => some message
      | .tree _ => if Text.blank content then some "文件为空" else none

def fileIssues (checkout : Checkout) (ref : ArtifactRef) (change : ChangeSet) (seen : Bool)
    (path : String) : List QualityIssue :=
  (if Text.startswith path (partition ref.slot) then []
    else [⟨"code.scope_boundary",
      "文件 " ++ path ++ " 越过 " ++ ref.slot.getD "None" ++ " 分区边界。", [toString change.commit]⟩]) ++
  (if seen then [⟨"code.duplicate_path", "多个代码分区声明了同一个文件: " ++ path ++ "。",
    [toString change.commit]⟩] else []) ++
  if Text.endswith path ".py" then
    ((sourceError parse checkout path).map fun error =>
      ⟨"code.python_source_invalid", "Python 文件无法通过基础检查: " ++ path ++ " (" ++ error ++ ")",
        [toString change.commit]⟩).toList
  else []

/-- The loop over the files of a change, with the files seen so far. -/
def filesIssues (checkout : Checkout) (ref : ArtifactRef) (change : ChangeSet) :
    List String → List String → List QualityIssue
  | _, [] => []
  | seen, path :: rest =>
      fileIssues parse checkout ref change (path ∈ seen) path ++
        filesIssues checkout ref change (path :: seen) rest

/-- The text of the error of the entry point check. -/
def entrypointError (checkout : Checkout) : Option String :=
  match checkout.readText ["workspace", "backend", "app", "main.py"] with
  | .error message => some message
  | .ok content =>
      match parse content with
      | .syntaxError message => some message
      | .valueError message => some message
      | .tree nodes =>
          if nodes.all fun
              | .assign (some target :: _) => target ≠ "app"
              | .annAssign (some target) => target ≠ "app"
              | _ => true then some "未发现名为 app 的模块级应用对象"
          else if nodes.all fun
              | .call (some function) => function ≠ "FastAPI"
              | _ => true then some "未发现 FastAPI() 应用构造"
          else none

def entrypointIssues (checkout : Checkout) (ref : ArtifactRef) (change : ChangeSet) :
    List QualityIssue :=
  if ref.slot = some "backend" &&
      change.changedFiles.any (Text.endswith · "backend/app/main.py") then
    ((entrypointError parse checkout).map fun error =>
      ⟨"code.fastapi_entrypoint_invalid",
        "backend/app/main.py 不是可识别的 FastAPI 入口: " ++ error, [toString change.commit]⟩).toList
  else []

/-- The body of the loop over the outputs. -/
def outputIssues (checkout : Checkout) (seen : List String) (ref : ArtifactRef)
    (change : ChangeSet) : List QualityIssue :=
  if ref.layer ≠ "staged" || ref.artifactKey ≠ "implementation" then
    [⟨"code.invalid_source_ref", "Git 代码集成只能使用 implementation 暂存引用。", [ref.refId]⟩]
  else
    (if change.changedFiles = [] then
      [⟨"code.files_required", "分区 " ++ ref.slot.getD "None" ++ " 的 ChangeSet 没有文件变更。",
        [toString change.commit]⟩] else []) ++
    change.requiredPaths.flatMap (requiredIssues checkout ref change) ++
    filesIssues parse checkout ref change seen change.changedFiles ++
    entrypointIssues parse checkout ref change

def outputsIssues (disk : ChangeSet → Checkout) :
    List String → List (ArtifactRef × ChangeSet) → List QualityIssue
  | _, [] => []
  | seen, (ref, change) :: rest =>
      outputIssues parse (disk change) seen ref change ++
        outputsIssues disk (if ref.layer ≠ "staged" || ref.artifactKey ≠ "implementation" then seen
          else change.changedFiles ++ seen) rest

/-- `evaluate`, its report as a list of issues. -/
def evaluate (disk : ChangeSet → Checkout) (outputs : List (ArtifactRef × ChangeSet))
    (missingRefs : List ArtifactRef := []) (commonBaseline : Option Nat := none)
    (isAncestor : Option (Nat → Nat → Bool) := none) : List QualityIssue :=
  let baselines := dedupe (outputs.map fun output => output.2.baseCommit)
  let compatible := baselines.length ≤ 1 ||
    (match commonBaseline, isAncestor with
    | some baseline, some isAncestor => baselines.all (isAncestor · baseline)
    | _, _ => false)
  (if outputs = [] then [⟨"code.changesets_required", "代码集成至少需要一个 Git ChangeSet。", []⟩]
    else []) ++
  (missingRefs.map fun ref => ⟨"code.changeset_available",
    "分区 " ++ ref.slot.getD "None" ++ " 没有可用的 Git ChangeSet。", [ref.refId]⟩) ++
  (if compatible then [] else [⟨"code.common_baseline_required",
    "所有代码分区必须从同一个 baseline 创建。", outputs.map fun output => toString output.2.commit⟩]) ++
  outputsIssues parse disk [] outputs

end GitCodeIntegrationPolicy

end ProjectOS.Policy
