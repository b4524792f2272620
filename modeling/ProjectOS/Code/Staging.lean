import ProjectOS.Artifact.Ref
import ProjectOS.Base.PurePath
import ProjectOS.Code.GitRepository
import ProjectOS.Orchestration.ExecutionMode
import ProjectOS.Orchestration.PathPattern

/-! The staging service: a code work item writes files into its own worktree,
and each write that changes something becomes a commit recorded as its
ChangeSet. A write may break off between any two of its effects. -/
namespace ProjectOS.Code
open Base Orchestration

/-- What a write reads of its execution context. -/
structure CodeContext where
  traceId : String
  workItemId : String
  executionMode : ExecutionMode := .partitioned
  slot : Option String := none
  allowedPaths : List String := []
  forbiddenPaths : List String := []
  requiredPaths : List String := []
  implementationUnitId : Option String := none
  ownedFiles : List String := []

structure Baseline where
  commit : Nat
  integratedCommits : List Nat := []

/-- The repository with the records below `.projectos/runs`. -/
structure Staging where
  repo : GitRepository := {}
  baselines : Dict String Baseline := ∅
  changeSets : Dict (String × String) ChangeSet := ∅

/-- Where a write breaks off, by an error or by a crash. -/
inductive Stop where
  | baselineFrozen
  | baselineRecorded
  | worktreeCreated
  | fileWritten
  | committed
deriving DecidableEq, Repr

def interrupted : Error := .runtimeError "interrupted"

def scopePrefix (slot : String) : String :=
  if slot = "backend" then "backend/" else if slot = "frontend" then "frontend/" else ""

def allowedSuffixes : List String := [
  ".css", ".html", ".js", ".jsx", ".json", ".md", ".py", ".toml", ".ts", ".tsx", ".txt", ".yaml",
  ".yml"]

def allowedFilenames : List String := ["Dockerfile", "Makefile", "Procfile", "justfile"]

def stagedSuffixes : List String := allowedSuffixes ++ [
  ".ini", ".sh", ".ps1", ".command", ".cmd", ".bat", ".sql", ".graphql", ".proto", ".cfg", ".conf"]

def stagedFilenames : List String :=
  allowedFilenames ++ [".env.example", "requirements.in", "requirements.txt", "LICENSE"]

/-- `_validate_path`. -/
def validatePath (path : String) : Result String := do
  raiseIf (path = "" || PurePath.isAbsolute path || (PurePath.parts path).contains "..")
    (.permissionError "代码文件路径必须是 workspace 内的相对路径")
  raiseIf (!stagedFilenames.contains (PurePath.name path) &&
      !stagedSuffixes.contains (Text.lower (PurePath.suffixOf (PurePath.name path))))
    (.permissionError "不允许写入该代码文件类型")
  .ok (PurePath.posix path)

/-- `_matches_any`. -/
def matchesAny (path : String) (patterns : List String) : Bool :=
  patterns.any fun pattern => patternMatches pattern path

namespace CodeContext
variable (context : CodeContext)

def key : String × String := (context.traceId, context.workItemId)

def scope : String := scopePrefix (context.slot.getD "")

def unit : String := Text.orElse context.implementationUnitId context.workItemId

/-- The path below `workspace/` that a write goes to. -/
def stagedPath (path : String) : Result String := do
  raiseIf (context.executionMode ≠ .partitioned)
    (.permissionError "只有代码分区节点可以写入 Git task worktree")
  let normalized ← validatePath path
  let candidate := context.scope ++ normalized
  let outside := context.scope ≠ "" && !Text.startswith normalized context.scope
  -- inside its worktree an agent may name a file without the partition
  raiseIf (outside && !(context.allowedPaths ≠ [] && matchesAny candidate context.allowedPaths))
    (.permissionError ("代码分区 " ++ Text.quote (context.slot.getD "") ++ " 只能写入 " ++
      context.scope ++ " 下的文件"))
  let normalized := if outside then candidate else normalized
  raiseIf (context.allowedPaths ≠ [] && !matchesAny normalized context.allowedPaths)
    (.permissionError ("实现单元 " ++ Text.quote context.unit ++ " 不能写入未授权路径: " ++ normalized))
  raiseIf (context.forbiddenPaths ≠ [] && matchesAny normalized context.forbiddenPaths)
    (.permissionError ("路径命中实现单元禁止范围: " ++ normalized))
  raiseIf (context.ownedFiles ≠ [] && !matchesAny normalized context.ownedFiles)
    (.permissionError ("实现单元 " ++ Text.quote context.unit ++
      " 只能写入自己拥有的完整文件: " ++ normalized))
  .ok normalized

def ownedPattern : String :=
  if context.scope = "" then "workspace/**" else "workspace/" ++ context.scope ++ "**"

end CodeContext

/-- A path that cannot be a file: a file stands where it needs a folder, or a
folder where it would stand. -/
def blocked (files : Tree) (path : String) : Bool :=
  files.keys.any fun other =>
    Text.startswith path (other ++ "/") || Text.startswith other (path ++ "/")

def safeComponent (value : String) : Result Unit :=
  raiseWhen (!Artifact.safeId value) ("标识不是安全的 ProjectOS 组件: " ++ value)

def branchFor (change : ChangeSet) : TaskBranch := {
  traceId := change.traceId
  workItemId := change.workItemId
  branchName := change.branchName
  baseCommit := change.baseCommit
  worktreePath := change.worktreePath }

namespace Staging
variable (ignored : Tree → String → Bool) (s : Staging)

/-- `_ensure_baseline`. -/
def ensureBaseline (traceId : String) (stop : Option Stop) : Result Nat × Staging :=
  match safeComponent traceId with
  | .error e => (.error e, s)
  | .ok () =>
    match s.baselines.get? traceId with
    | some baseline => (.ok baseline.commit, s)
    | none =>
      let frozen := s.repo.freezeBaseline ignored
      if stop = some .baselineFrozen then (.error interrupted, { s with repo := frozen.2 })
      else (.ok frozen.1, { s with
        repo := frozen.2
        baselines := s.baselines.set traceId ⟨frozen.1, []⟩ })

/-- The branch of the recorded ChangeSet, or that of a new task. -/
def taskBranch (context : CodeContext) (baseline : Nat) : Result (TaskBranch × GitRepository) := do
  safeComponent context.workItemId
  match s.changeSets.get? context.key with
  | some previous => .ok (branchFor previous, s.repo)
  | none => s.repo.createTaskWorktree context.traceId context.workItemId baseline

/-- The baseline and the worktree a write needs. -/
def prepare (context : CodeContext) (stop : Option Stop) : Result TaskBranch × Staging :=
  match s.ensureBaseline ignored context.traceId stop with
  | (.error e, s) => (.error e, s)
  | (.ok baseline, s) =>
    if stop = some .baselineRecorded then (.error interrupted, s)
    else
      match s.taskBranch context baseline with
      | .error e => (.error e, s)
      | .ok (branch, repo) =>
        if stop = some .worktreeCreated then (.error interrupted, { s with repo := repo })
        else (.ok branch, { s with repo := repo })

/-- `target.write_text(content)`. -/
def writeText (branch : TaskBranch) (worktree : Worktree) (target content : String) : Staging :=
  { s with repo := { s.repo with
      worktrees := s.repo.worktrees.set branch.worktreePath
        { worktree with files := worktree.files.set target content } } }

/-- `commit_task` and the record of its ChangeSet. -/
def commitChange (context : CodeContext) (branch : TaskBranch) (normalized : String)
    (stop : Option Stop) : Result String × Staging :=
  match s.repo.commitTask ignored branch context.ownedPattern with
  | .error e => (.error e, s)
  | .ok (change, repo) =>
    if stop = some .committed then (.error interrupted, { s with repo := repo })
    else
      (.ok ("已提交代码 ChangeSet: " ++ toString change.commit ++ " (" ++ normalized ++ ")"),
        { s with
          repo := repo
          changeSets := s.changeSets.set (change.traceId, change.workItemId)
            { change with requiredPaths := context.requiredPaths } })

/-- The write into the worktree of the branch, unless the file reads as the content. -/
def writeInto (context : CodeContext) (branch : TaskBranch) (normalized content : String)
    (stop : Option Stop) : Result String × Staging :=
  let target := "workspace/" ++ normalized
  match s.repo.worktrees.get? branch.worktreePath with
  | none => (.error (gitError "worktree 不存在"), s)
  | some worktree =>
    if blocked worktree.files target then (.error (.fileExists target), s)
    else if (worktree.files.get? target).any (Text.readText · = content) then
      (.ok ("代码文件未变化，保留 ChangeSet " ++
        (match s.changeSets.get? context.key with
        | some previous => toString previous.commit
        | none => branch.branchName)), s)
    else
      let s := s.writeText branch worktree target content
      if stop = some .fileWritten then (.error interrupted, s)
      else s.commitChange ignored context branch normalized stop

def writeStagedFile (context : CodeContext) (path content : String) (stop : Option Stop) :
    Result String × Staging :=
  match context.stagedPath path with
  | .error e => (.error e, s)
  | .ok normalized =>
    if Text.blank content then (.error (.valueError "代码文件内容不能为空"), s)
    else
      match s.prepare ignored context stop with
      | (.error e, s) => (.error e, s)
      | (.ok branch, s) => s.writeInto ignored context branch normalized content stop

def loadChangeSet (traceId workItemId : String) : Result ChangeSet := do
  safeComponent traceId
  safeComponent workItemId
  match s.changeSets.get? (traceId, workItemId) with
  | some change => .ok change
  | none => .error (.fileNotFound ("代码 WorkItem " ++ Text.quote workItemId ++
      " 没有可用的 Git ChangeSet"))

/-- `refresh_baseline`. -/
def refreshBaseline (traceId : String) (integrated : List Nat) : Result Nat × Staging :=
  let frozen := s.repo.freezeBaseline ignored
  match safeComponent traceId with
  | .error e => (.error e, { s with repo := frozen.2 })
  | .ok () =>
    let previous := match s.baselines.get? traceId with
      | some baseline => baseline.integratedCommits
      | none => []
    (.ok frozen.1, { s with
      repo := frozen.2
      baselines := s.baselines.set traceId ⟨frozen.1, dedupe (previous ++ integrated)⟩ })

end Staging
end ProjectOS.Code
