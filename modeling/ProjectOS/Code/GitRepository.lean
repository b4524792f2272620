import ProjectOS.Base.GitObjects
import ProjectOS.Base.Glob
import ProjectOS.Error

/-! The controlled Git repository of a project: task branches with their
worktrees, the frozen baseline and the commits of a task. Which untracked files
Git ignores is left to a parameter. -/
namespace ProjectOS.Code
open Base

/-- What Git accepts as `projectos/<trace>/<item>` in safe characters. -/
def validRef (traceName itemName : String) : Bool :=
  [traceName, itemName].all (fun name =>
    name.toList.all Text.isSafeChar && !Text.contains name ".." && !Text.endswith name ".lock") &&
    !Text.endswith itemName "."

/-- A branch below `projectos/` that Git lets exist. -/
structure RefName where
  trace : String
  item : String
  valid : validRef trace item = true

def branchText (traceName itemName : String) : String :=
  "projectos/" ++ traceName ++ "/" ++ itemName

def RefName.text (ref : RefName) : String := branchText ref.trace ref.item

structure TaskBranch where
  traceId : String
  workItemId : String
  branchName : String
  baseCommit : Nat
  worktreePath : String × String
deriving DecidableEq

structure ChangeSet where
  traceId : String
  workItemId : String
  branchName : String
  baseCommit : Nat
  commit : Nat
  changedFiles : List String
  worktreePath : String × String
  requiredPaths : List String := []
deriving DecidableEq

structure Worktree where
  branch : RefName
  files : Tree

/-- The disk: `files` and `head` are those of the project folder, `worktrees`
is keyed by the two directories below the worktrees root. -/
structure GitRepository where
  commits : History := []
  branches : Dict String Nat := ∅
  worktrees : Dict (String × String) Worktree := ∅
  files : Tree := ∅
  head : Option Nat := none

def gitError (message : String) : Error := .runtimeError message

/-- `_safe_ref_part`. -/
def safeRefPart (value : String) : Result String :=
  let cleaned := Text.stripBy (fun c => c = '.' || c = '-') (Text.collapse Text.isSafeChar '-' value)
  if cleaned = "" then .error (gitError "Git 分支标识不能为空")
  else .ok (String.ofList (cleaned.toList.take 80))

/-- A file `git add` takes up: a tracked one, or one that is not ignored. -/
def visible (ignored : Tree → String → Bool) (head files : Tree) (path : String) : Bool :=
  (head.get? path).isSome || !ignored files path

/-- `_validate_owned_paths` on one path. -/
def owns (pattern path : String) : Bool :=
  Glob.fnmatch path pattern ||
    Text.startswith path (Text.rstripBy (· = '/') pattern ++ "/")

namespace GitRepository
variable (ignored : Tree → String → Bool) (repo : GitRepository)

def tree (commit : Nat) : Tree := repo.commits.tree commit

def headTree : Tree :=
  match repo.head with
  | some head => repo.tree head
  | none => ∅

/-- `freeze_baseline(("workspace",))`. -/
def freezeBaseline : Nat × GitRepository :=
  let staged := (Tree.changed repo.headTree repo.files).filter fun path =>
    Text.startswith path "workspace/" && visible ignored repo.headTree repo.files path
  let committed : Nat × GitRepository :=
    (repo.commits.length, { repo with
      commits := repo.commits ++ [⟨repo.headTree.update repo.files staged, repo.head.toList⟩]
      head := some repo.commits.length })
  match repo.head with
  | some head => if staged = [] then (head, repo) else committed
  | none => committed

/-- `_create_worktree`. -/
def createWorktree (traceId workItemId : String) (baseCommit : Nat) :
    Result (TaskBranch × GitRepository) := do
  let safeTrace ← safeRefPart traceId
  let safeItem ← safeRefPart workItemId
  let directory := (safeTrace, safeItem)
  let branch : TaskBranch := {
    traceId := traceId
    workItemId := workItemId
    branchName := branchText safeTrace safeItem
    baseCommit := baseCommit
    worktreePath := directory }
  match repo.worktrees.get? directory with
  | some worktree =>
      if worktree.branch.text = branch.branchName then .ok (branch, repo)
      else .error (gitError "受控 worktree 已存在但分支不匹配")
  | none =>
      if h : validRef safeTrace safeItem = true then
        let ref : RefName := ⟨safeTrace, safeItem, h⟩
        match repo.branches.get? branch.branchName with
        | some head =>
            .ok (branch, { repo with
              worktrees := repo.worktrees.set directory ⟨ref, repo.tree head⟩ })
        | none =>
            .ok (branch, { repo with
              branches := repo.branches.set branch.branchName baseCommit
              worktrees := repo.worktrees.set directory ⟨ref, repo.tree baseCommit⟩ })
      else .error (gitError "Git 命令失败: git worktree add")

def createTaskWorktree (traceId workItemId : String) (baseCommit : Nat) :
    Result (TaskBranch × GitRepository) :=
  repo.createWorktree traceId workItemId baseCommit

def createIntegrationWorktree (traceId : String) (baseCommit : Nat) :
    Result (TaskBranch × GitRepository) :=
  repo.createWorktree traceId "integration" baseCommit

/-- `_changed_files`, before their names are quoted. -/
def changedFiles (head files : Tree) : List String :=
  (Tree.changed head files).filter (visible ignored head files)

/-- `commit_task` for one owned pattern. -/
def commitTask (branch : TaskBranch) (ownedPath : String) : Result (ChangeSet × GitRepository) := do
  let some worktree := repo.worktrees.get? branch.worktreePath
    | .error (gitError "worktree 不存在")
  let some head := repo.branches.get? worktree.branch.text
    | .error (gitError "Git 命令失败: git rev-parse HEAD")
  let changed := changedFiles ignored (repo.tree head) worktree.files
  raiseIf (changed = []) (gitError ("任务 " ++ Text.quote branch.workItemId ++ " 没有产生文件变更"))
  raiseIf (!changed.all fun path => owns ownedPath (statusName path))
    (gitError "任务变更越过 owned_paths")
  -- a name in quotation marks matches no file
  raiseIf (changed.any fun path => statusName path ≠ path) (gitError "Git 命令失败: git add")
  let commit := repo.commits.length
  let files := (repo.tree head).update worktree.files changed
  .ok ({
      traceId := branch.traceId
      workItemId := branch.workItemId
      branchName := branch.branchName
      baseCommit := branch.baseCommit
      commit := commit
      changedFiles := Text.sorted ((Tree.changed (repo.tree branch.baseCommit) files).map diffName)
      worktreePath := branch.worktreePath },
    { repo with
      commits := repo.commits ++ [⟨files, [head]⟩]
      branches := repo.branches.set worktree.branch.text commit })

/-- The files a commit of the task branch holds. -/
def committedFiles (worktree : Worktree) (head : Nat) : Tree :=
  (repo.tree head).update worktree.files (changedFiles ignored (repo.tree head) worktree.files)

variable {ignored repo}

theorem tree_append (repo : GitRepository) (extra : History) {commit : Nat}
    (h : commit < repo.commits.length) :
    tree { repo with commits := repo.commits ++ extra } commit = repo.tree commit :=
  History.tree_append repo.commits extra h

/-- A commit of a task: what it found, and that it ends the branch of the worktree. -/
structure TaskCommit (ignored : Tree → String → Bool) (repo : GitRepository) (branch : TaskBranch)
    (change : ChangeSet) (next : GitRepository) where
  worktree : Worktree
  head : Nat
  found : repo.worktrees.get? branch.worktreePath = some worktree
  headFound : repo.branches.get? worktree.branch.text = some head
  change_eq : change = {
    traceId := branch.traceId
    workItemId := branch.workItemId
    branchName := branch.branchName
    baseCommit := branch.baseCommit
    commit := repo.commits.length
    changedFiles := Text.sorted ((Tree.changed (repo.tree branch.baseCommit)
      (repo.committedFiles ignored worktree head)).map diffName)
    worktreePath := branch.worktreePath }
  next_eq : next = { repo with
    commits := repo.commits ++ [⟨repo.committedFiles ignored worktree head, [head]⟩]
    branches := repo.branches.set worktree.branch.text repo.commits.length }

theorem TaskCommit.tree_eq {branch : TaskBranch} {change : ChangeSet} {next : GitRepository}
    (h : TaskCommit ignored repo branch change next) :
    next.tree change.commit = repo.committedFiles ignored h.worktree h.head := by
  obtain ⟨worktree, head, hfound, hhead, rfl, rfl⟩ := h
  exact History.tree_snoc _ _

theorem TaskCommit.commit_lt {branch : TaskBranch} {change : ChangeSet} {next : GitRepository}
    (h : TaskCommit ignored repo branch change next) : change.commit < next.commits.length := by
  obtain ⟨worktree, head, hfound, hhead, rfl, rfl⟩ := h
  simp

theorem TaskCommit.found_next {branch : TaskBranch} {change : ChangeSet} {next : GitRepository}
    (h : TaskCommit ignored repo branch change next) :
    next.worktrees.get? change.worktreePath = some h.worktree := by
  obtain ⟨worktree, head, hfound, hhead, rfl, rfl⟩ := h
  exact hfound

theorem taskCommit_of_commitTask {branch : TaskBranch} {ownedPath : String} {change : ChangeSet}
    {next : GitRepository} (h : repo.commitTask ignored branch ownedPath = .ok (change, next)) :
    Nonempty (TaskCommit ignored repo branch change next) := by
  unfold commitTask at h
  split at h
  · rename_i worktree hworktree
    split at h
    · rename_i head hhead
      simp only [raiseIf_bind_eq_ok, Except.ok.injEq, Prod.mk.injEq] at h
      exact ⟨⟨worktree, head, hworktree, hhead, h.2.2.2.1.symm, h.2.2.2.2.symm⟩⟩
    · cases h
  · cases h

/-- A commit of a task holds each file of the worktree that Git takes up. -/
theorem get?_committedFiles {worktree : Worktree} {head : Nat} {path : String}
    (h : visible ignored (repo.tree head) worktree.files path = true) :
    (repo.committedFiles ignored worktree head).get? path = worktree.files.get? path := by
  rw [committedFiles, Tree.get?_update]
  split
  · rfl
  · rename_i hmem
    simp only [changedFiles, List.mem_filter, h, and_true, Tree.mem_changed, not_not] at hmem
    exact hmem

/-- A file of the worktree is in the commit exactly when Git takes it up. -/
theorem get?_committedFiles_eq_some_iff {worktree : Worktree} {head : Nat} {path text : String}
    (h : worktree.files.get? path = some text) :
    (repo.committedFiles ignored worktree head).get? path = some text ↔
      visible ignored (repo.tree head) worktree.files path = true := by
  constructor
  · intro hcommitted
    by_contra hvisible
    rw [Bool.not_eq_true] at hvisible
    have hmem : path ∉ changedFiles ignored (repo.tree head) worktree.files := by
      simp [changedFiles, hvisible]
    rw [committedFiles, Tree.get?_update, if_neg hmem] at hcommitted
    simp [visible, hcommitted] at hvisible
  · intro hvisible
    rw [get?_committedFiles hvisible, h]

/-- Every file of a commit is one of the worktree or one of its parent. -/
theorem get?_committedFiles_cases (worktree : Worktree) (head : Nat) (path : String) :
    (repo.committedFiles ignored worktree head).get? path = worktree.files.get? path ∨
      (repo.committedFiles ignored worktree head).get? path = (repo.tree head).get? path := by
  rw [committedFiles, Tree.get?_update]
  split
  · exact .inl rfl
  · exact .inr rfl

/-- Freezing finds the workspace as the head has it, or commits it. -/
theorem freezeBaseline_cases (ignored : Tree → String → Bool) (repo : GitRepository) :
    (∃ head, repo.head = some head ∧ repo.freezeBaseline ignored = (head, repo)) ∨
      ∃ entry, repo.freezeBaseline ignored = (repo.commits.length, { repo with
        commits := repo.commits ++ [entry]
        head := some repo.commits.length }) := by
  unfold freezeBaseline
  dsimp only
  split
  · rename_i head hhead
    split
    · exact .inl ⟨head, hhead, rfl⟩
    · exact .inr ⟨_, rfl⟩
  · exact .inr ⟨_, rfl⟩

theorem freezeBaseline_commits (ignored : Tree → String → Bool) (repo : GitRepository) :
    repo.commits <+: (repo.freezeBaseline ignored).2.commits := by
  rcases repo.freezeBaseline_cases ignored with ⟨head, -, h⟩ | ⟨entry, h⟩
  · rw [h]
  · rw [h]
    exact List.prefix_append _ _

@[simp] theorem freezeBaseline_worktrees (ignored : Tree → String → Bool) (repo : GitRepository) :
    (repo.freezeBaseline ignored).2.worktrees = repo.worktrees := by
  rcases repo.freezeBaseline_cases ignored with ⟨head, -, h⟩ | ⟨entry, h⟩
  · rw [h]
  · rw [h]

theorem freezeBaseline_tree (ignored : Tree → String → Bool) (repo : GitRepository) {commit : Nat}
    (hc : commit < repo.commits.length) :
    (repo.freezeBaseline ignored).2.tree commit = repo.tree commit := by
  rcases repo.freezeBaseline_cases ignored with ⟨head, -, h⟩ | ⟨entry, h⟩
  · rw [h]
  · rw [h]
    exact History.tree_append _ _ hc

end GitRepository
end ProjectOS.Code
