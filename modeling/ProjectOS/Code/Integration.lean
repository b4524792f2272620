import ProjectOS.Code.Durability
import ProjectOS.Code.Listings
import ProjectOS.Policy.GitIntegration

/-! The integration service: the pending ChangeSets of a trace are merged one
after the other in the integration worktree, judged there and published to the
workspace. The worktree is created once and used again as it was left. -/
namespace ProjectOS.Code
open Base Artifact Orchestration Policy

/-- What `git merge --no-commit --no-ff` makes of two commits. -/
inductive MergeOutcome where
  | upToDate
  | merged (files : Tree)
  | conflict (files : Tree) (unmerged : List String)

/-- What Git answers about the commits there are. -/
structure Git where
  ignored : Tree → String → Bool
  isAncestor : History → Nat → Nat → Bool
  merge : History → Nat → Nat → MergeOutcome
  /-- The changes below `workspace/` from one commit to another. -/
  diff : History → Nat → Nat → List NameStatus
  diff_self : ∀ history commit, diff history commit commit = []

/-- The gates, by what each finds in the files it reads, and the artifact store. -/
structure Gates where
  parse : String → Parsed
  taskCheckout : Option Worktree → Checkout
  validateLocalImports : Tree → List String
  validateContractBindings : Tree → List String
  validateHttpConsumers : Tree → List String
  validateContractEntrypoints : Tree → List ChangeSet → List String
  /-- The files and entry points of the contract that the workspace lacks. -/
  contractFiles : Tree → List String
  ownersForDiagnostics : List String → List String
  saveSummary : Result Unit

structure Review where
  verdict : String
  rationale : String

/-- A call of `integrate` with what it reads of its execution context. -/
structure IntegrationCall where
  traceId : String
  executionMode : ExecutionMode := .integration
  inputRefs : List ArtifactRef
  review : Option Review := none
  publishSummary : Bool := true
  refreshBaseline : Bool := false

/-- `openMerges` holds the unmerged paths of each worktree within a merge;
`implementation` is whether the summary artifact exists. -/
structure Project where
  staging : Staging := {}
  openMerges : Dict (String × String) (List String) := ∅
  implementation : Bool := false

inductive MergeResult where
  | merged (commit : Nat)
  | conflicts (paths : List String)

def findingsText (title : String) (owners issues : List String) : String :=
  title ++ (if owners = [] then "" else " [owner_files: " ++ Text.join ", " owners ++ "]") ++ ": " ++
    Text.join "; " issues

def issueOwner (ruleId : String) : String :=
  if ruleId ∈ ["code.changeset_available", "code.files_required", "code.required_path_missing",
      "code.required_path_not_changed", "code.python_source_invalid"] then "implementation"
  else if ruleId ∈ ["code.scope_boundary", "code.duplicate_path", "code.invalid_source_ref"] then
    "architecture_contract"
  else "integration"

/-- `_format_policy_error`. -/
def formatPolicyError (issues : List QualityIssue) : String :=
  "Policy 'code.git-integration.v1' 拒绝代码合并（责任方: " ++
    Text.join ", " (Text.sorted (dedupe (issues.map fun issue => issueOwner issue.ruleId))) ++ "）: " ++
    Text.join "；" (issues.map fun issue => issue.ruleId ++ ": " ++ issue.summary)

/-- The unmerged paths that a refused merge reports. -/
def reportConflicts (unmerged : List String) : Result MergeResult := do
  let paths ← collect (fun path => validateRelativePath (diffName path)) unmerged
  raiseIf (paths = []) (gitError "You have not concluded your merge (MERGE_HEAD exists).")
  .ok (.conflicts (Text.sorted (dedupe paths)))

/-- The ChangeSets in the order of their merges. -/
def mergeOrder (changes : List ChangeSet) : List ChangeSet :=
  changes.insertionSort (fun a b => a.workItemId ≤ b.workItemId)

namespace Project

abbrev repo (p : Project) : GitRepository := p.staging.repo

/-- The files of the live workspace. -/
abbrev files (p : Project) : Tree := p.repo.files

def withRepo (p : Project) (repo : GitRepository) : Project :=
  { p with staging := { p.staging with repo := repo } }

def worktreeFiles (p : Project) (branch : TaskBranch) : Tree :=
  match p.repo.worktrees.get? branch.worktreePath with
  | some worktree => worktree.files
  | none => ∅

variable (git : Git) (gates : Gates)

/-- The merge of a branch into the head of a worktree. -/
def mergeBranch (p : Project) (path : String × String) (worktree : Worktree) (ours theirs : Nat) :
    Result MergeResult × Project :=
  match git.merge p.repo.commits ours theirs with
  | .upToDate => (.ok (.merged ours), p)
  | .merged files =>
      let repo := { p.repo with
        worktrees := p.repo.worktrees.set path { worktree with files := files } }
      -- with nothing staged no commit is made, and the merge stays open
      if Tree.changed (p.repo.tree ours) files = [] then
        (.ok (.merged ours), { p.withRepo repo with openMerges := p.openMerges.set path [] })
      else
        (.ok (.merged p.repo.commits.length), p.withRepo { repo with
          commits := p.repo.commits ++ [⟨files, [ours, theirs]⟩]
          branches := p.repo.branches.set worktree.branch.text p.repo.commits.length })
  | .conflict files unmerged =>
      let repo := { p.repo with
        worktrees := p.repo.worktrees.set path { worktree with files := files } }
      (reportConflicts unmerged, { p.withRepo repo with openMerges := p.openMerges.set path unmerged })

/-- `merge_task`: Git refuses a merge in a worktree with an unfinished one. -/
def mergeTask (p : Project) (integration : TaskBranch) (change : ChangeSet) :
    Result MergeResult × Project :=
  match p.repo.worktrees.get? integration.worktreePath with
  | none => (.error (gitError "worktree 不存在"), p)
  | some worktree =>
    match p.openMerges.get? integration.worktreePath with
    | some unmerged => (reportConflicts unmerged, p)
    | none =>
      match p.repo.branches.get? worktree.branch.text, p.repo.branches.get? change.branchName with
      | some ours, some theirs => p.mergeBranch git integration.worktreePath worktree ours theirs
      | _, _ => (.error (gitError (change.branchName ++ " - not something we can merge")), p)

/-- The loop over the ChangeSets, with the commit merged last. -/
def mergeAll (integration : TaskBranch) :
    List ChangeSet → Option Nat → Project → Result (Option Nat) × Project
  | [], last, p => (.ok last, p)
  | change :: rest, _, p =>
      match p.mergeTask git integration change with
      | (.error e, p) => (.error e, p)
      | (.ok (.conflicts paths), p) =>
          (.error (.runtimeError ("Git 三方合并存在冲突: " ++ Text.join ", " paths)), p)
      | (.ok (.merged commit), p) => mergeAll integration rest (some commit) p

def checkReview : Option Review → Result Unit
  | none => .ok ()
  | some review => raiseIf (review.verdict ≠ "approve")
      (.runtimeError ("LLM Integration Review 拒绝合并: " ++ review.rationale))

/-- Between the merges and the publication: the gates and the review. -/
def judge (files : Tree) (changes : List ChangeSet) (review : Option Review) : Result Unit := do
  let issues := gates.validateLocalImports files ++ gates.validateContractBindings files ++
    gates.validateHttpConsumers files
  raiseIf (issues ≠ []) (.runtimeError (findingsText
    "Integration 语义检查拒绝合并（责任方: implementation；请依据失败文件 owner 修复）"
    (gates.ownersForDiagnostics issues) issues))
  let issues := gates.validateContractEntrypoints files changes
  raiseIf (issues ≠ []) (.runtimeError (findingsText
    "Integration 入口契约检查拒绝合并（责任方: implementation）" (gates.ownersForDiagnostics issues) issues))
  checkReview review

/-- The summary artifact and the next baseline, after the publication. -/
def conclude (call : IntegrationCall) (changes : List ChangeSet) (message : String) (p : Project) :
    Result String × Project :=
  match if call.publishSummary then gates.saveSummary else .ok () with
  | .error e => (.error e, p)
  | .ok () =>
    let p := { p with implementation := p.implementation || call.publishSummary }
    if call.refreshBaseline then
      match p.staging.refreshBaseline git.ignored call.traceId (changes.map (·.commit)) with
      | (.error e, staging) => (.error e, { p with staging := staging })
      | (.ok _, staging) => (.ok message, { p with staging := staging })
    else (.ok message, p)

/-- `promote_worktree_changes` and what follows. -/
def publish (call : IntegrationCall) (integration : TaskBranch) (baseline mergeCommit : Nat)
    (changes : List ChangeSet) (p : Project) : Result String × Project :=
  match promoteChanges (p.worktreeFiles integration) p.files
      (nameStatusListing (git.diff p.repo.commits baseline mergeCommit)) with
  | (root, .error e) => (.error e, p.withRepo { p.repo with files := root })
  | (root, .ok published) => conclude git gates call changes
      ("Git Policy 通过并发布 " ++ toString published.length ++ " 个文件，merge commit: " ++
        toString mergeCommit ++ "。")
      (p.withRepo { p.repo with files := root })

/-- Everything after the policy has accepted the ChangeSets. -/
def deliver (call : IntegrationCall) (baseline : Nat) (changes : List ChangeSet) (p : Project) :
    Result String × Project :=
  match p.repo.createIntegrationWorktree call.traceId baseline with
  | .error e => (.error e, p)
  | .ok (integration, repo) =>
    match mergeAll git integration (mergeOrder changes) none (p.withRepo repo) with
    | (.error e, p) => (.error e, p)
    | (.ok last, p) =>
      match judge gates (p.worktreeFiles integration) changes call.review with
      | .error e => (.error e, p)
      | .ok () => p.publish git gates call integration baseline (last.getD baseline) changes

/-- The ChangeSets of the inputs, and the inputs without one. -/
def loadOutputs (p : Project) (traceId : String) :
    List ArtifactRef → Result (List (ArtifactRef × ChangeSet) × List ArtifactRef)
  | [] => .ok ([], [])
  | ref :: refs =>
      match p.staging.loadChangeSet traceId (ref.workItemId.getD "") with
      | .error (.fileNotFound _) => do
          let (outputs, missing) ← p.loadOutputs traceId refs
          .ok (outputs, ref :: missing)
      | .error e => .error e
      | .ok change => do
          let (outputs, missing) ← p.loadOutputs traceId refs
          .ok ((ref, change) :: outputs, missing)

def isPending (p : Project) (baseline : Baseline) (change : ChangeSet) : Bool :=
  change.baseCommit = baseline.commit ||
    !(baseline.integratedCommits.contains change.commit ||
      git.isAncestor p.repo.commits change.commit baseline.commit)

/-- `validate_published_workspace`. -/
def validatePublishedWorkspace (p : Project) : Result Unit :=
  let issues := gates.validateLocalImports p.files ++ gates.validateContractBindings p.files ++
    gates.validateHttpConsumers p.files ++ gates.contractFiles p.files
  raiseIf (issues ≠ []) (.runtimeError (findingsText
    "Integration 语义检查拒绝合并（已发布 workspace）" (gates.ownersForDiagnostics issues) (dedupe issues)))

/-- What the policy finds in the pending ChangeSets. -/
def policyIssues (p : Project) (outputs : List (ArtifactRef × ChangeSet))
    (missing : List ArtifactRef) (baseline : Nat) : List QualityIssue :=
  GitCodeIntegrationPolicy.evaluate gates.parse
    (fun change => gates.taskCheckout (p.repo.worktrees.get? change.worktreePath))
    outputs missing (some baseline) (some (git.isAncestor p.repo.commits))

/-- What stands before the merges: the baseline with the ChangeSets to merge, or
none if every ChangeSet is published. -/
def preflight (p : Project) (call : IntegrationCall) : Result (Option (Nat × List ChangeSet)) := do
  raiseIf (call.executionMode ≠ .integration)
    (.permissionError "代码合并只能由 INTEGRATION 节点执行")
  let (outputs, missing) ← p.loadOutputs call.traceId call.inputRefs
  safeComponent call.traceId
  match p.staging.baselines.get? call.traceId with
  | none => .error (.fileNotFound "baseline.json")
  | some baseline =>
      let outputs := outputs.filter fun output => p.isPending git baseline output.2
      if outputs = [] ∧ missing = [] then do
        p.validatePublishedWorkspace gates
        .ok none
      else do
        let issues := p.policyIssues git gates outputs missing baseline.commit
        raiseIf (issues ≠ []) (.runtimeError (formatPolicyError issues))
        .ok (some (baseline.commit, outputs.map (·.2)))

/-- Nothing to merge: the summary is written where there is none. -/
def acceptNoop (p : Project) (call : IntegrationCall) : Result String × Project :=
  let message := "当前输入中的 ChangeSet 已全部在前置 Wave 合并，无需重复发布。"
  if call.publishSummary && !p.implementation then
    match gates.saveSummary with
    | .error e => (.error e, p)
    | .ok () => (.ok message, { p with implementation := true })
  else (.ok message, p)

/-- `integrate`. -/
def integrate (p : Project) (call : IntegrationCall) : Result String × Project :=
  match p.preflight git gates call with
  | .error e => (.error e, p)
  | .ok none => p.acceptNoop gates call
  | .ok (some (baseline, changes)) => p.deliver git gates call baseline changes

section residue

def integrationPath (traceId : String) : String × String := place (traceId, "integration")

def integrationBranch (traceId : String) : String :=
  branchText (taskKey traceId) (taskKey "integration")

/-- The project with the integration worktree of a trace reset to the baseline, if there is one. -/
def renewed (p : Project) (traceId : String) : Project :=
  match p.repo.worktrees.get? (integrationPath traceId), p.staging.baselines.get? traceId with
  | none, _ => { p.withRepo { p.repo with
      branches := p.repo.branches.erase (integrationBranch traceId) } with
      openMerges := p.openMerges.erase (integrationPath traceId) }
  | some worktree, some baseline => { p.withRepo { p.repo with
      branches := p.repo.branches.set (integrationBranch traceId) baseline.commit
      worktrees := p.repo.worktrees.set (integrationPath traceId)
        { worktree with files := p.repo.tree baseline.commit } } with
      openMerges := p.openMerges.erase (integrationPath traceId) }
  | some _, none => p

/-- What happens between two calls: commits, branches and ChangeSets may come, but the workspace,
the baseline and the integration worktree stay. -/
structure Follows (traceId : String) (p next : Project) : Prop where
  commits : p.repo.commits <+: next.repo.commits
  files : next.files = p.files
  baseline : next.staging.baselines.get? traceId = p.staging.baselines.get? traceId
  worktree : next.repo.worktrees.get? (integrationPath traceId) =
    p.repo.worktrees.get? (integrationPath traceId)
  branch : next.repo.branches.get? (integrationBranch traceId) =
    p.repo.branches.get? (integrationBranch traceId)
  openMerge : next.openMerges.get? (integrationPath traceId) =
    p.openMerges.get? (integrationPath traceId)

/-- A call that fails leaves the workspace as it was, and does not decide the next one: what
succeeds with the integration worktree reset to the baseline succeeds. -/
def LeavesNothing (p : Project) (call : IntegrationCall) : Prop :=
  ∀ error p', p.integrate git gates call = (.error error, p') →
    p'.files = p.files ∧
    ∀ next gates' following, Follows call.traceId p' next → following.traceId = call.traceId →
      ((next.renewed call.traceId).integrate git gates' following).1.isOk = true →
      (next.integrate git gates' following).1.isOk = true

/-- From the baseline on, none of the ChangeSets has anything to merge before one without a branch. -/
def idle (p : Project) (baseline : Nat) : List ChangeSet → Bool
  | [] => true
  | change :: rest =>
      match p.repo.branches.get? change.branchName with
      | none => true
      | some theirs =>
          match git.merge p.repo.commits baseline theirs with
          | .upToDate => idle p baseline rest
          | _ => false

/-- The call gets to a merge with something to merge. -/
def startsMerge (p : Project) (call : IntegrationCall) : Bool :=
  match p.preflight git gates call with
  | .ok (some (baseline, changes)) =>
      match p.repo.createIntegrationWorktree call.traceId baseline with
      | .ok (_, repo) => !(p.withRepo repo).idle git baseline (mergeOrder changes)
      | .error _ => false
  | _ => false

/-- No integration worktree, or one that stands at the baseline. -/
structure Clean (traceId : String) (p : Project) : Prop where
  closed : p.openMerges.get? (integrationPath traceId) = none
  recorded : ∀ baseline, p.staging.baselines.get? traceId = some baseline →
    baseline.commit < p.repo.commits.length
  absent : p.repo.worktrees.get? (integrationPath traceId) = none →
    p.repo.branches.get? (integrationBranch traceId) = none
  reset : ∀ worktree, p.repo.worktrees.get? (integrationPath traceId) = some worktree →
    worktree.branch.text = integrationBranch traceId ∧
    ∃ baseline, p.staging.baselines.get? traceId = some baseline ∧
      p.repo.branches.get? (integrationBranch traceId) = some baseline.commit ∧
      worktree.files = p.repo.tree baseline.commit

/-- Calls of a trace that fail or find nothing to merge, without any merge, among other steps. -/
inductive Reaches (traceId : String) (p : Project) : Project → Prop where
  | start : Reaches traceId p p
  | other {q next : Project} : Reaches traceId p q → Follows traceId q next → Reaches traceId p next
  | failed {q next : Project} {call : IntegrationCall} {error : Error} : Reaches traceId p q →
      call.traceId = traceId → q.startsMerge git gates call = false →
      q.integrate git gates call = (.error error, next) → Reaches traceId p next
  | noop {q : Project} {call : IntegrationCall} : Reaches traceId p q → call.traceId = traceId →
      q.preflight git gates call = .ok none → Reaches traceId p (q.integrate git gates call).2

variable {git gates} {traceId : String} {p q next : Project} {call : IntegrationCall}

theorem Follows.refl (traceId : String) (p : Project) : Follows traceId p p :=
  ⟨List.prefix_rfl, rfl, rfl, rfl, rfl, rfl⟩

theorem Clean.follows (h : Clean traceId p) (hnext : Follows traceId p next) : Clean traceId next where
  closed := hnext.openMerge.trans h.closed
  recorded baseline hbaseline := by
    rw [hnext.baseline] at hbaseline
    exact Nat.lt_of_lt_of_le (h.recorded baseline hbaseline) hnext.commits.length_le
  absent hnone := by
    rw [hnext.worktree] at hnone
    rw [hnext.branch]
    exact h.absent hnone
  reset worktree hworktree := by
    rw [hnext.worktree] at hworktree
    obtain ⟨hnamed, baseline, hbaseline, hhead, hfiles⟩ := h.reset worktree hworktree
    refine ⟨hnamed, baseline, hnext.baseline.trans hbaseline, hnext.branch.trans hhead, ?_⟩
    obtain ⟨extra, hextra⟩ := hnext.commits
    rw [hfiles, GitRepository.tree, GitRepository.tree, ← hextra]
    exact (History.tree_append _ _ (h.recorded baseline hbaseline)).symm

/-- Resetting a clean worktree changes nothing. -/
theorem Clean.renewed_eq (h : Clean traceId p) : p.renewed traceId = p := by
  unfold renewed
  split
  · rename_i hnone
    rw [Dict.erase_eq_self (h.absent hnone), Dict.erase_eq_self h.closed]
    rfl
  · rename_i worktree baseline hworktree hbaseline
    obtain ⟨-, found, hfound, hhead, hfiles⟩ := h.reset worktree hworktree
    cases hbaseline.symm.trans hfound
    rw [← hfiles, Dict.set_eq_self hhead, Dict.set_eq_self hworktree, Dict.erase_eq_self h.closed]
    rfl
  · rfl

/-- The integration worktree is there after its creation, and still clean. -/
theorem Clean.create (h : Clean traceId p) (hsafe : safeId traceId = true) {baseline : Baseline}
    (hbaseline : p.staging.baselines.get? traceId = some baseline) {integration : TaskBranch}
    {repo : GitRepository}
    (hcreate : p.repo.createIntegrationWorktree traceId baseline.commit = .ok (integration, repo)) :
    integration.worktreePath = integrationPath traceId ∧ Clean traceId (p.withRepo repo) ∧
      repo.files = p.files ∧ ∃ worktree, repo.worktrees.get? (integrationPath traceId) = some worktree := by
  obtain ⟨rfl, hcreated⟩ := (GitRepository.createWorktree_eq_ok hsafe (by decide)).mp hcreate
  refine ⟨rfl, ?_⟩
  cases hcreated with
  | found worktree _ _ hget => exact ⟨h, rfl, worktree, hget⟩
  | checkedOut ref head htrace hitem hget hbranch =>
    have hnone := h.absent hget
    rw [integrationBranch, ← htrace, ← hitem] at hnone
    cases hnone.symm.trans hbranch
  | branched ref htrace hitem hget hbranch =>
    have htext : ref.text = integrationBranch traceId := by
      rw [RefName.text, htrace, hitem, integrationBranch]
    let created : Worktree := ⟨ref, p.repo.tree baseline.commit⟩
    have hfound : (p.repo.worktrees.set (place (traceId, "integration")) created).get?
        (integrationPath traceId) = some created := by
      rw [Dict.get?_set]
      exact if_pos rfl
    refine ⟨⟨h.closed, h.recorded, ?_, ?_⟩, rfl, created, hfound⟩
    · intro hnone
      cases hfound.symm.trans hnone
    · intro worktree hworktree
      cases hfound.symm.trans hworktree
      refine ⟨htext, baseline, hbaseline, ?_, rfl⟩
      rw [withRepo, Dict.get?_set, if_pos htext.symm]

/-- A call that is admitted has a baseline, and ChangeSets to merge. -/
theorem preflight_eq_some {baseline : Nat} {changes : List ChangeSet}
    (h : p.preflight git gates call = .ok (some (baseline, changes))) :
    safeId call.traceId = true ∧ changes ≠ [] ∧
      ∃ found, p.staging.baselines.get? call.traceId = some found ∧ found.commit = baseline := by
  rw [preflight, raiseIf_bind_eq_ok, bind_eq_ok] at h
  obtain ⟨-, ⟨outputs, missing⟩, -, h⟩ := h
  obtain ⟨_, hsafe, h⟩ := bind_eq_ok.mp h
  refine ⟨Staging.safeComponent_eq_ok.mp hsafe, ?_⟩
  cases hfound : p.staging.baselines.get? call.traceId with
  | none =>
    rw [hfound] at h
    cases h
  | some found =>
    rw [hfound] at h
    dsimp only at h
    split at h
    · simp only [bind_eq_ok, Except.ok.injEq, reduceCtorEq, and_false, exists_false] at h
    · simp only [raiseIf_bind_eq_ok, Except.ok.injEq, Option.some.injEq, Prod.mk.injEq] at h
      obtain ⟨hissues, rfl, rfl⟩ := h
      refine ⟨?_, found, rfl, rfl⟩
      intro hempty
      rw [List.map_eq_nil_iff] at hempty
      rw [hempty] at hissues
      simp [policyIssues, GitCodeIntegrationPolicy.evaluate] at hissues

/-- Without anything to merge the loop leaves the project as it is. -/
theorem mergeAll_idle (h : Clean traceId q) {worktree : Worktree} {baseline : Baseline}
    (hworktree : q.repo.worktrees.get? (integrationPath traceId) = some worktree)
    (hbaseline : q.staging.baselines.get? traceId = some baseline) {integration : TaskBranch}
    (hpath : integration.worktreePath = integrationPath traceId) {changes : List ChangeSet}
    (hidle : q.idle git baseline.commit changes = true) {last : Option Nat}
    (hlast : last.getD baseline.commit = baseline.commit) :
    (mergeAll git integration changes last q).2 = q ∧
      ∀ found, (mergeAll git integration changes last q).1 = .ok found →
        found.getD baseline.commit = baseline.commit := by
  obtain ⟨hnamed, recorded, hrecorded, hhead, -⟩ := h.reset worktree hworktree
  cases hbaseline.symm.trans hrecorded
  induction changes generalizing last with
  | nil =>
    refine ⟨rfl, ?_⟩
    intro found hfound
    cases hfound
    exact hlast
  | cons change rest ih =>
    rw [mergeAll, mergeTask, hpath, hworktree]
    dsimp only
    rw [h.closed, hnamed, hhead]
    rw [idle] at hidle
    cases hbranch : q.repo.branches.get? change.branchName with
    | none => exact ⟨rfl, nofun⟩
    | some theirs =>
      rw [hbranch] at hidle
      dsimp only at hidle ⊢
      rw [mergeBranch]
      split at hidle
      · rename_i hmerge
        rw [hmerge]
        exact ih hidle rfl
      · cases hidle

theorem freeze_follows (p : Project) (traceId : String) {next : Project}
    (hrepo : next.repo = (p.repo.freezeBaseline git.ignored).2)
    (hbaselines : next.staging.baselines = p.staging.baselines)
    (hopen : next.openMerges = p.openMerges) : Follows traceId p next := by
  rcases p.repo.freezeBaseline_cases git.ignored with ⟨head, -, hfrozen⟩ | ⟨entry, hfrozen⟩
  · rw [hfrozen] at hrepo
    constructor <;> simp [files, hrepo, hbaselines, hopen]
  · rw [hfrozen] at hrepo
    constructor <;> simp [files, hrepo, hbaselines, hopen]

/-- An error after the publication leaves what was there. -/
theorem conclude_error {changes : List ChangeSet} {message : String} {error : Error}
    (h : conclude git gates call changes message p = (.error error, next)) (traceId : String) :
    Follows traceId p next := by
  unfold conclude at h
  split at h
  · cases h
    exact .refl traceId p
  · dsimp only at h
    split at h
    · unfold Staging.refreshBaseline at h
      dsimp only at h
      split at h
      · rename_i hrefresh
        split at hrefresh
        · cases hrefresh
          cases h
          exact freeze_follows p traceId rfl rfl rfl
        · cases hrefresh
      · cases h
    · cases h

/-- From the baseline to itself there is nothing to publish. -/
theorem publish_self_error {integration : TaskBranch} {baseline : Nat} {changes : List ChangeSet}
    {error : Error}
    (h : p.publish git gates call integration baseline baseline changes = (.error error, next))
    (traceId : String) : Follows traceId p next := by
  have hnothing : promoteChanges (p.worktreeFiles integration) p.files (nameStatusListing []) =
      (p.files, .ok []) := rfl
  rw [publish, git.diff_self, hnothing] at h
  exact conclude_error h traceId

/-- A delivery that merges nothing and fails leaves the workspace and a clean worktree. -/
theorem deliver_error (h : Clean call.traceId p) (hsafe : safeId call.traceId = true)
    {baseline : Baseline} (hbaseline : p.staging.baselines.get? call.traceId = some baseline)
    {changes : List ChangeSet} {error : Error}
    (hidle : ∀ integration repo,
      p.repo.createIntegrationWorktree call.traceId baseline.commit = .ok (integration, repo) →
      (p.withRepo repo).idle git baseline.commit (mergeOrder changes) = true)
    (hrun : p.deliver git gates call baseline.commit changes = (.error error, next)) :
    next.files = p.files ∧ Clean call.traceId next := by
  unfold deliver at hrun
  split at hrun
  · cases hrun
    exact ⟨rfl, h⟩
  · rename_i integration repo hcreate
    obtain ⟨hpath, hclean, hfiles, worktree, hworktree⟩ := h.create hsafe hbaseline hcreate
    obtain ⟨hsame, hlast⟩ := mergeAll_idle hclean hworktree hbaseline hpath
      (hidle integration repo hcreate) (Option.getD_none : none.getD baseline.commit = _)
    have hleft (left : Project) (hfollows : Follows call.traceId (p.withRepo repo) left) :
        left.files = p.files ∧ Clean call.traceId left :=
      ⟨hfollows.files.trans hfiles, hclean.follows hfollows⟩
    split at hrun
    · rename_i merged hmerged
      rw [hmerged] at hsame
      cases hrun
      exact hleft _ (hsame ▸ .refl _ _)
    · rename_i last merged hmerged
      rw [hmerged] at hsame hlast
      dsimp only at hsame hlast
      split at hrun
      · cases hrun
        exact hleft _ (hsame ▸ .refl _ _)
      · rw [hlast last rfl, hsame] at hrun
        exact hleft _ (publish_self_error hrun call.traceId)

theorem integrate_error (h : Clean call.traceId p) (hquiet : p.startsMerge git gates call = false)
    {error : Error} (hrun : p.integrate git gates call = (.error error, next)) :
    next.files = p.files ∧ Clean call.traceId next := by
  unfold integrate at hrun
  unfold startsMerge at hquiet
  split at hrun
  · cases hrun
    exact ⟨rfl, h⟩
  · unfold acceptNoop at hrun
    dsimp only at hrun
    split at hrun
    · split at hrun
      · cases hrun
        exact ⟨rfl, h⟩
      · cases hrun
    · cases hrun
  · rename_i baseline changes hgo
    obtain ⟨hsafe, -, recorded, hrecorded, rfl⟩ := preflight_eq_some hgo
    rw [hgo] at hquiet
    dsimp only at hquiet
    refine deliver_error h hsafe hrecorded ?_ hrun
    intro integration repo hcreate
    rw [hcreate] at hquiet
    simpa using hquiet

theorem integrate_noop (hgo : p.preflight git gates call = .ok none) (traceId : String) :
    Follows traceId p (p.integrate git gates call).2 := by
  rw [integrate, hgo]
  dsimp only [acceptNoop]
  split
  · split
    · exact .refl traceId p
    · exact ⟨List.prefix_rfl, rfl, rfl, rfl, rfl, rfl⟩
  · exact .refl traceId p

/-- The integration worktree stays clean over every run of such calls. -/
theorem Reaches.clean (h : Reaches git gates traceId p q) (hclean : Clean traceId p) :
    Clean traceId q := by
  induction h with
  | start => exact hclean
  | other _ hfollows ih => exact ih.follows hfollows
  | failed _ htrace hquiet hrun ih =>
    subst htrace
    exact (integrate_error ih hquiet hrun).2
  | noop _ htrace hgo ih => exact ih.follows (integrate_noop hgo traceId)

theorem leavesNothing_of_clean (h : Clean call.traceId p)
    (hquiet : p.startsMerge git gates call = false) : LeavesNothing git gates p call := by
  intro error left hrun
  obtain ⟨hfiles, hclean⟩ := integrate_error h hquiet hrun
  refine ⟨hfiles, ?_⟩
  intro next gates' following hfollows _ hsucceeds
  rwa [(hclean.follows hfollows).renewed_eq] at hsucceeds

/-- While a merge is open, every call that is admitted is refused. -/
theorem open_merge_refuses {unmerged : List String}
    (hopen : p.openMerges.get? (integrationPath call.traceId) = some unmerged) {baseline : Nat}
    {changes : List ChangeSet} (hgo : p.preflight git gates call = .ok (some (baseline, changes))) :
    (p.integrate git gates call).1.isOk = false := by
  obtain ⟨hsafe, hchanges, -⟩ := preflight_eq_some hgo
  rw [integrate, hgo]
  dsimp only [deliver]
  split
  · rfl
  · rename_i integration repo hcreate
    obtain ⟨rfl, -⟩ := (GitRepository.createWorktree_eq_ok hsafe (by decide)).mp hcreate
    have hplace : (branchOf call.traceId "integration" baseline).worktreePath =
        integrationPath call.traceId := rfl
    obtain ⟨first, rest, horder⟩ : ∃ first rest, mergeOrder changes = first :: rest := by
      apply List.exists_cons_of_ne_nil
      intro hnil
      have hlength := List.length_insertionSort
        (fun a b : ChangeSet => a.workItemId ≤ b.workItemId) changes
      rw [← mergeOrder, hnil] at hlength
      exact hchanges (List.eq_nil_of_length_eq_zero hlength.symm)
    rw [horder, mergeAll, mergeTask, hplace]
    have hstill : (p.withRepo repo).openMerges.get? (integrationPath call.traceId) = some unmerged := hopen
    rw [hstill]
    cases (p.withRepo repo).repo.worktrees.get? (integrationPath call.traceId) with
    | none => rfl
    | some worktree =>
      dsimp only
      cases hreport : reportConflicts unmerged with
      | error e => rfl
      | ok result =>
        cases result with
        | conflicts paths => rfl
        | merged commit =>
          simp [reportConflicts, bind_eq_ok] at hreport

/-- In a run from a clean integration worktree in which every call so far failed or found
nothing to merge, a call that starts no merge leaves nothing; a call that leaves a merge
open makes every later call that is admitted fail. -/
theorem failed_integration (hclean : Clean traceId p) (hrun : Reaches git gates traceId p q)
    (htrace : call.traceId = traceId) :
    (q.startsMerge git gates call = false → LeavesNothing git gates q call) ∧
    ∀ unmerged, (q.integrate git gates call).2.openMerges.get? (integrationPath traceId) =
        some unmerged →
      ∀ next gates' following, Follows traceId (q.integrate git gates call).2 next →
        following.traceId = traceId → ∀ plan, next.preflight git gates' following = .ok (some plan) →
        (next.integrate git gates' following).1.isOk = false := by
  subst htrace
  constructor
  · exact leavesNothing_of_clean (hrun.clean hclean)
  · intro unmerged hopen next gates' following hfollows hsame plan hgo
    rw [← hfollows.openMerge, ← hsame] at hopen
    exact open_merge_refuses hopen hgo

end residue

section conflict

/-- The merge of files that are taken as a whole, from a common base. -/
def threeWay (base ours theirs : Tree) : MergeOutcome :=
  let changed := Tree.changed base theirs
  let files := ours.update theirs (changed.filter fun path => ours.get? path = base.get? path)
  let unmerged := changed.filter fun path =>
    ours.get? path ≠ base.get? path && ours.get? path ≠ theirs.get? path
  if unmerged = [] then .merged files else .conflict files unmerged

/-- A history that branches at its first commit only. -/
def fork : Git where
  ignored := fun _ _ => false
  isAncestor := fun _ ancestor descendant => ancestor = descendant || ancestor = 0
  merge := fun history ours theirs =>
    if ours = theirs then .upToDate
    else threeWay (history.tree 0) (history.tree ours) (history.tree theirs)
  diff := fun history a b =>
    (Tree.changed (history.tree a) (history.tree b)).map fun path =>
      if ((history.tree b).get? path).isNone then .deleted path
      else if ((history.tree a).get? path).isNone then .added path
      else .modified path
  diff_self := by
    intro history commit
    have hsame : Tree.changed (history.tree commit) (history.tree commit) = [] := by
      apply List.eq_nil_iff_forall_not_mem.mpr
      intro path hpath
      exact Tree.mem_changed.mp hpath rfl
    rw [hsame, List.map_nil]

def openGates : Gates where
  parse := fun _ => .tree []
  taskCheckout := fun _ => ⟨∅, [], by simp, by simp⟩
  validateLocalImports := fun _ => []
  validateContractBindings := fun _ => []
  validateHttpConsumers := fun _ => []
  validateContractEntrypoints := fun _ _ => []
  contractFiles := fun _ => []
  ownersForDiagnostics := fun _ => []
  saveSummary := .ok ()

def plainTree (files : List (String × String)) : Tree := Dict.ofList files

def taskChange (item : String) (commit : Nat) (path : String) : ChangeSet where
  traceId := "trace-1"
  workItemId := item
  branchName := branchText "trace-1" item
  baseCommit := 0
  commit := commit
  changedFiles := [path]
  worktreePath := ("trace-1", item)

/-- Two tasks that change one file in different ways, and a third with a file of its own. -/
def threeTasks : Project where
  staging := {
    repo := {
      commits := [⟨plainTree [("workspace/a.md", "1")], []⟩, ⟨plainTree [("workspace/a.md", "2")], [0]⟩,
        ⟨plainTree [("workspace/a.md", "3")], [0]⟩,
        ⟨plainTree [("workspace/a.md", "1"), ("workspace/b.md", "1")], [0]⟩]
      branches := Dict.ofList [(branchText "trace-1" "one", 1), (branchText "trace-1" "two", 2),
        (branchText "trace-1" "three", 3)]
      files := plainTree [("workspace/a.md", "1")]
      head := some 0 }
    baselines := Dict.ofList [("trace-1", ⟨0, []⟩)]
    changeSets := Dict.ofList [(("trace-1", "one"), taskChange "one" 1 "workspace/a.md"),
      (("trace-1", "two"), taskChange "two" 2 "workspace/a.md"),
      (("trace-1", "three"), taskChange "three" 3 "workspace/b.md")] }

def taskFields (item : String) : RefFields where
  artifactKey := "implementation"
  layer := "staged"
  traceId := some "trace-1"
  workItemId := some item
  slot := some "docs"

def callOf (item : String) (h : (taskFields item).postInit = .ok ()) : IntegrationCall where
  traceId := "trace-1"
  inputRefs := [⟨taskFields item, h⟩]

def rejectedCall : IntegrationCall :=
  { callOf "one" (by decide) with review := some ⟨"reject", "a.md"⟩ }

def secondCall : IntegrationCall := callOf "two" (by decide)

def thirdCall : IntegrationCall := callOf "three" (by decide)

theorem threeTasks_clean : Clean "trace-1" threeTasks where
  closed := by decide +kernel
  recorded baseline hbaseline := by
    have hfirst : threeTasks.staging.baselines.get? "trace-1" = some ⟨0, []⟩ := rfl
    cases hfirst.symm.trans hbaseline
    decide +kernel
  absent _ := by decide +kernel
  reset worktree hworktree := by cases hworktree

/-- A rejected merge stays in the integration worktree, where the next one conflicts with it. -/
theorem rejected_merge_decides_next :
    ¬ ∀ (git : Git) (gates : Gates) (p : Project) (call : IntegrationCall),
      Clean call.traceId p → LeavesNothing git gates p call := by
  intro h
  have hrejected : (threeTasks.integrate fork openGates rejectedCall).1 =
      .error (.runtimeError "LLM Integration Review 拒绝合并: a.md") := by decide +kernel
  obtain ⟨-, hnext⟩ :=
    h fork openGates threeTasks rejectedCall threeTasks_clean _ _ (Prod.ext hrejected rfl)
  have hrefused := hnext _ openGates secondCall (.refl _ _) rfl (by decide +kernel)
  exact absurd hrefused (by decide +kernel)

/-- From then on a task with a file of its own is refused as well. -/
example :
    let rejected := (threeTasks.integrate fork openGates rejectedCall).2
    let conflicting := (rejected.integrate fork openGates secondCall).2
    (conflicting.integrate fork openGates thirdCall).1 =
      .error (.runtimeError "Git 三方合并存在冲突: workspace/a.md") := by decide +kernel

/-- A publication that fails at a quoted name has already changed the workspace. -/
example :
    let named := threeTasks.withRepo { threeTasks.repo with
      commits := threeTasks.repo.commits.set 1
        ⟨plainTree [("workspace/a.md", "2"), ("workspace/中.md", "1")], [0]⟩ }
    let published := named.integrate fork openGates (callOf "one" (by decide))
    published.1.isOk = false ∧ published.2.files.get? "workspace/a.md" = some "2" := by decide +kernel

def exclusiveCall : IntegrationCall := { secondCall with executionMode := .exclusive }

/-- Calls that are refused before any merge leave nothing, also one after the other. -/
theorem refused_leaves_nothing : LeavesNothing fork openGates
    (threeTasks.integrate fork openGates exclusiveCall).2 exclusiveCall :=
  have hrefused : threeTasks.integrate fork openGates exclusiveCall =
      (.error (.permissionError "代码合并只能由 INTEGRATION 节点执行"), threeTasks) := rfl
  (failed_integration threeTasks_clean
    (.failed .start rfl (by decide +kernel) (Prod.ext (congrArg Prod.fst hrefused) rfl))
    (show exclusiveCall.traceId = "trace-1" from rfl)).1 (by decide +kernel)

end conflict

end Project
end ProjectOS.Code

