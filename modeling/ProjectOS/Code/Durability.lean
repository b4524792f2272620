import ProjectOS.Code.Staging
import ProjectOS.Code.TaskNames

/-! A staged write that returns is in the ChangeSet, unless the working file
already reads as the content while the ChangeSet does not hold it, or Git does
not take the file up. -/
namespace ProjectOS.Code
open Base

structure Call where
  context : CodeContext
  path : String
  content : String
  stop : Option Stop := none

namespace Staging
variable (ignored : Tree → String → Bool)

def after (s : Staging) (call : Call) : Staging :=
  (s.writeStagedFile ignored call.context call.path call.content call.stop).2

def Returns (s : Staging) (call : Call) : Prop :=
  ∃ message, (s.writeStagedFile ignored call.context call.path call.content call.stop).1 =
    .ok message

/-- The ChangeSet recorded for the work item holds the content at the path. -/
def Holds (s : Staging) (context : CodeContext) (target content : String) : Prop :=
  ∃ change, s.changeSets.get? context.key = some change ∧
    (s.repo.tree change.commit).get? target = some content

/-- What the caller of a write may rely on. -/
def Durable (s : Staging) (call : Call) : Prop :=
  ∃ normalized change, call.context.stagedPath call.path = .ok normalized ∧
    s.loadChangeSet call.context.traceId call.context.workItemId = .ok change ∧
      (s.repo.tree change.commit).get? ("workspace/" ++ normalized) = some call.content

/-- The text the recorded ChangeSet has for a call. -/
def heldText (s : Staging) (call : Call) : Option String :=
  match call.context.stagedPath call.path,
      s.loadChangeSet call.context.traceId call.context.workItemId with
  | .ok normalized, .ok change => (s.repo.tree change.commit).get? ("workspace/" ++ normalized)
  | _, _ => none

theorem durable_iff_heldText {s : Staging} {call : Call} :
    s.Durable call ↔ s.heldText call = some call.content := by
  unfold Durable heldText
  split
  · rename_i normalized change hpath hload
    simp [hpath, hload]
  · rename_i hnot
    simp only [reduceCtorEq, iff_false]
    rintro ⟨normalized, change, hpath, hload, -⟩
    exact hnot normalized change hpath hload

def reads (worktree : Worktree) (target content : String) : Bool :=
  (worktree.files.get? target).any (Text.readText · = content)

/-- Git takes up the file once it is written: its branch tracks it, or no rule ignores it. -/
def TakenUp (s : Staging) (worktree : Worktree) (target content : String) : Prop :=
  ∀ head, s.repo.branches.get? worktree.branch.text = some head →
    visible ignored (s.repo.tree head) (worktree.files.set target content) target = true

/-- With its baseline and its worktree in place, a write that finds the content
in its working file also finds it in the ChangeSet, and any other write is of a
file that Git takes up. -/
def Fits (s : Staging) (call : Call) : Prop :=
  ∀ normalized branch worktree, call.context.stagedPath call.path = .ok normalized →
    (s.prepare ignored call.context call.stop).1 = .ok branch →
      let ready := (s.prepare ignored call.context call.stop).2
      let target := "workspace/" ++ normalized
      ready.repo.worktrees.get? branch.worktreePath = some worktree →
        if reads worktree target call.content then ready.Holds call.context target call.content
        else ready.TakenUp ignored worktree target call.content

/-- Each ChangeSet carries the identifiers it is recorded under. -/
def Labelled (s : Staging) : Prop :=
  ∀ key change, s.changeSets.get? key = some change → (change.traceId, change.workItemId) = key

variable {ignored} {s : Staging}

theorem ensureBaseline_changeSets (traceId : String) (stop : Option Stop) :
    (s.ensureBaseline ignored traceId stop).2.changeSets = s.changeSets := by
  unfold ensureBaseline
  split
  · rfl
  · split
    · rfl
    · dsimp only
      split <;> rfl

theorem safeComponent_eq_ok {value : String} {u : Unit} :
    safeComponent value = .ok u ↔ Artifact.safeId value = true := by
  simp [safeComponent]

theorem ensureBaseline_safe {traceId : String} {stop : Option Stop} {commit : Nat} {next : Staging}
    (h : s.ensureBaseline ignored traceId stop = (.ok commit, next)) :
    safeComponent traceId = .ok () := by
  unfold ensureBaseline at h
  split at h
  · cases h
  · assumption

/-- What `prepare` leaves to the write: the same records, and a branch of the work item. -/
theorem prepare_ok {context : CodeContext} {stop : Option Stop} {branch : TaskBranch}
    {ready : Staging} (h : s.prepare ignored context stop = (.ok branch, ready))
    (hlabelled : s.Labelled) :
    ready.changeSets = s.changeSets ∧ safeComponent context.traceId = .ok () ∧
      safeComponent context.workItemId = .ok () ∧
      (branch.traceId, branch.workItemId) = context.key := by
  unfold prepare at h
  split at h
  · cases h
  · rename_i commit s' heq
    have hsame := @ensureBaseline_changeSets ignored s context.traceId stop
    rw [heq] at hsame
    split at h
    · cases h
    · split at h
      · cases h
      · rename_i branch' repo hbranch
        split at h
        · cases h
        · cases h
          obtain ⟨hitem, hfound⟩ := check_bind_eq_ok.mp hbranch
          have htrace := ensureBaseline_safe heq
          refine ⟨hsame, htrace, hitem, ?_⟩
          split at hfound
          · rename_i change hchange
            cases hfound
            rw [hsame] at hchange
            exact hlabelled _ _ hchange
          · have hcreated := (GitRepository.createWorktree_eq_ok (safeComponent_eq_ok.mp htrace)
              (safeComponent_eq_ok.mp hitem)).mp hfound
            rw [hcreated.1]
            rfl

theorem writeInto_ok {context : CodeContext} {branch : TaskBranch} {normalized content : String}
    {stop : Option Stop} {message : String} {next : Staging}
    (h : s.writeInto ignored context branch normalized content stop = (.ok message, next)) :
    ∃ worktree, s.repo.worktrees.get? branch.worktreePath = some worktree ∧
      ((reads worktree ("workspace/" ++ normalized) content = true ∧ next = s) ∨
        (reads worktree ("workspace/" ++ normalized) content = false ∧
          (s.writeText branch worktree ("workspace/" ++ normalized) content).commitChange ignored
            context branch normalized stop = (.ok message, next))) := by
  unfold writeInto at h
  dsimp only at h
  split at h
  · cases h
  · rename_i worktree hget
    refine ⟨worktree, hget, ?_⟩
    split at h
    · cases h
    · split at h
      · rename_i hreads
        cases h
        exact .inl ⟨hreads, rfl⟩
      · rename_i hreads
        split at h
        · cases h
        · exact .inr ⟨Bool.eq_false_iff.mpr hreads, h⟩

theorem writeStagedFile_ok {context : CodeContext} {path content : String} {stop : Option Stop}
    {message : String} {next : Staging}
    (h : s.writeStagedFile ignored context path content stop = (.ok message, next)) :
    ∃ normalized branch ready, context.stagedPath path = .ok normalized ∧
      s.prepare ignored context stop = (.ok branch, ready) ∧
        ready.writeInto ignored context branch normalized content stop = (.ok message, next) := by
  unfold writeStagedFile at h
  split at h
  · cases h
  · rename_i normalized hpath
    split at h
    · cases h
    · split at h
      · cases h
      · rename_i branch ready hprepare
        exact ⟨normalized, branch, ready, hpath, hprepare, h⟩

/-- A commit that returns records the ChangeSet of its branch, with the content
exactly when Git takes up the file. -/
theorem commitChange_ok {context : CodeContext} {branch : TaskBranch} {worktree : Worktree}
    {normalized target content : String} {stop : Option Stop} {message : String} {next : Staging}
    (hids : (branch.traceId, branch.workItemId) = context.key)
    (h : (s.writeText branch worktree target content).commitChange ignored context branch normalized
      stop = (.ok message, next)) :
    next.Holds context target content ↔ s.TakenUp ignored worktree target content := by
  unfold commitChange at h
  split at h
  · cases h
  · rename_i change repo hcommit
    split at h
    · cases h
    · cases h
      obtain ⟨committed⟩ := GitRepository.taskCommit_of_commitTask hcommit
      have hkey : (change.traceId, change.workItemId) = context.key := by
        rw [committed.change_eq, ← hids]
      have hfound := committed.found
      have hwritten : committed.worktree =
          { worktree with files := worktree.files.set target content } := by
        simp only [writeText, Dict.get?_set, if_true, Option.some.injEq] at hfound
        exact hfound.symm
      have hhead := committed.headFound
      rw [hwritten] at hhead
      have hhead' : s.repo.branches.get? worktree.branch.text = some committed.head := hhead
      have htaken : s.TakenUp ignored worktree target content ↔
          visible ignored (s.repo.tree committed.head) (worktree.files.set target content) target =
            true := by
        unfold TakenUp
        rw [hhead']
        simp
      have htext : committed.worktree.files.get? target = some content := by
        simp [hwritten, Dict.get?_set]
      have hcommitted := @GitRepository.get?_committedFiles_eq_some_iff ignored
        (s.writeText branch worktree target content).repo _ committed.head _ _ htext
      rw [← committed.tree_eq] at hcommitted
      rw [htaken]
      unfold Holds
      rw [hkey]
      simp only [Dict.get?_set, if_true, Option.some.injEq, exists_eq_left']
      rw [hcommitted, hwritten]
      rfl

/-- A call that returns is durable exactly when it fits the state it was made in. -/
theorem returns_durable_iff {call : Call} (hlabelled : s.Labelled) (h : s.Returns ignored call) :
    (s.after ignored call).Durable call ↔ s.Fits ignored call := by
  obtain ⟨message, hok⟩ := h
  obtain ⟨normalized, branch, ready, hpath, hprepare, hwrite⟩ := writeStagedFile_ok
    (show s.writeStagedFile ignored call.context call.path call.content call.stop =
      (.ok message, s.after ignored call) from Prod.ext hok rfl)
  obtain ⟨hsame, htrace, hitem, hids⟩ := prepare_ok hprepare hlabelled
  obtain ⟨worktree, hget, hcases⟩ := writeInto_ok hwrite
  have hdurable : (s.after ignored call).Durable call ↔
      (s.after ignored call).Holds call.context ("workspace/" ++ normalized) call.content := by
    have hload (change : ChangeSet) :
        (s.after ignored call).loadChangeSet call.context.traceId call.context.workItemId =
          .ok change ↔ (s.after ignored call).changeSets.get? call.context.key = some change := by
      unfold loadChangeSet
      rw [htrace, hitem, ok_bind, ok_bind, ← CodeContext.key]
      split
      · rename_i found hfound
        simp [hfound]
      · rename_i hnone
        simp [hnone]
    unfold Durable Holds
    simp only [hpath, hload]
    constructor
    · rintro ⟨normalized', change, hn, hfound, htext⟩
      cases hn
      exact ⟨change, hfound, htext⟩
    · rintro ⟨change, hfound, htext⟩
      exact ⟨normalized, change, rfl, hfound, htext⟩
  have hfits : s.Fits ignored call ↔
      if reads worktree ("workspace/" ++ normalized) call.content then
        ready.Holds call.context ("workspace/" ++ normalized) call.content
      else ready.TakenUp ignored worktree ("workspace/" ++ normalized) call.content := by
    unfold Fits
    rw [hpath, hprepare]
    constructor
    · exact fun hf => hf normalized branch worktree rfl rfl hget
    · intro hf normalized' branch' worktree' hn hb
      cases hn
      cases hb
      intro ready' target' hget'
      rw [hget] at hget'
      cases hget'
      exact hf
  rw [hdurable, hfits]
  rcases hcases with ⟨hreads, hnext⟩ | ⟨hreads, hcommit⟩
  · rw [if_pos hreads, hnext]
  · rw [if_neg (by simp [hreads])]
    exact commitChange_ok hids hcommit

/-! What a call leaves as it was. -/

theorem ensureBaseline_commits (traceId : String) (stop : Option Stop) :
    s.repo.commits <+: (s.ensureBaseline ignored traceId stop).2.repo.commits := by
  unfold ensureBaseline
  split
  · exact List.prefix_rfl
  · split
    · exact List.prefix_rfl
    · dsimp only
      split <;> exact s.repo.freezeBaseline_commits ignored

theorem taskBranch_commits {context : CodeContext} {baseline : Nat} {branch : TaskBranch}
    {repo : GitRepository} (htrace : Artifact.safeId context.traceId = true)
    (h : s.taskBranch context baseline = .ok (branch, repo)) : repo.commits = s.repo.commits := by
  obtain ⟨hitem, hfound⟩ := check_bind_eq_ok.mp h
  split at hfound
  · cases hfound
    rfl
  · exact ((GitRepository.createWorktree_eq_ok htrace (safeComponent_eq_ok.mp hitem)).mp
      hfound).2.commits

theorem prepare_frame (context : CodeContext) (stop : Option Stop) :
    (s.prepare ignored context stop).2.changeSets = s.changeSets ∧
      s.repo.commits <+: (s.prepare ignored context stop).2.repo.commits := by
  have hsame := @ensureBaseline_changeSets ignored s context.traceId stop
  have hgrown := @ensureBaseline_commits ignored s context.traceId stop
  unfold prepare
  split
  · rename_i e s' heq
    rw [heq] at hsame hgrown
    exact ⟨hsame, hgrown⟩
  · rename_i commit s' heq
    rw [heq] at hsame hgrown
    have htrace := safeComponent_eq_ok.mp (ensureBaseline_safe heq)
    split
    · exact ⟨hsame, hgrown⟩
    · split
      · exact ⟨hsame, hgrown⟩
      · rename_i branch repo hbranch
        have hcommits := taskBranch_commits htrace hbranch
        split
        · exact ⟨hsame, hcommits ▸ hgrown⟩
        · exact ⟨hsame, hcommits ▸ hgrown⟩

theorem commitChange_frame (context : CodeContext) (branch : TaskBranch) (normalized : String)
    (stop : Option Stop) :
    s.repo.commits <+: (s.commitChange ignored context branch normalized stop).2.repo.commits ∧
      ((s.commitChange ignored context branch normalized stop).2.changeSets = s.changeSets ∨
        (∃ message, (s.commitChange ignored context branch normalized stop).1 = .ok message) ∧
          ∃ change, (s.commitChange ignored context branch normalized stop).2.changeSets =
            s.changeSets.set (change.traceId, change.workItemId) change) := by
  unfold commitChange
  split
  · exact ⟨List.prefix_rfl, .inl rfl⟩
  · rename_i change repo hcommit
    obtain ⟨committed⟩ := GitRepository.taskCommit_of_commitTask hcommit
    have hgrown : s.repo.commits <+: repo.commits := by
      rw [committed.next_eq]
      exact List.prefix_append _ _
    split
    · exact ⟨hgrown, .inl rfl⟩
    · exact ⟨hgrown, .inr ⟨⟨_, rfl⟩, { change with requiredPaths := context.requiredPaths }, rfl⟩⟩

theorem writeInto_frame (context : CodeContext) (branch : TaskBranch) (normalized content : String)
    (stop : Option Stop) :
    s.repo.commits <+: (s.writeInto ignored context branch normalized content stop).2.repo.commits ∧
      ((s.writeInto ignored context branch normalized content stop).2.changeSets = s.changeSets ∨
        (∃ message, (s.writeInto ignored context branch normalized content stop).1 = .ok message) ∧
          ∃ change, (s.writeInto ignored context branch normalized content stop).2.changeSets =
            s.changeSets.set (change.traceId, change.workItemId) change) := by
  unfold writeInto
  dsimp only
  split
  · exact ⟨List.prefix_rfl, .inl rfl⟩
  · rename_i worktree hget
    split
    · exact ⟨List.prefix_rfl, .inl rfl⟩
    · split
      · exact ⟨List.prefix_rfl, .inl rfl⟩
      · split
        · exact ⟨List.prefix_rfl, .inl rfl⟩
        · exact commitChange_frame (s := s.writeText branch worktree _ content) context branch
            normalized stop

/-- A call only adds commits, and records a ChangeSet only when it returns. -/
theorem after_frame (call : Call) :
    s.repo.commits <+: (s.after ignored call).repo.commits ∧
      ((s.after ignored call).changeSets = s.changeSets ∨
        s.Returns ignored call ∧ ∃ change, (s.after ignored call).changeSets =
          s.changeSets.set (change.traceId, change.workItemId) change) := by
  obtain ⟨hsame, hgrown⟩ := @prepare_frame ignored s call.context call.stop
  unfold after Returns writeStagedFile
  split
  · exact ⟨List.prefix_rfl, .inl rfl⟩
  · rename_i normalized hpath
    split
    · exact ⟨List.prefix_rfl, .inl rfl⟩
    · split
      · rename_i e s' heq
        rw [heq] at hsame hgrown
        exact ⟨hgrown, .inl hsame⟩
      · rename_i branch s' heq
        rw [heq] at hsame hgrown
        obtain ⟨hmore, hchanges⟩ := @writeInto_frame ignored s' call.context
          branch normalized call.content call.stop
        rw [hsame] at hchanges
        exact ⟨hgrown.trans hmore, hchanges⟩

theorem Labelled.after (h : s.Labelled) (call : Call) : (s.after ignored call).Labelled := by
  intro key change hget
  rcases (@after_frame ignored s call).2 with hsame | ⟨-, recorded, hset⟩
  · exact h key change (hsame ▸ hget)
  · rw [hset, Dict.get?_set] at hget
    split at hget
    · rename_i hkey
      cases hget
      exact hkey.symm
    · exact h key change hget

/-! Runs of calls. -/

/-- The states in which the calls of a run are made. -/
def visits (ignored : Tree → String → Bool) : List Call → Staging → List (Staging × Call)
  | [], _ => []
  | call :: calls, s => (s, call) :: visits ignored calls (s.after ignored call)

theorem labelled_of_mem_visits {calls : List Call} (h : s.Labelled) {visit : Staging × Call}
    (hmem : visit ∈ visits ignored calls s) : visit.1.Labelled := by
  induction calls generalizing s with
  | nil => cases hmem
  | cons call calls ih =>
    rcases List.mem_cons.mp hmem with rfl | hrest
    · exact h
    · exact ih (h.after call) hrest

/-! Runs in which the working files of a work item agree with its ChangeSet. -/

/-- The worktree of the recorded ChangeSet has the files of its commit. -/
def Agrees (s : Staging) (key : String × String) : Prop :=
  ∀ change, s.changeSets.get? key = some change →
    change.commit < s.repo.commits.length ∧
      ∃ worktree, s.repo.worktrees.get? change.worktreePath = some worktree ∧
        ∀ path, (s.repo.tree change.commit).get? path = worktree.files.get? path

/-- A call that does not break off after its file write, and that finds its
content in the working file only when a ChangeSet is recorded and the file is
the content, not just read as it. -/
structure Calm (ignored : Tree → String → Bool) (s : Staging) (call : Call) : Prop where
  whole : ¬s.Returns ignored call → ∀ directory worktree,
    s.repo.worktrees.get? directory = some worktree →
      (s.after ignored call).repo.worktrees.get? directory = some worktree
  read : ∀ normalized branch worktree, call.context.stagedPath call.path = .ok normalized →
    (s.prepare ignored call.context call.stop).1 = .ok branch →
      (s.prepare ignored call.context call.stop).2.repo.worktrees.get? branch.worktreePath =
        some worktree →
          reads worktree ("workspace/" ++ normalized) call.content = true →
            (s.changeSets.get? call.context.key).isSome ∧
              worktree.files.get? ("workspace/" ++ normalized) = some call.content

theorem tree_of_grown {repo next : GitRepository} (h : repo.commits <+: next.commits)
    {commit : Nat} (hc : commit < repo.commits.length) : next.tree commit = repo.tree commit := by
  obtain ⟨extra, hextra⟩ := h
  rw [GitRepository.tree, ← hextra]
  exact History.tree_append _ _ hc

theorem ensureBaseline_worktrees (traceId : String) (stop : Option Stop) :
    (s.ensureBaseline ignored traceId stop).2.repo.worktrees = s.repo.worktrees := by
  unfold ensureBaseline
  split
  · rfl
  · split
    · rfl
    · dsimp only
      split <;> exact GitRepository.freezeBaseline_worktrees ignored s.repo

/-- With a recorded ChangeSet a write goes on in its worktree. -/
theorem prepare_recorded {context : CodeContext} {stop : Option Stop} {branch : TaskBranch}
    {ready : Staging} {change : ChangeSet} (hchange : s.changeSets.get? context.key = some change)
    (h : s.prepare ignored context stop = (.ok branch, ready)) :
    branch = branchFor change ∧ ready.repo.worktrees = s.repo.worktrees := by
  have hsame := @ensureBaseline_changeSets ignored s context.traceId stop
  have hworktrees := @ensureBaseline_worktrees ignored s context.traceId stop
  unfold prepare at h
  split at h
  · cases h
  · rename_i commit s' heq
    rw [heq] at hsame hworktrees
    split at h
    · cases h
    · split at h
      · cases h
      · rename_i branch' repo hbranch
        split at h
        · cases h
        · cases h
          obtain ⟨-, hfound⟩ := check_bind_eq_ok.mp hbranch
          rw [hsame, hchange] at hfound
          cases hfound
          exact ⟨rfl, hworktrees⟩

theorem agrees_prepare {context : CodeContext} {stop : Option Stop} {branch : TaskBranch}
    {ready : Staging} (h : s.Agrees context.key)
    (hprepare : s.prepare ignored context stop = (.ok branch, ready)) :
    ready.Agrees context.key := by
  intro change hchange
  have hframe := @prepare_frame ignored s context stop
  rw [hprepare] at hframe
  rw [hframe.1] at hchange
  obtain ⟨hlt, worktree, hget, hsame⟩ := h change hchange
  refine ⟨hlt.trans_le hframe.2.length_le, worktree, ?_, ?_⟩
  · rw [(prepare_recorded hchange hprepare).2]
    exact hget
  · rw [tree_of_grown hframe.2 hlt]
    exact hsame

/-- Where the working files agree with the ChangeSet, a calm call fits. -/
theorem fits_of_agrees (hnone : ∀ files path, ignored files path = false) {call : Call}
    (h : s.Agrees call.context.key) (hcalm : s.Calm ignored call) : s.Fits ignored call := by
  intro normalized branch worktree hpath hbranch
  dsimp only
  intro hget
  have hprepare : s.prepare ignored call.context call.stop =
      (.ok branch, (s.prepare ignored call.context call.stop).2) := Prod.ext hbranch rfl
  split
  · rename_i hreads
    obtain ⟨hsome, htext⟩ := hcalm.read normalized branch worktree hpath hbranch hget hreads
    obtain ⟨change, hchange⟩ := Option.isSome_iff_exists.mp hsome
    have hready := (@prepare_frame ignored s call.context call.stop).1
    refine ⟨change, by rw [hready, hchange], ?_⟩
    obtain ⟨-, found, hfound, hsame⟩ := agrees_prepare h hprepare change (by rw [hready, hchange])
    rw [(prepare_recorded hchange hprepare).1] at hget
    rw [show (branchFor change).worktreePath = change.worktreePath from rfl, hfound] at hget
    cases hget
    rw [hsame, htext]
  · intro head hhead
    simp [visible, hnone]

/-- The commit of a call leaves a ChangeSet that agrees with the worktree. -/
theorem agrees_commitChange (hnone : ∀ files path, ignored files path = false)
    {context : CodeContext} {branch : TaskBranch} {normalized : String} {stop : Option Stop}
    {message : String} {next : Staging} (hids : (branch.traceId, branch.workItemId) = context.key)
    (h : s.commitChange ignored context branch normalized stop = (.ok message, next)) :
    next.Agrees context.key := by
  unfold commitChange at h
  split at h
  · cases h
  · rename_i change repo hcommit
    split at h
    · cases h
    · cases h
      obtain ⟨committed⟩ := GitRepository.taskCommit_of_commitTask hcommit
      have hkey : (change.traceId, change.workItemId) = context.key := by
        rw [committed.change_eq, ← hids]
      intro found hfound
      rw [hkey] at hfound
      simp only [Dict.get?_set, if_true, Option.some.injEq] at hfound
      subst hfound
      have htree := committed.tree_eq
      refine ⟨committed.commit_lt, committed.worktree, committed.found_next, fun path => ?_⟩
      rw [htree]
      exact GitRepository.get?_committedFiles (by simp [visible, hnone])

theorem agrees_after (hnone : ∀ files path, ignored files path = false) {call : Call}
    (hlabelled : s.Labelled) (h : s.Agrees call.context.key) (hcalm : s.Calm ignored call) :
    (s.after ignored call).Agrees call.context.key := by
  by_cases hreturns : s.Returns ignored call
  · obtain ⟨message, hok⟩ := hreturns
    obtain ⟨normalized, branch, ready, hpath, hprepare, hwrite⟩ := writeStagedFile_ok
      (show s.writeStagedFile ignored call.context call.path call.content call.stop =
        (.ok message, s.after ignored call) from Prod.ext hok rfl)
    obtain ⟨worktree, hget, ⟨-, hnext⟩ | ⟨-, hcommit⟩⟩ := writeInto_ok hwrite
    · rw [hnext]
      exact agrees_prepare h hprepare
    · exact agrees_commitChange hnone (prepare_ok hprepare hlabelled).2.2.2 hcommit
  · obtain ⟨hgrown, hsame | ⟨hret, -⟩⟩ := @after_frame ignored s call
    · intro change hchange
      rw [hsame] at hchange
      obtain ⟨hlt, worktree, hget, hfiles⟩ := h change hchange
      refine ⟨hlt.trans_le hgrown.length_le, worktree, hcalm.whole hreturns _ _ hget, ?_⟩
      rw [tree_of_grown hgrown hlt]
      exact hfiles
    · exact absurd hret hreturns

theorem agrees_of_mem_visits (hnone : ∀ files path, ignored files path = false)
    {key : String × String} {calls : List Call} (hlabelled : s.Labelled) (h : s.Agrees key)
    (hkey : ∀ call ∈ calls, call.context.key = key)
    (hcalm : ∀ visit ∈ visits ignored calls s, visit.1.Calm ignored visit.2)
    {visit : Staging × Call} (hmem : visit ∈ visits ignored calls s) :
    visit.1.Agrees visit.2.context.key := by
  induction calls generalizing s with
  | nil => cases hmem
  | cons call calls ih =>
    have hcall := hkey call List.mem_cons_self
    rcases List.mem_cons.mp hmem with rfl | hrest
    · rw [hcall]
      exact h
    · apply ih (hlabelled.after call) _ (fun c hc => hkey c (List.mem_cons_of_mem _ hc))
        (fun v hv => hcalm v (List.mem_cons_of_mem _ hv)) hrest
      have hafter := agrees_after hnone hlabelled (hcall ▸ h) (hcalm (s, call) List.mem_cons_self)
      exact hcall ▸ hafter

/-- The calls of a run that return are durable exactly when each fits the state
it was made in. They do in every run of one work item whose calls are calm,
from a state in which its worktree agrees with its ChangeSet. -/
theorem staged_writes_durable (ignored : Tree → String → Bool) :
    (∀ calls s, s.Labelled →
      ((∀ visit ∈ visits ignored calls s, visit.1.Returns ignored visit.2 →
          (visit.1.after ignored visit.2).Durable visit.2) ↔
        ∀ visit ∈ visits ignored calls s, visit.1.Returns ignored visit.2 →
          visit.1.Fits ignored visit.2)) ∧
    ((∀ files path, ignored files path = false) → ∀ key calls s, s.Labelled → s.Agrees key →
      (∀ call ∈ calls, call.context.key = key) →
        (∀ visit ∈ visits ignored calls s, visit.1.Calm ignored visit.2) →
          ∀ visit ∈ visits ignored calls s, visit.1.Returns ignored visit.2 →
            (visit.1.after ignored visit.2).Durable visit.2) := by
  constructor
  · intro calls s hlabelled
    apply forall₂_congr
    intro visit hmem
    apply imp_congr_right
    exact returns_durable_iff (labelled_of_mem_visits hlabelled hmem)
  · intro hnone key calls s hlabelled hagrees hkey hcalm visit hmem hreturns
    apply (returns_durable_iff (labelled_of_mem_visits hlabelled hmem) hreturns).mpr
    apply fits_of_agrees hnone _ (hcalm visit hmem)
    exact agrees_of_mem_visits hnone hlabelled hagrees hkey hcalm hmem

def apiContext : CodeContext :=
  { traceId := "trace-1", workItemId := "api", slot := some "root" }

def apiCall : Call := { context := apiContext, path := "a.py", content := "A = 1" }

def brokenCall : Call := { apiCall with stop := some .fileWritten }

def carriageCall : Call := { apiCall with content := "A = 1\r\nB = 2" }

def newlineCall : Call := { apiCall with content := "A = 1\nB = 2" }

/-- A project whose workspace already holds the file. -/
def holdingProject : Staging :=
  { repo := { files := Dict.ofList [("workspace/a.py", "A = 1")] } }

theorem apiCall_durable : (Staging.after (fun _ _ => false) {} apiCall).Durable apiCall := by
  have hreturns : Returns (fun _ _ => false) {} apiCall := exists_of_isOk (by decide +kernel)
  have hpath : apiCall.context.stagedPath apiCall.path = .ok "a.py" := by decide +kernel
  have hbranch : (Staging.prepare (fun _ _ => false) {} apiCall.context apiCall.stop).1 =
      .ok (branchOf "trace-1" "api" 0) := by decide +kernel
  have hempty : ((Staging.prepare (fun _ _ => false) {} apiCall.context
      apiCall.stop).2.repo.worktrees.get? (place ("trace-1", "api"))).all
        (fun worktree => !reads worktree "workspace/a.py" apiCall.content) = true := by
    decide +kernel
  have hcalm : Calm (fun _ _ => false) {} apiCall := by
    refine ⟨fun h => absurd hreturns h, ?_⟩
    intro normalized branch worktree hn hb hget hreads
    rw [hpath] at hn
    rw [hbranch] at hb
    cases hn
    cases hb
    rw [show (branchOf "trace-1" "api" 0).worktreePath = place ("trace-1", "api") from rfl] at hget
    rw [hget] at hempty
    have hread : reads worktree "workspace/a.py" apiCall.content = true := hreads
    simp [hread] at hempty
  apply (staged_writes_durable fun _ _ => false).2 (fun _ _ => rfl) ("trace-1", "api") [apiCall] {}
    nofun nofun (by simp [apiCall, apiContext, CodeContext.key]) _ ({}, apiCall)
    List.mem_cons_self hreturns
  intro visit hmem
  rw [List.mem_singleton.mp hmem]
  exact hcalm

/-- A write repeated after it broke off, a write of what the baseline holds, and
a write that differs from the committed file in its line ends alone: each returns
without having the content in a ChangeSet. -/
theorem repeated_write_is_not_durable :
    (¬∀ visit ∈ visits (fun _ _ => false) [brokenCall, apiCall] {},
      visit.1.Returns (fun _ _ => false) visit.2 →
        (visit.1.after (fun _ _ => false) visit.2).Durable visit.2) ∧
    (¬∀ visit ∈ visits (fun _ _ => false) [apiCall] holdingProject,
      visit.1.Returns (fun _ _ => false) visit.2 →
        (visit.1.after (fun _ _ => false) visit.2).Durable visit.2) ∧
    ¬∀ visit ∈ visits (fun _ _ => false) [carriageCall, newlineCall] {},
      visit.1.Returns (fun _ _ => false) visit.2 →
        (visit.1.after (fun _ _ => false) visit.2).Durable visit.2 := by
  refine ⟨fun h => ?_, fun h => ?_, fun h => ?_⟩
  · have hdurable := h _ (List.mem_cons_of_mem _ List.mem_cons_self)
      (exists_of_isOk (by decide +kernel))
    exact absurd (durable_iff_heldText.mp hdurable) (by decide +kernel)
  · have hdurable := h _ List.mem_cons_self (exists_of_isOk (by decide +kernel))
    exact absurd (durable_iff_heldText.mp hdurable) (by decide +kernel)
  · have hdurable := h _ (List.mem_cons_of_mem _ List.mem_cons_self)
      (exists_of_isOk (by decide +kernel))
    exact absurd (durable_iff_heldText.mp hdurable) (by decide +kernel)

end Staging
end ProjectOS.Code
