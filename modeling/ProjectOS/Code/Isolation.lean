import Mathlib.Data.Set.Basic
import ProjectOS.Code.Staging
import ProjectOS.Code.TaskNames

/-! Work items stay apart in Git. As long as the writers of a run have worktrees
of their own, and no baseline moves under a worktree that has no ChangeSet yet,
every file of a ChangeSet was written by its own work item. -/
namespace ProjectOS.Code
open Base

/-- A trace and a work item of it. -/
abbrev Writer := String × String

/-- The writes asked for so far, each with the path it went to. -/
abbrev WriteLog := List (Writer × String)

def CodeContext.writes (context : CodeContext) (path : String) : WriteLog :=
  match context.stagedPath path with
  | .ok normalized => [(context.key, "workspace/" ++ normalized)]
  | .error _ => []

/-- Different writers have different directories, none that of an integration.
Writers whose branch Git refuses never have one. -/
structure Apart (writers : Set Writer) : Prop where
  safe : ∀ writer ∈ writers, Artifact.safeId writer.1 = true ∧ Artifact.safeId writer.2 = true
  distinct : ∀ writer ∈ writers, ∀ other ∈ writers,
    validRef (taskKey writer.1) (taskKey writer.2) = true → place writer = place other →
      writer = other
  notIntegration : ∀ writer ∈ writers,
    validRef (taskKey writer.1) (taskKey writer.2) = true → taskKey writer.2 ≠ "integration"

namespace Staging
variable (ignored : Tree → String → Bool)

/-- What an integration of a trace, or a person at work on the project folder,
leaves as it is. -/
structure Outside (traceId : String) (s next : Staging) : Prop where
  changeSets : next.changeSets = s.changeSets
  baselines : next.baselines = s.baselines
  commits : ∃ extra, next.repo.commits = s.repo.commits ++ extra
  worktrees : ∀ directory, directory ≠ (taskKey traceId, "integration") →
    next.repo.worktrees.get? directory = s.repo.worktrees.get? directory
  integration : ∀ worktree, next.repo.worktrees.get? (taskKey traceId, "integration") =
    some worktree → worktree.branch.trace = taskKey traceId ∧ worktree.branch.item = "integration"
  branches : ∀ name, name ≠ branchText (taskKey traceId) "integration" →
    next.repo.branches.get? name = s.repo.branches.get? name
  heads : ∀ name head, next.repo.branches.get? name = some head → head < next.repo.commits.length
  head : ∀ head, next.repo.head = some head → head < next.repo.commits.length

/-- A baseline may move when each worktree of the trace has its ChangeSet, or
when the workspace still is what the baseline holds. -/
def Quiet (writers : Set Writer) (s : Staging) (traceId : String) : Prop :=
  (∀ writer ∈ writers, writer.1 = traceId →
    (s.repo.worktrees.get? (place writer)).isSome → (s.changeSets.get? writer).isSome) ∨
  ∀ baseline, s.baselines.get? traceId = some baseline → ∀ path,
    ((s.repo.freezeBaseline ignored).2.tree (s.repo.freezeBaseline ignored).1).get? path =
      (s.repo.tree baseline.commit).get? path

/-- A project before the first write: branches below `projectos/` come later. -/
structure Fresh (s : Staging) : Prop where
  worktrees : s.repo.worktrees = ∅
  changeSets : s.changeSets = ∅
  branches : ∀ a b, s.repo.branches.get? (branchText a b) = none
  heads : ∀ name head, s.repo.branches.get? name = some head → head < s.repo.commits.length
  head : ∀ head, s.repo.head = some head → head < s.repo.commits.length
  baselines : ∀ traceId baseline, s.baselines.get? traceId = some baseline →
    baseline.commit < s.repo.commits.length

/-- Runs of writes, which may break off, of integrations, of edits and of
baseline refreshes, in any order. -/
inductive Run (writers : Set Writer) : WriteLog → Staging → Prop where
  | start (s : Staging) (h : s.Fresh) : Run writers [] s
  | write (log : WriteLog) (s : Staging) (context : CodeContext) (path content : String)
      (stop : Option Stop) (h : Run writers log s) (hwriter : context.key ∈ writers) :
      Run writers (log ++ context.writes path)
        (s.writeStagedFile ignored context path content stop).2
  | outside (log : WriteLog) (s next : Staging) (traceId : String) (h : Run writers log s)
      (htrace : Artifact.safeId traceId = true) (houtside : s.Outside traceId next) :
      Run writers log next
  | refresh (log : WriteLog) (s : Staging) (traceId : String) (integrated : List Nat)
      (h : Run writers log s) (hquiet : s.Quiet ignored writers traceId) :
      Run writers log (s.refreshBaseline ignored traceId integrated).2

/-- The commit a work item's changes are counted from. -/
def baseOf (s : Staging) (writer : Writer) : Option Nat :=
  match s.changeSets.get? writer with
  | some change => some change.baseCommit
  | none => (s.baselines.get? writer.1).map (·.commit)

/-- The worktree and its branch differ from a base only where the writer wrote. -/
def Owned (log : WriteLog) (s : Staging) (writer : Writer) (worktree : Worktree) (base : Nat) :
    Prop :=
  ∃ head, s.repo.branches.get? worktree.branch.text = some head ∧ ∀ path,
    ((s.repo.tree base).get? path ≠ worktree.files.get? path ∨
      (s.repo.tree base).get? path ≠ (s.repo.tree head).get? path) → (writer, path) ∈ log

structure Isolated (writers : Set Writer) (log : WriteLog) (s : Staging) : Prop where
  heads : ∀ name head, s.repo.branches.get? name = some head → head < s.repo.commits.length
  head : ∀ head, s.repo.head = some head → head < s.repo.commits.length
  bases : ∀ writer base, s.baseOf writer = some base → base < s.repo.commits.length
  baselines : ∀ traceId baseline, s.baselines.get? traceId = some baseline →
    baseline.commit < s.repo.commits.length
  named : ∀ directory worktree, s.repo.worktrees.get? directory = some worktree →
    (worktree.branch.trace, worktree.branch.item) = directory
  recorded : ∀ writer change, s.changeSets.get? writer = some change →
    writer ∈ writers ∧ branchFor change = branchOf writer.1 writer.2 change.baseCommit ∧
      (s.repo.worktrees.get? (place writer)).isSome ∧
      ∀ file ∈ change.changedFiles, ∃ path, (writer, path) ∈ log ∧ file = diffName path
  worktrees : ∀ writer ∈ writers, ∀ worktree,
    s.repo.worktrees.get? (place writer) = some worktree →
      ∃ base, s.baseOf writer = some base ∧ s.Owned log writer worktree base
  unborn : ∀ writer ∈ writers, validRef (taskKey writer.1) (taskKey writer.2) = true →
    s.repo.worktrees.get? (place writer) = none →
      s.repo.branches.get? (branchText (taskKey writer.1) (taskKey writer.2)) = none

namespace Isolated
variable {ignored} {writers : Set Writer} {log : WriteLog} {s : Staging}

theorem of_fresh (h : s.Fresh) : Isolated writers [] s := by
  have hnone : ∀ writer, s.changeSets.get? writer = none := by simp [h.changeSets]
  have hworktree : ∀ directory, s.repo.worktrees.get? directory = none := by simp [h.worktrees]
  refine ⟨h.heads, h.head, ?_, h.baselines, ?_, ?_, ?_, fun writer _ _ _ => h.branches _ _⟩
  · intro writer base hbase
    simp only [baseOf, hnone, Option.map_eq_some_iff] at hbase
    obtain ⟨baseline, hget, rfl⟩ := hbase
    exact h.baselines _ _ hget
  · intro directory worktree hget
    rw [hworktree] at hget
    cases hget
  · intro writer change hget
    rw [hnone] at hget
    cases hget
  · intro writer _ worktree hget
    rw [hworktree] at hget
    cases hget

theorem Owned.mono {extra : WriteLog} {writer : Writer} {worktree : Worktree} {base : Nat}
    (h : s.Owned log writer worktree base) : s.Owned (log ++ extra) writer worktree base := by
  obtain ⟨head, hhead, hown⟩ := h
  exact ⟨head, hhead, fun path hpath => List.mem_append_left _ (hown path hpath)⟩

theorem mono {extra : WriteLog} (h : Isolated writers log s) :
    Isolated writers (log ++ extra) s := by
  refine ⟨h.heads, h.head, h.bases, h.baselines, h.named, ?_, ?_, h.unborn⟩
  · intro writer change hget
    obtain ⟨hwriter, hbranch, hworktree, hfiles⟩ := h.recorded writer change hget
    refine ⟨hwriter, hbranch, hworktree, fun file hfile => ?_⟩
    obtain ⟨path, hmem, heq⟩ := hfiles file hfile
    exact ⟨path, List.mem_append_left _ hmem, heq⟩
  · intro writer hwriter worktree hget
    obtain ⟨base, hbase, howned⟩ := h.worktrees writer hwriter worktree hget
    exact ⟨base, hbase, Owned.mono howned⟩

/-- The branch of a writer is not the integration branch of any trace. -/
theorem branchText_ne_integration (hapart : Apart writers) {writer : Writer}
    (hwriter : writer ∈ writers)
    (hvalid : validRef (taskKey writer.1) (taskKey writer.2) = true) {traceId : String}
    (htrace : Artifact.safeId traceId = true) :
    branchText (taskKey writer.1) (taskKey writer.2) ≠
      branchText (taskKey traceId) "integration" := by
  intro heq
  have hsafe := (hapart.safe writer hwriter).1
  have hparts := (branchText_inj (slash_not_mem_taskKey hsafe) (slash_not_mem_taskKey htrace)).mp heq
  exact hapart.notIntegration writer hwriter hvalid hparts.2

theorem names_of_worktree (h : Isolated writers log s) {writer : Writer} {worktree : Worktree}
    (hget : s.repo.worktrees.get? (place writer) = some worktree) :
    worktree.branch.trace = taskKey writer.1 ∧ worktree.branch.item = taskKey writer.2 := by
  have hnames := h.named _ _ hget
  simpa [place] using hnames

theorem text_of_worktree (h : Isolated writers log s) {writer : Writer} {worktree : Worktree}
    (hget : s.repo.worktrees.get? (place writer) = some worktree) :
    worktree.branch.text = branchText (taskKey writer.1) (taskKey writer.2) := by
  rw [RefName.text, (h.names_of_worktree hget).1, (h.names_of_worktree hget).2]

theorem valid_of_worktree (h : Isolated writers log s) {writer : Writer} {worktree : Worktree}
    (hget : s.repo.worktrees.get? (place writer) = some worktree) :
    validRef (taskKey writer.1) (taskKey writer.2) = true := by
  rw [← (h.names_of_worktree hget).1, ← (h.names_of_worktree hget).2]
  exact worktree.branch.valid

/-- What goes on outside leaves the work items alone. -/
theorem outside {next : Staging} {traceId : String} (hapart : Apart writers)
    (h : Isolated writers log s) (htrace : Artifact.safeId traceId = true)
    (hout : s.Outside traceId next) : Isolated writers log next := by
  obtain ⟨extra, hextra⟩ := hout.commits
  have hlt {commit : Nat} (hc : commit < s.repo.commits.length) :
      commit < next.repo.commits.length := by
    rw [hextra, List.length_append]
    omega
  have htree {commit : Nat} (hc : commit < s.repo.commits.length) :
      next.repo.tree commit = s.repo.tree commit := by
    rw [GitRepository.tree, hextra]
    exact History.tree_append _ _ hc
  have hbase (writer : Writer) : next.baseOf writer = s.baseOf writer := by
    rw [baseOf, baseOf, hout.changeSets, hout.baselines]
  have hnamed : ∀ directory worktree, next.repo.worktrees.get? directory = some worktree →
      (worktree.branch.trace, worktree.branch.item) = directory := by
    intro directory worktree hget
    by_cases hdirectory : directory = (taskKey traceId, "integration")
    · subst hdirectory
      rw [(hout.integration worktree hget).1, (hout.integration worktree hget).2]
    · rw [hout.worktrees _ hdirectory] at hget
      exact h.named _ _ hget
  have hplace {writer : Writer} (hwriter : writer ∈ writers)
      (hvalid : validRef (taskKey writer.1) (taskKey writer.2) = true) :
      next.repo.worktrees.get? (place writer) = s.repo.worktrees.get? (place writer) := by
    apply hout.worktrees
    intro heq
    exact hapart.notIntegration writer hwriter hvalid (congrArg Prod.snd heq)
  have hbranch {writer : Writer} (hwriter : writer ∈ writers)
      (hvalid : validRef (taskKey writer.1) (taskKey writer.2) = true) :
      next.repo.branches.get? (branchText (taskKey writer.1) (taskKey writer.2)) =
        s.repo.branches.get? (branchText (taskKey writer.1) (taskKey writer.2)) :=
    hout.branches _ (branchText_ne_integration hapart hwriter hvalid htrace)
  refine ⟨hout.heads, hout.head, ?_, ?_, hnamed, ?_, ?_, ?_⟩
  · intro writer base hget
    exact hlt (h.bases writer base (hbase writer ▸ hget))
  · intro trace baseline hget
    exact hlt (h.baselines trace baseline (hout.baselines ▸ hget))
  · intro writer change hget
    rw [hout.changeSets] at hget
    obtain ⟨hwriter, hbranchFor, hsome, hfiles⟩ := h.recorded writer change hget
    obtain ⟨worktree, hworktree⟩ := Option.isSome_iff_exists.mp hsome
    refine ⟨hwriter, hbranchFor, ?_, hfiles⟩
    rwa [hplace hwriter (h.valid_of_worktree hworktree)]
  · intro writer hwriter worktree hget
    have hnames := hnamed _ _ hget
    simp only [place, Prod.mk.injEq] at hnames
    have hvalid : validRef (taskKey writer.1) (taskKey writer.2) = true :=
      hnames.1 ▸ hnames.2 ▸ worktree.branch.valid
    rw [hplace hwriter hvalid] at hget
    obtain ⟨base, hb, head, hhead, hown⟩ := h.worktrees writer hwriter worktree hget
    refine ⟨base, hbase writer ▸ hb, head, ?_, ?_⟩
    · rw [h.text_of_worktree hget] at hhead ⊢
      rwa [hbranch hwriter hvalid]
    · rwa [htree (h.bases writer base hb), htree (h.heads _ head hhead)]
  · intro writer hwriter hvalid hget
    rw [hplace hwriter hvalid] at hget
    rw [hbranch hwriter hvalid]
    exact h.unborn writer hwriter hvalid hget

/-- Freezing a baseline is such an outside step. -/
theorem outside_freeze (ignored : Tree → String → Bool) (h : Isolated writers log s) :
    s.Outside "integration" { s with repo := (s.repo.freezeBaseline ignored).2 } ∧
      (s.repo.freezeBaseline ignored).1 < (s.repo.freezeBaseline ignored).2.commits.length := by
  have hnames : ∀ worktree, s.repo.worktrees.get? (taskKey "integration", "integration") =
      some worktree → worktree.branch.trace = taskKey "integration" ∧
        worktree.branch.item = "integration" := by
    intro worktree hget
    simpa using h.named _ _ hget
  rcases s.repo.freezeBaseline_cases ignored with ⟨head, hhead, hfreeze⟩ | ⟨entry, hfreeze⟩
  · rw [hfreeze]
    exact ⟨⟨rfl, rfl, ⟨[], by simp⟩, fun _ _ => rfl, hnames, fun _ _ => rfl, h.heads, h.head⟩,
      h.head head hhead⟩
  · rw [hfreeze]
    refine ⟨⟨rfl, rfl, ⟨[entry], rfl⟩, fun _ _ => rfl, hnames, fun _ _ => rfl, ?_, ?_⟩, by simp⟩
    · intro name head hget
      have := h.heads name head hget
      simp only [List.length_append, List.length_singleton]
      omega
    · intro head hget
      cases hget
      simp

/-- A new baseline for a trace whose worktrees do not count from the old one,
or count the same from the new one. -/
theorem setBaseline (h : Isolated writers log s) {traceId : String} {commit : Nat}
    {integrated : List Nat} (hcommit : commit < s.repo.commits.length)
    (hquiet : ∀ writer ∈ writers, writer.1 = traceId → s.changeSets.get? writer = none →
      ∀ worktree, s.repo.worktrees.get? (place writer) = some worktree →
        ∃ baseline, s.baselines.get? traceId = some baseline ∧ ∀ path,
          (s.repo.tree commit).get? path = (s.repo.tree baseline.commit).get? path) :
    Isolated writers log { s with baselines := s.baselines.set traceId ⟨commit, integrated⟩ } := by
  refine ⟨h.heads, h.head, ?_, ?_, h.named, h.recorded, ?_, h.unborn⟩
  · intro writer base hget
    unfold baseOf at hget
    split at hget
    · rename_i change hchange
      exact h.bases writer base (by simpa [baseOf, hchange] using hget)
    · rename_i hnone
      rw [Dict.get?_set] at hget
      split at hget
      · cases hget
        exact hcommit
      · exact h.bases writer base (by simpa [baseOf, hnone] using hget)
  · intro trace baseline hget
    rw [Dict.get?_set] at hget
    split at hget
    · cases hget
      exact hcommit
    · exact h.baselines trace baseline hget
  · intro writer hwriter worktree hget
    obtain ⟨base, hbase, head, hhead, hown⟩ := h.worktrees writer hwriter worktree hget
    cases hchange : s.changeSets.get? writer with
    | some change =>
      refine ⟨base, ?_, head, hhead, hown⟩
      simpa [baseOf, hchange] using hbase
    | none =>
      by_cases htrace : writer.1 = traceId
      · obtain ⟨baseline, hbaseline, hsame⟩ := hquiet writer hwriter htrace hchange worktree hget
        have hb : baseline.commit = base := by
          simpa [baseOf, hchange, htrace, hbaseline] using hbase
        refine ⟨commit, by simp [baseOf, hchange, htrace, Dict.get?_set], head, hhead, ?_⟩
        intro path hpath
        rw [show (s.repo.tree commit).get? path = _ from hsame path, hb] at hpath
        exact hown path hpath
      · refine ⟨base, ?_, head, hhead, hown⟩
        simpa [baseOf, hchange, Dict.get?_set, htrace] using hbase

theorem place_eq_of_branchText (hapart : Apart writers) {writer other : Writer}
    (hwriter : writer ∈ writers) (hother : other ∈ writers)
    (h : branchText (taskKey writer.1) (taskKey writer.2) =
      branchText (taskKey other.1) (taskKey other.2)) : place writer = place other := by
  have hparts := (branchText_inj (slash_not_mem_taskKey (hapart.safe writer hwriter).1)
    (slash_not_mem_taskKey (hapart.safe other hother).1)).mp h
  exact Prod.ext hparts.1 hparts.2

/-- The worktree of a new task starts out as its base. -/
theorem create (hapart : Apart writers) (h : Isolated writers log s) {writer : Writer}
    (hwriter : writer ∈ writers) {base : Nat} {next : GitRepository}
    (hbase : s.baseOf writer = some base)
    (hcreated : GitRepository.Created s.repo writer.1 writer.2 base next) :
    Isolated writers log { s with repo := next } ∧
      (next.worktrees.get? (place writer)).isSome := by
  have hvalid := hcreated.valid
  cases hcreated with
  | found worktree htrace hitem hget => exact ⟨h, by simp [hget]⟩
  | checkedOut ref head htrace hitem hget hbranch =>
    have hunborn := h.unborn writer hwriter hvalid hget
    rw [RefName.text, htrace, hitem, hunborn] at hbranch
    cases hbranch
  | branched ref htrace hitem hget hbranch =>
    have htext : ref.text = branchText (taskKey writer.1) (taskKey writer.2) := by
      rw [RefName.text, htrace, hitem]
    have hother {other : Writer} (hmem : other ∈ writers) (hne : place other ≠ place writer) :
        branchText (taskKey other.1) (taskKey other.2) ≠ ref.text := by
      rw [htext]
      exact fun heq => hne (place_eq_of_branchText hapart hmem hwriter heq)
    refine ⟨⟨?_, h.head, h.bases, h.baselines, ?_, ?_, ?_, ?_⟩, by simp [Dict.get?_set]⟩
    · intro name head hname
      rw [Dict.get?_set] at hname
      split at hname
      · cases hname
        exact h.bases writer _ hbase
      · exact h.heads name head hname
    · intro directory worktree hdirectory
      rw [Dict.get?_set] at hdirectory
      split at hdirectory
      · rename_i heq
        cases hdirectory
        rw [heq, htrace, hitem]
        rfl
      · exact h.named _ _ hdirectory
    · intro other change hchange
      obtain ⟨hmem, hbranchFor, hsome, hfiles⟩ := h.recorded other change hchange
      refine ⟨hmem, hbranchFor, ?_, hfiles⟩
      rw [Dict.get?_set]
      split
      · rfl
      · exact hsome
    · intro other hmem worktree hworktree
      rw [Dict.get?_set] at hworktree
      split at hworktree
      · rename_i heq
        cases hworktree
        have hsame : writer = other := hapart.distinct writer hwriter other hmem hvalid heq.symm
        subst hsame
        refine ⟨base, hbase, base, by simp [Dict.get?_set], ?_⟩
        intro path hpath
        rcases hpath with hpath | hpath
        · exact absurd rfl hpath
        · exact absurd rfl hpath
      · rename_i hne
        obtain ⟨base', hbase', head, hhead, hown⟩ := h.worktrees other hmem worktree hworktree
        refine ⟨base', hbase', head, ?_, hown⟩
        rw [Dict.get?_set, if_neg]
        · exact hhead
        · rw [h.text_of_worktree hworktree]
          exact hother hmem hne
    · intro other hmem hv hnone
      rw [Dict.get?_set] at hnone
      split at hnone
      · cases hnone
      · rename_i hne
        rw [Dict.get?_set, if_neg (hother hmem hne)]
        exact h.unborn other hmem hv hnone

/-- A text written by the owner of a worktree. -/
theorem writeText (hapart : Apart writers) (h : Isolated writers log s) {writer : Writer}
    (hwriter : writer ∈ writers) {branch : TaskBranch} (hpath : branch.worktreePath = place writer)
    {worktree : Worktree} (hget : s.repo.worktrees.get? (place writer) = some worktree)
    {target : String} (htarget : (writer, target) ∈ log) (content : String) :
    Isolated writers log (s.writeText branch worktree target content) := by
  refine ⟨h.heads, h.head, h.bases, h.baselines, ?_, ?_, ?_, ?_⟩
  · intro directory worktree' hdirectory
    simp only [Staging.writeText, hpath, Dict.get?_set] at hdirectory
    split at hdirectory
    · rename_i heq
      cases hdirectory
      exact (h.named _ _ hget).trans heq.symm
    · exact h.named _ _ hdirectory
  · intro other change hchange
    obtain ⟨hmem, hbranchFor, hsome, hfiles⟩ := h.recorded other change hchange
    refine ⟨hmem, hbranchFor, ?_, hfiles⟩
    simp only [Staging.writeText, hpath, Dict.get?_set]
    split
    · rfl
    · exact hsome
  · intro other hmem worktree' hworktree
    simp only [Staging.writeText, hpath, Dict.get?_set] at hworktree
    split at hworktree
    · rename_i heq
      cases hworktree
      have hsame : writer = other :=
        hapart.distinct writer hwriter other hmem (h.valid_of_worktree hget) heq.symm
      subst hsame
      obtain ⟨base, hbase, head, hhead, hown⟩ := h.worktrees writer hwriter worktree hget
      refine ⟨base, hbase, head, hhead, ?_⟩
      have htree (commit : Nat) :
        (s.writeText branch worktree target content).repo.tree commit = s.repo.tree commit := rfl
      intro path hne
      rw [htree, htree, Dict.get?_set] at hne
      by_cases hcase : path = target
      · exact hcase ▸ htarget
      · exact hown path (by rwa [if_neg hcase] at hne)
    · exact h.worktrees other hmem worktree' hworktree
  · intro other hmem hv hnone
    simp only [Staging.writeText, hpath, Dict.get?_set] at hnone
    split at hnone
    · cases hnone
    · exact h.unborn other hmem hv hnone

/-- The commit of a task moves its own branch. -/
theorem commit (hapart : Apart writers) (h : Isolated writers log s) {writer : Writer}
    (hwriter : writer ∈ writers) {branch : TaskBranch} {base : Nat}
    (hbranch : branch = branchOf writer.1 writer.2 base) (hbase : s.baseOf writer = some base)
    {change : ChangeSet} {next : GitRepository}
    (hcommit : GitRepository.TaskCommit ignored s.repo branch change next) :
    Isolated writers log { s with repo := next } ∧
      ∀ file ∈ change.changedFiles, ∃ path, (writer, path) ∈ log ∧ file = diffName path := by
  obtain ⟨worktree, head, hget, hhead, rfl, rfl⟩ := hcommit
  have hpath : branch.worktreePath = place writer := by rw [hbranch]; rfl
  rw [hpath] at hget
  have hvalid := h.valid_of_worktree hget
  obtain ⟨base', hbase', head', hhead', hown⟩ := h.worktrees writer hwriter worktree hget
  have hsame : base' = base := by rw [hbase] at hbase'; exact (Option.some.inj hbase').symm
  have hheads : head' = head := by rw [hhead] at hhead'; exact (Option.some.inj hhead').symm
  subst hsame hheads
  have hlt {commit : Nat} (hc : commit < s.repo.commits.length) :
      commit < (s.repo.commits ++
        [(⟨s.repo.committedFiles ignored worktree head', [head']⟩ : Commit)]).length := by
    rw [List.length_append]
    omega
  have htree {commit : Nat} (hc : commit < s.repo.commits.length) :
      History.tree (s.repo.commits ++
        [(⟨s.repo.committedFiles ignored worktree head', [head']⟩ : Commit)]) commit =
          s.repo.tree commit :=
    History.tree_append _ _ hc
  -- a committed file is one of the worktree or one of the old head
  have hcommitted : ∀ path, (s.repo.tree base').get? path ≠
      (s.repo.committedFiles ignored worktree head').get? path → (writer, path) ∈ log := by
    intro path hne
    apply hown
    rcases @GitRepository.get?_committedFiles_cases ignored s.repo
      worktree head' path with heq | heq
    · exact .inl (heq ▸ hne)
    · exact .inr (heq ▸ hne)
  refine ⟨⟨?_, fun c hc => hlt (h.head c hc), fun w b hb => hlt (h.bases w b hb),
    fun t b hb => hlt (h.baselines t b hb), h.named, h.recorded, ?_, ?_⟩, ?_⟩
  · intro name commit hname
    rw [Dict.get?_set] at hname
    split at hname
    · cases hname
      simp
    · exact hlt (h.heads name commit hname)
  · intro other hmem worktree' hworktree
    obtain ⟨b, hb, head, hhead, hown'⟩ := h.worktrees other hmem worktree' hworktree
    by_cases hother : place other = place writer
    · have heq : writer = other := hapart.distinct writer hwriter other hmem hvalid hother.symm
      subst heq
      have hwt : worktree' = worktree := by
        rw [hget] at hworktree
        exact (Option.some.inj hworktree).symm
      subst hwt
      refine ⟨base', hbase, s.repo.commits.length, by simp [Dict.get?_set], ?_⟩
      intro path hne
      have hbasetree := htree (h.bases writer base' hbase)
      have hnew := History.tree_snoc s.repo.commits
        ⟨s.repo.committedFiles ignored worktree' head', [head']⟩
      simp only [GitRepository.tree] at hne
      rw [hbasetree, hnew] at hne
      rcases hne with hne | hne
      · exact hown path (.inl hne)
      · exact hcommitted path hne
    · refine ⟨b, hb, head, ?_, ?_⟩
      · rw [Dict.get?_set, if_neg]
        · exact hhead
        · rw [h.text_of_worktree hworktree, h.text_of_worktree hget]
          exact fun heq => hother (place_eq_of_branchText hapart hmem hwriter heq)
      · intro path hne
        simp only [GitRepository.tree] at hne
        rw [htree (h.bases other b hb), htree (h.heads _ head hhead)] at hne
        exact hown' path hne
  · intro other hmem hv hnone
    have hne : place other ≠ place writer := by
      intro heq
      rw [heq, hget] at hnone
      cases hnone
    rw [Dict.get?_set, if_neg]
    · exact h.unborn other hmem hv hnone
    · rw [h.text_of_worktree hget]
      exact fun heq => hne (place_eq_of_branchText hapart hmem hwriter heq)
  · intro file hfile
    simp only [Text.mem_sorted, List.mem_map, Tree.mem_changed] at hfile
    obtain ⟨path, hne, rfl⟩ := hfile
    rw [hbranch] at hne
    exact ⟨path, hcommitted path hne, rfl⟩

/-- The record of a ChangeSet with the base its writer counts from. -/
theorem record (h : Isolated writers log s) {writer : Writer} (hwriter : writer ∈ writers)
    {change : ChangeSet} (hbranch : branchFor change = branchOf writer.1 writer.2 change.baseCommit)
    (hbase : s.baseOf writer = some change.baseCommit)
    (hsome : (s.repo.worktrees.get? (place writer)).isSome)
    (hfiles : ∀ file ∈ change.changedFiles, ∃ path, (writer, path) ∈ log ∧ file = diffName path) :
    Isolated writers log { s with changeSets := s.changeSets.set writer change } := by
  have hbases (other : Writer) :
      baseOf { s with changeSets := s.changeSets.set writer change } other = s.baseOf other := by
    by_cases heq : other = writer
    · subst heq
      rw [hbase]
      simp [baseOf, Dict.get?_set]
    · simp [baseOf, Dict.get?_set, heq]
  refine ⟨h.heads, h.head, ?_, h.baselines, h.named, ?_, ?_, h.unborn⟩
  · intro other base hget
    rw [hbases] at hget
    exact h.bases other base hget
  · intro other change' hget
    rw [Dict.get?_set] at hget
    split at hget
    · rename_i heq
      cases hget
      subst heq
      exact ⟨hwriter, hbranch, hsome, hfiles⟩
    · exact h.recorded other change' hget
  · intro other hmem worktree hget
    obtain ⟨base, hb, howned⟩ := h.worktrees other hmem worktree hget
    exact ⟨base, (hbases other).trans hb, howned⟩

theorem ensureBaseline (hapart : Apart writers) (h : Isolated writers log s) (traceId : String)
    (stop : Option Stop) :
    Isolated writers log (s.ensureBaseline ignored traceId stop).2 ∧
      ∀ commit, (s.ensureBaseline ignored traceId stop).1 = .ok commit →
        ((s.ensureBaseline ignored traceId stop).2.baselines.get? traceId).map (·.commit) =
          some commit := by
  unfold Staging.ensureBaseline
  split
  · exact ⟨h, fun _ hok => by cases hok⟩
  · split
    · rename_i baseline hget
      refine ⟨h, fun commit hcommit => ?_⟩
      cases hcommit
      simp [hget]
    · rename_i hnone
      obtain ⟨hout, hlt⟩ := h.outside_freeze ignored
      have hfrozen := h.outside hapart (by decide) hout
      dsimp only
      split
      · exact ⟨hfrozen, fun _ hok => by cases hok⟩
      · constructor
        · apply hfrozen.setBaseline hlt
          intro writer hwriter htrace hchange worktree hget
          obtain ⟨base, hbase, -⟩ := hfrozen.worktrees writer hwriter worktree hget
          simp only at hchange
          simp [baseOf, hchange, htrace, hnone] at hbase
        · intro commit hcommit
          cases hcommit
          simp [Dict.get?_set]

/-- The branch a write works on, with the worktree it finds. -/
theorem prepare (hapart : Apart writers) (h : Isolated writers log s) {context : CodeContext}
    (hwriter : context.key ∈ writers) (stop : Option Stop) :
    Isolated writers log (s.prepare ignored context stop).2 ∧
      ∀ branch, (s.prepare ignored context stop).1 = .ok branch → ∃ base,
        branch = branchOf context.traceId context.workItemId base ∧
          (s.prepare ignored context stop).2.baseOf context.key = some base := by
  obtain ⟨hensured, hbaseline⟩ := @ensureBaseline ignored _ _ _ hapart h context.traceId stop
  unfold Staging.prepare
  split
  · rename_i e s' heq
    rw [heq] at hensured
    exact ⟨hensured, fun _ hok => by cases hok⟩
  · rename_i commit s' heq
    rw [heq] at hensured hbaseline
    have hcommit := hbaseline commit rfl
    split
    · exact ⟨hensured, fun _ hok => by cases hok⟩
    · split
      · exact ⟨hensured, fun _ hok => by cases hok⟩
      · rename_i branch repo hbranch
        have hprepared : Isolated writers log { s' with repo := repo } ∧ ∃ base,
            branch = branchOf context.traceId context.workItemId base ∧
              baseOf { s' with repo := repo } context.key = some base := by
          unfold Staging.taskBranch at hbranch
          obtain ⟨-, hsafe, hbranch⟩ := bind_eq_ok.mp hbranch
          split at hbranch
          · rename_i change hchange
            cases hbranch
            refine ⟨hensured, change.baseCommit, (hensured.recorded _ _ hchange).2.1, ?_⟩
            simp [baseOf, hchange]
          · rename_i hnone
            have hids := hapart.safe _ hwriter
            obtain ⟨rfl, hcreated⟩ := (GitRepository.createWorktree_eq_ok hids.1 hids.2).mp hbranch
            have hbase : s'.baseOf context.key = some commit := by
              unfold baseOf
              rw [hnone]
              exact hcommit
            exact ⟨(hensured.create hapart hwriter hbase hcreated).1, commit, rfl, hbase⟩
        split
        · exact ⟨hprepared.1, fun _ hok => by cases hok⟩
        · refine ⟨hprepared.1, fun branch' hok => ?_⟩
          cases hok
          exact hprepared.2

theorem commitChange (hapart : Apart writers) (h : Isolated writers log s) {context : CodeContext}
    (hwriter : context.key ∈ writers) {base : Nat} (hbase : s.baseOf context.key = some base)
    (normalized : String) (stop : Option Stop) :
    Isolated writers log (s.commitChange ignored context
      (branchOf context.traceId context.workItemId base) normalized stop).2 := by
  unfold Staging.commitChange
  split
  · exact h
  · rename_i change repo hcommit
    obtain ⟨committed⟩ := GitRepository.taskCommit_of_commitTask hcommit
    obtain ⟨hnext, hfiles⟩ := h.commit hapart hwriter rfl hbase committed
    split
    · exact hnext
    · have hkey : (change.traceId, change.workItemId) = context.key := by
        rw [committed.change_eq]
        rfl
      have hworktree : (repo.worktrees.get? (place context.key)).isSome := by
        have hfound := committed.found
        rw [committed.next_eq]
        exact Option.isSome_iff_exists.mpr ⟨_, hfound⟩
      have hbranch : branchFor change =
          branchOf context.traceId context.workItemId change.baseCommit := by
        rw [committed.change_eq]
        rfl
      have hchange : baseOf { s with repo := repo } context.key = some change.baseCommit := by
        rw [committed.change_eq]
        exact hbase
      rw [hkey]
      exact @record _ _ _ hnext _ hwriter { change with requiredPaths := context.requiredPaths }
        hbranch hchange hworktree hfiles

theorem writeInto (hapart : Apart writers) (h : Isolated writers log s) {context : CodeContext}
    (hwriter : context.key ∈ writers) {base : Nat} (hbase : s.baseOf context.key = some base)
    {normalized : String} (htarget : (context.key, "workspace/" ++ normalized) ∈ log)
    (content : String) (stop : Option Stop) :
    Isolated writers log (s.writeInto ignored context
      (branchOf context.traceId context.workItemId base) normalized content stop).2 := by
  unfold Staging.writeInto
  dsimp only
  split
  · exact h
  · rename_i worktree hget
    split
    · exact h
    · split
      · exact h
      · have hwritten := @writeText _ _ _ hapart h _ hwriter (branchOf context.traceId
          context.workItemId base) rfl _ hget _ htarget content
        split
        · exact hwritten
        · exact hwritten.commitChange hapart hwriter hbase normalized stop

/-- One write keeps the work items apart, wherever it breaks off. -/
theorem writeStagedFile (hapart : Apart writers) (h : Isolated writers log s)
    {context : CodeContext} (hwriter : context.key ∈ writers) (path content : String)
    (stop : Option Stop) :
    Isolated writers (log ++ context.writes path)
      (s.writeStagedFile ignored context path content stop).2 := by
  unfold Staging.writeStagedFile CodeContext.writes
  cases hpath : context.stagedPath path with
  | error e => exact h.mono
  | ok normalized =>
    have hlog := @mono _ _ _ [(context.key, "workspace/" ++ normalized)] h
    obtain ⟨hprepared, hbranch⟩ := @prepare ignored _ _ _ hapart hlog _ hwriter stop
    dsimp only
    split
    · exact hlog
    · split
      · rename_i e s' heq
        rw [heq] at hprepared
        exact hprepared
      · rename_i branch s' heq
        rw [heq] at hprepared hbranch
        obtain ⟨base, rfl, hbase⟩ := hbranch branch rfl
        exact hprepared.writeInto hapart hwriter hbase
          (List.mem_append_right _ List.mem_cons_self) content stop

theorem refreshBaseline (hapart : Apart writers) (h : Isolated writers log s) {traceId : String}
    (hquiet : s.Quiet ignored writers traceId) (integrated : List Nat) :
    Isolated writers log (s.refreshBaseline ignored traceId integrated).2 := by
  obtain ⟨hout, hlt⟩ := h.outside_freeze ignored
  have hfrozen := h.outside hapart (by decide) hout
  unfold Staging.refreshBaseline
  dsimp only
  split
  · exact hfrozen
  · apply hfrozen.setBaseline hlt
    intro writer hwriter htrace hchange worktree hget
    simp only at hchange
    rw [GitRepository.freezeBaseline_worktrees] at hget
    rcases hquiet with hdone | hsame
    · have hsome := hdone writer hwriter htrace (by simp [hget])
      rw [hchange] at hsome
      cases hsome
    · obtain ⟨base, hbase, -⟩ := h.worktrees writer hwriter worktree hget
      simp only [baseOf, hchange, htrace, Option.map_eq_some_iff] at hbase
      obtain ⟨baseline, hbaseline, -⟩ := hbase
      refine ⟨baseline, hbaseline, fun path => ?_⟩
      rw [GitRepository.freezeBaseline_tree _ _ (h.baselines _ _ hbaseline)]
      exact hsame baseline hbaseline path

theorem run (hapart : Apart writers) (h : Run ignored writers log s) : Isolated writers log s := by
  induction h with
  | start s h => exact of_fresh h
  | write log s context path content stop h hwriter ih =>
    exact ih.writeStagedFile hapart hwriter path content stop
  | outside log s next traceId h htrace hout ih => exact ih.outside hapart htrace hout
  | refresh log s traceId integrated h hquiet ih => exact ih.refreshBaseline hapart hquiet integrated

theorem worktrees_create {repo next : GitRepository} {writer : Writer} {base : Nat}
    (h : GitRepository.Created repo writer.1 writer.2 base next) {directory : String × String}
    (hd : validRef (taskKey writer.1) (taskKey writer.2) = true → directory ≠ place writer) :
    next.worktrees.get? directory = repo.worktrees.get? directory := by
  have hne := hd h.valid
  cases h with
  | found => rfl
  | checkedOut => exact (Dict.get?_set ..).trans (if_neg hne)
  | branched => exact (Dict.get?_set ..).trans (if_neg hne)

theorem worktrees_ensureBaseline (traceId : String) (stop : Option Stop) :
    (s.ensureBaseline ignored traceId stop).2.repo.worktrees = s.repo.worktrees := by
  unfold Staging.ensureBaseline
  split
  · rfl
  · split
    · rfl
    · dsimp only
      split <;> exact GitRepository.freezeBaseline_worktrees ignored s.repo

theorem worktrees_prepare (hapart : Apart writers) {context : CodeContext}
    (hwriter : context.key ∈ writers) (stop : Option Stop) {directory : String × String}
    (hd : validRef (taskKey context.traceId) (taskKey context.workItemId) = true →
      directory ≠ place context.key) :
    (s.prepare ignored context stop).2.repo.worktrees.get? directory =
      s.repo.worktrees.get? directory := by
  have hensured := @worktrees_ensureBaseline ignored s context.traceId stop
  unfold Staging.prepare
  split
  · rename_i e s' heq
    rw [heq] at hensured
    rw [hensured]
  · rename_i commit s' heq
    rw [heq] at hensured
    rw [← hensured]
    split
    · rfl
    · split
      · rfl
      · rename_i branch repo hbranch
        have hrepo : repo.worktrees.get? directory = s'.repo.worktrees.get? directory := by
          unfold Staging.taskBranch at hbranch
          obtain ⟨-, -, hbranch⟩ := bind_eq_ok.mp hbranch
          split at hbranch
          · cases hbranch
            rfl
          · have hids := hapart.safe _ hwriter
            obtain ⟨-, hcreated⟩ := (GitRepository.createWorktree_eq_ok hids.1 hids.2).mp hbranch
            exact @worktrees_create _ _ context.key _ hcreated _ hd
        split
        · exact hrepo
        · exact hrepo

theorem worktrees_commitChange (context : CodeContext) (branch : TaskBranch) (normalized : String)
    (stop : Option Stop) :
    (s.commitChange ignored context branch normalized stop).2.repo.worktrees =
      s.repo.worktrees := by
  unfold Staging.commitChange
  split
  · rfl
  · rename_i change repo hcommit
    obtain ⟨committed⟩ := GitRepository.taskCommit_of_commitTask hcommit
    have hnext : repo.worktrees = s.repo.worktrees := by rw [committed.next_eq]
    split
    · exact hnext
    · exact hnext

theorem worktrees_writeInto {context : CodeContext} {branch : TaskBranch} {normalized : String}
    {content : String} {stop : Option Stop} {directory : String × String}
    (hd : (s.repo.worktrees.get? branch.worktreePath).isSome →
      directory ≠ branch.worktreePath) :
    (s.writeInto ignored context branch normalized content stop).2.repo.worktrees.get? directory =
      s.repo.worktrees.get? directory := by
  unfold Staging.writeInto
  dsimp only
  split
  · rfl
  · rename_i worktree hget
    have hwritten (target : String) :
        (s.writeText branch worktree target content).repo.worktrees.get? directory =
          s.repo.worktrees.get? directory :=
      (Dict.get?_set ..).trans (if_neg (hd (by simp [hget])))
    split
    · rfl
    · split
      · rfl
      · split
        · exact hwritten _
        · rw [worktrees_commitChange]
          exact hwritten _

/-- A write touches no worktree but its own. -/
theorem worktrees_writeStagedFile (hapart : Apart writers) (h : Isolated writers log s)
    {context : CodeContext} (hwriter : context.key ∈ writers) (path content : String)
    (stop : Option Stop) {directory : String × String}
    (hd : validRef (taskKey context.traceId) (taskKey context.workItemId) = true →
      directory ≠ place context.key) :
    (s.writeStagedFile ignored context path content stop).2.repo.worktrees.get? directory =
      s.repo.worktrees.get? directory := by
  have hframe := @worktrees_prepare ignored writers s hapart _ hwriter stop _ hd
  obtain ⟨hprepared, hbranch⟩ := @prepare ignored _ _ _ hapart h _ hwriter stop
  unfold Staging.writeStagedFile
  split
  · rfl
  · split
    · rfl
    · split
      · rename_i e s' heq
        rw [heq] at hframe
        exact hframe
      · rename_i normalized _ branch s' heq
        rw [heq] at hprepared hbranch hframe
        obtain ⟨base, rfl, hbase⟩ := hbranch branch rfl
        rw [← hframe]
        apply worktrees_writeInto
        intro hsome
        obtain ⟨worktree, hget⟩ := Option.isSome_iff_exists.mp hsome
        exact hd (@valid_of_worktree _ _ _ hprepared context.key _ hget)

end Isolated
/-- Branches and directories of two identifiers, one of which may be that of the
integration, differ exactly when the normalized identifiers do. In every run of
writers that differ so, the files of a ChangeSet are its writer's own, and no
write reaches the worktree of an integration. -/
theorem work_items_isolated :
    (∀ traceId a b, Artifact.safeId traceId = true → Artifact.safeId a = true →
      Artifact.safeId b = true → (NamesDiffer traceId a b ↔ KeysDiffer traceId a b)) ∧
    ∀ writers, Apart writers → ∀ log s, Run ignored writers log s →
      (∀ writer change, s.changeSets.get? writer = some change →
        ∀ file ∈ change.changedFiles, ∃ path, (writer, path) ∈ log ∧ file = diffName path) ∧
      ∀ context : CodeContext, context.key ∈ writers → ∀ path content stop traceId,
        (s.writeStagedFile ignored context path content stop).2.repo.worktrees.get?
            (taskKey traceId, "integration") =
          s.repo.worktrees.get? (taskKey traceId, "integration") := by
  refine ⟨fun traceId a b ht ha hb => namesDiffer_iff ht ha hb, ?_⟩
  intro writers hapart log s hrun
  have hisolated := Isolated.run hapart hrun
  constructor
  · intro writer change hget
    exact (hisolated.recorded writer change hget).2.2.2
  · intro context hwriter path content stop traceId
    apply Isolated.worktrees_writeStagedFile hapart hisolated hwriter
    intro hvalid heq
    exact hapart.notIntegration _ hwriter hvalid (congrArg Prod.snd heq).symm

def taskContext (workItemId : String) : CodeContext :=
  { traceId := "trace-1", workItemId := workItemId, slot := some "root" }

/-- Two first writes, one after the other. -/
def twoWrites (a b : String) : Staging :=
  (Staging.writeStagedFile (fun _ _ => false)
    (Staging.writeStagedFile (fun _ _ => false) {} (taskContext a) "a.py" "A = 1" none).2
    (taskContext b) "b.py" "B = 1" none).2

def longId (last : Char) : String := String.ofList (List.replicate 80 'u' ++ [last])

def apiAndWeb : Set Writer := { writer | writer ∈ [("trace-1", "api"), ("trace-1", "web")] }

theorem twoWrites_isolated : NamesDiffer "trace-1" "api" "web" ∧
    ∃ path, (("trace-1", "web"), path) ∈
      (taskContext "api").writes "a.py" ++ (taskContext "web").writes "b.py" ∧
        "workspace/b.py" = diffName path := by
  have hisolated := work_items_isolated fun _ _ => false
  have hapart : Apart apiAndWeb := by
    have hsafe : ∀ writer ∈ [("trace-1", "api"), ("trace-1", "web")],
        Artifact.safeId writer.1 = true ∧ Artifact.safeId writer.2 = true := by decide
    have hdistinct : ∀ writer ∈ [("trace-1", "api"), ("trace-1", "web")],
        ∀ other ∈ [("trace-1", "api"), ("trace-1", "web")],
          validRef (taskKey writer.1) (taskKey writer.2) = true → place writer = place other →
            writer = other := by decide
    have hintegration : ∀ writer ∈ [("trace-1", "api"), ("trace-1", "web")],
        validRef (taskKey writer.1) (taskKey writer.2) = true →
          taskKey writer.2 ≠ "integration" := by decide
    exact ⟨hsafe, hdistinct, hintegration⟩
  have hfresh : Fresh {} := ⟨rfl, rfl, fun _ _ => rfl, nofun, nofun, nofun⟩
  have hapi : (taskContext "api").key ∈ apiAndWeb := List.mem_cons_self
  have hweb : (taskContext "web").key ∈ apiAndWeb := List.mem_cons_of_mem _ List.mem_cons_self
  have hfirst : Run (fun _ _ => false) apiAndWeb _ _ :=
    .write _ _ (taskContext "api") "a.py" "A = 1" none (.start _ hfresh) hapi
  have hsecond := Run.write _ _ (taskContext "web") "b.py" "B = 1" none hfirst hweb
  have hfile : ((twoWrites "api" "web").changeSets.get? ("trace-1", "web")).any
      (fun change => change.changedFiles.contains "workspace/b.py") = true := by decide +kernel
  obtain ⟨change, hget, hmem⟩ := (Option.any_eq_true ..).mp hfile
  constructor
  · apply (hisolated.1 "trace-1" "api" "web" (by decide) (by decide) (by decide)).mpr
    unfold KeysDiffer
    decide
  · exact (hisolated.2 apiAndWeb hapart _ _ hsecond).1 ("trace-1", "web") change hget
      "workspace/b.py" (List.contains_iff_mem.mp hmem)

/-- A write that breaks off before its commit, a file published by others, a
refreshed baseline, and the write once more. -/
def movedBaseline : Staging :=
  let broken := (Staging.writeStagedFile (fun _ _ => false) {} (taskContext "api") "a.py" "A = 1"
    (some .fileWritten)).2
  let published : Staging := { broken with
    repo := { broken.repo with files := Dict.ofList [("workspace/b.py", "B = 1")] } }
  let refreshed := (published.refreshBaseline (fun _ _ => false) "trace-1" []).2
  (refreshed.writeStagedFile (fun _ _ => false) (taskContext "api") "a.py" "A = 2" none).2

theorem taskKey_longId {last : Char} (hlast : isEdge last = false) :
    taskKey (longId last) = String.ofList (List.replicate 80 'u') := by
  have hkept : ¬ isEdge last = true := by simp [hlast]
  rw [taskKey, longId, String.toList_ofList, List.rdropWhile_concat_neg _ _ _ hkept,
    List.take_left' List.length_replicate]

theorem safeId_longId {last : Char} (hlast : Text.isSafeChar last = true) :
    Artifact.safeId (longId last) = true := by
  have hrun : Text.isSafeChar 'u' = true := by decide
  have hfirst : Text.isAsciiLetter 'u' = true := by decide
  rw [Artifact.safeId, longId, String.toList_ofList]
  simp [List.replicate_succ, hrun, hfirst, hlast]

/-- A hyphen at the end, or a character after the eightieth, is lost: the second
work item commits the file of the first. A worktree taken up again under a newer
baseline lists the files of others. -/
theorem hyphen_shares_worktree :
    ¬NamesDiffer "trace-1" "api" "api-" ∧
      ¬NamesDiffer "trace-1" (longId 'a') (longId 'b') ∧
      ((twoWrites "api" "api-").changeSets.get? ("trace-1", "api-")).map (·.changedFiles) =
        some ["workspace/a.py", "workspace/b.py"] ∧
      (movedBaseline.changeSets.get? ("trace-1", "api")).map (·.changedFiles) =
        some ["workspace/a.py", "workspace/b.py"] := by
  refine ⟨?_, ?_, by decide +kernel, by decide +kernel⟩
  · rw [namesDiffer_iff (by decide) (by decide) (by decide)]
    unfold KeysDiffer
    decide
  · rw [namesDiffer_iff (by decide) (safeId_longId (by decide)) (safeId_longId (by decide))]
    unfold KeysDiffer
    rw [taskKey_longId (by decide), taskKey_longId (by decide)]
    decide +kernel

end Staging
end ProjectOS.Code
