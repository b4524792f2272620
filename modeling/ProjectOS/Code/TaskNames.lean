import ProjectOS.Artifact.Ref
import ProjectOS.Code.GitRepository

/-! The names of task worktrees. On an identifier that the services accept the
normalization drops the trailing dots and hyphens and keeps 80 characters, so
different identifiers may share a branch and a directory. -/
namespace ProjectOS.Code
open Base

def isEdge (c : Char) : Bool := c = '.' || c = '-'

/-- An identifier without trailing dots and hyphens, cut to 80 characters. -/
def taskKey (id : String) : String := String.ofList ((id.toList.rdropWhile isEdge).take 80)

/-- The directory of the worktree of a work item. -/
def place (writer : String × String) : String × String := (taskKey writer.1, taskKey writer.2)

theorem collapseRuns_of_all {keep : Char → Bool} {sub : Char} {cs : List Char}
    (h : ∀ c ∈ cs, keep c = true) (inRun : Bool) : Text.collapseRuns keep sub inRun cs = cs := by
  induction cs generalizing inRun with
  | nil => rfl
  | cons c cs ih =>
    unfold Text.collapseRuns
    rw [if_pos (h c List.mem_cons_self), ih fun c' hc' => h c' (List.mem_cons_of_mem _ hc')]

theorem isSafeChar_of_letter_or_digit {c : Char}
    (h : (Text.isAsciiLetter c || Text.isAsciiDigit c) = true) : Text.isSafeChar c = true := by
  simp only [Text.isAsciiLetter, Text.isAsciiDigit, Bool.or_eq_true, Bool.and_eq_true,
    decide_eq_true_eq] at h
  simp only [Text.isSafeChar, Bool.or_eq_true, Bool.and_eq_true, decide_eq_true_eq]
  tauto

theorem not_isEdge_of_letter_or_digit {c : Char}
    (h : (Text.isAsciiLetter c || Text.isAsciiDigit c) = true) : isEdge c = false := by
  unfold isEdge
  by_contra hedge
  rw [Bool.not_eq_false, Bool.or_eq_true, decide_eq_true_eq, decide_eq_true_eq] at hedge
  rcases hedge with rfl | rfl
  · exact absurd h (by decide)
  · exact absurd h (by decide)

theorem all_isSafeChar_of_safeId {id : String} (h : Artifact.safeId id = true) :
    ∀ c ∈ id.toList, Text.isSafeChar c = true := by
  unfold Artifact.safeId at h
  split at h
  · cases h
  · rename_i first rest hlist
    simp only [Bool.and_eq_true, decide_eq_true_eq] at h
    rw [hlist]
    intro c hc
    rcases List.mem_cons.mp hc with rfl | hrest
    · exact isSafeChar_of_letter_or_digit h.1.1
    · exact List.all_eq_true.mp h.2 c hrest

theorem exists_head_of_safeId {id : String} (h : Artifact.safeId id = true) :
    ∃ c rest, id.toList = c :: rest ∧ isEdge c = false := by
  unfold Artifact.safeId at h
  split at h
  · cases h
  · rename_i first rest hlist
    simp only [Bool.and_eq_true] at h
    exact ⟨first, rest, hlist, not_isEdge_of_letter_or_digit h.1.1⟩

theorem safeRefPart_of_safeId {id : String} (h : Artifact.safeId id = true) :
    safeRefPart id = .ok (taskKey id) := by
  obtain ⟨c, rest, hlist, hc⟩ := exists_head_of_safeId h
  have hcollapse : Text.collapse Text.isSafeChar '-' id = id := by
    simp [Text.collapse, collapseRuns_of_all (all_isSafeChar_of_safeId h)]
  have hdrop : id.toList.dropWhile isEdge = id.toList := by
    rw [hlist, List.dropWhile_cons, hc]
    rfl
  have hcleaned : Text.stripBy isEdge id = String.ofList (id.toList.rdropWhile isEdge) := by
    rw [Text.stripBy, Text.lstripBy, hdrop, String.ofList_toList, Text.rstripBy]
  have hne : Text.stripBy isEdge id ≠ "" := by
    rw [ne_eq, Text.stripBy_eq_empty_iff, List.all_eq_true]
    intro hedges
    have hedge := hedges c (by simp [hlist])
    rw [hc] at hedge
    cases hedge
  have hset : (fun c => decide (c = '.') || decide (c = '-')) = isEdge := rfl
  simp only [safeRefPart, hcollapse, hset, if_neg hne]
  rw [hcleaned]
  simp [taskKey]

theorem slash_not_mem_of_all {cs : List Char} (h : ∀ c ∈ cs, Text.isSafeChar c = true) :
    '/' ∉ cs := by
  intro hmem
  exact absurd (h '/' hmem) (by decide)

theorem slash_not_mem_taskKey {id : String} (h : Artifact.safeId id = true) :
    '/' ∉ (taskKey id).toList := by
  apply slash_not_mem_of_all
  intro c hc
  apply all_isSafeChar_of_safeId h
  have hmem : c ∈ id.toList.rdropWhile isEdge := List.mem_of_mem_take (by simpa [taskKey] using hc)
  exact (List.rdropWhile_prefix isEdge id.toList).subset hmem

theorem RefName.slash_not_mem (ref : RefName) : '/' ∉ ref.trace.toList := by
  apply slash_not_mem_of_all
  intro c hc
  have hvalid := ref.valid
  simp only [validRef, List.all_cons, Bool.and_eq_true] at hvalid
  exact List.all_eq_true.mp hvalid.1.1.1.1 c hc

theorem append_separator_inj {sep : Char} {xs xs' ys ys' : List Char} (hxs : sep ∉ xs)
    (hxs' : sep ∉ xs') (h : xs ++ sep :: ys = xs' ++ sep :: ys') : xs = xs' ∧ ys = ys' := by
  induction xs generalizing xs' with
  | nil =>
    cases xs' with
    | nil => simpa using h
    | cons x xs' =>
      simp only [List.nil_append, List.cons_append, List.cons.injEq] at h
      exact absurd h.1 fun heq => hxs' (heq ▸ List.mem_cons_self)
  | cons x xs ih =>
    cases xs' with
    | nil =>
      simp only [List.nil_append, List.cons_append, List.cons.injEq] at h
      exact absurd h.1 fun heq => hxs (heq ▸ List.mem_cons_self)
    | cons x' xs' =>
      simp only [List.cons_append, List.cons.injEq] at h
      simp only [List.mem_cons, not_or] at hxs hxs'
      have hrest := ih hxs.2 hxs'.2 h.2
      exact ⟨by rw [h.1, hrest.1], hrest.2⟩

/-- A branch name gives back its two parts. -/
theorem branchText_inj {a b a' b' : String} (ha : '/' ∉ a.toList) (ha' : '/' ∉ a'.toList) :
    branchText a b = branchText a' b' ↔ a = a' ∧ b = b' := by
  constructor
  · intro h
    have hlist := congrArg String.toList h
    simp only [branchText, String.toList_append, List.append_assoc, List.append_cancel_left_eq] at hlist
    have hslash : "/".toList = ['/'] := rfl
    rw [hslash, List.singleton_append, List.singleton_append] at hlist
    have hparts := append_separator_inj ha ha' hlist
    exact ⟨String.toList_inj.mp hparts.1, String.toList_inj.mp hparts.2⟩
  · rintro ⟨rfl, rfl⟩
    rfl

/-- The branch of a work item. -/
def branchOf (traceId workItemId : String) (baseCommit : Nat) : TaskBranch := {
  traceId := traceId
  workItemId := workItemId
  branchName := branchText (taskKey traceId) (taskKey workItemId)
  baseCommit := baseCommit
  worktreePath := place (traceId, workItemId) }

namespace GitRepository
variable {repo next : GitRepository} {traceId workItemId : String} {baseCommit : Nat}

/-- What creating a worktree can do: find it, check out its branch, or branch off. -/
inductive Created (repo : GitRepository) (traceId workItemId : String) (baseCommit : Nat) :
    GitRepository → Prop where
  | found (worktree : Worktree) (htrace : worktree.branch.trace = taskKey traceId)
      (hitem : worktree.branch.item = taskKey workItemId)
      (hget : repo.worktrees.get? (place (traceId, workItemId)) = some worktree) :
      Created repo traceId workItemId baseCommit repo
  | checkedOut (ref : RefName) (head : Nat) (htrace : ref.trace = taskKey traceId)
      (hitem : ref.item = taskKey workItemId)
      (hget : repo.worktrees.get? (place (traceId, workItemId)) = none)
      (hbranch : repo.branches.get? ref.text = some head) :
      Created repo traceId workItemId baseCommit { repo with
        worktrees := repo.worktrees.set (place (traceId, workItemId)) ⟨ref, repo.tree head⟩ }
  | branched (ref : RefName) (htrace : ref.trace = taskKey traceId)
      (hitem : ref.item = taskKey workItemId)
      (hget : repo.worktrees.get? (place (traceId, workItemId)) = none)
      (hbranch : repo.branches.get? ref.text = none) :
      Created repo traceId workItemId baseCommit { repo with
        branches := repo.branches.set ref.text baseCommit
        worktrees := repo.worktrees.set (place (traceId, workItemId)) ⟨ref, repo.tree baseCommit⟩ }

theorem createWorktree_eq_ok (ht : Artifact.safeId traceId = true)
    (hi : Artifact.safeId workItemId = true) {branch : TaskBranch} :
    repo.createWorktree traceId workItemId baseCommit = .ok (branch, next) ↔
      branch = branchOf traceId workItemId baseCommit ∧
        Created repo traceId workItemId baseCommit next := by
  unfold createWorktree
  rw [safeRefPart_of_safeId ht, safeRefPart_of_safeId hi]
  simp only [ok_bind]
  constructor
  · intro h
    split at h
    · rename_i worktree hget
      split at h
      · rename_i htext
        cases h
        have hparts := (branchText_inj worktree.branch.slash_not_mem
          (slash_not_mem_taskKey ht)).mp htext
        exact ⟨rfl, .found worktree hparts.1 hparts.2 hget⟩
      · cases h
    · rename_i hget
      split at h
      · rename_i hvalid
        split at h
        · rename_i head hbranch
          cases h
          exact ⟨rfl, .checkedOut ⟨_, _, hvalid⟩ head rfl rfl hget hbranch⟩
        · rename_i hbranch
          cases h
          exact ⟨rfl, .branched ⟨_, _, hvalid⟩ rfl rfl hget hbranch⟩
      · cases h
  · rintro ⟨rfl, hcreated⟩
    cases hcreated with
    | found worktree htrace hitem hget =>
      simp only [place] at hget
      simp [hget, RefName.text, htrace, hitem, branchOf, place]
    | checkedOut ref head htrace hitem hget hbranch =>
      obtain ⟨trace, item, hvalid⟩ := ref
      subst htrace hitem
      simp only [place] at hget
      simp only [RefName.text] at hbranch
      simp [hget, hvalid, hbranch, branchOf, place]
    | branched ref htrace hitem hget hbranch =>
      obtain ⟨trace, item, hvalid⟩ := ref
      subst htrace hitem
      simp only [place] at hget
      simp only [RefName.text] at hbranch
      simp [hget, hvalid, hbranch, branchOf, place, RefName.text]

theorem Created.commits (h : Created repo traceId workItemId baseCommit next) :
    next.commits = repo.commits := by
  cases h <;> rfl

theorem Created.valid (h : Created repo traceId workItemId baseCommit next) :
    validRef (taskKey traceId) (taskKey workItemId) = true := by
  cases h with
  | found worktree htrace hitem => exact htrace ▸ hitem ▸ worktree.branch.valid
  | checkedOut ref head htrace hitem => exact htrace ▸ hitem ▸ ref.valid
  | branched ref htrace hitem => exact htrace ▸ hitem ▸ ref.valid

end GitRepository

/-- Two work items of a trace never get one branch or one directory, whenever
and in whatever repository their worktrees are asked for. -/
def NamesDiffer (traceId a b : String) : Prop :=
  ∀ (repo repo' : GitRepository) (base base' : Nat) (created created' : TaskBranch × GitRepository),
    repo.createWorktree traceId a base = .ok created →
      repo'.createWorktree traceId b base' = .ok created' →
        created.1.branchName ≠ created'.1.branchName ∧
          created.1.worktreePath ≠ created'.1.worktreePath

/-- The normalized identifiers differ, unless Git has no such branch. -/
def KeysDiffer (traceId a b : String) : Prop :=
  validRef (taskKey traceId) (taskKey a) = true → taskKey a ≠ taskKey b

theorem namesDiffer_iff {traceId a b : String} (ht : Artifact.safeId traceId = true)
    (ha : Artifact.safeId a = true) (hb : Artifact.safeId b = true) :
    NamesDiffer traceId a b ↔ KeysDiffer traceId a b := by
  constructor
  · intro h hvalid hkey
    have hcreated (id : String) (hid : Artifact.safeId id = true) (hk : taskKey id = taskKey a) :
        ∃ next, GitRepository.createWorktree {} traceId id 0 = .ok (branchOf traceId id 0, next) :=
      ⟨_, (GitRepository.createWorktree_eq_ok ht hid).mpr
        ⟨rfl, .branched ⟨taskKey traceId, taskKey a, hvalid⟩ rfl hk.symm rfl rfl⟩⟩
    obtain ⟨next, hnext⟩ := hcreated a ha rfl
    obtain ⟨next', hnext'⟩ := hcreated b hb hkey.symm
    exact (h _ _ _ _ _ _ hnext hnext').1 (by simp [branchOf, hkey])
  · intro h repo repo' base base' created created' hc hc'
    obtain ⟨branch, next⟩ := created
    obtain ⟨branch', next'⟩ := created'
    obtain ⟨rfl, hcreated⟩ := (GitRepository.createWorktree_eq_ok ht ha).mp hc
    obtain ⟨rfl, -⟩ := (GitRepository.createWorktree_eq_ok ht hb).mp hc'
    have hkey := h hcreated.valid
    constructor
    · intro hname
      exact hkey ((branchText_inj (slash_not_mem_taskKey ht) (slash_not_mem_taskKey ht)).mp hname).2
    · intro hpath
      exact hkey (congrArg Prod.snd hpath)

end ProjectOS.Code
