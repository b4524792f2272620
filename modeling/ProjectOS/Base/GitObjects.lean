import ProjectOS.Base.Dict
import ProjectOS.Base.Text

/-! Trees and commits of a Git repository. A tree maps the path of each file to
its text; a commit is named by its place in the order of creation. -/
namespace ProjectOS.Base

abbrev Tree := Dict String String

namespace Tree

/-- The paths at which two trees differ, in code point order. -/
def changed (a b : Tree) : List String :=
  Text.sorted ((dedupe (a.keys ++ b.keys)).filter fun path => a.get? path != b.get? path)

/-- The file of `b` at a path, or none, put in place of the file of `a`. -/
def takePath (a b : Tree) (path : String) : Tree :=
  match b.get? path with
  | some text => a.set path text
  | none => a.erase path

/-- `a` with the files of `b` at the given paths. -/
def update (a b : Tree) (paths : List String) : Tree :=
  paths.foldl (fun tree path => tree.takePath b path) a

theorem mem_changed {a b : Tree} {path : String} :
    path ∈ changed a b ↔ a.get? path ≠ b.get? path := by
  simp only [changed, Text.mem_sorted, List.mem_filter, mem_dedupe, List.mem_append, bne_iff_ne]
  constructor
  · exact fun h => h.2
  · intro hne
    apply And.intro _ hne
    by_contra hmem
    simp only [not_or, ← Dict.get?_eq_none_iff] at hmem
    exact hne (hmem.1.trans hmem.2.symm)

theorem get?_takePath (a b : Tree) (path x : String) :
    (a.takePath b path).get? x = if x = path then b.get? x else a.get? x := by
  unfold takePath
  split
  · rename_i text h
    rw [Dict.get?_set]
    split
    · subst x
      exact h.symm
    · rfl
  · rename_i h
    rw [Dict.get?_erase]
    split
    · subst x
      exact h.symm
    · rfl

theorem get?_update (a b : Tree) (paths : List String) (x : String) :
    (a.update b paths).get? x = if x ∈ paths then b.get? x else a.get? x := by
  unfold update
  induction paths generalizing a with
  | nil => simp
  | cons path paths ih =>
    rw [List.foldl_cons, ih, get?_takePath]
    by_cases hmem : x ∈ paths
    · simp [hmem]
    · simp [hmem]

end Tree

structure Commit where
  tree : Tree
  parents : List Nat

abbrev History := List Commit

/-- The files of a commit. -/
def History.tree (history : History) (commit : Nat) : Tree :=
  match history[commit]? with
  | some entry => entry.tree
  | none => ∅

theorem History.tree_append (history extra : History) {commit : Nat}
    (h : commit < history.length) : History.tree (history ++ extra) commit = history.tree commit := by
  simp [History.tree, List.getElem?_append_left h]

@[simp] theorem History.tree_snoc (history : History) (entry : Commit) :
    History.tree (history ++ [entry]) history.length = entry.tree := by
  simp [History.tree]

/-! Paths in the output of `git status` and `git diff`. -/

/-- A byte of a path between quotation marks. -/
def escapedByte (byte : UInt8) : List Char :=
  let n := byte.toNat
  let escape (c : Char) : List Char := [Text.backslash, c]
  if n = 7 then escape 'a'
  else if n = 8 then escape 'b'
  else if n = 9 then escape 't'
  else if n = 10 then escape 'n'
  else if n = 11 then escape 'v'
  else if n = 12 then escape 'f'
  else if n = 13 then escape 'r'
  else if n = 34 || n = 92 then escape (Char.ofNat n)
  else if n < 32 || 126 < n then
    [Text.backslash, Nat.digitChar (n / 64), Nat.digitChar (n / 8 % 8), Nat.digitChar (n % 8)]
  else [Char.ofNat n]

def quotedPath (path : String) : String :=
  String.ofList ([Text.quotationMark] ++
    (path.toList.flatMap String.utf8EncodeChar).flatMap escapedByte ++ [Text.quotationMark])

/-- A control or non-ASCII character, a quotation mark or a backslash. -/
def isQuoted (path : String) : Bool :=
  path.toList.any fun c =>
    c.toNat < 32 || 126 < c.toNat || c = Text.quotationMark || c = Text.backslash

/-- A path as `git diff --name-only` prints it. -/
def diffName (path : String) : String := if isQuoted path then quotedPath path else path

/-- A path as `git status --porcelain=v1` prints it: a space is enough for quotation marks. -/
def statusName (path : String) : String :=
  if isQuoted path || path.toList.contains ' ' then quotedPath path else path

example : diffName "中.py" = "\"\\344\\270\\255.py\"" := by decide

end ProjectOS.Base
