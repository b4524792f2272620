import ProjectOS.Base.Dict
import ProjectOS.Base.Glob
import ProjectOS.Base.PurePath

/-! A worktree on the disk, what `pathlib` finds in it, and its Python files as the delivery
gates read them. -/
namespace ProjectOS.Code
open Base

/-- A name that a folder can hold. -/
def isPart (part : String) : Bool := part ∉ ["", ".", ".."] && '/' ∉ part.toList

/-- `path` lies below the folder. -/
def below (folder path : List String) : Bool := folder.isPrefixOf path && folder ≠ path

/-- The files with their texts, none for one that is not UTF-8, and the folders that may be
empty. -/
structure Checkout where
  files : Dict (List String) (Option String) := ∅
  folders : List (List String) := []
  named : ∀ path ∈ files.keys, path ≠ [] ∧ ∀ part ∈ path, isPart part = true
  apart : ∀ file ∈ files.keys, (∀ path ∈ files.keys, below file path = false) ∧
    ∀ folder ∈ folders, file.isPrefixOf folder = false

namespace Checkout
variable (checkout : Checkout)

def isFile (path : List String) : Bool := (checkout.files.get? path).isSome

def isDir (path : List String) : Bool :=
  checkout.files.keys.any (below path) || checkout.folders.any (path.isPrefixOf ·)

/-- Every file and folder. -/
def nodes : List (List String) := (checkout.files.keys ++ checkout.folders).flatMap List.inits

/-- The components of a path against those of a pattern. -/
def matchParts : List String → List String → Bool
  | [], path => path = []
  | part :: rest, path =>
      if part = "**" then path.tails.any (matchParts rest)
      else
        match path with
        | [] => false
        | name :: path => Glob.fnmatch name part && matchParts rest path

/-- `root.glob(pattern)`. -/
def glob (root : List String) (pattern : String) : List (List String) :=
  checkout.nodes.filter fun node =>
    root.isPrefixOf node && matchParts (PurePath.parts pattern) (node.drop root.length)

/-- `path.read_text(encoding="utf-8")`. -/
def readText (path : List String) : Except String String :=
  match checkout.files.get? path with
  | none => .error "No such file or directory"
  | some none => .error "codec can't decode bytes"
  | some (some text) => .ok (Text.readText text)

section Lemmas
variable {checkout}

theorem isFile_of_mem {path : List String} (h : path ∈ checkout.files.keys) :
    checkout.isFile path = true := by
  obtain ⟨text, htext⟩ := Dict.mem_keys_iff.mp h
  rw [isFile, htext]
  rfl

theorem not_isDir_of_mem {path : List String} (h : path ∈ checkout.files.keys) :
    checkout.isDir path = false := by
  obtain ⟨hfiles, hfolders⟩ := checkout.apart path h
  rw [isDir, Bool.or_eq_false_iff, List.any_eq_false, List.any_eq_false]
  exact ⟨fun file hfile => by simp [hfiles file hfile],
    fun folder hfolder => by simp [hfolders folder hfolder]⟩

theorem below_append {folder tail : List String} (h : tail ≠ []) :
    below folder (folder ++ tail) = true := by
  simp [below, h, List.isPrefixOf_iff_prefix]

theorem isDir_of_mem {folder tail : List String} (htail : tail ≠ [])
    (h : folder ++ tail ∈ checkout.files.keys) : checkout.isDir folder = true := by
  rw [isDir, Bool.or_eq_true_iff, List.any_eq_true]
  exact Or.inl ⟨folder ++ tail, h, below_append htail⟩

theorem mem_nodes_of_mem {folder tail : List String} (h : folder ++ tail ∈ checkout.files.keys) :
    folder ∈ checkout.nodes := by
  rw [nodes, List.mem_flatMap]
  exact ⟨folder ++ tail, List.mem_append_left _ h,
    (List.mem_inits _ _).mpr (List.prefix_append folder tail)⟩

/-- Parts without special characters match themselves. -/
theorem matchParts_append {plain : List String}
    (h : ∀ part ∈ plain, part.toList.any Glob.isSpecial = false) (rest path : List String) :
    matchParts (plain ++ rest) (plain ++ path) = matchParts rest path := by
  induction plain with
  | nil => rfl
  | cons part plain ih =>
    have hpart := h part List.mem_cons_self
    have hstars : part ≠ "**" := by
      rintro rfl
      exact absurd hpart (by decide)
    rw [List.cons_append, List.cons_append, matchParts, if_neg hstars,
      Glob.fnmatch_of_plain hpart, ih fun p hp => h p (List.mem_cons_of_mem _ hp)]
    simp

theorem matchParts_stars_nil : matchParts ["**"] [] = true := by decide

end Lemmas

end Checkout

/-- A statement in the body of a class. -/
inductive ClassMember where
  | function (name : String)
  | assign (targets : List (Option String))
  | other

/-- What `ast.walk` yields, as far as the gates look at it; a target or a called function that
is no plain name is none. -/
inductive PyNode where
  | function (name : String)
  | classDef (name : String) (body : List ClassMember)
  | assign (targets : List (Option String))
  | annAssign (target : Option String)
  | call (function : Option String)
  | other

/-- What `ast.parse` returns or raises. -/
inductive Parsed where
  | tree (nodes : List PyNode)
  | syntaxError (message : String)
  | valueError (message : String)

end ProjectOS.Code
