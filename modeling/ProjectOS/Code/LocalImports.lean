import ProjectOS.Base.PurePath
import ProjectOS.Base.Dict

/-! The import gate of an integration. It resolves relative imports from the
directory of the file that its first loop happened to end with. -/
namespace ProjectOS.Code
open Base

/-- An import in a syntax tree; dotted names component by component, none as the
empty list. -/
inductive ImportNode where
  | importNames (names : List (List String))
  | importFrom (level : Nat) (module : List String)
deriving DecidableEq, Repr

/-- What `rglob("*.py")` yields: a path below the workspace, and the imports of
the file in the order of the walk when it can be read and parsed. -/
structure Source where
  path : List String
  isFile : Bool := true
  nodes : Option (List ImportNode) := some []
deriving DecidableEq

structure Issue where
  path : List String
  beyond : Bool
  node : ImportNode
deriving DecidableEq

namespace ImportNode

/-- An import the gate looks at: relative to a named module, or below `app` or `backend`. -/
def isLocal : ImportNode → Bool
  | importNames _ => false
  | importFrom level module =>
      module ≠ [] && (0 < level || match module with
        | "backend" :: _ :: _ => true
        | "app" :: _ :: _ => true
        | _ => false)

def dotted : ImportNode → String
  | importNames names => Text.join ", " (names.map (Text.join "."))
  | importFrom level module =>
      String.ofList (List.replicate level '.') ++ Text.join "." module

end ImportNode

def Issue.text (issue : Issue) : String :=
  Text.join "/" issue.path ++
    (if issue.beyond then " 的相对导入越过项目边界: " else " 引用了不存在的本地模块 ") ++
    issue.node.dotted

namespace Source

/-- `source.parent`. -/
def package (source : Source) : List String := source.path.dropLast

/-- The module a file is; a package for its `__init__`. -/
def moduleParts (source : Source) : List String :=
  let stem := PurePath.stemOf (source.path.getLastD "")
  if stem = "__init__" then source.package else source.package ++ [stem]

end Source

/-- The table of module names: each file with every parent package. -/
def moduleNames (sources : List Source) : List String :=
  sources.flatMap fun source =>
    (source.moduleParts.inits.filter (· ≠ [])).map (Text.join ".")

/-- `candidate_module in modules or (root / (candidate + ".py")).is_file()`. -/
def listed (sources : List Source) (target : List String) : Bool :=
  let candidateModule := Text.join "." target
  let candidate := Text.replaceChar '.' '/' candidateModule
  (moduleNames sources).contains candidateModule ||
    sources.any fun source => source.isFile && source.path = PurePath.parts (candidate ++ ".py")

/-- The body of the second loop, with the package the loop works with. -/
def judge (sources : List Source) (package : List String) (source : Source) :
    ImportNode → Option Issue
  | .importNames _ => none
  | .importFrom level module =>
      let missing (target : List String) : Option Issue :=
        if listed sources target then none
        else some ⟨source.path, false, .importFrom level module⟩
      if module = [] then none
      else if 0 < level then
        if package.length < level then some ⟨source.path, true, .importFrom level module⟩
        else missing (package.take (package.length - (level - 1)) ++ module)
      else
        match module with
        | "backend" :: _ :: _ => missing module
        | "app" :: _ :: _ => missing ("backend" :: module)
        | _ => none

/-- The issues of a workspace enumerated in the given order. -/
def importIssues (sources : List Source) : List Issue :=
  match sources.getLast? with
  | none => []
  | some last =>
      sources.flatMap fun source =>
        (source.nodes.getD []).filterMap (judge sources last.package source)

/-- `_validate_local_imports`. -/
def validateLocalImports (sources : List Source) : List String :=
  dedupe ((importIssues sources).map (·.text))

/-! How Python resolves an import. -/

/-- The module an import names, from a file of the package. -/
def resolve (package : List String) : ImportNode → Option (List String)
  | .importNames _ => none
  | .importFrom level module =>
      if 0 < level then
        if level ≤ package.length then some (package.take (package.length + 1 - level) ++ module)
        else none
      else if module.head? = some "app" then some ("backend" :: module)
      else some module

/-- A file, or a package with a file below it, is the module. -/
def Provides (sources : List Source) (target : List String) : Prop :=
  ∃ source ∈ sources, source.isFile = true ∧
    ((target ≠ [] ∧ target <+: source.moduleParts) ∨
      source.path = target.dropLast ++ [target.getLastD "" ++ ".py"])

/-- From the package the import names a module of the workspace. -/
def Finds (sources : List Source) (package : List String) (node : ImportNode) : Prop :=
  ∃ target, resolve package node = some target ∧ Provides sources target

/-- From the package the import names what the table or a file name lists. -/
def Sees (sources : List Source) (package : List String) (node : ImportNode) : Prop :=
  ∃ target, resolve package node = some target ∧ listed sources target = true

/-- The judgement each import deserves: local, and no module from its own file. -/
def Wrong (sources : List Source) (source : Source) (node : ImportNode) : Prop :=
  node.isLocal = true ∧ ¬Finds sources source.package node

def Reported (sources : List Source) (source : Source) (node : ImportNode) : Prop :=
  ∃ issue ∈ importIssues sources, issue.path = source.path ∧ issue.node = node

/-- Python files by their paths. -/
structure Workspace where
  sources : List Source
  nodup : (sources.map (·.path)).Nodup

namespace Workspace

/-- The same files, in another order. -/
def Enumerates (order workspace : Workspace) : Prop := order.sources.Perm workspace.sources

/-- In every order the gate reports exactly the wrong imports. -/
def JudgedRight (workspace : Workspace) : Prop :=
  ∀ order : Workspace, order.Enumerates workspace → ∀ source ∈ workspace.sources,
    ∀ node ∈ source.nodes.getD [],
      Reported order.sources source node ↔ Wrong workspace.sources source node

/-- Each local import is listed from the directory of every Python file exactly
when it finds a module from its own. -/
def DirectoriesAgree (workspace : Workspace) : Prop :=
  ∀ source ∈ workspace.sources, ∀ node ∈ source.nodes.getD [], node.isLocal = true →
    ∀ last ∈ workspace.sources,
      Sees workspace.sources last.package node ↔ Finds workspace.sources source.package node

end Workspace

theorem moduleNames_perm {a b : List Source} (h : a.Perm b) {name : String} :
    name ∈ moduleNames a ↔ name ∈ moduleNames b := by
  simp only [moduleNames, List.mem_flatMap, h.mem_iff]

theorem listed_perm {a b : List Source} (h : a.Perm b) (target : List String) :
    listed a target = listed b target := by
  unfold listed
  have hnames : (moduleNames a).contains (Text.join "." target) =
      (moduleNames b).contains (Text.join "." target) := by
    rw [Bool.eq_iff_iff, List.contains_iff_mem, List.contains_iff_mem, moduleNames_perm h]
  dsimp only
  rw [hnames, h.any_eq]

theorem sees_perm {a b : List Source} (h : a.Perm b) {package : List String} {node : ImportNode} :
    Sees a package node ↔ Sees b package node := by
  simp only [Sees, listed_perm h]

theorem sees_of_resolve {sources : List Source} {package target : List String} {node : ImportNode}
    (h : resolve package node = some target) :
    Sees sources package node ↔ listed sources target = true := by
  simp [Sees, h]

/-- A target that is judged is reported when it is not listed. -/
theorem missing_isSome {sources : List Source} {target : List String} {issue : Issue} :
    (if listed sources target then none else some issue).isSome = true ↔
      ¬listed sources target = true := by
  cases listed sources target <;> simp

/-- The loop body reports a local import that sees nothing from the package it is given. -/
theorem judge_isSome_iff {sources : List Source} {package : List String} {source : Source}
    {node : ImportNode} :
    (judge sources package source node).isSome = true ↔
      node.isLocal = true ∧ ¬Sees sources package node := by
  cases node with
  | importNames names => simp [judge, ImportNode.isLocal]
  | importFrom level module =>
    unfold judge
    dsimp only
    split
    · rename_i hempty
      simp [ImportNode.isLocal, hempty]
    · rename_i hmodule
      split
      · rename_i hlevel
        have hlocal : (ImportNode.importFrom level module).isLocal = true := by
          simp [ImportNode.isLocal, hmodule, hlevel]
        split
        · rename_i hbeyond
          have hresolve : resolve package (.importFrom level module) = none := by
            simp only [resolve, if_pos hlevel, if_neg (Nat.not_le.mpr hbeyond)]
          simp [hlocal, Sees, hresolve]
        · rename_i hwithin
          have hle : level ≤ package.length := Nat.le_of_not_lt hwithin
          have htake : package.length - (level - 1) = package.length + 1 - level := by omega
          have hresolve : resolve package (.importFrom level module) =
              some (package.take (package.length + 1 - level) ++ module) := by
            simp only [resolve, if_pos hlevel, if_pos hle]
          rw [missing_isSome, sees_of_resolve hresolve, htake]
          simp [hlocal]
      · rename_i hlevel
        obtain rfl : level = 0 := by omega
        split
        · rename_i head tail
          have hresolve : resolve package (.importFrom 0 ("backend" :: head :: tail)) =
              some ("backend" :: head :: tail) := by simp [resolve]
          rw [missing_isSome, sees_of_resolve hresolve]
          simp [ImportNode.isLocal]
        · rename_i head tail
          have hresolve : resolve package (.importFrom 0 ("app" :: head :: tail)) =
              some ("backend" :: "app" :: head :: tail) := by simp [resolve]
          rw [missing_isSome, sees_of_resolve hresolve]
          simp [ImportNode.isLocal]
        · rename_i hbackend happ
          have hlocal : (ImportNode.importFrom 0 module).isLocal = false := by
            simp only [ImportNode.isLocal, Nat.lt_irrefl, decide_false, Bool.false_or, Bool.and_false]
          simp [hlocal]

theorem judge_eq_some {sources : List Source} {package : List String} {source : Source}
    {node : ImportNode} {issue : Issue} (h : judge sources package source node = some issue) :
    issue.path = source.path ∧ issue.node = node := by
  cases node with
  | importNames names => cases h
  | importFrom level module =>
    unfold judge at h
    dsimp only at h
    repeat' split at h
    all_goals cases h
    all_goals exact ⟨rfl, rfl⟩

theorem reported_iff {sources : List Source} (hnodup : (sources.map (·.path)).Nodup) {last : Source}
    (hlast : sources.getLast? = some last) {source : Source} (hsource : source ∈ sources)
    {node : ImportNode} (hnode : node ∈ source.nodes.getD []) :
    Reported sources source node ↔ node.isLocal = true ∧ ¬Sees sources last.package node := by
  rw [← @judge_isSome_iff _ _ source]
  unfold Reported importIssues
  rw [hlast]
  simp only [List.mem_flatMap, List.mem_filterMap]
  constructor
  · rintro ⟨issue, ⟨other, hother, node', hnode', hjudge⟩, hpath, hnames⟩
    have heq := judge_eq_some hjudge
    have hsame : other = source :=
      List.inj_on_of_nodup_map hnodup hother hsource (heq.1.symm.trans hpath)
    have hnodes : node' = node := heq.2.symm.trans hnames
    rw [← hsame, ← hnodes, hjudge]
    rfl
  · intro hsome
    obtain ⟨issue, hissue⟩ := Option.isSome_iff_exists.mp hsome
    exact ⟨issue, ⟨source, hsource, node, hnode, hissue⟩, judge_eq_some hissue⟩

namespace Workspace
variable {workspace order : Workspace}

theorem reported_iff_of_enumerates (h : order.Enumerates workspace) {last : Source}
    (hlast : order.sources.getLast? = some last) {source : Source}
    (hsource : source ∈ workspace.sources) {node : ImportNode}
    (hnode : node ∈ source.nodes.getD []) :
    Reported order.sources source node ↔
      node.isLocal = true ∧ ¬Sees workspace.sources last.package node := by
  rw [reported_iff order.nodup hlast (h.mem_iff.mpr hsource) hnode, sees_perm h]

/-- Any file can be the last one. -/
theorem exists_enumeration {last : Source} (h : last ∈ workspace.sources) :
    ∃ order : Workspace, order.Enumerates workspace ∧ order.sources.getLast? = some last := by
  have hperm : (workspace.sources.erase last ++ [last]).Perm workspace.sources :=
    (List.perm_append_singleton last _).trans (List.perm_cons_erase h).symm
  refine ⟨⟨workspace.sources.erase last ++ [last], ?_⟩, hperm, by simp⟩
  exact (hperm.map _).nodup_iff.mpr workspace.nodup

/-- The gate judges every import by its own file, whatever the order, exactly
when no import depends on the directory it is resolved from. -/
theorem judgedRight_iff : workspace.JudgedRight ↔ workspace.DirectoriesAgree := by
  constructor
  · intro h source hsource node hnode hlocal last hlast
    obtain ⟨order, henum, hget⟩ := exists_enumeration hlast
    have hverdict := h order henum source hsource node hnode
    rw [reported_iff_of_enumerates henum hget hsource hnode, Wrong] at hverdict
    have hnot := and_congr_right_iff.mp hverdict hlocal
    exact not_iff_not.mp hnot
  · intro h order henum source hsource node hnode
    have hmem : source ∈ order.sources := henum.mem_iff.mpr hsource
    obtain ⟨last, hget⟩ := Option.isSome_iff_exists.mp
      (List.getLast?_isSome.mpr (List.ne_nil_of_mem hmem))
    have hlast : last ∈ workspace.sources := henum.mem_iff.mp (List.mem_of_getLast? hget)
    rw [reported_iff_of_enumerates henum hget hsource hnode, Wrong]
    apply and_congr_right
    intro hlocal
    exact not_congr (h source hsource node hnode hlocal last hlast)

end Workspace

/-! Names without dots. On them the table says what the workspace provides. -/

/-- A name that a module can have. -/
def isName (part : String) : Bool := part ≠ "" && !part.toList.contains '.' && !part.toList.contains '/'

/-- A target Python can look up. -/
def IsTarget (target : List String) : Prop := target ≠ [] ∧ ∀ part ∈ target, isName part = true

theorem isName_iff {part : String} :
    isName part = true ↔ part ≠ "" ∧ '.' ∉ part.toList ∧ '/' ∉ part.toList := by
  simp [isName, and_assoc]

theorem join_dot_inj {a b : List String} (ha : IsTarget a) (hb : IsTarget b)
    (h : Text.join "." a = Text.join "." b) : a = b := by
  have hsplit {c : List String} (hc : IsTarget c) : Text.split '.' (Text.join "." c) = c :=
    Text.split_join hc.1 fun part hpart => (isName_iff.mp (hc.2 part hpart)).2.1
  rw [← hsplit ha, h, hsplit hb]

theorem replaceChar_of_not_mem {a b : Char} {s : String} (h : a ∉ s.toList) :
    Text.replaceChar a b s = s := by
  unfold Text.replaceChar
  have hmap : s.toList.map (fun c => if c = a then b else c) = s.toList.map id := by
    apply List.map_congr_left
    intro c hc
    apply if_neg
    rintro rfl
    exact h hc
  rw [hmap, List.map_id, String.ofList_toList]

theorem replaceChar_append (a b : Char) (s t : String) :
    Text.replaceChar a b (s ++ t) = Text.replaceChar a b s ++ Text.replaceChar a b t := by
  simp [Text.replaceChar]

theorem replace_dots {target : List String} (h : ∀ part ∈ target, isName part = true) :
    Text.replaceChar '.' '/' (Text.join "." target) = Text.join "/" target := by
  induction target with
  | nil => rfl
  | cons part target ih =>
    have hpart := replaceChar_of_not_mem (b := '/') (isName_iff.mp (h part List.mem_cons_self)).2.1
    cases target with
    | nil => simpa [Text.join] using hpart
    | cons next target =>
      have hrest := ih fun p hp => h p (List.mem_cons_of_mem _ hp)
      unfold Text.join at hrest ⊢
      rw [String.intercalate_cons_cons, String.intercalate_cons_cons, replaceChar_append,
        replaceChar_append, hpart, hrest]
      rfl

/-- The path of a module as a file. -/
def filePath (target : List String) : List String :=
  target.dropLast ++ [target.getLastD "" ++ ".py"]

theorem join_append_suffix {target : List String} (h : target ≠ []) (suffix : String) :
    Text.join "/" target ++ suffix =
      Text.join "/" (target.dropLast ++ [target.getLastD "" ++ suffix]) := by
  induction target with
  | nil => exact absurd rfl h
  | cons part target ih =>
    cases target with
    | nil => simp [Text.join]
    | cons next target =>
      have hrest := ih (List.cons_ne_nil _ _)
      unfold Text.join at hrest ⊢
      rw [String.intercalate_cons_cons, String.append_assoc, hrest, List.dropLast_cons_cons,
        List.cons_append, String.intercalate_cons_of_ne_nil (by simp)]
      rfl

theorem parts_filePath {target : List String} (h : IsTarget target) :
    PurePath.parts (Text.replaceChar '.' '/' (Text.join "." target) ++ ".py") = filePath target := by
  have hname : ∀ part ∈ filePath target, part ≠ "" ∧ part ≠ "." ∧ '/' ∉ part.toList := by
    intro part hpart
    rcases List.mem_append.mp hpart with hinit | hlast
    · obtain ⟨hne, hdot, hslash⟩ := isName_iff.mp (h.2 part (List.mem_of_mem_dropLast hinit))
      refine ⟨hne, ?_, hslash⟩
      rintro rfl
      exact hdot (by decide)
    · rw [List.mem_singleton.mp hlast]
      have hmem : target.getLastD "" ∈ target := by
        rw [List.getLastD_eq_getLast?, List.getLast?_eq_some_getLast h.1]
        exact List.getLast_mem h.1
      obtain ⟨hne, hdot, hslash⟩ := isName_iff.mp (h.2 _ hmem)
      have hlist : (target.getLastD "" ++ ".py").toList =
          (target.getLastD "").toList ++ ['.', 'p', 'y'] := String.toList_append
      have hlength : 3 ≤ (target.getLastD "" ++ ".py").toList.length := by
        rw [hlist, List.length_append]
        exact Nat.le_add_left _ _
      refine ⟨?_, ?_, ?_⟩
      · intro heq
        rw [heq] at hlength
        exact absurd hlength (by decide)
      · intro heq
        rw [heq] at hlength
        exact absurd hlength (by decide)
      · rw [hlist, List.mem_append]
        rintro (hmem | hmem)
        · exact hslash hmem
        · exact absurd hmem (by decide)
  have hslash : Text.split '/' (Text.join "/" (filePath target)) = filePath target := by
    apply Text.split_join (by simp [filePath])
    exact fun part hpart => (hname part hpart).2.2
  rw [replace_dots h.2, join_append_suffix h.1]
  unfold PurePath.parts
  rw [show target.dropLast ++ [target.getLastD "" ++ ".py"] = filePath target from rfl, hslash,
    List.filter_eq_self]
  intro part hpart
  simp [(hname part hpart).1, (hname part hpart).2.1]

/-- Python files whose modules have names. -/
def WellNamed (sources : List Source) : Prop :=
  ∀ source ∈ sources, source.isFile = true ∧ ∀ part ∈ source.moduleParts, isName part = true

/-- Where names have no dots the table lists what the workspace provides. -/
theorem listed_iff_provides {sources : List Source} (hnamed : WellNamed sources)
    {target : List String} (htarget : IsTarget target) :
    listed sources target = true ↔ Provides sources target := by
  unfold listed Provides
  simp only [Bool.or_eq_true, List.contains_iff_mem, List.any_eq_true, Bool.and_eq_true,
    decide_eq_true_eq, parts_filePath htarget, moduleNames, List.mem_flatMap, List.mem_map,
    List.mem_filter, List.mem_inits, ne_eq, decide_not, Bool.not_eq_true', decide_eq_false_iff_not]
  constructor
  · rintro (⟨source, hsource, pre, ⟨hgrown, hne⟩, hjoin⟩ | ⟨source, hsource, hfile, hpath⟩)
    · obtain ⟨hfile, hparts⟩ := hnamed source hsource
      have hpre : IsTarget pre := ⟨hne, fun part hpart => hparts part (hgrown.subset hpart)⟩
      have heq : pre = target := join_dot_inj hpre htarget hjoin
      exact ⟨source, hsource, hfile, .inl ⟨htarget.1, heq ▸ hgrown⟩⟩
    · exact ⟨source, hsource, hfile, .inr hpath⟩
  · rintro ⟨source, hsource, hfile, ⟨hne, hgrown⟩ | hpath⟩
    · exact .inl ⟨source, hsource, target, ⟨hgrown, hne⟩, rfl⟩
    · exact .inr ⟨source, hsource, hfile, hpath⟩

/-- The parts of a named module. -/
def ImportNode.named : ImportNode → Prop
  | .importNames _ => True
  | .importFrom _ module => ∀ part ∈ module, isName part = true

theorem isTarget_of_resolve {package target : List String} {node : ImportNode}
    (hlocal : node.isLocal = true) (hnode : node.named)
    (hpackage : ∀ part ∈ package, isName part = true) (h : resolve package node = some target) :
    IsTarget target := by
  cases node with
  | importNames names => cases h
  | importFrom level module =>
    have hmodule : module ≠ [] := by
      rintro rfl
      simp [ImportNode.isLocal] at hlocal
    simp only [resolve] at h
    split at h
    · split at h
      · cases h
        refine ⟨by simp [hmodule], fun part hpart => ?_⟩
        rcases List.mem_append.mp hpart with htake | hmem
        · exact hpackage part (List.mem_of_mem_take htake)
        · exact hnode part hmem
      · cases h
    · split at h
      · cases h
        refine ⟨List.cons_ne_nil _ _, fun part hpart => ?_⟩
        rcases List.mem_cons.mp hpart with rfl | hmem
        · decide
        · exact hnode part hmem
      · cases h
        exact ⟨hmodule, hnode⟩

theorem package_named {sources : List Source} (hnamed : WellNamed sources) {source : Source}
    (h : source ∈ sources) : ∀ part ∈ source.package, isName part = true := by
  intro part hpart
  apply (hnamed source h).2
  unfold Source.moduleParts
  dsimp only
  split
  · exact hpart
  · exact List.mem_append_left _ hpart

theorem sees_iff_finds {sources : List Source} (hnamed : WellNamed sources) {package : List String}
    (hpackage : ∀ part ∈ package, isName part = true) {node : ImportNode}
    (hlocal : node.isLocal = true) (hnode : node.named) :
    Sees sources package node ↔ Finds sources package node := by
  unfold Sees Finds
  apply exists_congr
  intro target
  apply and_congr_right
  intro hresolve
  exact listed_iff_provides hnamed (isTarget_of_resolve hlocal hnode hpackage hresolve)

/-- Where names have no dots, what can go wrong is a relative import that finds a
module from its own directory and none from another, or the other way round. -/
theorem directoriesAgree_iff {workspace : Workspace} (hnamed : WellNamed workspace.sources)
    (hnodes : ∀ source ∈ workspace.sources, ∀ node ∈ source.nodes.getD [], node.named) :
    workspace.DirectoriesAgree ↔ ∀ source ∈ workspace.sources, ∀ node ∈ source.nodes.getD [],
      node.isLocal = true → ∀ last ∈ workspace.sources,
        Finds workspace.sources last.package node ↔ Finds workspace.sources source.package node := by
  have hsees {source last : Source} (hsource : source ∈ workspace.sources) {node : ImportNode}
      (hnode : node ∈ source.nodes.getD []) (hlocal : node.isLocal = true)
      (hlast : last ∈ workspace.sources) : Sees workspace.sources last.package node ↔
        Finds workspace.sources last.package node :=
    sees_iff_finds hnamed (package_named hnamed hlast) hlocal (hnodes source hsource node hnode)
  constructor
  · intro h source hsource node hnode hlocal last hlast
    rw [← hsees hsource hnode hlocal hlast]
    exact h source hsource node hnode hlocal last hlast
  · intro h source hsource node hnode hlocal last hlast
    rw [hsees hsource hnode hlocal hlast]
    exact h source hsource node hnode hlocal last hlast

/-! A file that does not provide the module an import names. -/

def Unrelated (added source : Source) (node : ImportNode) : Prop :=
  ∀ target, resolve source.package node = some target → ¬Provides [added] target

theorem provides_cons {added : Source} {sources : List Source} {target : List String} :
    Provides (added :: sources) target ↔ Provides [added] target ∨ Provides sources target := by
  simp [Provides]

theorem wrong_of_unrelated {added source : Source} {sources larger : List Source}
    {node : ImportNode} (hlarger : larger.Perm (added :: sources))
    (h : Unrelated added source node) : Wrong larger source node ↔ Wrong sources source node := by
  have hprovides {target : List String} :
      Provides larger target ↔ Provides (added :: sources) target := by
    simp only [Provides, hlarger.mem_iff]
  have hfinds : Finds larger source.package node ↔ Finds sources source.package node := by
    unfold Finds
    apply exists_congr
    intro target
    apply and_congr_right
    intro hresolve
    rw [hprovides, provides_cons, or_iff_right (h target hresolve)]
  simp only [Wrong, hfinds]

/-- The gate judges every import by its own file in every order exactly when the
directories agree; where they do, files it does not name change no verdict. -/
theorem local_imports_judged (workspace : Workspace) :
    (workspace.JudgedRight ↔ workspace.DirectoriesAgree) ∧
    ∀ (larger order order' : Workspace) (added : Source),
      larger.sources.Perm (added :: workspace.sources) → workspace.DirectoriesAgree →
        larger.DirectoriesAgree → order.Enumerates workspace → order'.Enumerates larger →
          ∀ source ∈ workspace.sources, ∀ node ∈ source.nodes.getD [],
            Unrelated added source node →
              (Reported order'.sources source node ↔ Reported order.sources source node) := by
  refine ⟨Workspace.judgedRight_iff, ?_⟩
  intro larger order order' added hperm hright hright' henum henum' source hsource node
    hnode hunrelated
  have hmem : source ∈ larger.sources := hperm.mem_iff.mpr (List.mem_cons_of_mem _ hsource)
  rw [Workspace.judgedRight_iff.mpr hright order henum source hsource node hnode,
    Workspace.judgedRight_iff.mpr hright' order' henum' source hmem node hnode]
  exact wrong_of_unrelated hperm hunrelated

def apiSource : Source := {
  path := ["backend", "app", "api", "main.py"]
  nodes := some [.importFrom 1 ["models"]] }

def modelsSource : Source := { path := ["backend", "app", "api", "models.py"] }

def testSource : Source := { path := ["tests", "test_main.py"] }

/-- A package whose import is resolved from its own directory or from none. -/
def apiWorkspace : Workspace := ⟨[apiSource, modelsSource], by decide⟩

theorem models_found {sources : List Source} (h : modelsSource ∈ sources) :
    Finds sources ["backend", "app", "api"] (.importFrom 1 ["models"]) :=
  ⟨["backend", "app", "api", "models"], by decide, modelsSource, h, rfl,
    .inl ⟨by decide, by decide⟩⟩

theorem apiWorkspace_judgedRight : apiWorkspace.JudgedRight := by
  apply (local_imports_judged apiWorkspace).1.mpr
  have hpackage : ∀ source ∈ apiWorkspace.sources, source.package = ["backend", "app", "api"] := by
    decide
  have hnodes : ∀ source ∈ apiWorkspace.sources, ∀ node ∈ source.nodes.getD [],
      node = .importFrom 1 ["models"] := by decide
  have hsees : Sees apiWorkspace.sources ["backend", "app", "api"] (.importFrom 1 ["models"]) :=
    ⟨["backend", "app", "api", "models"], by decide, by decide +kernel⟩
  intro source hsource node hnode _ last hlast
  rw [hpackage source hsource, hpackage last hlast, hnodes source hsource node hnode]
  exact iff_of_true hsees (models_found (by decide))

/-- A test elsewhere in the workspace has the import of `models` rejected, if it
happens to be listed last. -/
theorem test_file_changes_verdict :
    ¬(⟨[apiSource, modelsSource, testSource], by decide⟩ : Workspace).JudgedRight ∧
      validateLocalImports [apiSource, modelsSource, testSource] =
        ["backend/app/api/main.py 引用了不存在的本地模块 .models"] ∧
      validateLocalImports [apiSource, testSource, modelsSource] = [] := by
  refine ⟨?_, by decide +kernel, by decide +kernel⟩
  rw [Workspace.judgedRight_iff]
  intro h
  have hagree := h apiSource List.mem_cons_self _ List.mem_cons_self (by decide) testSource
    (by decide)
  obtain ⟨target, hresolve, hlisted⟩ := hagree.mpr (models_found (by decide))
  have htarget : target = ["tests", "models"] := by
    have hnamed : resolve testSource.package (.importFrom 1 ["models"]) =
        some ["tests", "models"] := by decide
    rw [hnamed] at hresolve
    exact (Option.some.inj hresolve).symm
  rw [htarget] at hlisted
  exact absurd hlisted (by decide +kernel)

end ProjectOS.Code
