import ProjectOS.Code.Staging

/-! Paths that the repository manager reads back from the output of Git: the
changed files of a worktree and the changes it publishes to the workspace. -/
namespace ProjectOS.Code
open Base

/-- `_validate_relative_path`. -/
def validateRelativePath (path : String) : Result String :=
  if path = "" || PurePath.isAbsolute path || (PurePath.parts path).contains ".." ||
      Text.startswith path "-" then
    .error (gitError ("Git 路径必须是安全的相对路径: " ++ path))
  else .ok (PurePath.posix path)

def arrow : List Char := " -> ".toList

/-- `path.split(" -> ", 1)[1]`, if there is an arrow. -/
def afterArrow : List Char → Option (List Char)
  | [] => none
  | c :: cs => if arrow.isPrefixOf (c :: cs) then some ((c :: cs).drop arrow.length) else afterArrow cs

/-- The path in a line of `git status --porcelain=v1`; a rename names the new one last. -/
def listedPath (line : String) : String :=
  let path := line.toList.drop 3
  String.ofList ((afterArrow path).getD path)

/-- `_changed_files` of what Git prints. -/
def changedFilesOf (stdout : String) : Result (List String) := do
  let paths ← collect (fun line => validateRelativePath (listedPath line))
    ((Text.splitlines stdout).filter fun line => 4 ≤ line.length)
  .ok (Text.sorted (dedupe paths))

/-- The two status letters of a path. -/
structure StatusCode where
  index : Char
  worktree : Char
  plain : Text.isLineBreak index = false ∧ Text.isLineBreak worktree = false := by decide

/-- What `git status --porcelain=v1` prints for these paths. -/
def statusListing (codes : String → StatusCode) (paths : List String) : String :=
  String.ofList (paths.flatMap fun path =>
    (codes path).index :: (codes path).worktree :: ' ' :: (statusName path).toList ++ ['\n'])

inductive PublishStep where
  | move (oldPath newPath : String)
  | delete (path : String)
  | copy (path : String)
deriving DecidableEq, Repr

def PublishStep.paths : PublishStep → List String
  | .move oldPath newPath => [oldPath, newPath]
  | .delete path | .copy path => [path]

/-- A line of `git diff --name-status --find-renames`. -/
def decodeChange (line : String) : Result PublishStep :=
  match Text.split '\t' line with
  | [status, path] =>
      if status = "D" then .ok (.delete path)
      else if status ∈ ["A", "M", "T"] then .ok (.copy path)
      else .error (gitError ("不支持的 Git 发布状态: " ++ status))
  | [status, oldPath, newPath] =>
      if Text.startswith status "R" then .ok (.move oldPath newPath)
      else .error (gitError ("无法解析 Git 发布变更: " ++ line))
  | _ => .error (gitError ("无法解析 Git 发布变更: " ++ line))

def workspacePrefix : String := "workspace/"

/-- `_publish_delete`. -/
def publishDelete (root : Tree) (path : String) : Result Tree := do
  let normalized ← validateRelativePath path
  raiseIf (!Text.startswith normalized workspacePrefix) (gitError ("删除路径越过允许范围: " ++ normalized))
  .ok (root.erase normalized)

/-- Where `shutil.copy2` writes: below a folder that stands at the path. -/
def copyTarget (root : Tree) (path : String) : String :=
  if root.keys.any (Text.startswith · (path ++ "/")) then path ++ "/" ++ PurePath.name path else path

/-- `_publish_file`. -/
def publishFile (worktree root : Tree) (path : String) : Result Tree := do
  let normalized ← validateRelativePath path
  raiseIf (!Text.startswith normalized workspacePrefix) (gitError ("发布路径越过允许范围: " ++ normalized))
  match worktree.get? normalized with
  | none => .error (gitError ("Git 发布源文件不存在: " ++ normalized))
  | some text =>
      raiseIf (root.keys.any fun other => Text.startswith normalized (other ++ "/"))
        (.fileExists "[Errno 17] File exists")
      let target := copyTarget root normalized
      raiseIf (root.keys.any (Text.startswith · (target ++ "/"))) (.runtimeError "[Errno 21] Is a directory")
      .ok (root.set target text)

/-- One step on the workspace; a step that fails may have deleted the old path. -/
def PublishStep.perform (worktree root : Tree) : PublishStep → Tree × Result Unit
  | .move oldPath newPath =>
      match publishDelete root oldPath with
      | .error error => (root, .error error)
      | .ok root =>
          match publishFile worktree root newPath with
          | .error error => (root, .error error)
          | .ok root => (root, .ok ())
  | .delete path =>
      match publishDelete root path with
      | .error error => (root, .error error)
      | .ok root => (root, .ok ())
  | .copy path =>
      match publishFile worktree root path with
      | .error error => (root, .error error)
      | .ok root => (root, .ok ())

/-- The steps one after the other up to the first that fails, with the paths
published so far. -/
def publishSteps (worktree : Tree) : List (Result PublishStep) → Tree → List String →
    Tree × Result (List String)
  | [], root, published => (root, .ok (Text.sorted (dedupe published)))
  | .error error :: _, root, _ => (root, .error error)
  | .ok step :: rest, root, published =>
      match step.perform worktree root with
      | (root, .error error) => (root, .error error)
      | (root, .ok ()) => publishSteps worktree rest root (published ++ step.paths)

/-- `promote_worktree_changes` of what Git prints, with the workspace it leaves. -/
def promoteChanges (worktree root : Tree) (stdout : String) : Tree × Result (List String) :=
  publishSteps worktree ((Text.splitlines stdout).map decodeChange) root []

/-- A change between two commits, as Git reports it. -/
inductive NameStatus where
  | added (path : String)
  | modified (path : String)
  | typeChanged (path : String)
  | deleted (path : String)
  | renamed (similarity : Nat) (oldPath newPath : String)

namespace NameStatus

def line : NameStatus → List Char
  | .added path => 'A' :: '\t' :: (diffName path).toList
  | .modified path => 'M' :: '\t' :: (diffName path).toList
  | .typeChanged path => 'T' :: '\t' :: (diffName path).toList
  | .deleted path => 'D' :: '\t' :: (diffName path).toList
  | .renamed similarity oldPath newPath =>
      'R' :: (Text.zeroPadded 3 similarity ++ '\t' :: (diffName oldPath).toList ++
        '\t' :: (diffName newPath).toList)

def step : NameStatus → PublishStep
  | .added path | .modified path | .typeChanged path => .copy path
  | .deleted path => .delete path
  | .renamed _ oldPath newPath => .move oldPath newPath

end NameStatus

def nameStatusListing (changes : List NameStatus) : String :=
  String.ofList (changes.flatMap fun change => change.line ++ ['\n'])

section printed

/-- What Git prints of a path: no control character and nothing outside ASCII. -/
def Printed (cs : List Char) : Prop := ∀ c ∈ cs, 32 ≤ c.toNat ∧ c.toNat ≤ 126

theorem not_lineBreak {c : Char} (h : 32 ≤ c.toNat ∧ c.toNat ≤ 126) : Text.isLineBreak c = false := by
  simp only [Text.isLineBreak, Bool.or_eq_false_iff, Bool.and_eq_false_iff, decide_eq_false_iff_not,
    beq_eq_false_iff_ne]
  omega

theorem escapedByte_printed (byte : UInt8) : Printed (escapedByte byte) := by
  have hall : ∀ n : Fin 256, ∀ c ∈ escapedByte (UInt8.ofNat n), 32 ≤ c.toNat ∧ c.toNat ≤ 126 := by
    decide +kernel
  have hbyte := hall ⟨byte.toNat, byte.toNat_lt⟩
  rwa [UInt8.ofNat_toNat] at hbyte

theorem quotedPath_printed (path : String) : Printed (quotedPath path).toList := by
  intro c hc
  simp only [quotedPath, String.toList_ofList, List.mem_append, List.mem_singleton,
    List.mem_flatMap] at hc
  rcases hc with (rfl | ⟨byte, -, hbyte⟩) | rfl
  · decide
  · exact escapedByte_printed byte c hbyte
  · decide

theorem printed_of_not_quoted {path : String} (h : isQuoted path = false) : Printed path.toList := by
  intro c hc
  have hplain := List.any_eq_false.mp h c hc
  simp only [Bool.or_eq_true, decide_eq_true_eq, not_or] at hplain
  omega

theorem diffName_printed (path : String) : Printed (diffName path).toList := by
  unfold diffName
  split
  · exact quotedPath_printed path
  · rename_i hplain
    exact printed_of_not_quoted (Bool.eq_false_iff.mpr hplain)

theorem statusName_printed (path : String) : Printed (statusName path).toList := by
  unfold statusName
  split
  · exact quotedPath_printed path
  · rename_i hplain
    rw [Bool.not_eq_true, Bool.or_eq_false_iff] at hplain
    exact printed_of_not_quoted hplain.1

theorem length_le_flatMap {α β : Type} {f : α → List β} (h : ∀ x, f x ≠ []) (xs : List α) :
    xs.length ≤ (xs.flatMap f).length := by
  induction xs with
  | nil => exact Nat.le_refl 0
  | cons x xs ih =>
    have hx := List.length_pos_of_ne_nil (h x)
    rw [List.flatMap_cons, List.length_append, List.length_cons]
    omega

theorem quotedPath_ne (path : String) : quotedPath path ≠ path := by
  intro hsame
  have hescaped (byte : UInt8) : escapedByte byte ≠ [] := by
    simp only [escapedByte]
    split_ifs <;> exact List.cons_ne_nil _ _
  have hbytes (c : Char) : String.utf8EncodeChar c ≠ [] := by
    unfold String.utf8EncodeChar
    dsimp only
    split_ifs <;> exact List.cons_ne_nil _ _
  have hlength := congrArg (fun s : String => s.toList.length) hsame
  simp only [quotedPath, String.toList_ofList, List.length_append, List.length_singleton] at hlength
  have hmore := length_le_flatMap hescaped (path.toList.flatMap String.utf8EncodeChar)
  have hleast := length_le_flatMap hbytes path.toList
  omega

/-- A path that Git does not quote is printed as it is, without a blank. -/
theorem statusName_eq_iff {path : String} :
    statusName path = path ↔ isQuoted path = false ∧ ' ' ∉ path.toList := by
  unfold statusName
  split
  · rename_i hquoted
    refine iff_of_false (quotedPath_ne path) ?_
    intro ⟨hplain, hspace⟩
    simp [hplain, hspace] at hquoted
  · rename_i hplain
    rw [Bool.not_eq_true, Bool.or_eq_false_iff] at hplain
    simpa using hplain

theorem splitlines_lines {lines : List (List Char)}
    (h : ∀ line ∈ lines, ∀ c ∈ line, Text.isLineBreak c = false) :
    Text.splitlines (String.ofList (lines.flatMap (· ++ ['\n']))) = lines.map String.ofList := by
  induction lines with
  | nil => rfl
  | cons line lines ih =>
    have hrest := ih fun other hother => h other (List.mem_cons_of_mem _ hother)
    unfold Text.splitlines at hrest ⊢
    rw [String.toList_ofList] at hrest ⊢
    rw [List.flatMap_cons, List.append_assoc, List.singleton_append,
      Text.splitlinesOf_append (h line List.mem_cons_self) (by decide) (by decide), List.map_cons,
      hrest, List.map_cons]

end printed

section paths
open PurePath

theorem not_mem_of_mem_splitOn {sep : Char} {cs piece : List Char} (h : piece ∈ Text.splitOn sep cs) :
    sep ∉ piece := by
  induction cs generalizing piece with
  | nil =>
    rw [List.mem_singleton.mp h]
    exact List.not_mem_nil
  | cons c cs ih =>
    cases hcs : Text.splitOn sep cs with
    | nil => exact absurd hcs (Text.splitOn_ne_nil sep cs)
    | cons head rest =>
      rw [hcs] at ih
      rw [Text.splitOn, hcs] at h
      dsimp only at h
      split at h
      · rcases List.mem_cons.mp h with rfl | h
        · exact List.not_mem_nil
        · exact ih h
      · rename_i hc
        rcases List.mem_cons.mp h with rfl | h
        · rw [List.mem_cons, not_or]
          exact ⟨fun heq => hc heq.symm, ih List.mem_cons_self⟩
        · exact ih (List.mem_cons_of_mem _ h)

/-- A component of a normalized path. -/
def IsName (name : String) : Prop := '/' ∉ name.toList ∧ name ≠ "" ∧ name ≠ "."

theorem isName_of_mem_parts {path name : String} (h : name ∈ parts path) : IsName name := by
  obtain ⟨hmem, hplain⟩ := List.mem_filter.mp h
  obtain ⟨piece, hpiece, rfl⟩ := List.mem_map.mp hmem
  refine ⟨?_, ?_⟩
  · rw [String.toList_ofList]
    exact not_mem_of_mem_splitOn hpiece
  · simpa using hplain

theorem parts_join {names : List String} (hne : names ≠ []) (h : ∀ name ∈ names, IsName name) :
    parts (Text.join "/" names) = names := by
  rw [parts, show "/" = String.singleton '/' from rfl,
    Text.split_join hne fun name hname => (h name hname).1, List.filter_eq_self]
  intro name hname
  simpa using (h name hname).2

theorem posix_join {names : List String} (hne : names ≠ []) (h : ∀ name ∈ names, IsName name) :
    posix (Text.join "/" names) = Text.join "/" names := by
  rw [posix, parts_join hne h]
  cases names with
  | nil => exact absurd rfl hne
  | cons name names => rfl

theorem posix_eq_join {path : String} (h : parts path ≠ []) :
    posix path = Text.join "/" (parts path) := by
  unfold posix
  split
  · rename_i hnil
    exact absurd hnil h
  · rfl

theorem join_snoc (sep : String) (front : List String) (last : String) :
    ∃ before, Text.join sep (front ++ [last]) = before ++ last := by
  induction front with
  | nil => exact ⟨"", by simp [Text.join]⟩
  | cons name front ih =>
    obtain ⟨before, hbefore⟩ := ih
    cases hfront : front ++ [last] with
    | nil => simp at hfront
    | cons next rest =>
      rw [hfront] at hbefore
      refine ⟨name ++ sep ++ before, ?_⟩
      rw [List.cons_append, hfront, String.append_assoc, ← hbefore]
      exact String.intercalate_cons_cons ..

/-- The last piece ends as the text does. -/
theorem splitOn_last {sep c : Char} {cs : List Char} (hlast : cs.getLast? = some c) (hc : c ≠ sep) :
    ∃ front piece, Text.splitOn sep cs = front ++ [piece] ∧ piece.getLast? = some c := by
  induction cs with
  | nil => cases hlast
  | cons d cs ih =>
    cases cs with
    | nil =>
      obtain rfl : d = c := Option.some.inj hlast
      exact ⟨[], [d], by simp [Text.splitOn, hc], rfl⟩
    | cons e cs =>
      rw [List.getLast?_cons_cons] at hlast
      obtain ⟨front, piece, hsplit, hpiece⟩ := ih hlast
      rw [Text.splitOn, hsplit]
      cases front with
      | nil =>
        rw [List.nil_append]
        dsimp only
        split
        · exact ⟨[[]], piece, rfl, hpiece⟩
        · refine ⟨[], d :: piece, rfl, ?_⟩
          cases piece with
          | nil => cases hpiece
          | cons p piece => rw [List.getLast?_cons_cons, hpiece]
      | cons head front =>
        rw [List.cons_append]
        dsimp only
        split
        · exact ⟨[] :: head :: front, piece, rfl, hpiece⟩
        · exact ⟨(d :: head) :: front, piece, rfl, hpiece⟩

theorem getLast?_append_string {a b : String} {c : Char} (h : b.toList.getLast? = some c) :
    (a ++ b).toList.getLast? = some c := by
  rw [String.toList_append, List.getLast?_append, h, Option.some_or]

/-- A normalized path ends as the path does, unless that ends in a separator or a dot. -/
theorem getLast?_posix {path : String} {c : Char} (hlast : path.toList.getLast? = some c)
    (hslash : c ≠ '/') (hdot : c ≠ '.') : (posix path).toList.getLast? = some c := by
  obtain ⟨front, piece, hsplit, hpiece⟩ := splitOn_last hlast hslash
  have hkept : String.ofList piece ∉ ["", "."] := by
    intro hmem
    simp only [List.mem_cons, List.not_mem_nil, or_false] at hmem
    rcases hmem with hmem | hmem
    · rw [← String.toList_inj, String.toList_ofList] at hmem
      rw [hmem] at hpiece
      cases hpiece
    · rw [← String.toList_inj, String.toList_ofList] at hmem
      rw [hmem] at hpiece
      cases hpiece
      exact hdot rfl
  have hone : [String.ofList piece].filter (· ∉ ["", "."]) = [String.ofList piece] :=
    List.filter_eq_self.mpr (by simpa using hkept)
  have hparts : parts path = ((front.map String.ofList).filter (· ∉ ["", "."])) ++
      [String.ofList piece] := by
    rw [parts, Text.split, hsplit, List.map_append, List.filter_append, List.map_singleton, hone]
  rw [posix_eq_join (by simp [hparts]), hparts]
  obtain ⟨before, hbefore⟩ := join_snoc "/" ((front.map String.ofList).filter (· ∉ ["", "."]))
    (String.ofList piece)
  rw [hbefore]
  exact getLast?_append_string (by rw [String.toList_ofList, hpiece])

/-- A path that the staging service takes, with the text it was given. -/
structure AcceptedPath where
  raw : String
  path : String
  accepted : validatePath raw = .ok path

namespace AcceptedPath

/-- The file in a worktree. -/
def inWorktree (file : AcceptedPath) : String := workspacePrefix ++ file.path

theorem fields (file : AcceptedPath) : ".." ∉ parts file.raw ∧ file.path = posix file.raw ∧
    (name file.raw ∈ stagedFilenames ∨
      Text.lower (suffixOf (name file.raw)) ∈ stagedSuffixes) := by
  have haccepted := file.accepted
  simp only [validatePath, raiseIf_bind_eq_ok, Bool.or_eq_false_iff, Bool.and_eq_false_iff,
    Bool.not_eq_false', List.contains_iff_mem, Except.ok.injEq] at haccepted
  obtain ⟨⟨-, hup⟩, hname, hpath⟩ := haccepted
  refine ⟨?_, hpath.symm, hname⟩
  intro hmem
  rw [List.contains_iff_mem.mpr hmem] at hup
  cases hup

theorem parts_ne_nil (file : AcceptedPath) : parts file.raw ≠ [] := by
  intro hnil
  obtain ⟨-, -, hname⟩ := file.fields
  rw [name, hnil, List.getLastD_nil] at hname
  revert hname
  decide

theorem path_eq (file : AcceptedPath) : file.path = Text.join "/" (parts file.raw) := by
  rw [file.fields.2.1, posix_eq_join file.parts_ne_nil]

theorem inWorktree_eq (file : AcceptedPath) :
    file.inWorktree = Text.join "/" ("workspace" :: parts file.raw) := by
  rw [inWorktree, file.path_eq]
  cases hparts : parts file.raw with
  | nil => exact absurd hparts file.parts_ne_nil
  | cons first rest =>
    rw [Text.join, Text.join, String.intercalate_cons_cons]
    rfl

/-- The path of the worktree is taken as it is. -/
theorem validate_inWorktree (file : AcceptedPath) :
    validateRelativePath file.inWorktree = .ok file.inWorktree := by
  have hnames : ∀ name ∈ "workspace" :: parts file.raw, IsName name := by
    rw [List.forall_mem_cons]
    refine ⟨⟨by decide, by decide, by decide⟩, fun name hname => isName_of_mem_parts hname⟩
  have hparts : parts file.inWorktree = "workspace" :: parts file.raw := by
    rw [inWorktree_eq, parts_join (List.cons_ne_nil _ _) hnames]
  have hposix : posix file.inWorktree = file.inWorktree := by
    rw [inWorktree_eq, posix_join (List.cons_ne_nil _ _) hnames]
  have hup : ".." ∉ parts file.inWorktree := by
    rw [hparts, List.mem_cons, not_or]
    exact ⟨by decide, file.fields.1⟩
  have hchars : file.inWorktree.toList = 'w' :: ("orkspace/".toList ++ file.path.toList) := by
    rw [inWorktree, String.toList_append]
    rfl
  have hnonempty : file.inWorktree ≠ "" := by
    intro hempty
    rw [hempty] at hchars
    cases hchars
  have habsolute : isAbsolute file.inWorktree = false := by
    rw [isAbsolute, Text.startswith, hchars]
    rfl
  have hdash : Text.startswith file.inWorktree "-" = false := by
    rw [Text.startswith, hchars]
    rfl
  rw [validateRelativePath, if_neg (by simp [hnonempty, habsolute, hup, hdash]), hposix]

/-- A suffix ends as the name does. -/
theorem suffixOf_last {name : String} {c : Char} (hlast : name.toList.getLast? = some c) (hc : c ≠ '.') :
    suffixOf name = "" ∨ (suffixOf name).toList.getLast? = some c := by
  obtain ⟨front, hfront⟩ := List.getLast?_eq_some_iff.mp hlast
  have hafter : name.toList.rtakeWhile (· ≠ '.') = front.rtakeWhile (· ≠ '.') ++ [c] := by
    rw [hfront, List.rtakeWhile_concat_pos _ _ _ (by simpa using hc)]
  unfold suffixOf
  dsimp only
  split
  · exact .inl rfl
  · right
    rw [hafter, String.toList_ofList, ← List.cons_append, List.getLast?_append]
    rfl

theorem lower_last {s : String} (hlast : s.toList.getLast? = some Text.quotationMark) :
    (Text.lower s).toList.getLast? = some Text.quotationMark := by
  obtain ⟨front, hfront⟩ := List.getLast?_eq_some_iff.mp hlast
  rw [Text.lower, String.toList_ofList, hfront, List.flatMap_append, List.flatMap_singleton,
    show Text.lowerChar Text.quotationMark = [Text.quotationMark] by decide, List.getLast?_append]
  rfl

/-- No accepted name ends in a quotation mark: no such suffix or name is allowed. -/
theorem name_last (file : AcceptedPath) :
    (name file.raw).toList.getLast? ≠ some Text.quotationMark := by
  intro hlast
  rcases file.fields.2.2 with hname | hsuffix
  · have hnames : ∀ n ∈ stagedFilenames, n.toList.getLast? ≠ some Text.quotationMark := by decide
    exact hnames _ hname hlast
  · have hsuffixes : ∀ s ∈ stagedSuffixes, s.toList.getLast? ≠ some Text.quotationMark := by decide
    rcases suffixOf_last hlast (by decide) with hnone | hquote
    · rw [hnone] at hsuffix
      exact absurd hsuffix (by decide)
    · exact hsuffixes _ hsuffix (lower_last hquote)

theorem path_last (file : AcceptedPath) :
    file.inWorktree.toList.getLast? ≠ some Text.quotationMark := by
  obtain ⟨front, hfront⟩ : ∃ front, parts file.raw = front ++ [name file.raw] := by
    refine ⟨(parts file.raw).dropLast, ?_⟩
    rw [name, List.getLastD_eq_getLast?, List.getLast?_eq_some_getLast file.parts_ne_nil,
      Option.getD_some, List.dropLast_append_getLast]
  obtain ⟨before, hbefore⟩ := join_snoc "/" ("workspace" :: front) (name file.raw)
  have hname : IsName (name file.raw) := by
    apply isName_of_mem_parts
    rw [hfront]
    exact List.mem_append_right _ List.mem_cons_self
  have hnonempty : (name file.raw).toList ≠ [] := by
    rw [Ne, String.toList_eq_nil_iff]
    exact hname.2.1
  rw [inWorktree_eq, hfront, ← List.cons_append, hbefore, String.toList_append,
    List.getLast?_append_of_ne_nil _ hnonempty]
  exact file.name_last

end AcceptedPath

end paths

section status
variable {codes : String → StatusCode} {files : List AcceptedPath}

/-- The line of one path. -/
def statusLine (codes : String → StatusCode) (path : String) : List Char :=
  (codes path).index :: (codes path).worktree :: ' ' :: (statusName path).toList

theorem splitlines_statusListing (paths : List String) :
    Text.splitlines (statusListing codes paths) =
      paths.map fun path => String.ofList (statusLine codes path) := by
  have hlines := @splitlines_lines (paths.map (statusLine codes)) (by
    intro line hline c hc
    obtain ⟨path, -, rfl⟩ := List.mem_map.mp hline
    simp only [statusLine, List.mem_cons] at hc
    rcases hc with rfl | rfl | rfl | hc
    · exact (codes path).plain.1
    · exact (codes path).plain.2
    · decide
    · exact not_lineBreak (statusName_printed path c hc))
  rw [List.flatMap_map, List.map_map] at hlines
  exact hlines

theorem listedPath_statusLine (path : String) :
    listedPath (String.ofList (statusLine codes path)) =
      String.ofList ((afterArrow (statusName path).toList).getD (statusName path).toList) := by
  rw [listedPath, String.toList_ofList, statusLine]
  rfl

theorem afterArrow_of_not_mem {cs : List Char} (h : ' ' ∉ cs) : afterArrow cs = none := by
  induction cs with
  | nil => rfl
  | cons c cs ih =>
    rw [List.mem_cons, not_or] at h
    have hstart : arrow.isPrefixOf (c :: cs) = false := by
      rw [show arrow = ' ' :: "-> ".toList by decide, List.isPrefixOf_cons_cons, Bool.and_eq_false_iff]
      exact .inl (beq_eq_false_iff_ne.mpr h.1)
    rw [afterArrow, hstart, if_neg Bool.false_ne_true, ih h.2]

/-- What follows an arrow ends as the text does. -/
theorem afterArrow_last {cs rest : List Char} (h : afterArrow cs = some rest)
    (hlast : cs.getLast? = some Text.quotationMark) : rest.getLast? = some Text.quotationMark := by
  induction cs with
  | nil => cases h
  | cons c cs ih =>
    rw [afterArrow] at h
    split at h
    · rename_i hstart
      obtain ⟨after, hafter⟩ := List.isPrefixOf_iff_prefix.mp hstart
      rw [← hafter, List.drop_left] at h
      cases h
      cases rest with
      | nil =>
        rw [← hafter, List.append_nil] at hlast
        exact absurd hlast (by decide)
      | cons d rest =>
        rw [← hafter, List.getLast?_append_of_ne_nil _ (List.cons_ne_nil _ _)] at hlast
        exact hlast
    · cases cs with
      | nil => cases h
      | cons d cs =>
        rw [List.getLast?_cons_cons] at hlast
        exact ih h hlast

theorem statusName_ne_empty {path : String} (h : path ≠ "") : statusName path ≠ "" := by
  unfold statusName
  split
  · intro hempty
    have hlength := congrArg (fun s : String => s.toList.length) hempty
    simp [quotedPath] at hlength
  · exact h

/-- Every line is long enough to be read. -/
theorem changedFilesOf_eq_ok {paths : List String} (hpaths : ∀ path ∈ paths, path ≠ "")
    {changed : List String} :
    changedFilesOf (statusListing codes paths) = .ok changed ↔ ∃ read,
      List.Forall₂ (fun path found => validateRelativePath
        (listedPath (String.ofList (statusLine codes path))) = .ok found) paths read ∧
        Text.sorted (dedupe read) = changed := by
  have hlong : ∀ line ∈ paths.map fun path => String.ofList (statusLine codes path),
      decide (4 ≤ line.length) = true := by
    intro line hline
    obtain ⟨path, hpath, rfl⟩ := List.mem_map.mp hline
    have hname : (statusName path).toList ≠ [] := by
      rw [Ne, String.toList_eq_nil_iff]
      exact statusName_ne_empty (hpaths path hpath)
    have hpos := List.length_pos_of_ne_nil hname
    rw [decide_eq_true_iff, ← String.length_toList, String.toList_ofList, statusLine]
    simp only [List.length_cons]
    omega
  rw [changedFilesOf, splitlines_statusListing, List.filter_eq_self.mpr hlong]
  simp only [bind_eq_ok, collect_eq_ok, List.forall₂_map_left_iff, Except.ok.injEq]

theorem listedPath_plain {path : String} (h : statusName path = path) :
    listedPath (String.ofList (statusLine codes path)) = path := by
  rw [listedPath_statusLine, h, afterArrow_of_not_mem (statusName_eq_iff.mp h).2, Option.getD_none,
    String.ofList_toList]

/-- The path read from quotation marks still ends in one. -/
theorem listedPath_quoted {path : String} (h : statusName path ≠ path) :
    (listedPath (String.ofList (statusLine codes path))).toList.getLast? =
      some Text.quotationMark := by
  have hquoted : statusName path = quotedPath path := by
    unfold statusName at h ⊢
    split
    · rfl
    · rename_i hplain
      rw [if_neg hplain] at h
      exact absurd rfl h
  have hlast : (quotedPath path).toList.getLast? = some Text.quotationMark := by
    rw [quotedPath, String.toList_ofList, List.getLast?_append]
    rfl
  rw [listedPath_statusLine, hquoted, String.toList_ofList]
  cases harrow : afterArrow (quotedPath path).toList with
  | none => rw [Option.getD_none, hlast]
  | some rest => rw [Option.getD_some, afterArrow_last harrow hlast]

theorem validateRelativePath_eq_ok {path found : String} (h : validateRelativePath path = .ok found) :
    found = PurePath.posix path := by
  unfold validateRelativePath at h
  split at h
  · cases h
  · exact (Except.ok.inj h).symm

theorem exists_of_forall₂ {α β : Type} {R : α → β → Prop} {xs : List α} {ys : List β}
    (h : List.Forall₂ R xs ys) {x : α} (hx : x ∈ xs) : ∃ y ∈ ys, R x y := by
  induction h with
  | nil => cases hx
  | cons hhead _ ih =>
    rcases List.mem_cons.mp hx with rfl | hx
    · exact ⟨_, List.mem_cons_self, hhead⟩
    · obtain ⟨y, hy, hr⟩ := ih hx
      exact ⟨y, List.mem_cons_of_mem _ hy, hr⟩

/-- The changed files are read back exactly if Git quotes none of them. -/
theorem changedFilesOf_eq_iff :
    changedFilesOf (statusListing codes (files.map (·.inWorktree))) =
        .ok (Text.sorted (dedupe (files.map (·.inWorktree)))) ↔
      ∀ file ∈ files, statusName file.inWorktree = file.inWorktree := by
  have hpaths : ∀ path ∈ files.map (·.inWorktree), path ≠ "" := by
    intro path hpath hempty
    obtain ⟨file, -, rfl⟩ := List.mem_map.mp hpath
    have hvalid := file.validate_inWorktree
    rw [hempty] at hvalid
    cases hvalid
  rw [changedFilesOf_eq_ok hpaths]
  constructor
  · intro ⟨read, hread, hsame⟩ file hfile
    by_contra hquoted
    obtain ⟨found, hfound, hvalid⟩ := exists_of_forall₂ hread (List.mem_map_of_mem hfile)
    have hlast : found.toList.getLast? = some Text.quotationMark := by
      rw [validateRelativePath_eq_ok hvalid]
      exact getLast?_posix (listedPath_quoted hquoted) (by decide) (by decide)
    have hmem : found ∈ files.map (·.inWorktree) := by
      rw [← mem_dedupe, ← Text.mem_sorted, ← hsame, Text.mem_sorted, mem_dedupe]
      exact hfound
    obtain ⟨other, -, rfl⟩ := List.mem_map.mp hmem
    exact other.path_last hlast
  · intro hplain
    refine ⟨files.map (·.inWorktree), ?_, rfl⟩
    rw [List.forall₂_map_left_iff, List.forall₂_map_right_iff, List.forall₂_same]
    intro file hfile
    rw [listedPath_plain (hplain file hfile), file.validate_inWorktree]

end status

section publish
variable {worktree root : Tree}

def NameStatus.paths (change : NameStatus) : List String := change.step.paths

theorem zeroPadded_printed (width n : Nat) : Printed (Text.zeroPadded width n) := by
  intro c hc
  rcases List.mem_append.mp hc with hc | hc
  · rw [List.eq_of_mem_replicate hc]
    decide
  · have hdigit := Nat.isDigit_of_mem_toDigits (by decide) (by decide) hc
    simp only [Char.isDigit, Bool.and_eq_true, decide_eq_true_eq, UInt32.le_iff_toNat_le,
      ge_iff_le] at hdigit
    have hlow : '0'.val.toNat = 48 := rfl
    have hhigh : '9'.val.toNat = 57 := rfl
    have hval : c.toNat = c.val.toNat := rfl
    omega

theorem tab_not_mem {cs : List Char} (h : Printed cs) : '\t' ∉ cs := by
  intro hmem
  have := (h '\t' hmem).1
  contradiction

/-- A line of the listing has no line break: tabs stand between printed fields. -/
theorem line_plain (change : NameStatus) : ∀ c ∈ change.line, Text.isLineBreak c = false := by
  have hname (path : String) : ∀ c ∈ (diffName path).toList, Text.isLineBreak c = false :=
    fun c hc => not_lineBreak (diffName_printed path c hc)
  intro c hc
  cases change with
  | added path | modified path | typeChanged path | deleted path =>
    simp only [NameStatus.line, List.mem_cons] at hc
    rcases hc with rfl | rfl | hc
    · decide
    · decide
    · exact hname path c hc
  | renamed similarity oldPath newPath =>
    simp only [NameStatus.line, List.mem_cons, List.mem_append] at hc
    rcases hc with rfl | (hc | rfl | hc) | rfl | hc
    · decide
    · exact not_lineBreak (zeroPadded_printed 3 similarity c hc)
    · decide
    · exact hname oldPath c hc
    · decide
    · exact hname newPath c hc

theorem splitlines_nameStatusListing (changes : List NameStatus) :
    Text.splitlines (nameStatusListing changes) =
      changes.map fun change => String.ofList change.line := by
  have hlines := @splitlines_lines (changes.map (·.line)) (by
    intro line hline
    obtain ⟨change, -, rfl⟩ := List.mem_map.mp hline
    exact line_plain change)
  rw [List.flatMap_map, List.map_map] at hlines
  exact hlines

theorem split_pair {status : List Char} (hstatus : '\t' ∉ status) {path : String}
    (hpath : '\t' ∉ path.toList) :
    Text.split '\t' (String.ofList (status ++ '\t' :: path.toList)) = [String.ofList status, path] := by
  rw [Text.split, String.toList_ofList, Text.splitOn_append hstatus, Text.splitOn_of_not_mem hpath]
  simp

theorem split_triple {status : List Char} (hstatus : '\t' ∉ status) {oldPath newPath : String}
    (hold : '\t' ∉ oldPath.toList) (hnew : '\t' ∉ newPath.toList) :
    Text.split '\t' (String.ofList (status ++ '\t' :: (oldPath.toList ++ '\t' :: newPath.toList))) =
      [String.ofList status, oldPath, newPath] := by
  rw [Text.split, String.toList_ofList, Text.splitOn_append hstatus, Text.splitOn_append hold,
    Text.splitOn_of_not_mem hnew]
  simp

theorem diffName_of_plain {path : String} (h : statusName path = path) : diffName path = path := by
  rw [diffName, (statusName_eq_iff.mp h).1, if_neg Bool.false_ne_true]

/-- A line gives back the change whose paths Git does not quote. -/
theorem decodeChange_line {change : NameStatus} (h : ∀ path ∈ change.paths, statusName path = path) :
    decodeChange (String.ofList change.line) = .ok change.step := by
  have htab {path : String} (hpath : path ∈ change.paths) : '\t' ∉ path.toList := by
    rw [← diffName_of_plain (h path hpath)]
    exact tab_not_mem (diffName_printed path)
  cases change with
  | added path | modified path | typeChanged path | deleted path =>
    have hmem : path ∈ [path] := List.mem_cons_self
    rw [NameStatus.line, diffName_of_plain (h path hmem), ← List.singleton_append, decodeChange,
      split_pair (by decide) (htab hmem)]
    rfl
  | renamed similarity oldPath newPath =>
    have hold : oldPath ∈ [oldPath, newPath] := List.mem_cons_self
    have hnew : newPath ∈ [oldPath, newPath] := List.mem_cons_of_mem _ List.mem_cons_self
    have hstatus : '\t' ∉ 'R' :: Text.zeroPadded 3 similarity := by
      rw [List.mem_cons, not_or]
      exact ⟨by decide, tab_not_mem (zeroPadded_printed 3 similarity)⟩
    have hrename : Text.startswith (String.ofList ('R' :: Text.zeroPadded 3 similarity)) "R" = true := by
      simp only [Text.startswith, String.toList_ofList]
      rfl
    rw [NameStatus.line, diffName_of_plain (h oldPath hold), diffName_of_plain (h newPath hnew),
      List.append_assoc, List.cons_append, ← List.cons_append, decodeChange,
      split_triple hstatus (htab hold) (htab hnew)]
    simp only [hrename, if_true]
    rfl

theorem promoteChanges_listing {changes : List NameStatus}
    (h : ∀ change ∈ changes, ∀ path ∈ change.paths, statusName path = path) :
    promoteChanges worktree root (nameStatusListing changes) =
      publishSteps worktree (changes.map fun change => .ok change.step) root [] := by
  rw [promoteChanges, splitlines_nameStatusListing, List.map_map]
  congr 1
  apply List.map_congr_left
  intro change hchange
  exact decodeChange_line (h change hchange)

end publish

/-- The listings of Git give back these files: as the changed files of a worktree,
under any status letters, and as the steps of a publication, for any changes of them. -/
structure ReadsBack (files : List AcceptedPath) : Prop where
  changed : ∀ codes, changedFilesOf (statusListing codes (files.map (·.inWorktree))) =
    .ok (Text.sorted (dedupe (files.map (·.inWorktree))))
  published : ∀ (worktree root : Tree) (changes : List NameStatus),
    (∀ change ∈ changes, ∀ path ∈ change.paths, path ∈ files.map (·.inWorktree)) →
      promoteChanges worktree root (nameStatusListing changes) =
        publishSteps worktree (changes.map fun change => .ok change.step) root []

/-- The listings give back the files exactly if no path has a blank or a
character that Git quotes. -/
theorem listings_readBack_iff (files : List AcceptedPath) :
    ReadsBack files ↔
      ∀ file ∈ files, isQuoted file.inWorktree = false ∧ ' ' ∉ file.inWorktree.toList := by
  constructor
  · intro h file hfile
    have hplain := changedFilesOf_eq_iff.mp (h.changed fun _ => ⟨'?', '?', by decide⟩)
    exact statusName_eq_iff.mp (hplain file hfile)
  · intro h
    have hplain : ∀ file ∈ files, statusName file.inWorktree = file.inWorktree :=
      fun file hfile => statusName_eq_iff.mpr (h file hfile)
    constructor
    · exact fun codes => changedFilesOf_eq_iff.mpr hplain
    · intro worktree root changes hchanges
      apply promoteChanges_listing
      intro change hchange path hpath
      obtain ⟨file, hfile, rfl⟩ := List.mem_map.mp (hchanges change hchange path hpath)
      exact hplain file hfile

def spacedFile : AcceptedPath where
  raw := "docs/a b.md"
  path := "docs/a b.md"
  accepted := by decide

/-- A file with a blank in its name is read with quotation marks around it. -/
theorem spaced_not_read : ¬ ∀ files : List AcceptedPath, ReadsBack files := by
  intro h
  have hread := (h [spacedFile]).changed fun _ => ⟨'?', '?', by decide⟩
  exact absurd hread (by decide +kernel)

example : changedFilesOf "?? \"workspace/a -> b.md\"\n" = .ok ["b.md\""] := by decide +kernel

end ProjectOS.Code
