import ProjectOS.Orchestration.CodeDelivery
import ProjectOS.Policy.GitIntegration

/-! When the delivery gate of the runner and the integration policy agree on one ChangeSet. -/
namespace ProjectOS.Orchestration
open Base Artifact Code Policy

section Names

/-- A changed file of the worktree, as git names it. -/
def Kept (checkout : Checkout) (path : String) : Prop :=
  ∃ parts ∈ checkout.files.keys, path = Text.join "/" parts

/-- A file of the workspace folder. -/
structure InWorkspace (checkout : Checkout) (name : String) : Prop where
  kept : "workspace" :: PurePath.parts name ∈ checkout.files.keys
  named : ∀ part ∈ Text.split '/' name, isPart part = true

theorem split_slash (a b : String) :
    Text.split '/' (a ++ "/" ++ b) = Text.split '/' a ++ Text.split '/' b := by
  simp [Text.split, Text.splitOn_append_sep]

theorem split_empty : Text.split '/' "" = [""] := rfl

theorem split_workspace : Text.split '/' "workspace" = ["workspace"] := by decide

theorem parts_of_named {name : String} (h : ∀ part ∈ Text.split '/' name, isPart part = true) :
    PurePath.parts name = Text.split '/' name := by
  unfold PurePath.parts
  apply List.filter_eq_self.mpr
  intro part hpart
  have hp := h part hpart
  simp only [isPart, List.mem_cons, List.not_mem_nil, not_or, Bool.and_eq_true,
    decide_eq_true_eq] at hp
  simp [hp.1.1, hp.1.2.1]

theorem Kept.inWorkspace {checkout : Checkout} {name : String}
    (h : Kept checkout ("workspace/" ++ name)) : InWorkspace checkout name := by
  obtain ⟨parts, hkept, hname⟩ := h
  obtain ⟨hne, hnamed⟩ := checkout.named parts hkept
  have hslash : ∀ part ∈ parts, '/' ∉ part.toList := by
    intro part hpart
    have hp := hnamed part hpart
    simp only [isPart, Bool.and_eq_true, decide_eq_true_eq] at hp
    exact hp.2
  have hparts : "workspace" :: Text.split '/' name = parts := by
    rw [← Text.split_join hne hslash]
    calc "workspace" :: Text.split '/' name
        = Text.split '/' ("workspace" ++ "/" ++ name) := by
          rw [split_slash, split_workspace, List.singleton_append]
      _ = Text.split '/' (Text.join (String.singleton '/') parts) := congrArg _ hname
  have hrest : ∀ part ∈ Text.split '/' name, isPart part = true := by
    intro part hpart
    apply hnamed part
    rw [← hparts]
    exact List.mem_cons_of_mem _ hpart
  exact ⟨by rw [parts_of_named hrest, hparts]; exact hkept, hrest⟩

variable {checkout : Checkout} {name : String}

namespace InWorkspace

theorem empty_notMem (h : InWorkspace checkout name) : "" ∉ Text.split '/' name :=
  fun hmem => absurd (h.named "" hmem) (by decide)

theorem parts_eq (h : InWorkspace checkout name) :
    PurePath.parts name = Text.split '/' name := parts_of_named h.named

theorem stripLeadingSlashes (h : InWorkspace checkout name) :
    stripLeadingSlashes name = name := by
  unfold Orchestration.stripLeadingSlashes Text.lstripBy
  rw [List.dropWhile_eq_self_iff.mpr, String.ofList_toList]
  intro hpos hslash
  apply h.empty_notMem
  obtain ⟨c, cs, hcs⟩ := List.exists_cons_of_length_pos hpos
  have hname : name = "" ++ "/" ++ String.ofList cs := by
    apply String.toList_inj.mp
    simpa [hcs] using hslash
  rw [hname, split_slash, split_empty]
  exact List.mem_cons_self

theorem workspaceRelative (h : InWorkspace checkout name) :
    workspaceRelative ("workspace/" ++ name) = name := by
  rw [Orchestration.workspaceRelative, Text.removePrefix_append, h.stripLeadingSlashes]

theorem not_endswith_slash (h : InWorkspace checkout name) (stem : String) :
    name ≠ stem ++ "/" := by
  rintro rfl
  apply h.empty_notMem
  rw [← @String.append_empty (stem ++ "/"), split_slash, split_empty]
  exact List.mem_append_right _ List.mem_cons_self

/-- What lies below a folder leaves the folder's parts in front. -/
theorem parts_below {folder rest : String} (h : InWorkspace checkout (folder ++ "/" ++ rest)) :
    ∃ tail, tail ≠ [] ∧
      PurePath.parts (folder ++ "/" ++ rest) = PurePath.parts folder ++ tail := by
  refine ⟨PurePath.parts rest, ?_, PurePath.parts_append folder rest⟩
  have hrest : PurePath.parts rest = Text.split '/' rest := by
    apply parts_of_named
    intro part hpart
    apply h.named
    rw [split_slash]
    exact List.mem_append_right _ hpart
  rw [hrest, Text.split]
  simp [Text.splitOn_ne_nil]

end InWorkspace

theorem parts_stripTrailingSlashes (path : String) :
    PurePath.parts (stripTrailingSlashes path) = PurePath.parts path := by
  have key : ∀ cs : List Char, PurePath.parts (String.ofList (cs.rdropWhile (· = '/'))) =
      PurePath.parts (String.ofList cs) := by
    intro cs
    induction cs using List.reverseRecOn with
    | nil => rfl
    | append_singleton cs c ih =>
      by_cases hc : c = '/'
      · subst hc
        rw [List.rdropWhile_concat_pos _ _ _ (by decide), ih, String.ofList_append]
        exact (PurePath.parts_slash _).symm
      · rw [List.rdropWhile_concat_neg _ _ _ (by simpa using hc)]
  rw [stripTrailingSlashes, Text.rstripBy, key, String.ofList_toList]

/-- Trailing slashes only lengthen a folder's name. -/
theorem startswith_stripTrailingSlashes {folder : String}
    (h : Text.startswith name (folder ++ "/") = true) :
    Text.startswith name (stripTrailingSlashes folder ++ "/") = true := by
  have key : ∀ cs : List Char, ∃ tail, cs ++ ['/'] = cs.rdropWhile (· = '/') ++ '/' :: tail := by
    intro cs
    induction cs using List.reverseRecOn with
    | nil => exact ⟨[], rfl⟩
    | append_singleton cs c ih =>
      by_cases hc : c = '/'
      · subst hc
        obtain ⟨tail, htail⟩ := ih
        rw [List.rdropWhile_concat_pos _ _ _ (by decide), htail]
        exact ⟨tail ++ ['/'], by simp⟩
      · rw [List.rdropWhile_concat_neg _ _ _ (by simpa using hc)]
        exact ⟨[], rfl⟩
  obtain ⟨rest, rfl⟩ := Text.startswith_iff.mp h
  obtain ⟨tail, htail⟩ := key folder.toList
  rw [Text.startswith_iff]
  refine ⟨String.ofList tail ++ rest, ?_⟩
  apply String.toList_inj.mp
  have hslash : ("/" : String).toList = ['/'] := rfl
  simp [stripTrailingSlashes, Text.rstripBy, hslash, htail]

end Names

open GitCodeIntegrationPolicy

section Required
variable {checkout : Checkout} {name required : String} {files : List String}

theorem mem_parts {path part : String} {c : Char} (hpart : part ∈ PurePath.parts path)
    (hc : c ∈ part.toList) : c ∈ path.toList := by
  obtain ⟨chars, hchars, rfl⟩ := List.mem_map.mp (List.mem_of_mem_filter hpart)
  rw [String.toList_ofList] at hc
  have key : ∀ cs : List Char, ∀ chars ∈ Text.splitOn '/' cs, ∀ c ∈ chars, c ∈ cs := by
    intro cs
    induction cs with
    | nil => simp [Text.splitOn]
    | cons d cs ih =>
      cases hsplit : Text.splitOn '/' cs with
      | nil => exact absurd hsplit (Text.splitOn_ne_nil _ _)
      | cons head rest =>
        rw [hsplit] at ih
        by_cases hd : d = '/' <;> simp only [Text.splitOn, hsplit, hd] <;> grind
  exact key _ chars hchars c hc

theorem plain_parts {folder : String} (h : hasWildcard folder = false) :
    ∀ part ∈ PurePath.parts folder, part.toList.any Glob.isSpecial = false := by
  intro part hpart
  rw [hasWildcard, List.any_eq_false] at h
  rw [List.any_eq_false]
  exact fun c hc => h c (mem_parts hpart hc)

theorem star_notMem (h : hasWildcard required = false) : '*' ∉ required.toList := by
  intro hmem
  rw [hasWildcard, List.any_eq_false] at h
  exact h '*' hmem (by decide)

theorem endswith_of_notMem {suffix : String} (h : hasWildcard required = false)
    (hsuffix : '*' ∈ suffix.toList) : Text.endswith required suffix = false := by
  rw [Bool.eq_false_iff]
  intro hends
  rw [Text.endswith, List.isSuffixOf_iff_suffix] at hends
  exact star_notMem h (hends.subset hsuffix)

theorem removeSuffix_of_notMem {suffix : String} (h : hasWildcard required = false)
    (hsuffix : '*' ∈ suffix.toList) : Text.removeSuffix required suffix = required := by
  rw [Text.removeSuffix, endswith_of_notMem h hsuffix, if_neg Bool.false_ne_true]

theorem requiredMatches_of_plain (h : hasWildcard required = false) :
    requiredMatches checkout required = ["workspace" :: PurePath.parts required] := by
  rw [requiredMatches, h, if_neg Bool.false_ne_true]

theorem isDirectoryForm_of_plain (h : hasWildcard required = false) :
    isDirectoryForm required = Text.endswith required "/" := by
  have hstars : '*' ∈ ("/**" : String).toList ∧ '*' ∈ ("/*" : String).toList := by decide
  rw [isDirectoryForm, endswith_of_notMem h hstars.1, endswith_of_notMem h hstars.2,
    Bool.or_false, Bool.or_false]

/-- A file under its own name. -/
theorem present_and_changed_self (h : InWorkspace checkout name)
    (hplain : hasWildcard name = false) (hmem : name ∈ files) :
    present checkout name = true ∧ changed checkout files name = true := by
  have hends : Text.endswith name "/" = false := by
    rw [Bool.eq_false_iff]
    intro hends
    obtain ⟨stem, hstem⟩ := List.isSuffixOf_iff_suffix.mp hends
    apply h.not_endswith_slash (String.ofList stem)
    apply String.toList_inj.mp
    rw [String.toList_append, String.toList_ofList, hstem]
  have hkind : requiredIsDirectory checkout name = false := by
    simp [requiredIsDirectory, isDirectoryForm_of_plain hplain, hends,
      requiredMatches_of_plain hplain, Checkout.not_isDir_of_mem h.kept]
  constructor
  · simp [present, hkind, requiredMatches_of_plain hplain, Checkout.isFile_of_mem h.kept]
  · rw [changed, hkind, if_neg Bool.false_ne_true, fileChanged, List.any_eq_true]
    exact ⟨name, hmem, by simp [globMatches, Glob.fnmatch_of_plain hplain]⟩

/-- A folder, with or without trailing slashes. -/
theorem present_and_changed_below (h : InWorkspace checkout name)
    (hplain : hasWildcard required = false)
    (hbelow : Text.startswith name (stripTrailingSlashes required ++ "/") = true)
    (hmem : name ∈ files) :
    present checkout required = true ∧ changed checkout files required = true := by
  have hdir : checkout.isDir ("workspace" :: PurePath.parts required) = true := by
    obtain ⟨rest, rfl⟩ := Text.startswith_iff.mp hbelow
    obtain ⟨tail, htail, hparts⟩ := h.parts_below
    have hkept := h.kept
    rw [hparts, parts_stripTrailingSlashes, ← List.cons_append] at hkept
    exact Checkout.isDir_of_mem htail hkept
  have hkind : requiredIsDirectory checkout required = true := by
    simp [requiredIsDirectory, requiredMatches_of_plain hplain, hdir]
  constructor
  · simp [present, hkind, requiredMatches_of_plain hplain, hdir]
  · rw [changed, hkind, if_pos rfl, folderChanged, removeSuffix_of_notMem hplain (by decide),
      removeSuffix_of_notMem hplain (by decide), List.any_eq_true]
    exact ⟨name, hmem, by simp [hbelow]⟩

theorem endswith_append (a b : String) : Text.endswith (a ++ b) b = true := by
  simp [Text.endswith, List.isSuffixOf_iff_suffix]

theorem removeSuffix_append (a b : String) : Text.removeSuffix (a ++ b) b = a := by
  rw [Text.removeSuffix, endswith_append, if_pos rfl]
  simp

theorem hasWildcard_append (a b : String) :
    hasWildcard (a ++ b) = (hasWildcard a || hasWildcard b) := by
  simp [hasWildcard]

/-- A whole tree below a plain folder. -/
theorem present_and_changed_tree {folder : String} (h : InWorkspace checkout name)
    (hplain : hasWildcard folder = false)
    (hbelow : Text.startswith name (folder ++ "/") = true) (hmem : name ∈ files) :
    present checkout (folder ++ "/**") = true ∧
      changed checkout files (folder ++ "/**") = true := by
  have hform : requiredIsDirectory checkout (folder ++ "/**") = true := by
    rw [requiredIsDirectory, isDirectoryForm, endswith_append, Bool.or_true, Bool.true_or,
      Bool.true_or]
  have hwild : hasWildcard (folder ++ "/**") = true := by
    rw [hasWildcard_append, Bool.or_eq_true_iff]
    exact Or.inr (by decide)
  have hsplit : folder ++ "/**" = folder ++ "/" ++ "**" := by
    rw [String.append_assoc]
    rfl
  have hslash : hasWildcard (folder ++ "/") = false := by
    rw [hasWildcard_append, hplain]
    decide
  constructor
  · rw [present, hform, if_pos rfl, requiredMatches, hwild, if_pos rfl, List.any_eq_true]
    obtain ⟨rest, rfl⟩ := Text.startswith_iff.mp hbelow
    obtain ⟨tail, htail, hparts⟩ := h.parts_below
    have hkept := h.kept
    rw [hparts, ← List.cons_append] at hkept
    refine ⟨"workspace" :: PurePath.parts folder, ?_, Checkout.isDir_of_mem htail hkept⟩
    rw [Checkout.glob, List.mem_filter]
    refine ⟨Checkout.mem_nodes_of_mem hkept, ?_⟩
    have hmatch := Checkout.matchParts_append (plain_parts hplain) ["**"] []
    rw [List.append_nil, Checkout.matchParts_stars_nil] at hmatch
    have hpattern : PurePath.parts (folder ++ "/" ++ "**") = PurePath.parts folder ++ ["**"] := by
      rw [PurePath.parts_append]
      rfl
    rw [hsplit, hpattern]
    simp [List.isPrefixOf, hmatch]
  · rw [changed, hform, if_pos rfl, folderChanged, hsplit, removeSuffix_append,
      removeSuffix_of_notMem hslash (by decide), List.any_eq_true]
    refine ⟨name, hmem, ?_⟩
    have hstrip : stripTrailingSlashes (folder ++ "/") = stripTrailingSlashes folder := by
      simp [stripTrailingSlashes, Text.rstripBy, List.rdropWhile_concat_pos]
    rw [hstrip, startswith_stripTrailingSlashes hbelow, Bool.or_true]

end Required

section Agreement

/-- The rules that answer the question of the runner's gate once more. -/
def deliveryRules : List String :=
  ["code.files_required", "code.required_path_missing", "code.required_path_not_changed",
    "code.scope_boundary", "code.python_source_invalid"]

/-- A required path with a special character that both gates find: a whole tree below a plain
folder, a pattern that a folder of the worktree matches part by part while a changed file lies
below its text, or one that files match both part by part and as one text. -/
def Found (checkout : Checkout) (files : List String) (required : String) : Prop :=
  (∃ folder, hasWildcard folder = false ∧ required = folder ++ "/**") ∨
    ((∃ path ∈ checkout.glob ["workspace"] required, checkout.isDir path = true) ∧
      folderChanged files required = true) ∨
    (isDirectoryForm required = false ∧
      (∀ path ∈ checkout.glob ["workspace"] required, checkout.isDir path = false) ∧
      (∃ path ∈ checkout.glob ["workspace"] required, checkout.isFile path = true) ∧
      fileChanged files required = true)

/-- What the runner's gate leaves open of what the policy asks. -/
structure Agreed (checkout : Checkout) (slot : Option String) (change : ChangeSet) : Prop where
  written : change.changedFiles ≠ []
  scope : ∀ path ∈ change.changedFiles, Text.startswith path (partition slot) = true
  decoded : ∀ path ∈ change.changedFiles, Text.endswith path ".py" = true →
    checkout.files.get? (PurePath.parts path) ≠ some none
  found : ∀ path ∈ change.requiredPaths, hasWildcard (workspaceRelative path) = true →
    Found checkout (change.changedFiles.map relativeTo) (workspaceRelative path)

variable {checkout : Checkout} {item : WorkItemFields} {change : ChangeSet}
  {parse : String → Parsed}

theorem present_and_changed_iff {files : List String} {required : String}
    (hwild : hasWildcard required = true) :
    (present checkout required = true ∧ changed checkout files required = true) ↔
      ((∃ path ∈ checkout.glob ["workspace"] required, checkout.isDir path = true) ∧
        folderChanged files required = true) ∨
      (isDirectoryForm required = false ∧
        (∀ path ∈ checkout.glob ["workspace"] required, checkout.isDir path = false) ∧
        (∃ path ∈ checkout.glob ["workspace"] required, checkout.isFile path = true) ∧
        fileChanged files required = true) := by
  have hmatches : requiredMatches checkout required = checkout.glob ["workspace"] required := by
    rw [requiredMatches, hwild, if_pos rfl]
  rw [present, changed, requiredIsDirectory, hmatches, ← List.any_eq_true]
  cases hdir : (checkout.glob ["workspace"] required).any checkout.isDir with
  | true =>
    have hsome := List.any_eq_true.mp hdir
    simp only [Bool.or_true, if_true, true_and]
    constructor
    · exact Or.inl
    · rintro (h | ⟨-, hnone, -⟩)
      · exact h
      · obtain ⟨path, hpath, hisDir⟩ := hsome
        rw [hnone path hpath] at hisDir
        cases hisDir
  | false =>
    have hnone := List.any_eq_false.mp hdir
    cases hform : isDirectoryForm required <;> simp_all

theorem delivered_name (hkept : ∀ path ∈ change.changedFiles, Kept checkout path)
    (hscope : ∀ path ∈ change.changedFiles, Text.startswith path "workspace/" = true)
    {required : String} (h : CodeDelivery.delivered item change.changedFiles required = true) :
    ∃ name ∈ change.changedFiles.map relativeTo, InWorkspace checkout name ∧
      (name = workspaceRelative required ∨ globMatches name (workspaceRelative required) = true ∨
        Text.startswith name (stripTrailingSlashes (workspaceRelative required) ++ "/") = true) := by
  have hname : ∀ path ∈ change.changedFiles, relativeTo path ∈ change.changedFiles.map relativeTo ∧
      InWorkspace checkout (relativeTo path) ∧ workspaceRelative path = relativeTo path := by
    intro path hpath
    obtain ⟨name, rfl⟩ := Text.startswith_iff.mp (hscope path hpath)
    have hin := (hkept _ hpath).inWorkspace
    refine ⟨List.mem_map_of_mem hpath, ?_, ?_⟩
    · rwa [relativeTo, Text.removePrefix_append]
    · rw [hin.workspaceRelative, relativeTo, Text.removePrefix_append]
  unfold CodeDelivery.delivered at h
  split at h
  · rw [decide_eq_true_eq] at h
    obtain ⟨path, hpath, heq⟩ := List.mem_map.mp h
    obtain ⟨hmem, hin, hrelative⟩ := hname path hpath
    exact ⟨relativeTo path, hmem, hin, Or.inl (hrelative.symm.trans heq)⟩
  · obtain ⟨path, hpath, hdelivers⟩ := List.any_eq_true.mp h
    obtain ⟨hmem, hin, hrelative⟩ := hname path hpath
    rw [delivers, hrelative, Bool.or_eq_true_iff] at hdelivers
    exact ⟨relativeTo path, hmem, hin, Or.inr hdelivers⟩

theorem requiredIssues_eq_nil {ref : ArtifactRef} {path : String} :
    requiredIssues checkout ref change path = [] ↔
      present checkout (workspaceRelative path) = true ∧
        changed checkout (change.changedFiles.map relativeTo) (workspaceRelative path) = true := by
  unfold requiredIssues
  dsimp only
  cases hpresent : present checkout (workspaceRelative path) <;>
    cases hchanged : changed checkout (change.changedFiles.map relativeTo)
      (workspaceRelative path) <;> simp

/-- What the runner found delivered, the policy finds present and changed, but for some patterns. -/
theorem requiredIssues_of_delivered {ref : ArtifactRef} {path : String}
    (hkept : ∀ path ∈ change.changedFiles, Kept checkout path)
    (hscope : ∀ path ∈ change.changedFiles, Text.startswith path "workspace/" = true)
    (h : CodeDelivery.delivered item change.changedFiles path = true) :
    requiredIssues checkout ref change path = [] ↔
      (hasWildcard (workspaceRelative path) = true →
        Found checkout (change.changedFiles.map relativeTo) (workspaceRelative path)) := by
  rw [requiredIssues_eq_nil]
  obtain ⟨name, hmem, hin, hmatch⟩ := delivered_name hkept hscope h
  cases hwild : hasWildcard (workspaceRelative path) with
  | false =>
    simp only [Bool.false_eq_true, false_imp_iff, iff_true]
    rcases hmatch with heq | hglob | hbelow
    · rw [← heq] at hwild ⊢
      exact present_and_changed_self hin hwild hmem
    · have hflat : Glob.flattenStars (workspaceRelative path) = workspaceRelative path := by
        have happend := Glob.flattenStars_append hwild ""
        rwa [String.append_empty, show Glob.flattenStars "" = "" from rfl,
          String.append_empty] at happend
      have heq : name = workspaceRelative path := by
        simpa [globMatches, hflat, Glob.fnmatch_of_plain hwild] using hglob
      rw [← heq] at hwild ⊢
      exact present_and_changed_self hin hwild hmem
    · exact present_and_changed_below hin hwild hbelow hmem
  | true =>
    simp only [true_imp_iff, Found, ← present_and_changed_iff hwild]
    constructor
    · exact Or.inr
    · rintro (⟨folder, hfolder, hrequired⟩ | hfound)
      · rw [hrequired] at hmatch ⊢
        have hslash : hasWildcard (folder ++ "/") = false := by
          rw [hasWildcard_append, hfolder]
          decide
        have hsplit : folder ++ "/**" = folder ++ "/" ++ "**" := by
          rw [String.append_assoc]
          rfl
        refine present_and_changed_tree hin hfolder ?_ hmem
        rcases hmatch with heq | hglob | hbelow
        · rw [heq, hsplit]
          exact Text.startswith_append _ _
        · rw [globMatches, hsplit, Glob.flattenStars_append hslash, Bool.or_eq_true_iff] at hglob
          rcases hglob with hstars | hstar
          · exact Glob.startswith_of_fnmatch hslash hstars
          · exact Glob.startswith_of_fnmatch hslash hstar
        · obtain ⟨rest, hrest⟩ := Text.startswith_iff.mp hbelow
          have hstrip : stripTrailingSlashes (folder ++ "/**") = folder ++ "/" ++ "**" := by
            rw [hsplit]
            apply String.toList_inj.mp
            have hstars : ("**" : String).toList = ['*'] ++ ['*'] := rfl
            simp only [stripTrailingSlashes, Text.rstripBy, String.toList_ofList,
              String.toList_append, hstars, ← List.append_assoc]
            exact List.rdropWhile_concat_neg _ _ _ (by decide)
          rw [hrest, hstrip, String.append_assoc, String.append_assoc]
          exact Text.startswith_append _ _
      · exact hfound

theorem startswith_workspace {path : String} {slot : Option String}
    (h : Text.startswith path (partition slot) = true) :
    Text.startswith path "workspace/" = true := by
  have hroot : ∃ rest, partition slot = "workspace/" ++ rest := by
    unfold partition
    split
    · exact ⟨"backend/", rfl⟩
    · exact ⟨"frontend/", rfl⟩
    · exact ⟨"", rfl⟩
  obtain ⟨rest, hrest⟩ := hroot
  obtain ⟨name, rfl⟩ := Text.startswith_iff.mp h
  rw [hrest, String.append_assoc]
  exact Text.startswith_append _ _

/-- No issue of the rules that both gates know. -/
def quiet (issues : List QualityIssue) : Prop := ∀ issue ∈ issues, issue.ruleId ∉ deliveryRules

theorem quiet_append {a b : List QualityIssue} : quiet (a ++ b) ↔ quiet a ∧ quiet b :=
  List.forall_mem_append

theorem quiet_nil : quiet [] := fun _ h => absurd h List.not_mem_nil

theorem quiet_requiredIssues {ref : ArtifactRef} {path : String} :
    quiet (requiredIssues checkout ref change path) ↔
      requiredIssues checkout ref change path = [] := by
  constructor
  · intro h
    unfold requiredIssues at h ⊢
    dsimp only at h ⊢
    split at h
    · exact absurd (h _ List.mem_cons_self) (by simp [deliveryRules])
    · split at h
      · exact absurd (h _ List.mem_cons_self) (by simp [deliveryRules])
      · simp_all
  · intro h
    rw [h]
    exact quiet_nil

theorem quiet_fileIssues {ref : ArtifactRef} {seen : Bool} {path : String} :
    quiet (GitCodeIntegrationPolicy.fileIssues parse checkout ref change seen path) ↔
      Text.startswith path (partition ref.slot) = true ∧
        (Text.endswith path ".py" = true → sourceError parse checkout path = none) := by
  unfold GitCodeIntegrationPolicy.fileIssues
  rw [quiet_append, quiet_append]
  have hduplicate : quiet (if seen = true then [⟨"code.duplicate_path",
      "多个代码分区声明了同一个文件: " ++ path ++ "。", [toString change.commit]⟩] else []) := by
    split <;> simp [quiet, deliveryRules]
  simp only [hduplicate, and_true]
  apply and_congr
  · cases hscope : Text.startswith path (partition ref.slot) <;> simp [quiet, deliveryRules]
  · cases hends : Text.endswith path ".py" <;>
      cases herror : sourceError parse checkout path <;> simp [quiet, deliveryRules]

theorem quiet_filesIssues {ref : ArtifactRef} {seen files : List String} :
    quiet (filesIssues parse checkout ref change seen files) ↔
      ∀ path ∈ files, Text.startswith path (partition ref.slot) = true ∧
        (Text.endswith path ".py" = true → sourceError parse checkout path = none) := by
  induction files generalizing seen with
  | nil => simp [filesIssues, quiet_nil]
  | cons path files ih =>
    rw [filesIssues, quiet_append, quiet_fileIssues, ih, List.forall_mem_cons]

theorem quiet_evaluate {disk : ChangeSet → Checkout} {ref : ArtifactRef}
    (hlayer : ref.layer = "staged") (hkey : ref.artifactKey = "implementation") :
    quiet (evaluate parse disk [(ref, change)]) ↔
      change.changedFiles ≠ [] ∧
      (∀ path ∈ change.requiredPaths, requiredIssues (disk change) ref change path = []) ∧
      ∀ path ∈ change.changedFiles, Text.startswith path (partition ref.slot) = true ∧
        (Text.endswith path ".py" = true → sourceError parse (disk change) path = none) := by
  have hentry : quiet (entrypointIssues parse (disk change) ref change) := by
    unfold entrypointIssues
    split
    · cases entrypointError parse (disk change) <;> simp [quiet, deliveryRules]
    · exact quiet_nil
  have hrequired : quiet (change.requiredPaths.flatMap (requiredIssues (disk change) ref change)) ↔
      ∀ path ∈ change.requiredPaths, requiredIssues (disk change) ref change path = [] := by
    simp only [← quiet_requiredIssues, quiet, List.mem_flatMap]
    constructor
    · exact fun h path hpath issue hissue => h issue ⟨path, hpath, hissue⟩
    · rintro h issue ⟨path, hpath, hissue⟩
      exact h path hpath issue hissue
  have hwritten : quiet (if change.changedFiles = [] then [⟨"code.files_required",
      "分区 " ++ ref.slot.getD "None" ++ " 的 ChangeSet 没有文件变更。",
      [toString change.commit]⟩] else []) ↔ change.changedFiles ≠ [] := by
    by_cases hfiles : change.changedFiles = [] <;> simp [hfiles, quiet, deliveryRules]
  have hbaselines : (dedupe [change.baseCommit]).length ≤ 1 := le_rfl
  have hsource : ¬ ((ref.layer ≠ "staged" || ref.artifactKey ≠ "implementation") = true) := by
    simp [hlayer, hkey]
  have houtput : evaluate parse disk [(ref, change)] =
      outputIssues parse (disk change) [] ref change := by
    simp [evaluate, outputsIssues, hbaselines]
  rw [houtput, outputIssues, if_neg hsource, quiet_append, quiet_append, quiet_append, hwritten,
    hrequired, quiet_filesIssues]
  simp only [hentry, and_true, and_assoc]

theorem endswith_below {folder name suffix : String}
    (h : Text.endswith (folder ++ "/" ++ name) suffix = true) (hslash : '/' ∉ suffix.toList) :
    Text.endswith name suffix = true := by
  rw [Text.endswith, List.isSuffixOf_iff_suffix] at h ⊢
  have htail : '/' :: name.toList <:+ (folder ++ "/" ++ name).toList :=
    ⟨folder.toList, by simp [show ("/" : String).toList = ['/'] from rfl]⟩
  have hname : name.toList <:+ (folder ++ "/" ++ name).toList :=
    (List.suffix_cons _ _).trans htail
  rcases Nat.lt_or_ge name.toList.length suffix.toList.length with hlt | hle
  · have hinside := List.suffix_of_suffix_length_le htail h (Nat.succ_le_of_lt hlt)
    exact absurd (hinside.subset List.mem_cons_self) hslash
  · exact List.suffix_of_suffix_length_le h hname hle

/-- A Python file that the runner's gate let through is invalid only as a text. -/
theorem sourceError_eq_none_iff {contract : Json} {interfaces : List String} {name : String}
    (hin : InWorkspace checkout name)
    (hends : Text.endswith ("workspace" ++ "/" ++ name) ".py" = true)
    (h : CodeDelivery.fileIssues parse checkout contract interfaces name = .ok []) :
    sourceError parse checkout ("workspace/" ++ name) = none ↔
      checkout.files.get? (PurePath.parts ("workspace/" ++ name)) ≠ some none := by
  have hparts : PurePath.parts ("workspace/" ++ name) = "workspace" :: PurePath.parts name := by
    have hroot : ("workspace/" : String) = "workspace" ++ "/" := rfl
    rw [hroot, PurePath.parts_append]
    rfl
  have hname := endswith_below hends (by decide)
  obtain ⟨text, htext⟩ := Dict.mem_keys_iff.mp hin.kept
  unfold CodeDelivery.fileIssues at h
  unfold sourceError
  rw [hparts, htext]
  cases text with
  | none => simp [Checkout.readText, htext]
  | some text =>
    simp only [Checkout.readText, htext, hname, if_true] at h ⊢
    split at h
    · simp at h
    · rename_i hblank
      cases hparse : parse (Text.readText text) with
      | valueError message => simp [hparse, raise] at h
      | syntaxError message => simp [hparse] at h
      | tree nodes => simp [hblank]

theorem deliveryIssues_eq_nil (h : CodeDelivery.deliveryIssues parse checkout item change = .ok []) :
    (∀ path ∈ item.requiredPaths, CodeDelivery.delivered item change.changedFiles path = true) ∧
      ∃ contract interfaces, ∀ path ∈ change.changedFiles,
        CodeDelivery.fileIssues parse checkout contract interfaces (workspaceRelative path) =
          .ok [] := by
  unfold CodeDelivery.deliveryIssues at h
  split at h
  · simp at h
  · obtain ⟨content, hcontent, hissues⟩ := bind_eq_ok.mp h
    have hnone : ∀ issue, issue ∉ ((item.requiredPaths.filter fun path =>
        !CodeDelivery.delivered item change.changedFiles path).map workspaceRelative) ∧
        issue ∉ content := by
      intro issue
      have hissue := @mem_dedupe String _ _ issue |>.not.mp
        (by rw [Except.ok.inj hissues]; exact List.not_mem_nil)
      simp only [List.mem_append, not_or] at hissue
      exact ⟨hissue.1.1.1, hissue.2⟩
    constructor
    · intro path hpath
      by_contra hmissing
      apply (hnone (workspaceRelative path)).1
      exact List.mem_map_of_mem (List.mem_filter.mpr ⟨hpath, by simpa using hmissing⟩)
    · obtain ⟨interfaces, -, hfiles⟩ := bind_eq_ok.mp hcontent
      obtain ⟨issues, hcollect, hflat⟩ := bind_eq_ok.mp hfiles
      refine ⟨Json.obj (item.deliveryContract.getD []), interfaces, fun path hpath => ?_⟩
      have hsorted : workspaceRelative path ∈
          Text.sorted (dedupe (change.changedFiles.map workspaceRelative)) := by
        rw [Text.mem_sorted, mem_dedupe]
        exact List.mem_map_of_mem hpath
      obtain ⟨found, hfound, hissue⟩ := collect_mem hcollect hsorted
      rw [hissue]
      have hempty : found = [] := by
        apply List.eq_nil_iff_forall_not_mem.mpr
        intro issue hmem
        apply (hnone issue).2
        rw [← Except.ok.inj hflat]
        exact List.mem_flatten.mpr ⟨found, hfound, hmem⟩
      rw [hempty]

/-- What the runner lets through, the policy lets through exactly when it stays within the slot,
has a file, is decodable, and is found under its patterns. -/
theorem deliveryGates_agree (parse : String → Parsed) (disk : ChangeSet → Checkout)
    (item : WorkItemFields) (ref : ArtifactRef) (change : ChangeSet)
    (hlayer : ref.layer = "staged") (hkey : ref.artifactKey = "implementation")
    (hslot : ref.slot = item.slot) (hrequired : change.requiredPaths = item.requiredPaths)
    (hkept : ∀ path ∈ change.changedFiles, Kept (disk change) path)
    (hpassed : CodeDelivery.deliveryIssues parse (disk change) item change = .ok []) :
    (∀ issue ∈ evaluate parse disk [(ref, change)], issue.ruleId ∉ deliveryRules) ↔
      Agreed (disk change) item.slot change := by
  obtain ⟨hdelivered, contract, interfaces, hcontent⟩ := deliveryIssues_eq_nil hpassed
  rw [← hrequired] at hdelivered
  have hsource : ∀ path ∈ change.changedFiles, Text.startswith path "workspace/" = true →
      Text.endswith path ".py" = true →
      (sourceError parse (disk change) path = none ↔
        (disk change).files.get? (PurePath.parts path) ≠ some none) := by
    intro path hpath hstarts hends
    obtain ⟨name, rfl⟩ := Text.startswith_iff.mp hstarts
    have hin := (hkept _ hpath).inWorkspace
    have hissues := hcontent _ hpath
    rw [hin.workspaceRelative] at hissues
    exact sourceError_eq_none_iff hin hends hissues
  rw [← hslot]
  refine (quiet_evaluate hlayer hkey).trans ?_
  constructor
  · rintro ⟨hwritten, hissues, hfiles⟩
    have hroot := fun path hpath => startswith_workspace (hfiles path hpath).1
    refine ⟨hwritten, fun path hpath => (hfiles path hpath).1, ?_, ?_⟩
    · intro path hpath hends
      exact (hsource path hpath (hroot path hpath) hends).mp ((hfiles path hpath).2 hends)
    · intro path hpath
      exact (requiredIssues_of_delivered hkept hroot (hdelivered path hpath)).mp
        (hissues path hpath)
  · intro h
    have hroot := fun path hpath => startswith_workspace (h.scope path hpath)
    refine ⟨h.written, ?_, ?_⟩
    · intro path hpath
      exact (requiredIssues_of_delivered hkept hroot (hdelivered path hpath)).mpr
        (h.found path hpath)
    · intro path hpath
      refine ⟨h.scope path hpath, fun hends => ?_⟩
      exact (hsource path hpath (hroot path hpath) hends).mpr (h.decoded path hpath hends)

/-- One page below one folder. -/
def docsCheckout : Checkout where
  files := ⟨[(["workspace", "docs", "a.md"], some "text")], by decide⟩
  named := by decide
  apart := by decide

def docsItem (required : String) : WorkItemFields where
  id := "docs"
  agentId := "code_agent"
  objective := "write the pages"
  outputKey := "code"
  executionMode := .partitioned
  slot := some "root"
  requiredPaths := [required]

def docsChange (required : String) : ChangeSet where
  traceId := "run"
  workItemId := "docs"
  branchName := "task/run/docs"
  baseCommit := 0
  commit := 1
  changedFiles := ["workspace/docs/a.md"]
  worktreePath := ("run", "docs")
  requiredPaths := [required]

def docsRef : ArtifactRef where
  artifactKey := "implementation"
  layer := "staged"
  traceId := some "run"
  workItemId := some "docs"
  slot := some "root"
  accepted := by decide

theorem docs_kept (required : String) :
    ∀ path ∈ (docsChange required).changedFiles, Kept docsCheckout path := by
  intro path hpath
  rw [docsChange, List.mem_singleton] at hpath
  exact ⟨["workspace", "docs", "a.md"], by decide, hpath⟩

/-- Both gates find a page below `docs/**`. -/
theorem deliveryGates_agree_tree :
    (∀ issue ∈ evaluate (fun _ => .tree []) (fun _ => docsCheckout)
      [(docsRef, docsChange "docs/**")], issue.ruleId ∉ deliveryRules) ↔
      Agreed docsCheckout (docsItem "docs/**").slot (docsChange "docs/**") :=
  deliveryGates_agree (fun _ => .tree []) (fun _ => docsCheckout) (docsItem "docs/**") docsRef
    (docsChange "docs/**") rfl rfl rfl rfl (docs_kept _) (by decide +kernel)

/-- The page is a match of `docs/*` for the runner, and no folder for the policy. -/
theorem deliveryGates_disagree_star :
    docsRef.layer = "staged" ∧ docsRef.artifactKey = "implementation" ∧
      docsRef.slot = (docsItem "docs/*").slot ∧
      (docsChange "docs/*").requiredPaths = (docsItem "docs/*").requiredPaths ∧
      (∀ path ∈ (docsChange "docs/*").changedFiles, Kept docsCheckout path) ∧
      CodeDelivery.deliveryIssues (fun _ => .tree []) docsCheckout (docsItem "docs/*")
        (docsChange "docs/*") = .ok [] ∧
      ∃ issue ∈ evaluate (fun _ => .tree []) (fun _ => docsCheckout)
        [(docsRef, docsChange "docs/*")], issue.ruleId = "code.required_path_missing" :=
  ⟨rfl, rfl, rfl, rfl, docs_kept _, by decide +kernel, by decide +kernel⟩

end Agreement

end ProjectOS.Orchestration
