import ProjectOS.Orchestration.OwnedFiles

/-! What a repaired work item may write, compared with the item it repairs. -/
namespace ProjectOS.Orchestration
open Base Code

namespace WorkItem
variable (item revised : WorkItem)

/-- `validate_scope_transition`. -/
def validateScopeTransition : Result Unit := do
  raiseWhen (item.agentId != revised.agentId || item.executionMode != revised.executionMode)
    "修复不能改变 WorkItem 的 Agent 或 execution_mode"
  raiseWhen (item.outputKind != revised.outputKind) "修复不能改变 WorkItem.output_kind"
  raiseWhen (item.ownedFiles != revised.ownedFiles) "修复不能改变 WorkItem.owned_files"
  raiseWhen (!item.forbiddenPaths.all (· ∈ revised.forbiddenPaths)) "修复不能减少 forbidden_paths"
  raiseWhen (item.allowedPaths.isEmpty && revised.allowedPaths.any Glob.hasGlob)
    "修复不能从未授权范围扩大通配 allowed_paths"
  forEach (fun path =>
      if item.allowedPaths.isEmpty then .ok ()
      else if Glob.hasGlob path then
        raiseWhen (path ∉ item.allowedPaths) "修复 allowed_paths 只能收窄，不能扩大通配范围"
      else
        raiseWhen (!item.allowedPaths.any fun pattern => Glob.fnmatch path (Glob.flattenStars pattern))
          ("修复路径超出原 allowed_paths: " ++ path))
    revised.allowedPaths

/-- What the gate of a write sees of the item. -/
def codeContext (traceId : String) (slot : Option String) : CodeContext where
  traceId := traceId
  workItemId := item.id
  executionMode := item.executionMode
  slot := slot
  allowedPaths := item.allowedPaths
  forbiddenPaths := item.forbiddenPaths
  requiredPaths := item.requiredPaths
  implementationUnitId := item.implementationUnitId
  ownedFiles := item.ownedFiles

end WorkItem

/-- The path a write goes to, before the grants are asked. -/
def scopedPath (scope : String) (allowed : List String) (normalized : String) : Option String :=
  if scope ≠ "" && !Text.startswith normalized scope then
    if allowed ≠ [] && matchesAny (scope ++ normalized) allowed then some (scope ++ normalized)
    else none
  else some normalized

theorem stagedPath_eq_ok {context : CodeContext} {path target : String} :
    context.stagedPath path = .ok target ↔
      context.executionMode = .partitioned ∧
        (∃ normalized, validatePath path = .ok normalized ∧
          scopedPath context.scope context.allowedPaths normalized = some target) ∧
        (context.allowedPaths ≠ [] → matchesAny target context.allowedPaths = true) ∧
        matchesAny target context.forbiddenPaths = false ∧
        (context.ownedFiles ≠ [] → matchesAny target context.ownedFiles = true) := by
  have hforbidden : ∀ path, (context.forbiddenPaths ≠ [] &&
      matchesAny path context.forbiddenPaths) = matchesAny path context.forbiddenPaths := by
    intro path
    cases hnone : context.forbiddenPaths with
    | nil => rfl
    | cons _ _ => simp
  unfold CodeContext.stagedPath
  simp only [raiseIf_bind_eq_ok, decide_eq_false_iff_not, not_not, hforbidden]
  apply and_congr_right
  intro _
  cases hvalid : validatePath path with
  | error e => simp
  | ok normalized =>
    simp only [ok_bind, raiseIf_bind_eq_ok, Except.ok.injEq, exists_eq_left', scopedPath]
    cases houtside : (context.scope ≠ "" && !Text.startswith normalized context.scope) with
    | false =>
      simp only [Bool.false_and, Bool.false_eq_true, if_false, Option.some.injEq]
      constructor
      · rintro ⟨-, hallowed, hforbidden, howned, rfl⟩
        exact ⟨rfl, by simpa using hallowed, hforbidden, by simpa using howned⟩
      · rintro ⟨rfl, hallowed, hforbidden, howned⟩
        exact ⟨trivial, by simpa using hallowed, hforbidden, by simpa using howned, rfl⟩
    | true =>
      simp only [Bool.true_and, if_true, Bool.not_eq_false']
      cases hgranted : (context.allowedPaths ≠ [] &&
          matchesAny (context.scope ++ normalized) context.allowedPaths) with
      | false => simp
      | true =>
        simp only [if_true, Option.some.injEq, true_and]
        constructor
        · rintro ⟨hallowed, hforbidden, howned, rfl⟩
          exact ⟨rfl, by simpa using hallowed, hforbidden, by simpa using howned⟩
        · rintro ⟨rfl, hallowed, hforbidden, howned⟩
          exact ⟨by simpa using hallowed, hforbidden, by simpa using howned, rfl⟩

section Grants
variable {allowed : List String} {path target : String}

theorem matchesAny_eq_true :
    matchesAny path allowed = true ↔ ∃ pattern ∈ allowed, patternMatches pattern path = true := by
  rw [matchesAny, List.any_eq_true]

theorem globMatches_of_flat {pattern : String}
    (h : Glob.fnmatch path (Glob.flattenStars pattern) = true) :
    globMatches path pattern = true := by
  rw [globMatches, h, Bool.or_true]

/-- A concrete path of the narrower grant is one the wider grant names. -/
theorem patternMatches_of_named {pattern : String} (hconcrete : Glob.hasGlob path = false)
    (hfile : Text.endswith path "/" = false)
    (hnamed : Glob.fnmatch path (Glob.flattenStars pattern) = true)
    (hmatch : patternMatches path target = true) : patternMatches pattern target = true := by
  have hpattern : gatePattern pattern = pattern := by
    unfold gatePattern
    split
    · rename_i hslash
      obtain ⟨folder, rfl⟩ := Text.endswith_iff.mp hslash
      rw [← @String.append_empty (folder ++ "/"), Glob.flattenStars_slash] at hnamed
      have hempty : Glob.flattenStars "" = "" := rfl
      rw [hempty, String.append_empty] at hnamed
      have hends := Glob.endswith_of_fnmatch (by decide) (by decide) hnamed
      rw [hends] at hfile
      cases hfile
    · rfl
  have hmatched := globMatches_of_flat hnamed
  have hbracket := Glob.bracket_notMem hconcrete
  rw [patternMatches_eq, gatePattern, hfile] at hmatch
  rw [patternMatches_eq, hpattern]
  simp only [Bool.false_eq_true, if_false, globMatches_plain hbracket, Glob.fnmatch_plain hconcrete,
    Bool.or_eq_true, decide_eq_true_eq] at hmatch
  rcases hmatch with rfl | hprefixed
  · rw [hmatched, Bool.true_or]
  · rw [hprefixed, hmatched, Bool.or_true]

/-- A folder of the narrower grant lies below a tree of the wider grant. -/
theorem patternMatches_of_tree {pattern : String} (hconcrete : Glob.hasGlob path = false)
    (hfolder : Text.endswith path "/" = true)
    (hnamed : Glob.fnmatch path (Glob.flattenStars pattern) = true)
    (htree : Text.endswith pattern "/" = true ∨ Text.endswith pattern "*" = true)
    (hmatch : patternMatches path target = true) : patternMatches pattern target = true := by
  have hbelow : ∀ name, Text.startswith name path = true →
      globMatches name (gatePattern pattern) = true := by
    intro name hname
    obtain ⟨rest, rfl⟩ := Text.startswith_iff.mp hname
    apply globMatches_of_flat
    unfold gatePattern
    split
    · rename_i hslash
      have hflat : Glob.flattenStars (pattern ++ "**") = Glob.flattenStars pattern ++ "*" := by
        obtain ⟨folder, rfl⟩ := Text.endswith_iff.mp hslash
        rw [Glob.flattenStars_slash, ← @String.append_empty (folder ++ "/"),
          Glob.flattenStars_slash]
        have hempty : Glob.flattenStars "" = "" := rfl
        rw [hempty, String.append_empty]
        rfl
      rw [hflat]
      exact Glob.fnmatch_append_star hnamed rest
    · rename_i hslash
      obtain ⟨stem, rfl⟩ := Text.endswith_iff.mp (htree.resolve_left hslash)
      obtain ⟨front, hfront⟩ := Glob.flattenStars_star stem
      rw [hfront] at hnamed ⊢
      exact Glob.fnmatch_append_of_star hnamed rest
  rw [patternMatches_eq, gatePattern, if_pos hfolder, globMatches_folder hconcrete,
    globMatches_folder hconcrete, Bool.or_eq_true] at hmatch
  rw [patternMatches_eq, Bool.or_eq_true]
  exact hmatch.imp (hbelow target) (hbelow _)

end Grants

/-- The cases in which a transition cannot widen the grant. -/
structure Narrowing (item revised : WorkItem) (scope : String) : Prop where
  /-- No allowed paths means no restriction: then the owned files stand in for them. -/
  restricted : revised.allowedPaths = [] → item.allowedPaths = [] ∨
    item.ownedFiles ≠ [] ∧ ∀ owned ∈ item.ownedFiles, Glob.hasGlob owned = false ∧
      Text.endswith owned "/" = false ∧
      ∀ path ∈ [owned, Text.removePrefix owned "workspace/"],
        matchesAny path item.allowedPaths = true
  /-- Only under a grant does the gate put the partition in front of a path. -/
  unprefixed : item.allowedPaths = [] → revised.allowedPaths = [] ∨ scope = ""
  /-- A new folder lies below a tree of the grant. -/
  folders : ∀ path ∈ revised.allowedPaths, Glob.hasGlob path = false →
    Text.endswith path "/" = true → item.allowedPaths = [] ∨ path ∈ item.allowedPaths ∨
      ∃ pattern ∈ item.allowedPaths, Glob.fnmatch path (Glob.flattenStars pattern) = true ∧
        (Text.endswith pattern "/" = true ∨ Text.endswith pattern "*" = true)

namespace WorkItem
variable {item revised : WorkItem}

theorem validateScopeTransition_eq_ok (h : item.validateScopeTransition revised = .ok ()) :
    item.executionMode = revised.executionMode ∧ item.ownedFiles = revised.ownedFiles ∧
      (∀ path ∈ item.forbiddenPaths, path ∈ revised.forbiddenPaths) ∧
      (item.allowedPaths ≠ [] → ∀ path ∈ revised.allowedPaths,
        if Glob.hasGlob path then path ∈ item.allowedPaths
        else ∃ pattern ∈ item.allowedPaths,
          Glob.fnmatch path (Glob.flattenStars pattern) = true) := by
  simp only [validateScopeTransition, raiseWhen_bind_eq_ok, forEach_eq_ok, Bool.or_eq_false_iff,
    bne_eq_false_iff_eq] at h
  obtain ⟨⟨-, hmode⟩, -, howned, hforbidden, -, hpaths⟩ := h
  refine ⟨hmode, howned, by simpa using hforbidden, ?_⟩
  intro hallowed path hpath
  have hchecked := hpaths path hpath
  rw [if_neg (by simpa using hallowed)] at hchecked
  split
  · rename_i hglob
    rw [if_pos hglob] at hchecked
    simpa using hchecked
  · rename_i hglob
    rw [if_neg hglob] at hchecked
    simpa using hchecked

/-- What the revised grant matches, the grant matches. -/
theorem matchesAny_of_revised (h : item.validateScopeTransition revised = .ok ()) {scope : String}
    (hnarrow : Narrowing item revised scope) (hallowed : item.allowedPaths ≠ []) {target : String}
    (hmatch : matchesAny target revised.allowedPaths = true) :
    matchesAny target item.allowedPaths = true := by
  obtain ⟨path, hpath, hmatch⟩ := matchesAny_eq_true.mp hmatch
  have hkept := (validateScopeTransition_eq_ok h).2.2.2 hallowed path hpath
  cases hglob : Glob.hasGlob path with
  | true =>
    rw [hglob, if_pos rfl] at hkept
    exact matchesAny_eq_true.mpr ⟨path, hkept, hmatch⟩
  | false =>
    rw [hglob, if_neg Bool.false_ne_true] at hkept
    cases hfolder : Text.endswith path "/" with
    | false =>
      obtain ⟨pattern, hpattern, hnamed⟩ := hkept
      exact matchesAny_eq_true.mpr
        ⟨pattern, hpattern, patternMatches_of_named hglob hfolder hnamed hmatch⟩
    | true =>
      rcases hnarrow.folders path hpath hglob hfolder with
        hnone | hsame | ⟨pattern, hpattern, hnamed, htree⟩
      · exact absurd hnone hallowed
      · exact matchesAny_eq_true.mpr ⟨path, hsame, hmatch⟩
      · exact matchesAny_eq_true.mpr
          ⟨pattern, hpattern, patternMatches_of_tree hglob hfolder hnamed htree hmatch⟩

/-- Where the revised item has no grant left, the owned files are inside the grant. -/
theorem matchesAny_of_owned {scope : String} (hnarrow : Narrowing item revised scope)
    (hallowed : item.allowedPaths ≠ []) (hnone : revised.allowedPaths = []) {target : String}
    (hmatch : item.ownedFiles ≠ [] → matchesAny target item.ownedFiles = true) :
    matchesAny target item.allowedPaths = true := by
  obtain ⟨howns, howned⟩ := (hnarrow.restricted hnone).resolve_left hallowed
  obtain ⟨owned, hmem, htarget⟩ := matchesAny_eq_true.mp (hmatch howns)
  obtain ⟨hconcrete, hfile, hinside⟩ := howned owned hmem
  rw [patternMatches_eq, gatePattern, if_neg (by rw [hfile]; decide),
    globMatches_plain (Glob.bracket_notMem hconcrete),
    globMatches_plain (Glob.bracket_notMem hconcrete), Glob.fnmatch_plain hconcrete,
    Glob.fnmatch_plain hconcrete, Bool.or_eq_true, decide_eq_true_eq, decide_eq_true_eq] at htarget
  apply hinside
  rcases htarget with rfl | rfl
  · exact List.mem_cons_self
  · rw [Text.removePrefix_append]
    exact List.mem_cons_of_mem _ (List.mem_singleton_self _)

end WorkItem

/-- A revision that narrows the grant writes nothing that the item could not write. -/
theorem scope_transition_narrows (item revised : WorkItem) (traceId : String) (slot : Option String)
    (h : item.validateScopeTransition revised = .ok ())
    (hnarrow : Narrowing item revised (scopePrefix (slot.getD ""))) (path target : String)
    (hwrite : (revised.codeContext traceId slot).stagedPath path = .ok target) :
    (item.codeContext traceId slot).stagedPath path = .ok target := by
  obtain ⟨hmode, howned, hforbidden, -⟩ := WorkItem.validateScopeTransition_eq_ok h
  obtain ⟨hpartitioned, ⟨normalized, hvalid, hscoped⟩, hallowed, hdenied, howner⟩ :=
    stagedPath_eq_ok.mp hwrite
  rw [stagedPath_eq_ok]
  refine ⟨hmode.trans hpartitioned, ⟨normalized, hvalid, ?_⟩, ?_, ?_, ?_⟩
  · unfold scopedPath at hscoped ⊢
    split at hscoped
    · rename_i houtside
      split at hscoped
      · rename_i hgranted
        rw [Bool.and_eq_true, decide_eq_true_eq] at houtside hgranted
        have hgrant : item.allowedPaths ≠ [] := fun hnone =>
          (hnarrow.unprefixed hnone).elim hgranted.1 houtside.1
        have hmatch := WorkItem.matchesAny_of_revised h hnarrow hgrant hgranted.2
        rw [if_pos (by rw [Bool.and_eq_true, decide_eq_true_eq]; exact houtside),
          if_pos (by rw [Bool.and_eq_true, decide_eq_true_eq]; exact ⟨hgrant, hmatch⟩)]
        exact hscoped
      · cases hscoped
    · rename_i hinside
      have hscope : (item.codeContext traceId slot).scope =
        (revised.codeContext traceId slot).scope := rfl
      rw [hscope, if_neg hinside]
      exact hscoped
  · intro hgrant
    by_cases hnone : revised.allowedPaths = []
    · exact WorkItem.matchesAny_of_owned hnarrow hgrant hnone (by rw [howned]; exact howner)
    · exact WorkItem.matchesAny_of_revised h hnarrow hgrant (hallowed hnone)
  · rw [matchesAny, List.any_eq_false] at hdenied ⊢
    exact fun pattern hpattern => hdenied pattern (hforbidden pattern hpattern)
  · intro howns
    have hsame : (item.codeContext traceId slot).ownedFiles = revised.ownedFiles := howned
    rw [hsame] at howns ⊢
    exact howner howns

def scopeItem (allowed : List String) : WorkItemFields := {
  id := "write-orders"
  agentId := "code_agent"
  objective := "write the orders module"
  outputKey := "orders"
  executionMode := .partitioned
  slot := some "backend"
  allowedPaths := allowed }

def treeItem : WorkItem := .ofFields (scopeItem ["backend/orders/**"]) (by decide)

def fileItem : WorkItem := .ofFields (scopeItem ["backend/orders/main.py"]) (by decide)

def openItem : WorkItem := .ofFields (scopeItem []) (by decide)

theorem file_within_tree :
    (treeItem.codeContext "tr-1" (some "backend")).stagedPath "orders/main.py" =
      .ok "backend/orders/main.py" :=
  scope_transition_narrows treeItem fileItem "tr-1" (some "backend") (by decide)
    ⟨by decide, by decide, by decide⟩ "orders/main.py" "backend/orders/main.py" (by decide)

/-- A revision without allowed paths passes the check and lifts the restriction. -/
theorem empty_grant_widens :
    treeItem.validateScopeTransition openItem = .ok () ∧
      (openItem.codeContext "tr-1" (some "backend")).stagedPath "backend/auth.py" =
        .ok "backend/auth.py" ∧
      ((treeItem.codeContext "tr-1" (some "backend")).stagedPath "backend/auth.py").isOk =
        false := by
  decide

end ProjectOS.Orchestration
