import ProjectOS.Orchestration.OwnedFiles

/-! When the constructor's test whether a deny pattern leaves nothing of a grant agrees with the
gate of a write. -/
namespace ProjectOS.Orchestration
open Base Code

/-- The deny pattern matches what the grant matches. -/
def Covered (allowed forbidden : String) : Prop :=
  ∀ path, patternMatches allowed path = true → patternMatches forbidden path = true

/-- A pattern as the constructor and the gate spell it: relative to the workspace, with single
slashes. -/
structure Canonical (pattern : String) : Prop where
  nonempty : pattern ≠ ""
  normal : normalizePathPattern pattern = gatePattern pattern
  relative : Text.startswith pattern "workspace/" = false
  anchored : Text.startswith pattern "/" = false
  slashes : ¬ ['/', '/'] <:+: pattern.toList

/-- The folder of a tree pattern. -/
def treeRoot (pattern : String) : String :=
  stripTrailingSlashes (Text.removeSuffix pattern "/**")

section Prefixes
variable {left root : String}

theorem literalPrefix_startswith (left : String) :
    Text.startswith left (literalPrefix left) = true := by
  rw [Text.startswith, List.isPrefixOf_iff_prefix, literalPrefix, stripTrailingSlashes,
    Text.rstripBy, String.toList_ofList, String.toList_ofList]
  exact (List.rdropWhile_prefix _ _).trans (List.takeWhile_prefix _)

theorem hasGlob_literalPrefix (left : String) : Glob.hasGlob (literalPrefix left) = false := by
  rw [Glob.hasGlob, List.any_eq_false]
  intro c hc
  rw [literalPrefix, stripTrailingSlashes, Text.rstripBy, String.toList_ofList,
    String.toList_ofList] at hc
  have hplain := List.mem_takeWhile_imp ((List.rdropWhile_prefix _ _).subset hc)
  simpa using hplain

theorem rdropWhile_slash {root : List Char} (hends : root.rdropWhile (· = '/') = root)
    (below : List Char) :
    (root ++ '/' :: below).rdropWhile (· = '/') = root ∨
      ∃ rest, (root ++ '/' :: below).rdropWhile (· = '/') = root ++ '/' :: rest := by
  induction below using List.reverseRecOn with
  | nil =>
    rw [List.rdropWhile_concat_pos _ _ _ (by decide)]
    exact .inl hends
  | append_singleton below c ih =>
    rw [← List.cons_append, ← List.append_assoc]
    by_cases hc : c = '/'
    · rwa [List.rdropWhile_concat_pos _ _ _ (by simpa using hc)]
    · rw [List.rdropWhile_concat_neg _ _ _ (by simpa using hc)]
      exact .inr ⟨below ++ [c], by simp⟩

theorem rdropWhile_of_not_endswith (hends : Text.endswith root "/" = false) :
    root.toList.rdropWhile (· = '/') = root.toList := by
  rw [List.rdropWhile_eq_self_iff]
  intro hne hlast
  have hslash : Text.endswith root "/" = true := by
    rw [Text.endswith_iff]
    refine ⟨String.ofList root.toList.dropLast, String.toList_inj.mp ?_⟩
    have hc : root.toList.getLast hne = '/' := by simpa using hlast
    rw [String.toList_append, String.toList_ofList]
    exact (hc ▸ List.dropLast_append_getLast hne).symm
  rw [hslash] at hends
  cases hends

/-- The literal part of a pattern below a folder is the folder, or lies below it. -/
theorem literalPrefix_below (hconcrete : Glob.hasGlob root = false)
    (hends : Text.endswith root "/" = false) (hbelow : Text.startswith left (root ++ "/") = true) :
    literalPrefix left = root ∨ Text.startswith (literalPrefix left) (root ++ "/") = true := by
  obtain ⟨rest, rfl⟩ := Text.startswith_iff.mp hbelow
  have hslash : ("/" : String).toList = ['/'] := rfl
  have hplain : ∀ c ∈ (root ++ "/").toList,
      (!(c = '*' || c = '?' || c = '[' || c = ']')) = true := by
    intro c hc
    rw [String.toList_append, hslash, List.mem_append, List.mem_singleton] at hc
    rcases hc with hc | rfl
    · rw [Glob.hasGlob, List.any_eq_false] at hconcrete
      simpa using hconcrete c hc
    · decide
  unfold literalPrefix stripTrailingSlashes Text.rstripBy
  rw [String.toList_ofList, String.toList_append, List.takeWhile_append_of_pos hplain,
    String.toList_append, hslash, List.append_assoc, List.singleton_append]
  rcases rdropWhile_slash (rdropWhile_of_not_endswith hends) _ with hroot | ⟨below, hbelow⟩
  · exact .inl (by rw [hroot, String.ofList_toList])
  · right
    rw [hbelow, Text.startswith_iff]
    exact ⟨String.ofList below, String.toList_inj.mp (by simp [hslash])⟩

end Prefixes

namespace Canonical
variable {pattern : String}

theorem gate_not_below (h : Canonical pattern) (path : String) :
    gatePattern pattern ≠ "workspace/" ++ path := by
  intro heq
  have hbelow : Text.startswith pattern "workspace/" = true := by
    unfold gatePattern at heq
    split at heq
    · have hlist := congrArg String.toList heq
      rw [String.toList_append, String.toList_append, List.append_eq_append_iff] at hlist
      rw [Text.startswith, List.isPrefixOf_iff_prefix]
      rcases hlist with ⟨rest, hbelowStars, hstars⟩ | ⟨rest, hpattern, -⟩
      · cases rest with
        | nil => rw [hbelowStars, List.append_nil]
        | cons c rest =>
          have hc : '*' = c := (List.cons.inj hstars).1
          have hmem : '*' ∈ ("workspace/" : String).toList := by
            rw [hbelowStars, hc]
            exact List.mem_append_right _ List.mem_cons_self
          exact absurd hmem (by decide)
      · exact ⟨rest, hpattern.symm⟩
    · rw [heq]
      exact Text.startswith_append _ _
  rw [h.relative] at hbelow
  cases hbelow

theorem gate_ne_empty (h : Canonical pattern) : gatePattern pattern ≠ "" := by
  unfold gatePattern
  split
  · intro hempty
    have hlist := congrArg String.toList hempty
    rw [String.toList_append] at hlist
    exact absurd (List.append_eq_nil_iff.mp hlist).2 (by decide)
  · exact h.nonempty

theorem gate_gate (pattern : String) : gatePattern (gatePattern pattern) = gatePattern pattern := by
  have hfile : Text.endswith (gatePattern pattern) "/" = false := by
    unfold gatePattern
    split
    · rw [Bool.eq_false_iff, ne_eq, Text.endswith_iff]
      rintro ⟨front, heq⟩
      have hlist := congrArg (List.getLast? ∘ String.toList) heq
      simp [show ("**" : String).toList = ['*', '*'] from rfl,
        show ("/" : String).toList = ['/'] from rfl] at hlist
    · rename_i h
      exact Bool.eq_false_of_not_eq_true h
  rw [gatePattern, hfile, if_neg Bool.false_ne_true]

theorem patternMatches_gate (pattern path : String) :
    patternMatches (gatePattern pattern) path = patternMatches pattern path := by
  rw [patternMatches_eq, patternMatches_eq, gate_gate]

end Canonical

/-- A concrete grant is covered when the deny pattern matches its one path. -/
theorem covered_concrete {allowed forbidden : String} (ha : Canonical allowed)
    (hconcrete : Glob.hasGlob (gatePattern allowed) = false) :
    Covered allowed forbidden ↔ patternMatches forbidden (gatePattern allowed) = true := by
  have hmatches : ∀ path, patternMatches allowed path = true ↔ path = gatePattern allowed := by
    intro path
    rw [patternMatches_eq, globMatches_plain (Glob.bracket_notMem hconcrete),
      globMatches_plain (Glob.bracket_notMem hconcrete), Glob.fnmatch_plain hconcrete,
      Glob.fnmatch_plain hconcrete, Bool.or_eq_true, decide_eq_true_eq, decide_eq_true_eq]
    exact or_iff_left fun hbelow => ha.gate_not_below path hbelow.symm
  simp only [Covered, hmatches, forall_eq]

section Trees
variable {allowed forbidden root : String}

/-- A tree covers the patterns that start with its folder. -/
theorem covered_tree (hconcrete : Glob.hasGlob root = false)
    (htree : gatePattern forbidden = root ++ "/**")
    (hbelow : Text.startswith (gatePattern allowed) (root ++ "/") = true) :
    Covered allowed forbidden := by
  have hfolder : Glob.hasGlob (root ++ "/") = false := by
    rw [Glob.hasGlob] at hconcrete ⊢
    rw [String.toList_append, List.any_append, hconcrete]
    rfl
  have hplain := Glob.isSpecial_of_hasGlob hfolder
  obtain ⟨rest, hrest⟩ := Text.startswith_iff.mp hbelow
  have hin : ∀ name, globMatches name (gatePattern allowed) = true →
      globMatches name (gatePattern forbidden) = true := by
    intro name hname
    have hstars : root ++ "/**" = root ++ "/" ++ "**" := by
      rw [String.append_assoc]
      rfl
    rw [htree, hstars, globMatches_folder hfolder]
    rw [hrest, globMatches, Bool.or_eq_true, Glob.flattenStars_append hplain] at hname
    exact hname.elim (Glob.startswith_of_fnmatch hplain) (Glob.startswith_of_fnmatch hplain)
  intro path hpath
  rw [patternMatches_eq, Bool.or_eq_true] at hpath ⊢
  exact hpath.imp (hin path) (hin _)

theorem prefix_of_filled {text pattern : List Char} (htext : ']' ∉ text)
    (h : text <+: pattern.map fun d => if d = '*' || d = '?' then ']' else d) :
    text <+: pattern := by
  induction text generalizing pattern with
  | nil => exact List.nil_prefix
  | cons c text ih =>
    cases pattern with
    | nil => exact absurd h (by simp)
    | cons d pattern =>
      rw [List.map_cons, List.cons_prefix_cons] at h
      rw [List.mem_cons, not_or] at htext
      have hsame : c = d := by
        by_cases hd : (d = '*' || d = '?') = true
        · rw [if_pos hd] at h
          exact absurd h.1.symm htext.1
        · rw [if_neg hd] at h
          exact h.1
      exact List.cons_prefix_cons.mpr ⟨hsame, ih htext.2 h.2⟩

theorem closing_notMem {text : String} (h : Glob.hasGlob text = false) : ']' ∉ text.toList := by
  intro hmem
  rw [Glob.hasGlob, List.any_eq_false] at h
  exact h _ hmem (by decide)

/-- Filling in closing brackets puts nothing below a concrete text. -/
theorem startswith_of_fillWith {text pattern : String} (htext : ']' ∉ text.toList)
    (h : Text.startswith (Glob.fillWith ']' pattern) text = true) :
    Text.startswith pattern text = true := by
  rw [Text.startswith, List.isPrefixOf_iff_prefix] at h ⊢
  rw [Glob.fillWith, String.toList_ofList] at h
  exact prefix_of_filled htext h

theorem closing_mem_fillWith {pattern : String} (hbracket : '[' ∉ pattern.toList)
    (hglob : Glob.hasGlob pattern = true) : ']' ∈ (Glob.fillWith ']' pattern).toList := by
  rw [Glob.hasGlob, List.any_eq_true] at hglob
  obtain ⟨d, hd, hspecial⟩ := hglob
  rw [Glob.fillWith, String.toList_ofList, List.mem_map]
  refine ⟨d, hd, ?_⟩
  have hne : d ≠ '[' := by
    rintro rfl
    exact hbracket hd
  simp only [Bool.or_eq_true, decide_eq_true_eq] at hspecial ⊢
  rcases hspecial with ((rfl | rfl) | rfl) | rfl
  · rfl
  · rfl
  · exact absurd rfl hne
  · rfl

theorem not_below_workspace (hf : Canonical forbidden)
    (htree : gatePattern forbidden = root ++ "/**") (path : String) :
    Text.startswith ("workspace/" ++ path) (root ++ "/") = false := by
  rw [Bool.eq_false_iff, ne_eq, Text.startswith, List.isPrefixOf_iff_prefix]
  intro hbelowStars
  have hnot : ¬ ("workspace/" : String).toList <+: (root ++ "/").toList := by
    rintro ⟨rest, hrest⟩
    apply hf.gate_not_below (String.ofList rest ++ "**")
    have hroot : root ++ "/" = "workspace/" ++ String.ofList rest :=
      String.toList_inj.mp (by simp [← hrest])
    have hstars : root ++ "/**" = root ++ "/" ++ "**" := by
      rw [String.append_assoc]
      rfl
    rw [htree, hstars, hroot, String.append_assoc]
  have hpath : ("workspace/" : String).toList <+: ("workspace/" ++ path).toList := by
    rw [String.toList_append]
    exact List.prefix_append _ _
  rcases List.prefix_or_prefix_of_prefix hpath hbelowStars with habove | hinside
  · exact hnot habove
  · have hworkspace : ("workspace/" : String).toList = "workspace".toList ++ ['/'] := rfl
    rw [hworkspace, List.prefix_concat_iff] at hinside
    rcases hinside with hsame | hinside
    · exact hnot (by rw [hsame, hworkspace])
    · have hslash : '/' ∈ (root ++ "/").toList := by
        rw [String.toList_append]
        exact List.mem_append_right _ (List.mem_singleton_self _)
      exact absurd (hinside.subset hslash) (by decide)

/-- A tree covers no pattern that does not start with its folder. -/
theorem not_covered_tree (hf : Canonical forbidden) (hbracket : '[' ∉ (gatePattern allowed).toList)
    (hconcrete : Glob.hasGlob root = false) (htree : gatePattern forbidden = root ++ "/**")
    (hbelow : Text.startswith (gatePattern allowed) (root ++ "/") = false) :
    ¬ Covered allowed forbidden := by
  have hfolder : Glob.hasGlob (root ++ "/") = false := by
    rw [Glob.hasGlob] at hconcrete ⊢
    rw [String.toList_append, List.any_append, hconcrete]
    rfl
  intro hcovered
  have hmatch := hcovered (Glob.fillWith ']' (gatePattern allowed)) (by
    rw [patternMatches_eq, globMatches, Glob.fnmatch_fillWith hbracket, Bool.true_or, Bool.true_or])
  have hstars : root ++ "/**" = root ++ "/" ++ "**" := by
    rw [String.append_assoc]
    rfl
  rw [patternMatches_eq, htree, hstars, globMatches_folder hfolder, globMatches_folder hfolder,
    not_below_workspace hf htree, Bool.or_false] at hmatch
  rw [startswith_of_fillWith (closing_notMem hfolder) hmatch] at hbelow
  cases hbelow

/-- A concrete deny path covers no glob. -/
theorem not_covered_file (hf : Canonical forbidden) (hbracket : '[' ∉ (gatePattern allowed).toList)
    (hglob : Glob.hasGlob (gatePattern allowed) = true)
    (hconcrete : Glob.hasGlob (gatePattern forbidden) = false) : ¬ Covered allowed forbidden := by
  intro hcovered
  have hmatch := hcovered (Glob.fillWith ']' (gatePattern allowed)) (by
    rw [patternMatches_eq, globMatches, Glob.fnmatch_fillWith hbracket, Bool.true_or, Bool.true_or])
  rw [patternMatches_eq, globMatches_plain (Glob.bracket_notMem hconcrete),
    globMatches_plain (Glob.bracket_notMem hconcrete), Glob.fnmatch_plain hconcrete,
    Glob.fnmatch_plain hconcrete, Bool.or_eq_true, decide_eq_true_eq, decide_eq_true_eq] at hmatch
  rcases hmatch with hsame | hbelow
  · apply closing_notMem hconcrete
    rw [← hsame]
    exact closing_mem_fillWith hbracket hglob
  · exact hf.gate_not_below _ hbelow.symm

end Trees

section Cases
variable {allowed forbidden : String}

theorem treeRoot_tree {root : String} (hends : Text.endswith root "/" = false) :
    treeRoot (root ++ "/**") = root := by
  have hsuffix : Text.removeSuffix (root ++ "/**") "/**" = root := by
    rw [Text.removeSuffix, if_pos (Text.endswith_iff.mpr ⟨root, rfl⟩)]
    simp
  rw [treeRoot, hsuffix, stripTrailingSlashes, Text.rstripBy, rdropWhile_of_not_endswith hends,
    String.ofList_toList]

/-- The folder of a canonical tree is not empty and has no slash at its end. -/
theorem Canonical.tree {pattern root : String} (h : Canonical pattern)
    (htree : gatePattern pattern = root ++ "/**") : root ≠ "" ∧ Text.endswith root "/" = false := by
  have hfolder : (root ++ "/").toList <+: pattern.toList := by
    unfold gatePattern at htree
    split at htree
    · have hstars : root ++ "/**" = root ++ "/" ++ "**" := by
        rw [String.append_assoc]
        rfl
      rw [hstars] at htree
      have hlist := congrArg String.toList htree
      rw [String.toList_append, @String.toList_append (root ++ "/")] at hlist
      rw [List.append_cancel_right hlist]
    · rw [htree]
      exact ⟨['*', '*'], by simp [show ("/**" : String).toList = ['/', '*', '*'] from rfl,
        show ("/" : String).toList = ['/'] from rfl]⟩
  constructor
  · rintro rfl
    have hanchored := h.anchored
    rw [String.empty_append] at hfolder
    rw [Text.startswith, List.isPrefixOf_iff_prefix.mpr hfolder] at hanchored
    cases hanchored
  · rw [Bool.eq_false_iff, ne_eq, Text.endswith_iff]
    rintro ⟨front, rfl⟩
    apply h.slashes
    refine List.IsInfix.trans ⟨front.toList, [], ?_⟩ hfolder.isInfix
    simp [show ("/" : String).toList = ['/'] from rfl]

/-- The answer for a glob, by the literal part of the grant. -/
def coversGlob (left right : String) : Bool :=
  if literalPrefix left = "" then Glob.hasGlob right && (right = "*" || right = "**")
  else if right = "**" then true
  else Text.endswith right "/**" && (treeRoot right = "" ||
    literalPrefix left = treeRoot right ||
    Text.startswith (literalPrefix left) (treeRoot right ++ "/"))

theorem covers_concrete (ha : Canonical allowed) (hf : Canonical forbidden)
    (hconcrete : Glob.hasGlob (gatePattern allowed) = false) :
    forbiddenCoversAllowed allowed forbidden =
      patternMatches forbidden (gatePattern allowed) := by
  unfold forbiddenCoversAllowed
  rw [ha.normal, hf.normal]
  simp [ha.gate_ne_empty, hf.gate_ne_empty, hconcrete, Canonical.patternMatches_gate]

theorem covers_glob (ha : Canonical allowed) (hf : Canonical forbidden)
    (hglob : Glob.hasGlob (gatePattern allowed) = true) :
    forbiddenCoversAllowed allowed forbidden =
      (decide (gatePattern allowed = gatePattern forbidden) ||
        coversGlob (gatePattern allowed) (gatePattern forbidden)) := by
  unfold forbiddenCoversAllowed coversGlob treeRoot
  rw [ha.normal, hf.normal]
  by_cases hsame : gatePattern allowed = gatePattern forbidden
  · simp [hf.gate_ne_empty, hsame, hsame ▸ hglob]
  · by_cases hends : Text.endswith (gatePattern forbidden) "/**" = true
    · simp [ha.gate_ne_empty, hf.gate_ne_empty, hglob, hsame, hends, Bool.or_assoc]
    · simp [ha.gate_ne_empty, hf.gate_ne_empty, hglob, hsame, hends]

theorem globMatches_everything {pattern : String} (h : pattern = "*" ∨ pattern = "**")
    (name : String) : globMatches name pattern = true := by
  unfold globMatches Glob.fnmatch
  rcases h with rfl | rfl
  · rw [Glob.matchTokens_star, Bool.true_or]
  · rw [Glob.matchTokens_stars, Bool.true_or]

theorem covered_everything (h : gatePattern forbidden = "*" ∨ gatePattern forbidden = "**") :
    Covered allowed forbidden := by
  intro path _
  rw [patternMatches_eq, globMatches_everything h, Bool.true_or]

theorem covered_same (h : gatePattern allowed = gatePattern forbidden) :
    Covered allowed forbidden := by
  intro path hpath
  rwa [patternMatches_eq, ← h, ← patternMatches_eq]

theorem coversGlob_tree {left root : String} (hconcrete : Glob.hasGlob root = false)
    (hroot : root ≠ "") (hends : Text.endswith root "/" = false) :
    coversGlob left (root ++ "/**") = true ↔
      literalPrefix left = root ∨ Text.startswith left (root ++ "/") = true := by
  have htree : Text.endswith (root ++ "/**") "/**" = true := Text.endswith_iff.mpr ⟨root, rfl⟩
  have hslash : '/' ∈ (root ++ "/**").toList := by
    rw [String.toList_append]
    exact List.mem_append_right _ List.mem_cons_self
  have hone : root ++ "/**" ≠ "*" := fun heq => absurd (heq ▸ hslash) (by decide)
  have htwo : root ++ "/**" ≠ "**" := fun heq => absurd (heq ▸ hslash) (by decide)
  have hbelow : Text.startswith left (root ++ "/") = true → literalPrefix left = root ∨
      Text.startswith (literalPrefix left) (root ++ "/") = true := literalPrefix_below hconcrete hends
  have habove : Text.startswith (literalPrefix left) (root ++ "/") = true →
      Text.startswith left (root ++ "/") = true := by
    have hbelowStars := literalPrefix_startswith left
    rw [Text.startswith, List.isPrefixOf_iff_prefix] at hbelowStars
    simp only [Text.startswith, List.isPrefixOf_iff_prefix]
    exact fun h => h.trans hbelowStars
  unfold coversGlob
  rw [treeRoot_tree hends, htree]
  by_cases hempty : literalPrefix left = ""
  · have hroot' : literalPrefix left ≠ root := fun heq => hroot (heq.symm.trans hempty)
    have hnone : Text.startswith left (root ++ "/") = false := by
      rw [Bool.eq_false_iff]
      intro hstarts
      have hinside := (hbelow hstarts).resolve_left hroot'
      rw [hempty, Text.startswith, List.isPrefixOf_iff_prefix, String.toList_append] at hinside
      exact absurd (List.append_eq_nil_iff.mp (List.prefix_nil.mp hinside)).2 (by decide)
    simp [hempty, hone, htwo, hnone, Ne.symm hroot]
  · simp only [hempty, htwo, hroot, if_false, Bool.true_and, decide_false, Bool.false_or,
      Bool.or_eq_true, decide_eq_true_eq]
    constructor
    · exact Or.imp_right habove
    · exact fun h => h.elim .inl hbelow

/-- When the constructor's test and the gate agree. -/
inductive Decided (allowed forbidden : String) : Prop
  /-- The grant is one concrete path. -/
  | concrete (path : Glob.hasGlob (gatePattern allowed) = false)
  | same (equal : gatePattern allowed = gatePattern forbidden)
  | everything (stars : gatePattern forbidden = "**")
  | star (one : gatePattern forbidden = "*") (glob : literalPrefix (gatePattern allowed) = "")
  | file (plain : '[' ∉ (gatePattern allowed).toList)
      (concrete : Glob.hasGlob (gatePattern forbidden) = false)
  /-- The deny pattern is a tree whose folder does not end inside a name of the grant. -/
  | tree (root : String) (plain : '[' ∉ (gatePattern allowed).toList)
      (concrete : Glob.hasGlob root = false) (form : gatePattern forbidden = root ++ "/**")
      (whole : literalPrefix (gatePattern allowed) = root →
        Text.startswith (gatePattern allowed) (root ++ "/") = true)
  /-- The deny pattern is another glob, which leaves something of the grant. -/
  | glob (form : Text.endswith (gatePattern forbidden) "/**" = true →
        Glob.hasGlob (treeRoot (gatePattern forbidden)) = true)
      (path : String) (granted : patternMatches allowed path = true)
      (free : patternMatches forbidden path = false)

/-- Any other glob is not taken for a covering one. -/
theorem coversGlob_other {left right : String} (hone : right ≠ "*") (htwo : right ≠ "**")
    (hform : Text.endswith right "/**" = true → Glob.hasGlob (treeRoot right) = true) :
    coversGlob left right = false := by
  unfold coversGlob
  split
  · simp [hone, htwo]
  · cases hends : Text.endswith right "/**" with
    | false => rfl
    | true =>
      have hglob := hform hends
      have hempty : treeRoot right ≠ "" := by
        intro heq
        rw [heq] at hglob
        cases hglob
      have hbelowStars : literalPrefix left ≠ treeRoot right := by
        intro heq
        rw [← heq, hasGlob_literalPrefix] at hglob
        cases hglob
      have hbelow : Text.startswith (literalPrefix left) (treeRoot right ++ "/") = false := by
        rw [Bool.eq_false_iff]
        intro hstarts
        obtain ⟨rest, hrest⟩ := Text.startswith_iff.mp hstarts
        have hplain := hasGlob_literalPrefix left
        rw [hrest, Glob.hasGlob, String.toList_append, String.toList_append, List.any_append,
          List.any_append, ← Glob.hasGlob, hglob] at hplain
        cases hplain
      simp [hempty, hbelowStars, hbelow]

theorem coversGlob_file {left right : String} (h : Glob.hasGlob right = false) :
    coversGlob left right = false := by
  apply coversGlob_other
  · rintro rfl
    cases h
  · rintro rfl
    cases h
  · intro hends
    obtain ⟨front, rfl⟩ := Text.endswith_iff.mp hends
    rw [Glob.hasGlob, String.toList_append, List.any_append, Bool.or_eq_false_iff] at h
    exact absurd h.2 (by decide)

theorem coversGlob_stars {left : String} : coversGlob left "**" = true := by
  unfold coversGlob
  split <;> rfl

theorem covers_of_decided (ha : Canonical allowed) (hf : Canonical forbidden)
    (h : Decided allowed forbidden) :
    forbiddenCoversAllowed allowed forbidden = true ↔ Covered allowed forbidden := by
  cases hglob : Glob.hasGlob (gatePattern allowed) with
  | false => rw [covers_concrete ha hf hglob, covered_concrete ha hglob]
  | true =>
    rw [covers_glob ha hf hglob]
    by_cases hsame : gatePattern allowed = gatePattern forbidden
    · simpa [hsame] using covered_same hsame
    · rw [decide_eq_false hsame, Bool.false_or]
      cases h with
      | concrete hconcrete =>
        rw [hconcrete] at hglob
        cases hglob
      | same hequal => exact absurd hequal hsame
      | everything hstars =>
        have hcovered := @covered_everything allowed forbidden (.inr hstars)
        rw [hstars, coversGlob_stars]
        exact iff_of_true rfl hcovered
      | star hone hempty =>
        have hcovered := @covered_everything allowed forbidden (.inl hone)
        have hyes : coversGlob (gatePattern allowed) "*" = true := by
          rw [coversGlob, if_pos hempty]
          rfl
        rw [hone, hyes]
        exact iff_of_true rfl hcovered
      | file hplain hconcrete =>
        have hnot := not_covered_file hf hplain hglob hconcrete
        rw [coversGlob_file hconcrete]
        simpa using hnot
      | tree root hplain hconcrete hform hwhole =>
        obtain ⟨hroot, hends⟩ := hf.tree hform
        rw [hform, coversGlob_tree hconcrete hroot hends]
        constructor
        · exact fun hcovers => covered_tree hconcrete hform (hcovers.elim hwhole id)
        · intro hcovered
          right
          by_contra hbelow
          rw [Bool.not_eq_true] at hbelow
          exact not_covered_tree hf hplain hconcrete hform hbelow hcovered
      | glob hform path hgranted hfree =>
        have hnot : ¬ Covered allowed forbidden := fun hcovered => by
          rw [hcovered path hgranted] at hfree
          cases hfree
        have hone := fun heq => hnot (covered_everything (.inl heq))
        have htwo := fun heq => hnot (covered_everything (.inr heq))
        rw [coversGlob_other hone htwo hform]
        simpa using hnot

/-- Without bracket sets the two agree in no other case. -/
theorem decided_of_agrees (ha : Canonical allowed) (hf : Canonical forbidden)
    (hplain : '[' ∉ (gatePattern allowed).toList)
    (h : forbiddenCoversAllowed allowed forbidden = true ↔ Covered allowed forbidden) :
    Decided allowed forbidden := by
  cases hglob : Glob.hasGlob (gatePattern allowed) with
  | false => exact .concrete hglob
  | true =>
    by_cases hsame : gatePattern allowed = gatePattern forbidden
    · exact .same hsame
    · rw [covers_glob ha hf hglob, decide_eq_false hsame, Bool.false_or] at h
      by_cases htree : ∃ root, Glob.hasGlob root = false ∧ gatePattern forbidden = root ++ "/**"
      · obtain ⟨root, hconcrete, hform⟩ := htree
        obtain ⟨hroot, hends⟩ := hf.tree hform
        rw [hform, coversGlob_tree hconcrete hroot hends] at h
        refine .tree root hplain hconcrete hform ?_
        intro hbelowStars
        have hcovered := h.mp (.inl hbelowStars)
        by_contra hbelow
        rw [Bool.not_eq_true] at hbelow
        exact not_covered_tree hf hplain hconcrete hform hbelow hcovered
      · have hform : Text.endswith (gatePattern forbidden) "/**" = true →
            Glob.hasGlob (treeRoot (gatePattern forbidden)) = true := by
          intro hends
          obtain ⟨root, hroot⟩ := Text.endswith_iff.mp hends
          rw [hroot, treeRoot_tree (hf.tree hroot).2]
          by_contra hconcrete
          exact htree ⟨root, Bool.eq_false_of_not_eq_true hconcrete, hroot⟩
        by_cases hcovered : Covered allowed forbidden
        · have hyes := h.mpr hcovered
          by_cases htwo : gatePattern forbidden = "**"
          · exact .everything htwo
          · by_cases hone : gatePattern forbidden = "*"
            · refine .star hone ?_
              by_contra hempty
              rw [hone, coversGlob, if_neg hempty] at hyes
              cases hyes
            · rw [coversGlob_other hone htwo hform] at hyes
              cases hyes
        · obtain ⟨path, hpath⟩ := not_forall.mp hcovered
          rw [Classical.not_imp, Bool.not_eq_true] at hpath
          exact .glob hform path hpath.1 hpath.2

/-- Both patterns are canonical and of a kind on which the constructor and the gate agree. -/
structure Agreeing (allowed forbidden : String) : Prop where
  granted : Canonical allowed
  denied : Canonical forbidden
  decided : Decided allowed forbidden

end Cases

end ProjectOS.Orchestration
