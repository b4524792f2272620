import ProjectOS.Base.Raise
import ProjectOS.Base.Sections

/-! The deterministic quality appendix of a review, and its refresh. Texts are lists of
characters. -/
namespace ProjectOS.Orchestration.ReviewQuality
open Base Text Section

/-- `## 确定性质量策略`. -/
def marker : List Char :=
  ['#', '#', ' ', '确', '定', '性', '质', '量', '策', '略']

/-- `## 确定性质量检查`, the heading of older reports. -/
def olderMarker : List Char :=
  ['#', '#', ' ', '确', '定', '性', '质', '量', '检', '查']

def markers : List (List Char) := [olderMarker, marker]

def verdictHeading : List Char := ['#', '#', ' ', '审', '查', '结', '论']

/-- `## 审查结论\nBLOCKED`. -/
def blockedVerdict : List Char := verdictHeading ++ '\n' :: ['B', 'L', 'O', 'C', 'K', 'E', 'D']

/-- `## 审查结论\nPASS`. -/
def passVerdict : List Char := verdictHeading ++ '\n' :: ['P', 'A', 'S', 'S']

/-- `"status=passed" in quality`. -/
def passes (quality : List Char) : Bool := "status=passed".toList <:+: quality

/-- The report up to the first of the two headings, wherever it stands. -/
def beforeAppendix (content : List Char) : List Char :=
  match splitFirst markers content with
  | some (front, _) => rstrip front
  | none => content

def rewriteVerdict (quality content : List Char) : List Char :=
  if passes quality then replaceFirst blockedVerdict passVerdict content else content

/-- `_refresh_review_quality_section`. -/
def refreshReviewQualitySection (content quality : List Char) : List Char :=
  rewriteVerdict quality (beforeAppendix content) ++
    ['\n', '\n'] ++ marker ++ ['\n', '\n'] ++ quality ++ ['\n']

/-- `ReviewService.save_review`; `quality` is what the policy renders if there is a runtime. -/
def saveReview (content : List Char) (quality : Option (List Char)) : List Char :=
  match quality with
  | some quality => content ++ ['\n', '\n'] ++ marker ++ ['\n', '\n'] ++ quality
  | none => content

/-- The report that the control plane writes in place of the agent. -/
def controlPlaneReview (files evidence quality : List Char) : List Char :=
  let status := if "status=failed".toList <:+: quality then "BLOCKED" else "PASS"
  "# 交付审查\n\n## 审查结论\n".toList ++ status.toList ++ "\n\n## 已验证证据\n".toList ++
    "### Workspace 文件\n```text\n".toList ++ files ++ "\n```\n\n".toList ++
    "### Sandbox Evidence（每个检查的最新结果）\n```text\n".toList ++ evidence ++
    "\n```\n\n## 确定性质量检查\n```text\n".toList ++ quality ++ "\n```\n\n## 阻塞问题\n".toList ++
    "模型审查工具未正常调用，本报告由控制面依据持久化证据生成。\n".toList

/-! What a refresh promises. -/

def isQuality (s : Section) : Bool := markers.contains (rstrip s.heading)

/-- The sections other than the deterministic quality ones. -/
def otherSections (content : List Char) : List Section :=
  (sections content).filter (!isQuality ·)

/-- A section stands unchanged up to white space at its end, or with its verdict rewritten. -/
def Kept (quality : List Char) (s s' : Section) : Prop :=
  rstrip s'.text = rstrip s.text ∨ (passes quality = true ∧
    ∃ u v, s.text = u ++ blockedVerdict ++ v ∧ rstrip s'.text = rstrip (u ++ passVerdict ++ v))

structure Refreshes (content quality : List Char) : Prop where
  idempotent : refreshReviewQualitySection (refreshReviewQualitySection content quality) quality =
    refreshReviewQualitySection content quality
  appendix : (sections (refreshReviewQualitySection content quality)).filter isQuality =
    [⟨marker, '\n' :: '\n' :: (quality ++ ['\n'])⟩]
  kept : List.SublistForall₂ (Kept quality) (otherSections content)
    (otherSections (refreshReviewQualitySection content quality))

def beginsLine (front : List Char) : Prop := front = [] ∨ ∃ lines, front = lines ++ ['\n']

/-- The report ends with its appendix and has at most one verdict to rewrite. -/
structure Regular (content quality : List Char) : Prop where
  plain : ∀ line ∈ splitOn '\n' quality, isHeading line = false
  trimmed : (∃ w ∈ markers, w <:+: content) ∨ rstrip content = content
  verdict : passes quality = true → ∀ a v, beforeAppendix content = a ++ blockedVerdict ++ v →
    ¬ blockedVerdict <:+: v
  last : ∀ front back, splitFirst markers content = some (front, back) →
    (beginsLine front ∧ ∀ line ∈ splitOn '\n' back, isHeading line = true →
      rstrip line ∈ markers) ∨ otherSections content = []

variable {content quality : List Char} {w : List Char}

theorem markers_plain : ∀ w ∈ markers, '\n' ∉ w ∧ w ≠ [] := by decide

/-! The text before the appendix has no marker in it. -/

theorem not_infix_beforeAppendix (content : List Char) :
    ∀ w ∈ markers, ¬ w <:+: beforeAppendix content := by
  intro w hw
  unfold beforeAppendix
  cases hsplit : splitFirst markers content with
  | none => exact splitFirst_eq_none.1 hsplit w hw
  | some m =>
    obtain ⟨front, back⟩ := m
    exact fun h => not_infix_of_splitFirst hsplit hw (markers_plain w hw).2
      (h.trans (prefix_of_rstrip front).isInfix)

theorem not_infix_rewriteVerdict (quality : List Char) {t : List Char}
    (h : ∀ w ∈ markers, ¬ w <:+: t) : ∀ w ∈ markers, ¬ w <:+: rewriteVerdict quality t := by
  intro w hw hin
  unfold rewriteVerdict at hin
  split at hin
  · by_cases hverdict : blockedVerdict <:+: t
    · obtain ⟨a, v, rfl, hreplace, -⟩ := replaceFirst_of_infix (y := passVerdict) (by decide) hverdict
      rw [hreplace] at hin
      have hsplit : a ++ passVerdict ++ v =
          (a ++ verdictHeading) ++ '\n' :: (['P', 'A', 'S'] ++ 'S' :: v) := by
        simp [passVerdict]
      rw [hsplit] at hin
      rcases infix_of_sep (markers_plain w hw).1 hin with hin | hin
      · exact h w hw (hin.trans ⟨[], _, by simp [blockedVerdict]; rfl⟩)
      · have hletter : ∀ w ∈ markers, 'S' ∉ w ∧ ¬ w <:+: ['P', 'A', 'S'] := by decide
        rcases infix_of_sep (hletter w hw).1 hin with hin | hin
        · exact (hletter w hw).2 hin
        · exact h w hw (hin.trans (List.suffix_append _ v).isInfix)
    · rw [replaceFirst_of_absent hverdict] at hin
      exact h w hw hin
  · exact h w hw hin

/-- The report that stands before the refreshed appendix. -/
def refreshed (content quality : List Char) : List Char :=
  rewriteVerdict quality (beforeAppendix content)

theorem not_infix_refreshed (content quality : List Char) :
    ∀ w ∈ markers, ¬ w <:+: refreshed content quality :=
  not_infix_rewriteVerdict quality (not_infix_beforeAppendix content)

theorem refresh_eq (content quality : List Char) :
    refreshReviewQualitySection content quality =
      refreshed content quality ++ '\n' :: '\n' :: (marker ++ '\n' :: '\n' :: (quality ++ ['\n'])) := by
  simp [refreshReviewQualitySection, refreshed]

theorem beforeAppendix_refresh (content quality : List Char) :
    beforeAppendix (refreshReviewQualitySection content quality) = rstrip (refreshed content quality) := by
  have hhere : ∀ rest, splitFirst markers (marker ++ rest) = some ([], marker ++ rest) := by
    intro rest
    rfl
  have hnil : ∀ w ∈ markers, ¬ w <:+: ([] : List Char) := by decide
  have hsecond := splitFirst_append markers_plain hnil (marker ++ '\n' :: '\n' :: (quality ++ ['\n']))
  rw [List.nil_append] at hsecond
  rw [refresh_eq, beforeAppendix, splitFirst_append markers_plain (not_infix_refreshed content quality),
    hsecond, hhere]
  have hblank : ∀ c ∈ ['\n', '\n'], isSpace c = true := by decide
  exact rstrip_append_blank hblank (refreshed content quality)

/-! Idempotence. -/

/-- The verdict ends in a character that is no white space. -/
theorem blockedVerdict_eq : blockedVerdict =
    (verdictHeading ++ '\n' :: ['B', 'L', 'O', 'C', 'K', 'E']) ++ ['D'] := by
  decide

theorem infix_of_blank_tail {t ws : List Char} (hws : ∀ c ∈ ws, isSpace c = true)
    (h : blockedVerdict <:+: t ++ ws) : blockedVerdict <:+: t := by
  rw [blockedVerdict_eq] at h ⊢
  exact infix_of_tail (fun hd => absurd (hws _ hd) (by decide)) h

theorem rewriteVerdict_blank_tail {ws : List Char} (hws : ∀ c ∈ ws, isSpace c = true)
    (quality t : List Char) :
    rewriteVerdict quality (t ++ ws) = rewriteVerdict quality t ++ ws := by
  unfold rewriteVerdict
  split
  · rw [blockedVerdict_eq]
    exact replaceFirst_tail (fun hd => absurd (hws _ hd) (by decide)) _ _
  · rfl

theorem rewriteVerdict_rstrip (quality t : List Char) :
    rewriteVerdict quality t = rewriteVerdict quality (rstrip t) ++ t.rtakeWhile isSpace := by
  rw [← rewriteVerdict_blank_tail blank_rtakeWhile, ← eq_rstrip_append]

theorem rstrip_eq_self_iff {t : List Char} : rstrip t = t ↔ t.rtakeWhile isSpace = [] := by
  have h := eq_rstrip_append t
  constructor
  · intro hself
    rw [hself] at h
    simpa using h
  · intro hnil
    rw [hnil, List.append_nil] at h
    exact h.symm

theorem rstrip_concat_eq_self_iff {t : List Char} {c : Char} :
    rstrip (t ++ [c]) = t ++ [c] ↔ isSpace c = false := by
  rw [rstrip, List.rdropWhile_concat]
  cases hc : isSpace c with
  | false => simp
  | true =>
    simp only [if_true, Bool.true_eq_false, iff_false]
    intro h
    have hle := (prefix_of_rstrip t).length_le
    rw [rstrip, h, List.length_append, List.length_singleton] at hle
    omega

theorem rstrip_rewriteVerdict_eq_self_iff (quality t : List Char) :
    rstrip (rewriteVerdict quality t) = rewriteVerdict quality t ↔ rstrip t = t := by
  constructor
  · intro h
    rw [rstrip_eq_self_iff]
    have hle := (prefix_of_rstrip (rewriteVerdict quality (rstrip t))).length_le
    rw [← rstrip_append_blank (blank_rtakeWhile (t := t)), ← rewriteVerdict_rstrip, h,
      rewriteVerdict_rstrip, List.length_append] at hle
    exact List.length_eq_zero_iff.1 (by omega)
  · intro h
    unfold rewriteVerdict
    split
    · by_cases hin : blockedVerdict <:+: t
      · obtain ⟨a, v, rfl, hreplace, -⟩ :=
          replaceFirst_of_infix (y := passVerdict) (by decide) hin
        rw [hreplace]
        cases v using List.reverseRecOn with
        | nil =>
          have hend : a ++ passVerdict ++ [] =
              (a ++ (verdictHeading ++ '\n' :: ['P', 'A', 'S'])) ++ ['S'] := by
            simp [passVerdict]
          rw [hend]
          exact rstrip_concat_eq_self_iff.2 (by decide)
        | append_singleton v c _ =>
          rw [← List.append_assoc] at h ⊢
          exact rstrip_concat_eq_self_iff.2 (rstrip_concat_eq_self_iff.1 h)
      · rwa [replaceFirst_of_absent hin]
    · exact h

/-- A verdict is left after the rewriting only if there were two. -/
theorem infix_replaceFirst_iff {t : List Char} :
    blockedVerdict <:+: replaceFirst blockedVerdict passVerdict t ↔
      ∃ a v, t = a ++ blockedVerdict ++ v ∧ blockedVerdict <:+: v := by
  have hne : blockedVerdict ≠ [] := by decide
  constructor
  · intro h
    by_cases hin : blockedVerdict <:+: t
    · obtain ⟨a, v, rfl, hreplace, ha, -⟩ := replaceFirst_of_infix (y := passVerdict) hne hin
      refine ⟨a, v, rfl, ?_⟩
      rw [hreplace] at h
      have hsplit : a ++ passVerdict ++ v =
          (a ++ (verdictHeading ++ ['\n'])) ++ 'P' :: (['A', 'S'] ++ 'S' :: v) := by
        simp [passVerdict]
      rw [hsplit] at h
      rcases infix_of_sep (by decide) h with h | h
      · rw [blockedVerdict_eq] at h ha
        exact absurd (infix_of_tail (by decide) h) ha
      · rcases infix_of_sep (by decide) h with h | h
        · exact absurd h (by decide)
        · exact h
    · rw [replaceFirst_of_absent hin] at h
      exact absurd h hin
  · rintro ⟨a, v, ht, hv⟩
    obtain ⟨a', v', ht', hreplace, -, hfirst⟩ := replaceFirst_of_infix (y := passVerdict) hne
      (t := t) ⟨a, v, ht.symm⟩
    rw [hreplace]
    refine List.IsInfix.trans ?_ (List.suffix_append _ v').isInfix
    -- the first verdict is not behind this one, so what is behind it ends with `v`
    have hlength := hfirst a v ht
    have hlater : v <:+ v' := by
      have hsuffix : v <:+ t := ⟨_, ht.symm⟩
      have hsuffix' : v' <:+ t := ⟨_, ht'.symm⟩
      refine List.suffix_of_suffix_length_le hsuffix hsuffix' ?_
      have hcount := congrArg List.length (ht.symm.trans ht')
      simp only [List.length_append] at hcount
      omega
    exact hv.trans hlater.isInfix

theorem length_replaceFirst {t : List Char} (h : blockedVerdict <:+: t) :
    (replaceFirst blockedVerdict passVerdict t).length < t.length := by
  obtain ⟨a, v, rfl, hreplace, -⟩ := replaceFirst_of_infix (y := passVerdict) (by decide) h
  rw [hreplace]
  have hshort : passVerdict.length < blockedVerdict.length := by decide
  simp only [List.length_append]
  omega

theorem rewriteVerdict_rstrip_eq_self_iff (quality t : List Char) :
    rewriteVerdict quality (rstrip t) = t ↔
      rstrip t = t ∧ (passes quality = true → ¬ blockedVerdict <:+: t) := by
  unfold rewriteVerdict
  cases passes quality with
  | false => simp
  | true =>
    simp only [if_true, forall_const]
    by_cases hin : blockedVerdict <:+: rstrip t
    · have hlonger := length_replaceFirst hin
      have hle := (prefix_of_rstrip t).length_le
      constructor
      · intro h
        rw [h] at hlonger
        omega
      · rintro ⟨-, hnone⟩
        exact absurd (hin.trans (prefix_of_rstrip t).isInfix) hnone
    · rw [replaceFirst_of_absent hin]
      constructor
      · intro h
        rw [h] at hin
        exact ⟨h, hin⟩
      · exact fun h => h.1

theorem rstrip_beforeAppendix_eq_self_iff (content : List Char) :
    rstrip (beforeAppendix content) = beforeAppendix content ↔
      (∃ w ∈ markers, w <:+: content) ∨ rstrip content = content := by
  unfold beforeAppendix
  cases hsplit : splitFirst markers content with
  | none =>
    have hnone := splitFirst_eq_none.1 hsplit
    constructor
    · exact .inr
    · rintro (⟨w, hw, hin⟩ | h)
      · exact absurd hin (hnone w hw)
      · exact h
  | some m =>
    obtain ⟨front, back⟩ := m
    obtain ⟨rfl, ⟨w, hw, hpre⟩, -⟩ := splitFirst_eq_some hsplit
    have hin : w <:+: front ++ back := hpre.isInfix.trans (List.suffix_append front back).isInfix
    simp only [rstrip_rstrip, true_iff]
    exact .inl ⟨w, hw, hin⟩

/-- The refresh is idempotent if the first one leaves no white space to strip and no verdict
to rewrite. -/
theorem idempotent_iff :
    refreshReviewQualitySection (refreshReviewQualitySection content quality) quality =
        refreshReviewQualitySection content quality ↔
      ((∃ w ∈ markers, w <:+: content) ∨ rstrip content = content) ∧
        (passes quality = true → ∀ a v, beforeAppendix content = a ++ blockedVerdict ++ v →
          ¬ blockedVerdict <:+: v) := by
  have hagain : refreshed (refreshReviewQualitySection content quality) quality =
      rewriteVerdict quality (rstrip (refreshed content quality)) := by
    rw [refreshed, beforeAppendix_refresh]
  rw [refresh_eq (refreshReviewQualitySection content quality), hagain, refresh_eq content,
    List.append_left_inj, rewriteVerdict_rstrip_eq_self_iff, ← rstrip_beforeAppendix_eq_self_iff]
  refine and_congr ?_ (imp_congr_right fun hpasses => ?_)
  · exact rstrip_rewriteVerdict_eq_self_iff quality (beforeAppendix content)
  · rw [refreshed, rewriteVerdict, if_pos hpasses, infix_replaceFirst_iff]
    push Not
    rfl

/-! The sections of the refreshed report. -/

theorem infix_text_of_section {s : Section} {t : List Char} (hs : s ∈ sections t)
    (hw : w ∈ markers) (h : w <:+: s.text) : w <:+: t := by
  rcases infix_of_sep (l := []) (markers_plain w hw).1 (h.trans (infix_of_section hs)) with h | h
  · exact absurd (List.infix_nil.1 h) (markers_plain w hw).2
  · exact h

theorem isQuality_eq_false {s : Section} {t : List Char} (ht : ∀ w ∈ markers, ¬ w <:+: t)
    (hs : s ∈ sections t) : isQuality s = false := by
  rw [Bool.eq_false_iff]
  intro hquality
  have hw : rstrip s.heading ∈ markers := by simpa [isQuality] using hquality
  refine ht _ hw (infix_text_of_section hs hw ?_)
  exact (prefix_of_rstrip s.heading).isInfix.trans (List.prefix_append s.heading s.body).isInfix

theorem otherSections_eq {t : List Char} (ht : ∀ w ∈ markers, ¬ w <:+: t) :
    otherSections t = sections t :=
  List.filter_eq_self.2 fun s hs => by simp [isQuality_eq_false ht hs]

theorem not_infix_newline {t : List Char} (ht : ∀ w ∈ markers, ¬ w <:+: t) :
    ∀ w ∈ markers, ¬ w <:+: t ++ ['\n'] := by
  intro w hw h
  rcases infix_of_sep (markers_plain w hw).1 h with h | h
  · exact ht w hw h
  · exact (markers_plain w hw).2 (List.infix_nil.1 h)

/-- The sections before the refreshed appendix. -/
def keptSections (content quality : List Char) : List Section :=
  sections (refreshed content quality ++ ['\n'])

theorem isQuality_keptSections {s : Section} (hs : s ∈ keptSections content quality) :
    isQuality s = false :=
  isQuality_eq_false (not_infix_newline (not_infix_refreshed content quality)) hs

/-- The lines of the appendix behind its heading. -/
def appendixLines (quality : List Char) : List (List Char) := [] :: (splitOn '\n' quality ++ [[]])

theorem sections_refresh (content quality : List Char) :
    sections (refreshReviewQualitySection content quality) =
      keptSections content quality ++
        sectionsFrom (some ⟨marker, []⟩) (appendixLines quality) := by
  have hmarker : '\n' ∉ marker := by decide
  have hblank : splitOn '\n' ([] ++ '\n' :: (quality ++ ['\n'])) =
      [] :: splitOn '\n' (quality ++ ['\n']) := splitOn_append List.not_mem_nil _
  have hlines : splitOn '\n' (refreshReviewQualitySection content quality) =
      splitOn '\n' (refreshed content quality ++ ['\n']) ++
        marker :: appendixLines quality := by
    rw [refresh_eq, ← List.singleton_append (x := '\n'), ← List.append_assoc, splitOn_append_sep,
      splitOn_append hmarker]
    rw [List.nil_append] at hblank
    rw [hblank, splitOn_append_sep '\n' quality []]
    rfl
  rw [sections, hlines, sectionsFrom_heading (by decide)]
  rfl

theorem isQuality_marker (body : List Char) : isQuality ⟨marker, body⟩ = true := by
  have hcontains : markers.contains (rstrip marker) = true := by decide
  exact hcontains

theorem flatMap_appendixLines (quality : List Char) :
    (appendixLines quality).flatMap ('\n' :: ·) = '\n' :: '\n' :: (quality ++ ['\n']) := by
  rw [appendixLines, List.flatMap_cons, List.flatMap_append, flatMap_splitOn]
  simp

theorem sections_appendixLines (h : ∀ line ∈ splitOn '\n' quality, isHeading line = false) :
    sectionsFrom (some ⟨marker, []⟩) (appendixLines quality) =
      [⟨marker, '\n' :: '\n' :: (quality ++ ['\n'])⟩] := by
  have hall : ∀ line ∈ appendixLines quality, isHeading line = false := by
    intro line hline
    rcases List.mem_cons.1 hline with rfl | hline
    · rfl
    · rcases List.mem_append.1 hline with hline | hline
      · exact h line hline
      · rw [List.mem_singleton.1 hline]
        rfl
  rw [sectionsFrom_plain hall, flatMap_appendixLines]
  rfl

/-- The appendix is one section with the quality text if that has no heading in it. -/
theorem appendix_iff :
    (sections (refreshReviewQualitySection content quality)).filter isQuality =
        [⟨marker, '\n' :: '\n' :: (quality ++ ['\n'])⟩] ↔
      ∀ line ∈ splitOn '\n' quality, isHeading line = false := by
  have hkept : (keptSections content quality).filter isQuality = [] :=
    List.filter_eq_nil_iff.2 fun s hs => by simp [isQuality_keptSections hs]
  rw [sections_refresh, List.filter_append, hkept, List.nil_append]
  constructor
  · intro h line hline
    by_contra hheading
    rw [Bool.not_eq_false] at hheading
    obtain ⟨front, back, hsplit⟩ := List.append_of_mem hline
    -- the section ends before the heading, so its body is shorter than the quality text
    have hlines : appendixLines quality = ([] :: front) ++ line :: (back ++ [[]]) := by
      simp [appendixLines, hsplit]
    obtain ⟨body, rest, hopen, hpre⟩ := exists_open_section ⟨marker, []⟩ ([] :: front)
    rw [hlines, sectionsFrom_heading hheading, hopen, List.cons_append, List.filter_cons,
      if_pos (isQuality_marker _)] at h
    have hsame : body = '\n' :: '\n' :: (quality ++ ['\n']) := by
      have := congrArg Section.body (List.cons.inj h).1
      simpa using this
    have hle := hpre.length_le
    rw [hsame, ← flatMap_appendixLines, hlines] at hle
    simp only [List.flatMap_append, List.flatMap_cons, List.length_append, List.length_cons] at hle
    omega
  · intro hplain
    rw [sections_appendixLines hplain, List.filter_cons, if_pos (isQuality_marker _)]
    rfl

/-! What is kept of the other sections. -/

/-- A section before and after the rewriting of the verdict. -/
def Changed (quality : List Char) (s s' : Section) : Prop :=
  s' = s ∨ (passes quality = true ∧
    ∃ u v, s.text = u ++ blockedVerdict ++ v ∧ s'.text = u ++ passVerdict ++ v)

theorem forall₂_changed (quality t : List Char) :
    List.Forall₂ (Changed quality) (sections t) (sections (rewriteVerdict quality t)) := by
  have hsame : ∀ secs : List Section, List.Forall₂ (Changed quality) secs secs := fun secs =>
    List.forall₂_same.2 fun _ _ => .inl rfl
  unfold rewriteVerdict
  split
  · rename_i hpasses
    by_cases hin : blockedVerdict <:+: t
    · obtain ⟨a, v, rfl, hreplace, -⟩ := replaceFirst_of_infix (y := passVerdict) (by decide) hin
      rw [hreplace]
      have hreplaced : List.Forall₂ (Replaced blockedVerdict passVerdict)
          (sections (a ++ blockedVerdict ++ v)) (sections (a ++ passVerdict ++ v)) :=
        @forall₂_replaced verdictHeading ['B', 'L', 'O', 'C', 'K', 'E', 'D'] ['P', 'A', 'S', 'S']
          (by decide) (by decide) (by decide) (fun _ => rfl) (fun _ => rfl) a v
      exact hreplaced.imp fun s s' h => h.2.imp id fun hwords => ⟨hpasses, hwords⟩
    · rw [replaceFirst_of_absent hin]
      exact hsame _
  · exact hsame _

theorem forall₂_kept {secs secs' kept : List Section}
    (h : List.Forall₂ (Changed quality) secs secs') (hkept : stripped kept = stripped secs') :
    List.Forall₂ (Kept quality) secs kept := by
  induction h generalizing kept with
  | nil =>
    obtain rfl := List.map_eq_nil_iff.1 hkept
    exact .nil
  | cons hchanged _ ih =>
    obtain ⟨s', kept, rfl, hs', htail⟩ := List.map_eq_cons_iff.1 hkept
    refine .cons ?_ (ih htail)
    rcases hchanged with rfl | ⟨hpasses, u, v, hu, hv⟩
    · exact .inl hs'
    · exact .inr ⟨hpasses, u, v, hu, hs'.trans (congrArg rstrip hv)⟩

/-- The sections of a text that the report before the appendix is but for white space. -/
theorem forall₂_keptSections {t k ws : List Char} (hk : ∀ c ∈ k, isSpace c = true)
    (hws : ∀ c ∈ ws, isSpace c = true)
    (h : rewriteVerdict quality (t ++ k) = refreshed content quality ++ ws) :
    List.Forall₂ (Kept quality) (sections t) (keptSections content quality) := by
  refine forall₂_kept (forall₂_changed quality t) ?_
  have hnl : ∀ c ∈ ['\n'], isSpace c = true := by decide
  rw [rewriteVerdict_blank_tail hk] at h
  rw [keptSections, stripped_sections_append hnl, ← stripped_sections_append hws, ← h,
    stripped_sections_append hk]

/-- A section with a marker in it is not among the kept ones. -/
theorem not_kept_of_marker {s s' : Section} (hw : w ∈ markers) (hs : w <:+: s.text)
    (hs' : s' ∈ keptSections content quality) : ¬ Kept quality s s' := by
  have hlast : ∀ w ∈ markers, ∃ x d, w = x ++ [d] ∧ isSpace d = false := by
    intro w hw
    have hne := (markers_plain w hw).2
    refine ⟨w.dropLast, w.getLast hne, (List.dropLast_append_getLast hne).symm, ?_⟩
    revert w
    decide
  have hstrip : ∀ t : List Char, w <:+: t → w <:+: rstrip t := by
    obtain ⟨x, d, rfl, hd⟩ := hlast w hw
    intro t ht
    rw [eq_rstrip_append t] at ht
    exact infix_of_tail (fun hmem => by simp [blank_rtakeWhile d hmem] at hd) ht
  have hnone : ¬ w <:+: rstrip s'.text := fun h =>
    not_infix_newline (not_infix_refreshed content quality) w hw
      (infix_text_of_section hs' hw (h.trans (prefix_of_rstrip _).isInfix))
  rintro (hsame | ⟨-, u, v, htext, hrewritten⟩)
  · rw [hsame] at hnone
    exact hnone (hstrip _ hs)
  · rw [hrewritten] at hnone
    refine hnone (hstrip _ ?_)
    have hsplit : u ++ blockedVerdict ++ v = (u ++ verdictHeading) ++
        '\n' :: (['B', 'L', 'O', 'C', 'K', 'E'] ++ 'D' :: v) := by
      simp [blockedVerdict]
    rw [htext, hsplit] at hs
    have hletter : ∀ w ∈ markers, 'D' ∉ w ∧ ¬ w <:+: ['B', 'L', 'O', 'C', 'K', 'E'] := by decide
    rcases infix_of_sep (markers_plain w hw).1 hs with hs | hs
    · exact hs.trans ⟨[], _, by simp [passVerdict]; rfl⟩
    · rcases infix_of_sep (hletter w hw).1 hs with hs | hs
      · exact absurd hs (hletter w hw).2
      · exact hs.trans (List.suffix_append _ v).isInfix

theorem otherSections_eq_nil_iff {t : List Char} :
    otherSections t = [] ↔
      ∀ line ∈ splitOn '\n' t, isHeading line = true → rstrip line ∈ markers := by
  have hheadings := map_heading_sections t
  constructor
  · intro h line hline hheading
    have hmem : line ∈ (sections t).map heading := by
      rw [hheadings]
      exact List.mem_filter.2 ⟨hline, hheading⟩
    obtain ⟨s, hs, rfl⟩ := List.mem_map.1 hmem
    have := List.filter_eq_nil_iff.1 h s hs
    simpa [isQuality] using this
  · intro h
    refine List.filter_eq_nil_iff.2 fun s hs => ?_
    have hmem : s.heading ∈ (splitOn '\n' t).filter isHeading := by
      rw [← hheadings]
      exact List.mem_map_of_mem hs
    obtain ⟨hline, hheading⟩ := List.mem_filter.1 hmem
    simpa [isQuality] using h _ hline hheading

theorem otherSections_refresh (h : ∀ line ∈ splitOn '\n' quality, isHeading line = false) :
    otherSections (refreshReviewQualitySection content quality) = keptSections content quality := by
  have hkept : (keptSections content quality).filter (!isQuality ·) = keptSections content quality :=
    List.filter_eq_self.2 fun s hs => by simp [isQuality_keptSections hs]
  rw [otherSections, sections_refresh, List.filter_append, hkept, sections_appendixLines h,
    List.filter_cons, isQuality_marker]
  exact List.append_nil _

theorem refreshed_of_none (h : splitFirst markers content = none) :
    refreshed content quality = rewriteVerdict quality content := by
  rw [refreshed, beforeAppendix, h]

theorem refreshed_of_some (quality : List Char) {front back : List Char}
    (h : splitFirst markers content = some (front, back)) :
    rewriteVerdict quality front = refreshed content quality ++ front.rtakeWhile isSpace := by
  rw [refreshed, beforeAppendix, h]
  exact rewriteVerdict_rstrip quality front

/-- A report without an appendix keeps its sections. -/
theorem kept_of_none (h : splitFirst markers content = none) :
    List.Forall₂ (Kept quality) (otherSections content) (keptSections content quality) := by
  rw [otherSections_eq (splitFirst_eq_none.1 h)]
  have hnil : ∀ c ∈ ([] : List Char), isSpace c = true := fun _ hc => absurd hc List.not_mem_nil
  refine forall₂_keptSections hnil hnil ?_
  rw [refreshed_of_none h, List.append_nil, List.append_nil]

theorem exists_splitOn_back {front back : List Char}
    (h : splitFirst markers content = some (front, back)) :
    ∃ w ∈ markers, ∃ first rest, splitOn '\n' back = (w ++ first) :: rest := by
  obtain ⟨-, ⟨w, hw, tail, rfl⟩, -⟩ := splitFirst_eq_some h
  obtain ⟨line, rest, hprepend⟩ := exists_prepend_splitOn tail
  exact ⟨w, hw, line, rest, hprepend w (markers_plain w hw).1⟩

theorem isHeading_marker (hw : w ∈ markers) (line : List Char) :
    isHeading (w ++ line) = true := by
  simp only [markers, List.mem_cons, List.not_mem_nil, or_false] at hw
  rcases hw with rfl | rfl <;> rfl

/-- Where the marker begins a line, the sections before it are kept and those behind it are
cut off. -/
theorem kept_at_line (quality : List Char) {front back : List Char}
    (h : splitFirst markers content = some (front, back)) (hline : beginsLine front) :
    ∃ secs, otherSections content = secs ++ otherSections back ∧
      List.Forall₂ (Kept quality) secs (keptSections content quality) := by
  have hnl : ∀ c ∈ ['\n'], isSpace c = true := by decide
  have hfront : ∀ w ∈ markers, ¬ w <:+: front := fun w hw =>
    not_infix_of_splitFirst h hw (markers_plain w hw).2
  obtain ⟨w, hw, first, rest, hback⟩ := exists_splitOn_back h
  have hrefreshed := refreshed_of_some quality h
  obtain ⟨rfl, -, -⟩ := splitFirst_eq_some h
  rcases hline with rfl | ⟨lines, rfl⟩
  · refine ⟨[], rfl, ?_⟩
    exact forall₂_keptSections (t := []) (k := []) (fun _ hc => absurd hc List.not_mem_nil)
      blank_rtakeWhile hrefreshed
  · have hlines : ∀ w ∈ markers, ¬ w <:+: lines := fun w hw hin =>
      hfront w hw (hin.trans (List.prefix_append lines _).isInfix)
    refine ⟨sections lines, ?_, forall₂_keptSections hnl blank_rtakeWhile hrefreshed⟩
    have hsections : sections (lines ++ ['\n'] ++ back) = sections lines ++ sections back := by
      have hsplit := splitOn_append_sep '\n' lines back
      rw [List.append_assoc, List.singleton_append, sections, hsplit, hback,
        sectionsFrom_heading (isHeading_marker hw first), sections, sections, hback]
      simp [sectionsFrom, isHeading_marker hw first]
    rw [otherSections, hsections, List.filter_append]
    exact congrArg (· ++ _) (otherSections_eq hlines)

/-- Where it stands inside a line, a section is cut in two. -/
theorem kept_inside_line {front back : List Char}
    (h : splitFirst markers content = some (front, back)) (hline : ¬ beginsLine front)
    (hkept : List.SublistForall₂ (Kept quality) (otherSections content)
      (keptSections content quality)) : otherSections content = [] := by
  by_contra hne
  have hfront : ∀ w ∈ markers, ¬ w <:+: front := fun w hw =>
    not_infix_of_splitFirst h hw (markers_plain w hw).2
  obtain ⟨w, hw, first, rest, hback⟩ := exists_splitOn_back h
  obtain ⟨rfl, -, hbefore⟩ := splitFirst_eq_some h
  obtain ⟨init, last, hinit, happend⟩ := exists_splitOn_append front
  have hlines := happend back (w ++ first) rest hback
  have hlast : last ≠ [] := by
    rintro rfl
    exact hline (eq_nil_or_newline hinit)
  by_cases hheading : ∃ l ∈ init ++ [last ++ (w ++ first)], isHeading l = true
  · -- the section of this line has the marker in it
    obtain ⟨s, hs, hmarker, hname⟩ := exists_section_of_line init rest _ (.inr hheading)
    have hmem : s ∈ otherSections (front ++ back) := by
      refine List.mem_filter.2 ⟨by rw [sections, hlines]; exact hs, ?_⟩
      rw [Bool.not_eq_true', Bool.eq_false_iff]
      intro hquality
      have hword : rstrip s.heading ∈ markers := by simpa [isQuality] using hquality
      have hpre := prefix_of_rstrip s.heading
      rcases hname with hname | hname | hname
      · exact absurd hname List.not_mem_nil
      · have hmem : s.heading ∈ splitOn '\n' front := by
          rw [hinit]
          exact List.mem_append_left _ hname
        have hin := infix_of_mem_splitOn hmem
        rcases infix_of_sep (l := []) (markers_plain _ hword).1 (hpre.isInfix.trans hin) with hin | hin
        · exact (markers_plain _ hword).2 (List.infix_nil.1 hin)
        · exact hfront _ hword hin
      · obtain ⟨start, hstart⟩ := suffix_of_splitOn hinit
        rw [hname] at hpre hword
        refine hbefore start last hstart.symm hlast _ hword (hpre.trans ?_)
        exact (List.prefix_append_right_inj last).2 (prefix_of_splitOn hback)
    obtain ⟨kept, hforall, hsublist⟩ := List.sublistForall₂_iff.1 hkept
    obtain ⟨s', hs', hkepts⟩ := exists_right_of_forall₂ hforall hmem
    refine not_kept_of_marker hw ?_ (hsublist.subset hs') hkepts
    refine List.IsInfix.trans ?_ hmarker
    exact ⟨last, first, by simp⟩
  · -- no section is open there, and none is kept
    have hplain : ∀ l ∈ splitOn '\n' front, ¬ isHeading l = true := by
      intro l hl hheads
      rw [hinit] at hl
      rcases List.mem_append.1 hl with hl | hl
      · exact hheading ⟨l, List.mem_append_left _ hl, hheads⟩
      · rw [List.mem_singleton.1 hl] at hheads
        exact hheading ⟨_, List.mem_append_right _ (List.mem_singleton.2 rfl),
          isHeading_append hheads _⟩
    have hnone : sections front = [] := by
      have hmap := map_heading_sections front
      rw [List.filter_eq_nil_iff.2 hplain] at hmap
      exact List.map_eq_nil_iff.1 hmap
    have hforall := forall₂_keptSections (t := front) (k := [])
      (fun _ hc => absurd hc List.not_mem_nil) blank_rtakeWhile
      (by rw [List.append_nil]; exact refreshed_of_some quality h)
    rw [hnone] at hforall
    rw [List.forall₂_nil_left_iff.1 hforall] at hkept
    obtain ⟨kept, hforall, hsublist⟩ := List.sublistForall₂_iff.1 hkept
    obtain rfl := List.sublist_nil.1 hsublist
    exact hne (List.forall₂_nil_right_iff.1 hforall)

/-- The other sections are kept if they stand before the appendix. -/
theorem kept_iff (hplain : ∀ line ∈ splitOn '\n' quality, isHeading line = false) :
    List.SublistForall₂ (Kept quality) (otherSections content)
        (otherSections (refreshReviewQualitySection content quality)) ↔
      ∀ front back, splitFirst markers content = some (front, back) →
        (beginsLine front ∧ ∀ line ∈ splitOn '\n' back, isHeading line = true →
          rstrip line ∈ markers) ∨ otherSections content = [] := by
  rw [otherSections_refresh hplain]
  constructor
  · intro hkept front back hsplit
    by_cases hline : beginsLine front
    · obtain ⟨secs, hsecs, hforall⟩ := kept_at_line quality hsplit hline
      rw [hsecs] at hkept
      obtain ⟨kept, hpairs, hsublist⟩ := List.sublistForall₂_iff.1 hkept
      -- no section is left for those behind the marker
      have hlength := hpairs.length_eq
      have hle := hsublist.length_le
      rw [List.length_append] at hlength
      rw [← hforall.length_eq] at hle
      have hnil : otherSections back = [] := List.length_eq_zero_iff.1 (by omega)
      exact .inl ⟨hline, otherSections_eq_nil_iff.1 hnil⟩
    · exact .inr (kept_inside_line hsplit hline hkept)
  · intro h
    rw [List.sublistForall₂_iff]
    cases hsplit : splitFirst markers content with
    | none => exact ⟨_, kept_of_none hsplit, List.Sublist.refl _⟩
    | some m =>
      obtain ⟨front, back⟩ := m
      rcases h front back hsplit with ⟨hline, hback⟩ | hnil
      · obtain ⟨secs, hsecs, hforall⟩ := kept_at_line quality hsplit hline
        rw [otherSections_eq_nil_iff.2 hback, List.append_nil] at hsecs
        rw [hsecs]
        exact ⟨_, hforall, List.Sublist.refl _⟩
      · rw [hnil]
        exact ⟨[], .nil, List.nil_sublist _⟩

/-- A refresh is idempotent, writes one appendix and loses nothing else exactly if the report
is regular. -/
theorem refreshes_iff : Refreshes content quality ↔ Regular content quality := by
  constructor
  · intro h
    have hplain := appendix_iff.1 h.appendix
    obtain ⟨htrimmed, hverdict⟩ := idempotent_iff.1 h.idempotent
    exact ⟨hplain, htrimmed, hverdict, (kept_iff hplain).1 h.kept⟩
  · intro h
    exact ⟨idempotent_iff.2 ⟨h.trimmed, h.verdict⟩, appendix_iff.2 h.plain,
      (kept_iff h.plain).2 h.last⟩

def passedQuality : List Char := "policy_id=project.quality.v1\nstatus=passed\nissues=0".toList

/-- A report of the control plane as it is saved. -/
def savedReport : List Char :=
  saveReview (controlPlaneReview "backend/app/main.py".toList "unit passed".toList passedQuality)
    (some passedQuality)

/-- The section about the blocking problem stands behind the appendix and is lost. -/
theorem blocking_section_lost : ¬ Refreshes savedReport passedQuality := by
  intro h
  obtain ⟨kept, hpairs, hsublist⟩ := List.sublistForall₂_iff.1 h.kept
  have hle := hsublist.length_le
  rw [← hpairs.length_eq] at hle
  have hbefore : (otherSections savedReport).length = 3 := by decide +kernel
  have hafter : (otherSections
      (refreshReviewQualitySection savedReport passedQuality)).length = 2 := by decide +kernel
  omega

end ProjectOS.Orchestration.ReviewQuality
