import ProjectOS.Application.Numbering
import ProjectOS.Base.JsonRepr
import ProjectOS.Base.Fields

/-! The summary of one trace that a conversation shows: facts of the control plane
on one line, cut to a fixed length. -/
namespace ProjectOS.Application
open Base

inductive TraceStatus where
  | planning | planned | running
  | completed | waitingForCapabilityApproval | blocked | failed | cancelled | needsReplan
deriving DecidableEq

def TraceStatus.value : TraceStatus → String
  | .planning => "planning"
  | .planned => "planned"
  | .running => "running"
  | .completed => "completed"
  | .waitingForCapabilityApproval => "waiting_for_capability_approval"
  | .blocked => "blocked"
  | .failed => "failed"
  | .cancelled => "cancelled"
  | .needsReplan => "needs_replan"

/-- `status in {"planned", "running"}`. -/
def TraceStatus.active (status : TraceStatus) : Bool := status ∈ [.planned, .running]

/-- The statuses that a run ends with. -/
def TraceStatus.terminal (status : TraceStatus) : Bool :=
  status ∉ [.planning, .planned, .running]

/-- What the stores answer about one trace. A goal or an error that is absent is the
empty text; `events` are the types of its events, or none where the log cannot be read. -/
structure TraceFacts where
  status : TraceStatus
  goal : String := ""
  error : String := ""
  events : Option (List String) := some []
  evidence : Nat := 0
  artifacts : List String := []
deriving DecidableEq

def summaryArtifacts : List String :=
  ["requirement", "architecture", "tasks", "implementation", "tests", "review"]

def maxSummary : Nat := 2000

/-- `" ".join(value.split())[:limit]`. -/
def singleLine (value : String) (limit : Nat) : String :=
  String.ofList (([' '].intercalate (Text.words value.toList)).take limit)

/-- `_limit`. -/
def limitText (value : String) (limit : Nat) : String :=
  if value.length ≤ limit then value
  else Text.rstripBy Text.isSpace (String.ofList (value.toList.take (limit - 1))) ++ "…"

namespace TraceFacts
variable (facts : TraceFacts)

def summaryLines (events : List String) : List String :=
  let count := fun type => toString (events.countP (· == type))
  let artifacts := summaryArtifacts.filter (· ∈ facts.artifacts)
  [if facts.status.active then "本轮执行当前状态：" ++ facts.status.value ++ "。"
    else "本轮执行已结束，状态：" ++ facts.status.value ++ "。"] ++
  (if facts.goal ≠ "" then ["目标：" ++ singleLine facts.goal 240] else []) ++
  ["步骤：完成 " ++ count "work_item_completed" ++ "，失败 " ++ count "work_item_failed" ++
    "，等待授权 " ++ count "work_item_waiting_capability" ++ "。"] ++
  (if facts.evidence ≠ 0 then
    ["验证证据：已记录 " ++ toString facts.evidence ++ " 条 SandboxEvidence。"] else []) ++
  (if artifacts ≠ [] then ["当前项目已有产物：" ++ Text.join "、" artifacts ++ "。"] else []) ++
  (if facts.error ≠ "" then ["原因：" ++ singleLine facts.error 500] else []) ++
  (if facts.status ∈ [.failed, .blocked, .needsReplan, .waitingForCapabilityApproval] then
    ["建议：查看运行事件和证据后，再选择继续、恢复或修改需求。"] else [])

/-- `summarize(trace_id).content`. -/
def summarize : Result String :=
  match facts.events with
  | none => raise "JSONDecodeError"
  | some events => .ok (limitText (Text.join " " (facts.summaryLines events)) maxSummary)

/-- What is said about an ended run whose summary cannot be read. -/
def fallback : String :=
  "本轮执行已结束，状态：" ++ facts.status.value ++ "。" ++
    (if facts.error ≠ "" then " 原因：" ++ facts.error else "")

end TraceFacts

/-- What `append` asks of a content, and what keeps its record on one line. -/
structure Sayable (content : String) : Prop where
  said : Text.strip content ≠ ""
  short : (Text.strip content).length ≤ maxMessage
  unbroken : Json.unbroken (Text.strip content) = true

theorem unbroken_iff {text : String} :
    Json.unbroken text = true ↔ ∀ c ∈ text.toList, Json.wideBreak c = false := by
  simp [Json.unbroken]

/-- For literals: their characters need not be decoded. -/
theorem unbroken_ofList {cs : List Char} (h : cs.any Json.wideBreak = false) :
    Json.unbroken (String.ofList cs) = true := by
  rw [Json.unbroken, String.toList_ofList, h]
  rfl

theorem strip_ofList {cs : List Char}
    (h : (cs.dropWhile Text.isSpace).rdropWhile Text.isSpace = cs) :
    Text.strip (String.ofList cs) = String.ofList cs := by
  simp only [Text.strip, Text.stripBy, Text.rstripBy, Text.lstripBy, String.toList_ofList, h]

theorem unbroken_append {a b : String} :
    Json.unbroken (a ++ b) = true ↔ Json.unbroken a = true ∧ Json.unbroken b = true := by
  simp only [unbroken_iff, String.toList_append, List.forall_mem_append]

theorem unbroken_of_subset {s t : String} (h : ∀ c ∈ t.toList, c ∈ s.toList)
    (hs : Json.unbroken s = true) : Json.unbroken t = true := by
  rw [unbroken_iff] at hs ⊢
  exact fun c hc => hs c (h c hc)

theorem unbroken_join {sep : String} {parts : List String} (hsep : Json.unbroken sep = true)
    (h : ∀ part ∈ parts, Json.unbroken part = true) : Json.unbroken (Text.join sep parts) = true := by
  rw [unbroken_iff] at hsep
  simp only [unbroken_iff] at h ⊢
  induction parts with
  | nil => nofun
  | cons part parts ih =>
    rw [List.forall_mem_cons] at h
    cases parts with
    | nil => simpa [Text.join] using h.1
    | cons next parts =>
      rw [Json.toList_join_cons, List.forall_mem_append, List.forall_mem_append]
      exact ⟨h.1, hsep, ih h.2⟩

theorem unbroken_natural (n : Nat) : Json.unbroken (toString n) = true := by
  apply Memory.unbroken_of_ascii
  intro c hc
  have hdigit := Nat.isDigit_of_mem_toDigits (by decide) (by decide) (show c ∈ Nat.toDigits 10 n by
    simpa [Nat.repr] using hc)
  simp only [Char.isDigit, Bool.and_eq_true, decide_eq_true_eq] at hdigit
  have := hdigit.2
  exact Nat.lt_of_le_of_lt (UInt32.le_iff_toNat_le.mp this) (by decide)

theorem wideBreak_of_not_isSpace {c : Char} (h : Text.isSpace c = false) :
    Json.wideBreak c = false := by
  rw [← Bool.not_eq_true] at h ⊢
  contrapose! h
  simp only [Json.wideBreak, Bool.or_eq_true, beq_iff_eq] at h
  simp only [Text.isSpace, Bool.or_eq_true, beq_iff_eq]
  tauto

/-- Every line separator is a space to `str.split`. -/
theorem unbroken_singleLine (value : String) (limit : Nat) :
    Json.unbroken (singleLine value limit) = true := by
  rw [unbroken_iff, singleLine, String.toList_ofList]
  intro c hc
  have hmem := List.mem_of_mem_take hc
  obtain hsep | ⟨word, hword, hc⟩ := Json.mem_intercalate hmem
  · rw [List.mem_singleton.mp hsep]
    decide
  · exact wideBreak_of_not_isSpace ((Text.of_mem_fields hword).2 c hc).1

theorem toList_strip_sublist (s : String) : (Text.strip s).toList.Sublist s.toList := by
  rw [Text.strip, Text.stripBy, Text.rstripBy, Text.lstripBy, String.toList_ofList,
    String.toList_ofList]
  exact (List.rdropWhile_prefix _ _).sublist.trans (List.dropWhile_sublist _)

theorem sayable_of {content : String} {c : Char} (hc : c ∈ content.toList)
    (hvisible : Text.isSpace c = false) (hshort : content.length ≤ maxMessage)
    (hunbroken : Json.unbroken content = true) : Sayable content := by
  have hsub := toList_strip_sublist content
  constructor
  · intro hempty
    have hmem := Text.mem_stripBy hc hvisible
    rw [Text.strip] at hempty
    rw [hempty] at hmem
    cases hmem
  · have := hsub.length_le
    rw [String.length_toList, String.length_toList] at this
    omega
  · exact unbroken_of_subset (fun c hc => hsub.mem hc) hunbroken

theorem subset_rstrip {p : Char → Bool} {cs : List Char} :
    ∀ c ∈ (Text.rstripBy p (String.ofList cs)).toList, c ∈ cs := by
  intro c hc
  rw [Text.rstripBy, String.toList_ofList, String.toList_ofList] at hc
  exact (List.rdropWhile_prefix _ _).subset hc

theorem length_limitText (value : String) {limit : Nat} (hlimit : 0 < limit) :
    (limitText value limit).length ≤ limit := by
  unfold limitText
  split
  · assumption
  · have hprefix := (List.rdropWhile_prefix Text.isSpace (value.toList.take (limit - 1))).length_le
    have htake := List.length_take_le (limit - 1) value.toList
    have hone : "…".length = 1 := rfl
    rw [String.length_append, hone, Text.rstripBy, String.toList_ofList, String.length_ofList]
    omega

theorem unbroken_limitText {value : String} (h : Json.unbroken value = true) (limit : Nat) :
    Json.unbroken (limitText value limit) = true := by
  unfold limitText
  split
  · exact h
  · rw [unbroken_append]
    exact ⟨unbroken_of_subset (fun c hc => List.mem_of_mem_take (subset_rstrip c hc)) h, by decide⟩

theorem exists_visible_limitText {value : String} {c : Char} (hc : c ∈ value.toList)
    (hvisible : Text.isSpace c = false) (limit : Nat) :
    ∃ d ∈ (limitText value limit).toList, Text.isSpace d = false := by
  unfold limitText
  split
  · exact ⟨c, hc, hvisible⟩
  · refine ⟨'…', ?_, by decide⟩
    rw [String.toList_append, List.mem_append]
    exact .inr (by decide)

theorem TraceStatus.unbroken_value (status : TraceStatus) : Json.unbroken status.value = true := by
  cases status <;> decide

namespace TraceFacts
variable {facts : TraceFacts} {content : String}

theorem unbroken_summaryLines (facts : TraceFacts) (events : List String) :
    ∀ line ∈ facts.summaryLines events, Json.unbroken line = true := by
  have hstatus := facts.status.unbroken_value
  have hartifacts : Json.unbroken (Text.join "、" (summaryArtifacts.filter (· ∈ facts.artifacts))) =
      true := by
    apply unbroken_join (by decide)
    intro key hkey
    exact Memory.unbroken_of_mem (by decide) (List.mem_of_mem_filter hkey)
  have hwords : ∀ text ∈ ["本轮执行当前状态：", "本轮执行已结束，状态：", "。", "目标：", "步骤：完成 ",
      "，失败 ", "，等待授权 ", "验证证据：已记录 ", " 条 SandboxEvidence。", "当前项目已有产物：",
      "原因：", "建议：查看运行事件和证据后，再选择继续、恢复或修改需求。"],
      Json.unbroken text = true := by
    simp only [List.forall_mem_cons]
    and_intros
    all_goals first
      | exact unbroken_ofList (by decide)
      | exact List.forall_mem_nil _
  simp only [List.forall_mem_cons, List.not_mem_nil, false_implies, implies_true, and_true] at hwords
  unfold summaryLines
  dsimp only
  simp only [List.forall_mem_append, List.forall_mem_singleton]
  refine ⟨⟨⟨⟨⟨⟨?_, ?_⟩, ?_⟩, ?_⟩, ?_⟩, ?_⟩, ?_⟩
  · split <;> simp only [unbroken_append, hstatus, hwords, and_self]
  · split <;> simp [unbroken_append, unbroken_singleLine, hwords]
  · simp only [unbroken_append, unbroken_natural, hwords, and_self]
  · split
    · simpa [unbroken_append, hwords] using unbroken_natural facts.evidence
    · simp
  · split <;> simp [unbroken_append, hartifacts, hwords]
  · split <;> simp [unbroken_append, unbroken_singleLine, hwords]
  · split <;> simp [hwords]

/-- A summary that can be read can always be said: it is neither too long nor broken. -/
theorem sayable_summarize (h : facts.summarize = .ok content) : Sayable content := by
  unfold summarize at h
  split at h
  · cases h
  rename_i events _
  cases h
  have hhead : '本' ∈ (Text.join " " (facts.summaryLines events)).toList := by
    have hfirst : ∃ line rest, facts.summaryLines events = line :: rest ∧ '本' ∈ line.toList := by
      unfold summaryLines
      refine ⟨_, _, rfl, ?_⟩
      split <;> simp only [String.toList_append, List.mem_append]
      · exact .inl (.inl (by decide))
      · exact .inl (.inl (by decide))
    obtain ⟨line, rest, hlines, hmem⟩ := hfirst
    rw [hlines]
    cases rest with
    | nil => simpa [Text.join] using hmem
    | cons next rest =>
      rw [Json.toList_join_cons, List.mem_append]
      exact .inl hmem
  obtain ⟨c, hc, hvisible⟩ := exists_visible_limitText hhead (by decide) maxSummary
  have hlength := length_limitText (Text.join " " (facts.summaryLines events))
    (show 0 < maxSummary by decide)
  apply sayable_of hc hvisible
  · exact Nat.le_trans hlength (by decide)
  · exact unbroken_limitText (unbroken_join (by decide) (facts.unbroken_summaryLines events)) _

theorem sayable_fallback (hshort : facts.fallback.length ≤ maxMessage)
    (herror : Json.unbroken facts.error = true) : Sayable facts.fallback := by
  apply @sayable_of facts.fallback '本' _ (by decide) hshort
  · have hstatus := facts.status.unbroken_value
    have hwords : Json.unbroken "本轮执行已结束，状态：" = true ∧ Json.unbroken "。" = true ∧
        Json.unbroken " 原因：" = true := by decide
    unfold fallback
    split <;> simp only [unbroken_append, hstatus, hwords, herror, and_self]
    decide
  · unfold fallback
    simp only [String.toList_append, List.mem_append]
    exact .inl (.inl (.inl (by decide)))

end TraceFacts
end ProjectOS.Application
