import ProjectOS.Orchestration.Evidence
import ProjectOS.Orchestration.NodeResult
import ProjectOS.Orchestration.WorkItem

/-! The gate behind a test node: an answer of the agent counts by the sandbox evidence of
its work item. -/
namespace ProjectOS.Orchestration
open Base SandboxEvidence

inductive AgentStatus where
  | completed
  | needsCapability
deriving DecidableEq, Repr

structure AgentResult where
  status : AgentStatus
  content : Option String := none
  capabilityRequest : Option CapabilityRequest := none
deriving DecidableEq

def AgentResult.completed (content : String) : AgentResult where
  status := .completed
  content := some content

/-- `NodeResult.from_agent_result` with the ids of an item, which are not blank. -/
def NodeResult.fromAgentResult (item : WorkItem) (result : AgentResult) : NodeResult :=
  match result.status with
  | .completed =>
      { workItemId := item.id, agentId := item.agentId, status := .completed
        content := result.content }
  | .needsCapability =>
      { workItemId := item.id, agentId := item.agentId, status := .needsCapability
        capabilityRequest := result.capabilityRequest }

/-- `sandbox_failure_signal`. -/
def sandboxFailureSignal (status : SandboxStatus) (evidenceId : String)
    (message : Option String) : Option FailureSignal :=
  let signal (kind : FailureKind) : FailureSignal := {
    kind := kind
    evidenceId := some evidenceId
    summary := (message.filter (· ≠ "")).getD ("sandbox check 返回 " ++ status.value) }
  match status with
  | .passed => none
  | .failed => some (signal .testFailure)
  | .timedOut => some (signal .sandboxTimeout)
  | .setupFailed => some (signal .sandboxSetup)

def diagnosisMarkers : List String := [
  "ModuleNotFoundError", "ImportError", "SyntaxError", "TypeError",
  "AssertionError", "FAILED", "ERROR", "not ok"]

/-- `_evidence_diagnosis`: the first lines that name an error, or the last two. -/
def evidenceDiagnosis (e : SandboxEvidence) : String :=
  let text := Text.join "\n" [Text.strip (e.message.getD ""), e.stdout, e.stderr]
  let lines := ((Text.splitlines text).map Text.strip).filter (· ≠ "")
  let marked := lines.filter fun line =>
    diagnosisMarkers.any fun marker => Text.contains (Text.lower line) (Text.lower marker)
  let selected := if marked = [] then lines.drop (lines.length - 2) else marked.take 3
  let diagnosis := String.ofList ((Text.join " " selected).toList.take 600)
  if diagnosis = "" then "未提供可解析错误" else diagnosis

/-- What the gate returns: after the fallback it is the answer of an agent. -/
inductive GateResult where
  | node (result : NodeResult)
  | agent (result : AgentResult)
deriving DecidableEq

namespace GateResult

def content : GateResult → Option String
  | node result => result.content
  | agent result => result.content

def needsReplan (item : WorkItem) (signal : Option FailureSignal)
    (content : Option String := none) : GateResult :=
  .node {
    workItemId := item.id
    agentId := item.agentId
    status := .needsReplan
    content := content
    failureSignal := signal }

end GateResult

def missingEvidence : FailureSignal where
  kind := .testEvidenceMissing
  summary := "TestAgent 未产生当前 WorkItem 的 SandboxEvidence"

/-- The failure of a check, with the diagnoses of all that failed. -/
def checkFailure (evidence : SandboxEvidence) (failures : List SandboxEvidence) :
    Option FailureSignal :=
  let details := Text.join "; " (failures.map fun failed =>
    failed.checkId ++ ": " ++ evidenceDiagnosis failed)
  (sandboxFailureSignal evidence.status evidence.id evidence.message).map fun signal => {
    kind := signal.kind
    summary := String.ofList ((signal.summary ++ "；失败检查诊断：" ++ details).toList.take 4000)
    evidenceId := signal.evidenceId }

/-- The result of a test node by the latest evidence of every check. -/
def judge (item : WorkItem) (result : GateResult) (evidences : List SandboxEvidence) :
    GateResult :=
  if evidences = [] then .needsReplan item (some missingEvidence)
  else
    match evidences.filter (·.status ≠ .passed) with
    | [] => result
    | evidence :: failures =>
        if evidence.status = .setupFailed then
          .needsReplan item (some {
            kind := .sandboxSetup
            summary := "测试 sandbox 未就绪：" ++ (evidence.message.filter (· ≠ "")).getD "未知环境错误"
            evidenceId := some evidence.id }) result.content
        else .needsReplan item (checkFailure evidence (evidence :: failures))

section gate

variable {ε : Type} (w : WordChars) (item : WorkItem) (agentResult : AgentResult)
  (completeTestWithControlPlane : Except ε (String × List SandboxEvidence))
  (history : List SandboxEvidence)

/-- The gate of `_run_item`, with the evidence there is when it returns. The fallback
returns its report and leaves the evidence of its checks, or it raises. -/
def testGate : Except ε (GateResult × List SandboxEvidence) :=
  let nodeResult := NodeResult.fromAgentResult item agentResult
  let evidences := (latestByCheck item.id history).values
  if nodeResult.status ≠ .completed then .ok (.node nodeResult, history)
  else if evidences = [] ∨ evidences.any (isEmptyTestEvidence w) then do
    let (report, history) ← completeTestWithControlPlane
    .ok (judge item (.agent (.completed report)) (latestByCheck item.id history).values, history)
  else .ok (judge item (.node nodeResult) evidences, history)

/-- The item has evidence, and the latest of every check has passed with a test in it. -/
structure Evidenced (workItemId : String) (history : List SandboxEvidence) : Prop where
  ran : ∃ e ∈ history, e.workItemId = workItemId
  passed : ∀ e, IsLatest workItemId history e →
    e.status = .passed ∧ isEmptyTestEvidence w e = false

/-- A result of this work item, completed only by its evidence. -/
def Sound (outcome : Except ε (GateResult × List SandboxEvidence)) : Prop :=
  ∃ result after, outcome = .ok (.node result, after) ∧ result.workItemId = item.id ∧
    (result.status = .completed → Evidenced w item.id after)

/-- The agent has finished without a test that ran. -/
def NeedsFallback : Prop :=
  agentResult.status = .completed ∧
    ((∀ e ∈ history, e.workItemId ≠ item.id) ∨
      ∃ e, IsLatest item.id history e ∧ isEmptyTestEvidence w e = true)

variable {w item agentResult completeTestWithControlPlane history}

theorem fromAgentResult_workItemId :
    (NodeResult.fromAgentResult item agentResult).workItemId = item.id := by
  unfold NodeResult.fromAgentResult
  split <;> rfl

theorem fromAgentResult_completed_iff (item : WorkItem) :
    (NodeResult.fromAgentResult item agentResult).status = .completed ↔
      agentResult.status = .completed := by
  unfold NodeResult.fromAgentResult
  cases h : agentResult.status <;> simp

theorem needsFallback_iff :
    NeedsFallback w item agentResult history ↔ agentResult.status = .completed ∧
      ((latestByCheck item.id history).values = [] ∨
        (latestByCheck item.id history).values.any (isEmptyTestEvidence w)) := by
  unfold NeedsFallback
  rw [latestByCheck_eq_nil_iff, List.any_eq_true]
  simp only [mem_latestByCheck]

/-- The gate lets its result through, or hands back one of the item that is not completed. -/
theorem judge_cases (item : WorkItem) (result : GateResult) (evidences : List SandboxEvidence) :
    (evidences ≠ [] ∧ (∀ e ∈ evidences, e.status = .passed) ∧
      judge item result evidences = result) ∨
    ((evidences = [] ∨ ∃ e ∈ evidences, e.status ≠ .passed) ∧
      ∃ signal content, judge item result evidences = .needsReplan item signal content) := by
  unfold judge
  by_cases hnil : evidences = []
  · rw [if_pos hnil]
    exact .inr ⟨.inl hnil, _, _, rfl⟩
  rw [if_neg hnil]
  split
  · rename_i hfilter
    refine .inl ⟨hnil, fun e he => ?_, rfl⟩
    simpa using List.filter_eq_nil_iff.1 hfilter e he
  · rename_i evidence failures hfilter
    have hmem : evidence ∈ evidences.filter (·.status ≠ .passed) := by
      rw [hfilter]
      exact List.mem_cons_self
    have hfailed : ∃ e ∈ evidences, e.status ≠ .passed :=
      ⟨evidence, List.mem_of_mem_filter hmem, by simpa using List.of_mem_filter hmem⟩
    split
    · exact .inr ⟨.inr hfailed, _, _, rfl⟩
    · exact .inr ⟨.inr hfailed, _, _, rfl⟩

theorem sound_needsReplan (signal : Option FailureSignal) (content : Option String)
    (after : List SandboxEvidence) :
    Sound (ε := ε) w item (.ok (.needsReplan item signal content, after)) :=
  ⟨_, after, rfl, rfl, fun h => nomatch h⟩

theorem not_sound_agent (result : AgentResult) (after : List SandboxEvidence) :
    ¬ Sound (ε := ε) w item (.ok (.agent result, after)) := by
  rintro ⟨_, _, h, -⟩
  cases h

/-- Without the fallback the gate is sound. -/
theorem sound_of_not_needsFallback (h : ¬ NeedsFallback w item agentResult history) :
    Sound w item (testGate w item agentResult completeTestWithControlPlane history) := by
  rw [needsFallback_iff] at h
  unfold testGate
  by_cases hdone : agentResult.status = .completed
  · have hnode := (fromAgentResult_completed_iff item).2 hdone
    have hown : ¬ ((latestByCheck item.id history).values = [] ∨
        (latestByCheck item.id history).values.any (isEmptyTestEvidence w)) :=
      fun hempty => h ⟨hdone, hempty⟩
    simp only [hnode, ne_eq, not_true_eq_false, if_false, hown]
    rcases judge_cases item (.node (NodeResult.fromAgentResult item agentResult))
      (latestByCheck item.id history).values with ⟨hne, hpassed, hjudge⟩ | ⟨-, signal, content, hjudge⟩
    · rw [hjudge]
      refine ⟨_, history, rfl, fromAgentResult_workItemId, fun _ => ⟨?_, fun e he => ?_⟩⟩
      · by_contra hnone
        push Not at hnone
        exact hne (latestByCheck_eq_nil_iff.2 hnone)
      · have hmem := mem_latestByCheck.2 he
        refine ⟨hpassed e hmem, ?_⟩
        by_contra hempty
        exact hown (.inr (List.any_eq_true.2 ⟨e, hmem, by simpa using hempty⟩))
    · rw [hjudge]
      exact sound_needsReplan signal content history
  · have hnode : (NodeResult.fromAgentResult item agentResult).status ≠ .completed :=
      fun hcompleted => hdone ((fromAgentResult_completed_iff item).1 hcompleted)
    rw [if_pos hnode]
    exact ⟨_, history, rfl, fromAgentResult_workItemId, fun hcompleted => absurd hcompleted hnode⟩

/-- The fallback is a parameter of the step that follows it. -/
theorem testGate_of_needsFallback (h : NeedsFallback w item agentResult history) :
    testGate w item agentResult completeTestWithControlPlane history =
      completeTestWithControlPlane.map fun run =>
        (judge item (.agent (.completed run.1)) (latestByCheck item.id run.2).values, run.2) := by
  obtain ⟨hdone, hempty⟩ := needsFallback_iff.1 h
  unfold testGate
  have hnode := (fromAgentResult_completed_iff item).2 hdone
  simp only [hnode, ne_eq, not_true_eq_false, if_false, hempty, if_true]
  cases completeTestWithControlPlane <;> rfl

/-- The gate is sound unless it takes the fallback and the fallback raises or repairs the
evidence: then an error goes through, or the answer of an agent without the item's id. -/
theorem testGate_sound_iff :
    Sound w item (testGate w item agentResult completeTestWithControlPlane history) ↔
      (NeedsFallback w item agentResult history →
        ∃ report after, completeTestWithControlPlane = .ok (report, after) ∧
          ((∀ e ∈ after, e.workItemId ≠ item.id) ∨
            ∃ e, IsLatest item.id after e ∧ e.status ≠ .passed)) := by
  by_cases hneeds : NeedsFallback w item agentResult history
  swap
  · exact ⟨fun _ h => absurd h hneeds, fun _ => sound_of_not_needsFallback hneeds⟩
  rw [testGate_of_needsFallback hneeds]
  simp only [hneeds, forall_const]
  cases hrun : completeTestWithControlPlane with
  | error e =>
    constructor
    · rintro ⟨_, _, h, -⟩
      cases h
    · rintro ⟨_, _, h, -⟩
      cases h
  | ok run =>
    obtain ⟨report, after⟩ := run
    have hfails : (∃ report' after', (Except.ok (report, after) : Except ε _) = .ok (report', after') ∧
        ((∀ e ∈ after', e.workItemId ≠ item.id) ∨
          ∃ e, IsLatest item.id after' e ∧ e.status ≠ .passed)) ↔
        ((latestByCheck item.id after).values = [] ∨
          ∃ e ∈ (latestByCheck item.id after).values, e.status ≠ .passed) := by
      simp only [latestByCheck_eq_nil_iff, mem_latestByCheck]
      constructor
      · rintro ⟨_, _, h, hafter⟩
        cases h
        exact hafter
      · intro hafter
        exact ⟨report, after, rfl, hafter⟩
    rw [hfails]
    simp only [Except.map]
    rcases judge_cases item (.agent (.completed report))
      (latestByCheck item.id after).values with ⟨hne, hpassed, hjudge⟩ | ⟨hafter, signal, content, hjudge⟩
    · rw [hjudge]
      refine ⟨fun h => absurd h (not_sound_agent _ _), ?_⟩
      rintro (hnil | ⟨e, he, hstatus⟩)
      · exact absurd hnil hne
      · exact absurd (hpassed e he) hstatus
    · rw [hjudge]
      exact ⟨fun _ => hafter, fun _ => sound_needsReplan signal content after⟩

end gate

def unitTests : WorkItem := .ofFields {
  id := "tests"
  agentId := "test_agent"
  objective := "测试"
  outputKey := "tests" } (by decide)

def unitPassed : SandboxEvidence where
  id := "ev-1"
  traceId := "tr-1"
  workItemId := "tests"
  checkId := "unit"
  status := .passed
  stderr := "Ran 3 tests"
  createdAt := "2026-01-01T00:00:00+00:00"

/-- The agent ran no check, and the fallback's unit check passes: the gate returns the
answer of an agent. -/
theorem repaired_evidence_not_sound :
    ¬ ∀ (w : WordChars) (item : WorkItem) (agentResult : AgentResult)
      (fallback : Except Error (String × List SandboxEvidence)) (history : List SandboxEvidence),
      Sound w item (testGate w item agentResult fallback history) := by
  intro h
  have hsound := h asciiWords unitTests (.completed "done") (.ok ("# 测试报告", [unitPassed])) []
  have hneeds : NeedsFallback asciiWords unitTests (.completed "done") [] :=
    ⟨rfl, .inl fun _ he => absurd he List.not_mem_nil⟩
  have hvalues : (latestByCheck unitTests.id [unitPassed]).values = [unitPassed] := by
    decide +kernel
  rw [testGate_of_needsFallback hneeds] at hsound
  simp only [Except.map, hvalues] at hsound
  exact not_sound_agent _ _ hsound

end ProjectOS.Orchestration
