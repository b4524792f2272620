import ProjectOS.Orchestration.ReviewVerdict
import ProjectOS.Orchestration.RunLoop

/-! The end of a run: a completed graph is released unless its review, the quality
policy or the records of the delivery say otherwise. -/
namespace ProjectOS.Orchestration
open Base

inductive GraphRunStatus where
  | completed
  | waitingForCapabilityApproval
  | blocked
  | failed
  | cancelled
  | needsReplan
deriving DecidableEq, Repr

/-- What a run reads once its graph is complete, and how it answers a request for a
capability that it cannot grant itself. -/
structure Release where
  traced : Bool := true
  quality : String := ""
  incomplete : List String := []
  artifacts : Option (List String) := none
  unmet : NodeResult → GraphRunStatus := fun _ => .waitingForCapabilityApproval
  unmet_ne_completed : ∀ result, unmet result ≠ .completed := by exact fun _ => nofun

/-- A status with the error text that goes with it. -/
abbrev Verdict := GraphRunStatus × Option String

namespace Release

def reviewItem (plan : ExecutionPlan) : Option WorkItem :=
  plan.workItems.find? (·.agentId = "review_agent")

/-- The content of the review as the state holds it. -/
def reviewContent (plan : ExecutionPlan) (state : RunState) : Option String := do
  let item ← reviewItem plan
  let result ← state.nodeResults.get? item.id
  result.content

def reviewGate (plan : ExecutionPlan) (state : RunState) : Verdict :=
  if parseReviewVerdict (reviewContent plan state) = some .blocked then
    (.blocked, some "Review 结论为 BLOCKED：交付未放行，修复阻塞项后可从 checkpoint 恢复运行")
  else (.completed, none)

def isRepair (plan : ExecutionPlan) : Bool := Text.contains plan.id "-repair-"

def qualityGate (release : Release) (plan : ExecutionPlan) : Verdict :=
  if release.traced && plan.validationScope = .fullDelivery && !isRepair plan &&
      Text.contains release.quality "policy_id=project.quality.v1\nstatus=failed" then
    (.blocked, some "确定性项目质量策略未通过：请完善系统分层、测试或启动边界后恢复运行")
  else (.completed, none)

def requiredArtifacts : List String :=
  ["requirement", "architecture", "environment", "implementation", "tests", "review"]

def isFullDelivery (plan : ExecutionPlan) : Bool :=
  plan.templateId.any (· ∈ ["project_delivery", "project_delivery_dynamic",
    "project_delivery_layered", "implementation-contract"]) ||
  ["requirement_agent", "review_agent"].all fun agentId =>
    plan.workItems.any (·.agentId = agentId)

def deliveryGate (release : Release) (plan : ExecutionPlan) : Verdict :=
  if release.traced && plan.validationScope = .fullDelivery && !isRepair plan &&
      plan.workItems.any (·.agentId ∈ ["code_agent", "test_agent", "review_agent"]) then
    if release.incomplete ≠ [] then
      (.blocked, some ("需求追踪矩阵仍有未闭环需求: " ++ Text.join ", " release.incomplete))
    else
      match isFullDelivery plan, release.artifacts with
      | true, some present =>
          let missing := requiredArtifacts.filter (· ∉ present)
          if missing ≠ [] then
            (.blocked, some ("交付产物不完整，缺少: " ++ Text.join ", " missing))
          else (.completed, none)
      | _, _ => (.completed, none)
  else (.completed, none)

/-- The gates in their order; a later one is asked only about a completed run. -/
def finish (release : Release) (plan : ExecutionPlan) (state : RunState) : Verdict :=
  let reviewed := reviewGate plan state
  if reviewed.1 ≠ .completed then reviewed
  else
    let checked := release.qualityGate plan
    if checked.1 ≠ .completed then checked else release.deliveryGate state.plan

end Release

/-- The status of a run whose loop ends otherwise than complete; an error is raised. -/
def Ending.status (release : Release) : Ending → Option GraphRunStatus
  | .cancelled => some .cancelled
  | .rewriteFailed _ => some .failed
  | .waveFailed => some .needsReplan
  | .completed => none
  | .stuck => some .failed
  | .recordFailed _ => none
  | .stopped result =>
      match result.status with
      | .completed => none
      | .needsCapability => some (release.unmet result)
      | .failed => some .failed
      | .needsReplan =>
          if result.failureSignal.any (·.kind ∈ [.sandboxSetup, .runtimePreflight]) then
            some .blocked
          else some .needsReplan

namespace GraphRunner

/-- `run`: the loop, which keeps the plan of the last batch, and the gates. The answer
comes with that plan and the last state. -/
def run (runner : GraphRunner) (release : Release) :
    ExecutionPlan → List Surroundings → RunState → Option (GraphRunStatus × ExecutionPlan × RunState)
  | _, [], _ => none
  | plan, env :: envs, state =>
      match runner.pass env state with
      | .ok next => runner.run release next.plan envs next
      | .error (.completed, final) => some ((release.finish plan final).1, plan, final)
      | .error (ending, final) => (ending.status release).map fun status => (status, plan, final)

variable {runner : GraphRunner} {release : Release} {plan plan' : ExecutionPlan}
  {envs : List Surroundings} {state final : RunState}

theorem status_ne_completed (release : Release) (ending : Ending) :
    ending.status release ≠ some .completed := by
  cases ending with
  | stopped result =>
    cases hstatus : result.status with
    | needsCapability => simpa [Ending.status, hstatus] using release.unmet_ne_completed result
    | needsReplan =>
      simp only [Ending.status, hstatus]
      split <;> simp
    | _ => simp [Ending.status, hstatus]
  | _ => simp [Ending.status]

/-- A run that completes has passed the gates. -/
theorem run_completed (h : runner.run release plan envs state = some (.completed, plan', final)) :
    (release.finish plan' final).1 = .completed := by
  induction envs generalizing plan state with
  | nil => cases h
  | cons env envs ih =>
    unfold run at h
    split at h
    · exact ih h
    · simp only [Option.some.injEq, Prod.mk.injEq] at h
      obtain ⟨hfinish, rfl, rfl⟩ := h
      exact hfinish
    · obtain ⟨status, hstatus, h⟩ := Option.map_eq_some_iff.mp h
      simp only [Prod.mk.injEq] at h
      rw [h.1] at hstatus
      exact absurd hstatus (status_ne_completed release _)

end GraphRunner

theorem Release.finish_completed {release : Release} {plan : ExecutionPlan} {state : RunState}
    (h : (release.finish plan state).1 = .completed) :
    parseReviewVerdict (reviewContent plan state) ≠ some .blocked := by
  intro hblocked
  unfold finish reviewGate at h
  simp only [hblocked, if_true] at h
  simp at h

/-- Not one run completes whose review has this content. -/
def Withheld (content : String) : Prop :=
  ∀ (runner : GraphRunner) (release : Release) (plan : ExecutionPlan) (envs : List Surroundings)
    (state : RunState) (plan' : ExecutionPlan) (final : RunState),
    runner.run release plan envs state = some (.completed, plan', final) →
      Release.reviewContent plan' final ≠ some content

def reviewOnly : WorkItem := RunState.plainItem "review" "review_agent" (by decide)

def reviewPlan : ExecutionPlan where
  id := "plan"
  goal := "x"
  workItems := [reviewOnly]
  trace := { requirementId := "req-1", traceId := "tr-1" }
  accepted := by decide

/-- The review is done, with this content. -/
def reviewedState (content : String) : RunState := (RunState.fresh reviewPlan).recorded reviewOnly
  { workItemId := "review", agentId := "review_agent", status := .completed,
    content := some content }

theorem reviewedState_pass (content : String) :
    RunState.plainRunner.pass GraphRunner.obliging (reviewedState content) =
      .error (.completed, reviewedState content) := rfl

/-- Outside a trace the review alone decides. -/
theorem reviewedState_run (content : String) :
    RunState.plainRunner.run { traced := false } reviewPlan [GraphRunner.obliging]
        (reviewedState content) =
      some (if parseReviewVerdict (some content) = some .blocked then .blocked else .completed,
        reviewPlan, reviewedState content) := by
  have hcontent : Release.reviewContent reviewPlan (reviewedState content) = some content := rfl
  rw [GraphRunner.run, reviewedState_pass]
  dsimp only
  rw [Release.finish, Release.reviewGate, hcontent]
  split <;> rfl

/-- The runs of a blocked review are all withheld exactly if its verdict is read. -/
theorem withheld_iff (content : String) :
    Withheld content ↔ parseReviewVerdict (some content) = some .blocked := by
  constructor
  · intro hwithheld
    by_contra hread
    refine hwithheld RunState.plainRunner { traced := false } reviewPlan [GraphRunner.obliging]
      (reviewedState content) reviewPlan (reviewedState content) ?_ rfl
    rw [reviewedState_run, if_neg hread]
  · intro hread runner release plan envs state plan' final hrun hcontent
    have hreleased := Release.finish_completed (GraphRunner.run_completed hrun)
    rw [hcontent] at hreleased
    exact hreleased hread

/-- A stated verdict is read, and a blocked review held back, exactly if it is legible. -/
theorem verdict_read_iff {content : String} {before after : List Char} {form : ConclusionForm}
    {verdict : ReviewVerdict} (h : Concludes content before form verdict after) :
    (parseReviewVerdict (some content) = some verdict ↔ Legible before form verdict after) ∧
      (verdict = .blocked → (Withheld content ↔ Legible before form verdict after)) := by
  refine ⟨h.parse_iff, fun hblocked => ?_⟩
  rw [withheld_iff, ← h.parse_iff, hblocked]

def bracketedReport : String := "# 交付审查\n\n## 审查结论（BLOCKED）\n\n缺少证据"

theorem bracketedReport_withheld :
    parseReviewVerdict (some bracketedReport) = some .blocked ∧ Withheld bracketedReport := by
  have hread := @verdict_read_iff bracketedReport "# 交付审查\n\n".toList "\n\n缺少证据".toList
    .bracketed .blocked ⟨by decide, .inr ⟨"# 交付审查\n".toList, by decide⟩,
      .inr ⟨"\n缺少证据".toList, by decide⟩⟩
  have hlegible : Legible "# 交付审查\n\n".toList .bracketed .blocked "\n\n缺少证据".toList := by
    intro earlier hearlier
    rw [← Leftmost.search_eq_some mentions_exclusive] at hearlier
    have hnone : Leftmost.search ReviewVerdict.mentions "# 交付审查\n\n".toList = none := by decide
    rw [hnone] at hearlier
    cases hearlier
  exact ⟨hread.1.mpr hlegible, (hread.2 rfl).mpr hlegible⟩

/-- The report that the control plane writes itself. -/
def controlPlaneReport : String := "# 交付审查\n\n## 审查结论\nBLOCKED\n\n## 已验证证据\n"

/-- A review after a repair that mentions the verdict before it. -/
def repairedReport : String := "上一轮审查结论（PASS）已失效。\n## 审查结论（BLOCKED）\n"

/-- Both reports state one conclusion, which is not read, and both are released. -/
theorem blockedReports_released :
    (∃ before after, Concludes controlPlaneReport before .below .blocked after) ∧
      conclusions (Text.split '\n' controlPlaneReport) = [.blocked] ∧
      parseReviewVerdict (some controlPlaneReport) = none ∧ ¬ Withheld controlPlaneReport ∧
    (∃ before after, Concludes repairedReport before .bracketed .blocked after) ∧
      conclusions (Text.split '\n' repairedReport) = [.blocked] ∧
      parseReviewVerdict (some repairedReport) = some .pass ∧ ¬ Withheld repairedReport := by
  have hcontrol : parseReviewVerdict (some controlPlaneReport) = none := by decide
  have hrepaired : parseReviewVerdict (some repairedReport) = some .pass := by decide
  refine ⟨⟨"# 交付审查\n\n".toList, "\n\n## 已验证证据\n".toList, by decide,
    .inr ⟨"# 交付审查\n".toList, by decide⟩, .inr ⟨"\n## 已验证证据\n".toList, by decide⟩⟩,
    by decide, hcontrol, ?_, ⟨"上一轮审查结论（PASS）已失效。\n".toList, "\n".toList, by decide,
    .inr ⟨"上一轮审查结论（PASS）已失效。".toList, by decide⟩, .inr ⟨[], by decide⟩⟩, by decide,
    hrepaired, ?_⟩
  · rw [withheld_iff, hcontrol]
    nofun
  · rw [withheld_iff, hrepaired]
    nofun

end ProjectOS.Orchestration
