import ProjectOS.Orchestration.NodeResult
import ProjectOS.Orchestration.Plan

/-! The state of a run: recorded results, readiness and the checkpoint. -/
namespace ProjectOS.Orchestration
open Base

structure RunState where
  plan : ExecutionPlan
  nodeResults : Dict String NodeResult := ∅
  artifacts : Dict String String := ∅
  forcedRerunWorkItemIds : List String := []
  recoveryDiagnostics : Dict String String := ∅
  retryRecoveryContexts : Dict String Json := ∅

namespace RunState

/-- `RunState(plan=plan)`. -/
def fresh (plan : ExecutionPlan) : RunState := { plan := plan }

def hasCompleted (state : RunState) (workItemId : String) : Bool :=
  (state.nodeResults.get? workItemId).any NodeResult.isCompleted

/-- Items without a result whose dependencies are completed, in plan order. -/
def readyItems (state : RunState) : List WorkItem :=
  state.plan.workItems.filter fun item =>
    (state.nodeResults.get? item.id).isNone && item.dependencyIds.all state.hasCompleted

def record (state : RunState) (item : WorkItem) (result : NodeResult) : Result RunState := do
  raiseWhen (result.workItemId != item.id || result.agentId != item.agentId)
    "NodeResult 与 WorkItem 不匹配"
  raiseWhen (state.nodeResults.get? item.id).isSome
    ("工作项 " ++ Text.quote item.id ++ " 已有运行结果")
  let nodeResults := state.nodeResults.set item.id result
  if result.isCompleted then
    .ok { state with
      nodeResults := nodeResults
      forcedRerunWorkItemIds := state.forcedRerunWorkItemIds.filter (· ≠ item.id)
      recoveryDiagnostics := state.recoveryDiagnostics.erase item.id
      retryRecoveryContexts := state.retryRecoveryContexts.erase item.id
      artifacts := match result.content with
        | some content => state.artifacts.set item.outputKey content
        | none => state.artifacts }
  else .ok { state with nodeResults := nodeResults }

def isComplete (state : RunState) : Bool :=
  state.nodeResults.entries.length = state.plan.workItems.length &&
    state.nodeResults.values.all NodeResult.isCompleted

/-- The items whose result is completed, in plan order. -/
def completedItems (state : RunState) : List WorkItem :=
  state.plan.workItems.filter fun item => state.hasCompleted item.id

def refPayload (item : WorkItem) : Json := .obj [
  ("artifact_key", .str (item.artifactKey.getD item.outputKey)),
  ("work_item_id", .str item.id),
  ("contract_digest", .optStr item.contractDigest)]

def artifactRefs (state : RunState) : Dict String Json :=
  .ofList (state.completedItems.map fun item => (item.outputKey, refPayload item))

def asCheckpoint (state : RunState) : Json := .obj [
  ("schema_version", .int 1),
  ("plan_id", .str state.plan.id),
  ("trace_id", .str state.plan.trace.traceId),
  ("node_results", .arr (state.nodeResults.values.map fun result =>
    result.asDict.set "content" .null)),
  ("artifact_refs", .obj state.artifactRefs.entries),
  ("completed_work_items", .strs (Text.sorted
    ((state.nodeResults.entries.filter (·.2.isCompleted)).map Prod.fst))),
  ("pending_work_items", .strs ((state.plan.workItems.filter fun item =>
    (state.nodeResults.get? item.id).isNone).map (·.id))),
  ("forced_rerun_work_item_ids", .strs (Text.sorted state.forcedRerunWorkItemIds)),
  ("recovery_diagnostics", .obj (state.recoveryDiagnostics.entries.map fun e => (e.1, .str e.2)))]

/-- The loop over `node_results`; only completed results are trusted. -/
def readResults (plan : ExecutionPlan) :
    Dict String NodeResult → List String → List Json → Result (Dict String NodeResult)
  | results, _, [] => .ok results
  | results, seen, raw :: rest => do
      raiseWhen (!raw.isDict) "checkpoint 包含无效 NodeResult"
      let result ← NodeResult.fromDict raw
      raiseWhen (!(plan.workItem result.workItemId).any (·.agentId == result.agentId))
        "checkpoint 包含不属于当前计划的 NodeResult"
      raiseWhen (result.workItemId ∈ seen) "checkpoint 包含重复 NodeResult"
      readResults plan
        (if result.isCompleted then results.set result.workItemId result else results)
        (result.workItemId :: seen) rest

def itemOfRef (plan : ExecutionPlan) (rawRef : Json) : Option WorkItem :=
  let workItemId := rawRef.get "work_item_id"
  if workItemId.truthy then plan.workItem workItemId.pyStr else none

def checkRef (plan : ExecutionPlan) (outputKey : String) (rawRef : Json) : Result Unit := do
  raiseWhen (!rawRef.isDict) "checkpoint.artifact_refs 包含无效引用"
  match itemOfRef plan rawRef with
  | none => raise "checkpoint.artifact_refs 包含不属于当前计划的 WorkItem"
  | some item => do
      raiseWhen (outputKey != item.outputKey)
        "checkpoint.artifact_refs 的 output_key 与 WorkItem 不匹配"
      raiseWhen (!(rawRef.get "contract_digest").isNull &&
          some (rawRef.get "contract_digest").pyStr != item.contractDigest)
        ("checkpoint WorkItem 合同指纹不匹配: " ++ item.id)

def referencedWorkItems (rawRefs : List (String × Json)) : List String :=
  (rawRefs.filter fun e => e.2.isDict && (e.2.get "work_item_id").truthy).map fun e =>
    (e.2.get "work_item_id").pyStr

def sameMembers (xs ys : List String) : Bool := xs.all (· ∈ ys) && ys.all (· ∈ xs)

def checkArtifactRefs (plan : ExecutionPlan) (results : Dict String NodeResult)
    (checkpoint : Json) : Result Unit :=
  match checkpoint.getD "artifact_refs" (.obj []) with
  | .obj rawRefs => do
      forEach (fun e => checkRef plan e.1 e.2) rawRefs
      let referenced := referencedWorkItems rawRefs
      raiseWhen ((checkpoint.get? "artifact_refs").isSome && !sameMembers referenced results.keys)
        ("checkpoint completed WorkItem 与 artifact_refs 不一致; missing=" ++
          (Json.strs (Text.sorted (results.keys.filter (· ∉ referenced)))).repr ++ "; extra=" ++
          (Json.strs (Text.sorted (dedupe (referenced.filter (· ∉ results.keys))))).repr)
  | other => raiseWhen other.truthy "checkpoint.artifact_refs 格式无效"

def readArtifacts (checkpoint : Json) : Result (Dict String String) :=
  match checkpoint.getD "artifacts" (.obj []) with
  | .obj fields => .ok (.ofList (fields.map fun e => (e.1, e.2.pyStr)))
  | _ => raise "checkpoint.artifacts 格式无效"

def textItems : List Json → Option (List String)
  | [] => some []
  | .str text :: rest => if Text.blank text then none else (textItems rest).map (text :: ·)
  | _ :: _ => none

def readForced (plan : ExecutionPlan) (results : Dict String NodeResult) (checkpoint : Json) :
    Result (List String) :=
  let invalid := "checkpoint.forced_rerun_work_item_ids 格式无效"
  match checkpoint.getD "forced_rerun_work_item_ids" (.arr []) with
  | .arr items =>
      match textItems items with
      | none => raise invalid
      | some forced => do
          raiseWhen (forced.any (· ∉ plan.itemIds))
            "checkpoint.forced_rerun_work_item_ids 包含未知 WorkItem"
          raiseWhen (forced.any (· ∈ results.keys))
            "checkpoint.forced_rerun_work_item_ids 不能包含已完成 WorkItem"
          .ok (dedupe forced)
  | _ => raise invalid

def textFields (allowed : List String) : List (String × Json) → Option (List (String × String))
  | [] => some []
  | (key, .str text) :: rest =>
      if key ∉ allowed || Text.blank text then none
      else (textFields allowed rest).map ((key, text) :: ·)
  | _ :: _ => none

def readDiagnostics (forced : List String) (checkpoint : Json) : Result (Dict String String) :=
  let invalid := "checkpoint.recovery_diagnostics 格式无效"
  match checkpoint.getD "recovery_diagnostics" (.obj []) with
  | .obj fields =>
      match textFields forced fields with
      | none => raise invalid
      | some diagnostics => do
          raiseWhen (!sameMembers (diagnostics.map Prod.fst) forced)
            "checkpoint.recovery_diagnostics 与 forced_rerun_work_item_ids 不一致"
          .ok (.ofList diagnostics)
  | _ => raise invalid

/-- Completed items count as present; their body is read from the store. -/
def restoreArtifacts (plan : ExecutionPlan) (results : Dict String NodeResult)
    (artifacts : Dict String String) : Dict String String :=
  let present := results.entries.foldl (fun artifacts e =>
    match plan.workItem e.1 with
    | some item =>
        if (artifacts.get? item.outputKey).isNone then artifacts.set item.outputKey ""
        else artifacts
    | none => artifacts) artifacts
  results.entries.foldl (fun artifacts e =>
    if e.2.isCompleted && (artifacts.get? e.1).isNone then
      match plan.workItem e.1, e.2.content with
      | some item, some content => artifacts.set item.outputKey content
      | _, _ => artifacts
    else artifacts) present

def completedOutputKeys (plan : ExecutionPlan) (results : Dict String NodeResult) : List String :=
  (results.entries.filter (·.2.isCompleted)).filterMap fun e =>
    (plan.workItem e.1).map (·.outputKey)

/-- `RunState.from_checkpoint`. -/
def fromCheckpoint (plan : ExecutionPlan) (checkpoint : Json) : Result RunState := do
  raiseWhen (!(checkpoint.get "schema_version").isInt 1) "不支持的 RunState checkpoint 版本"
  raiseWhen (!(checkpoint.get "plan_id").isStr plan.id) "checkpoint 与 ExecutionPlan 不匹配"
  raiseWhen (!(checkpoint.get "trace_id").isStr plan.trace.traceId) "checkpoint 与 Trace 不匹配"
  let results ← match checkpoint.getD "node_results" (.arr []) with
    | .arr rawResults => readResults plan ∅ [] rawResults
    | _ => raise "checkpoint.node_results 格式无效"
  let artifacts ← readArtifacts checkpoint
  checkArtifactRefs plan results checkpoint
  raiseWhen (artifacts.keys.any (· ∉ completedOutputKeys plan results))
    "checkpoint.artifacts 包含未完成节点或未知产物"
  let forced ← readForced plan results checkpoint
  let diagnostics ← readDiagnostics forced checkpoint
  .ok {
    plan := plan
    nodeResults := results
    artifacts := restoreArtifacts plan results artifacts
    forcedRerunWorkItemIds := forced
    recoveryDiagnostics := diagnostics }

end RunState
end ProjectOS.Orchestration
