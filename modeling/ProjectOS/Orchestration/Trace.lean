import ProjectOS.Orchestration.Plan

/-! The plan files of a trace: a plan is written as JSON and built again from it. -/
namespace ProjectOS.Orchestration
open Base Artifact

/-- `None`, an empty list and an empty text do not say anything. -/
def unspecified : Json → Bool
  | .null => true
  | .arr [] => true
  | .str text => text = ""
  | _ => false

/-- `coalesce_alias(payload, canonical, older)`. -/
def coalesceAlias (payload : Json) (canonical older : String) : Result Json :=
  match [canonical, older].filter fun name => !unspecified (payload.get name) with
  | [] => .ok .null
  | [name] => .ok (payload.get name)
  | names => do
      raiseWhen ((payload.get canonical).dumps != (payload.get older).dumps)
        (Text.join ", " names ++ " 表示同一语义但值不一致")
      .ok (payload.get canonical)

namespace TraceStore

def refRecord (ref : ArtifactRef) : Json := .obj [
  ("artifact_key", .str ref.artifactKey),
  ("layer", .str ref.layer),
  ("trace_id", .optStr ref.traceId),
  ("work_item_id", .optStr ref.workItemId),
  ("slot", .optStr ref.slot),
  ("revision_id", .optStr ref.revisionId),
  ("ref_id", .str ref.refId)]

def dependencyRecord (dependency : WorkItemDependency) : Json := .obj [
  ("work_item_id", .str dependency.workItemId),
  ("source", .str dependency.source.value),
  ("rule_id", .optStr dependency.ruleId)]

def packageRecord (package : FailurePackage) : Json := .obj [
  ("signal", package.signal.asDict),
  ("check_id", .optStr package.checkId),
  ("runtime_profile", .optStr package.runtimeProfile),
  ("exit_code", .optInt package.exitCode),
  ("stdout_excerpt", .str package.stdoutExcerpt),
  ("stderr_excerpt", .str package.stderrExcerpt),
  ("repair_paths", .strs package.repairPaths),
  ("forbidden_rework", .strs package.forbiddenRework),
  ("unsatisfied_constraints", .strs package.unsatisfiedConstraints),
  ("satisfied_constraints", .strs package.satisfiedConstraints),
  ("repair_scope", .strs package.repairScope),
  ("owner_files", .strs package.ownerFiles)]

/-- The record of an item. Its required tools are not written. -/
def itemRecord (item : WorkItem) : Json := .obj [
  ("id", .str item.id),
  ("agent_id", .str item.agentId),
  ("objective", .str item.objective),
  ("output_key", .str item.outputKey),
  ("artifact_key", .optStr item.artifactKey),
  ("stage_id", .optStr item.stageId),
  ("execution_mode", .str item.executionMode.value),
  ("input_refs", .arr (item.inputRefs.map refRecord)),
  ("slot", .optStr item.slot),
  ("publish_target", .optStr item.publishTarget),
  ("candidate_from_work_item_id", .optStr item.candidateFromWorkItemId),
  ("implementation_unit_id", .optStr item.implementationUnitId),
  ("allowed_paths", .strs item.allowedPaths),
  ("forbidden_paths", .strs item.forbiddenPaths),
  ("required_paths", .strs item.requiredPaths),
  ("wave", .int item.wave),
  ("owned_files", .strs item.ownedFiles),
  ("delivery_contract", match item.deliveryContract with
    | some fields => .obj fields
    | none => .null),
  ("output_kind", .optStr item.outputKind),
  ("contract_digest", .optStr item.contractDigest),
  ("policy_refs", .strs item.policyRefs),
  ("skill_refs", .strs item.skillRefs),
  ("requirement_ids", .strs item.requirementIds),
  ("dependencies", .arr (item.dependencies.map dependencyRecord)),
  ("acceptance_criteria", .strs item.acceptanceCriteria),
  ("constraints", .strs item.constraints),
  ("non_goals", .strs item.nonGoals),
  ("failure_package", match item.failurePackage with
    | some package => packageRecord package
    | none => .null)]

def planRecord (plan : ExecutionPlan) : Json := .obj [
  ("plan_id", .str plan.id),
  ("template_id", .optStr plan.templateId),
  ("process_id", .str plan.processId),
  ("validation_scope", .str plan.validationScope.value),
  ("goal", .str plan.goal),
  ("work_items", .arr (plan.workItems.map itemRecord))]

def refFromDict (value : Json) : Result ArtifactRef := do
  let artifactKey ← require value "artifact_key"
  let layer ← require value "layer"
  ArtifactRef.create {
    artifactKey := artifactKey.pyStr
    layer := layer.pyStr
    traceId := textOrNone (value.get "trace_id")
    workItemId := textOrNone (value.get "work_item_id")
    slot := textOrNone (value.get "slot")
    revisionId := textOrNone (value.get "revision_id") }

def dependencyFromDict (value : Json) : Result WorkItemDependency := do
  let workItemId ← require value "work_item_id"
  let source ← DependencySource.parse (← require value "source").pyStr
  WorkItemDependency.create {
    workItemId := workItemId.pyStr
    source := source
    ruleId := textOrNone (value.get "rule_id") }

def exitCodeFromDict (value : Json) : Result (Option Int) :=
  if value.isNull then .ok none
  else do
    let code ← pyInt value
    .ok (some code)

/-- Anything that is not a package with a signal reads as no package. -/
def packageFromDict (payload : Json) : Result (Option FailurePackage) :=
  if payload.isDict && (payload.get "signal").isDict then do
    let signal ← FailureSignal.fromDict (payload.get "signal")
    let exitCode ← exitCodeFromDict (payload.get "exit_code")
    let repairPaths ← texts (payload.getD "repair_paths" (.arr []))
    let forbiddenRework ← texts (payload.getD "forbidden_rework" (.arr []))
    let unsatisfied ← texts (payload.getD "unsatisfied_constraints" (.arr []))
    let satisfied ← texts (payload.getD "satisfied_constraints" (.arr []))
    let repairScope ← texts (payload.getD "repair_scope" (.arr []))
    let ownerFiles ← texts (payload.getD "owner_files" (.arr []))
    .ok (some {
      signal := signal
      checkId := textOrNone (payload.get "check_id")
      runtimeProfile := textOrNone (payload.get "runtime_profile")
      exitCode := exitCode
      stdoutExcerpt := (payload.getD "stdout_excerpt" (.str "")).pyStr
      stderrExcerpt := (payload.getD "stderr_excerpt" (.str "")).pyStr
      repairPaths := repairPaths
      forbiddenRework := forbiddenRework
      unsatisfiedConstraints := unsatisfied
      satisfiedConstraints := satisfied
      repairScope := repairScope
      ownerFiles := ownerFiles })
  else .ok none

/-- `tuple(read(value) for value in payload.get(key, []))`. -/
def listFromDict (read : Json → Result α) (payload : Json) (key : String) : Result (List α) :=
  match (payload.getD key (.arr [])).iterate? with
  | some values => collect read values
  | none => .error (.typeError "object is not iterable")

/-- Older records name one policy. -/
def policyRefs (raw : Json) : Result (List String) :=
  texts (raw.getD "policy_refs"
    (if (raw.get "policy_id").truthy then .arr [raw.get "policy_id"] else .arr []))

def deliveryContractFromDict (value : Json) : Option (List (String × Json)) :=
  match value with
  | .obj fields => some fields
  | _ => none

/-- The constructor's arguments, in the order they are read. -/
def itemFields (raw : Json) : Result WorkItemFields := do
  raiseWhen (!raw.isDict) "plan.json 包含无效 WorkItem"
  let failurePackage ← packageFromDict (raw.get "failure_package")
  let dependencies ← listFromDict dependencyFromDict raw "dependencies"
  let id ← require raw "id"
  let agentId ← require raw "agent_id"
  let objective ← require raw "objective"
  let outputKey ← require raw "output_key"
  let acceptanceCriteria ← texts (raw.getD "acceptance_criteria" (.arr []))
  let constraints ← texts (raw.getD "constraints" (.arr []))
  let nonGoals ← texts (raw.getD "non_goals" (.arr []))
  let policyRefs ← policyRefs raw
  let executionMode ← ExecutionMode.parse (raw.getD "execution_mode" (.str "exclusive")).pyStr
  let inputRefs ← listFromDict refFromDict raw "input_refs"
  let slot ← coalesceAlias raw "slot" "output_slot"
  let allowedPaths ← texts (raw.getD "allowed_paths" (.arr []))
  let forbiddenPaths ← texts (raw.getD "forbidden_paths" (.arr []))
  let requiredPaths ← texts (raw.getD "required_paths" (.arr []))
  let wave ← pyInt (raw.getD "wave" (.int 0))
  let ownedFiles ← texts (raw.getD "owned_files" (.arr []))
  let skillRefs ← texts (raw.getD "skill_refs" (.arr []))
  let requirementIds ← texts (raw.getD "requirement_ids" (.arr []))
  .ok {
    id := id.pyStr
    agentId := agentId.pyStr
    objective := objective.pyStr
    outputKey := outputKey.pyStr
    artifactKey := textOrNone (raw.get "artifact_key")
    stageId := textOrNone (raw.get "stage_id")
    failurePackage := failurePackage
    dependencies := dependencies
    acceptanceCriteria := acceptanceCriteria
    constraints := constraints
    nonGoals := nonGoals
    policyRefs := policyRefs
    executionMode := executionMode
    inputRefs := inputRefs
    slot := textOrNone slot
    publishTarget := textOrNone (raw.get "publish_target")
    candidateFromWorkItemId := textOrNone (raw.get "candidate_from_work_item_id")
    implementationUnitId := textOrNone (raw.get "implementation_unit_id")
    allowedPaths := allowedPaths
    forbiddenPaths := forbiddenPaths
    requiredPaths := requiredPaths
    wave := wave
    ownedFiles := ownedFiles
    deliveryContract := deliveryContractFromDict (raw.get "delivery_contract")
    outputKind := textOrNone (raw.get "output_kind")
    contractDigest := textOrNone (raw.get "contract_digest")
    skillRefs := skillRefs
    requirementIds := requirementIds }

def itemFromDict (raw : Json) : Result WorkItem := do
  let fields ← itemFields raw
  WorkItem.create fields

def traceFromDict (payload : Json) : Result TraceContext := do
  let requirementId ← require payload "requirement_id"
  let traceId ← require payload "trace_id"
  .ok {
    requirementId := requirementId.pyStr
    traceId := traceId.pyStr
    parentTraceId := textOrNone (payload.get "parent_trace_id") }

/-- `str(value or default)`. -/
def textOr (value : Json) (default : String) : String :=
  if value.truthy then value.pyStr else default

def planFromDict (payload tracePayload : Json) : Result ExecutionPlan := do
  let items ← listFromDict itemFromDict payload "work_items"
  let id ← require payload "plan_id"
  let goal ← require payload "goal"
  let trace ← traceFromDict tracePayload
  let scope ← ValidationScope.parse (textOr (payload.get "validation_scope") "full_delivery")
  ExecutionPlan.create {
    id := id.pyStr
    goal := goal.pyStr
    templateId := textOrNone (payload.get "template_id")
    processId := textOr (payload.get "process_id") "software_delivery"
    validationScope := scope
    trace := trace
    workItems := items }

end TraceStore

/-- The JSON files below `runs/`: `trace.json` and `plan.json` of each trace, and
its plans by id. -/
structure TraceStore where
  traces : Dict String Json := ∅
  plans : Dict String Json := ∅
  history : Dict (String × String) Json := ∅

namespace TraceStore

/-- `tr-` and then letters and digits. -/
def validTraceId (traceId : String) : Bool :=
  Text.startswith traceId "tr-" && traceId != "tr-" &&
    (Text.removePrefix traceId "tr-").toList.all fun c => Text.isAsciiLetter c || Text.isAsciiDigit c

def traceRecord (trace : TraceContext) (goal createdAt : String) (revision : Json) : Json := .obj [
  ("requirement_id", .str trace.requirementId),
  ("trace_id", .str trace.traceId),
  ("parent_trace_id", .optStr trace.parentTraceId),
  ("goal", .str goal),
  ("status", .str "planned"),
  ("requirement_revision", revision),
  ("created_at", .str createdAt)]

/-- `start_trace`, for the identity it makes up. -/
def startTrace (store : TraceStore) (trace : TraceContext) (goal createdAt : String)
    (revision : Json) : TraceStore :=
  { store with traces := store.traces.set trace.traceId (traceRecord trace goal createdAt revision) }

def recordPlan (store : TraceStore) (plan : ExecutionPlan) : TraceStore :=
  { store with
    plans := store.plans.set plan.trace.traceId (planRecord plan)
    history := store.history.set (plan.trace.traceId, plan.id) (planRecord plan) }

def readFile (file : Option Json) (missing : String) : Result Json :=
  match file with
  | some payload => .ok payload
  | none => .error (.fileNotFound missing)

def checkTraceId (traceId : String) : Result Unit :=
  raiseWhen (!validTraceId traceId) "trace_id 格式无效"

/-- The plan file: the active plan, or a plan of the history by id. -/
def planFile (store : TraceStore) (traceId : String) (planId : Option String) : Result Json :=
  match planId with
  | none => readFile (store.plans.get? traceId) "plan.json"
  | some planId => do
      raiseWhen (planId = "" || Text.contains planId "/" || planId.toList.contains Text.backslash)
        "plan_id 格式无效"
      readFile (store.history.get? (traceId, planId)) planId

/-- `load_plan`. -/
def loadPlan (store : TraceStore) (traceId : String) (planId : Option String := none) :
    Result ExecutionPlan := do
  checkTraceId traceId
  let payload ← store.planFile traceId planId
  let tracePayload ← readFile (store.traces.get? traceId) ("Trace 不存在: " ++ traceId)
  planFromDict payload tracePayload

end TraceStore
end ProjectOS.Orchestration
