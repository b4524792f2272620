import ProjectOS.Error
import ProjectOS.Base.Sha256

/-! Failure signals and the diagnostics handed to a repair. -/
namespace ProjectOS.Orchestration
open Base

inductive FailureKind where
  | agentRuntime
  | providerTransport
  | providerEmptyResponse
  | providerTerminalMissing
  | providerPolicyRejected
  | testFailure
  | sandboxTimeout
  | sandboxSetup
  | testEvidenceMissing
  | implementationSummaryMissing
  | repairNoFileChange
  | codeDeliveryIncomplete
  | runtimePreflight
  | architectureContractMissing
  | architectureSchemaValidation
  | toolContractMismatch
  | artifactContractViolation
  | artifactCommitFailure
  | toolExecution
  | plannerValidation
  | providerStall
  | workerTimeout
  | workerCrash
  | workerBootstrapFailure
deriving DecidableEq, Repr

namespace FailureKind

def value : FailureKind → String
  | agentRuntime => "agent_runtime"
  | providerTransport => "provider_transport"
  | providerEmptyResponse => "provider_empty_response"
  | providerTerminalMissing => "provider_terminal_missing"
  | providerPolicyRejected => "provider_policy_rejected"
  | testFailure => "test_failure"
  | sandboxTimeout => "sandbox_timeout"
  | sandboxSetup => "sandbox_setup"
  | testEvidenceMissing => "test_evidence_missing"
  | implementationSummaryMissing => "implementation_summary_missing"
  | repairNoFileChange => "repair_no_file_change"
  | codeDeliveryIncomplete => "code_delivery_incomplete"
  | runtimePreflight => "runtime_preflight"
  | architectureContractMissing => "architecture_contract_missing"
  | architectureSchemaValidation => "architecture_schema_validation"
  | toolContractMismatch => "tool_contract_mismatch"
  | artifactContractViolation => "artifact_contract_violation"
  | artifactCommitFailure => "artifact_commit_failure"
  | toolExecution => "tool_execution"
  | plannerValidation => "planner_validation"
  | providerStall => "provider_stall"
  | workerTimeout => "worker_timeout"
  | workerCrash => "worker_crash"
  | workerBootstrapFailure => "worker_bootstrap_failure"

def all : List FailureKind := [
  agentRuntime, providerTransport, providerEmptyResponse, providerTerminalMissing,
  providerPolicyRejected, testFailure, sandboxTimeout, sandboxSetup, testEvidenceMissing,
  implementationSummaryMissing, repairNoFileChange, codeDeliveryIncomplete, runtimePreflight,
  architectureContractMissing, architectureSchemaValidation, toolContractMismatch,
  artifactContractViolation, artifactCommitFailure, toolExecution, plannerValidation,
  providerStall, workerTimeout, workerCrash, workerBootstrapFailure]

/-- `FailureKind(text)`. -/
def parse (text : String) : Result FailureKind := enumMember "FailureKind" all value text

@[simp] theorem parse_value (kind : FailureKind) : parse kind.value = .ok kind := by
  cases kind <;> decide

end FailureKind

structure FailureSignal where
  kind : FailureKind
  summary : String
  evidenceId : Option String := none
  validator : Option String := none
  fieldPath : Option String := none
  code : Option String := none
  inputDigest : Option String := none
  artifactDigest : Option String := none
  retryHint : Option String := none
  retryable : Bool := true
  scope : String := "current_work_item"
  requiresControlPlane : Bool := false
  relatedWorkItemIds : List String := []
  relatedArtifactRefs : List String := []
deriving DecidableEq

namespace FailureSignal

/-- `re.sub(r"\s+", " ", summary.strip().lower())[:500]`. -/
def normalizedSummary (summary : String) : String :=
  String.ofList ((Text.collapse (fun c => !Text.isSpace c) ' '
    (Text.lower (Text.strip summary))).toList.take 500)

def failureFingerprint (signal : FailureSignal) : String :=
  let raw := Text.join "|" [signal.kind.value, signal.validator.getD "", signal.fieldPath.getD "",
    signal.code.getD "", normalizedSummary signal.summary]
  String.ofList ((Sha256.sha256 raw).toList.take 20)

def asDict (signal : FailureSignal) : Json := .obj [
  ("kind", .str signal.kind.value),
  ("summary", .str signal.summary),
  ("evidence_id", .optStr signal.evidenceId),
  ("validator", .optStr signal.validator),
  ("field_path", .optStr signal.fieldPath),
  ("code", .optStr signal.code),
  ("input_digest", .optStr signal.inputDigest),
  ("artifact_digest", .optStr signal.artifactDigest),
  ("retry_hint", .optStr signal.retryHint),
  ("retryable", .bool signal.retryable),
  ("scope", .str signal.scope),
  ("requires_control_plane", .bool signal.requiresControlPlane),
  ("related_work_item_ids", .strs signal.relatedWorkItemIds),
  ("related_artifact_refs", .strs signal.relatedArtifactRefs),
  ("failure_fingerprint", .str signal.failureFingerprint)]

def fromDict (payload : Json) : Result FailureSignal := do
  let kind ← FailureKind.parse (← require payload "kind").pyStr
  let summary ← require payload "summary"
  let relatedWorkItemIds ← texts (payload.getD "related_work_item_ids" (.arr []))
  let relatedArtifactRefs ← texts (payload.getD "related_artifact_refs" (.arr []))
  .ok {
    kind := kind
    summary := summary.pyStr
    evidenceId := (payload.get "evidence_id").optText
    validator := (payload.get "validator").optText
    fieldPath := (payload.get "field_path").optText
    code := (payload.get "code").optText
    inputDigest := (payload.get "input_digest").optText
    artifactDigest := (payload.get "artifact_digest").optText
    retryHint := (payload.get "retry_hint").optText
    retryable := !(payload.getD "retryable" (.bool true)).isFalse
    scope := (payload.getD "scope" (.str "current_work_item")).pyStr
    requiresControlPlane := (payload.getD "requires_control_plane" (.bool false)).isTrue
    relatedWorkItemIds := relatedWorkItemIds
    relatedArtifactRefs := relatedArtifactRefs }

@[simp] theorem fromDict_asDict (signal : FailureSignal) :
    fromDict signal.asDict = .ok signal := by
  simp [fromDict, asDict, require, Json.get, Json.getD]

end FailureSignal

/-- The controlled diagnostics of a repair item. -/
structure FailurePackage where
  signal : FailureSignal
  checkId : Option String := none
  runtimeProfile : Option String := none
  exitCode : Option Int := none
  stdoutExcerpt : String := ""
  stderrExcerpt : String := ""
  repairPaths : List String := []
  forbiddenRework : List String := []
  unsatisfiedConstraints : List String := []
  satisfiedConstraints : List String := []
  repairScope : List String := []
  ownerFiles : List String := []
deriving DecidableEq

end ProjectOS.Orchestration
