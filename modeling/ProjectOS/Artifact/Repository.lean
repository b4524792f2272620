import ProjectOS.Artifact.Ref
import ProjectOS.Base.Sha256

/-! The artifact repository: staged outputs, integration candidates and published
revisions. A promotion is a list of file writes, so that a crash is a prefix of it. -/
namespace ProjectOS.Artifact
open Base

structure IntegrationIssue where
  ruleId : String
  summary : String
  evidenceRefs : List String := []
deriving DecidableEq

structure IntegrationReport where
  candidateId : String
  acceptedOutputIds : List String
  issues : List IntegrationIssue
deriving DecidableEq

/-- `status == "ready_for_quality_gate"`. -/
def IntegrationReport.isReady (report : IntegrationReport) : Bool := report.issues.isEmpty

/-- `candidate.json`. -/
structure CandidateRecord where
  id : String
  artifactKey : String
  traceId : String
  workItemId : String
  digest : String
  sourceRefs : List ArtifactRef
  sourceDigests : List String := []
  contractDigest : Option String := none
  report : IntegrationReport
  createdAt : String

structure ArtifactCandidate extends CandidateRecord where
  content : String

/-- The two files of a candidate. -/
structure CandidateFiles where
  content : String
  record : CandidateRecord

/-- What a staged output was made from, where that is known. -/
structure Provenance where
  sourceRefs : List ArtifactRef
  sourceDigests : List String
  contractDigest : Option String

/-- `manifest.json` of a work item. -/
structure Manifest where
  artifactKey : String
  traceId : String
  workItemId : String
  slot : String
  digest : String
  createdAt : String
  provenance : Option Provenance

/-- `current.json` of an artifact. -/
structure CurrentRecord where
  artifactKey : String
  revisionId : String
  candidateId : String
  digest : String
  promotedAt : String

/-- `ArtifactStore._FILENAMES`. -/
def filenames : List (String × String) := [
  ("requirement", "requirement.md"),
  ("architecture", "architecture.md"),
  ("architecture_contract", ".projectos/architecture/project-contract.json"),
  ("tasks", "tasks.md"),
  ("implementation", "implementation.md"),
  ("environment", "environment.md"),
  ("tests", "tests.md"),
  ("review", "review.md")]

def filenameFor (artifact : String) : Result String :=
  match filenames.lookup artifact with
  | some name => .ok name
  | none => raise ("未知产物 " ++ Text.quote artifact ++ "，可用产物: " ++
      Text.join ", " (Text.sorted (filenames.map Prod.fst)))

/-- The files the repository reads and writes. Staged outputs are kept by trace,
work item and slot, manifests by trace and work item, candidates by artifact and id. -/
structure Repository where
  outputs : Dict (String × String × String) String := ∅
  manifests : Dict (String × String) Manifest := ∅
  candidates : Dict (String × String) CandidateFiles := ∅
  revisions : String → Dict String String := fun _ => ∅
  current : Dict String CurrentRecord := ∅
  projections : Dict String String := ∅
  legacyContract : Option String := none

namespace Repository
variable (repo : Repository)

/-- `ArtifactStore.load`. -/
def loadProjection (artifact : String) : Result String := do
  let filename ← filenameFor artifact
  match repo.projections.get? artifact, artifact, repo.legacyContract with
  | some text, _, _ => .ok (Text.readText text)
  | none, "architecture_contract", some text => .ok (Text.readText text)
  | none, _, _ => .ok ("（尚未创建 " ++ filename ++ "）")

def loadPublished (ref : ArtifactRef) : Result String :=
  match ref.revisionId with
  | none => repo.loadProjection ref.artifactKey
  | some revisionId =>
      match (repo.revisions ref.artifactKey).get? revisionId with
      | some text => .ok (Text.readText text)
      | none => .error (.fileNotFound ("已发布版本不存在: " ++ ref.refId))

def loadStaged (ref : ArtifactRef) : Result String :=
  let traceId := ref.traceId.getD "None"
  let workItemId := ref.workItemId.getD "None"
  match repo.manifests.get? (traceId, workItemId),
      repo.outputs.get? (traceId, workItemId, ref.slot.getD "None") with
  | some manifest, some text => do
      let content := Text.readText text
      if manifest.artifactKey ≠ ref.artifactKey ∨ manifest.digest ≠ Sha256.sha256 content then
        .error (.runtimeError ("暂存产物清单校验失败: " ++ ref.refId))
      else .ok content
  | _, _ => .error (.fileNotFound ("暂存产物不存在: " ++ ref.refId))

def loadRef (ref : ArtifactRef) : Result String := do
  let _ ← filenameFor ref.artifactKey
  if ref.layer = "published" then repo.loadPublished ref else repo.loadStaged ref

/-- The content of a reference still has the digest it was used with. -/
def verifyDigest (message : String) (source : ArtifactRef × String) : Result Unit := do
  let content ← repo.loadRef source.1
  if Sha256.sha256 content ≠ source.2 then
    .error (.runtimeError (message ++ source.1.refId))
  else .ok ()

def verifyInputVersions (refs : List ArtifactRef) : Option (List String) → Result Unit
  | none => .ok ()
  | some expected =>
      if refs.length ≠ expected.length then .error (.runtimeError "执行输入版本证据不完整")
      else forEach (repo.verifyDigest "执行期间输入已改变: ") (refs.zip expected)

structure StagedWrite where
  traceId : String
  workItemId : String
  artifactKey : String
  slot : String
  content : String
  sourceRefs : Option (List ArtifactRef) := none
  contractDigest : Option String := none
  expectedSourceDigests : Option (List String) := none
  createdAt : String := ""

def provenanceOf (write : StagedWrite) : Result (Option Provenance) :=
  match write.sourceRefs with
  | none => .ok none
  | some refs => do
      let digests ← match write.expectedSourceDigests with
        | some digests => .ok digests
        | none => collect (fun ref => do
            let content ← repo.loadRef ref
            .ok (Sha256.sha256 content)) refs
      .ok (some ⟨refs, digests, write.contractDigest⟩)

/-- `write_staged`: the output, then the manifest of the work item. -/
def writeStaged (write : StagedWrite) : Result Repository := do
  let _ ← filenameFor write.artifactKey
  forEach (fun field => validateId field.1 (some field.2))
    [("trace_id", write.traceId), ("work_item_id", write.workItemId), ("slot", write.slot)]
  raiseWhen (Text.blank write.content) "暂存产物内容不能为空"
  let _ ← ArtifactRef.staged write.artifactKey write.traceId write.workItemId write.slot
  repo.verifyInputVersions (write.sourceRefs.getD []) write.expectedSourceDigests
  let provenance ← repo.provenanceOf write
  .ok { repo with
    outputs := repo.outputs.set (write.traceId, write.workItemId, write.slot) write.content
    manifests := repo.manifests.set (write.traceId, write.workItemId) {
      artifactKey := write.artifactKey
      traceId := write.traceId
      workItemId := write.workItemId
      slot := write.slot
      digest := Sha256.sha256 write.content
      createdAt := write.createdAt
      provenance := provenance } }

structure CandidateDraft where
  traceId : String
  workItemId : String
  artifactKey : String
  content : String
  sourceRefs : List ArtifactRef
  contractDigest : Option String := none
  expectedSourceDigests : Option (List String) := none
  createdAt : String := ""

/-- A source is accepted with its digest or becomes an issue. -/
def checkSource (artifactKey : String) (ref : ArtifactRef) :
    Result (IntegrationIssue ⊕ (String × String)) :=
  if ref.layer ≠ "staged" ∨ ref.artifactKey ≠ artifactKey then
    .ok (.inl ⟨"integration.invalid_source", "集成候选只能使用同一产物的暂存输出。", [ref.refId]⟩)
  else
    match repo.loadRef ref with
    | .ok content => .ok (.inr (ref.refId, Sha256.sha256 content))
    | .error (.fileNotFound message) =>
        .ok (.inl ⟨"integration.source_unavailable", message, [ref.refId]⟩)
    | .error (.runtimeError message) =>
        .ok (.inl ⟨"integration.source_unavailable", message, [ref.refId]⟩)
    | .error error => .error error

def noSourcesIssue (refs : List ArtifactRef) : List IntegrationIssue :=
  if refs.isEmpty then
    [⟨"integration.no_staged_outputs", "集成候选至少需要一个已声明的暂存输出。", []⟩]
  else []

def candidateRecord (draft : CandidateDraft) (candidateId : String)
    (checked : List (IntegrationIssue ⊕ (String × String))) : CandidateRecord where
  id := candidateId
  artifactKey := draft.artifactKey
  traceId := draft.traceId
  workItemId := draft.workItemId
  digest := Sha256.sha256 draft.content
  sourceRefs := draft.sourceRefs
  sourceDigests := draft.expectedSourceDigests.getD ((checked.filterMap Sum.getRight?).map Prod.snd)
  contractDigest := draft.contractDigest
  report := {
    candidateId := candidateId
    acceptedOutputIds := (checked.filterMap Sum.getRight?).map Prod.fst
    issues := checked.filterMap Sum.getLeft? ++ noSourcesIssue draft.sourceRefs }
  createdAt := draft.createdAt

/-- `create_candidate`; the fresh id is an argument, and its directory must be new. -/
def createCandidate (draft : CandidateDraft) (candidateId : String) : Result Repository := do
  let _ ← filenameFor draft.artifactKey
  validateId "trace_id" (some draft.traceId)
  validateId "work_item_id" (some draft.workItemId)
  raiseWhen (Text.blank draft.content) "候选产物内容不能为空"
  let checked ← collect (repo.checkSource draft.artifactKey) draft.sourceRefs
  repo.verifyInputVersions draft.sourceRefs draft.expectedSourceDigests
  if (repo.candidates.get? (draft.artifactKey, candidateId)).isSome then
    .error (.fileExists candidateId)
  else .ok { repo with
    candidates := repo.candidates.set (draft.artifactKey, candidateId)
      ⟨draft.content, candidateRecord draft candidateId checked⟩ }

def loadCandidate (artifactKey candidateId : String) : Result ArtifactCandidate := do
  let _ ← filenameFor artifactKey
  validateId "candidate_id" (some candidateId)
  match repo.candidates.get? (artifactKey, candidateId) with
  | none => .error (.fileNotFound candidateId)
  | some files =>
      let content := Text.readText files.content
      if files.record.digest ≠ Sha256.sha256 content then
        .error (.runtimeError ("候选内容校验失败: " ++ candidateId))
      else .ok { files.record with content := content }

def verifyCandidateSources (candidate : ArtifactCandidate) : Result Unit :=
  if candidate.sourceDigests.length ≠ candidate.sourceRefs.length then
    .error (.runtimeError ("候选缺少完整输入版本证据: " ++ candidate.id))
  else forEach (repo.verifyDigest ("候选输入已改变: " ++ candidate.id ++ ": "))
    (candidate.sourceRefs.zip candidate.sourceDigests)

def revisionId (number : Nat) : String :=
  "rev-" ++ String.ofList (Text.zeroPadded 3 number)

/-- One file write of a promotion. -/
inductive Write where
  | revision (revisionId content : String)
  | current (record : CurrentRecord)
  | projection (content : String)

def write (artifactKey : String) (repo : Repository) : Write → Repository
  | .revision revisionId content => { repo with
      revisions := Function.update repo.revisions artifactKey
        ((repo.revisions artifactKey).set revisionId content) }
  | .current record => { repo with current := repo.current.set artifactKey record }
  | .projection content => { repo with
      projections := repo.projections.set artifactKey content }

/-- The writes of a promotion in their order, and the reference it ends with. -/
structure Promotion where
  writes : List Write
  ref : Result ArtifactRef

/-- A crash after `current.json` must not create a second revision. -/
def republish (candidate : ArtifactCandidate) (artifactKey : String) (current : CurrentRecord) :
    Result Promotion := do
  let ref ← ArtifactRef.published artifactKey (some current.revisionId)
  if current.digest ≠ candidate.digest then
    .error (.runtimeError ("已发布版本内容校验失败: " ++ candidate.id))
  else do
    let content ← repo.loadRef ref
    if Sha256.sha256 content ≠ candidate.digest then
      .error (.runtimeError ("已发布版本内容校验失败: " ++ candidate.id))
    else .ok ⟨[.projection candidate.content], .ok ref⟩

/-- The next revision is numbered by counting the revision files. -/
def publish (candidate : ArtifactCandidate) (artifactKey promotedAt : String) : Promotion :=
  let revisionId := revisionId ((repo.revisions artifactKey).entries.length + 1)
  { writes := [
      .revision revisionId candidate.content,
      .current {
        artifactKey := artifactKey
        revisionId := revisionId
        candidateId := candidate.id
        digest := candidate.digest
        promotedAt := promotedAt },
      .projection candidate.content]
    ref := ArtifactRef.published artifactKey (some revisionId) }

def promotion (candidateId artifactKey promotedAt : String) : Result Promotion := do
  let candidate ← repo.loadCandidate artifactKey candidateId
  if !candidate.report.isReady then
    .error (.permissionError ("候选 " ++ Text.quote candidateId ++ " 存在未解决的集成问题，不能发布"))
  else do
    repo.verifyCandidateSources candidate
    match repo.current.get? artifactKey with
    | some current =>
        if current.candidateId = candidate.id then repo.republish candidate artifactKey current
        else .ok (repo.publish candidate artifactKey promotedAt)
    | none => .ok (repo.publish candidate artifactKey promotedAt)

/-- The result of `promote_candidate` and the files it leaves. -/
def promoteCandidate (candidateId artifactKey promotedAt : String) :
    Result ArtifactRef × Repository :=
  match repo.promotion candidateId artifactKey promotedAt with
  | .ok promotion => (promotion.ref, promotion.writes.foldl (write artifactKey) repo)
  | .error error => (.error error, repo)

/-- The files a promotion leaves that is killed after some of its writes. -/
def crashedPromotion (candidateId artifactKey promotedAt : String) (written : Nat) : Repository :=
  match repo.promotion candidateId artifactKey promotedAt with
  | .ok promotion => (promotion.writes.take written).foldl (write artifactKey) repo
  | .error _ => repo

def verifyPublishedCandidate (candidate : ArtifactCandidate) : Result ArtifactRef := do
  repo.verifyCandidateSources candidate
  if !candidate.report.isReady then
    .error (.runtimeError ("候选仍有集成问题: " ++ candidate.id))
  else
    match repo.current.get? candidate.artifactKey with
    | none => .error (.fileNotFound "current.json")
    | some current =>
        if current.candidateId ≠ candidate.id ∨ current.digest ≠ candidate.digest then
          .error (.runtimeError ("当前发布版本不属于候选: " ++ candidate.id))
        else do
          let ref ← ArtifactRef.published candidate.artifactKey (some current.revisionId)
          let content ← repo.loadRef ref
          let projection ← repo.loadProjection candidate.artifactKey
          if Sha256.sha256 content ≠ candidate.digest ∨ Sha256.sha256 projection ≠ candidate.digest then
            .error (.runtimeError ("已发布版本或投影内容校验失败: " ++ candidate.id))
          else .ok ref

end Repository
end ProjectOS.Artifact
