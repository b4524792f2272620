import ProjectOS.Error

/-! References to artifact versions, checked when they are built. -/
namespace ProjectOS.Artifact
open Base

/-- `[A-Za-z0-9][A-Za-z0-9_.-]{0,127}`. -/
def safeId (value : String) : Bool :=
  match value.toList with
  | [] => false
  | c :: rest =>
      (Text.isAsciiLetter c || Text.isAsciiDigit c) && rest.length ≤ 127 &&
        rest.all Text.isSafeChar

def validateId (name : String) (value : Option String) : Result Unit :=
  raiseWhen (!value.any safeId) (name ++ " 必须是受限 ID")

structure RefFields where
  artifactKey : String
  layer : String
  traceId : Option String := none
  workItemId : Option String := none
  slot : Option String := none
  revisionId : Option String := none
deriving DecidableEq

def RefFields.postInit (ref : RefFields) : Result Unit := do
  validateId "artifact_key" (some ref.artifactKey)
  if ref.layer = "published" then
    raiseWhen (ref.traceId.isSome || ref.workItemId.isSome || ref.slot.isSome)
      "published ArtifactRef 不能包含暂存位置"
    if ref.revisionId.isSome then validateId "revision_id" ref.revisionId else .ok ()
  else
    raiseWhen (ref.layer != "staged") "ArtifactRef.layer 必须是 published 或 staged"
    forEach (fun field => validateId field.1 field.2)
      [("trace_id", ref.traceId), ("work_item_id", ref.workItemId), ("slot", ref.slot)]

structure ArtifactRef extends RefFields where
  accepted : toRefFields.postInit = .ok ()

instance : DecidableEq ArtifactRef := fun a b =>
  decidable_of_iff (a.toRefFields = b.toRefFields) (by cases a; cases b; simp)

namespace ArtifactRef

def create (raw : RefFields) : Result ArtifactRef :=
  match h : raw.postInit with
  | .ok () => .ok ⟨raw, h⟩
  | .error e => .error e

theorem create_eq_ok {raw : RefFields} {ref : ArtifactRef} :
    create raw = .ok ref ↔ ref.toRefFields = raw := by
  unfold create
  split
  · rename_i h
    constructor
    · rintro h'
      cases h'
      rfl
    · intro h'
      subst h'
      rfl
  · rename_i e h
    simp only [reduceCtorEq, false_iff]
    rintro rfl
    rw [ref.accepted] at h
    cases h

theorem create_isOk_iff {raw : RefFields} :
    (∃ ref, create raw = .ok ref) ↔ raw.postInit = .ok () := by
  constructor
  · rintro ⟨ref, h⟩
    exact create_eq_ok.mp h ▸ ref.accepted
  · exact fun h => ⟨⟨raw, h⟩, create_eq_ok.mpr rfl⟩

def published (artifactKey : String) (revisionId : Option String := none) : Result ArtifactRef :=
  create { artifactKey := artifactKey, layer := "published", revisionId := revisionId }

def staged (artifactKey traceId workItemId slot : String) : Result ArtifactRef :=
  create {
    artifactKey := artifactKey
    layer := "staged"
    traceId := some traceId
    workItemId := some workItemId
    slot := some slot }

/-- The identifier handed to tools. -/
def refId (ref : ArtifactRef) : String :=
  if ref.layer = "published" then
    "published:" ++ ref.artifactKey ++ ":" ++
      (match ref.revisionId with | some "" => "current" | some r => r | none => "current")
  else
    "staged:" ++ ref.traceId.getD "None" ++ ":" ++ ref.workItemId.getD "None" ++ ":" ++
      ref.slot.getD "None"

theorem published_isOk_iff {artifactKey : String} :
    (∃ ref, published artifactKey = .ok ref) ↔ safeId artifactKey = true := by
  simp [published, create_isOk_iff, RefFields.postInit, validateId]

theorem staged_isOk_iff {artifactKey traceId workItemId slot : String} :
    (∃ ref, staged artifactKey traceId workItemId slot = .ok ref) ↔
      safeId artifactKey = true ∧ safeId traceId = true ∧ safeId workItemId = true ∧
        safeId slot = true := by
  simp [staged, create_isOk_iff, RefFields.postInit, validateId, forEach_eq_ok]

end ArtifactRef
end ProjectOS.Artifact
