import ProjectOS.Artifact.Ref
import ProjectOS.Base.JsonIndented
import ProjectOS.Base.Sha256

/-! The intermediate results of a work item: one JSON file a phase, overwritten by the next
write of the phase. A recovery searches the phases from the last one back. -/
namespace ProjectOS.Artifact
open Base

structure IntermediateArtifact where
  traceId : String
  workItemId : String
  phase : String
  inputDigest : String
  contentDigest : String
  content : String
  createdAt : String
deriving DecidableEq

namespace IntermediateArtifact

def asdict (result : IntermediateArtifact) : Json := .obj [
  ("trace_id", .str result.traceId),
  ("work_item_id", .str result.workItemId),
  ("phase", .str result.phase),
  ("input_digest", .str result.inputDigest),
  ("content_digest", .str result.contentDigest),
  ("content", .str result.content),
  ("created_at", .str result.createdAt)]

def fieldNames : List String :=
  ["trace_id", "work_item_id", "phase", "input_digest", "content_digest", "content", "created_at"]

/-- A text field of the file. -/
def textField (data : Json) (name : String) : Result String :=
  match data.get? name with
  | some (.str text) => .ok text
  | some _ => .error (.attributeError "object has no attribute 'encode'")
  | none => .error (.typeError
      ("IntermediateArtifact.__init__() missing 1 required positional argument: '" ++ name ++ "'"))

/-- `IntermediateArtifact(**data)`, for a file whose values are texts. -/
def ofFields (data : Json) : Result IntermediateArtifact := do
  match data with
  | .obj fields =>
      match fields.find? fun field => !fieldNames.contains field.1 with
      | some field => .error (.typeError
          ("IntermediateArtifact.__init__() got an unexpected keyword argument '" ++
            field.1 ++ "'"))
      | none => .ok ()
  | _ => .error (.typeError "argument after ** must be a mapping")
  let traceId ← textField data "trace_id"
  let workItemId ← textField data "work_item_id"
  let phase ← textField data "phase"
  let inputDigest ← textField data "input_digest"
  let contentDigest ← textField data "content_digest"
  let content ← textField data "content"
  let createdAt ← textField data "created_at"
  .ok ⟨traceId, workItemId, phase, inputDigest, contentDigest, content, createdAt⟩

@[simp] theorem ofFields_asdict (result : IntermediateArtifact) :
    ofFields result.asdict = .ok result := rfl

@[simp] theorem distinct_asdict (result : IntermediateArtifact) :
    result.asdict.distinct = true := by
  simp [asdict, Json.distinct, Json.distinctFields]

end IntermediateArtifact

/-- The files `intermediate/{phase}.json`, by trace, work item and phase. -/
abbrev Intermediates := Dict (String × String × String) String

structure IntermediateWrite where
  traceId : String
  workItemId : String
  phase : String
  inputDigest : String
  content : String
  createdAt : String := ""
deriving DecidableEq

def validateIntermediate (traceId workItemId phase : String) : Result Unit :=
  forEach (fun field => validateId field.1 (some field.2))
    [("trace_id", traceId), ("work_item_id", workItemId), ("phase", phase)]

namespace IntermediateWrite

def result (write : IntermediateWrite) : IntermediateArtifact where
  traceId := write.traceId
  workItemId := write.workItemId
  phase := write.phase
  inputDigest := write.inputDigest
  contentDigest := Sha256.sha256 write.content
  content := write.content
  createdAt := write.createdAt

def place (write : IntermediateWrite) : String × String × String :=
  (write.traceId, write.workItemId, write.phase)

end IntermediateWrite

namespace Intermediates
variable (files : Intermediates)

def writeIntermediate (write : IntermediateWrite) :
    Result (Intermediates × IntermediateArtifact) := do
  validateIntermediate write.traceId write.workItemId write.phase
  raiseWhen (write.inputDigest == "" || Text.blank write.content)
    "中间产物必须包含输入摘要和非空内容"
  .ok (files.set write.place (Json.indentedFile write.result.asdict), write.result)

def readJson (place : String × String × String) : Result Json :=
  match files.get? place with
  | none => .error (.fileNotFound "No such file or directory")
  | some text =>
      match Json.loads (Text.readText text) with
      | some data => .ok data
      | none => raise "Expecting value"

def loadIntermediate (traceId workItemId phase expectedInputDigest : String) :
    Result IntermediateArtifact := do
  validateIntermediate traceId workItemId phase
  let data ← files.readJson (traceId, workItemId, phase)
  let result ← IntermediateArtifact.ofFields data
  if result.inputDigest ≠ expectedInputDigest ∨
      Sha256.sha256 result.content ≠ result.contentDigest then
    .error (.runtimeError "中间产物输入版本或内容摘要不匹配")
  else .ok result

/-- The loop over the phases: a phase without a file is passed over, other errors are raised. -/
def searchPhases (traceId workItemId expectedInputDigest : String) :
    List String → Result (Option IntermediateArtifact)
  | [] => .ok none
  | phase :: rest =>
      match files.loadIntermediate traceId workItemId phase expectedInputDigest with
      | .ok result => .ok (some result)
      | .error (.fileNotFound _) => searchPhases traceId workItemId expectedInputDigest rest
      | .error e => .error e

def latestIntermediate (traceId workItemId : String) (phases : List String)
    (expectedInputDigest : String) : Result (Option IntermediateArtifact) :=
  files.searchPhases traceId workItemId expectedInputDigest phases.reverse

/-- A call that raises writes nothing. -/
def afterWrite (write : IntermediateWrite) : Intermediates :=
  match files.writeIntermediate write with
  | .ok (written, _) => written
  | .error _ => files

def afterWrites (writes : List IntermediateWrite) : Intermediates := writes.foldl afterWrite files

end Intermediates

/-! What a run of writes leaves: for each phase the most recent write that was not refused. -/

/-- The call does not raise. -/
def IntermediateWrite.accepted (write : IntermediateWrite) : Bool :=
  safeId write.traceId && safeId write.workItemId && safeId write.phase &&
    write.inputDigest != "" && !Text.blank write.content

/-- The most recent write of a phase. -/
def lastWrite (writes : List IntermediateWrite) (place : String × String × String) :
    Option IntermediateWrite :=
  (writes.filter fun write => write.accepted && write.place == place).getLast?

theorem validateId_some {name value : String} :
    validateId name (some value) = if safeId value = true then .ok () else
      raise (name ++ " 必须是受限 ID") := by
  cases h : safeId value <;> simp [validateId, raiseWhen, raiseIf, h, raise]

theorem validateIntermediate_eq_ok {traceId workItemId phase : String} :
    validateIntermediate traceId workItemId phase = .ok () ↔
      safeId traceId = true ∧ safeId workItemId = true ∧ safeId phase = true := by
  simp [validateIntermediate, forEach_eq_ok, validateId]

namespace Intermediates
variable {files : Intermediates}

theorem writeIntermediate_of_accepted {write : IntermediateWrite} (h : write.accepted = true) :
    files.writeIntermediate write =
      .ok (files.set write.place (Json.indentedFile write.result.asdict), write.result) := by
  simp only [IntermediateWrite.accepted, Bool.and_eq_true, bne_iff_ne, Bool.not_eq_true'] at h
  obtain ⟨⟨⟨⟨htrace, hitem⟩, hphase⟩, hdigest⟩, hcontent⟩ := h
  have hids := validateIntermediate_eq_ok.mpr ⟨htrace, hitem, hphase⟩
  have hfilled : (write.inputDigest == "" || Text.blank write.content) = false := by
    simp [hdigest, hcontent]
  simp [writeIntermediate, hids, hfilled, raiseWhen]

theorem writeIntermediate_isOk {write : IntermediateWrite} {written : Intermediates}
    {result : IntermediateArtifact} (h : files.writeIntermediate write = .ok (written, result)) :
    write.accepted = true := by
  obtain ⟨hids, h⟩ := check_bind_eq_ok.mp h
  obtain ⟨hfilled, -⟩ := raiseWhen_bind_eq_ok.mp h
  obtain ⟨htrace, hitem, hphase⟩ := validateIntermediate_eq_ok.mp hids
  simp only [Bool.or_eq_false_iff, beq_eq_false_iff_ne] at hfilled
  simp [IntermediateWrite.accepted, htrace, hitem, hphase, hfilled.1, hfilled.2]

theorem afterWrite_eq (write : IntermediateWrite) :
    files.afterWrite write =
      if write.accepted = true then
        files.set write.place (Json.indentedFile write.result.asdict)
      else files := by
  unfold afterWrite
  split
  · rename_i written result h
    have haccepted := writeIntermediate_isOk h
    rw [writeIntermediate_of_accepted haccepted, Except.ok.injEq, Prod.mk.injEq] at h
    rw [if_pos haccepted, h.1]
  · rename_i e h
    rw [if_neg]
    intro haccepted
    rw [writeIntermediate_of_accepted haccepted] at h
    cases h

/-- Each phase's file is the text of its last accepted write. -/
theorem get?_afterWrites (writes : List IntermediateWrite) (place : String × String × String) :
    ((∅ : Intermediates).afterWrites writes).get? place =
      (lastWrite writes place).map fun write => Json.indentedFile write.result.asdict := by
  induction writes using List.reverseRecOn with
  | nil => rfl
  | append_singleton writes write ih =>
    have hlast : lastWrite (writes ++ [write]) place =
        if write.accepted = true ∧ write.place = place then some write
        else lastWrite writes place := by
      unfold lastWrite
      rw [List.filter_append]
      by_cases h : write.accepted = true ∧ write.place = place
      · simp [List.filter, h.1, h.2]
      · have hfalse : (write.accepted && write.place == place) = false := by
          simpa [Bool.and_eq_false_iff] using h
        simp [List.filter, hfalse, h]
    have hstep : (∅ : Intermediates).afterWrites (writes ++ [write]) =
        ((∅ : Intermediates).afterWrites writes).afterWrite write := by
      simp [afterWrites]
    rw [hstep, afterWrite_eq, hlast]
    by_cases haccepted : write.accepted = true
    · rw [if_pos haccepted, Dict.get?_set]
      by_cases hplace : write.place = place
      · simp [haccepted, hplace]
      · simp [haccepted, hplace, Ne.symm hplace, ih]
    · simp [haccepted, ih]

theorem place_of_lastWrite {writes : List IntermediateWrite} {place : String × String × String}
    {write : IntermediateWrite} (h : lastWrite writes place = some write) :
    write.accepted = true ∧ write.place = place := by
  have hmem := List.mem_of_getLast? h
  simpa using (List.mem_filter.mp hmem).2

/-- Reading the file of a phase after a run: it is missing, stale or the last write. -/
theorem loadIntermediate_afterWrites {traceId workItemId phase : String} (expected : String)
    (writes : List IntermediateWrite)
    (hids : validateIntermediate traceId workItemId phase = .ok ()) :
    ((∅ : Intermediates).afterWrites writes).loadIntermediate traceId workItemId phase expected =
      match lastWrite writes (traceId, workItemId, phase) with
      | none => .error (.fileNotFound "No such file or directory")
      | some write =>
          if write.inputDigest = expected then .ok write.result
          else .error (.runtimeError "中间产物输入版本或内容摘要不匹配") := by
  unfold loadIntermediate readJson
  rw [hids, ok_bind, get?_afterWrites]
  cases lastWrite writes (traceId, workItemId, phase) with
  | none => rfl
  | some write =>
    have hread := Json.loads_indentedFile write.result.distinct_asdict
    have hcontent : Sha256.sha256 write.result.content = write.result.contentDigest := rfl
    have hdigest : write.result.inputDigest = write.inputDigest := rfl
    simp only [Option.map_some, Json.readText_indentedFile, hread, ok_bind,
      IntermediateArtifact.ofFields_asdict, hcontent, hdigest, ne_eq, not_true, or_false, ite_not]

/-- The phase may be asked for and was never written. -/
def Unwritten (writes : List IntermediateWrite) (traceId workItemId phase : String) : Prop :=
  validateIntermediate traceId workItemId phase = .ok () ∧
    lastWrite writes (traceId, workItemId, phase) = none

/-- The loop passes over the phases that were never written. -/
theorem searchPhases_unwritten {writes : List IntermediateWrite}
    {traceId workItemId expected : String} {passed : List String}
    (h : ∀ phase ∈ passed, Unwritten writes traceId workItemId phase) (rest : List String) :
    ((∅ : Intermediates).afterWrites writes).searchPhases traceId workItemId expected
        (passed ++ rest) =
      ((∅ : Intermediates).afterWrites writes).searchPhases traceId workItemId expected rest := by
  induction passed with
  | nil => rfl
  | cons phase passed ih =>
    obtain ⟨hids, hnone⟩ := h phase List.mem_cons_self
    have hload := loadIntermediate_afterWrites expected writes hids
    rw [hnone] at hload
    rw [List.cons_append, searchPhases, hload]
    exact ih fun next hnext => h next (List.mem_cons_of_mem _ hnext)

variable {writes : List IntermediateWrite} {traceId workItemId expected : String}

theorem latestIntermediate_append {earlier later : List String} {phase : String}
    (hlater : ∀ next ∈ later, Unwritten writes traceId workItemId next) :
    ((∅ : Intermediates).afterWrites writes).latestIntermediate traceId workItemId
        (earlier ++ phase :: later) expected =
      ((∅ : Intermediates).afterWrites writes).searchPhases traceId workItemId expected
        (phase :: earlier.reverse) := by
  unfold latestIntermediate
  rw [List.reverse_append, List.reverse_cons, List.append_assoc, searchPhases_unwritten]
  · rfl
  · exact fun next hnext => hlater next (List.mem_reverse.mp hnext)

/-- The last phase of the list that was ever written decides. -/
theorem latestIntermediate_written {earlier later : List String} {phase : String}
    {write : IntermediateWrite} (hlater : ∀ next ∈ later, Unwritten writes traceId workItemId next)
    (hlast : lastWrite writes (traceId, workItemId, phase) = some write) :
    ((∅ : Intermediates).afterWrites writes).latestIntermediate traceId workItemId
        (earlier ++ phase :: later) expected =
      if write.inputDigest = expected then .ok (some write.result)
      else .error (.runtimeError "中间产物输入版本或内容摘要不匹配") := by
  obtain ⟨haccepted, hplace⟩ := place_of_lastWrite hlast
  have hids : validateIntermediate traceId workItemId phase = .ok () := by
    simp only [IntermediateWrite.place, Prod.mk.injEq] at hplace
    obtain ⟨rfl, rfl, rfl⟩ := hplace
    simp only [IntermediateWrite.accepted, Bool.and_eq_true] at haccepted
    exact validateIntermediate_eq_ok.mpr
      ⟨haccepted.1.1.1.1, haccepted.1.1.1.2, haccepted.1.1.2⟩
  have hload := loadIntermediate_afterWrites expected writes hids
  rw [hlast] at hload
  rw [latestIntermediate_append hlater, searchPhases, hload]
  dsimp only
  by_cases hdigest : write.inputDigest = expected
  · simp only [if_pos hdigest]
  · simp only [if_neg hdigest]

/-- A phase that is no ID ends the search where it is reached. -/
theorem latestIntermediate_refused {earlier later : List String} {phase : String} {e : Error}
    (hlater : ∀ next ∈ later, Unwritten writes traceId workItemId next)
    (hrefused : validateIntermediate traceId workItemId phase = .error e) :
    ((∅ : Intermediates).afterWrites writes).latestIntermediate traceId workItemId
        (earlier ++ phase :: later) expected = .error e := by
  have hvalue : ∃ message, e = .valueError message := by
    simp only [validateIntermediate, forEach, validateId_some] at hrefused
    split_ifs at hrefused <;> cases hrefused <;> exact ⟨_, rfl⟩
  obtain ⟨message, rfl⟩ := hvalue
  have hload : ((∅ : Intermediates).afterWrites writes).loadIntermediate traceId workItemId phase
      expected = .error (.valueError message) := by
    rw [loadIntermediate, hrefused, error_bind]
  rw [latestIntermediate_append hlater, searchPhases, hload]

/-- Two phases under one input, then a refused write of the second. -/
def currentWrites : List IntermediateWrite := [
  ⟨"tr-b", "module", "boundaries", "a", "b", ""⟩,
  ⟨"tr-b", "module", "interfaces", "a", "i", ""⟩,
  ⟨"tr-b", "module", "interfaces", "c", " ", ""⟩]

/-- The second phase was last written under another input. -/
def staleWrites : List IntermediateWrite := [
  ⟨"tr-b", "module", "boundaries", "a", "b", ""⟩,
  ⟨"tr-b", "module", "interfaces", "c", "i", ""⟩]

end Intermediates
end ProjectOS.Artifact
