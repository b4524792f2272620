import ProjectOS.Orchestration.Trace

/-! The requirement traceability matrix of a project and its store. A record
binds the units, tests and runtime evidence that close one requirement. -/
namespace ProjectOS.Orchestration
open Base

structure RequirementRecord where
  requirementId : String
  text : String
  acceptanceCriteria : List String := []
  implementationUnits : List String := []
  testEvidenceIds : List String := []
  runtimeEvidenceIds : List String := []
  actor : Option String := none
  action : Option String := none
  preconditions : List String := []
  expectedOutputs : List String := []
  errorCases : List String := []
  priority : String := "must"
deriving DecidableEq, Repr

/-- What is bound to a requirement. -/
inductive Binding where
  | unit
  | test
  | runtime
deriving DecidableEq, Repr

namespace RequirementRecord

def asDict (record : RequirementRecord) : Json := .obj [
  ("requirement_id", .str record.requirementId),
  ("text", .str record.text),
  ("acceptance_criteria", .strs record.acceptanceCriteria),
  ("implementation_units", .strs record.implementationUnits),
  ("test_evidence_ids", .strs record.testEvidenceIds),
  ("runtime_evidence_ids", .strs record.runtimeEvidenceIds),
  ("actor", .optStr record.actor),
  ("action", .optStr record.action),
  ("preconditions", .strs record.preconditions),
  ("expected_outputs", .strs record.expectedOutputs),
  ("error_cases", .strs record.errorCases),
  ("priority", .str record.priority)]

/-- The record of one dictionary of the file. -/
def fromDict (raw : Json) : Result RequirementRecord := do
  let requirementId ← require raw "requirement_id"
  let acceptanceCriteria ← texts (raw.getD "acceptance_criteria" (.arr []))
  let implementationUnits ← texts (raw.getD "implementation_units" (.arr []))
  let testEvidenceIds ← texts (raw.getD "test_evidence_ids" (.arr []))
  let runtimeEvidenceIds ← texts (raw.getD "runtime_evidence_ids" (.arr []))
  let preconditions ← texts (raw.getD "preconditions" (.arr []))
  let expectedOutputs ← texts (raw.getD "expected_outputs" (.arr []))
  let errorCases ← texts (raw.getD "error_cases" (.arr []))
  .ok {
    requirementId := requirementId.pyStr
    text := (raw.getD "text" (.str "")).pyStr
    acceptanceCriteria := acceptanceCriteria
    implementationUnits := implementationUnits
    testEvidenceIds := testEvidenceIds
    runtimeEvidenceIds := runtimeEvidenceIds
    actor := textOrNone (raw.get "actor")
    action := textOrNone (raw.get "action")
    preconditions := preconditions
    expectedOutputs := expectedOutputs
    errorCases := errorCases
    priority := (raw.getD "priority" (.str "must")).pyStr }

def bound (record : RequirementRecord) : Binding → List String
  | .unit => record.implementationUnits
  | .test => record.testEvidenceIds
  | .runtime => record.runtimeEvidenceIds

/-- The record without what is bound to it. -/
def statement (record : RequirementRecord) : RequirementRecord :=
  { record with implementationUnits := [], testEvidenceIds := [], runtimeEvidenceIds := [] }

def withUnit (unitId : String) (record : RequirementRecord) : RequirementRecord :=
  { record with implementationUnits := dedupe (record.implementationUnits ++ [unitId]) }

/-- The record `bind_evidence` builds: the fields it does not name fall back to
their defaults. -/
def withEvidence (evidenceId : String) (runtime : Bool) (record : RequirementRecord) :
    RequirementRecord :=
  let updated := dedupe
    ((if runtime then record.runtimeEvidenceIds else record.testEvidenceIds) ++ [evidenceId])
  { requirementId := record.requirementId
    text := record.text
    acceptanceCriteria := record.acceptanceCriteria
    implementationUnits := record.implementationUnits
    testEvidenceIds := if runtime then record.testEvidenceIds else updated
    runtimeEvidenceIds := if runtime then updated else record.runtimeEvidenceIds }

theorem id_withUnit (unitId : String) (record : RequirementRecord) :
    (record.withUnit unitId).requirementId = record.requirementId := rfl

theorem id_withEvidence (evidenceId : String) (runtime : Bool) (record : RequirementRecord) :
    (record.withEvidence evidenceId runtime).requirementId = record.requirementId := rfl

/-- The statement that `bind_evidence` leaves. -/
def bare (record : RequirementRecord) : RequirementRecord where
  requirementId := record.requirementId
  text := record.text
  acceptanceCriteria := record.acceptanceCriteria

/-- No field is set that `bind_evidence` leaves out. -/
def Bare (record : RequirementRecord) : Prop := record.statement = record.bare

instance (record : RequirementRecord) : Decidable record.Bare := inferInstanceAs (Decidable (_ = _))

/-- An empty actor or action is written as it is and read as none. -/
def Stored (record : RequirementRecord) : Prop := record.actor ≠ some "" ∧ record.action ≠ some ""

def isComplete (record : RequirementRecord) : Bool :=
  !record.implementationUnits.isEmpty && !record.testEvidenceIds.isEmpty &&
    !record.runtimeEvidenceIds.isEmpty

variable {record : RequirementRecord}

theorem isComplete_iff : record.isComplete = true ↔ ∀ kind, record.bound kind ≠ [] := by
  simp only [isComplete, Bool.and_eq_true, Bool.not_eq_true', List.isEmpty_eq_false_iff]
  constructor
  · rintro ⟨⟨hunit, htest⟩, hruntime⟩ kind
    cases kind <;> assumption
  · exact fun h => ⟨⟨h .unit, h .test⟩, h .runtime⟩

theorem mem_bound_withUnit {unitId v : String} {kind : Binding} :
    v ∈ (record.withUnit unitId).bound kind ↔
      v ∈ record.bound kind ∨ (kind = .unit ∧ v = unitId) := by
  cases kind <;> simp [withUnit, bound, mem_dedupe]

theorem mem_bound_withEvidence {evidenceId v : String} {runtime : Bool} {kind : Binding} :
    v ∈ (record.withEvidence evidenceId runtime).bound kind ↔
      v ∈ record.bound kind ∨
        (kind = (if runtime then .runtime else .test) ∧ v = evidenceId) := by
  cases kind <;> cases runtime <;> simp [withEvidence, bound, mem_dedupe]

@[simp] theorem statement_withUnit (unitId : String) :
    (record.withUnit unitId).statement = record.statement := rfl

@[simp] theorem statement_withEvidence (evidenceId : String) (runtime : Bool) :
    (record.withEvidence evidenceId runtime).statement = record.bare := rfl

@[simp] theorem bare_withEvidence (evidenceId : String) (runtime : Bool) :
    (record.withEvidence evidenceId runtime).bare = record.bare := rfl

theorem textOrNone_optStr {value : Option String} (h : value ≠ some "") :
    textOrNone (.optStr value) = value := by
  cases value with
  | none => rfl
  | some text =>
    have htext : text ≠ "" := fun he => h (he ▸ rfl)
    simp [textOrNone, Json.optStr, Json.truthy, htext]

theorem textOrNone_ne_empty (value : Json) : textOrNone value ≠ some "" := by
  unfold textOrNone
  split
  · rename_i h
    exact fun he => Json.pyStr_ne_empty h (Option.some.inj he)
  · nofun

theorem fromDict_asDict (h : record.Stored) : fromDict record.asDict = .ok record := by
  have hcriteria : record.asDict.getD "acceptance_criteria" (.arr []) =
      .strs record.acceptanceCriteria := rfl
  have hunits : record.asDict.getD "implementation_units" (.arr []) =
      .strs record.implementationUnits := rfl
  have htest : record.asDict.getD "test_evidence_ids" (.arr []) = .strs record.testEvidenceIds := rfl
  have hruntime : record.asDict.getD "runtime_evidence_ids" (.arr []) =
      .strs record.runtimeEvidenceIds := rfl
  have hpre : record.asDict.getD "preconditions" (.arr []) = .strs record.preconditions := rfl
  have houtputs : record.asDict.getD "expected_outputs" (.arr []) =
      .strs record.expectedOutputs := rfl
  have herrors : record.asDict.getD "error_cases" (.arr []) = .strs record.errorCases := rfl
  have hid : require record.asDict "requirement_id" = .ok (.str record.requirementId) := rfl
  have hactor : textOrNone (record.asDict.get "actor") = record.actor := textOrNone_optStr h.1
  have haction : textOrNone (record.asDict.get "action") = record.action := textOrNone_optStr h.2
  have htext : record.asDict.getD "text" (.str "") = .str record.text := rfl
  have hpriority : record.asDict.getD "priority" (.str "must") = .str record.priority := rfl
  unfold fromDict
  rw [hid, hcriteria, hunits, htest, hruntime, hpre, houtputs, herrors, hactor, haction, htext,
    hpriority]
  simp only [texts_strs, ok_bind, Json.pyStr_str]

theorem stored_fromDict {raw : Json} (h : fromDict raw = .ok record) : record.Stored := by
  simp only [fromDict, bind_eq_ok] at h
  obtain ⟨_, -, _, -, _, -, _, -, _, -, _, -, _, -, _, -, h⟩ := h
  cases h
  exact ⟨textOrNone_ne_empty _, textOrNone_ne_empty _⟩

end RequirementRecord

/-- The records by requirement id, none of them blank. -/
structure TraceabilityMatrix where
  requirements : Dict String RequirementRecord
  keyed : ∀ e ∈ requirements.entries, e.2.requirementId = e.1 ∧ Text.blank e.1 = false

namespace TraceabilityMatrix

def empty : TraceabilityMatrix := ⟨∅, nofun⟩

def get? (matrix : TraceabilityMatrix) (requirementId : String) : Option RequirementRecord :=
  matrix.requirements.get? requirementId

/-- `matrix.requirements[record.requirement_id] = record`. -/
def put (matrix : TraceabilityMatrix) (record : RequirementRecord)
    (h : Text.blank record.requirementId = false) : TraceabilityMatrix where
  requirements := matrix.requirements.set record.requirementId record
  keyed := by
    intro e he
    rcases Dict.mem_set he with rfl | hold
    · exact ⟨rfl, h⟩
    · exact matrix.keyed e hold

def register (matrix : TraceabilityMatrix) (record : RequirementRecord) :
    Result TraceabilityMatrix :=
  if h : Text.blank record.requirementId = false then .ok (matrix.put record h)
  else raise "requirement_id 不能为空"

/-- The record of a requirement rebuilt under its own id; an unknown id is skipped. -/
def update (matrix : TraceabilityMatrix) (rebuild : RequirementRecord → RequirementRecord)
    (hid : ∀ record, (rebuild record).requirementId = record.requirementId)
    (requirementId : String) : TraceabilityMatrix :=
  match h : matrix.get? requirementId with
  | none => matrix
  | some record => matrix.put (rebuild record) (by
      have hkeyed := matrix.keyed _ (Dict.get?_eq_some_iff.mp h)
      rw [hid, hkeyed.1]
      exact hkeyed.2)

def bindImplementation (matrix : TraceabilityMatrix) (requirementIds : List String)
    (unitId : String) : TraceabilityMatrix :=
  requirementIds.foldl (·.update _ (RequirementRecord.id_withUnit unitId)) matrix

def incomplete (matrix : TraceabilityMatrix) : List String :=
  Text.sorted ((matrix.requirements.entries.filter fun e => !e.2.isComplete).map Prod.fst)

def asDict (matrix : TraceabilityMatrix) : Json := .obj [
  ("schema_version", .int 1),
  ("requirements", .arr (matrix.requirements.values.map (·.asDict)))]

/-- What one dictionary of the file adds. -/
def loadRecord (matrix : TraceabilityMatrix) (raw : Json) : Result TraceabilityMatrix :=
  if raw.isDict then do
    let record ← RequirementRecord.fromDict raw
    matrix.register record
  else .ok matrix

def loadRecords (matrix : TraceabilityMatrix) : List Json → Result TraceabilityMatrix
  | [] => .ok matrix
  | raw :: rest => do
      let matrix ← matrix.loadRecord raw
      matrix.loadRecords rest

/-- Every record reads back as it is. -/
def Stored (matrix : TraceabilityMatrix) : Prop :=
  ∀ e ∈ matrix.requirements.entries, e.2.Stored

variable {matrix : TraceabilityMatrix}

@[ext] theorem ext {a b : TraceabilityMatrix} (h : a.requirements = b.requirements) : a = b := by
  cases a; cases b; cases h; rfl

theorem register_eq_ok {record : RequirementRecord} {matrix' : TraceabilityMatrix} :
    matrix.register record = .ok matrix' ↔
      ∃ h : Text.blank record.requirementId = false, matrix.put record h = matrix' := by
  unfold register
  split
  · rename_i h
    simp [h]
  · rename_i h
    simp [h]

theorem stored_put {record : RequirementRecord} {h : Text.blank record.requirementId = false}
    (hmatrix : matrix.Stored) (hrecord : record.Stored) : (matrix.put record h).Stored := by
  intro e he
  rcases Dict.mem_set he with rfl | hold
  · exact hrecord
  · exact hmatrix e hold

theorem stored_empty : empty.Stored := by
  simp [Stored, empty]

theorem stored_loadRecords {raws : List Json} {matrix' : TraceabilityMatrix}
    (hmatrix : matrix.Stored) (h : matrix.loadRecords raws = .ok matrix') : matrix'.Stored := by
  induction raws generalizing matrix with
  | nil =>
    cases h
    exact hmatrix
  | cons raw rest ih =>
    simp only [loadRecords, bind_eq_ok] at h
    obtain ⟨next, hnext, h⟩ := h
    refine ih ?_ h
    unfold loadRecord at hnext
    split at hnext
    · simp only [bind_eq_ok, register_eq_ok] at hnext
      obtain ⟨record, hrecord, hid, rfl⟩ := hnext
      exact stored_put hmatrix (RequirementRecord.stored_fromDict hrecord)
    · cases hnext
      exact hmatrix

/-- Records that read back, under new ids, are added as they are. -/
theorem loadRecords_asDict {entries : List (String × RequirementRecord)}
    (hkeyed : ∀ e ∈ entries, e.2.requirementId = e.1 ∧ Text.blank e.1 = false)
    (hstored : ∀ e ∈ entries, e.2.Stored)
    (hnodup : (matrix.requirements.keys ++ entries.map Prod.fst).Nodup) :
    ∃ matrix', matrix.loadRecords (entries.map fun e => e.2.asDict) = .ok matrix' ∧
      matrix'.requirements.entries = matrix.requirements.entries ++ entries := by
  induction entries generalizing matrix with
  | nil => exact ⟨matrix, rfl, by simp⟩
  | cons e rest ih =>
    obtain ⟨id, record⟩ := e
    rw [List.forall_mem_cons] at hkeyed hstored
    dsimp only at hkeyed hstored
    obtain ⟨⟨rfl, hid⟩, hkeyed⟩ := hkeyed
    have hfresh : record.requirementId ∉ matrix.requirements.keys := by
      intro hmem
      have := List.disjoint_of_nodup_append hnodup hmem
      simp at this
    have hrecord : matrix.loadRecord record.asDict = .ok (matrix.put record hid) := by
      have hdict : record.asDict.isDict = true := rfl
      unfold loadRecord
      rw [if_pos hdict, RequirementRecord.fromDict_asDict hstored.1, ok_bind]
      exact register_eq_ok.mpr ⟨hid, rfl⟩
    have hkeys : (matrix.put record hid).requirements.keys =
        matrix.requirements.keys ++ [record.requirementId] := Dict.keys_set_of_not_mem hfresh
    have hentries : (matrix.put record hid).requirements.entries =
        matrix.requirements.entries ++ [(record.requirementId, record)] :=
      Dict.entries_set_of_not_mem hfresh
    obtain ⟨matrix', hload, hmatrix'⟩ := @ih (matrix.put record hid) hkeyed hstored.2
      (by rw [hkeys]; simpa using hnodup)
    refine ⟨matrix', ?_, ?_⟩
    · simp only [List.map_cons, loadRecords]
      rw [hrecord, ok_bind]
      exact hload
    · rw [hmatrix', hentries]
      simp

end TraceabilityMatrix

namespace DeliveryStore

/-- The content of `traceability.json`, if the file is there. -/
abbrev MatrixFile := Option Json

def saveMatrix (matrix : TraceabilityMatrix) : MatrixFile := some matrix.asDict

def loadMatrix : MatrixFile → Result TraceabilityMatrix
  | none => .ok .empty
  | some payload =>
      if payload.isDict then
        match (payload.getD "requirements" (.arr [])).iterate? with
        | some raws => TraceabilityMatrix.empty.loadRecords raws
        | none => .error (.typeError "object is not iterable")
      else .error (.attributeError "object has no attribute get")

theorem stored_loadMatrix {file : MatrixFile} {matrix : TraceabilityMatrix}
    (h : loadMatrix file = .ok matrix) : matrix.Stored := by
  unfold loadMatrix at h
  split at h
  · cases h
    exact TraceabilityMatrix.stored_empty
  · split at h
    · split at h
      · exact TraceabilityMatrix.stored_loadRecords TraceabilityMatrix.stored_empty h
      · cases h
    · cases h

/-- A saved matrix is loaded as it was. -/
theorem loadMatrix_saveMatrix {matrix : TraceabilityMatrix} (h : matrix.Stored) :
    loadMatrix (saveMatrix matrix) = .ok matrix := by
  have hraws : (matrix.asDict.getD "requirements" (.arr [])).iterate? =
      some (matrix.requirements.entries.map fun e => e.2.asDict) := by
    have hfield : matrix.asDict.getD "requirements" (.arr []) =
        .arr (matrix.requirements.values.map (·.asDict)) := rfl
    rw [hfield]
    simp [Json.iterate?, Dict.values, Function.comp_def]
  have hnodup : (TraceabilityMatrix.empty.requirements.keys ++
      matrix.requirements.entries.map Prod.fst).Nodup := by
    simpa [TraceabilityMatrix.empty] using matrix.requirements.nodup
  obtain ⟨matrix', hload, hentries⟩ := TraceabilityMatrix.loadRecords_asDict matrix.keyed h hnodup
  unfold loadMatrix saveMatrix
  have hdict : matrix.asDict.isDict = true := rfl
  dsimp only
  rw [if_pos hdict, hraws]
  dsimp only
  rw [hload]
  exact congrArg _ (TraceabilityMatrix.ext (Dict.ext (by simpa [TraceabilityMatrix.empty] using hentries)))

/-- `[\s#>*\-\d.)]`, the marks before a line's text. -/
def leadingMark (c : Char) : Bool :=
  Text.isSpace c || c ∈ ['#', '>', '*', '-', '.', ')'] || Text.isDecimal c

def emphasisMark (c : Char) : Bool := c ∈ ['*', '_', ' ']

/-- `[:：.\-)]`. -/
def separatorMark (c : Char) : Bool := c ∈ [':', Char.ofNat 0xFF1A, '.', '-', ')']

/-- The rest after `\s*[:：.\-)]+\s*`, or else after `\s+`. -/
def afterSeparator (cs : List Char) : Option (List Char) :=
  let spaced := cs.dropWhile Text.isSpace
  let marked := spaced.dropWhile separatorMark
  if marked.length < spaced.length then some (marked.dropWhile Text.isSpace)
  else if spaced.length < cs.length then some spaced
  else none

/-- The id and text of a line that states an acceptance criterion. The word
boundary after the digits is implied by the separator. -/
def acceptanceCriterion (line : String) : Option (String × String) :=
  let normalized := Text.stripBy emphasisMark (Text.lstripBy leadingMark line)
  match normalized.toList with
  | a :: c :: '-' :: rest =>
      if a ∈ ['A', 'a'] && c ∈ ['C', 'c'] && rest.head?.any Text.isDecimal then
        (afterSeparator (rest.dropWhile Text.isDecimal)).map fun tail =>
          let text := Text.stripBy emphasisMark (Text.strip (String.ofList tail))
          (String.ofList ('A' :: 'C' :: '-' :: rest.takeWhile Text.isDecimal),
            if text = "" then normalized else text)
      else none
  | _ => none

/-- The criteria of a document, in order. -/
def acceptanceCriteria (content : String) : List (String × String) :=
  (Text.nonBlankLines content).filterMap acceptanceCriterion

def initialRecord (criterion : String × String) : RequirementRecord where
  requirementId := criterion.1
  text := criterion.2
  acceptanceCriteria := [criterion.1]

def registerAll (matrix : TraceabilityMatrix) : List (String × String) → Result TraceabilityMatrix
  | [] => .ok matrix
  | criterion :: rest => do
      let matrix ← matrix.register (initialRecord criterion)
      registerAll matrix rest

def initializeFromMarkdown (content : String) (file : MatrixFile) : Result MatrixFile := do
  let matrix ← loadMatrix file
  let matrix ← registerAll matrix (acceptanceCriteria content)
  .ok (saveMatrix matrix)

/-- `item.implementation_unit_id or item.id`. -/
def unitId (item : WorkItem) : String := Text.orElse item.implementationUnitId item.id

def boundPlan (plan : ExecutionPlan) (matrix : TraceabilityMatrix) : TraceabilityMatrix :=
  plan.workItems.foldl (fun matrix item =>
    matrix.bindImplementation item.requirementIds (unitId item)) matrix

def bindPlan (plan : ExecutionPlan) (file : MatrixFile) : Result MatrixFile := do
  let matrix ← loadMatrix file
  .ok (saveMatrix (boundPlan plan matrix))

def boundEvidence (requirementIds : List String) (evidenceId : String) (runtime : Bool)
    (matrix : TraceabilityMatrix) : TraceabilityMatrix :=
  requirementIds.foldl (·.update _ (RequirementRecord.id_withEvidence evidenceId runtime)) matrix

def bindEvidence (requirementIds : List String) (evidenceId : String) (runtime : Bool)
    (file : MatrixFile) : Result MatrixFile := do
  let matrix ← loadMatrix file
  .ok (saveMatrix (boundEvidence requirementIds evidenceId runtime matrix))

end DeliveryStore
end ProjectOS.Orchestration
