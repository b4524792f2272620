import ProjectOS.Orchestration.Delivery

/-! What the operations of the delivery store do to a requirement: binding adds,
a new reading of the document starts its record over. -/
namespace ProjectOS.Orchestration
open Base

namespace TraceabilityMatrix
variable {matrix before after : TraceabilityMatrix}

/-- What is bound to a requirement; nothing to an unknown one. -/
def bound (matrix : TraceabilityMatrix) (kind : Binding) (requirementId : String) : List String :=
  match matrix.get? requirementId with
  | some record => record.bound kind
  | none => []

def known (matrix : TraceabilityMatrix) : List String := matrix.requirements.keys

/-- No requirement disappears and nothing bound is unbound. -/
structure Grows (before after : TraceabilityMatrix) : Prop where
  known : ∀ id ∈ before.known, id ∈ after.known
  bound : ∀ kind id, before.bound kind id ⊆ after.bound kind id

/-- The same requirements with the same statements. -/
def Restated (before after : TraceabilityMatrix) : Prop :=
  ∀ id, (after.get? id).map (·.statement) = (before.get? id).map (·.statement)

/-- A known requirement that `incomplete` does not name. -/
def Complete (matrix : TraceabilityMatrix) (id : String) : Prop :=
  id ∈ matrix.known ∧ id ∉ matrix.incomplete

theorem mem_known_iff {id : String} : id ∈ matrix.known ↔ ∃ record, matrix.get? id = some record :=
  Dict.mem_keys_iff

theorem complete_iff {id : String} :
    matrix.Complete id ↔ id ∈ matrix.known ∧ ∀ kind, matrix.bound kind id ≠ [] := by
  unfold Complete
  apply and_congr_right
  intro hknown
  obtain ⟨record, hrecord⟩ := mem_known_iff.mp hknown
  have hbound (kind : Binding) : matrix.bound kind id = record.bound kind := by
    rw [bound, hrecord]
  have hincomplete : id ∈ matrix.incomplete ↔ record.isComplete = false := by
    simp only [incomplete, Text.mem_sorted, List.mem_map, List.mem_filter, Bool.not_eq_true']
    constructor
    · rintro ⟨e, ⟨he, hopen⟩, rfl⟩
      have hget := Dict.get?_eq_some_iff.mpr he
      rw [get?, hget] at hrecord
      cases hrecord
      exact hopen
    · exact fun hopen => ⟨(id, record), ⟨Dict.get?_eq_some_iff.mp hrecord, hopen⟩, rfl⟩
  rw [hincomplete, Bool.not_eq_false, RequirementRecord.isComplete_iff]
  simp only [hbound]

theorem Grows.refl (matrix : TraceabilityMatrix) : Grows matrix matrix :=
  ⟨fun _ h => h, fun _ _ => List.Subset.refl _⟩

theorem Grows.trans {mid : TraceabilityMatrix} (h : Grows before mid) (h' : Grows mid after) :
    Grows before after :=
  ⟨fun id hid => h'.known id (h.known id hid), fun kind id =>
    List.Subset.trans (h.bound kind id) (h'.bound kind id)⟩

theorem Grows.complete (h : Grows before after) {id : String} (hid : before.Complete id) :
    after.Complete id := by
  rw [complete_iff] at hid ⊢
  refine ⟨h.known id hid.1, fun kind hempty => hid.2 kind ?_⟩
  have hsub := h.bound kind id
  rw [hempty] at hsub
  exact List.subset_nil.mp hsub

theorem get?_put {record : RequirementRecord} {h : Text.blank record.requirementId = false}
    {id : String} : (matrix.put record h).get? id =
      if id = record.requirementId then some record else matrix.get? id :=
  Dict.get?_set ..

theorem get?_update {rebuild : RequirementRecord → RequirementRecord}
    {hid : ∀ record, (rebuild record).requirementId = record.requirementId} {target id : String} :
    (matrix.update rebuild hid target).get? id =
      if id = target then (matrix.get? target).map rebuild else matrix.get? id := by
  unfold update
  split
  · rename_i hnone
    split
    · rename_i heq
      rw [heq, hnone, Option.map_none]
    · rfl
  · rename_i record hrecord
    have hkey : (rebuild record).requirementId = target := by
      rw [hid]
      exact (matrix.keyed _ (Dict.get?_eq_some_iff.mp hrecord)).1
    rw [get?_put, hkey, hrecord, Option.map_some]

/-- What is bound later, at which requirement. -/
abbrev Additions := List (Binding × String × String)

/-- Exactly the additions at known requirements are new. -/
structure Adds (additions : Additions) (before after : TraceabilityMatrix) : Prop where
  known : ∀ id, id ∈ after.known ↔ id ∈ before.known
  bound : ∀ kind id v, v ∈ after.bound kind id ↔
    v ∈ before.bound kind id ∨ (id ∈ before.known ∧ (kind, id, v) ∈ additions)

theorem Adds.refl (matrix : TraceabilityMatrix) : Adds [] matrix matrix :=
  ⟨fun _ => Iff.rfl, by simp⟩

theorem Adds.trans {first second : Additions} {mid : TraceabilityMatrix}
    (h : Adds first before mid) (h' : Adds second mid after) :
    Adds (first ++ second) before after := by
  refine ⟨fun id => (h'.known id).trans (h.known id), fun kind id v => ?_⟩
  rw [h'.bound, h.bound, h.known, List.mem_append]
  tauto

theorem Adds.grows {additions : Additions} (h : Adds additions before after) :
    Grows before after :=
  ⟨fun id => (h.known id).mpr, fun kind id v hv => (h.bound kind id v).mpr (.inl hv)⟩

theorem Adds.unknown {additions : Additions} (h : Adds additions before after) {id : String}
    (hnone : before.get? id = none) : after.get? id = none := by
  have hbefore : id ∉ before.known := Dict.get?_eq_none_iff.mp hnone
  exact Dict.get?_eq_none_iff.mpr fun hmem => hbefore ((h.known id).mp hmem)

theorem adds_update {rebuild : RequirementRecord → RequirementRecord}
    {hid : ∀ record, (rebuild record).requirementId = record.requirementId} {kind : Binding}
    {value target : String}
    (hadds : ∀ record other v, v ∈ (rebuild record).bound other ↔
      v ∈ record.bound other ∨ (other = kind ∧ v = value)) :
    Adds [(kind, target, value)] matrix (matrix.update rebuild hid target) := by
  refine ⟨fun id => ?_, fun other id v => ?_⟩
  · rw [mem_known_iff, mem_known_iff, get?_update]
    split
    · rename_i heq
      rw [heq]
      simp
    · rfl
  · simp only [bound, get?_update, mem_known_iff]
    by_cases heq : id = target
    · subst heq
      rw [if_pos rfl]
      cases matrix.get? id with
      | none => simp
      | some record => simp [hadds]
    · simp [heq]

section Folds
variable {rebuild : RequirementRecord → RequirementRecord}
  {hid : ∀ record, (rebuild record).requirementId = record.requirementId}

theorem adds_foldl {kind : Binding} {value : String}
    (hadds : ∀ record other v, v ∈ (rebuild record).bound other ↔
      v ∈ record.bound other ∨ (other = kind ∧ v = value)) (ids : List String) :
    Adds (ids.map fun id => (kind, id, value)) matrix
      (ids.foldl (·.update rebuild hid) matrix) := by
  induction ids generalizing matrix with
  | nil => exact Adds.refl matrix
  | cons id rest ih => exact Adds.trans (adds_update hadds) ih

end Folds

theorem stored_update {rebuild : RequirementRecord → RequirementRecord}
    {hid : ∀ record, (rebuild record).requirementId = record.requirementId} {target : String}
    (hrebuild : ∀ record, record.Stored → (rebuild record).Stored) (h : matrix.Stored) :
    (matrix.update rebuild hid target).Stored := by
  unfold update
  split
  · exact h
  · rename_i record hrecord
    exact stored_put h (hrebuild record (h _ (Dict.get?_eq_some_iff.mp hrecord)))

theorem Restated.refl (matrix : TraceabilityMatrix) : Restated matrix matrix := fun _ => rfl

theorem Restated.trans {mid : TraceabilityMatrix} (h : Restated before mid)
    (h' : Restated mid after) : Restated before after := fun id => (h' id).trans (h id)

theorem restated_update {rebuild : RequirementRecord → RequirementRecord}
    {hid : ∀ record, (rebuild record).requirementId = record.requirementId} {target : String}
    (h : ∀ record, matrix.get? target = some record →
      (rebuild record).statement = record.statement) :
    Restated matrix (matrix.update rebuild hid target) := by
  intro id
  rw [get?_update]
  split
  · rename_i heq
    subst heq
    cases hget : matrix.get? id with
    | none => rfl
    | some record => simp [h record hget]
  · rfl

end TraceabilityMatrix

namespace DeliveryStore
variable {matrix : TraceabilityMatrix}
open TraceabilityMatrix

theorem bindImplementation_adds (requirementIds : List String) (unit : String) :
    Adds (requirementIds.map fun id => (.unit, id, unit)) matrix
      (matrix.bindImplementation requirementIds unit) :=
  adds_foldl (fun _ _ _ => RequirementRecord.mem_bound_withUnit) requirementIds

theorem bindImplementation_restated (requirementIds : List String) (unit : String) :
    Restated matrix (matrix.bindImplementation requirementIds unit) :=
  List.foldlRecOn requirementIds _ (Restated.refl matrix)
    fun _ h _ _ => h.trans (restated_update fun _ _ => rfl)

theorem bindImplementation_stored (requirementIds : List String) (unit : String)
    (h : matrix.Stored) : (matrix.bindImplementation requirementIds unit).Stored :=
  List.foldlRecOn requirementIds _ h fun _ h _ _ => stored_update (fun _ hrecord => hrecord) h

/-- The units a plan binds. -/
def planAdditions (plan : ExecutionPlan) : Additions :=
  plan.workItems.flatMap fun item => item.requirementIds.map fun id => (.unit, id, unitId item)

theorem boundPlan_adds (plan : ExecutionPlan) :
    Adds (planAdditions plan) matrix (boundPlan plan matrix) := by
  unfold boundPlan planAdditions
  generalize plan.workItems = items
  induction items generalizing matrix with
  | nil => exact Adds.refl matrix
  | cons item rest ih =>
    rw [List.flatMap_cons]
    exact Adds.trans (bindImplementation_adds item.requirementIds (unitId item)) ih

theorem boundPlan_restated (plan : ExecutionPlan) : Restated matrix (boundPlan plan matrix) :=
  List.foldlRecOn plan.workItems _ (Restated.refl matrix)
    fun _ h item _ => h.trans (bindImplementation_restated item.requirementIds (unitId item))

theorem boundPlan_stored (plan : ExecutionPlan) (h : matrix.Stored) :
    (boundPlan plan matrix).Stored :=
  List.foldlRecOn plan.workItems _ h
    fun _ h item _ => bindImplementation_stored item.requirementIds (unitId item) h

/-- Where a piece of evidence goes. -/
def evidenceKind (runtime : Bool) : Binding := if runtime then .runtime else .test

section Evidence
variable {requirementIds : List String} {evidenceId : String} {runtime : Bool}

theorem boundEvidence_adds :
    Adds (requirementIds.map fun id => (evidenceKind runtime, id, evidenceId)) matrix
      (boundEvidence requirementIds evidenceId runtime matrix) :=
  adds_foldl (fun _ _ _ => RequirementRecord.mem_bound_withEvidence) requirementIds

theorem boundEvidence_stored (h : matrix.Stored) :
    (boundEvidence requirementIds evidenceId runtime matrix).Stored :=
  List.foldlRecOn requirementIds _ h fun _ h _ _ => stored_update (fun _ _ => ⟨nofun, nofun⟩) h

/-- A named requirement is left with its bare statement. -/
theorem boundEvidence_statement {id : String} {record : RequirementRecord}
    (hrecord : matrix.get? id = some record) :
    ∃ record', (boundEvidence requirementIds evidenceId runtime matrix).get? id = some record' ∧
      record'.statement = if id ∈ requirementIds then record.bare else record.statement := by
  unfold boundEvidence
  induction requirementIds generalizing matrix record with
  | nil => exact ⟨record, hrecord, rfl⟩
  | cons first rest ih =>
    by_cases heq : id = first
    · subst heq
      have hnext : (matrix.update _ (RequirementRecord.id_withEvidence evidenceId runtime)
          id).get? id =
          some (record.withEvidence evidenceId runtime) := by
        rw [get?_update, if_pos rfl, hrecord, Option.map_some]
      obtain ⟨record', hget, hstatement⟩ := ih hnext
      refine ⟨record', hget, ?_⟩
      rw [hstatement, if_pos List.mem_cons_self]
      simp
    · have hnext : (matrix.update _ (RequirementRecord.id_withEvidence evidenceId runtime)
          first).get? id = some record := by
        rw [get?_update, if_neg heq, hrecord]
      obtain ⟨record', hget, hstatement⟩ := ih hnext
      refine ⟨record', hget, ?_⟩
      simp [hstatement, heq]

theorem boundEvidence_restated_iff :
    Restated matrix (boundEvidence requirementIds evidenceId runtime matrix) ↔
      ∀ id ∈ requirementIds, ∀ record, matrix.get? id = some record → record.Bare := by
  constructor
  · intro h id hid record hrecord
    obtain ⟨record', hget, hstatement⟩ := boundEvidence_statement hrecord
    have hsame := h id
    rw [hget, hrecord, Option.map_some, Option.map_some, hstatement, if_pos hid] at hsame
    exact (Option.some.inj hsame).symm
  · intro h id
    cases hrecord : matrix.get? id with
    | none =>
      have hnone : (boundEvidence requirementIds evidenceId runtime matrix).get? id = none :=
        boundEvidence_adds.unknown hrecord
      rw [hnone]
    | some record =>
      obtain ⟨record', hget, hstatement⟩ := boundEvidence_statement hrecord
      rw [hget, Option.map_some, Option.map_some, hstatement]
      split
      · rename_i hid
        rw [h id hid record hrecord]
      · rfl

end Evidence

/-- The last criterion that names a requirement is its record. -/
theorem registerAll_ok {criteria : List (String × String)} {matrix' : TraceabilityMatrix}
    (h : registerAll matrix criteria = .ok matrix') (id : String) :
    (id ∉ criteria.map Prod.fst → matrix'.get? id = matrix.get? id) ∧
      (id ∈ criteria.map Prod.fst → ∃ text, matrix'.get? id = some (initialRecord (id, text))) := by
  induction criteria generalizing matrix with
  | nil =>
    cases h
    exact ⟨fun _ => rfl, nofun⟩
  | cons criterion rest ih =>
    simp only [registerAll, bind_eq_ok, register_eq_ok] at h
    obtain ⟨_, ⟨hblank, rfl⟩, h⟩ := h
    obtain ⟨hout, hin⟩ := ih h
    have hkey : (initialRecord criterion).requirementId = criterion.1 := rfl
    rw [get?_put, hkey] at hout
    by_cases hmem : id ∈ rest.map Prod.fst
    · exact ⟨fun hnot => absurd (List.mem_cons_of_mem _ hmem) hnot, fun _ => hin hmem⟩
    · refine ⟨fun hnot => ?_, fun hfirst => ?_⟩
      · have hne : id ≠ criterion.1 := fun heq => hnot (heq ▸ List.mem_cons_self)
        rw [hout hmem, if_neg hne]
      · have heq : id = criterion.1 := (List.mem_cons.mp hfirst).resolve_right hmem
        subst heq
        exact ⟨criterion.2, by rw [hout hmem, if_pos rfl]⟩

theorem registerAll_stored {criteria : List (String × String)} {matrix' : TraceabilityMatrix}
    (h : registerAll matrix criteria = .ok matrix') (hstored : matrix.Stored) :
    matrix'.Stored := by
  induction criteria generalizing matrix with
  | nil =>
    cases h
    exact hstored
  | cons criterion rest ih =>
    simp only [registerAll, bind_eq_ok, register_eq_ok] at h
    obtain ⟨_, ⟨hblank, rfl⟩, h⟩ := h
    exact ih h (stored_put hstored ⟨(Option.some_ne_none _).symm, (Option.some_ne_none _).symm⟩)

/-- A document leaves what is bound only where nothing is bound yet. -/
theorem registerAll_grows_iff {criteria : List (String × String)} {matrix' : TraceabilityMatrix}
    (h : registerAll matrix criteria = .ok matrix') :
    Grows matrix matrix' ↔ ∀ id ∈ criteria.map Prod.fst, ∀ kind, matrix.bound kind id = [] := by
  have hfresh (id : String) (hid : id ∈ criteria.map Prod.fst) (kind : Binding) :
      matrix'.bound kind id = [] := by
    obtain ⟨text, htext⟩ := (registerAll_ok h id).2 hid
    rw [bound, htext]
    cases kind <;> rfl
  constructor
  · intro hgrows id hid kind
    have hsub := hgrows.bound kind id
    rw [hfresh id hid kind] at hsub
    exact List.subset_nil.mp hsub
  · intro hempty
    refine ⟨fun id hid => ?_, fun kind id => ?_⟩
    · rw [mem_known_iff] at hid ⊢
      by_cases hmem : id ∈ criteria.map Prod.fst
      · obtain ⟨text, htext⟩ := (registerAll_ok h id).2 hmem
        exact ⟨_, htext⟩
      · rwa [(registerAll_ok h id).1 hmem]
    · by_cases hmem : id ∈ criteria.map Prod.fst
      · rw [hempty id hmem kind]
        exact List.nil_subset _
      · rw [bound, bound, (registerAll_ok h id).1 hmem]
        exact List.Subset.refl _

end DeliveryStore

inductive StoreOperation where
  | initializeFromMarkdown (content : String)
  | bindPlan (plan : ExecutionPlan)
  | bindEvidence (requirementIds : List String) (evidenceId : String) (runtime : Bool)

namespace StoreOperation
open DeliveryStore TraceabilityMatrix

def run : StoreOperation → MatrixFile → Result MatrixFile
  | initializeFromMarkdown content => DeliveryStore.initializeFromMarkdown content
  | bindPlan plan => DeliveryStore.bindPlan plan
  | bindEvidence requirementIds evidenceId runtime =>
      DeliveryStore.bindEvidence requirementIds evidenceId runtime

/-- The matrix after an operation grew, and a binding kept every statement. -/
def Lawful : StoreOperation → TraceabilityMatrix → TraceabilityMatrix → Prop
  | initializeFromMarkdown _, before, after => Grows before after
  | bindPlan _, before, after => Grows before after ∧ Restated before after
  | bindEvidence _ _ _, before, after => Grows before after ∧ Restated before after

/-- Nothing is bound yet to the requirements a document states, and the fields
that evidence does not copy are unset. -/
def Preserving : StoreOperation → TraceabilityMatrix → Prop
  | initializeFromMarkdown content, matrix =>
      ∀ id ∈ (acceptanceCriteria content).map Prod.fst, ∀ kind, matrix.bound kind id = []
  | bindPlan _, _ => True
  | bindEvidence requirementIds _ _, matrix =>
      ∀ id ∈ requirementIds, ∀ record, matrix.get? id = some record → record.Bare

variable {op : StoreOperation} {file file' : MatrixFile} {matrix : TraceabilityMatrix}

theorem bindPlan_ok {plan : ExecutionPlan} (hload : loadMatrix file = .ok matrix)
    (h : DeliveryStore.bindPlan plan file = .ok file') :
    ∃ matrix', loadMatrix file' = .ok matrix' ∧ Adds (planAdditions plan) matrix matrix' ∧
      Restated matrix matrix' := by
  simp only [DeliveryStore.bindPlan, hload, ok_bind] at h
  cases h
  exact ⟨_, loadMatrix_saveMatrix (boundPlan_stored plan (stored_loadMatrix hload)),
    boundPlan_adds plan, boundPlan_restated plan⟩

theorem bindEvidence_ok {requirementIds : List String} {evidenceId : String} {runtime : Bool}
    (hload : loadMatrix file = .ok matrix)
    (h : DeliveryStore.bindEvidence requirementIds evidenceId runtime file = .ok file') :
    ∃ matrix', loadMatrix file' = .ok matrix' ∧
      Adds (requirementIds.map fun id => (evidenceKind runtime, id, evidenceId)) matrix matrix' ∧
      (Restated matrix matrix' ↔
        ∀ id ∈ requirementIds, ∀ record, matrix.get? id = some record → record.Bare) := by
  simp only [DeliveryStore.bindEvidence, hload, ok_bind] at h
  cases h
  exact ⟨_, loadMatrix_saveMatrix (boundEvidence_stored (stored_loadMatrix hload)),
    boundEvidence_adds, boundEvidence_restated_iff⟩

/-- One operation: what it leaves is loaded again, and it is lawful exactly when
it is preserving. -/
theorem run_ok (hload : loadMatrix file = .ok matrix) (h : op.run file = .ok file') :
    ∃ matrix', loadMatrix file' = .ok matrix' ∧ (op.Lawful matrix matrix' ↔ op.Preserving matrix) := by
  cases op with
  | initializeFromMarkdown content =>
    simp only [run, DeliveryStore.initializeFromMarkdown, hload, ok_bind, bind_eq_ok] at h
    obtain ⟨matrix', hmatrix', h⟩ := h
    cases h
    exact ⟨matrix', loadMatrix_saveMatrix (registerAll_stored hmatrix' (stored_loadMatrix hload)),
      registerAll_grows_iff hmatrix'⟩
  | bindPlan plan =>
    obtain ⟨_, hplan, hadds, hrestated⟩ := bindPlan_ok hload h
    exact ⟨_, hplan, fun _ => trivial, fun _ => ⟨hadds.grows, hrestated⟩⟩
  | bindEvidence requirementIds evidenceId runtime =>
    obtain ⟨_, hevidence, hadds, hrestated⟩ := bindEvidence_ok hload h
    exact ⟨_, hevidence, (and_iff_right hadds.grows).trans hrestated⟩

/-- The files that permitted operations lead to, in any order; one that raises
writes nothing. -/
inductive Run (permitted : StoreOperation → TraceabilityMatrix → Prop) (start : MatrixFile) :
    MatrixFile → Prop where
  | start : Run permitted start start
  | step {file file' : MatrixFile} {op : StoreOperation} {matrix : TraceabilityMatrix}
      (previous : Run permitted start file) (hload : loadMatrix file = .ok matrix)
      (allowed : permitted op matrix) (next : op.run file = .ok file') : Run permitted start file'

theorem Lawful.grows {matrix' : TraceabilityMatrix} (h : op.Lawful matrix matrix') :
    Grows matrix matrix' := by
  cases op with
  | initializeFromMarkdown => exact h
  | bindPlan => exact h.1
  | bindEvidence => exact h.1

/-- Along preserving operations traceability only grows, a complete requirement
stays complete, and the next operation is lawful exactly when it is preserving. -/
theorem run_grows {start file : MatrixFile} {first : TraceabilityMatrix}
    (hstart : loadMatrix start = .ok first) (h : Run Preserving start file) :
    ∃ matrix, loadMatrix file = .ok matrix ∧ Grows first matrix ∧
      (∀ id, first.Complete id → matrix.Complete id) ∧
      ∀ (op : StoreOperation) file', op.run file = .ok file' → ∃ matrix', loadMatrix file' = .ok matrix' ∧
        (op.Lawful matrix matrix' ↔ op.Preserving matrix) := by
  suffices hgrows : ∃ matrix, loadMatrix file = .ok matrix ∧ Grows first matrix by
    obtain ⟨matrix, hload, hgrows⟩ := hgrows
    exact ⟨matrix, hload, hgrows, fun id => hgrows.complete, fun op file' => run_ok hload⟩
  induction h with
  | start => exact ⟨first, hstart, Grows.refl first⟩
  | step _ hload hallowed hnext ih =>
    obtain ⟨matrix, hmatrix, hgrows⟩ := ih
    cases hload.symm.trans hmatrix
    obtain ⟨matrix', hload', hiff⟩ := run_ok hload hnext
    exact ⟨matrix', hload', hgrows.trans (Lawful.grows (hiff.mpr hallowed))⟩

def criterionRecord : RequirementRecord := initialRecord ("AC-1", "x")

def criterionMatrix : TraceabilityMatrix :=
  TraceabilityMatrix.empty.put criterionRecord (by decide)

def testedMatrix : TraceabilityMatrix := boundEvidence ["AC-1"] "ev-1" false criterionMatrix

theorem criterionMatrix_stored : criterionMatrix.Stored :=
  stored_put stored_empty ⟨nofun, nofun⟩

theorem criterionMatrix_initialized :
    (initializeFromMarkdown "AC-1: x").run none = .ok (saveMatrix criterionMatrix) := by
  have hcriteria : acceptanceCriteria "AC-1: x" = [("AC-1", "x")] := by decide
  simp only [run, DeliveryStore.initializeFromMarkdown, loadMatrix, ok_bind, hcriteria, registerAll]
  rw [register_eq_ok.mpr ⟨rfl, rfl⟩]
  rfl

theorem testedMatrix_bound :
    (bindEvidence ["AC-1"] "ev-1" false).run (saveMatrix criterionMatrix) =
      .ok (saveMatrix testedMatrix) := by
  simp only [run, DeliveryStore.bindEvidence, loadMatrix_saveMatrix criterionMatrix_stored, ok_bind]
  rfl

def prioritisedRecord : RequirementRecord := { criterionRecord with priority := "should" }

def prioritisedMatrix : TraceabilityMatrix :=
  TraceabilityMatrix.empty.put prioritisedRecord (by decide)

theorem prioritisedMatrix_stored : prioritisedMatrix.Stored :=
  stored_put stored_empty ⟨nofun, nofun⟩

/-- A document is read, a test passes and the document is read again: the evidence
is gone. And a test that passes resets a priority. -/
theorem store_is_not_lawful :
    (∃ file matrix file' matrix', Run (fun _ _ => True) none file ∧
      loadMatrix file = .ok matrix ∧ (initializeFromMarkdown "AC-1: x").run file = .ok file' ∧
      loadMatrix file' = .ok matrix' ∧ ¬ Grows matrix matrix') ∧
    ∃ file matrix file' matrix', loadMatrix file = .ok matrix ∧
      (bindEvidence ["AC-1"] "ev-1" false).run file = .ok file' ∧
      loadMatrix file' = .ok matrix' ∧ ¬ Restated matrix matrix' := by
  constructor
  · have hcriteria : acceptanceCriteria "AC-1: x" = [("AC-1", "x")] := by decide
    have hload : loadMatrix (saveMatrix testedMatrix) = .ok testedMatrix :=
      loadMatrix_saveMatrix (boundEvidence_stored criterionMatrix_stored)
    have hnext : (initializeFromMarkdown "AC-1: x").run (saveMatrix testedMatrix) =
        .ok (saveMatrix (testedMatrix.put criterionRecord (by decide))) := by
      simp only [run, DeliveryStore.initializeFromMarkdown, hload, ok_bind, hcriteria, registerAll]
      rw [register_eq_ok.mpr ⟨rfl, rfl⟩]
      rfl
    obtain ⟨matrix', hload', hiff⟩ := run_ok hload hnext
    refine ⟨_, _, _, matrix', .step (.step .start rfl trivial criterionMatrix_initialized)
      (loadMatrix_saveMatrix criterionMatrix_stored) trivial testedMatrix_bound, hload, hnext,
      hload', fun hgrows => ?_⟩
    have hunbound := hiff.mp hgrows "AC-1" (by rw [hcriteria]; decide) .test
    revert hunbound
    decide
  · have hload : loadMatrix (saveMatrix prioritisedMatrix) = .ok prioritisedMatrix :=
      loadMatrix_saveMatrix prioritisedMatrix_stored
    have hnext : (bindEvidence ["AC-1"] "ev-1" false).run (saveMatrix prioritisedMatrix) =
        .ok (saveMatrix (boundEvidence ["AC-1"] "ev-1" false prioritisedMatrix)) := by
      simp only [run, DeliveryStore.bindEvidence, hload, ok_bind]
    refine ⟨_, _, _, _, hload, hnext, loadMatrix_saveMatrix
      (boundEvidence_stored prioritisedMatrix_stored), fun hrestated => ?_⟩
    have hbare := boundEvidence_restated_iff.mp hrestated "AC-1" (List.mem_singleton_self _)
      prioritisedRecord rfl
    revert hbare
    decide

/-- The first reading of a document and a first binding are preserving. -/
theorem testedMatrix_grown : ∃ matrix, loadMatrix (saveMatrix testedMatrix) = .ok matrix ∧
    Grows .empty matrix ∧ (∀ id, TraceabilityMatrix.empty.Complete id → matrix.Complete id) ∧
      ∀ (op : StoreOperation) file', op.run (saveMatrix testedMatrix) = .ok file' →
        ∃ matrix', loadMatrix file' = .ok matrix' ∧
          (op.Lawful matrix matrix' ↔ op.Preserving matrix) := by
  have hbare : Preserving (bindEvidence ["AC-1"] "ev-1" false) criterionMatrix := by
    intro id hid record hrecord
    cases List.mem_singleton.mp hid
    cases hrecord
    rfl
  have hinitial : Preserving (initializeFromMarkdown "AC-1: x") TraceabilityMatrix.empty :=
    fun _ _ kind => by cases kind <;> rfl
  exact run_grows (rfl : loadMatrix none = .ok .empty) (.step (.step .start rfl hinitial
    criterionMatrix_initialized) (loadMatrix_saveMatrix criterionMatrix_stored) hbare
    testedMatrix_bound)

end StoreOperation
end ProjectOS.Orchestration
