import ProjectOS.Orchestration.SchemaEvolution
import Mathlib.Tactic.SplitIfs

/-! What a schema accepts, and whether the comparison of two registries reports
every tightening of it. -/
namespace ProjectOS.Orchestration
open Base SchemaComparator

/-- What a schema looks at: the type of a value and, of a string, its length. -/
structure Value where
  type : FieldType
  length : Nat

abbrev Record := String → Option Value

def FieldSchema.allowsLength (field : FieldSchema) (length : Nat) : Prop :=
  (∀ bound, field.minLength = some bound → bound ≤ length) ∧
    ∀ bound, field.maxLength = some bound → (length : Int) ≤ bound

def FieldSchema.accepts (field : FieldSchema) : Option Value → Prop
  | none => field.optional = true
  | some value =>
      value.type = field.type ∧ (field.type = .string → field.allowsLength value.length)

namespace ModelSchema

def accepts (model : ModelSchema) (record : Record) : Prop :=
  ∀ field ∈ model.fields, field.accepts (record field.name)

/-- Fields the model does not declare are treated as absent. -/
def restrict (model : ModelSchema) (record : Record) : Record :=
  fun name => if (model.getField name).isSome then record name else none

def acceptsAt (model : ModelSchema) (fieldName : String) (value : Option Value) : Prop :=
  match model.getField fieldName with
  | some field => field.accepts value
  | none => value = none

theorem getField_eq_some_iff {model : ModelSchema} {fieldName : String} {field : FieldSchema} :
    model.getField fieldName = some field ↔ field ∈ model.fields ∧ field.name = fieldName :=
  find?_eq_some_iff_of_nodup model.unique fun _ => decide_eq_true_iff

end ModelSchema

theorem SchemaRegistry.getModel_eq_some_iff {registry : SchemaRegistry} {name : String}
    {model : ModelSchema} :
    registry.getModel name = some model ↔ model ∈ registry.models ∧ model.name = name :=
  find?_eq_some_iff_of_nodup registry.unique fun _ => decide_eq_true_iff

namespace SchemaComparator

/-- The new field refuses a value that the old model allows under its name. -/
def Tightened (oldModel : ModelSchema) (newField : FieldSchema) : Prop :=
  ∃ value, oldModel.acceptsAt newField.name value ∧ ¬ newField.accepts value

/-- A breaking change names the field. -/
def Reported (changes : List SchemaChange) (modelName fieldName : String) : Prop :=
  ∃ change ∈ changes, change.isBreaking = true ∧ change.modelName = modelName ∧
    change.fieldName = some fieldName

/-- Every tightening is classified as breaking, a lost model included. -/
structure Classified (oldRegistry newRegistry : SchemaRegistry) : Prop where
  removed : ∀ oldModel ∈ oldRegistry.models, newRegistry.getModel oldModel.name = none →
    ∃ change ∈ compareRegistries oldRegistry newRegistry, change.isBreaking = true ∧
      change.modelName = oldModel.name
  tightened : ∀ oldModel ∈ oldRegistry.models, ∀ newModel,
    newRegistry.getModel oldModel.name = some newModel → ∀ newField ∈ newModel.fields,
      Tightened oldModel newField →
        Reported (compareRegistries oldRegistry newRegistry) oldModel.name newField.name

/-- Without a breaking change every old record is a new one. -/
def Sound (oldRegistry newRegistry : SchemaRegistry) : Prop :=
  hasBreakingChanges (compareRegistries oldRegistry newRegistry) = false →
    ∀ oldModel ∈ oldRegistry.models, ∀ record, oldModel.accepts record →
      ∃ newModel, newRegistry.getModel oldModel.name = some newModel ∧
        newModel.accepts (oldModel.restrict record)

/-- A bound that both fields have, neither of them zero, is narrowed. -/
def NarrowsPresent (oldField newField : FieldSchema) : Prop :=
  (∃ old new, oldField.maxLength = some old ∧ newField.maxLength = some new ∧ old ≠ 0 ∧ new ≠ 0 ∧
    new < old) ∨
  ∃ old new, oldField.minLength = some old ∧ newField.minLength = some new ∧ old ≠ 0 ∧ new ≠ 0 ∧
    old < new

/-- Where a string field stays one and is not made required, a length that is no
longer allowed shows in a bound both fields have. -/
def BoundsPresent (oldRegistry newRegistry : SchemaRegistry) : Prop :=
  ∀ oldModel ∈ oldRegistry.models, ∀ newModel,
    newRegistry.getModel oldModel.name = some newModel → ∀ oldField ∈ oldModel.fields, ∀ newField,
      newModel.getField oldField.name = some newField →
        oldField.type = .string → newField.type = .string →
        (oldField.optional = true → newField.optional = true) →
        (∃ length, oldField.allowsLength length ∧ ¬ newField.allowsLength length) →
        NarrowsPresent oldField newField

theorem lowered_iff {new old : Option Int} :
    lowered new old = true ↔ ∃ o n, old = some o ∧ new = some n ∧ o ≠ 0 ∧ n ≠ 0 ∧ n < o := by
  unfold lowered
  split
  · simp
    tauto
  · rename_i hnone
    simp only [Bool.false_eq_true, false_iff, not_exists, not_and]
    intro o n ho hn
    exact absurd ho (hnone n o hn)

theorem lowered_self (bound : Option Int) : lowered bound bound = false := by
  rw [Bool.eq_false_iff]
  intro h
  obtain ⟨o, n, ho, hn, -, -, hlt⟩ := lowered_iff.mp h
  cases ho.symm.trans hn
  omega

theorem narrowsPresent_iff {oldField newField : FieldSchema} :
    NarrowsPresent oldField newField ↔ lowered newField.maxLength oldField.maxLength = true ∨
      lowered oldField.minLength newField.minLength = true := by
  rw [lowered_iff, lowered_iff, NarrowsPresent]
  apply or_congr_right
  constructor
  · rintro ⟨o, n, ho, hn, ho0, hn0, hlt⟩
    exact ⟨n, o, hn, ho, hn0, ho0, hlt⟩
  · rintro ⟨n, o, hn, ho, hn0, ho0, hlt⟩
    exact ⟨o, n, ho, hn, ho0, hn0, hlt⟩

/-- What the breaking changes of a field report. -/
theorem breaking_compareFields_iff {modelName : String} {oldField newField : FieldSchema} :
    (∃ change ∈ compareFields modelName oldField newField, change.isBreaking = true) ↔
      oldField.type ≠ newField.type ∨ (oldField.optional = true ∧ newField.optional = false) ∨
        NarrowsPresent oldField newField := by
  have htype : (∃ c ∈ typeChanges modelName oldField newField, c.isBreaking = true) ↔
      oldField.type ≠ newField.type := by
    unfold typeChanges
    split_ifs with h <;> simp [h, SchemaChange.isBreaking]
  have hoptional : (∃ c ∈ optionalChanges modelName oldField newField, c.isBreaking = true) ↔
      oldField.optional = true ∧ newField.optional = false := by
    unfold optionalChanges levelOf
    cases oldField.optional <;> cases newField.optional <;> simp [SchemaChange.isBreaking]
  have hconstraint : (∃ c ∈ constraintChanges modelName oldField newField, c.isBreaking = true) ↔
      NarrowsPresent oldField newField := by
    rw [narrowsPresent_iff]
    have hsame (h : ¬ (oldField.maxLength ≠ newField.maxLength ∨
        oldField.minLength ≠ newField.minLength)) :
        ¬ (lowered newField.maxLength oldField.maxLength = true ∨
          lowered oldField.minLength newField.minLength = true) := by
      simp only [not_or, not_not] at h
      rw [h.1, h.2]
      simp [lowered_self]
    unfold constraintChanges
    split_ifs with hchanged
    · cases lowered newField.maxLength oldField.maxLength <;>
        cases lowered oldField.minLength newField.minLength <;>
        simp [SchemaChange.isBreaking, levelOf]
    · simp [hsame hchanged]
  simp only [compareFields, List.mem_append, or_and_right, exists_or, htype, hoptional,
    hconstraint, or_assoc]

theorem compareFields_names {modelName : String} {oldField newField : FieldSchema}
    {change : SchemaChange} (h : change ∈ compareFields modelName oldField newField) :
    change.modelName = modelName ∧ change.fieldName = some oldField.name := by
  simp only [compareFields, List.mem_append, typeChanges, optionalChanges, constraintChanges] at h
  rcases h with (h | h) | h <;>
  · split at h
    · cases List.mem_singleton.mp h
      exact ⟨rfl, rfl⟩
    · cases h

section Models
variable {oldModel newModel : ModelSchema} {change : SchemaChange}

theorem mem_compareModels :
    change ∈ compareModels oldModel newModel ↔
      (∃ f ∈ newModel.fields, oldModel.getField f.name = none ∧
        change = fieldAdded oldModel.name f) ∨
      (∃ f ∈ oldModel.fields, newModel.getField f.name = none ∧
        change = fieldRemoved oldModel.name f) ∨
      ∃ f ∈ oldModel.fields, ∃ g, newModel.getField f.name = some g ∧
        change ∈ compareFields oldModel.name f g := by
  simp only [compareModels, List.mem_append, List.mem_map, List.mem_filter, List.mem_flatMap,
    Option.mem_toList, Option.isNone_iff_eq_none, or_assoc, and_assoc]
  simp only [@eq_comm _ _ change]

theorem compareModels_modelName (h : change ∈ compareModels oldModel newModel) :
    change.modelName = oldModel.name := by
  rcases mem_compareModels.mp h with ⟨_, _, _, rfl⟩ | ⟨_, _, _, rfl⟩ | ⟨f, _, g, _, hchange⟩
  · rfl
  · rfl
  · exact (compareFields_names hchange).1

/-- The breaking changes that name a field the new model has. -/
theorem reported_compareModels_iff {newField : FieldSchema} (hfield : newField ∈ newModel.fields) :
    (∃ change ∈ compareModels oldModel newModel, change.isBreaking = true ∧
      change.fieldName = some newField.name) ↔
    (oldModel.getField newField.name = none ∧ newField.optional = false) ∨
      ∃ oldField, oldModel.getField newField.name = some oldField ∧
        ∃ change ∈ compareFields oldModel.name oldField newField, change.isBreaking = true := by
  have hget : newModel.getField newField.name = some newField :=
    ModelSchema.getField_eq_some_iff.mpr ⟨hfield, rfl⟩
  constructor
  · rintro ⟨change, hmem, hbreaking, hname⟩
    rcases mem_compareModels.mp hmem with ⟨f, hf, hnone, rfl⟩ | ⟨f, _, hnone, rfl⟩ |
      ⟨f, hf, g, hg, hchange⟩
    · cases List.inj_on_of_nodup_map newModel.unique hf hfield (Option.some.inj hname)
      refine .inl ⟨hnone, ?_⟩
      simpa [fieldAdded, SchemaChange.isBreaking, levelOf] using hbreaking
    · have hsame : f.name = newField.name := Option.some.inj hname
      rw [hsame, hget] at hnone
      cases hnone
    · have hsame : f.name = newField.name :=
        Option.some.inj ((compareFields_names hchange).2.symm.trans hname)
      rw [hsame, hget] at hg
      cases hg
      exact .inr ⟨f, ModelSchema.getField_eq_some_iff.mpr ⟨hf, hsame⟩, change, hchange, hbreaking⟩
  · rintro (⟨hnone, hrequired⟩ | ⟨f, hf, change, hchange, hbreaking⟩)
    · refine ⟨_, mem_compareModels.mpr (.inl ⟨newField, hfield, hnone, rfl⟩), ?_, rfl⟩
      simp [fieldAdded, SchemaChange.isBreaking, levelOf, hrequired]
    · obtain ⟨hmem, hsame⟩ := ModelSchema.getField_eq_some_iff.mp hf
      refine ⟨change, mem_compareModels.mpr (.inr (.inr ⟨f, hmem, newField, ?_, hchange⟩)),
        hbreaking, ?_⟩
      · rw [hsame, hget]
      · rw [(compareFields_names hchange).2, hsame]

end Models

section Registries
variable {oldRegistry newRegistry : SchemaRegistry} {change : SchemaChange}

theorem mem_compareRegistries :
    change ∈ compareRegistries oldRegistry newRegistry ↔
      (∃ m ∈ newRegistry.models, oldRegistry.getModel m.name = none ∧ change = modelAdded m) ∨
      (∃ m ∈ oldRegistry.models, newRegistry.getModel m.name = none ∧ change = modelRemoved m) ∨
      ∃ m ∈ oldRegistry.models, ∃ n, newRegistry.getModel m.name = some n ∧
        change ∈ compareModels m n := by
  simp only [compareRegistries, List.mem_append, List.mem_map, List.mem_filter, List.mem_flatMap,
    Option.mem_toList, Option.isNone_iff_eq_none, or_assoc, and_assoc]
  simp only [@eq_comm _ _ change]

/-- A field of a common model is reported by the comparison of that model. -/
theorem reported_iff {oldModel newModel : ModelSchema} {fieldName : String}
    (hold : oldModel ∈ oldRegistry.models)
    (hnew : newRegistry.getModel oldModel.name = some newModel) :
    Reported (compareRegistries oldRegistry newRegistry) oldModel.name fieldName ↔
      ∃ change ∈ compareModels oldModel newModel, change.isBreaking = true ∧
        change.fieldName = some fieldName := by
  constructor
  · rintro ⟨change, hmem, hbreaking, hmodel, hfield⟩
    rcases mem_compareRegistries.mp hmem with ⟨_, _, _, rfl⟩ | ⟨_, _, _, rfl⟩ |
      ⟨m, hm, n, hn, hchange⟩
    · cases hfield
    · cases hfield
    · cases List.inj_on_of_nodup_map oldRegistry.unique hm hold
        ((compareModels_modelName hchange).symm.trans hmodel)
      cases hn.symm.trans hnew
      exact ⟨change, hchange, hbreaking, hfield⟩
  · rintro ⟨change, hchange, hbreaking, hfield⟩
    exact ⟨change, mem_compareRegistries.mpr (.inr (.inr ⟨oldModel, hold, newModel, hnew, hchange⟩)),
      hbreaking, compareModels_modelName hchange, hfield⟩

/-- A field is tightened where it is new and required, changes its type, becomes
required or refuses a length. -/
theorem tightened_iff {oldModel : ModelSchema} {newField : FieldSchema} :
    Tightened oldModel newField ↔
      (oldModel.getField newField.name = none ∧ newField.optional = false) ∨
      ∃ oldField, oldModel.getField newField.name = some oldField ∧
        ∃ value, oldField.accepts value ∧ ¬ newField.accepts value := by
  unfold Tightened ModelSchema.acceptsAt
  cases oldModel.getField newField.name with
  | none => simp [FieldSchema.accepts]
  | some oldField => simp

/-- The length aside, a tightened field changed its type or became required. -/
theorem tightened_field_cases {oldField newField : FieldSchema}
    (h : ∃ value, oldField.accepts value ∧ ¬ newField.accepts value) :
    oldField.type ≠ newField.type ∨ (oldField.optional = true ∧ newField.optional = false) ∨
      (oldField.type = .string ∧ newField.type = .string ∧
        ∃ length, oldField.allowsLength length ∧ ¬ newField.allowsLength length) := by
  obtain ⟨value, hold, hnew⟩ := h
  cases value with
  | none => exact .inr (.inl ⟨hold, by simpa [FieldSchema.accepts] using hnew⟩)
  | some value =>
    by_cases htype : oldField.type = newField.type
    · simp only [FieldSchema.accepts, not_and, Classical.not_imp] at hold hnew
      obtain ⟨hstring, hlength⟩ := hnew (hold.1.trans htype)
      exact .inr (.inr ⟨htype.trans hstring, hstring, value.length,
        hold.2 (htype.trans hstring), hlength⟩)
    · exact .inl htype

theorem classified_of_boundsPresent (h : BoundsPresent oldRegistry newRegistry) :
    Classified oldRegistry newRegistry := by
  refine ⟨fun oldModel hold hnone => ?_, fun oldModel hold newModel hnew g hg htight => ?_⟩
  · exact ⟨modelRemoved oldModel, mem_compareRegistries.mpr (.inr (.inl ⟨_, hold, hnone, rfl⟩)),
      rfl, rfl⟩
  · rw [reported_iff hold hnew, reported_compareModels_iff hg]
    rcases tightened_iff.mp htight with hadded | ⟨f, hf, hvalue⟩
    · exact .inl hadded
    · refine .inr ⟨f, hf, breaking_compareFields_iff.mpr ?_⟩
      obtain ⟨hmem, hname⟩ := ModelSchema.getField_eq_some_iff.mp hf
      rcases tightened_field_cases hvalue with htype | hrequired | ⟨hfstring, hgstring, hlength⟩
      · exact .inl htype
      · exact .inr (.inl hrequired)
      · by_cases hrequired : f.optional = true ∧ g.optional = false
        · exact .inr (.inl hrequired)
        · refine .inr (.inr (h oldModel hold newModel hnew f hmem g ?_ hfstring hgstring ?_ hlength))
          · exact ModelSchema.getField_eq_some_iff.mpr ⟨hg, hname.symm⟩
          · intro hoptional
            by_contra hnot
            exact hrequired ⟨hoptional, by simpa using hnot⟩

theorem boundsPresent_of_classified (h : Classified oldRegistry newRegistry) :
    BoundsPresent oldRegistry newRegistry := by
  intro oldModel hold newModel hnew f hf g hget hfstring hgstring hoptional ⟨length, hallow, hrefuse⟩
  obtain ⟨hg, hname⟩ := ModelSchema.getField_eq_some_iff.mp hget
  have hfget : oldModel.getField g.name = some f :=
    ModelSchema.getField_eq_some_iff.mpr ⟨hf, hname.symm⟩
  have htight : Tightened oldModel g := by
    refine tightened_iff.mpr (.inr ⟨f, hfget, some ⟨.string, length⟩, ?_, ?_⟩)
    · exact ⟨hfstring.symm, fun _ => hallow⟩
    · exact fun haccepts => hrefuse (haccepts.2 hgstring)
  have hreported := h.tightened oldModel hold newModel hnew g hg htight
  rw [reported_iff hold hnew, reported_compareModels_iff hg, hfget] at hreported
  rcases hreported with ⟨hnone, -⟩ | ⟨other, hother, hbreaking⟩
  · cases hnone
  · cases hother
    rcases breaking_compareFields_iff.mp hbreaking with htype | hrequired | hnarrows
    · exact absurd (hfstring.trans hgstring.symm) htype
    · rw [hoptional hrequired.1] at hrequired
      cases hrequired.2
    · exact hnarrows

/-- With every tightening classified, a comparison without a breaking change is sound. -/
theorem sound_of_classified (h : Classified oldRegistry newRegistry) :
    Sound oldRegistry newRegistry := by
  intro hsafe oldModel hold record haccepts
  have hnone (change : SchemaChange) (hmem : change ∈ compareRegistries oldRegistry newRegistry) :
      change.isBreaking ≠ true := List.any_eq_false.mp hsafe change hmem
  cases hnew : newRegistry.getModel oldModel.name with
  | none =>
    obtain ⟨change, hmem, hbreaking, -⟩ := h.removed oldModel hold hnew
    exact absurd hbreaking (hnone change hmem)
  | some newModel =>
    refine ⟨newModel, rfl, fun g hg => ?_⟩
    by_contra hrefuse
    have htight : Tightened oldModel g := by
      refine ⟨oldModel.restrict record g.name, ?_, hrefuse⟩
      unfold ModelSchema.acceptsAt ModelSchema.restrict
      cases hget : oldModel.getField g.name with
      | none => simp
      | some f =>
        obtain ⟨hf, hname⟩ := ModelSchema.getField_eq_some_iff.mp hget
        simpa [hname] using haccepts f hf
    obtain ⟨change, hmem, hbreaking, -⟩ := h.tightened oldModel hold newModel hnew g hg htight
    exact hnone change hmem hbreaking

/-- The comparison classifies every tightening, and is therefore sound, exactly
when no length bound is tightened only by appearing or by being zero. -/
theorem comparison_sound_iff :
    (Classified oldRegistry newRegistry ∧ Sound oldRegistry newRegistry) ↔
      BoundsPresent oldRegistry newRegistry :=
  ⟨fun h => boundsPresent_of_classified h.1, fun h =>
    ⟨classified_of_boundsPresent h, sound_of_classified (classified_of_boundsPresent h)⟩⟩

end Registries

def titledModel (maxLength : Option Int) : ModelSchema where
  name := "Task"
  fields := [{ name := "title", type := .string, maxLength := maxLength }]
  phase := "architecture"
  unique := by simp

def titledRegistry (maxLength : Option Int) : SchemaRegistry where
  models := [titledModel maxLength]
  unique := by simp

/-- A maximal length appears: no change is breaking, yet a longer title is refused. -/
theorem new_maximum_is_not_breaking : ¬ Sound (titledRegistry none) (titledRegistry (some 3)) := by
  intro hsound
  have htitle : (titledModel none).accepts fun _ => some ⟨.string, 4⟩ := by
    intro field hfield
    cases List.mem_singleton.mp hfield
    exact ⟨rfl, fun _ => ⟨nofun, nofun⟩⟩
  obtain ⟨newModel, hnew, haccepts⟩ := hsound (by decide) _ (List.mem_singleton_self _) _ htitle
  cases hnew
  have hlength := (haccepts _ (List.mem_singleton_self _)).2 rfl
  exact absurd (hlength.2 3 rfl) (by decide)

end SchemaComparator

namespace SchemaEvolutionManager
variable {fromVersion toVersion : SchemaVersion} {safe : Bool} {warnings : List String}

/-- An upgrade is called safe when no change is breaking. -/
theorem upgrade_safe_iff (h : validateUpgradePath fromVersion toVersion = .ok (safe, warnings)) :
    safe = true ↔
      hasBreakingChanges (compareRegistries fromVersion.registry toVersion.registry) = false := by
  simp only [validateUpgradePath, bind_eq_ok] at h
  obtain ⟨_, -, h⟩ := h
  cases h
  simp [hasBreakingChanges]

/-- A safe upgrade between registries whose tightenings show keeps every record. -/
theorem safe_upgrade_keeps_records
    (h : validateUpgradePath fromVersion toVersion = .ok (true, warnings))
    (hbounds : BoundsPresent fromVersion.registry toVersion.registry) {oldModel : ModelSchema}
    (hold : oldModel ∈ fromVersion.registry.models) {record : Record}
    (haccepts : oldModel.accepts record) :
    ∃ newModel, toVersion.registry.getModel oldModel.name = some newModel ∧
      newModel.accepts (oldModel.restrict record) :=
  sound_of_classified (classified_of_boundsPresent hbounds) ((upgrade_safe_iff h).mp rfl) oldModel
    hold record haccepts

end SchemaEvolutionManager
end ProjectOS.Orchestration
