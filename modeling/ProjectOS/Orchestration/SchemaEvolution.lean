import ProjectOS.Error

/-! The schema registry of a project and the comparison of two registries. Every
difference becomes a change with a compatibility level. -/
namespace ProjectOS.Orchestration
open Base

inductive FieldType where
  | string
  | integer
  | float
  | boolean
  | datetime
  | date
  | uuid
  | json
deriving DecidableEq, Repr

def FieldType.value : FieldType → String
  | string => "string"
  | integer => "integer"
  | float => "float"
  | boolean => "boolean"
  | datetime => "datetime"
  | date => "date"
  | uuid => "uuid"
  | json => "json"

/-- One field of a model; its name is not blank. -/
structure FieldSchema where
  name : String
  type : FieldType
  optional : Bool := false
  maxLength : Option Int := none
  minLength : Option Int := none
  named : Text.blank name = false := by decide

/-- A model; its field names are distinct. -/
structure ModelSchema where
  name : String
  fields : List FieldSchema
  phase : String
  named : Text.blank name = false ∧ Text.blank phase = false := by decide
  unique : (fields.map (·.name)).Nodup := by decide

def ModelSchema.getField (model : ModelSchema) (fieldName : String) : Option FieldSchema :=
  model.fields.find? (·.name = fieldName)

structure SchemaRegistry where
  models : List ModelSchema
  version : String := "1.0"
  unique : (models.map (·.name)).Nodup := by decide

def SchemaRegistry.getModel (registry : SchemaRegistry) (name : String) : Option ModelSchema :=
  registry.models.find? (·.name = name)

inductive ChangeType where
  | fieldAdded
  | fieldRemoved
  | fieldTypeChanged
  | fieldOptionalChanged
  | fieldConstraintChanged
  | modelAdded
  | modelRemoved
  | modelRenamed
deriving DecidableEq, Repr

inductive CompatibilityLevel where
  | backwardCompatible
  | forwardCompatible
  | breakingChange
deriving DecidableEq, Repr

structure SchemaChange where
  changeType : ChangeType
  compatibility : CompatibilityLevel
  modelName : String
  fieldName : Option String := none
  oldValue : Json := .null
  newValue : Json := .null
  description : String := ""

def SchemaChange.isBreaking (change : SchemaChange) : Bool :=
  change.compatibility = .breakingChange

namespace SchemaComparator

/-- A loosening is backward compatible, a tightening breaks. -/
def levelOf (compatible : Bool) : CompatibilityLevel :=
  if compatible then .backwardCompatible else .breakingChange

def typeChanges (modelName : String) (oldField newField : FieldSchema) : List SchemaChange :=
  if oldField.type ≠ newField.type then [{
    changeType := .fieldTypeChanged
    compatibility := .breakingChange
    modelName := modelName
    fieldName := some oldField.name
    oldValue := .str oldField.type.value
    newValue := .str newField.type.value
    description := "字段 " ++ oldField.name ++ " 类型从 " ++ oldField.type.value ++ " 变更为 " ++
      newField.type.value }]
  else []

def optionalChanges (modelName : String) (oldField newField : FieldSchema) : List SchemaChange :=
  if oldField.optional ≠ newField.optional then [{
    changeType := .fieldOptionalChanged
    compatibility := levelOf newField.optional
    modelName := modelName
    fieldName := some oldField.name
    oldValue := .bool oldField.optional
    newValue := .bool newField.optional
    description := "字段 " ++ oldField.name ++ " " ++
      (if newField.optional then "变为可选" else "变为必填") }]
  else []

/-- `new and old and new < old`: a bound that is absent or zero is not compared. -/
def lowered (new old : Option Int) : Bool :=
  match new, old with
  | some n, some o => n ≠ 0 && o ≠ 0 && n < o
  | _, _ => false

def boundsText (field : FieldSchema) : String :=
  "min=" ++ (Json.optInt field.minLength).pyStr ++ ", max=" ++ (Json.optInt field.maxLength).pyStr

def constraintChanges (modelName : String) (oldField newField : FieldSchema) :
    List SchemaChange :=
  if oldField.maxLength ≠ newField.maxLength ∨ oldField.minLength ≠ newField.minLength then [{
    changeType := .fieldConstraintChanged
    compatibility := levelOf (!lowered newField.maxLength oldField.maxLength &&
      !lowered oldField.minLength newField.minLength)
    modelName := modelName
    fieldName := some oldField.name
    oldValue := .str (boundsText oldField)
    newValue := .str (boundsText newField)
    description := "字段 " ++ oldField.name ++ " 约束变更" }]
  else []

def compareFields (modelName : String) (oldField newField : FieldSchema) : List SchemaChange :=
  typeChanges modelName oldField newField ++ optionalChanges modelName oldField newField ++
    constraintChanges modelName oldField newField

def fieldAdded (modelName : String) (newField : FieldSchema) : SchemaChange where
  changeType := .fieldAdded
  compatibility := levelOf newField.optional
  modelName := modelName
  fieldName := some newField.name
  newValue := .str newField.type.value
  description := "新增字段 " ++ newField.name ++ " (" ++ newField.type.value ++ ")"

def fieldRemoved (modelName : String) (oldField : FieldSchema) : SchemaChange where
  changeType := .fieldRemoved
  compatibility := .breakingChange
  modelName := modelName
  fieldName := some oldField.name
  oldValue := .str oldField.type.value
  description := "删除字段 " ++ oldField.name

/-- The source goes through the key sets in no fixed order, here in the order of
the declarations. -/
def compareModels (oldModel newModel : ModelSchema) : List SchemaChange :=
  ((newModel.fields.filter fun f => (oldModel.getField f.name).isNone).map
      (fieldAdded oldModel.name)) ++
    ((oldModel.fields.filter fun f => (newModel.getField f.name).isNone).map
      (fieldRemoved oldModel.name)) ++
    oldModel.fields.flatMap fun oldField =>
      (newModel.getField oldField.name).toList.flatMap (compareFields oldModel.name oldField)

def modelAdded (model : ModelSchema) : SchemaChange where
  changeType := .modelAdded
  compatibility := .forwardCompatible
  modelName := model.name
  description := "新增模型 " ++ model.name

def modelRemoved (model : ModelSchema) : SchemaChange where
  changeType := .modelRemoved
  compatibility := .breakingChange
  modelName := model.name
  description := "删除模型 " ++ model.name

def compareRegistries (oldRegistry newRegistry : SchemaRegistry) : List SchemaChange :=
  ((newRegistry.models.filter fun m => (oldRegistry.getModel m.name).isNone).map modelAdded) ++
    ((oldRegistry.models.filter fun m => (newRegistry.getModel m.name).isNone).map modelRemoved) ++
    oldRegistry.models.flatMap fun oldModel =>
      (newRegistry.getModel oldModel.name).toList.flatMap (compareModels oldModel)

def hasBreakingChanges (changes : List SchemaChange) : Bool := changes.any (·.isBreaking)

def hasAdditions (changes : List SchemaChange) : Bool :=
  changes.any fun change => change.changeType = .fieldAdded || change.changeType = .modelAdded

def versionText (major minor patch : Int) : String :=
  Text.join "." [toString major, toString minor, toString patch]

def suggestVersionBump (changes : List SchemaChange) (currentVersion : String) : Result String :=
  match Text.split '.' currentVersion with
  | [major, minor, patch] => do
      let major ← pyInt (.str major)
      let minor ← pyInt (.str minor)
      let patch ← pyInt (.str patch)
      .ok (if hasBreakingChanges changes then versionText (major + 1) 0 0
        else if hasAdditions changes then versionText major (minor + 1) 0
        else versionText major minor (patch + 1))
  | _ => .ok "1.0.0"

end SchemaComparator

structure SchemaVersion where
  version : String
  registry : SchemaRegistry

namespace SchemaEvolutionManager
open SchemaComparator

def createNewVersion (oldVersion : SchemaVersion) (newRegistry : SchemaRegistry) :
    Result SchemaVersion := do
  let changes := compareRegistries oldVersion.registry newRegistry
  .ok { version := ← suggestVersionBump changes oldVersion.version, registry := newRegistry }

/-- The warning of an upgrade that breaks without a new major version. -/
def versionWarnings (fromVersion toVersion : SchemaVersion) (breaking : Bool) :
    Result (List String) :=
  match Text.split '.' fromVersion.version, Text.split '.' toVersion.version with
  | [fromMajor, _, _], [toMajor, _, _] => do
      let fromMajor ← pyInt (.str fromMajor)
      let toMajor ← pyInt (.str toMajor)
      .ok (if breaking && toMajor ≤ fromMajor then
        ["破坏性变更应该增加 major 版本号，但 " ++ fromVersion.version ++ " -> " ++ toVersion.version]
      else [])
  | _, _ => .ok []

def validateUpgradePath (fromVersion toVersion : SchemaVersion) : Result (Bool × List String) := do
  let changes := compareRegistries fromVersion.registry toVersion.registry
  let breaking := changes.filter (·.isBreaking)
  let listed := if breaking.isEmpty then [] else
    ("包含 " ++ toString breaking.length ++ " 个破坏性变更:") ::
      (breaking.take 5).map fun change => "  - " ++ change.description
  let warnings ← versionWarnings fromVersion toVersion (!breaking.isEmpty)
  .ok (breaking.isEmpty, listed ++ warnings)

end SchemaEvolutionManager
end ProjectOS.Orchestration
