import ProjectOS.Base.Pattern
import ProjectOS.Orchestration.CreateTable

/-! The fields that the validator reads out of a query, and what it reports of them
against a schema. -/
namespace ProjectOS.Orchestration
open Base Text

/-- What a pattern that ignores case compares of a character; four code points
outside ASCII count as letters. -/
def foldCase (c : Char) : Char :=
  if c.toNat = 0x130 ∨ c.toNat = 0x131 then 'i'
  else if c.toNat = 0x17F then 's'
  else if c.toNat = 0x212A then 'k'
  else c.toLower

namespace SQLQueryValidator

def keyword (word : String) : Pattern Unit := Pattern.literal foldCase word.toList

def spaces : Pattern (List Char) := Pattern.greedy1 isSpace

/-- `\s+FROM`. -/
def fromPattern : Pattern Unit := do
  let _ ← spaces
  keyword "FROM"

/-- `SELECT\s+(.*?)\s+FROM`. -/
def selectPattern : Pattern (List Char) := do
  keyword "SELECT"
  let _ ← spaces
  let fields ← Pattern.lazily
  fromPattern
  return fields

/-- `ORDER BY|GROUP BY|LIMIT`. -/
def closingPattern : Pattern Unit :=
  Pattern.either (keyword "ORDER BY") (Pattern.either (keyword "GROUP BY") (keyword "LIMIT"))

/-- `WHERE\s+(.*?)(?:ORDER BY|GROUP BY|LIMIT|$)`. -/
def wherePattern : Pattern (List Char) := do
  keyword "WHERE"
  let _ ← spaces
  let conditions ← Pattern.lazily
  Pattern.either closingPattern Pattern.atEnd
  return conditions

/-- `=|!=|<|>|<=|>=|IN|LIKE`. -/
def operatorPattern : Pattern Unit :=
  Pattern.either (keyword "=") <| Pattern.either (keyword "!=") <| Pattern.either (keyword "<") <|
    Pattern.either (keyword ">") <| Pattern.either (keyword "<=") <|
      Pattern.either (keyword ">=") <| Pattern.either (keyword "IN") (keyword "LIKE")

section words
variable (w : WordChars)

def word : Pattern (List Char) := Pattern.greedy1 w.isWord

/-- `\s+AS\s+\w+`. -/
def aliasPattern : Pattern (List Char) := do
  let _ ← spaces
  keyword "AS"
  let _ ← spaces
  word w

/-- `INSERT\s+INTO\s+\w+\s*\((.*?)\)`. -/
def insertPattern : Pattern (List Char) := do
  keyword "INSERT"
  let _ ← spaces
  keyword "INTO"
  let _ ← spaces
  let _ ← word w
  let _ ← Pattern.greedy isSpace
  keyword "("
  let fields ← Pattern.lazily
  keyword ")"
  return fields

/-- `UPDATE\s+\w+\s+SET\s+(.*?)(?:WHERE|$)`. -/
def updatePattern : Pattern (List Char) := do
  keyword "UPDATE"
  let _ ← spaces
  let _ ← word w
  let _ ← spaces
  keyword "SET"
  let _ ← spaces
  let assignments ← Pattern.lazily
  Pattern.either (keyword "WHERE") Pattern.atEnd
  return assignments

/-- `(\w+)\s*(?:=|!=|<|>|<=|>=|IN|LIKE)`. -/
def fieldPattern : Pattern (List Char) := do
  let field ← word w
  let _ ← Pattern.greedy isSpace
  operatorPattern
  return field

def selectField (field : List Char) : List Char :=
  let field := Pattern.substitute (fun _ => true) (aliasPattern w) (fun _ _ => []) (stripped field)
  if '.' ∈ field then field.rtakeWhile (· ≠ '.') else field

def notFields : List (List Char) := ["AND".toList, "OR".toList, "NOT".toList, "NULL".toList]

def selectFields (clause : List Char) : List (List Char) :=
  ((splitOn ',' clause).map (selectField w)).filter fun field => field ≠ [] && field ≠ ['*']

def insertFields (clause : List Char) : List (List Char) :=
  ((splitOn ',' clause).map stripped).filter (· ≠ [])

def updateFields (clause : List Char) : List (List Char) :=
  ((splitOn ',' clause).map fun assignment => stripped (assignment.takeWhile (· ≠ '='))).filter
    (· ≠ [])

local instance lawfulBEqWord : LawfulBEq (List Char) := inferInstance

def whereFields (clause : List Char) : List (List Char) :=
  (Pattern.findAll w.wordStart (fieldPattern w) clause).filter fun field =>
    upper field ∉ notFields

/-- The fields of the clause that a pattern finds. -/
def clauseFields (pattern : Pattern (List Char)) (fields : List Char → List (List Char))
    (sql : List Char) : List (List Char) :=
  ((Pattern.search pattern sql).map fields).getD []

/-- `extract_field_references`; the set is listed in the order in which it is filled. -/
def extractFieldReferences (sql : String) : List String :=
  (clauseFields selectPattern (selectFields w) sql.toList ++
    clauseFields (insertPattern w) insertFields sql.toList ++
    clauseFields (updatePattern w) updateFields sql.toList ++
    clauseFields wherePattern (whereFields w) sql.toList).map String.ofList

def unknownReference (schema : ModelSchema) (fieldRef : String) : SchemaViolation where
  severity := .error
  message := "SQL 引用了不存在的字段 '" ++ fieldRef ++ "'"
  modelName := some schema.name
  fieldName := some fieldRef

/-- `validate_sql_against_schema`. -/
def validateSqlAgainstSchema (sql : String) (schema : ModelSchema) : List SchemaViolation :=
  ((dedupe (extractFieldReferences w sql)).filter (· ∉ schema.fields.map (·.name))).map
    (unknownReference schema)

end words

end SQLQueryValidator

end ProjectOS.Orchestration
