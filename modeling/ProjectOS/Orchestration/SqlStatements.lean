import ProjectOS.Orchestration.SqlFields

/-! The queries that the repositories of a project send: `SELECT`, `INSERT` and
`UPDATE` with a condition of comparisons, in any case and any layout. -/
namespace ProjectOS.Orchestration
open Base Text

/-- A keyword in any case. -/
structure Spelling (keyword : String) where
  chars : List Char
  same : chars.map foldCase = keyword.toList.map foldCase := by decide

/-- `=`, `!=`, `<`, `>`, `<=`, `>=`. -/
inductive Symbol where
  | eq
  | ne
  | lt
  | gt
  | le
  | ge
deriving DecidableEq, Repr

namespace Symbol

def chars : Symbol → List Char
  | eq => ['=']
  | ne => ['!', '=']
  | lt => ['<']
  | gt => ['>']
  | le => ['<', '=']
  | ge => ['>', '=']

end Symbol

/-- A literal, a parameter, a list or another expression. -/
structure Operand where
  chars : List Char
  nonempty : chars ≠ [] := by decide
  trimmed : ∀ c ∈ chars.getLast?, isSpace c = false := by decide

/-- What a comparison says of its column. -/
inductive Test where
  | symbol (before : Gap) (symbol : Symbol) (after : Gap) (operand : Operand)
  | isIn (before : Space) (word : Spelling "IN") (after : Gap) (operand : Operand)
  | like (before : Space) (word : Spelling "LIKE") (after : Gap) (operand : Operand)
  | isNull (before : Space) (word : Spelling "IS") (after : Space) (null : Spelling "NULL")

namespace Test

def text : Test → List Char
  | symbol before sign after operand =>
      before.chars ++ sign.chars ++ after.chars ++ operand.chars
  | isIn before word after operand => before.chars ++ word.chars ++ after.chars ++ operand.chars
  | like before word after operand => before.chars ++ word.chars ++ after.chars ++ operand.chars
  | isNull before word after null => before.chars ++ word.chars ++ after.chars ++ null.chars

/-- The operators that the field pattern names. -/
def supported : Test → Bool
  | isNull .. => false
  | _ => true

end Test

/-- `AND` or `OR` in its white space. -/
structure Connective where
  before : Space
  word : Spelling "AND" ⊕ Spelling "OR"
  after : Space

def Connective.text (connective : Connective) : List Char :=
  connective.before.chars ++ connective.word.elim (·.chars) (·.chars) ++ connective.after.chars

section words
variable (w : WordChars)

/-- The name of a column or of a table. -/
structure Identifier where
  chars : List Char
  nonempty : chars ≠ [] := by decide
  word : ∀ c ∈ chars, w.isWord c = true := by decide
  plain : upper chars ∉ SQLQueryValidator.notFields := by decide

structure Comparison where
  column : Identifier w
  test : Test

inductive Conditions where
  | one (comparison : Comparison w)
  | joined (comparison : Comparison w) (connective : Connective) (rest : Conditions)

/-- `WHERE` with its conditions. -/
structure Filter where
  before : Space
  whereWord : Spelling "WHERE"
  after : Space
  conditions : Conditions w

structure ColumnList where
  head : Identifier w
  others : List (Gap × Gap × Identifier w) := []

structure Assignment where
  column : Identifier w
  before : Gap
  value : Operand

structure Select where
  selectWord : Spelling "SELECT"
  beforeColumns : Space
  columns : ColumnList w
  afterColumns : Space
  fromWord : Spelling "FROM"
  beforeTable : Space
  table : Identifier w
  filter : Option (Filter w) := none

/-- What follows the columns of an `INSERT`. -/
inductive Source where
  | values (text : List Char)
  | query (before : Space) (select : Select w)

structure Insert where
  insertWord : Spelling "INSERT"
  beforeInto : Space
  intoWord : Spelling "INTO"
  beforeTable : Space
  table : Identifier w
  afterTable : Gap
  beforeColumns : Gap
  columns : ColumnList w
  afterColumns : Gap
  source : Source w

structure Update where
  updateWord : Spelling "UPDATE"
  beforeTable : Space
  table : Identifier w
  beforeSet : Space
  setWord : Spelling "SET"
  beforeAssignments : Space
  head : Assignment w
  others : List (Gap × Gap × Assignment w) := []
  filter : Option (Filter w) := none

inductive Query where
  | select (statement : Select w)
  | insert (statement : Insert w)
  | update (statement : Update w)

end words

variable {w : WordChars}

def Comparison.text (comparison : Comparison w) : List Char :=
  comparison.column.chars ++ comparison.test.text

namespace Conditions

def text : Conditions w → List Char
  | one comparison => comparison.text
  | joined comparison connective rest => comparison.text ++ connective.text ++ rest.text

def columns : Conditions w → List (Identifier w)
  | one comparison => [comparison.column]
  | joined comparison _ rest => comparison.column :: rest.columns

/-- The columns compared with an operator that the field pattern names. -/
def compared : Conditions w → List (Identifier w)
  | one comparison => if comparison.test.supported then [comparison.column] else []
  | joined comparison _ rest =>
      (if comparison.test.supported then [comparison.column] else []) ++ rest.compared

end Conditions

namespace Filter

/-- The clause from its keyword on. -/
def clause (filter : Filter w) : List Char :=
  filter.whereWord.chars ++ filter.after.chars ++ filter.conditions.text

def text (filter : Filter w) : List Char := filter.before.chars ++ filter.clause

end Filter

def filterText (filter : Option (Filter w)) : List Char := (filter.map (·.text)).getD []

def filterColumns (filter : Option (Filter w)) : List (Identifier w) :=
  (filter.map (·.conditions.columns)).getD []

def filterCompared (filter : Option (Filter w)) : List (Identifier w) :=
  (filter.map (·.conditions.compared)).getD []

/-- Items between commas, with the white space before and behind each comma. -/
def separated {β : Type} (text : β → List Char) (head : β) (others : List (Gap × Gap × β)) :
    List Char :=
  text head ++ others.flatMap fun other => other.1.chars ++ ',' :: (other.2.1.chars ++ text other.2.2)

namespace ColumnList

def text (columns : ColumnList w) : List Char := separated (·.chars) columns.head columns.others

def all (columns : ColumnList w) : List (Identifier w) :=
  columns.head :: columns.others.map (·.2.2)

end ColumnList

def Assignment.text (assignment : Assignment w) : List Char :=
  assignment.column.chars ++ assignment.before.chars ++ '=' :: assignment.value.chars

namespace Select
variable (statement : Select w)

/-- From the white space before `FROM` up to the table. -/
def fromClause : List Char :=
  statement.afterColumns.chars ++ statement.fromWord.chars ++ statement.beforeTable.chars ++
    statement.table.chars

def head : List Char :=
  statement.selectWord.chars ++ statement.beforeColumns.chars ++ statement.columns.text ++
    statement.fromClause

def text : List Char := statement.head ++ filterText statement.filter

def listed : List (Identifier w) := statement.columns.all

end Select

namespace Source

def text : Source w → List Char
  | values text => text
  | query before select => before.chars ++ select.text

end Source

namespace Insert
variable (statement : Insert w)

def head : List Char :=
  statement.insertWord.chars ++ statement.beforeInto.chars ++ statement.intoWord.chars ++
    statement.beforeTable.chars ++ statement.table.chars ++ statement.afterTable.chars ++
    '(' :: (statement.beforeColumns.chars ++ statement.columns.text ++
      statement.afterColumns.chars ++ [')'])

def text : List Char := statement.head ++ statement.source.text

end Insert

namespace Update
variable (statement : Update w)

def assignments : List (Assignment w) := statement.head :: statement.others.map (·.2.2)

def setClause : List Char := separated (·.text) statement.head statement.others

def opening : List Char :=
  statement.updateWord.chars ++ statement.beforeTable.chars ++ statement.table.chars ++
    statement.beforeSet.chars ++ statement.setWord.chars ++ statement.beforeAssignments.chars

def text : List Char := statement.opening ++ statement.setClause ++ filterText statement.filter

end Update

namespace Query

def sql : Query w → String
  | select statement => String.ofList statement.text
  | insert statement => String.ofList statement.text
  | update statement => String.ofList statement.text

/-- The columns that a query lists, assigns or compares with an operator that the
validator supports, in the order in which it reads them. -/
def required : Query w → List (Identifier w)
  | select statement => statement.listed ++ filterCompared statement.filter
  | insert statement =>
      match statement.source with
      | .values _ => statement.columns.all
      | .query _ source => source.listed ++ statement.columns.all ++ filterCompared source.filter
  | update statement => statement.assignments.map (·.column) ++ filterCompared statement.filter

/-- All columns of a query. -/
def columns : Query w → List (Identifier w)
  | select statement => statement.listed ++ filterColumns statement.filter
  | insert statement =>
      match statement.source with
      | .values _ => statement.columns.all
      | .query _ source => source.listed ++ statement.columns.all ++ filterColumns source.filter
  | update statement => statement.assignments.map (·.column) ++ filterColumns statement.filter

end Query

def Identifier.name (identifier : Identifier w) : String := String.ofList identifier.chars

open SQLQueryValidator

/-- The field pattern matches at no word that starts in `front`. -/
abbrev Silent (w : WordChars) (before front after : List Char) : Prop :=
  Pattern.Silent w.wordStart (fieldPattern w) before front after

/-- The field pattern matches in a comparison, and in the `join` behind it, at most
at the column that is compared with a supported operator. -/
def Comparison.Silent (comparison : Comparison w) (before join after : List Char) : Prop :=
  if comparison.test.supported then
    Orchestration.Silent w (before ++ comparison.column.chars) (comparison.test.text ++ join) after
  else Orchestration.Silent w before (comparison.text ++ join) after

instance (comparison : Comparison w) (before join after : List Char) :
    Decidable (comparison.Silent before join after) :=
  inferInstanceAs (Decidable (if comparison.test.supported then
    Orchestration.Silent w (before ++ comparison.column.chars) (comparison.test.text ++ join) after
  else Orchestration.Silent w before (comparison.text ++ join) after))

def Conditions.Silent (before : List Char) : Conditions w → Prop
  | one comparison => comparison.Silent before [] []
  | joined comparison connective rest =>
      comparison.Silent before connective.text rest.text ∧
        rest.Silent (before ++ comparison.text ++ connective.text)

def Conditions.decideSilent (before : List Char) :
    (conditions : Conditions w) → Decidable (conditions.Silent before)
  | one comparison => inferInstanceAs (Decidable (comparison.Silent before [] []))
  | joined comparison connective rest =>
      have := rest.decideSilent (before ++ comparison.text ++ connective.text)
      inferInstanceAs (Decidable (comparison.Silent before connective.text rest.text ∧
        rest.Silent (before ++ comparison.text ++ connective.text)))

instance (before : List Char) (conditions : Conditions w) :
    Decidable (conditions.Silent before) := conditions.decideSilent before

/-- No other clause follows, and the field pattern matches at the compared columns only. -/
def Conditions.Plain (conditions : Conditions w) : Prop :=
  Pattern.Absent closingPattern conditions.text [] ∧ conditions.Silent []

instance (conditions : Conditions w) : Decidable conditions.Plain :=
  inferInstanceAs (Decidable (_ ∧ _))

/-- Behind `front`, the first `WHERE` is the one of the filter. -/
def FilterOwn (front : List Char) : Option (Filter w) → Prop
  | none => Pattern.Absent wherePattern front []
  | some filter =>
      Pattern.Absent wherePattern (front ++ filter.before.chars) filter.clause ∧
        filter.conditions.Plain

instance (front : List Char) (filter : Option (Filter w)) : Decidable (FilterOwn front filter) :=
  match filter with
  | none => inferInstanceAs (Decidable (Pattern.Absent _ _ _))
  | some _ => inferInstanceAs (Decidable (_ ∧ _))

namespace Select
variable (statement : Select w)

/-- Behind `front`, the clauses of the statement are the first that the patterns find. -/
def Own (front : List Char) : Prop :=
  Pattern.Absent selectPattern front statement.text ∧
    Pattern.Absent fromPattern statement.columns.text
      (statement.fromClause ++ filterText statement.filter) ∧
    FilterOwn (front ++ statement.head) statement.filter

instance (front : List Char) : Decidable (statement.Own front) :=
  inferInstanceAs (Decidable (_ ∧ _ ∧ _))

end Select

/-- Behind `head`, the values hold no other clause, or the query is the first. -/
def SourceOwn (head : List Char) : Source w → Prop
  | .values text =>
      Pattern.Absent selectPattern (head ++ text) [] ∧ Pattern.Absent wherePattern (head ++ text) []
  | .query before source => source.Own (head ++ before.chars)

instance (head : List Char) (source : Source w) : Decidable (SourceOwn head source) :=
  match source with
  | .values _ => inferInstanceAs (Decidable (_ ∧ _))
  | .query _ _ => inferInstanceAs (Decidable (Select.Own _ _))

def Update.Own (statement : Update w) : Prop :=
  Pattern.Absent (keyword "WHERE") statement.setClause (filterText statement.filter) ∧
    (∀ assignment ∈ statement.assignments, ',' ∉ assignment.value.chars) ∧
    FilterOwn (statement.opening ++ statement.setClause) statement.filter

instance (statement : Update w) : Decidable statement.Own :=
  inferInstanceAs (Decidable (_ ∧ _ ∧ _))

/-- The patterns match at the words of the query's own clauses only. -/
def Query.Own : Query w → Prop
  | select statement =>
      statement.Own [] ∧ Pattern.Absent (insertPattern w) statement.text [] ∧
        Pattern.Absent (updatePattern w) statement.text []
  | insert statement =>
      SourceOwn statement.head statement.source ∧
        Pattern.Absent (updatePattern w) statement.text []
  | update statement =>
      statement.Own ∧ Pattern.Absent selectPattern statement.text [] ∧
        Pattern.Absent (insertPattern w) statement.text []

instance (query : Query w) : Decidable query.Own :=
  match query with
  | .select _ => inferInstanceAs (Decidable (_ ∧ _ ∧ _))
  | .insert _ => inferInstanceAs (Decidable (_ ∧ _))
  | .update _ => inferInstanceAs (Decidable (_ ∧ _ ∧ _))

end ProjectOS.Orchestration
