import ProjectOS.Base.Leftmost
import ProjectOS.Base.Words
import ProjectOS.Orchestration.SchemaEvolution

/-! The fields that the validator reads out of a `CREATE TABLE` statement, and
what it reports of them against a schema. -/
namespace ProjectOS.Orchestration
open Base Text

/-- A field of a table as the parser lists it. -/
structure TableField where
  name : String
  type : String
  optional : Bool
deriving DecidableEq, Repr

namespace SQLiteSchemaParser

def createTable : List Char := "CREATE TABLE".toList

def primaryKey : List Char := "PRIMARY KEY".toList

def foreignKey : List Char := "FOREIGN KEY".toList

def notNullText : List Char := "NOT NULL".toList

/-- `CREATE TABLE.*?\((.*?)\)` at one position: both gaps are as short as possible. -/
def matchCreateTable (cs : List Char) : Option (List Char) :=
  if startsWithKeyword createTable cs then do
    let (_, rest) ← cutAt '(' (cs.drop createTable.length)
    let (fieldsText, _) ← cutAt ')' rest
    some fieldsText
  else none

def parseField (line : List Char) : Option TableField :=
  let line := stripped line
  if line.isEmpty || primaryKey.isPrefixOf (upper line) || foreignKey.isPrefixOf (upper line) then none
  else match words line with
    | name :: type :: _ => some {
        name := String.ofList name
        type := String.ofList (upper type)
        optional := !decide (notNullText <:+: upper line) }
    | _ => none

/-- `parse_create_table_sql`. -/
def parseCreateTableSql (sql : String) : List TableField :=
  match sql.toList.tails.findSome? matchCreateTable with
  | none => []
  | some fieldsText => (fieldsText.splitOn ',').filterMap parseField

end SQLiteSchemaParser

inductive Severity where
  | error
  | warning
deriving DecidableEq, Repr

structure SchemaViolation where
  severity : Severity
  message : String
  modelName : Option String := none
  fieldName : Option String := none
deriving DecidableEq, Repr

def SchemaRegistry.unknownModel (schemaModelName : String) : SchemaViolation where
  severity := .error
  message := "Schema 中未找到模型: " ++ schemaModelName

def unknownField (schemaModelName fieldName : String) : SchemaViolation where
  severity := .error
  message := "表字段 '" ++ fieldName ++ "' 不在 schema 中"
  modelName := some schemaModelName
  fieldName := some fieldName

def missingField (schemaModelName fieldName : String) : SchemaViolation where
  severity := .error
  message := "表缺少 schema 中的必填字段 '" ++ fieldName ++ "'"
  modelName := some schemaModelName
  fieldName := some fieldName

/-- `validate_sqlite_table`; the names of a set are taken in the order of their
first occurrence. -/
def SchemaRegistry.validateSqliteTable (registry : SchemaRegistry)
    (createTableSql _tableName schemaModelName : String) : List SchemaViolation :=
  match registry.getModel schemaModelName with
  | none => [unknownModel schemaModelName]
  | some schema =>
      let actual := (SQLiteSchemaParser.parseCreateTableSql createTableSql).map (·.name)
      let declared := schema.fields.map (·.name)
      ((dedupe actual).filter (· ∉ declared)).map (unknownField schemaModelName) ++
        (schema.fields.filter fun field => !field.optional && field.name ∉ actual).map fun field =>
          missingField schemaModelName field.name

/-- A name or a number: no white space, comma or bracket. -/
structure Word where
  chars : List Char
  nonempty : chars ≠ [] := by decide
  plain : ∀ c ∈ chars, isSpace c = false ∧ c ≠ ',' ∧ c ≠ '(' ∧ c ≠ ')' := by decide

/-- `VARCHAR(200)`: the words of a list stand in brackets. -/
def wordList (gap : Gap) (ws : List Word) : List Char :=
  List.intercalate (',' :: gap.chars) (ws.map (·.chars))

def bracketed (gap : Gap) (ws : List Word) : List Char := '(' :: wordList gap ws ++ [')']

/-- A column: its name, its type with the parameters it may have, `NOT NULL`. -/
structure ColumnDeclaration where
  name : Word
  typeName : Word
  parameters : List Word := []
  notNull : Bool := false

def nullMarker (notNull : Bool) : List Char :=
  if notNull then ' ' :: SQLiteSchemaParser.notNullText else []

def ColumnDeclaration.text (gap : Gap) (column : ColumnDeclaration) : List Char :=
  column.name.chars ++ ' ' :: (column.typeName.chars ++
    ((if column.parameters = [] then [] else bracketed gap column.parameters) ++
      nullMarker column.notNull))

inductive TableConstraint where
  | primaryKey (columns : List Word)
  | foreignKey (columns : List Word) (table : Word) (references : List Word)

def TableConstraint.text (gap : Gap) : TableConstraint → List Char
  | .primaryKey columns => SQLiteSchemaParser.primaryKey ++ ' ' :: bracketed gap columns
  | .foreignKey columns table references =>
      SQLiteSchemaParser.foreignKey ++ ' ' :: bracketed gap columns ++ " REFERENCES ".toList ++
        table.chars ++ bracketed gap references

/-- The items of a statement, each in its white space. -/
def layout (before after : Gap) (items : List (List Char)) : List Char :=
  List.intercalate [','] (items.map fun item => before.chars ++ (item ++ after.chars))

/-- A statement: the columns, then the constraints of the table. The head names
the table; `before`, `after` and `gap` are the white space of the layout. -/
structure CreateTable where
  head : List Char
  columns : List ColumnDeclaration
  constraints : List TableConstraint := []
  tail : List Char := []
  before : Gap
  after : Gap
  gap : Gap
  named : '(' ∉ head := by decide
  nonempty : columns ≠ [] := by exact List.cons_ne_nil _ _

namespace CreateTable
variable (statement : CreateTable)

def items : List (List Char) :=
  statement.columns.map (·.text statement.gap) ++ statement.constraints.map (·.text statement.gap)

def body : List Char := layout statement.before statement.after statement.items

def sql : String :=
  String.ofList (SQLiteSchemaParser.createTable ++ statement.head ++ '(' :: statement.body ++
    ')' :: statement.tail)

end CreateTable

namespace ColumnDeclaration
variable (column : ColumnDeclaration)

/-- The column looks like the start of a table constraint. -/
def ReadsAsKey : Prop :=
  (upper column.name.chars = "PRIMARY".toList ∨ upper column.name.chars = "FOREIGN".toList) ∧
    "KEY".toList <+: upper column.typeName.chars

/-- The end of the name and the start of the type spell `NOT NULL`. -/
def SpellsNotNull : Prop :=
  "NOT".toList <:+ upper column.name.chars ∧ "NULL".toList <+: upper column.typeName.chars

instance : Decidable column.ReadsAsKey := inferInstanceAs (Decidable (_ ∧ _))

instance : Decidable column.SpellsNotNull := inferInstanceAs (Decidable (_ ∧ _))

end ColumnDeclaration

/-- What the parser makes of the column, where it sees this much of `NOT NULL`. -/
def ColumnDeclaration.read (column : ColumnDeclaration) (notNull : Bool) : Option (String × Bool) :=
  if column.ReadsAsKey then none
  else some (String.ofList column.name.chars, !(notNull || decide column.SpellsNotNull))

/-- The columns up to the first type with parameters, which is cut at its bracket. -/
def readColumns : List ColumnDeclaration → List (String × Bool)
  | [] => []
  | column :: columns =>
      if column.parameters = [] then (column.read column.notNull).toList ++ readColumns columns
      else (column.read false).toList

def TableField.signature (field : TableField) : String × Bool := (field.name, field.optional)

/-- The declared name and whether the column may be null. -/
def ColumnDeclaration.signature (column : ColumnDeclaration) : String × Bool :=
  (String.ofList column.name.chars, !column.notNull)

namespace SQLiteSchemaParser

section field
variable {name typeName : Word} {before after : Gap}

theorem Word.not_space (word : Word) : ' ' ∉ word.chars := by
  intro hmem
  cases (word.plain ' ' hmem).1

theorem space_not_mem_upper (word : Word) : ' ' ∉ upper word.chars :=
  not_mem_upper (by decide) (by decide) (Word.not_space word)

/-- What may follow the type: nothing, or a text that starts with a bracket or a blank. -/
def Follows (extra : List Char) : Prop :=
  extra = [] ∨ ∃ rest, extra = '(' :: rest ∨ extra = ' ' :: rest

theorem prefix_upper_iff {b cs extra : List Char} (hb : '(' ∉ b ∧ ' ' ∉ b) (h : Follows extra) :
    b <+: upper (cs ++ extra) ↔ b <+: upper cs := by
  rw [upper_append, ← List.isPrefixOf_iff_prefix, ← List.isPrefixOf_iff_prefix]
  rcases h with rfl | ⟨rest, rfl | rfl⟩
  · rw [show upper [] = [] from rfl, List.append_nil]
  · rw [upper_cons, show upperChar '(' = ['('] by decide, List.singleton_append,
      Leftmost.isPrefixOf_append hb.1]
  · rw [upper_cons, show upperChar ' ' = [' '] by decide, List.singleton_append,
      Leftmost.isPrefixOf_append hb.2]

theorem key_prefix_iff {keyword extra : List Char} (hkeyword : ' ' ∉ keyword) (h : Follows extra) :
    (keyword ++ ' ' :: "KEY".toList).isPrefixOf
      (upper (name.chars ++ ' ' :: (typeName.chars ++ extra))) = true ↔
      upper name.chars = keyword ∧ "KEY".toList <+: upper typeName.chars := by
  rw [List.isPrefixOf_iff_prefix, upper_append, upper_cons, show upperChar ' ' = [' '] by decide,
    List.singleton_append, prefix_separated hkeyword (space_not_mem_upper name),
    prefix_upper_iff (by decide) h, eq_comm]

theorem wrapped_line {extra : List Char} (hlast : ∀ c ∈ extra.getLast?, isSpace c = false) :
    stripped (before.chars ++ ((name.chars ++ ' ' :: (typeName.chars ++ extra)) ++ after.chars)) =
      name.chars ++ ' ' :: (typeName.chars ++ extra) := by
  refine stripped_wrap before.blank after.blank ?_ ?_ (by simp)
  · intro c hc
    rw [List.head?_append_of_ne_nil _ name.nonempty] at hc
    exact (name.plain c (List.mem_of_mem_head? hc)).1
  · intro c hc
    have htype : typeName.chars ++ extra ≠ [] := by simp [typeName.nonempty]
    rw [List.getLast?_append_of_ne_nil _ (List.cons_ne_nil _ _), List.getLast?_cons_of_ne_nil htype]
      at hc
    by_cases hextra : extra = []
    · rw [hextra, List.append_nil] at hc
      exact (typeName.plain c (List.mem_of_mem_getLast? hc)).1
    · rw [List.getLast?_append_of_ne_nil _ hextra] at hc
      exact hlast c hc

theorem nullMarker_last {extra : List Char} (hplain : ∀ c ∈ extra, isSpace c = false)
    (notNull : Bool) : ∀ c ∈ (extra ++ nullMarker notNull).getLast?, isSpace c = false := by
  intro c hc
  cases notNull with
  | false =>
    rw [nullMarker, if_neg Bool.false_ne_true, List.append_nil] at hc
    exact hplain c (List.mem_of_mem_getLast? hc)
  | true =>
    rw [List.getLast?_append_of_ne_nil _ (by decide),
      show (nullMarker true).getLast? = some 'L' by decide] at hc
    cases hc
    decide

theorem nullMarker_follows {extra : List Char} (hextra : extra = [] ∨ ∃ rest, extra = '(' :: rest)
    (notNull : Bool) : Follows (extra ++ nullMarker notNull) := by
  rcases hextra with rfl | ⟨rest, rfl⟩
  · cases notNull with
    | false => exact .inl rfl
    | true => exact .inr ⟨notNullText, .inr rfl⟩
  · exact .inr ⟨_, .inl (List.cons_append ..)⟩

/-- Where the text says `NOT NULL` by itself, or name and type do. -/
theorem notNull_infix_iff {extra : List Char} (hextra : extra = [] ∨ ∃ rest, extra = '(' :: rest)
    (hplain : ∀ c ∈ extra, isSpace c = false) (notNull : Bool) :
    notNullText <:+: upper (name.chars ++ ' ' :: (typeName.chars ++ (extra ++ nullMarker notNull))) ↔
      notNull = true ∨ ColumnDeclaration.SpellsNotNull { name, typeName } := by
  cases notNull with
  | true =>
    refine iff_of_true ?_ (.inl rfl)
    rw [← List.append_assoc, ← List.cons_append, ← List.append_assoc, upper_append,
      show upper (nullMarker true) = [' '] ++ notNullText by decide, ← List.append_assoc]
    exact (List.suffix_append _ _).isInfix
  | false =>
    have hspace : ' ' ∉ typeName.chars ++ extra := by
      rw [List.mem_append, not_or]
      refine ⟨Word.not_space typeName, fun hmem => ?_⟩
      cases hplain ' ' hmem
    rw [show nullMarker false = [] from rfl, List.append_nil, upper_append, upper_cons,
      show upperChar ' ' = [' '] by decide, List.singleton_append,
      show notNullText = "NOT".toList ++ ' ' :: "NULL".toList by decide,
      infix_separated (space_not_mem_upper name) (not_mem_upper (by decide) (by decide) hspace),
      prefix_upper_iff (by decide) (hextra.imp_right fun ⟨rest, h⟩ => ⟨rest, .inl h⟩)]
    simp [ColumnDeclaration.SpellsNotNull]

/-- How the parser reads the line of a column, whole or cut inside its type. -/
theorem parseField_column {extra : List Char} (hextra : extra = [] ∨ ∃ rest, extra = '(' :: rest)
    (hplain : ∀ c ∈ extra, isSpace c = false) (notNull : Bool) :
    parseField (before.chars ++ ((name.chars ++ ' ' :: (typeName.chars ++
      (extra ++ nullMarker notNull))) ++ after.chars)) =
      if ColumnDeclaration.ReadsAsKey { name, typeName } then none else some {
        name := String.ofList name.chars
        type := String.ofList (upper (typeName.chars ++ extra))
        optional := !(notNull || decide (ColumnDeclaration.SpellsNotNull { name, typeName })) } := by
  have hprimary := @key_prefix_iff name typeName "PRIMARY".toList _ (by decide)
    (nullMarker_follows hextra notNull)
  have hforeign := @key_prefix_iff name typeName "FOREIGN".toList _ (by decide)
    (nullMarker_follows hextra notNull)
  have htype : ∀ c ∈ typeName.chars ++ extra, isSpace c = false := by
    intro c hc
    rcases List.mem_append.mp hc with hc | hc
    · exact (typeName.plain c hc).1
    · exact hplain c hc
  have hne : typeName.chars ++ extra ≠ [] := by simp [typeName.nonempty]
  have hwords : ∃ rest, words (name.chars ++ ' ' :: (typeName.chars ++
      (extra ++ nullMarker notNull))) = name.chars :: (typeName.chars ++ extra) :: rest := by
    rw [words_append name.nonempty (fun c hc => (name.plain c hc).1) rfl, ← List.append_assoc]
    cases notNull with
    | false =>
      rw [show nullMarker false = [] from rfl, List.append_nil, words_of_forall hne htype]
      exact ⟨[], rfl⟩
    | true =>
      rw [show nullMarker true = ' ' :: notNullText from rfl, words_append hne htype rfl]
      exact ⟨_, rfl⟩
  obtain ⟨rest, hrest⟩ := hwords
  have hsomething : (name.chars ++ ' ' :: (typeName.chars ++
      (extra ++ nullMarker notNull))).isEmpty = false := by simp
  have hkey : (primaryKey.isPrefixOf (upper (name.chars ++ ' ' :: (typeName.chars ++
      (extra ++ nullMarker notNull)))) || foreignKey.isPrefixOf (upper (name.chars ++ ' ' ::
      (typeName.chars ++ (extra ++ nullMarker notNull))))) =
      decide (ColumnDeclaration.ReadsAsKey { name, typeName }) := by
    rw [show primaryKey = "PRIMARY".toList ++ ' ' :: "KEY".toList by decide,
      show foreignKey = "FOREIGN".toList ++ ' ' :: "KEY".toList by decide, Bool.eq_iff_iff,
      Bool.or_eq_true, hprimary, hforeign, decide_eq_true_iff, ← or_and_right]
    rfl
  rw [parseField, wrapped_line (nullMarker_last hplain notNull), hsomething, Bool.false_or, hkey,
    hrest]
  simp only [decide_eq_true_eq]
  congr 3
  simp [notNull_infix_iff hextra hplain notNull]

end field

/-- What is read up to the first closing bracket. -/
def readFields (cs : List Char) : List TableField :=
  match cutAt ')' cs with
  | none => []
  | some (fieldsText, _) => (fieldsText.splitOn ',').filterMap parseField

theorem parseCreateTableSql_sql (statement : CreateTable) :
    parseCreateTableSql statement.sql = readFields (statement.body ++ ')' :: statement.tail) := by
  have hstarts : startsWithKeyword createTable
      (createTable ++ (statement.head ++ '(' :: (statement.body ++ ')' :: statement.tail))) = true := by
    rw [startsWithKeyword, List.map_append, List.isPrefixOf_iff_prefix]
    exact List.prefix_append _ _
  have hclosed : ')' ∈ statement.body ++ ')' :: statement.tail := by simp
  obtain ⟨before, after, hcut, hnot⟩ := List.eq_append_cons_of_mem hclosed
  have hsql : statement.sql.toList = createTable ++
      (statement.head ++ '(' :: (statement.body ++ ')' :: statement.tail)) := by
    simp [CreateTable.sql]
  have hmatch : matchCreateTable statement.sql.toList = some before := by
    rw [hsql, matchCreateTable, if_pos hstarts, List.drop_left, cutAt_append statement.named]
    simp only [Option.bind_eq_bind, Option.bind_some, hcut, cutAt_append hnot]
  have htails : statement.sql.toList.tails.findSome? matchCreateTable = some before := by
    cases htext : statement.sql.toList with
    | nil => rw [hsql] at htext; simp at htext
    | cons c cs => rw [List.tails_cons, List.findSome?_cons, ← htext, hmatch]
  rw [parseCreateTableSql, htails, readFields, hcut, cutAt_append hnot]

theorem readFields_comma {line rest : List Char} (hline : ')' ∉ line) (hrest : ')' ∈ rest) :
    readFields (line ++ ',' :: rest) =
      (line.splitOn ',').filterMap parseField ++ readFields rest := by
  obtain ⟨before, after, rfl, hnot⟩ := List.eq_append_cons_of_mem hrest
  have hinside : ')' ∉ line ++ ',' :: before := by
    simp [hline, hnot]
  rw [readFields, readFields, cutAt_append hnot, ← List.cons_append, ← List.append_assoc,
    cutAt_append hinside]
  simp only [List.splitOn_append_cons_self, List.filterMap_append]

theorem readFields_close {line : List Char} (hline : ')' ∉ line) (rest : List Char) :
    readFields (line ++ ')' :: rest) = (line.splitOn ',').filterMap parseField := by
  rw [readFields, cutAt_append hline]

section list
variable {gap : Gap}

theorem Word.not_comma (word : Word) : ',' ∉ word.chars := fun h => (word.plain _ h).2.1 rfl

theorem Word.not_close (word : Word) : ')' ∉ word.chars := fun h => (word.plain _ h).2.2.2 rfl

/-- A line of one word declares nothing. -/
theorem parseField_word (word : Word) : parseField (gap.chars ++ word.chars) = none := by
  have hstripped : stripped (gap.chars ++ word.chars) = word.chars := by
    have := @stripped_wrap gap.chars word.chars [] gap.blank (fun c hc => nomatch hc)
      (fun c hc => (word.plain c (List.mem_of_mem_head? hc)).1)
      (fun c hc => (word.plain c (List.mem_of_mem_getLast? hc)).1) word.nonempty
    rwa [List.append_nil] at this
  rw [parseField, hstripped, words_of_forall word.nonempty fun c hc => (word.plain c hc).1]
  split <;> rfl

theorem wordList_cons_cons (w v : Word) (ws : List Word) :
    wordList gap (w :: v :: ws) = w.chars ++ ',' :: (gap.chars ++ wordList gap (v :: ws)) := by
  simp [wordList]

theorem not_close_wordList (ws : List Word) : ')' ∉ wordList gap ws := by
  induction ws with
  | nil => exact List.not_mem_nil
  | cons w ws ih =>
    cases ws with
    | nil => simpa [wordList] using Word.not_close w
    | cons v ws =>
      rw [wordList_cons_cons, List.mem_append, List.mem_cons, List.mem_append, not_or, not_or, not_or]
      exact ⟨Word.not_close w, by decide, Gap.not_mem rfl, ih⟩

theorem filterMap_splitOn_single {line : List Char} (h : ',' ∉ line) :
    (line.splitOn ',').filterMap parseField = (parseField line).toList := by
  rw [List.splitOn_eq_singleton h, List.filterMap_cons]
  cases parseField line <;> rfl

theorem filterMap_words (word : Word) (ws : List Word) :
    ((gap.chars ++ wordList gap (word :: ws)).splitOn ',').filterMap parseField = [] := by
  have hcomma (word : Word) : ',' ∉ gap.chars ++ word.chars := by
    rw [List.mem_append, not_or]
    exact ⟨Gap.not_mem rfl, Word.not_comma word⟩
  induction ws generalizing word with
  | nil =>
    rw [show wordList gap [word] = word.chars by simp [wordList],
      filterMap_splitOn_single (hcomma word), parseField_word, Option.toList_none]
  | cons next ws ih =>
    rw [wordList_cons_cons, ← List.append_assoc, List.splitOn_append_cons_self,
      List.filterMap_append, ih next, filterMap_splitOn_single (hcomma word), parseField_word,
      Option.toList_none, List.append_nil]

/-- Behind its first word a list adds no field. -/
theorem filterMap_wordList {front : List Char} (hfront : ',' ∉ front) (ws : List Word) :
    ((front ++ wordList gap ws).splitOn ',').filterMap parseField =
      (parseField (front ++ ws.head?.elim [] (·.chars))).toList := by
  have hcomma (word : Word) : ',' ∉ front ++ word.chars := by
    rw [List.mem_append, not_or]
    exact ⟨hfront, Word.not_comma word⟩
  cases ws with
  | nil =>
    rw [show wordList gap [] = [] from rfl, List.head?_nil, Option.elim_none, List.append_nil]
    exact filterMap_splitOn_single hfront
  | cons word ws =>
    rw [List.head?_cons, Option.elim_some]
    cases ws with
    | nil =>
      rw [show wordList gap [word] = word.chars by simp [wordList]]
      exact filterMap_splitOn_single (hcomma word)
    | cons next ws =>
      rw [wordList_cons_cons, ← List.append_assoc, List.splitOn_append_cons_self,
        List.filterMap_append, filterMap_words next ws, List.append_nil,
        filterMap_splitOn_single (hcomma word)]

end list

section body
variable {before after gap : Gap} {tail : List Char}

/-- An item without a closing bracket is read as it stands. -/
theorem readFields_item {item : List Char} (hitem : ')' ∉ item) (items : List (List Char)) :
    readFields (layout before after (item :: items) ++ ')' :: tail) =
      ((before.chars ++ (item ++ after.chars)).splitOn ',').filterMap parseField ++
        readFields (layout before after items ++ ')' :: tail) := by
  have hline : ')' ∉ before.chars ++ (item ++ after.chars) := by
    rw [List.mem_append, List.mem_append, not_or, not_or]
    exact ⟨Gap.not_mem rfl, hitem, Gap.not_mem rfl⟩
  cases items with
  | nil =>
    have hempty : readFields (layout before after [] ++ ')' :: tail) = [] :=
      readFields_close List.not_mem_nil tail
    rw [hempty, List.append_nil, ← readFields_close hline tail]
    simp [layout]
  | cons next items =>
    rw [← readFields_comma hline (by simp)]
    simp [layout]

/-- An item is read up to its closing bracket, and nothing behind it. -/
theorem readFields_cut {front rest : List Char} (hfront : ')' ∉ front) (items : List (List Char)) :
    readFields (layout before after ((front ++ ')' :: rest) :: items) ++ ')' :: tail) =
      ((before.chars ++ front).splitOn ',').filterMap parseField := by
  have hline : ')' ∉ before.chars ++ front := by
    rw [List.mem_append, not_or]
    exact ⟨Gap.not_mem rfl, hfront⟩
  cases items with
  | nil =>
    rw [← readFields_close hline (rest ++ after.chars ++ ')' :: tail)]
    simp [layout]
  | cons next items =>
    rw [← readFields_close hline (rest ++ after.chars ++ ',' :: (layout before after (next :: items) ++
      ')' :: tail))]
    simp [layout]

/-- The line of a constraint is skipped, wherever its list is cut. -/
theorem parseField_constraint {keyword : List Char} (hkeyword : keyword = primaryKey ∨
    keyword = foreignKey) (words : List Word) :
    parseField (before.chars ++ (keyword ++ " (".toList) ++ words.head?.elim [] (·.chars)) = none := by
  have hnonempty : keyword ≠ [] := by
    rcases hkeyword with rfl | rfl <;> decide
  have hhead : ∀ c ∈ keyword.head?, isSpace c = false := by
    rcases hkeyword with rfl | rfl <;> decide
  have hstripped : ∃ rest, stripped (before.chars ++ (keyword ++ " (".toList) ++
      words.head?.elim [] (·.chars)) = keyword ++ rest := by
    have hwrap := @stripped_wrap before.chars
      (keyword ++ " (".toList ++ words.head?.elim [] (·.chars)) [] before.blank
      (fun c hc => nomatch hc)
    rw [List.append_nil, ← List.append_assoc] at hwrap
    refine ⟨" (".toList ++ words.head?.elim [] (·.chars), ?_⟩
    rw [hwrap, List.append_assoc]
    · intro c hc
      rw [List.append_assoc, List.head?_append_of_ne_nil _ hnonempty] at hc
      exact hhead c hc
    · intro c hc
      cases words with
      | nil =>
        rw [List.head?_nil, Option.elim_none, List.append_nil,
          List.getLast?_append_of_ne_nil _ (by decide),
          show " (".toList.getLast? = some '(' by decide] at hc
        cases hc
        decide
      | cons word words =>
        rw [List.head?_cons, Option.elim_some, List.getLast?_append_of_ne_nil _ word.nonempty] at hc
        exact (word.plain c (List.mem_of_mem_getLast? hc)).1
    · simp [hnonempty]
  obtain ⟨rest, hrest⟩ := hstripped
  rw [parseField, hrest]
  have hstart : keyword.isPrefixOf (upper (keyword ++ rest)) = true := by
    rw [upper_append, List.isPrefixOf_iff_prefix]
    rcases hkeyword with rfl | rfl
    · exact List.prefix_append primaryKey _
    · exact List.prefix_append foreignKey _
  rcases hkeyword with rfl | rfl <;> simp [hstart]

theorem readFields_list {front : List Char} (hclose : ')' ∉ front) (hcomma : ',' ∉ front)
    (words : List Word) (rest : List Char) (items : List (List Char)) :
    readFields (layout before after ((front ++ wordList gap words ++ ')' :: rest) :: items) ++
      ')' :: tail) =
      (parseField (before.chars ++ front ++ words.head?.elim [] (·.chars))).toList := by
  have hfront : ')' ∉ front ++ wordList gap words := by
    rw [List.mem_append, not_or]
    exact ⟨hclose, not_close_wordList words⟩
  have hline : ',' ∉ before.chars ++ front := by
    rw [List.mem_append, not_or]
    exact ⟨Gap.not_mem rfl, hcomma⟩
  rw [readFields_cut hfront, ← List.append_assoc, filterMap_wordList hline]

theorem readFields_constraints (constraints : List TableConstraint) :
    readFields (layout before after (constraints.map (·.text gap)) ++ ')' :: tail) = [] := by
  cases constraints with
  | nil => exact readFields_close List.not_mem_nil tail
  | cons constraint constraints =>
    rw [List.map_cons]
    cases constraint with
    | primaryKey columns =>
      have htext : (TableConstraint.primaryKey columns).text gap =
          primaryKey ++ " (".toList ++ wordList gap columns ++ ')' :: [] := by
        simp [TableConstraint.text, bracketed]
      rw [htext, readFields_list (by decide) (by decide), parseField_constraint (.inl rfl),
        Option.toList_none]
    | foreignKey columns table references =>
      have htext : (TableConstraint.foreignKey columns table references).text gap =
          foreignKey ++ " (".toList ++ wordList gap columns ++ ')' :: (" REFERENCES ".toList ++
            table.chars ++ bracketed gap references) := by
        simp [TableConstraint.text, bracketed]
      rw [htext, readFields_list (by decide) (by decide), parseField_constraint (.inr rfl),
        Option.toList_none]

theorem signature_parseField {name typeName : Word} {extra : List Char}
    (hextra : extra = [] ∨ ∃ rest, extra = '(' :: rest) (hplain : ∀ c ∈ extra, isSpace c = false)
    (parameters : List Word) (notNull shown : Bool) :
    (parseField (before.chars ++ ((name.chars ++ ' ' :: (typeName.chars ++
      (extra ++ nullMarker shown))) ++ after.chars))).toList.map TableField.signature =
      (ColumnDeclaration.read { name, typeName, parameters, notNull } shown).toList := by
  rw [parseField_column hextra hplain shown, ColumnDeclaration.read]
  by_cases hkey : ColumnDeclaration.ReadsAsKey { name, typeName }
  · have hkey' : ColumnDeclaration.ReadsAsKey { name, typeName, parameters, notNull } := hkey
    rw [if_pos hkey, if_pos hkey']
    rfl
  · have hkey' : ¬ ColumnDeclaration.ReadsAsKey { name, typeName, parameters, notNull } := hkey
    rw [if_neg hkey, if_neg hkey']
    rfl

theorem readFields_columns (columns : List ColumnDeclaration) (constraints : List TableConstraint) :
    (readFields (layout before after (columns.map (·.text gap) ++ constraints.map (·.text gap)) ++
      ')' :: tail)).map TableField.signature = readColumns columns := by
  induction columns with
  | nil =>
    rw [List.map_nil, List.nil_append, readFields_constraints]
    rfl
  | cons column columns ih =>
    obtain ⟨name, typeName, parameters, notNull⟩ := column
    rw [List.map_cons, List.cons_append, readColumns]
    cases parameters with
    | nil =>
      have hclose : ')' ∉ ColumnDeclaration.text gap { name, typeName, notNull } := by
        simp only [ColumnDeclaration.text, List.mem_append, List.mem_cons, not_or]
        refine ⟨Word.not_close name, by decide, Word.not_close typeName, ?_, ?_⟩
        · simp
        · cases notNull <;> decide
      have hcomma : ',' ∉ before.chars ++ (ColumnDeclaration.text gap { name, typeName, notNull } ++
          after.chars) := by
        simp only [ColumnDeclaration.text, List.mem_append, List.mem_cons, not_or]
        refine ⟨Gap.not_mem rfl, ⟨Word.not_comma name, by decide, Word.not_comma typeName, ?_, ?_⟩,
          Gap.not_mem rfl⟩
        · simp
        · cases notNull <;> decide
      rw [readFields_item hclose, List.map_append, ih, filterMap_splitOn_single hcomma, if_pos rfl]
      congr 1
      exact signature_parseField (.inl rfl) (fun c hc => absurd hc List.not_mem_nil) [] notNull notNull
    | cons first rest =>
      have htext : ColumnDeclaration.text gap { name, typeName, parameters := first :: rest, notNull } =
          (name.chars ++ ' ' :: typeName.chars ++ ['(']) ++ wordList gap (first :: rest) ++
            ')' :: nullMarker notNull := by
        simp [ColumnDeclaration.text, bracketed]
      have hclose : ')' ∉ name.chars ++ ' ' :: typeName.chars ++ ['('] := by
        simp [Word.not_close name, Word.not_close typeName]
      have hcomma : ',' ∉ name.chars ++ ' ' :: typeName.chars ++ ['('] := by
        simp [Word.not_comma name, Word.not_comma typeName]
      rw [htext, readFields_list hclose hcomma, if_neg (List.cons_ne_nil _ _)]
      have hfirst := @signature_parseField before ⟨[], by decide⟩ name typeName ('(' :: first.chars)
        (.inr ⟨_, rfl⟩) (by simpa using ⟨by decide, fun c hc => (first.plain c hc).1⟩)
        (first :: rest) notNull false
      rw [← hfirst]
      simp [nullMarker]

end body

end SQLiteSchemaParser

section declared
variable {column : ColumnDeclaration} {columns : List ColumnDeclaration}

/-- What a list of columns needs to be read as declared: only the type of the
last column has parameters, where no `NOT NULL` behind them is needed, and no
column looks like a constraint or spells a `NOT NULL` it does not have. -/
structure ReadsAsDeclared (columns : List ColumnDeclaration) : Prop where
  plain : ∀ column ∈ columns.dropLast, column.parameters = []
  last : ∀ column ∈ columns.getLast?, column.parameters ≠ [] → column.notNull = true →
    column.SpellsNotNull
  noKey : ∀ column ∈ columns, ¬ column.ReadsAsKey
  spelled : ∀ column ∈ columns, column.notNull = false → ¬ column.SpellsNotNull

theorem read_eq_signature_iff {notNull : Bool} :
    column.read notNull = some column.signature ↔ ¬ column.ReadsAsKey ∧
      (notNull || decide column.SpellsNotNull) = column.notNull := by
  unfold ColumnDeclaration.read ColumnDeclaration.signature
  split
  · rename_i hkey
    simp [hkey]
  · rename_i hkey
    cases notNull <;> cases column.notNull <;> simp [hkey]

theorem length_readColumns_le (columns : List ColumnDeclaration) :
    (readColumns columns).length ≤ columns.length := by
  induction columns with
  | nil => exact Nat.le_refl 0
  | cons column columns ih =>
    have hone (notNull : Bool) : (column.read notNull).toList.length ≤ 1 := by
      cases column.read notNull <;> simp
    unfold readColumns
    split
    · rw [List.length_append, List.length_cons]
      have := hone column.notNull
      omega
    · rw [List.length_cons]
      have := hone false
      omega

theorem readsAsDeclared_cons :
    ReadsAsDeclared (column :: columns) ↔ ¬ column.ReadsAsKey ∧
      (column.notNull = false → ¬ column.SpellsNotNull) ∧
      (column.parameters ≠ [] → columns = [] ∧ (column.notNull = true → column.SpellsNotNull)) ∧
      ReadsAsDeclared columns := by
  constructor
  · intro ⟨hplain, hlast, hkey, hspelled⟩
    refine ⟨hkey column List.mem_cons_self, hspelled column List.mem_cons_self, ?_, ?_⟩
    · intro hparameters
      cases columns with
      | nil => exact ⟨rfl, hlast column rfl hparameters⟩
      | cons next columns =>
        rw [List.dropLast_cons_cons] at hplain
        exact absurd (hplain column List.mem_cons_self) hparameters
    · cases columns with
      | nil =>
        constructor
        · exact fun _ h => nomatch h
        · exact fun _ h => nomatch h
        · exact fun _ h => nomatch h
        · exact fun _ h => nomatch h
      | cons next columns =>
        rw [List.dropLast_cons_cons] at hplain
        rw [List.getLast?_cons_cons] at hlast
        constructor
        · exact fun other h => hplain other (List.mem_cons_of_mem _ h)
        · exact hlast
        · exact fun other h => hkey other (List.mem_cons_of_mem _ h)
        · exact fun other h => hspelled other (List.mem_cons_of_mem _ h)
  · intro ⟨hkey, hspelled, hparameters, hrest⟩
    constructor
    · cases columns with
      | nil => exact fun _ h => nomatch h
      | cons next columns =>
        rw [List.dropLast_cons_cons, List.forall_mem_cons]
        refine ⟨?_, hrest.plain⟩
        by_contra hne
        cases (hparameters hne).1
    · cases columns with
      | nil =>
        intro other hother hne
        cases hother
        exact (hparameters hne).2
      | cons next columns =>
        rw [List.getLast?_cons_cons]
        exact hrest.last
    · rw [List.forall_mem_cons]
      exact ⟨hkey, hrest.noKey⟩
    · rw [List.forall_mem_cons]
      exact ⟨hspelled, hrest.spelled⟩

theorem readsAsDeclared_nil : ReadsAsDeclared [] :=
  ⟨fun _ h => (nomatch h), fun _ h => (nomatch h), fun _ h => (nomatch h), fun _ h => (nomatch h)⟩

/-- The columns come back as declared exactly where nothing is cut or misread. -/
theorem readColumns_eq_iff :
    readColumns columns = columns.map (·.signature) ↔ ReadsAsDeclared columns := by
  induction columns with
  | nil => exact iff_of_true rfl readsAsDeclared_nil
  | cons column columns ih =>
    rw [readsAsDeclared_cons, ← ih, readColumns, List.map_cons]
    split
    · rename_i hplain
      have hread : (column.read column.notNull).toList ++ readColumns columns =
          column.signature :: columns.map (·.signature) ↔
          column.read column.notNull = some column.signature ∧
            readColumns columns = columns.map (·.signature) := by
        cases column.read column.notNull with
        | none =>
          refine iff_of_false ?_ (by simp)
          intro hall
          have hlength := congrArg List.length hall
          have := length_readColumns_le columns
          simp at hlength
          omega
        | some signature => simp
      rw [hread, read_eq_signature_iff]
      cases column.notNull <;> simp [hplain, and_assoc]
    · rename_i hparameters
      have hread : (column.read false).toList = column.signature :: columns.map (·.signature) ↔
          column.read false = some column.signature ∧ columns = [] := by
        cases column.read false with
        | none => simp
        | some signature => simp
      rw [hread, read_eq_signature_iff]
      have hempty : columns = [] → readColumns columns = columns.map (·.signature) := by
        rintro rfl
        rfl
      cases hnotNull : column.notNull <;> simp [hparameters] <;> tauto

end declared

theorem parse_signatures (statement : CreateTable) :
    (SQLiteSchemaParser.parseCreateTableSql statement.sql).map TableField.signature =
      readColumns statement.columns := by
  rw [SQLiteSchemaParser.parseCreateTableSql_sql]
  exact SQLiteSchemaParser.readFields_columns statement.columns statement.constraints

/-- The parser returns the declared columns exactly where none is cut or misread. -/
theorem parse_eq_declared_iff (statement : CreateTable) :
    (SQLiteSchemaParser.parseCreateTableSql statement.sql).map TableField.signature =
      statement.columns.map (·.signature) ↔ ReadsAsDeclared statement.columns := by
  rw [parse_signatures, readColumns_eq_iff]

/-- A field is named exactly if the table has it and the schema does not, or the
schema requires it and the table does not have it. -/
theorem SchemaRegistry.validateSqliteTable_names {registry : SchemaRegistry}
    {sql tableName schemaModelName : String} {schema : ModelSchema}
    (h : registry.getModel schemaModelName = some schema) (fieldName : String) :
    (∃ violation ∈ registry.validateSqliteTable sql tableName schemaModelName,
      violation.fieldName = some fieldName) ↔
      (fieldName ∈ (SQLiteSchemaParser.parseCreateTableSql sql).map (·.name) ∧
          fieldName ∉ schema.fields.map (·.name)) ∨
        (∃ field ∈ schema.fields, field.optional = false ∧ field.name = fieldName) ∧
          fieldName ∉ (SQLiteSchemaParser.parseCreateTableSql sql).map (·.name) := by
  simp only [validateSqliteTable, h, List.mem_append, or_and_right, exists_or]
  apply or_congr
  · constructor
    · rintro ⟨violation, hviolation, hname⟩
      obtain ⟨name, hmem, rfl⟩ := List.mem_map.mp hviolation
      cases hname
      rw [List.mem_filter, mem_dedupe, decide_eq_true_iff] at hmem
      exact hmem
    · intro hmem
      refine ⟨_, List.mem_map_of_mem (a := fieldName) ?_, rfl⟩
      rw [List.mem_filter, mem_dedupe, decide_eq_true_iff]
      exact hmem
  · constructor
    · rintro ⟨violation, hviolation, hname⟩
      obtain ⟨field, hmem, rfl⟩ := List.mem_map.mp hviolation
      cases hname
      simp only [List.mem_filter, Bool.and_eq_true, Bool.not_eq_true', decide_eq_true_eq] at hmem
      exact ⟨⟨field, hmem.1, hmem.2.1, rfl⟩, hmem.2.2⟩
    · rintro ⟨⟨field, hfield, hrequired, hname⟩, habsent⟩
      subst hname
      refine ⟨_, List.mem_map_of_mem (a := field) ?_, rfl⟩
      simp only [List.mem_filter, Bool.and_eq_true, Bool.not_eq_true', decide_eq_true_eq]
      exact ⟨hfield, hrequired, habsent⟩

def idColumn : ColumnDeclaration where
  name := ⟨['i', 'd'], by decide, by decide⟩
  typeName := ⟨"INTEGER".toList, by decide, by decide⟩
  notNull := true

def titleColumn : ColumnDeclaration where
  name := ⟨"title".toList, by decide, by decide⟩
  typeName := ⟨"VARCHAR".toList, by decide, by decide⟩
  parameters := [⟨"200".toList, by decide, by decide⟩]

theorem emptyGap_blank : ∀ c ∈ ([] : List Char), isSpace c = true := by decide

theorem spaceGap_blank : ∀ c ∈ [' '], isSpace c = true := by decide

/-- `CREATE TABLE tasks (...)`, a line for each column. -/
def tasksTable (columns : List ColumnDeclaration) (h : columns ≠ []) : CreateTable where
  head := " tasks ".toList
  columns := columns
  constraints := [.primaryKey [idColumn.name]]
  before := ⟨"\n  ".toList, by decide⟩
  after := ⟨[], emptyGap_blank⟩
  gap := ⟨[' '], spaceGap_blank⟩
  nonempty := h

def tasksSchema : ModelSchema where
  name := "Task"
  phase := "design"
  fields := [{ name := "id", type := .integer }, { name := "note", type := .string, optional := true }]

example : (SQLiteSchemaParser.parseCreateTableSql
    (tasksTable [titleColumn, idColumn] (by simp)).sql).map TableField.signature =
      [("title", true)] := by
  decide +kernel

end ProjectOS.Orchestration
