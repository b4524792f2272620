import ProjectOS.Orchestration.SqlStatements

/-! Where the patterns match at a query's own clauses only, the validator reads out
the columns of the query, whole and without others. -/
namespace ProjectOS.Orchestration
open Base Text SQLQueryValidator

variable {w : WordChars}

theorem foldCase_space {c : Char} (h : isSpace c = true) : foldCase c = c := by
  have hcode : c.toNat ≠ 0x130 ∧ c.toNat ≠ 0x131 ∧ c.toNat ≠ 0x17F ∧ c.toNat ≠ 0x212A ∧
      ¬ (65 ≤ c.toNat ∧ c.toNat ≤ 90) := by
    simp only [isSpace, Bool.or_eq_true, Bool.and_eq_true, decide_eq_true_eq, beq_iff_eq] at h
    omega
  obtain ⟨h130, h131, h17F, h212A, hupper⟩ := hcode
  have hlower : c.toLower = c := by
    unfold Char.toLower
    rw [dif_neg]
    simpa [UInt32.le_iff_toNat_le] using hupper
  rw [foldCase, if_neg (by omega), if_neg h17F, if_neg h212A, hlower]

namespace Spelling
variable {keyword : String} (spelling : Spelling keyword)

theorem matches_keyword (rest : List Char) :
    SQLQueryValidator.keyword keyword (spelling.chars ++ rest) = [((), rest)] :=
  Pattern.literal_append spelling.same rest

/-- The first letter, as far as patterns compare it. -/
theorem head_same (c : Char) (h : c ∈ spelling.chars.head?) :
    foldCase c ∈ (keyword.toList.map foldCase).head? := by
  rw [← spelling.same, List.head?_map]
  exact Option.mem_map_of_mem foldCase h

theorem nonempty (h : keyword.toList ≠ []) : spelling.chars ≠ [] := by
  intro hnil
  have := spelling.same
  rw [hnil, List.map_nil, eq_comm, List.map_eq_nil_iff] at this
  exact h this

/-- A keyword starts with a letter, also in another case. -/
theorem head_not_space (h : ∀ c ∈ (keyword.toList.map foldCase).head?, isSpace c = false)
    (hne : keyword.toList ≠ []) (rest : List Char) :
    ∀ c ∈ (spelling.chars ++ rest).head?, isSpace c = false := by
  intro c hc
  rw [List.head?_append_of_ne_nil _ (spelling.nonempty hne)] at hc
  by_contra hspace
  rw [Bool.not_eq_false] at hspace
  have := h _ (spelling.head_same c hc)
  rw [foldCase_space hspace, hspace] at this
  cases this

end Spelling

theorem first_spaces {β : Type} {f : List Char → Pattern β} {m : β × List Char} (space : Space)
    {rest : List Char} (hrest : ∀ c ∈ rest.head?, isSpace c = false)
    (h : Pattern.first (f space.chars) rest = some m) :
    Pattern.first (spaces >>= f) (space.chars ++ rest) = some m :=
  Pattern.first_greedy1 space.nonempty space.blank hrest h

namespace Identifier
variable (identifier : Identifier w)

theorem not_space {c : Char} (h : c ∈ identifier.chars) : isSpace c = false := by
  by_contra hspace
  rw [Bool.not_eq_false] at hspace
  have := w.space c hspace
  rw [identifier.word c h] at this
  cases this

theorem head_not_space (rest : List Char) :
    ∀ c ∈ (identifier.chars ++ rest).head?, isSpace c = false := by
  intro c hc
  rw [List.head?_append_of_ne_nil _ identifier.nonempty] at hc
  exact identifier.not_space (List.mem_of_mem_head? hc)

theorem ne_of_not_word {c d : Char} (h : c ∈ identifier.chars) (hd : w.isWord d = false) : c ≠ d := by
  rintro rfl
  rw [identifier.word c h] at hd
  cases hd

/-- A name in white space is read as the name. -/
theorem stripped_wrap (before after : Gap) :
    stripped (before.chars ++ (identifier.chars ++ after.chars)) = identifier.chars :=
  Text.stripped_wrap before.blank after.blank
    (fun _ hc => identifier.not_space (List.mem_of_mem_head? hc))
    (fun _ hc => identifier.not_space (List.mem_of_mem_getLast? hc)) identifier.nonempty

end Identifier

/-- The word after which a word pattern stops. -/
theorem first_word {β : Type} {f : List Char → Pattern β} {m : β × List Char}
    (identifier : Identifier w) {rest : List Char} (hrest : ∀ c ∈ rest.head?, w.isWord c = false)
    (h : Pattern.first (f identifier.chars) rest = some m) :
    Pattern.first (word w >>= f) (identifier.chars ++ rest) = some m :=
  Pattern.first_greedy1 identifier.nonempty identifier.word hrest h

namespace Symbol

/-- What the field pattern leaves of the operator: it takes `<` for `<=`. -/
def left : Symbol → List Char
  | le => ['=']
  | ge => ['=']
  | _ => []

theorem first_operator (sign : Symbol) (rest : List Char) :
    Pattern.first operatorPattern (sign.chars ++ rest) = some ((), sign.left ++ rest) := by
  cases sign <;> rfl

theorem head_plain (sign : Symbol) : ∀ c ∈ sign.chars.head?, isSpace c = false ∧ w.isWord c = false := by
  intro c hc
  have hsign : c = '=' ∨ c = '!' ∨ c = '<' ∨ c = '>' := by
    cases sign <;> simp [chars] at hc <;> simp [← hc]
  rcases hsign with rfl | rfl | rfl | rfl <;> exact ⟨by decide, w.ascii _ (by decide)⟩

end Symbol

theorem keyword_eq_nil {d : Char} {keyword : String} {text : List Char} {others : List Char}
    (hkeyword : keyword.toList = d :: others) (h : ∀ c ∈ text.head?, foldCase c ≠ foldCase d) :
    SQLQueryValidator.keyword keyword text = [] := by
  rw [SQLQueryValidator.keyword, hkeyword]
  exact Pattern.literal_eq_nil h

/-- A spelling does not read as a keyword that starts with another letter. -/
theorem Spelling.other_keyword {keyword other : String} (spelling : Spelling keyword)
    (hne : keyword.toList ≠ []) {d : Char} {others : List Char} (hother : other.toList = d :: others)
    (h : foldCase d ∉ (keyword.toList.map foldCase).head?) (rest : List Char) :
    SQLQueryValidator.keyword other (spelling.chars ++ rest) = [] := by
  apply keyword_eq_nil hother
  intro c hc hsame
  rw [List.head?_append_of_ne_nil _ (spelling.nonempty hne)] at hc
  exact h (hsame ▸ spelling.head_same c hc)

theorem first_operator_in (spelling : Spelling "IN") (rest : List Char) :
    Pattern.first operatorPattern (spelling.chars ++ rest) = some ((), rest) := by
  unfold operatorPattern
  iterate 6
    rw [Pattern.first_either_right (spelling.other_keyword (by decide) rfl (by decide) rest)]
  apply Pattern.first_either_left
  rw [Pattern.first, spelling.matches_keyword]
  rfl

theorem first_operator_like (spelling : Spelling "LIKE") (rest : List Char) :
    Pattern.first operatorPattern (spelling.chars ++ rest) = some ((), rest) := by
  unfold operatorPattern
  iterate 7
    rw [Pattern.first_either_right (spelling.other_keyword (by decide) rfl (by decide) rest)]
  rw [Pattern.first, spelling.matches_keyword]
  rfl

/-- The part of the field pattern behind the word. -/
def fieldTail (field : List Char) : Pattern (List Char) := do
  let _ ← Pattern.greedy isSpace
  operatorPattern
  return field

theorem first_fieldTail (before : Gap) {text rest : List Char} (field : List Char)
    (htext : ∀ c ∈ text.head?, isSpace c = false)
    (h : Pattern.first operatorPattern text = some ((), rest)) :
    Pattern.first (fieldTail field) (before.chars ++ text) = some (field, rest) :=
  Pattern.first_greedy before.blank htext (Pattern.first_bind_of_first h rfl)

namespace Test

theorem head_not_word (test : Test) (rest : List Char) :
    ∀ c ∈ (test.text ++ rest).head?, w.isWord c = false := by
  have hspace (space : Space) (text : List Char) :
      ∀ c ∈ (space.chars ++ text).head?, w.isWord c = false :=
    fun c hc => w.space c (space_head space text c hc)
  cases test with
  | symbol before sign after operand =>
    intro c hc
    simp only [text, List.append_assoc] at hc
    cases hbefore : before.chars with
    | nil =>
      rw [hbefore, List.nil_append, List.head?_append_of_ne_nil _ (by cases sign <;> decide)] at hc
      exact (sign.head_plain c hc).2
    | cons d others =>
      rw [hbefore] at hc
      have hd : c = d := by simpa [eq_comm] using hc
      rw [hd]
      exact w.space d (before.blank d (hbefore ▸ List.mem_cons_self))
  | isIn before => simpa only [text, List.append_assoc] using hspace before _
  | like before => simpa only [text, List.append_assoc] using hspace before _
  | isNull before => simpa only [text, List.append_assoc] using hspace before _

/-- The pattern matches up to the operator and leaves the operand. -/
theorem first_fieldTail {test : Test} (h : test.supported = true) (field rest : List Char) :
    ∃ front tail, test.text = front ++ tail ∧
      Pattern.first (fieldTail field) (test.text ++ rest) = some (field, tail ++ rest) := by
  cases test with
  | symbol before sign after operand =>
    have hsign : ∀ c ∈ (sign.chars ++ (after.chars ++ operand.chars ++ rest)).head?,
        isSpace c = false := by
      intro c hc
      rw [List.head?_append_of_ne_nil _ (by cases sign <;> decide)] at hc
      exact (sign.head_plain (w := asciiWords) c hc).1
    have htext : sign.chars = sign.chars.take (sign.chars.length - sign.left.length) ++ sign.left := by
      cases sign <;> rfl
    refine ⟨before.chars ++ sign.chars.take (sign.chars.length - sign.left.length),
      sign.left ++ (after.chars ++ operand.chars), ?_, ?_⟩
    · rw [text, List.append_assoc before.chars, htext]
      simp
    · have := Orchestration.first_fieldTail before field hsign (sign.first_operator _)
      simpa only [text, List.append_assoc] using this
  | isIn before spelling after operand =>
    have := Orchestration.first_fieldTail before.toGap field
      (spelling.head_not_space (by decide) (by decide) (after.chars ++ operand.chars ++ rest))
      (first_operator_in spelling _)
    exact ⟨before.chars ++ spelling.chars, after.chars ++ operand.chars,
      by simp only [text, List.append_assoc], by simpa only [text, List.append_assoc] using this⟩
  | like before spelling after operand =>
    have := Orchestration.first_fieldTail before.toGap field
      (spelling.head_not_space (by decide) (by decide) (after.chars ++ operand.chars ++ rest))
      (first_operator_like spelling _)
    exact ⟨before.chars ++ spelling.chars, after.chars ++ operand.chars,
      by simp only [text, List.append_assoc], by simpa only [text, List.append_assoc] using this⟩
  | isNull => cases h

end Test

/-- The fields that the pattern finds from one place of the conditions on. -/
def fieldsFrom (w : WordChars) (before text : List Char) : List (List Char) :=
  (Pattern.matchesFrom w.wordStart (fieldPattern w) before text).map (·.2.1)

theorem fieldsFrom_silent {before front after : List Char} (h : Silent w before front after) :
    fieldsFrom w before (front ++ after) = fieldsFrom w (before ++ front) after := by
  rw [fieldsFrom, Pattern.matchesFrom_silent h, fieldsFrom]

theorem fieldsFrom_match (before : List Char) {front rest field : List Char} (hne : front ≠ [])
    (hstart : w.wordStart before.getLast? = true)
    (h : Pattern.first (fieldPattern w) (front ++ rest) = some (field, rest)) :
    fieldsFrom w before (front ++ rest) = field :: fieldsFrom w (before ++ front) rest := by
  rw [fieldsFrom, Pattern.matchesFrom_found hne hstart h, List.map_cons, fieldsFrom]

/-- A compared column is read whole, and nothing else up to the next comparison. -/
theorem Comparison.fieldsFrom_text (comparison : Comparison w) {before join after : List Char}
    (hstart : w.wordStart before.getLast? = true) (h : comparison.Silent before join after) :
    fieldsFrom w before (comparison.text ++ join ++ after) =
      (if comparison.test.supported then [comparison.column.chars] else []) ++
        fieldsFrom w (before ++ comparison.text ++ join) after := by
  unfold Comparison.Silent at h
  split at h
  · rename_i hsupported
    obtain ⟨front, tail, htest, hfirst⟩ :=
      Test.first_fieldTail hsupported comparison.column.chars (join ++ after)
    have hfield : Pattern.first (fieldPattern w)
        ((comparison.column.chars ++ front) ++ (tail ++ (join ++ after))) =
          some (comparison.column.chars, tail ++ (join ++ after)) := by
      rw [List.append_assoc, ← List.append_assoc front, ← htest]
      exact first_word comparison.column (comparison.test.head_not_word _) hfirst
    have hmatch := fieldsFrom_match before (by simp [comparison.column.nonempty]) hstart
      hfield
    have hsilent : Orchestration.Silent w (before ++ (comparison.column.chars ++ front))
        (tail ++ join) after := by
      rw [htest, List.append_assoc] at h
      rw [← List.append_assoc]
      exact h.drop
    rw [← List.append_assoc tail, fieldsFrom_silent hsilent] at hmatch
    have htext : comparison.text = comparison.column.chars ++ front ++ tail := by
      rw [Comparison.text, htest, List.append_assoc]
    rw [if_pos hsupported, htext]
    simpa only [List.append_assoc, List.singleton_append] using hmatch
  · rename_i hsupported
    rw [if_neg hsupported, List.nil_append, fieldsFrom_silent h, List.append_assoc]

namespace Conditions

theorem head_not_space (conditions : Conditions w) :
    ∀ c ∈ conditions.text.head?, isSpace c = false := by
  cases conditions with
  | one comparison => exact comparison.column.head_not_space _
  | joined comparison =>
    simp only [text, Comparison.text, List.append_assoc]
    exact comparison.column.head_not_space _

/-- The columns that the pattern finds are the compared ones. -/
theorem fieldsFrom_text (conditions : Conditions w) (before : List Char)
    (hstart : w.wordStart before.getLast? = true) (h : conditions.Silent before) :
    fieldsFrom w before conditions.text = conditions.compared.map (·.chars) := by
  induction conditions generalizing before with
  | one comparison =>
    have hread := comparison.fieldsFrom_text hstart h
    rw [List.append_nil, List.append_nil] at hread
    rw [text, hread, compared]
    split <;> rfl
  | joined comparison connective rest ih =>
    have hread := comparison.fieldsFrom_text hstart h.1
    have hjoin : w.wordStart (before ++ comparison.text ++ connective.text).getLast? = true := by
      have hne := connective.after.nonempty
      rw [Connective.text, ← List.append_assoc, List.getLast?_append_of_ne_nil _ hne,
        List.getLast?_eq_getLast_of_ne_nil hne]
      simp [WordChars.wordStart, w.space _ (connective.after.blank _ (List.getLast_mem hne))]
    rw [text, hread, ih _ hjoin h.2, compared, List.map_append]
    split <;> rfl

theorem whereFields_text {conditions : Conditions w} (h : conditions.Silent []) :
    whereFields w conditions.text = conditions.compared.map (·.chars) := by
  have hfields := conditions.fieldsFrom_text [] rfl h
  rw [fieldsFrom] at hfields
  rw [whereFields, Pattern.findAll, Pattern.findIter, hfields, List.filter_eq_self]
  intro field hfield
  obtain ⟨column, -, rfl⟩ := List.mem_map.mp hfield
  simpa using column.plain

end Conditions

/-- The last letter of a keyword, as far as patterns compare it. -/
theorem Spelling.last_same {keyword : String} (spelling : Spelling keyword) (c : Char)
    (h : c ∈ spelling.chars.getLast?) : foldCase c ∈ (keyword.toList.map foldCase).getLast? := by
  rw [← spelling.same, List.getLast?_map]
  exact Option.mem_map_of_mem foldCase h

namespace Test

theorem last_not_space (test : Test) (front : List Char) :
    front ++ test.text ≠ [] ∧ ∀ c ∈ (front ++ test.text).getLast?, isSpace c = false := by
  have hend (before : List Char) {tail : List Char} (hne : tail ≠ [])
      (h : ∀ c ∈ tail.getLast?, isSpace c = false) :
      before ++ tail ≠ [] ∧ ∀ c ∈ (before ++ tail).getLast?, isSpace c = false := by
    rw [List.getLast?_append_of_ne_nil _ hne]
    exact ⟨List.append_ne_nil_of_right_ne_nil _ hne, h⟩
  have hnull (null : Spelling "NULL") : ∀ c ∈ null.chars.getLast?, isSpace c = false := by
    intro c hc
    by_contra hspace
    rw [Bool.not_eq_false] at hspace
    have hlast := null.last_same c hc
    rw [foldCase_space hspace] at hlast
    have hletter : 'l' = c := Option.some.inj hlast
    rw [← hletter] at hspace
    exact absurd hspace (by decide)
  cases test with
  | isNull before word after null =>
    rw [text, ← List.append_assoc]
    exact hend _ (null.nonempty (by decide)) (hnull null)
  | symbol before sign after operand =>
    rw [text, ← List.append_assoc]
    exact hend _ operand.nonempty operand.trimmed
  | isIn before word after operand =>
    rw [text, ← List.append_assoc]
    exact hend _ operand.nonempty operand.trimmed
  | like before word after operand =>
    rw [text, ← List.append_assoc]
    exact hend _ operand.nonempty operand.trimmed

end Test

theorem Conditions.last_not_space (conditions : Conditions w) :
    conditions.text ≠ [] ∧ ∀ c ∈ conditions.text.getLast?, isSpace c = false := by
  induction conditions with
  | one comparison => exact comparison.test.last_not_space _
  | joined comparison connective rest ih =>
    rw [Conditions.text, List.getLast?_append_of_ne_nil _ ih.1]
    exact ⟨List.append_ne_nil_of_right_ne_nil _ ih.1, ih.2⟩

/-- A text that does not end in white space ends only at its end. -/
theorem atEnd_eq_nil {a b text : List Char} (hlast : ∀ c ∈ text.getLast?, isSpace c = false)
    (htext : a ++ b = text) (hb : b ≠ []) : Pattern.atEnd b = [] := by
  rw [Pattern.atEnd, if_neg]
  rintro (hnil | hnewline)
  · exact hb hnil
  · rw [← htext, hnewline] at hlast
    exact absurd (hlast '\n' (by simp)) (by decide)

namespace Filter
variable (filter : Filter w)

/-- The pattern finds the conditions, up to the end of the text. -/
theorem first_clause (h : filter.conditions.Plain) :
    Pattern.first wherePattern filter.clause = some (filter.conditions.text, []) := by
  have hend : Pattern.first (Pattern.either closingPattern Pattern.atEnd) [] = some ((), []) := rfl
  have habsent (a b : List Char) (htext : a ++ b = filter.conditions.text) (hb : b ≠ []) :
      Pattern.either closingPattern Pattern.atEnd (b ++ []) = [] := by
    apply Pattern.either_eq_nil (h.1 a b htext hb)
    rw [List.append_nil]
    exact atEnd_eq_nil filter.conditions.last_not_space.2 htext hb
  have hlazy : Pattern.first (Pattern.lazily >>= fun conditions => do
      Pattern.either closingPattern Pattern.atEnd
      return conditions) (filter.conditions.text ++ []) = some (filter.conditions.text, []) :=
    Pattern.first_lazily (fun a b htext hb => Pattern.bind_eq_nil (habsent a b htext hb) _)
      (Pattern.first_bind_of_first hend rfl)
  rw [List.append_nil] at hlazy
  rw [clause, List.append_assoc, wherePattern,
    Pattern.first_bind_of_eq (filter.whereWord.matches_keyword _)]
  exact first_spaces filter.after filter.conditions.head_not_space hlazy

end Filter

theorem clauseFields_of_first {pattern : Pattern (List Char)}
    {fields : List Char → List (List Char)} {front own clause rest : List Char}
    (habsent : Pattern.Absent pattern front own)
    (h : Pattern.first pattern own = some (clause, rest)) :
    clauseFields pattern fields (front ++ own) = fields clause := by
  rw [clauseFields, Pattern.search_append habsent, Pattern.search_of_first h]
  rfl

theorem clauseFields_of_absent {pattern : Pattern (List Char)}
    {fields : List Char → List (List Char)} {text : List Char}
    (habsent : Pattern.Absent pattern text []) (hnil : pattern [] = []) :
    clauseFields pattern fields text = [] := by
  rw [clauseFields, Pattern.search_eq_none habsent hnil]
  rfl

/-- The conditions of a filter give their compared columns, no filter gives none. -/
theorem whereFields_filter {front : List Char} {filter : Option (Filter w)}
    (h : FilterOwn front filter) :
    clauseFields wherePattern (whereFields w) (front ++ filterText filter) =
      (filterCompared filter).map (·.chars) := by
  cases filter with
  | none =>
    rw [filterText, Option.map_none, Option.getD_none, List.append_nil]
    exact clauseFields_of_absent h rfl
  | some filter =>
    rw [filterText, Option.map_some, Option.getD_some, Filter.text, ← List.append_assoc,
      clauseFields_of_first h.1 (filter.first_clause h.2)]
    exact Conditions.whereFields_text h.2.2

theorem Identifier.no_comma (identifier : Identifier w) : ',' ∉ identifier.chars :=
  fun h => identifier.ne_of_not_word h (w.ascii ',' (by decide)) rfl

theorem separated_cons {β : Type} (text : β → List Char) (head : β) (other : Gap × Gap × β)
    (others : List (Gap × Gap × β)) : separated text head (other :: others) =
      (text head ++ other.1.chars ++ ',' :: other.2.1.chars) ++ separated text other.2.2 others := by
  simp [separated]

/-- Splitting at the commas gives each item in its white space. -/
theorem splitOn_separated {β : Type} {text read : β → List Char} {f : List Char → List Char}
    (hread : ∀ (before : Gap) item (after : Gap),
      f (before.chars ++ (text item ++ after.chars)) = read item)
    (head : β) (others : List (Gap × Gap × β))
    (hcomma : ∀ item ∈ head :: others.map (·.2.2), ',' ∉ text item) (before after : Gap) :
    (splitOn ',' (before.chars ++ (separated text head others ++ after.chars))).map f =
      (head :: others.map (·.2.2)).map read := by
  induction others generalizing head before with
  | nil =>
    have hhead := hcomma head List.mem_cons_self
    rw [separated, List.flatMap_nil, List.append_nil,
      splitOn_of_not_mem (by simp [before.no_comma, after.no_comma, hhead])]
    simp [hread]
  | cons other others ih =>
    have hhead := hcomma head List.mem_cons_self
    have htext : before.chars ++ (separated text head (other :: others) ++ after.chars) =
        (before.chars ++ (text head ++ other.1.chars)) ++
          ',' :: (other.2.1.chars ++ (separated text other.2.2 others ++ after.chars)) := by
      simp [separated]
    have hrest := ih other.2.2 (fun item hitem => hcomma item (List.mem_cons_of_mem _ hitem))
      other.2.1
    rw [htext, splitOn_append (by simp [before.no_comma, other.1.no_comma, hhead]),
      List.map_cons, hrest, hread]
    rfl

namespace Identifier
variable (identifier : Identifier w)

/-- A name has no alias and no table. -/
theorem selectField_wrap (before after : Gap) :
    selectField w (before.chars ++ (identifier.chars ++ after.chars)) = identifier.chars := by
  have hplain : Pattern.substitute (fun _ => true) (aliasPattern w) (fun _ _ => [])
      identifier.chars = identifier.chars := by
    apply Pattern.substitute_of_absent
    intro a b htext hb
    apply Pattern.bind_eq_nil
    apply Pattern.greedy1_eq_nil
    intro c hc
    rw [List.append_nil] at hc
    apply identifier.not_space
    rw [← htext]
    exact List.mem_append_right _ (List.mem_of_mem_head? hc)
  have hdot : '.' ∉ identifier.chars :=
    fun h => identifier.ne_of_not_word h (w.ascii '.' (by decide)) rfl
  unfold selectField
  rw [identifier.stripped_wrap, hplain, if_neg hdot]

theorem ne_star : identifier.chars ≠ ['*'] := by
  intro h
  exact identifier.ne_of_not_word (h ▸ List.mem_singleton_self _) (w.ascii '*' (by decide)) rfl

end Identifier

namespace ColumnList
variable (columns : ColumnList w)

theorem no_comma : ∀ column ∈ columns.head :: columns.others.map (·.2.2), ',' ∉ column.chars :=
  fun column _ => column.no_comma

theorem selectFields_text : selectFields w columns.text = columns.all.map (·.chars) := by
  have hsplit := splitOn_separated (f := selectField w)
    (fun before item after => Identifier.selectField_wrap item before after)
    columns.head columns.others columns.no_comma ⟨[], by simp⟩ ⟨[], by simp⟩
  rw [List.nil_append, List.append_nil] at hsplit
  rw [selectFields, text, hsplit]
  apply List.filter_eq_self.mpr
  intro field hfield
  obtain ⟨column, -, rfl⟩ := List.mem_map.mp hfield
  simp [column.nonempty, column.ne_star]

theorem insertFields_text (before after : Gap) :
    insertFields (before.chars ++ (columns.text ++ after.chars)) = columns.all.map (·.chars) := by
  have hsplit := splitOn_separated (f := stripped)
    (fun before item after => Identifier.stripped_wrap item before after)
    columns.head columns.others columns.no_comma before after
  rw [insertFields, text, hsplit]
  apply List.filter_eq_self.mpr
  intro field hfield
  obtain ⟨column, -, rfl⟩ := List.mem_map.mp hfield
  simp [column.nonempty]

end ColumnList

/-- The part of an assignment before `=` is the name of its column. -/
theorem Assignment.stripped_left (assignment : Assignment w) (before after : Gap) :
    stripped ((before.chars ++ (assignment.text ++ after.chars)).takeWhile (· ≠ '=')) =
      assignment.column.chars := by
  have hgap (gap : Gap) : ∀ c ∈ gap.chars, decide (c ≠ '=') = true := by
    intro c hc
    rw [decide_eq_true_eq]
    rintro rfl
    exact absurd (gap.blank _ hc) (by decide)
  have hcolumn : ∀ c ∈ assignment.column.chars, decide (c ≠ '=') = true := by
    intro c hc
    rw [decide_eq_true_eq]
    exact assignment.column.ne_of_not_word hc (w.ascii '=' (by decide))
  have hleft : (before.chars ++ (assignment.text ++ after.chars)).takeWhile (· ≠ '=') =
      before.chars ++ (assignment.column.chars ++ assignment.before.chars) := by
    simp only [text, List.append_assoc]
    rw [List.takeWhile_append_of_pos (hgap before), List.takeWhile_append_of_pos hcolumn,
      List.takeWhile_append_of_pos (hgap assignment.before)]
    simp
  rw [hleft, assignment.column.stripped_wrap]

theorem Update.updateFields_text {statement : Update w}
    (h : ∀ assignment ∈ statement.assignments, ',' ∉ assignment.value.chars) (after : Gap) :
    updateFields (statement.setClause ++ after.chars) =
      statement.assignments.map (·.column.chars) := by
  have hcomma : ∀ assignment ∈ statement.head :: statement.others.map (·.2.2),
      ',' ∉ assignment.text := by
    intro assignment hmem
    simp [Assignment.text, assignment.column.no_comma, assignment.before.no_comma,
      h assignment hmem]
  have hsplit := splitOn_separated
    (f := fun assignment => stripped (assignment.takeWhile (· ≠ '=')))
    (fun before item after => Assignment.stripped_left item before after)
    statement.head statement.others hcomma ⟨[], by simp⟩ after
  rw [List.nil_append] at hsplit
  rw [updateFields, setClause, hsplit]
  apply List.filter_eq_self.mpr
  intro field hfield
  obtain ⟨assignment, -, rfl⟩ := List.mem_map.mp hfield
  simp [assignment.column.nonempty]

namespace Select
variable (statement : Select w)

theorem first_from (rest : List Char) : Pattern.first fromPattern (statement.fromClause ++ rest) =
    some ((), statement.beforeTable.chars ++ statement.table.chars ++ rest) := by
  have hword := statement.fromWord.matches_keyword
    (statement.beforeTable.chars ++ (statement.table.chars ++ rest))
  simp only [fromClause, List.append_assoc]
  apply first_spaces statement.afterColumns
    (statement.fromWord.head_not_space (by decide) (by decide) _)
  rw [Pattern.first, hword]
  rfl

/-- The pattern finds the column list. -/
theorem first_text (h : Pattern.Absent fromPattern statement.columns.text
    (statement.fromClause ++ filterText statement.filter)) :
    ∃ rest, Pattern.first selectPattern statement.text = some (statement.columns.text, rest) := by
  have hlazy : Pattern.first (Pattern.lazily >>= fun fields => do
      fromPattern
      return fields)
        (statement.columns.text ++ (statement.fromClause ++ filterText statement.filter)) =
      some (statement.columns.text, _) :=
    Pattern.first_lazily (fun a b htext hb => Pattern.bind_eq_nil (h a b htext hb) _)
      (Pattern.first_bind_of_first (statement.first_from _) rfl)
  have hhead : ∀ c ∈ (statement.columns.text ++
      (statement.fromClause ++ filterText statement.filter)).head?, isSpace c = false := by
    simp only [ColumnList.text, separated, List.append_assoc]
    exact statement.columns.head.head_not_space _
  refine ⟨statement.beforeTable.chars ++ statement.table.chars ++ filterText statement.filter, ?_⟩
  simp only [text, head, List.append_assoc] at hlazy hhead ⊢
  rw [selectPattern, Pattern.first_bind_of_eq (statement.selectWord.matches_keyword _)]
  exact first_spaces statement.beforeColumns hhead hlazy

end Select

/-- Only letters are compared in another case. -/
theorem foldCase_eq {c d : Char} (h : foldCase c = d) (hd : d.isAlpha = false) : c = d := by
  rw [← h] at hd ⊢
  unfold foldCase at hd ⊢
  split at hd
  · cases hd
  split at hd
  · cases hd
  split at hd
  · cases hd
  rename_i h1 h2 h3
  rw [if_neg h1, if_neg h2, if_neg h3]
  unfold Char.toLower at hd ⊢
  split
  · rename_i hupper
    rw [dif_pos hupper] at hd
    delta Char.isAlpha Char.isUpper Char.isLower at hd
    simp [UInt32.le_iff_toNat_le] at hd hupper
    omega
  · rfl

/-- A sign stands nowhere in a text without it. -/
theorem keyword_absent {sign : Char} {keyword : String} {front own : List Char}
    (hkeyword : keyword.toList = [sign]) (hsign : sign.isAlpha = false)
    (hsame : foldCase sign = sign) (h : sign ∉ front) :
    Pattern.Absent (SQLQueryValidator.keyword keyword) front own := by
  intro a b htext hb
  apply keyword_eq_nil hkeyword
  intro c hc hfold
  rw [List.head?_append_of_ne_nil _ hb] at hc
  rw [hsame] at hfold
  apply h
  rw [← foldCase_eq hfold hsign, ← htext]
  exact List.mem_append_right _ (List.mem_of_mem_head? hc)

theorem not_mem_separated {β : Type} {text : β → List Char} {c : Char} (hspace : isSpace c = false)
    (hcomma : c ≠ ',') (h : ∀ item, c ∉ text item) (head : β) (others : List (Gap × Gap × β)) :
    c ∉ separated text head others := by
  induction others generalizing head with
  | nil => simpa [separated] using h head
  | cons other others ih =>
    rw [separated_cons]
    simp [h, hcomma, Gap.not_mem hspace, ih]

namespace Insert
variable (statement : Insert w)

/-- The pattern finds the column list between the brackets. -/
theorem first_text : Pattern.first (insertPattern w) statement.text =
    some (statement.beforeColumns.chars ++ (statement.columns.text ++ statement.afterColumns.chars),
      statement.source.text) := by
  have hbracket : ')' ∉ statement.beforeColumns.chars ++
      (statement.columns.text ++ statement.afterColumns.chars) := by
    have hcolumns : ')' ∉ statement.columns.text :=
      not_mem_separated (by decide) (by decide)
        (fun column h => column.ne_of_not_word h (w.ascii ')' (by decide)) rfl) _ _
    simp [hcolumns, Gap.not_mem (show isSpace ')' = false by decide)]
  have hlazy : Pattern.first (Pattern.lazily >>= fun fields => do
      keyword ")"
      return fields)
        ((statement.beforeColumns.chars ++ (statement.columns.text ++ statement.afterColumns.chars)) ++
          ')' :: statement.source.text) = some (_, statement.source.text) :=
    Pattern.first_lazily
      (fun a b htext hb =>
        Pattern.bind_eq_nil (keyword_absent rfl (by decide) (by decide) hbracket a b htext hb) _)
      (@Pattern.first_bind_of_first _ _ _ () _ statement.source.text _ _ rfl rfl)
  have hopening (rest : List Char) : keyword "(" ('(' :: rest) = [((), rest)] := rfl
  have hspaceHead (rest : List Char) : ∀ c ∈ ('(' :: rest).head?, isSpace c = false := by
    intro c hc
    rw [← Option.some.inj hc]
    decide
  have hwordHead (rest : List Char) :
      ∀ c ∈ (statement.afterTable.chars ++ '(' :: rest).head?, w.isWord c = false := by
    intro c hc
    cases hgap : statement.afterTable.chars with
    | nil =>
      rw [hgap] at hc
      rw [← Option.some.inj hc]
      exact w.ascii _ (by decide)
    | cons d others =>
      rw [hgap] at hc
      rw [← Option.some.inj hc]
      exact w.space d (statement.afterTable.blank d (hgap ▸ List.mem_cons_self))
  simp only [List.append_assoc] at hlazy ⊢
  simp only [text, head, List.append_assoc, List.cons_append, List.nil_append]
  rw [insertPattern, Pattern.first_bind_of_eq (statement.insertWord.matches_keyword _)]
  apply first_spaces statement.beforeInto
    (statement.intoWord.head_not_space (by decide) (by decide) _)
  rw [Pattern.first_bind_of_eq (statement.intoWord.matches_keyword _)]
  apply first_spaces statement.beforeTable (statement.table.head_not_space _)
  apply first_word statement.table (hwordHead _)
  apply Pattern.first_greedy statement.afterTable.blank (hspaceHead _)
  rw [Pattern.first_bind_of_eq (hopening _)]
  exact hlazy

end Insert

theorem separated_last {β : Type} {text : β → List Char}
    (h : ∀ item, text item ≠ [] ∧ ∀ c ∈ (text item).getLast?, isSpace c = false)
    (head : β) (others : List (Gap × Gap × β)) : separated text head others ≠ [] ∧
      ∀ c ∈ (separated text head others).getLast?, isSpace c = false := by
  induction others generalizing head with
  | nil => simpa [separated] using h head
  | cons other others ih =>
    obtain ⟨hne, hlast⟩ := ih other.2.2
    rw [separated_cons, List.getLast?_append_of_ne_nil _ hne]
    exact ⟨List.append_ne_nil_of_right_ne_nil _ hne, hlast⟩

theorem where_eq_nil {text : List Char} (h : ∀ c ∈ text.head?, isSpace c = true) :
    keyword "WHERE" text = [] := by
  apply keyword_eq_nil rfl
  intro c hc hsame
  have hspace := h c hc
  rw [foldCase_space hspace] at hsame
  rw [hsame] at hspace
  exact absurd hspace (by decide)

namespace Update
variable (statement : Update w)

theorem setClause_last : statement.setClause ≠ [] ∧
    ∀ c ∈ statement.setClause.getLast?, isSpace c = false := by
  apply separated_last
  intro assignment
  have hne : '=' :: assignment.value.chars ≠ [] := List.cons_ne_nil _ _
  have hvalue : ('=' :: assignment.value.chars).getLast? = assignment.value.chars.getLast? := by
    rw [← List.singleton_append, List.getLast?_append_of_ne_nil _ assignment.value.nonempty]
  rw [Assignment.text, List.getLast?_append_of_ne_nil _ hne, hvalue]
  exact ⟨List.append_ne_nil_of_right_ne_nil _ hne, assignment.value.trimmed⟩

/-- What ends the assignments. -/
def assignmentsEnd : Pattern Unit := Pattern.either (keyword "WHERE") Pattern.atEnd

/-- The assignments go up to `WHERE` or to the end. -/
theorem first_assignments
    (h : Pattern.Absent (keyword "WHERE") statement.setClause (filterText statement.filter)) :
    ∃ (after : Gap) (rest : List Char), Pattern.first (Pattern.lazily >>= fun assignments => do
      assignmentsEnd
      return assignments) (statement.setClause ++ filterText statement.filter) =
        some (statement.setClause ++ after.chars, rest) := by
  cases hfilter : statement.filter with
  | none =>
    have hnone : filterText (none : Option (Filter w)) = [] := rfl
    rw [hfilter, hnone] at h
    have habsent (a b : List Char) (htext : a ++ b = statement.setClause) (hb : b ≠ []) :
        assignmentsEnd (b ++ []) = [] := by
      apply Pattern.either_eq_nil (h a b htext hb)
      rw [List.append_nil]
      exact atEnd_eq_nil statement.setClause_last.2 htext hb
    refine ⟨⟨[], by simp⟩, [], ?_⟩
    rw [List.append_nil]
    exact Pattern.first_lazily (fun a b htext hb => Pattern.bind_eq_nil (habsent a b htext hb) _)
      (@Pattern.first_bind_of_first _ _ _ () _ [] _ _ rfl rfl)
  | some filter =>
    rw [hfilter] at h
    have hclause : filterText (some filter) = filter.before.chars ++ filter.clause := rfl
    have hwhere : 1 < filter.clause.length := by
      have hlength := congrArg List.length filter.whereWord.same
      rw [List.length_map, List.length_map] at hlength
      rw [Filter.clause, List.length_append, List.length_append, hlength]
      exact Nat.lt_of_lt_of_le (by decide : 1 < "WHERE".toList.length)
        (by rw [Nat.add_assoc]; exact Nat.le_add_right _ _)
    have habsent (a b : List Char) (htext : a ++ b = statement.setClause ++ filter.before.chars)
        (hb : b ≠ []) : assignmentsEnd (b ++ filter.clause) = [] := by
      apply Pattern.either_eq_nil
      · rcases List.append_eq_append_iff.mp htext with ⟨c, hset, hrest⟩ | ⟨c, -, hspace⟩
        · by_cases hc : c = []
          · rw [hrest, hc, List.nil_append]
            exact where_eq_nil (space_head filter.before filter.clause)
          · rw [hrest, List.append_assoc]
            exact h a c hset.symm hc
        · apply where_eq_nil
          intro d hd
          rw [List.head?_append_of_ne_nil _ hb] at hd
          apply filter.before.blank
          rw [hspace]
          exact List.mem_append_right c (List.mem_of_mem_head? hd)
      · rw [Pattern.atEnd, if_neg]
        have hlong : 1 < (b ++ filter.clause).length := by
          rw [List.length_append]
          omega
        rintro (hnil | hnewline)
        · rw [hnil] at hlong
          exact absurd hlong (by decide)
        · rw [hnewline] at hlong
          exact absurd hlong (by decide)
    have hown : Pattern.first assignmentsEnd filter.clause =
        some ((), filter.after.chars ++ filter.conditions.text) := by
      apply Pattern.first_either_left
      rw [Filter.clause, List.append_assoc, Pattern.first, filter.whereWord.matches_keyword]
      rfl
    refine ⟨filter.before.toGap, filter.after.chars ++ filter.conditions.text, ?_⟩
    rw [hclause, ← List.append_assoc]
    exact Pattern.first_lazily (fun a b htext hb => Pattern.bind_eq_nil (habsent a b htext hb) _)
      (Pattern.first_bind_of_first hown rfl)

/-- The pattern finds the assignments. -/
theorem first_text
    (h : Pattern.Absent (keyword "WHERE") statement.setClause (filterText statement.filter)) :
    ∃ (after : Gap) (rest : List Char), Pattern.first (updatePattern w) statement.text =
      some (statement.setClause ++ after.chars, rest) := by
  obtain ⟨after, rest, hlazy⟩ := statement.first_assignments h
  have hhead : ∀ c ∈ (statement.setClause ++ filterText statement.filter).head?,
      isSpace c = false := by
    simp only [setClause, separated, Assignment.text, List.append_assoc]
    exact statement.head.column.head_not_space _
  refine ⟨after, rest, ?_⟩
  simp only [text, opening, List.append_assoc]
  rw [updatePattern, Pattern.first_bind_of_eq (statement.updateWord.matches_keyword _)]
  apply first_spaces statement.beforeTable (statement.table.head_not_space _)
  apply first_word statement.table
    (fun c hc => w.space c (space_head statement.beforeSet _ c hc))
  apply first_spaces statement.beforeSet
    (statement.setWord.head_not_space (by decide) (by decide) _)
  rw [Pattern.first_bind_of_eq (statement.setWord.matches_keyword _)]
  exact first_spaces statement.beforeAssignments hhead hlazy

end Update

theorem clauseFields_nil_append {pattern : Pattern (List Char)}
    {fields : List Char → List (List Char)} {own clause rest : List Char}
    (h : Pattern.first pattern own = some (clause, rest)) :
    clauseFields pattern fields own = fields clause := by
  rw [clauseFields, Pattern.search_of_first h]
  rfl

theorem Select.fields_text {front : List Char} {statement : Select w} (h : statement.Own front) :
    clauseFields selectPattern (selectFields w) (front ++ statement.text) =
      statement.listed.map (·.chars) ∧
    clauseFields wherePattern (whereFields w) (front ++ statement.text) =
      (filterCompared statement.filter).map (·.chars) := by
  obtain ⟨rest, hfirst⟩ := statement.first_text h.2.1
  constructor
  · rw [clauseFields_of_first h.1 hfirst, ColumnList.selectFields_text, Select.listed]
  · rw [Select.text, ← List.append_assoc, whereFields_filter h.2.2]

theorem Insert.fields_text (statement : Insert w) :
    clauseFields (insertPattern w) insertFields statement.text =
      statement.columns.all.map (·.chars) := by
  rw [clauseFields_nil_append statement.first_text, ColumnList.insertFields_text]

theorem Update.fields_text {statement : Update w} (h : statement.Own) :
    clauseFields (updatePattern w) updateFields statement.text =
      statement.assignments.map (·.column.chars) ∧
    clauseFields wherePattern (whereFields w) statement.text =
      (filterCompared statement.filter).map (·.chars) := by
  obtain ⟨after, rest, hfirst⟩ := statement.first_text h.1
  constructor
  · rw [clauseFields_nil_append hfirst, Update.updateFields_text h.2.1]
  · rw [Update.text, whereFields_filter h.2.2]

theorem fields_names {columns : List (Identifier w)} :
    (columns.map (·.chars)).map String.ofList = columns.map (·.name) := by
  rw [List.map_map]
  rfl

/-- The columns of the query are read out in its own clauses, in order. -/
theorem Query.extract_eq {query : Query w} (h : query.Own) :
    extractFieldReferences w query.sql = query.required.map (·.name) := by
  unfold extractFieldReferences
  cases query with
  | select statement =>
    obtain ⟨hown, hinsert, hupdate⟩ := h
    obtain ⟨hselect, hwhere⟩ := Select.fields_text hown
    rw [List.nil_append] at hselect hwhere
    simp only [sql, String.toList_ofList, required]
    rw [hselect, clauseFields_of_absent hinsert rfl, clauseFields_of_absent hupdate rfl, hwhere,
      List.append_nil, List.append_nil, ← List.map_append, fields_names]
  | insert statement =>
    obtain ⟨hown, hupdate⟩ := h
    have hinsert := statement.fields_text
    simp only [sql, String.toList_ofList, required]
    rw [hinsert, clauseFields_of_absent hupdate rfl, List.append_nil]
    cases hsource : statement.source with
    | values text =>
      rw [hsource] at hown
      have htext : statement.text = statement.head ++ text := by
        rw [Insert.text, hsource]
        rfl
      rw [htext, clauseFields_of_absent hown.1 rfl, clauseFields_of_absent hown.2 rfl,
        List.nil_append, List.append_nil, fields_names]
    | query before source =>
      rw [hsource] at hown
      have htext : statement.text = (statement.head ++ before.chars) ++ source.text := by
        rw [Insert.text, hsource, List.append_assoc]
        rfl
      obtain ⟨hselect, hwhere⟩ := Select.fields_text hown
      rw [htext, hselect, hwhere, ← List.map_append, ← List.map_append, fields_names]
  | update statement =>
    obtain ⟨hown, hselect, hinsert⟩ := h
    obtain ⟨hupdate, hwhere⟩ := Update.fields_text hown
    have hcolumns : statement.assignments.map (·.column.chars) =
        (statement.assignments.map (·.column)).map (·.chars) := by
      rw [List.map_map]
      rfl
    simp only [sql, String.toList_ofList, required]
    rw [clauseFields_of_absent hselect rfl, clauseFields_of_absent hinsert rfl, hupdate, hwhere,
      List.nil_append, List.nil_append, hcolumns, ← List.map_append, fields_names]

theorem Conditions.compared_subset (conditions : Conditions w) :
    conditions.compared ⊆ conditions.columns := by
  induction conditions with
  | one comparison =>
    unfold compared columns
    split <;> simp
  | joined comparison connective rest ih =>
    unfold compared columns
    apply List.append_subset.mpr
    constructor
    · split <;> simp
    · exact fun column hcolumn => List.mem_cons_of_mem _ (ih hcolumn)

theorem filterCompared_subset (filter : Option (Filter w)) :
    filterCompared filter ⊆ filterColumns filter := by
  cases filter with
  | none => exact List.Subset.refl _
  | some filter => exact filter.conditions.compared_subset

theorem Query.required_subset (query : Query w) : query.required ⊆ query.columns := by
  have hadd (columns : List (Identifier w)) (filter : Option (Filter w)) :
      columns ++ filterCompared filter ⊆ columns ++ filterColumns filter :=
    List.append_subset.mpr ⟨List.subset_append_left _ _,
      fun _ hcolumn => List.mem_append_right _ (filterCompared_subset filter hcolumn)⟩
  cases query with
  | select statement => exact hadd _ _
  | insert statement =>
    simp only [required, columns]
    cases statement.source with
    | values text => exact List.Subset.refl _
    | query before source => exact hadd _ _
  | update statement => exact hadd _ _

theorem validate_of_known {sql : String} {schema : ModelSchema}
    (h : ∀ field ∈ extractFieldReferences w sql, field ∈ schema.fields.map (·.name)) :
    validateSqlAgainstSchema w sql schema = [] := by
  have hnone : (dedupe (extractFieldReferences w sql)).filter
      (· ∉ schema.fields.map (·.name)) = [] := by
    rw [List.filter_eq_nil_iff]
    intro field hfield
    simpa using h field (mem_dedupe.mp hfield)
  rw [validateSqlAgainstSchema, hnone, List.map_nil]

section orders

theorem space_blank : ∀ c ∈ [' '], isSpace c = true := by decide

theorem space_nonempty : [' '] ≠ [] := List.cons_ne_nil _ _

theorem noGap_blank : ∀ c ∈ ([] : List Char), isSpace c = true := by decide

def space : Space := { chars := [' '], blank := space_blank, nonempty := space_nonempty }

def noGap : Gap := { chars := [], blank := noGap_blank }

/-- A name in ASCII. -/
def asciiName (name : String) (nonempty : name.toList ≠ [] := by decide)
    (word : ∀ c ∈ name.toList, asciiWords.isWord c = true := by decide)
    (plain : upper name.toList ∉ notFields := by decide) : Identifier asciiWords where
  chars := name.toList
  nonempty := nonempty
  word := word
  plain := plain

def selectFrom (columns : ColumnList asciiWords) (conditions : Conditions asciiWords) :
    Query asciiWords :=
  .select {
    selectWord := { chars := "SELECT".toList }
    beforeColumns := space
    columns := columns
    afterColumns := space
    fromWord := { chars := "FROM".toList }
    beforeTable := space
    table := asciiName "orders"
    filter := some {
      before := space
      whereWord := { chars := "WHERE".toList }
      after := space
      conditions := conditions } }

/-- `WHERE note LIKE 'a%' AND total >= 10`. -/
def ordersQuery : Query asciiWords :=
  selectFrom { head := asciiName "id", others := [(noGap, space.toGap, asciiName "note")] }
    (.joined
      { column := asciiName "note"
        test := .like space { chars := "LIKE".toList } space.toGap { chars := "'a%'".toList } }
      { before := space, word := .inl { chars := "AND".toList }, after := space }
      (.one
        { column := asciiName "total"
          test := .symbol space.toGap .ge space.toGap { chars := "10".toList } }))

/-- `WHERE origin IS NULL`. -/
def originQuery : Query asciiWords :=
  selectFrom { head := asciiName "id" }
    (.one
      { column := asciiName "origin"
        test := .isNull space { chars := "IS".toList } space { chars := "NULL".toList } })

theorem id_named : Text.blank "id" = false := by decide

theorem note_named : Text.blank "note" = false := by decide

def ordersSchema : ModelSchema where
  name := "Order"
  fields := [{ name := "id", type := .integer, named := id_named },
    { name := "note", type := .string, named := note_named },
    { name := "total", type := .integer }, { name := "origin", type := .string }]
  phase := "design"

/-- Behind `AND`, a column whose name starts with `in` is not read. -/
example : extractFieldReferences asciiWords "SELECT id FROM orders WHERE id = 1 AND inside = 2" =
    ["id", "id"] := by
  decide +kernel

end orders

end ProjectOS.Orchestration
