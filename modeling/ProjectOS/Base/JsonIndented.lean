import ProjectOS.Base.JsonText

/-! The text of a JSON value as `json.dumps(value, ensure_ascii=False, indent=2)` writes it.
It is read back by `json.loads`, since the line breaks and blanks stand between the tokens. -/
namespace ProjectOS.Base.Json

/-- A line break and the blanks of a level. -/
def lineBreak (level : Nat) : List Char := '\n' :: List.replicate (2 * level) ' '

mutual

/-- The characters of a value that stands at a level of nesting. -/
def indentedChars (level : Nat) : Json → List Char
  | .arr [] => ['[', ']']
  | .arr (item :: rest) =>
      '[' :: (lineBreak (level + 1) ++
        ((',' :: lineBreak (level + 1)).intercalate (indentedItems (level + 1) (item :: rest)) ++
          (lineBreak level ++ [']'])))
  | .obj [] => ['{', '}']
  | .obj (field :: rest) =>
      '{' :: (lineBreak (level + 1) ++
        ((',' :: lineBreak (level + 1)).intercalate (indentedFields (level + 1) (field :: rest)) ++
          (lineBreak level ++ ['}'])))
  | value => value.chars

def indentedItems (level : Nat) : List Json → List (List Char)
  | [] => []
  | value :: rest => indentedChars level value :: indentedItems level rest

def indentedFields (level : Nat) : List (String × Json) → List (List Char)
  | [] => []
  | (key, value) :: rest =>
      (quotedChars key ++ ':' :: ' ' :: indentedChars level value) :: indentedFields level rest

end

namespace Reader
variable {goal : Goal} {stack : List Frame}

theorem run_spaces {cs : List Char} (h : ∀ c ∈ cs, isSpace c = true) (rest : List Char) :
    run ⟨.between, goal, stack⟩ (cs ++ rest) = run ⟨.between, goal, stack⟩ rest := by
  induction cs with
  | nil => rfl
  | cons c cs ih =>
    have hstep : step ⟨.between, goal, stack⟩ c = some ⟨.between, goal, stack⟩ :=
      readBetween_of_space (h c List.mem_cons_self)
    rw [List.cons_append, run_cons, hstep, Option.bind_some,
      ih fun d hd => h d (List.mem_cons_of_mem _ hd)]

theorem isSpace_of_mem_lineBreak {level : Nat} {c : Char} (h : c ∈ lineBreak level) :
    isSpace c = true := by
  rcases List.mem_cons.mp h with rfl | h
  · rfl
  · rw [(List.mem_replicate.mp h).2]
    rfl

theorem run_lineBreak (level : Nat) (rest : List Char) :
    run ⟨.between, goal, stack⟩ (lineBreak level ++ rest) = run ⟨.between, goal, stack⟩ rest :=
  run_spaces (fun _ => isSpace_of_mem_lineBreak) rest

/-- A finished value is followed by the line break of the next token. -/
theorem run_value_lineBreak {r r' : Reader} {cs : List Char} (h : (r.run cs).bind settle = some r')
    (level : Nat) (rest : List Char) :
    r.run (cs ++ (lineBreak level ++ rest)) = r'.run (lineBreak level ++ rest) :=
  run_append_of_settle h (by decide) _

mutual

/-- Reading the text of a value where a value is due completes that value. -/
theorem settle_run_indented : ∀ (level : Nat) (value : Json) (first : Bool) (stack : List Frame),
    value.distinct = true →
      (run ⟨.between, .value first, stack⟩ (indentedChars level value)).bind settle =
        some ⟨.between, .complete value, stack⟩
  | _, .null, first, stack, h => settle_run_chars .null first stack h
  | _, .bool b, first, stack, h => settle_run_chars (.bool b) first stack h
  | _, .int i, first, stack, h => settle_run_chars (.int i) first stack h
  | _, .str text, first, stack, h => settle_run_chars (.str text) first stack h
  | _, .arr [], _, _, _ => rfl
  | level, .arr (item :: rest), first, stack, h => by
      have hitems := run_indentedItems level (item :: rest) true [] stack (List.cons_ne_nil _ _)
        (by simpa only [distinct] using h)
      rw [indentedChars, run_cons]
      change ((run ⟨.between, .value true, .items [] :: stack⟩ _).bind settle) = _
      rw [run_lineBreak, hitems]
      rfl
  | _, .obj [], _, _, _ => rfl
  | level, .obj (field :: rest), first, stack, h => by
      simp only [distinct, Bool.and_eq_true, decide_eq_true_eq] at h
      have hfields := run_indentedFields level (field :: rest) true [] stack
        (List.cons_ne_nil _ _) h.2 (by simpa using h.1)
      rw [indentedChars, run_cons]
      change ((run ⟨.between, .key [] true, stack⟩ _).bind settle) = _
      rw [run_lineBreak, hfields]
      rfl

theorem run_indentedItems : ∀ (level : Nat) (items : List Json) (first : Bool) (rev : List Json)
    (stack : List Frame), items ≠ [] → distinctItems items = true →
      run ⟨.between, .value first, .items rev :: stack⟩
          ((',' :: lineBreak (level + 1)).intercalate (indentedItems (level + 1) items) ++
            (lineBreak level ++ [']'])) =
        some ⟨.between, .complete (.arr (rev.reverse ++ items)), stack⟩
  | _, [], _, _, _, hne, _ => absurd rfl hne
  | level, [item], first, rev, stack, _, h => by
      simp only [distinctItems, Bool.and_true] at h
      have hitem := settle_run_indented (level + 1) item first (.items rev :: stack) h
      simp only [indentedItems, List.intercalate_singleton]
      rw [run_value_lineBreak hitem, run_lineBreak, run_cons, step_close_items]
      simp
  | level, item :: next :: rest, first, rev, stack, _, h => by
      simp only [distinctItems, Bool.and_eq_true] at h
      have hitem := settle_run_indented (level + 1) item first (.items rev :: stack) h.1
      have hrest := run_indentedItems level (next :: rest) false (item :: rev) stack
        (List.cons_ne_nil _ _) (by simpa only [distinctItems, Bool.and_eq_true] using h.2)
      simp only [indentedItems, intercalate_cons_cons, List.append_assoc, List.cons_append] at hrest ⊢
      rw [run_append_of_settle hitem (by decide), run_cons, step_comma_items, Option.bind_some,
        run_lineBreak, hrest]
      simp

theorem run_indentedFields : ∀ (level : Nat) (fields : List (String × Json)) (first : Bool)
    (done : List (String × Json)) (stack : List Frame), fields ≠ [] →
      distinctFields fields = true → ((done ++ fields).map Prod.fst).Nodup →
        run ⟨.between, .key done first, stack⟩
            ((',' :: lineBreak (level + 1)).intercalate (indentedFields (level + 1) fields) ++
              (lineBreak level ++ ['}'])) =
          some ⟨.between, .complete (.obj (done ++ fields)), stack⟩
  | _, [], _, _, _, hne, _, _ => absurd rfl hne
  | level, [(key, value)], first, done, stack, _, h, hnodup => by
      simp only [distinctFields, Bool.and_true] at h
      have hvalue := settle_run_indented (level + 1) value false (.fields done key :: stack) h
      simp only [indentedFields, List.intercalate_singleton, List.append_assoc, List.cons_append]
      rw [run_key, run_value_lineBreak hvalue, run_lineBreak, run_cons, step_close_fields,
        setField_of_not_mem (not_mem_of_nodup_append hnodup)]
      rfl
  | level, (key, value) :: next :: rest, first, done, stack, _, h, hnodup => by
      simp only [distinctFields, Bool.and_eq_true] at h
      have hvalue := settle_run_indented (level + 1) value false (.fields done key :: stack) h.1
      have hrest := run_indentedFields level (next :: rest) false (done ++ [(key, value)]) stack
        (List.cons_ne_nil _ _) (by simpa only [distinctFields, Bool.and_eq_true] using h.2)
        (by simpa using hnodup)
      simp only [indentedFields, intercalate_cons_cons, List.append_assoc,
        List.cons_append] at hrest ⊢
      rw [run_key, run_append_of_settle hvalue (by decide), run_cons, step_comma_fields,
        Option.bind_some, run_lineBreak, setField_of_not_mem (not_mem_of_nodup_append hnodup), hrest]
      simp

end

end Reader

theorem ne_carriage_of_mem_chars (value : Json) {c : Char} (h : c ∈ value.chars) : c ≠ '\r' := by
  rintro rfl
  exact absurd (mem_chars value h).1 (by decide)

theorem ne_carriage_of_mem_lineBreak {level : Nat} {c : Char} (h : c ∈ lineBreak level) :
    c ≠ '\r' := by
  rcases List.mem_cons.mp h with rfl | h
  · decide
  · rw [(List.mem_replicate.mp h).2]
    decide

/-- The parts between two brackets, with the breaks around them. -/
theorem ne_carriage_of_mem_parts {level : Nat} {parts : List (List Char)} {opening closing c : Char}
    (hopening : opening ≠ '\r') (hclosing : closing ≠ '\r')
    (hparts : ∀ part ∈ parts, c ∈ part → c ≠ '\r')
    (h : c ∈ opening :: (lineBreak (level + 1) ++
      ((',' :: lineBreak (level + 1)).intercalate parts ++ (lineBreak level ++ [closing])))) :
    c ≠ '\r' := by
  simp only [List.mem_cons, List.mem_append, List.not_mem_nil, or_false] at h
  obtain rfl | h | h | h | rfl := h
  · exact hopening
  · exact ne_carriage_of_mem_lineBreak h
  · obtain hsep | ⟨part, hpart, hc⟩ := mem_intercalate h
    · rcases List.mem_cons.mp hsep with rfl | hsep
      · decide
      · exact ne_carriage_of_mem_lineBreak hsep
    · exact hparts part hpart hc
  · exact ne_carriage_of_mem_lineBreak h
  · exact hclosing

mutual

theorem ne_carriage_of_mem_indented : ∀ (level : Nat) (value : Json) {c : Char},
    c ∈ indentedChars level value → c ≠ '\r'
  | _, .null, _, h => ne_carriage_of_mem_chars .null h
  | _, .bool b, _, h => ne_carriage_of_mem_chars (.bool b) h
  | _, .int i, _, h => ne_carriage_of_mem_chars (.int i) h
  | _, .str text, _, h => ne_carriage_of_mem_chars (.str text) h
  | _, .arr [], _, h => ne_carriage_of_mem_chars (.arr []) h
  | level, .arr (item :: rest), c, h =>
      ne_carriage_of_mem_parts (by decide) (by decide)
        (fun _ hpart hc => ne_carriage_of_mem_items (level + 1) (item :: rest) hpart hc) h
  | _, .obj [], _, h => ne_carriage_of_mem_chars (.obj []) h
  | level, .obj (field :: rest), c, h =>
      ne_carriage_of_mem_parts (by decide) (by decide)
        (fun _ hpart hc => ne_carriage_of_mem_fields (level + 1) (field :: rest) hpart hc) h

theorem ne_carriage_of_mem_items : ∀ (level : Nat) (items : List Json) {part : List Char}
    {c : Char}, part ∈ indentedItems level items → c ∈ part → c ≠ '\r'
  | _, [], _, _, hpart, _ => nomatch hpart
  | level, item :: rest, part, c, hpart, h => by
      rcases List.mem_cons.mp hpart with rfl | hpart
      · exact ne_carriage_of_mem_indented level item h
      · exact ne_carriage_of_mem_items level rest hpart h

theorem ne_carriage_of_mem_fields : ∀ (level : Nat) (fields : List (String × Json))
    {part : List Char} {c : Char}, part ∈ indentedFields level fields → c ∈ part → c ≠ '\r'
  | _, [], _, _, hpart, _ => nomatch hpart
  | level, (key, value) :: rest, part, c, hpart, h => by
      rcases List.mem_cons.mp hpart with rfl | hpart
      · simp only [List.mem_append, List.mem_cons] at h
        obtain h | rfl | rfl | h := h
        · exact ne_carriage_of_mem_chars (.str key) h
        · decide
        · decide
        · exact ne_carriage_of_mem_indented level value h
      · exact ne_carriage_of_mem_fields level rest hpart h

end

/-- The text of a JSON file: the value and a line break. -/
def indentedFile (value : Json) : String := String.ofList (indentedChars 0 value ++ ['\n'])

/-- `json.loads(json.dumps(value, ensure_ascii=False, indent=2) + "\n") == value`. -/
theorem loads_indentedFile {value : Json} (h : value.distinct = true) :
    loads (indentedFile value) = some value := by
  have hvalue := Reader.settle_run_indented 0 value false [] h
  have hend : Reader.run Reader.start (indentedChars 0 value ++ ['\n']) =
      some ⟨.between, .complete value, []⟩ := Reader.run_append_of_settle hvalue (by decide) []
  unfold loads indentedFile
  rw [String.toList_ofList, hend, Option.bind_some, Reader.settle_of_between rfl]

/-- Text mode changes nothing: the line breaks of the file are `\n`, those of its strings escaped. -/
@[simp] theorem readText_indentedFile (value : Json) :
    Text.readText (indentedFile value) = indentedFile value := by
  unfold Text.readText indentedFile
  rw [String.toList_ofList, Text.translateNewlines_of_noCarriage]
  intro h
  rcases List.mem_append.mp h with h | h
  · exact ne_carriage_of_mem_indented 0 value h rfl
  · exact absurd h (by decide)

end ProjectOS.Base.Json
