import ProjectOS.Base.JsonText
import ProjectOS.Base.Raise

/-! Logs of one JSON text a line. The writer ends a record with a newline; the
reader splits at every line break of `str.splitlines`. -/
namespace ProjectOS.Base.Json

/-- `json.dumps(record, ensure_ascii=False) + "\n"`. -/
def line (record : Json) : List Char := record.chars ++ ['\n']

/-- The line breaks that a JSON text may hold. -/
def wideBreak (c : Char) : Bool := c.toNat == 0x85 || c.toNat == 0x2028 || c.toNat == 0x2029

def unbroken (text : String) : Bool := !text.toList.any wideBreak

theorem wideBreak_high {c : Char} (h : wideBreak c = true) : 127 < c.toNat := by
  simp only [wideBreak, Bool.or_eq_true, beq_iff_eq] at h
  omega

theorem isLineBreak_of_wideBreak {c : Char} (h : wideBreak c = true) :
    Text.isLineBreak c = true ∧ c ≠ '\r' := by
  simp only [wideBreak, Bool.or_eq_true, beq_iff_eq] at h
  constructor
  · simp only [Text.isLineBreak, Bool.or_eq_true, beq_iff_eq]
    omega
  · rintro rfl
    revert h
    decide

theorem wideBreak_of_isLineBreak {c : Char} (h : Text.isLineBreak c = true)
    (hprintable : 32 ≤ c.toNat) : wideBreak c = true := by
  simp only [Text.isLineBreak, Bool.or_eq_true, Bool.and_eq_true, decide_eq_true_eq,
    beq_iff_eq] at h
  simp only [wideBreak, Bool.or_eq_true, beq_iff_eq]
  omega

variable {record : Json}

/-- A text holds a line break exactly if a string of its value holds a wide one. -/
theorem any_isLineBreak_chars :
    record.chars.any Text.isLineBreak = true ↔ ∃ text ∈ record.strings, unbroken text = false := by
  simp only [List.any_eq_true, unbroken, Bool.not_eq_false', List.any_eq_true]
  constructor
  · rintro ⟨c, hc, hbreak⟩
    obtain ⟨hprintable, hascii⟩ := mem_chars record hc
    have hwide := wideBreak_of_isLineBreak hbreak hprintable
    have hhigh := wideBreak_high hwide
    obtain hlow | ⟨text, htext, hmem⟩ := hascii
    · omega
    · exact ⟨text, htext, c, hmem, hwide⟩
  · rintro ⟨text, htext, c, hmem, hwide⟩
    exact ⟨c, mem_chars_of_string record (wideBreak_high hwide) htext hmem,
      (isLineBreak_of_wideBreak hwide).1⟩

theorem splitlinesOf_line (h : ∀ text ∈ record.strings, unbroken text = true) (rest : List Char) :
    Text.splitlinesOf (record.line ++ rest) = record.chars :: Text.splitlinesOf rest := by
  have hnone : ∀ c ∈ record.chars, Text.isLineBreak c = false := by
    intro c hc
    by_contra hbreak
    rw [Bool.not_eq_false] at hbreak
    obtain ⟨text, htext, hbroken⟩ :=
      any_isLineBreak_chars.mp (List.any_eq_true.mpr ⟨c, hc, hbreak⟩)
    simp [h text htext] at hbroken
  unfold line
  rw [List.append_assoc, List.singleton_append]
  exact Text.splitlinesOf_append hnone (by decide) (by decide) rest

/-- A list with an element of a kind splits before its first one. -/
theorem exists_first {α : Type} {p : α → Bool} {xs : List α} (h : xs.any p = true) :
    ∃ before x after, xs = before ++ x :: after ∧ (∀ y ∈ before, p y = false) ∧ p x = true := by
  induction xs with
  | nil => cases h
  | cons y ys ih =>
    by_cases hy : p y = true
    · exact ⟨[], y, ys, rfl, by simp, hy⟩
    · obtain ⟨before, x, after, rfl, hbefore, hx⟩ := ih (by simpa [hy] using h)
      refine ⟨y :: before, x, after, rfl, ?_, hx⟩
      simpa [hy] using hbefore

/-- A record cut at a wide break starts with a piece that is no JSON text, and goes on. -/
theorem splitlinesOf_broken {fields : List (String × Json)}
    (hdistinct : (obj fields).distinct = true)
    (h : ∃ text ∈ (obj fields).strings, unbroken text = false) (rest : List Char) :
    ∃ piece lines, Text.splitlinesOf ((obj fields).line ++ rest) = ('{' :: piece) :: lines ∧
      lines ≠ [] ∧ loads (String.ofList ('{' :: piece)) = none := by
  obtain ⟨before, c, after, hcut, hbefore, hbreak⟩ := exists_first (any_isLineBreak_chars.mpr h)
  have hmem : c ∈ (obj fields).chars := hcut ▸ List.mem_append_right _ List.mem_cons_self
  have hwide := wideBreak_of_isLineBreak hbreak (mem_chars _ hmem).1
  have hsplit : Text.splitlinesOf ((obj fields).line ++ rest) =
      before :: Text.splitlinesOf (after ++ '\n' :: rest) := by
    rw [← Text.splitlinesOf_append hbefore hbreak (isLineBreak_of_wideBreak hwide).2]
    simp [line, hcut]
  have hcutLoads := loads_cut hdistinct (wideBreak_high hwide) hcut
  cases before with
  | nil =>
    rw [chars, List.nil_append, List.cons.injEq] at hcut
    rw [← hcut.1] at hwide
    exact absurd hwide (by decide)
  | cons first before =>
    rw [chars, List.cons_append, List.cons.injEq] at hcut
    rw [← hcut.1] at hsplit hcutLoads
    exact ⟨before, _, hsplit, Text.splitlinesOf_ne_nil (by simp), hcutLoads⟩

theorem not_blank_brace (cs : List Char) : Text.blank (String.ofList ('{' :: cs)) = false :=
  Text.blank_ofList_cons (by decide)

theorem not_blank_chars (fields : List (String × Json)) :
    Text.blank (String.ofList (obj fields).chars) = false := by
  rw [chars]
  exact not_blank_brace _

/-- The file after records have been appended one by one. -/
def log (records : List Json) : List Char := records.flatMap line

theorem log_append (records : List Json) (record : Json) :
    log (records ++ [record]) = log records ++ record.line := by
  simp [log]

theorem log_noCarriage (records : List Json) : '\r' ∉ log records := by
  intro h
  simp only [log, line, List.mem_flatMap, List.mem_append, List.mem_singleton] at h
  obtain ⟨record, -, hc | hc⟩ := h
  · exact absurd (mem_chars record hc).1 (by decide)
  · exact absurd hc (by decide)

/-- The text of the file as `read_text` and `splitlines` see it. -/
theorem splitlines_log (records : List Json) :
    Text.splitlines (Text.readText (String.ofList (log records))) =
      (Text.splitlinesOf (log records)).map String.ofList := by
  rw [Text.splitlines, Text.readText, String.toList_ofList, String.toList_ofList,
    Text.translateNewlines_of_noCarriage (log_noCarriage records)]

/-- No string of the value holds a wide line break. -/
def OneLine (value : Json) : Prop := ∀ text ∈ value.strings, unbroken text = true

section
variable {ε α β : Type} (decode : Json → Except ε α) (error : ε)

/-- `decode(json.loads(line))` of each line that is not blank. -/
def readObjects (lines : List String) : Except ε (List α) :=
  collect (fun line =>
    match loads line with
    | some value => decode value
    | none => .error error) (lines.filter fun line => !Text.blank line)

variable {decode error}

theorem readObjects_log {fields : β → List (String × Json)} {value : β → α} {entries : List β}
    (hdistinct : ∀ entry ∈ entries, (obj (fields entry)).distinct = true)
    (hdecode : ∀ entry ∈ entries, decode (.obj (fields entry)) = .ok (value entry))
    {read : List α} :
    readObjects decode error
        ((Text.splitlinesOf (log (entries.map fun entry => .obj (fields entry)))).map
          String.ofList) = .ok read ↔
      (∀ entry ∈ entries, (obj (fields entry)).OneLine) ∧ read = entries.map value := by
  induction entries generalizing read with
  | nil => simp [log, Text.splitlinesOf, readObjects, collect, eq_comm]
  | cons entry entries ih =>
    rw [List.forall_mem_cons] at hdistinct hdecode
    have hrest := fun read => @ih hdistinct.2 hdecode.2 read
    rw [List.forall_mem_cons, List.map_cons, log, List.flatMap_cons]
    by_cases hline : (obj (fields entry)).OneLine
    · have hblank := not_blank_chars (fields entry)
      rw [splitlinesOf_line hline, List.map_cons, readObjects,
        List.filter_cons_of_pos (by rw [hblank]; rfl), collect, loads_chars hdistinct.1]
      dsimp only
      rw [hdecode.1, ok_bind]
      constructor
      · intro h
        obtain ⟨tail, htail, h⟩ := bind_eq_ok.mp h
        cases h
        obtain ⟨hlines, rfl⟩ := (hrest tail).mp htail
        exact ⟨⟨hline, hlines⟩, rfl⟩
      · rintro ⟨⟨_, hlines⟩, hread⟩
        subst hread
        exact bind_eq_ok.mpr ⟨_, (hrest _).mpr ⟨hlines, rfl⟩, rfl⟩
    · have hbroken : ∃ text ∈ (obj (fields entry)).strings, unbroken text = false := by
        simpa [OneLine] using hline
      obtain ⟨piece, lines, hsplit, -, hloads⟩ := splitlinesOf_broken hdistinct.1 hbroken
        ((entries.map fun entry => .obj (fields entry)).flatMap line)
      have hblank := not_blank_brace piece
      rw [hsplit, List.map_cons, readObjects, List.filter_cons_of_pos (by rw [hblank]; rfl), collect,
        hloads]
      simp [hline]

end

end ProjectOS.Base.Json
