import ProjectOS.Base.Words

/-! Words of a text under different notions of a separator. Where one notion has
all separators of another, the words agree as long as none of the coarser ones
holds a separator of the finer notion. -/
namespace ProjectOS.Base.Text

/-- The words between runs of separators. -/
def fields (sep : Char → Bool) (cs : List Char) : List (List Char) :=
  (cs.splitOnP sep).filter (· ≠ [])

theorem words_eq_fields (cs : List Char) : words cs = fields isSpace cs := rfl

variable {sep : Char → Bool} {c : Char} {w cs rest : List Char}

@[simp] theorem fields_nil : fields sep [] = [] := rfl

theorem fields_cons_sep (hc : sep c = true) (cs : List Char) : fields sep (c :: cs) = fields sep cs := by
  simp [fields, List.splitOnP_cons_eq_if_modifyHead, hc]

theorem fields_gap_append (hgap : ∀ c ∈ w, sep c = true) (cs : List Char) :
    fields sep (w ++ cs) = fields sep cs := by
  induction w with
  | nil => rfl
  | cons c w ih =>
    rw [List.cons_append, fields_cons_sep (hgap c List.mem_cons_self),
      ih fun d hd => hgap d (List.mem_cons_of_mem _ hd)]

theorem fields_word (hne : w ≠ []) (hw : ∀ c ∈ w, sep c = false) : fields sep w = [w] := by
  rw [fields, List.splitOnP_eq_singleton hw]
  simp [hne]

theorem fields_word_append (hne : w ≠ []) (hw : ∀ c ∈ w, sep c = false)
    (hrest : ∀ c ∈ rest.head?, sep c = true) : fields sep (w ++ rest) = w :: fields sep rest := by
  cases rest with
  | nil => rw [List.append_nil, fields_word hne hw, fields_nil]
  | cons c rest =>
    have hc := hrest c rfl
    rw [fields_cons_sep hc, fields, List.splitOnP_append_cons_of_forall_mem hw c hc]
    simp [hne, fields]

theorem exists_word (sep : Char → Bool) {cs : List Char} (h : cs ≠ []) (hhead : ∀ c ∈ cs.head?, sep c = false) :
    ∃ w rest, cs = w ++ rest ∧ w ≠ [] ∧ (∀ c ∈ w, sep c = false) ∧
      (∀ c ∈ rest.head?, sep c = true) ∧ rest.length < cs.length := by
  refine ⟨cs.takeWhile (!sep ·), cs.dropWhile (!sep ·), List.takeWhile_append_dropWhile.symm, ?_,
    ?_, ?_, ?_⟩
  · cases cs with
    | nil => exact absurd rfl h
    | cons c cs => simp [hhead c rfl]
  · intro c hc
    simpa using List.mem_takeWhile_imp hc
  · intro c hc
    have := List.head?_dropWhile_not (!sep ·) cs
    rw [Option.mem_def.mp hc] at this
    simpa using this
  · cases cs with
    | nil => exact absurd rfl h
    | cons c cs =>
      rw [List.dropWhile_cons, hhead c rfl, Bool.not_false, if_pos rfl, List.length_cons]
      exact Nat.lt_succ_of_le (List.length_dropWhile_le _ _)

/-- Any fact about the words of a text: for none, across a separator, and for a word. -/
theorem fields_induction (sep : Char → Bool) {motive : List Char → Prop} (nil : motive [])
    (gap : ∀ c cs, sep c = true → motive cs → motive (c :: cs))
    (word : ∀ w rest, w ≠ [] → (∀ c ∈ w, sep c = false) → (∀ c ∈ rest.head?, sep c = true) →
      motive rest → motive (w ++ rest)) (cs : List Char) : motive cs := by
  induction hlength : cs.length using Nat.strong_induction_on generalizing cs with
  | _ n ih =>
    cases cs with
    | nil => exact nil
    | cons c cs =>
      cases hc : sep c with
      | true =>
        refine gap c cs hc (ih cs.length ?_ cs rfl)
        rw [← hlength, List.length_cons]
        exact Nat.lt_succ_self _
      | false =>
        obtain ⟨w, rest, heq, hne, hw, hrest, hlt⟩ :=
          exists_word sep (List.cons_ne_nil c cs) (by
            intro d hd
            cases hd
            exact hc)
        rw [heq]
        exact word w rest hne hw hrest (ih rest.length (hlength ▸ hlt) rest rfl)

theorem of_mem_fields {w cs : List Char} (h : w ∈ fields sep cs) :
    w ≠ [] ∧ ∀ c ∈ w, sep c = false ∧ c ∈ cs := by
  induction cs using fields_induction sep with
  | nil => cases h
  | gap d cs hd ih =>
    rw [fields_cons_sep hd] at h
    obtain ⟨hne, hall⟩ := ih h
    exact ⟨hne, fun c hc => ⟨(hall c hc).1, List.mem_cons_of_mem d (hall c hc).2⟩⟩
  | word v rest hne hv hrest ih =>
    rw [fields_word_append hne hv hrest] at h
    rcases List.mem_cons.mp h with rfl | hlater
    · exact ⟨hne, fun c hc => ⟨hv c hc, List.mem_append_left _ hc⟩⟩
    · obtain ⟨hne', hall⟩ := ih hlater
      exact ⟨hne', fun c hc => ⟨(hall c hc).1, List.mem_append_right _ (hall c hc).2⟩⟩

/-- The first words agree under both notions exactly when none of them holds a
separator of the finer one. -/
theorem take_fields_eq_iff {finer : Char → Bool} (hfiner : ∀ c, sep c = true → finer c = true)
    (n : Nat) (cs : List Char) : (fields sep cs).take n = (fields finer cs).take n ↔
      ∀ w ∈ (fields sep cs).take n, ∀ c ∈ w, finer c = false := by
  constructor
  · intro h w hw c hc
    rw [h] at hw
    exact ((of_mem_fields (List.mem_of_mem_take hw)).2 c hc).1
  · induction cs using fields_induction sep generalizing n with
    | nil => exact fun _ => rfl
    | gap c cs hc ih =>
      rw [fields_cons_sep hc, fields_cons_sep (hfiner c hc)]
      exact ih n
    | word w rest hne hw hrest ih =>
      rw [fields_word_append hne hw hrest]
      cases n with
      | zero => exact fun _ => rfl
      | succ n =>
        intro h
        rw [List.take_succ_cons] at h
        have hfine := h w List.mem_cons_self
        rw [fields_word_append hne hfine fun c hc => hfiner c (hrest c hc), List.take_succ_cons,
          List.take_succ_cons, ih n fun v hv => h v (List.mem_cons_of_mem _ hv)]

theorem fields_eq_iff {finer : Char → Bool} (hfiner : ∀ c, sep c = true → finer c = true)
    (cs : List Char) : fields sep cs = fields finer cs ↔
      ∀ w ∈ fields sep cs, ∀ c ∈ w, finer c = false := by
  have htake := take_fields_eq_iff hfiner ((fields sep cs).length + (fields finer cs).length) cs
  rwa [List.take_of_length_le (Nat.le_add_right _ _),
    List.take_of_length_le (Nat.le_add_left _ _)] at htake

theorem exists_field_of_mem {c : Char} {cs : List Char} (h : c ∈ cs) (hc : sep c = false) :
    ∃ w ∈ fields sep cs, c ∈ w := by
  induction cs using fields_induction sep with
  | nil => cases h
  | gap d cs hd ih =>
    rcases List.mem_cons.mp h with rfl | hlater
    · rw [hc] at hd
      cases hd
    · rw [fields_cons_sep hd]
      exact ih hlater
  | word w rest hne hw hrest ih =>
    rw [fields_word_append hne hw hrest]
    rcases List.mem_append.mp h with hin | hlater
    · exact ⟨w, List.mem_cons_self, hin⟩
    · obtain ⟨v, hv, hin⟩ := ih hlater
      exact ⟨v, List.mem_cons_of_mem _ hv, hin⟩

theorem mem_of_contains {s sub : String} (h : contains s sub = true) :
    ∀ c ∈ sub.toList, c ∈ s.toList := by
  obtain ⟨rest, hrest, hstart⟩ := List.any_eq_true.mp h
  intro c hc
  have hin := (List.isPrefixOf_iff_prefix.mp hstart).subset hc
  exact ((List.mem_tails rest s.toList).mp hrest).subset hin

theorem exists_stripped (cs : List Char) : ∃ before after, (∀ c ∈ before, isSpace c = true) ∧
    (∀ c ∈ after, isSpace c = true) ∧ cs = before ++ (stripped cs ++ after) := by
  refine ⟨cs.takeWhile isSpace, (cs.dropWhile isSpace).rtakeWhile isSpace,
    fun c hc => List.mem_takeWhile_imp hc, ?_, ?_⟩
  · intro c hc
    rw [List.rtakeWhile, List.mem_reverse] at hc
    exact List.mem_takeWhile_imp hc
  · rw [stripped, List.rdropWhile, List.rtakeWhile, ← List.reverse_append,
      List.takeWhile_append_dropWhile, List.reverse_reverse, List.takeWhile_append_dropWhile]

theorem cutAt_eq_none {stop : Char} {cs : List Char} (h : stop ∉ cs) : cutAt stop cs = none := by
  have hdrop : cs.dropWhile (fun c => decide (c ≠ stop)) = [] := by
    rw [List.dropWhile_eq_nil_iff]
    intro c hc
    rw [decide_eq_true_eq]
    rintro rfl
    exact h hc
  rw [cutAt, hdrop]

end ProjectOS.Base.Text
