import Mathlib.Data.List.Sort
import ProjectOS.Base.JsonRepr

/-! A JSON value with the keys of its dictionaries in order, as `json.dumps(value,
sort_keys=True)` writes it, and texts that end in a mark of their own instead. -/
namespace ProjectOS.Base.Json

mutual

/-- The value whose dictionaries have their keys in order. -/
def sorted : Json → Json
  | .arr items => .arr (sortedItems items)
  | .obj fields => .obj ((sortedFields fields).insertionSort fun a b => a.1 ≤ b.1)
  | .null => .null
  | .bool b => .bool b
  | .int value => .int value
  | .str text => .str text

def sortedItems : List Json → List Json
  | [] => []
  | value :: rest => value.sorted :: sortedItems rest

def sortedFields : List (String × Json) → List (String × Json)
  | [] => []
  | (key, value) :: rest => (key, value.sorted) :: sortedFields rest

end

/-- Equal values; the order of the keys of a dictionary is no part of it. -/
def Same (a b : Json) : Prop := a.sorted = b.sorted

/-- By their keys. -/
abbrev KeyLe (a b : String × Json) : Prop := a.1 ≤ b.1

instance : Std.Total KeyLe := ⟨fun a b => String.le_total a.1 b.1⟩

instance : IsTrans (String × Json) KeyLe := ⟨fun _ _ _ hab hbc => String.le_trans hab hbc⟩

theorem sortedItems_eq_map (items : List Json) : sortedItems items = items.map sorted := by
  induction items with
  | nil => rfl
  | cons value rest ih => rw [sortedItems, ih, List.map_cons]

theorem sortedFields_eq_map (fields : List (String × Json)) :
    sortedFields fields = fields.map fun e => (e.1, e.2.sorted) := by
  induction fields with
  | nil => rfl
  | cons e rest ih => rw [sortedFields, ih, List.map_cons]

theorem distinctItems_iff {items : List Json} :
    distinctItems items = true ↔ ∀ value ∈ items, value.distinct = true := by
  induction items with
  | nil => simp [distinctItems]
  | cons value rest ih => rw [distinctItems, Bool.and_eq_true, ih, List.forall_mem_cons]

theorem distinctFields_iff {fields : List (String × Json)} :
    distinctFields fields = true ↔ ∀ e ∈ fields, e.2.distinct = true := by
  induction fields with
  | nil => simp [distinctFields]
  | cons e rest ih => rw [distinctFields, Bool.and_eq_true, ih, List.forall_mem_cons]

theorem sorted_obj_perm (fields : List (String × Json)) :
    ((sortedFields fields).insertionSort fun a b => a.1 ≤ b.1).Perm
      (fields.map fun e => (e.1, e.2.sorted)) := by
  rw [← sortedFields_eq_map]
  exact List.perm_insertionSort _ _

mutual

theorem distinct_sorted : ∀ {value : Json}, value.distinct = true → value.sorted.distinct = true
  | .null, h | .bool _, h | .int _, h | .str _, h => h
  | .arr items, h => by
      rw [sorted, distinct, sortedItems_eq_map, distinctItems_iff, List.forall_mem_map]
      exact distinct_sortedItems items h
  | .obj fields, h => by
      rw [distinct, Bool.and_eq_true, decide_eq_true_eq] at h
      have hperm := sorted_obj_perm fields
      rw [sorted, distinct, Bool.and_eq_true, decide_eq_true_eq, distinctFields_iff]
      constructor
      · rw [(hperm.map Prod.fst).nodup_iff, List.map_map]
        exact h.1
      · intro e he
        obtain ⟨field, hfield, rfl⟩ := List.mem_map.mp (hperm.mem_iff.mp he)
        exact distinct_sortedFields fields h.2 field hfield

theorem distinct_sortedItems : ∀ items : List Json, distinctItems items = true →
    ∀ value ∈ items, value.sorted.distinct = true
  | [], _ => nofun
  | value :: rest, h => by
      rw [distinctItems, Bool.and_eq_true] at h
      exact List.forall_mem_cons.mpr ⟨distinct_sorted h.1, distinct_sortedItems rest h.2⟩

theorem distinct_sortedFields : ∀ fields : List (String × Json), distinctFields fields = true →
    ∀ e ∈ fields, e.2.sorted.distinct = true
  | [], _ => nofun
  | (key, value) :: rest, h => by
      rw [distinctFields, Bool.and_eq_true] at h
      exact List.forall_mem_cons.mpr ⟨distinct_sorted h.1, distinct_sortedFields rest h.2⟩

end

mutual

/-- What is in order stays as it is. -/
theorem sorted_sorted : ∀ value : Json, value.sorted.sorted = value.sorted
  | .null | .bool _ | .int _ | .str _ => rfl
  | .arr items => by
      rw [sorted, sorted, sortedItems_eq_map, sortedItems_eq_map, List.map_map]
      exact congrArg _ (List.map_congr_left (sorted_sortedItems items))
  | .obj fields => by
      have hfields : sortedFields ((sortedFields fields).insertionSort fun a b => a.1 ≤ b.1) =
          (sortedFields fields).insertionSort fun a b => a.1 ≤ b.1 := by
        rw [sortedFields_eq_map]
        conv_rhs => rw [← List.map_id ((sortedFields fields).insertionSort fun a b => a.1 ≤ b.1)]
        apply List.map_congr_left
        intro e he
        obtain ⟨field, hfield, rfl⟩ := List.mem_map.mp ((sorted_obj_perm fields).mem_iff.mp he)
        exact Prod.ext rfl (sorted_sortedFields fields field hfield)
      have hsorted := @List.pairwise_insertionSort _ KeyLe _ _ _ (sortedFields fields)
      rw [sorted, sorted, hfields]
      exact congrArg _ hsorted.insertionSort_eq

theorem sorted_sortedItems : ∀ items : List Json, ∀ value ∈ items,
    value.sorted.sorted = value.sorted
  | [] => nofun
  | value :: rest => List.forall_mem_cons.mpr ⟨sorted_sorted value, sorted_sortedItems rest⟩

theorem sorted_sortedFields : ∀ fields : List (String × Json), ∀ e ∈ fields,
    e.2.sorted.sorted = e.2.sorted
  | [] => nofun
  | (_, value) :: rest => List.forall_mem_cons.mpr ⟨sorted_sorted value, sorted_sortedFields rest⟩

end

/-- A dictionary written with its keys in order is read back as the same dictionary. -/
theorem loads_sorted {fields : List (String × Json)} (h : (obj fields).distinct = true) :
    ∃ found, loads (String.ofList (obj fields).sorted.chars) = some (.obj found) ∧
      Same (.obj found) (.obj fields) :=
  ⟨_, loads_chars (distinct_sorted h), sorted_sorted (obj fields)⟩

/-- The text of a dictionary is between braces. -/
theorem exists_braces (fields : List (String × Json)) :
    ∃ body, (obj fields).sorted.chars = '{' :: body ++ ['}'] :=
  ⟨_, rfl⟩

namespace Reader
variable {r r' : Reader}

theorem step_newline (h : r.step '\n' = some r') : r'.mode = .between := by
  have hbetween (settled : Reader) : settled.readBetween '\n' =
      some { settled with mode := .between } := rfl
  cases hmode : r.mode with
  | between =>
    rw [step, hmode] at h
    obtain rfl := Option.some.inj h
    rfl
  | atom rev =>
    rw [step, hmode] at h
    obtain ⟨settled, -, h⟩ := Option.bind_eq_some_iff.mp h
    obtain rfl := Option.some.inj h
    rfl
  | text rev =>
    rw [step, hmode] at h
    cases h
  | escaped rev =>
    rw [step, hmode] at h
    cases h
  | hex rev digits =>
    rw [step, hmode] at h
    cases h

/-- No text goes on with an opening bracket on a new line and a character above ASCII. -/
theorem run_cut (r : Reader) {c : Char} (h : 127 < c.toNat) (rest : List Char) :
    r.run ('\n' :: '[' :: c :: rest) = none := by
  rw [run_cons, Option.bind_eq_none_iff]
  intro line hline
  rw [run_cons, Option.bind_eq_none_iff]
  intro opened hopened
  rw [step, step_newline hline] at hopened
  have hmode : opened.mode = .between := by
    have hpunctuate : punctuate line.goal line.stack '[' = some opened := hopened
    unfold punctuate at hpunctuate
    repeat' split at hpunctuate
    all_goals first | (cases hpunctuate; done) | (cases hpunctuate; rfl)
  rw [run_cons, step, hmode]
  dsimp only
  rw [readBetween_of_high opened h, Option.bind_none]

end Reader

theorem loads_cut_mark (front : List Char) {c : Char} (h : 127 < c.toNat) (rest : List Char) :
    loads (String.ofList (front ++ '\n' :: '[' :: c :: rest)) = none := by
  unfold loads
  rw [String.toList_ofList, Reader.run_append]
  cases Reader.start.run front with
  | none => rfl
  | some r => rw [Option.bind_some, Reader.run_cut r h, Option.bind_none]

end ProjectOS.Base.Json
