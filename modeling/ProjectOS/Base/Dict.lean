import Mathlib.Data.List.Nodup
import Mathlib.Data.List.Dedup
import Mathlib.Data.List.Pairwise

/-! Insertion-ordered dictionaries. A key occurs once by construction;
assigning to a present key keeps its position. -/
namespace ProjectOS.Base

structure Dict (κ ν : Type) where
  entries : List (κ × ν)
  nodup : (entries.map Prod.fst).Nodup

namespace Dict
variable {κ ν : Type}

@[ext] theorem ext {a b : Dict κ ν} (h : a.entries = b.entries) : a = b := by
  cases a; cases b; cases h; rfl

def empty : Dict κ ν := ⟨[], List.nodup_nil⟩

instance : EmptyCollection (Dict κ ν) := ⟨empty⟩

@[simp] theorem entries_empty : (∅ : Dict κ ν).entries = [] := rfl

def keys (d : Dict κ ν) : List κ := d.entries.map Prod.fst

def values (d : Dict κ ν) : List ν := d.entries.map Prod.snd

theorem keys_nodup (d : Dict κ ν) : d.keys.Nodup := d.nodup

variable [DecidableEq κ]

def getIn (k : κ) : List (κ × ν) → Option ν
  | [] => none
  | (k', v) :: rest => if k' = k then some v else getIn k rest

/-- `d.get(k)`. -/
def get? (d : Dict κ ν) (k : κ) : Option ν := getIn k d.entries

def setIn (k : κ) (v : ν) : List (κ × ν) → List (κ × ν)
  | [] => [(k, v)]
  | (k', v') :: rest => if k' = k then (k, v) :: rest else (k', v') :: setIn k v rest

theorem mem_keys_setIn {k x : κ} {v : ν} (entries : List (κ × ν)) :
    x ∈ (setIn k v entries).map Prod.fst ↔ x = k ∨ x ∈ entries.map Prod.fst := by
  induction entries with
  | nil => simp [setIn]
  | cons e rest ih =>
    obtain ⟨k', v'⟩ := e
    by_cases hk : k' = k
    · simp [setIn, hk]
    · simp only [setIn, hk, if_false, List.map_cons, List.mem_cons, ih]
      tauto

theorem nodup_setIn (k : κ) (v : ν) {entries : List (κ × ν)}
    (h : (entries.map Prod.fst).Nodup) : ((setIn k v entries).map Prod.fst).Nodup := by
  induction entries with
  | nil => simp [setIn]
  | cons e rest ih =>
    obtain ⟨k', v'⟩ := e
    simp only [List.map_cons, List.nodup_cons] at h
    by_cases hk : k' = k
    · subst hk
      simpa [setIn] using h
    · simp only [setIn, hk, if_false, List.map_cons, List.nodup_cons, mem_keys_setIn]
      exact ⟨fun hmem => hmem.elim id h.1, ih h.2⟩

/-- `d[k] = v`. -/
def set (d : Dict κ ν) (k : κ) (v : ν) : Dict κ ν := ⟨setIn k v d.entries, nodup_setIn k v d.nodup⟩

/-- `d.pop(k, None)`. -/
def erase (d : Dict κ ν) (k : κ) : Dict κ ν :=
  ⟨d.entries.filter (·.1 ≠ k), d.nodup.sublist ((List.filter_sublist).map _)⟩

/-- A dictionary display or comprehension: later values replace earlier ones. -/
def ofList (pairs : List (κ × ν)) : Dict κ ν := pairs.foldl (fun d p => d.set p.1 p.2) ∅

def filter (d : Dict κ ν) (p : κ → ν → Bool) : Dict κ ν :=
  ⟨d.entries.filter fun e => p e.1 e.2, d.nodup.sublist ((List.filter_sublist).map _)⟩

def mapValues {μ : Type} (d : Dict κ ν) (f : ν → μ) : Dict κ μ :=
  ⟨d.entries.map fun e => (e.1, f e.2), by simpa [Function.comp_def] using d.nodup⟩

theorem getIn_eq_some_iff {k : κ} {v : ν} {entries : List (κ × ν)}
    (h : (entries.map Prod.fst).Nodup) : getIn k entries = some v ↔ (k, v) ∈ entries := by
  induction entries with
  | nil => simp [getIn]
  | cons e rest ih =>
    obtain ⟨k', v'⟩ := e
    simp only [List.map_cons, List.nodup_cons] at h
    by_cases hk : k' = k
    · subst hk
      simp only [getIn, if_true, Option.some.injEq, List.mem_cons, Prod.mk.injEq, true_and]
      constructor
      · exact fun hv => .inl hv.symm
      · rintro (hv | hmem)
        · exact hv.symm
        · exact absurd (List.mem_map_of_mem (f := Prod.fst) hmem) h.1
    · simp [getIn, hk, ih h.2, Ne.symm hk]

theorem get?_eq_some_iff {d : Dict κ ν} {k : κ} {v : ν} :
    d.get? k = some v ↔ (k, v) ∈ d.entries := getIn_eq_some_iff d.nodup

theorem get?_eq_none_iff {d : Dict κ ν} {k : κ} : d.get? k = none ↔ k ∉ d.keys := by
  rw [Option.eq_none_iff_forall_ne_some]
  simp only [ne_eq, get?_eq_some_iff, keys, List.mem_map, Prod.exists, not_exists, not_and]
  constructor
  · rintro h x v hmem rfl
    exact h v hmem
  · exact fun h v hmem => h k v hmem rfl

theorem mem_keys_iff {d : Dict κ ν} {k : κ} : k ∈ d.keys ↔ ∃ v, d.get? k = some v := by
  rw [← Option.isSome_iff_exists, Option.isSome_iff_ne_none, ne_eq, get?_eq_none_iff, not_not]

@[simp] theorem get?_empty (k : κ) : (∅ : Dict κ ν).get? k = none := rfl

omit [DecidableEq κ] in
@[simp] theorem keys_empty : (∅ : Dict κ ν).keys = [] := rfl

theorem mem_keys_set {d : Dict κ ν} {k x : κ} {v : ν} :
    x ∈ (d.set k v).keys ↔ x = k ∨ x ∈ d.keys := mem_keys_setIn _

theorem getIn_setIn (k x : κ) (v : ν) (entries : List (κ × ν)) :
    getIn x (setIn k v entries) = if x = k then some v else getIn x entries := by
  induction entries with
  | nil =>
    by_cases hx : x = k
    · simp [setIn, getIn, hx]
    · simp [setIn, getIn, hx, Ne.symm hx]
  | cons e rest ih =>
    obtain ⟨k', v'⟩ := e
    by_cases hk : k' = k
    · subst hk
      by_cases hx : x = k'
      · simp [setIn, getIn, hx]
      · simp [setIn, getIn, hx, Ne.symm hx]
    · by_cases hx : k' = x
      · subst hx
        simp [setIn, getIn, hk]
      · simp [setIn, getIn, hk, hx, ih]

theorem get?_set (d : Dict κ ν) (k x : κ) (v : ν) :
    (d.set k v).get? x = if x = k then some v else d.get? x := getIn_setIn ..

theorem mem_set {d : Dict κ ν} {k : κ} {v : ν} {e : κ × ν} (h : e ∈ (d.set k v).entries) :
    e = (k, v) ∨ e ∈ d.entries := by
  have hget := get?_eq_some_iff.mpr h
  rw [get?_set] at hget
  split at hget
  · rename_i hk
    exact .inl (Prod.ext hk (Option.some.inj hget).symm)
  · exact .inr (get?_eq_some_iff.mp hget)

theorem setIn_of_not_mem {k : κ} {v : ν} {entries : List (κ × ν)}
    (h : k ∉ entries.map Prod.fst) : setIn k v entries = entries ++ [(k, v)] := by
  induction entries with
  | nil => rfl
  | cons e rest ih =>
    obtain ⟨k', v'⟩ := e
    simp only [List.map_cons, List.mem_cons, not_or] at h
    simp [setIn, Ne.symm h.1, ih h.2]

theorem entries_set_of_not_mem {d : Dict κ ν} {k : κ} {v : ν} (h : k ∉ d.keys) :
    (d.set k v).entries = d.entries ++ [(k, v)] := setIn_of_not_mem h

theorem keys_set_of_not_mem {d : Dict κ ν} {k : κ} {v : ν} (h : k ∉ d.keys) :
    (d.set k v).keys = d.keys ++ [k] := by
  simp [keys, entries_set_of_not_mem h]

theorem mem_entries_foldl_set {pairs : List (κ × ν)} {d : Dict κ ν} {k : κ} :
    k ∈ (pairs.foldl (fun d p => d.set p.1 p.2) d).keys ↔
      k ∈ d.keys ∨ k ∈ pairs.map Prod.fst := by
  induction pairs generalizing d with
  | nil => simp
  | cons p pairs ih =>
    simp only [List.foldl_cons, ih, mem_keys_set, List.map_cons, List.mem_cons]
    tauto

theorem mem_keys_ofList {pairs : List (κ × ν)} {k : κ} :
    k ∈ (ofList pairs).keys ↔ k ∈ pairs.map Prod.fst := by
  simp [ofList, mem_entries_foldl_set]

theorem entries_foldl_set {pairs : List (κ × ν)} {d : Dict κ ν}
    (hnodup : (d.keys ++ pairs.map Prod.fst).Nodup) :
    (pairs.foldl (fun d p => d.set p.1 p.2) d).entries = d.entries ++ pairs := by
  induction pairs generalizing d with
  | nil => simp
  | cons p pairs ih =>
    have hfresh : p.1 ∉ d.keys := by
      intro hmem
      have := List.disjoint_of_nodup_append hnodup hmem
      simp at this
    rw [List.foldl_cons, ih, entries_set_of_not_mem hfresh]
    · simp
    · rw [keys_set_of_not_mem hfresh]
      simpa using hnodup

/-- Pairs with distinct keys are stored as given. -/
theorem entries_ofList (pairs : List (κ × ν)) (h : (pairs.map Prod.fst).Nodup) :
    (ofList pairs).entries = pairs := by
  have hnodup : ((∅ : Dict κ ν).keys ++ pairs.map Prod.fst).Nodup := by simpa using h
  simp [ofList, entries_foldl_set hnodup]

theorem mem_foldl_set_of_mem {pairs : List (κ × ν)} {d : Dict κ ν} {e : κ × ν}
    (h : e ∈ (pairs.foldl (fun d p => d.set p.1 p.2) d).entries) :
    e ∈ d.entries ∨ e ∈ pairs := by
  induction pairs generalizing d with
  | nil => exact .inl h
  | cons p pairs ih =>
    rcases ih h with hmem | hmem
    · rcases mem_set hmem with rfl | hold
      · exact .inr List.mem_cons_self
      · exact .inl hold
    · exact .inr (List.mem_cons_of_mem _ hmem)

/-- Every stored entry is one of the given pairs. -/
theorem mem_of_mem_ofList {pairs : List (κ × ν)} {e : κ × ν} (h : e ∈ (ofList pairs).entries) :
    e ∈ pairs := by
  rcases mem_foldl_set_of_mem h with hmem | hmem
  · simp at hmem
  · exact hmem

/-- Pairs that agree on equal keys are all found. -/
theorem get?_ofList_iff {pairs : List (κ × ν)}
    (h : ∀ a ∈ pairs, ∀ b ∈ pairs, a.1 = b.1 → a.2 = b.2) {k : κ} {v : ν} :
    (ofList pairs).get? k = some v ↔ (k, v) ∈ pairs := by
  constructor
  · intro hget
    exact mem_of_mem_ofList (get?_eq_some_iff.mp hget)
  · intro hmem
    have hkey : k ∈ (ofList pairs).keys := mem_keys_ofList.mpr (List.mem_map_of_mem hmem)
    obtain ⟨v', hv'⟩ := mem_keys_iff.mp hkey
    have hother := mem_of_mem_ofList (get?_eq_some_iff.mp hv')
    have heq : v' = v := h _ hother _ hmem rfl
    rw [hv', heq]

theorem get?_mapValues {μ : Type} (d : Dict κ ν) (f : ν → μ) (k : κ) :
    (d.mapValues f).get? k = (d.get? k).map f := by
  have hin : ∀ entries : List (κ × ν),
      getIn k (entries.map fun e => (e.1, f e.2)) = (getIn k entries).map f := by
    intro entries
    induction entries with
    | nil => rfl
    | cons e rest ih =>
      obtain ⟨k', v⟩ := e
      by_cases hk : k' = k
      · simp [getIn, hk]
      · simpa [getIn, hk] using ih
  exact hin d.entries

theorem get?_filter (d : Dict κ ν) (p : κ → ν → Bool) (k : κ) :
    (d.filter p).get? k = (d.get? k).filter (p k) := by
  ext v
  rw [get?_eq_some_iff, Option.filter_eq_some_iff, get?_eq_some_iff]
  simp [filter, List.mem_filter]

theorem get?_erase (d : Dict κ ν) (k x : κ) :
    (d.erase k).get? x = if x = k then none else d.get? x := by
  ext v
  rw [get?_eq_some_iff]
  by_cases hx : x = k
  · simp [erase, hx]
  · simp [erase, hx, get?_eq_some_iff]

theorem setIn_eq_self {k : κ} {v : ν} {entries : List (κ × ν)} (h : getIn k entries = some v) :
    setIn k v entries = entries := by
  induction entries with
  | nil => cases h
  | cons e rest ih =>
    obtain ⟨k', v'⟩ := e
    by_cases hk : k' = k
    · simp only [getIn, hk, if_true, Option.some.injEq] at h
      simp [setIn, hk, h]
    · simp only [getIn, hk, if_false] at h
      simp [setIn, hk, ih h]

/-- Assigning the value a key has changes nothing. -/
theorem set_eq_self {d : Dict κ ν} {k : κ} {v : ν} (h : d.get? k = some v) : d.set k v = d :=
  ext (setIn_eq_self h)

theorem erase_eq_self {d : Dict κ ν} {k : κ} (h : d.get? k = none) : d.erase k = d := by
  apply ext
  rw [get?_eq_none_iff] at h
  apply List.filter_eq_self.mpr
  intro e he
  have hne : e.1 ≠ k := fun hk => h (hk ▸ List.mem_map_of_mem he)
  exact decide_eq_true hne

theorem mem_keys_erase {d : Dict κ ν} {k x : κ} : x ∈ (d.erase k).keys ↔ x ∈ d.keys ∧ x ≠ k := by
  simp only [mem_keys_iff, get?_erase]
  by_cases hx : x = k
  · simp [hx]
  · simp [hx]

omit [DecidableEq κ] in
@[simp] theorem keys_mapValues {μ : Type} (d : Dict κ ν) (f : ν → μ) :
    (d.mapValues f).keys = d.keys := by
  simp [keys, mapValues, Function.comp_def]

theorem mem_keys_filter {d : Dict κ ν} {p : κ → ν → Bool} {k : κ} :
    k ∈ (d.filter p).keys ↔ ∃ v, d.get? k = some v ∧ p k v = true := by
  simp [mem_keys_iff, get?_filter, Option.filter_eq_some_iff]

omit [DecidableEq κ] in
theorem mem_keys_of_mem {d : Dict κ ν} {e : κ × ν} (h : e ∈ d.entries) : e.1 ∈ d.keys :=
  List.mem_map_of_mem h

end Dict

variable {κ : Type} [DecidableEq κ]

def uniqueByFrom (key : α → κ) (seen : List κ) : List α → List α
  | [] => []
  | x :: xs =>
      if key x ∈ seen then uniqueByFrom key seen xs
      else x :: uniqueByFrom key (key x :: seen) xs

/-- The first element for each key, in order. -/
def uniqueBy (key : α → κ) (xs : List α) : List α := uniqueByFrom key [] xs

/-- `tuple(dict.fromkeys(xs))`: first occurrences, in order. -/
def dedupe (xs : List κ) : List κ := uniqueBy id xs

theorem uniqueByFrom_sublist (key : α → κ) (seen : List κ) (xs : List α) :
    (uniqueByFrom key seen xs).Sublist xs := by
  induction xs generalizing seen with
  | nil => exact .slnil
  | cons x xs ih =>
    unfold uniqueByFrom
    split
    · exact (ih seen).cons x
    · exact (ih _).cons_cons x

theorem mem_map_uniqueByFrom {key : α → κ} {seen : List κ} {xs : List α} {k : κ} :
    k ∈ (uniqueByFrom key seen xs).map key ↔ k ∈ xs.map key ∧ k ∉ seen := by
  induction xs generalizing seen with
  | nil => simp [uniqueByFrom]
  | cons y xs ih =>
    by_cases hy : key y ∈ seen
    · simp only [uniqueByFrom, hy, if_true, ih, List.map_cons, List.mem_cons]
      constructor
      · exact fun h => ⟨.inr h.1, h.2⟩
      · rintro ⟨rfl | hmem, hseen⟩
        · exact absurd hy hseen
        · exact ⟨hmem, hseen⟩
    · simp only [uniqueByFrom, hy, if_false, List.map_cons, List.mem_cons, ih, not_or]
      constructor
      · rintro (rfl | ⟨hmem, _, hseen⟩)
        · exact ⟨.inl rfl, hy⟩
        · exact ⟨.inr hmem, hseen⟩
      · rintro ⟨rfl | hmem, hseen⟩
        · exact .inl rfl
        · by_cases hk : k = key y
          · exact .inl hk
          · exact .inr ⟨hmem, hk, hseen⟩

theorem nodup_map_uniqueByFrom (key : α → κ) (seen : List κ) (xs : List α) :
    ((uniqueByFrom key seen xs).map key).Nodup := by
  induction xs generalizing seen with
  | nil => exact List.nodup_nil
  | cons y xs ih =>
    by_cases hy : key y ∈ seen
    · simpa [uniqueByFrom, hy] using ih seen
    · simp only [uniqueByFrom, hy, if_false, List.map_cons, List.nodup_cons, mem_map_uniqueByFrom]
      exact ⟨fun h => h.2 List.mem_cons_self, ih _⟩

theorem mem_of_mem_uniqueBy {key : α → κ} {xs : List α} {x : α} (h : x ∈ uniqueBy key xs) :
    x ∈ xs := (uniqueByFrom_sublist key [] xs).subset h

@[simp] theorem mem_map_uniqueBy {key : α → κ} {xs : List α} {k : κ} :
    k ∈ (uniqueBy key xs).map key ↔ k ∈ xs.map key := by
  simp only [uniqueBy, mem_map_uniqueByFrom, List.not_mem_nil, not_false_iff, and_true]

theorem nodup_map_uniqueBy (key : α → κ) (xs : List α) : ((uniqueBy key xs).map key).Nodup :=
  nodup_map_uniqueByFrom key [] xs

@[simp] theorem mem_dedupe {xs : List κ} {x : κ} : x ∈ dedupe xs ↔ x ∈ xs := by
  simpa [dedupe] using @mem_map_uniqueBy κ _ κ id xs x

theorem nodup_dedupe (xs : List κ) : (dedupe xs).Nodup := by
  simpa [dedupe] using nodup_map_uniqueBy id xs

theorem dedupe_eq_self_iff {xs : List κ} : dedupe xs = xs ↔ xs.Nodup := by
  constructor
  · intro h
    rw [← h]
    exact nodup_dedupe xs
  · intro h
    apply (uniqueByFrom_sublist id [] xs).eq_of_length
    exact ((List.perm_ext_iff_of_nodup (nodup_dedupe xs) h).mpr fun _ => mem_dedupe).length_eq

/-- `len(xs) != len(set(xs))`. -/
def hasDuplicates (xs : List κ) : Bool := !decide xs.Nodup

@[simp] theorem hasDuplicates_eq_false {xs : List κ} : hasDuplicates xs = false ↔ xs.Nodup := by
  simp [hasDuplicates]

omit [DecidableEq κ] in
/-- Without repetition an element of a `flatMap` has one origin. -/
theorem eq_of_nodup_flatMap {f : α → List κ} {xs : List α} (h : (xs.flatMap f).Nodup) {a b : α}
    (ha : a ∈ xs) (hb : b ∈ xs) {k : κ} (hka : k ∈ f a) (hkb : k ∈ f b) : a = b := by
  by_contra hne
  have : Std.Symm (Function.onFun List.Disjoint f) := ⟨fun _ _ hdisjoint => hdisjoint.symm⟩
  exact (List.nodup_flatMap.mp h).2.forall ha hb hne hka hkb

omit [DecidableEq κ] in
/-- With distinct keys a search for a key finds exactly its element. -/
theorem find?_eq_some_iff_of_nodup {key : α → κ} {xs : List α} (h : (xs.map key).Nodup) {k : κ}
    {p : α → Bool} (hp : ∀ y, p y = true ↔ key y = k) {x : α} :
    xs.find? p = some x ↔ x ∈ xs ∧ key x = k := by
  constructor
  · intro hfind
    exact ⟨List.mem_of_find?_eq_some hfind, (hp x).mp (List.find?_some hfind)⟩
  · rintro ⟨hmem, hkey⟩
    cases hfind : xs.find? p with
    | none => exact absurd ((hp x).mpr hkey) (List.find?_eq_none.mp hfind x hmem)
    | some y =>
      have hy : key y = k := (hp y).mp (List.find?_some hfind)
      rw [List.inj_on_of_nodup_map h (List.mem_of_find?_eq_some hfind) hmem (hy.trans hkey.symm)]

end ProjectOS.Base
