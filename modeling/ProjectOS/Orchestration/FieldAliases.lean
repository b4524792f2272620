import ProjectOS.Error

/-! Compatibility aliases of wire objects. A field and its aliases hold one
value; after normalization only the canonical name is left. -/
namespace ProjectOS.Orchestration.FieldSemantics
open Base

mutual

/-- `value == other`. -/
def sameValue : Json → Json → Bool
  | .null, other => other.isNull
  | .bool b, other => other.isInt (if b then 1 else 0)
  | .int value, other => other.isInt value
  | .str text, other => other.isStr text
  | .arr items, .arr others => sameItems items others
  | .obj fields, .obj others => fields.length == others.length && sameFields fields others
  | _, _ => false

def sameItems : List Json → List Json → Bool
  | [], [] => true
  | value :: rest, other :: others => sameValue value other && sameItems rest others
  | _, _ => false

def sameFields : List (String × Json) → List (String × Json) → Bool
  | [], _ => true
  | (key, value) :: rest, others =>
      (match Json.lookup key others with
      | some other => sameValue value other
      | none => false) && sameFields rest others

end

/-- `None`, an empty list and an empty text say nothing. -/
def unspecified : Json → Bool
  | .null => true
  | .arr items => items.isEmpty
  | .str text => text = ""
  | _ => false

def specified (payload : Json) (name : String) : Option (String × Json) :=
  ((payload.get? name).filter (!unspecified ·)).map (name, ·)

/-- The caller supplies the default of an unspecified value. -/
def coalesceAlias (payload : Json) (canonical : String) (aliases : List String) :
    Result (Option Json) :=
  let values := (canonical :: aliases).filterMap (specified payload)
  match values with
  | [] => .ok none
  | (_, first) :: rest => do
      raiseWhen (rest.any fun e => !sameValue e.2 first)
        (Text.join ", " (values.map (·.1)) ++ " 表示同一语义但值不一致")
      .ok (some first)

/-- `data.pop(name, None)` for every name. -/
def popAll (names : List String) : Json → Json
  | .obj fields => .obj (fields.filter (·.1 ∉ names))
  | other => other

def normalizeEntry (payload : Json) (canonical : String) (aliases : List String) :
    Result Json := do
  match ← coalesceAlias payload canonical aliases with
  | some value => .ok (popAll aliases (payload.set canonical value))
  | none => .ok (popAll aliases payload)

/-- A value that is no dictionary is returned as it is. -/
def normalizeAliases (payload : Json) : List (String × List String) → Result Json
  | [] => .ok payload
  | (canonical, aliases) :: rest => do
      normalizeAliases (← normalizeEntry payload canonical aliases) rest

/-- The object uses no alias of the table. -/
def AliasFree (mapping : List (String × List String)) (payload : Json) : Prop :=
  ∀ entry ∈ mapping, ∀ name ∈ entry.2, payload.get? name = none

theorem lookup_eq_none_iff {key : String} {fields : List (String × Json)} :
    Json.lookup key fields = none ↔ ∀ e ∈ fields, e.1 ≠ key := by
  induction fields with
  | nil => simp [Json.lookup]
  | cons e rest ih =>
    obtain ⟨k, v⟩ := e
    by_cases hk : k = key
    · simp [Json.lookup, hk]
    · simp [Json.lookup, hk, ih]

theorem setField_of_lookup {key : String} {value : Json} {fields : List (String × Json)}
    (h : Json.lookup key fields = some value) : Json.setField key value fields = fields := by
  induction fields with
  | nil => cases h
  | cons e rest ih =>
    obtain ⟨k, v⟩ := e
    by_cases hk : k = key
    · rw [Json.lookup, if_pos hk] at h
      rw [Json.setField, if_pos hk, Option.some.inj h]
    · rw [Json.lookup, if_neg hk] at h
      rw [Json.setField, if_neg hk, ih h]

theorem set_of_get? {payload : Json} {key : String} {value : Json}
    (h : payload.get? key = some value) : payload.set key value = payload := by
  cases payload with
  | obj fields => exact congrArg Json.obj (setField_of_lookup h)
  | _ => rfl

theorem lookup_setField (key k : String) (value : Json) (fields : List (String × Json)) :
    Json.lookup k (Json.setField key value fields) =
      if key = k then some value else Json.lookup k fields := by
  induction fields with
  | nil => rfl
  | cons e rest ih =>
    obtain ⟨first, v⟩ := e
    by_cases hfirst : first = key
    · subst hfirst
      rw [Json.setField, if_pos rfl, Json.lookup]
      by_cases hk : first = k
      · rw [if_pos hk, if_pos hk]
      · rw [if_neg hk, if_neg hk, Json.lookup, if_neg hk]
    · rw [Json.setField, if_neg hfirst, Json.lookup, ih]
      by_cases hk : first = k
      · subst hk
        rw [if_pos rfl, if_neg (Ne.symm hfirst), Json.lookup, if_pos rfl]
      · rw [if_neg hk, Json.lookup, if_neg hk]

theorem get?_set {payload : Json} (h : payload.isDict = true) (key k : String) (value : Json) :
    (payload.set key value).get? k = if key = k then some value else payload.get? k := by
  cases payload with
  | obj fields => exact lookup_setField key k value fields
  | _ => cases h

theorem isDict_set {payload : Json} (h : payload.isDict = true) (key : String) (value : Json) :
    (payload.set key value).isDict = true := by
  cases payload with
  | obj fields => rfl
  | _ => cases h

theorem popAll_of_free {names : List String} {payload : Json}
    (h : ∀ name ∈ names, payload.get? name = none) : popAll names payload = payload := by
  cases payload with
  | obj fields =>
    have hkept : fields.filter (·.1 ∉ names) = fields := by
      rw [List.filter_eq_self]
      intro e he
      rw [decide_eq_true_eq]
      exact fun hname => lookup_eq_none_iff.mp (h e.1 hname) e he rfl
    rw [popAll, hkept]
  | _ => rfl

theorem coalesceAlias_of_free {payload : Json} {canonical : String} {aliases : List String}
    (h : ∀ name ∈ aliases, payload.get? name = none) :
    coalesceAlias payload canonical aliases =
      .ok ((specified payload canonical).map (·.2)) := by
  have hnone : aliases.filterMap (specified payload) = [] := by
    rw [List.filterMap_eq_nil_iff]
    intro name hname
    rw [specified, h name hname]
    rfl
  unfold coalesceAlias
  rw [List.filterMap_cons, hnone]
  cases specified payload canonical <;> rfl

theorem normalizeEntry_of_free {payload : Json} {canonical : String} {aliases : List String}
    (h : ∀ name ∈ aliases, payload.get? name = none) :
    normalizeEntry payload canonical aliases = .ok payload := by
  rw [normalizeEntry, coalesceAlias_of_free h, ok_bind]
  cases hspecified : specified payload canonical with
  | none =>
    rw [Option.map_none]
    exact congrArg Except.ok (popAll_of_free h)
  | some found =>
    obtain ⟨value, hvalue, rfl⟩ := Option.map_eq_some_iff.mp hspecified
    have hget : payload.get? canonical = some value := (Option.filter_eq_some_iff.mp hvalue).1
    rw [Option.map_some]
    change Except.ok (popAll aliases (payload.set canonical value)) = _
    rw [set_of_get? hget, popAll_of_free h]

/-- An object without aliases is already normal. -/
theorem normalizeAliases_of_free {payload : Json} {mapping : List (String × List String)}
    (h : AliasFree mapping payload) : normalizeAliases payload mapping = .ok payload := by
  induction mapping with
  | nil => rfl
  | cons entry rest ih =>
    rw [normalizeAliases, normalizeEntry_of_free (h entry List.mem_cons_self), ok_bind]
    exact ih fun other hother => h other (List.mem_cons_of_mem _ hother)

example : coalesceAlias (.obj [("slot", .str ""), ("output_slot", .str "api")]) "slot"
    ["output_slot"] = .ok (some (.str "api")) := rfl

end ProjectOS.Orchestration.FieldSemantics
