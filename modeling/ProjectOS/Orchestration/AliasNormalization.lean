import ProjectOS.Orchestration.SameValue

/-! What normalization makes of an object: every canonical name gets the first value
that says something, every alias goes. An empty list or text says nothing, so one
that only an alias carries goes with it. -/
namespace ProjectOS.Orchestration.FieldSemantics
open Base Json

/-- Each alias has one canonical name and is none itself; the table is a dictionary. -/
structure Separate (mapping : List (String × List String)) : Prop where
  canonical : (mapping.map Prod.fst).Nodup
  aliases : (mapping.flatMap Prod.snd).Nodup
  apart : ∀ entry ∈ mapping, ∀ name ∈ mapping.flatMap Prod.snd, entry.1 ≠ name

/-- The canonical name and the aliases of a field. -/
def spellings (entry : String × List String) : List String := entry.1 :: entry.2

/-- The value of the first spelling that says something. -/
def saidValue (payload : Json) (entry : String × List String) : Option Json :=
  ((spellings entry).filterMap (specified payload)).head?.map (·.2)

/-- Two spellings of the field say something different. -/
def Contradicts (payload : Json) (entry : String × List String) : Prop :=
  ∃ first rest, (spellings entry).filterMap (specified payload) = first :: rest ∧
    ∃ other ∈ rest, sameValue other.2 first.2 = false

variable {payload out : Json} {entry : String × List String} {mapping : List (String × List String)}

theorem coalesceAlias_spec (payload : Json) (entry : String × List String) :
    (∃ error, coalesceAlias payload entry.1 entry.2 = .error error) ∧ Contradicts payload entry ∨
      coalesceAlias payload entry.1 entry.2 = .ok (saidValue payload entry) ∧
        ¬ Contradicts payload entry := by
  unfold coalesceAlias saidValue Contradicts
  rw [← spellings]
  cases hvalues : (spellings entry).filterMap (specified payload) with
  | nil =>
    right
    refine ⟨rfl, ?_⟩
    intro ⟨_, _, hcons, _⟩
    cases hcons
  | cons first rest =>
    obtain ⟨name, value⟩ := first
    dsimp only
    by_cases hdiffer : (rest.any fun e => !sameValue e.2 value) = true
    · left
      rw [hdiffer]
      refine ⟨⟨_, rfl⟩, _, _, rfl, ?_⟩
      obtain ⟨other, hother, hne⟩ := List.any_eq_true.mp hdiffer
      exact ⟨other, hother, by simpa using hne⟩
    · rw [Bool.not_eq_true] at hdiffer
      right
      rw [hdiffer]
      refine ⟨rfl, ?_⟩
      rintro ⟨_, _, ⟨⟩, other, hother, hne⟩
      have hsame := List.any_eq_false.mp hdiffer other hother
      simp [hne] at hsame

theorem get?_popAll (names : List String) (key : String) :
    (popAll names payload).get? key = if key ∈ names then none else payload.get? key := by
  cases payload with
  | obj fields =>
    rw [popAll, get?, get?]
    induction fields with
    | nil => simp [lookup]
    | cons e rest ih =>
      obtain ⟨k, v⟩ := e
      by_cases hk : k ∈ names
      · rw [List.filter_cons_of_neg (by simpa using hk), ih, lookup]
        split
        · rfl
        · next hkey =>
          have hne : k ≠ key := by
            rintro rfl
            exact hkey hk
          rw [if_neg hne]
      · rw [List.filter_cons_of_pos (by simpa using hk), lookup, lookup, ih]
        split
        · next heq =>
          subst heq
          rw [if_neg hk]
        · rfl
  | _ => simp [popAll, get?]

theorem isDict_popAll (h : payload.isDict = true) (names : List String) :
    (popAll names payload).isDict = true := by
  cases payload with
  | obj fields => rfl
  | _ => cases h

/-- The value of a key after the entry was normalized. -/
def entryValue (payload : Json) (entry : String × List String) (key : String) : Option Json :=
  if key ∈ entry.2 then none
  else if key = entry.1 then (saidValue payload entry).or (payload.get? key)
  else payload.get? key

theorem normalizeEntry_spec (h : payload.isDict = true) (entry : String × List String) :
    (∃ error, normalizeEntry payload entry.1 entry.2 = .error error) ∧ Contradicts payload entry ∨
      (∃ out, normalizeEntry payload entry.1 entry.2 = .ok out ∧ out.isDict = true ∧
        ∀ key, out.get? key = entryValue payload entry key) ∧ ¬ Contradicts payload entry := by
  obtain ⟨⟨error, herror⟩, hcontradicts⟩ | ⟨hok, hagrees⟩ := coalesceAlias_spec payload entry
  · left
    exact ⟨⟨error, by rw [normalizeEntry, herror, error_bind]⟩, hcontradicts⟩
  right
  refine ⟨?_, hagrees⟩
  rw [normalizeEntry, hok, ok_bind]
  unfold entryValue
  cases saidValue payload entry with
  | none =>
    refine ⟨_, rfl, isDict_popAll h _, ?_⟩
    intro key
    rw [get?_popAll, Option.none_or, ite_self]
  | some value =>
    refine ⟨_, rfl, isDict_popAll (isDict_set h entry.1 value) _, ?_⟩
    intro key
    rw [get?_popAll, get?_set h, Option.some_or]
    simp only [eq_comm]

theorem filterMap_specified_congr {other : Json} {names : List String}
    (h : ∀ name ∈ names, payload.get? name = other.get? name) :
    names.filterMap (specified payload) = names.filterMap (specified other) := by
  apply List.filterMap_congr
  intro name hname
  rw [specified, specified, h name hname]

theorem Separate.tail {rest : List (String × List String)} (h : Separate (entry :: rest)) :
    Separate rest where
  canonical := (List.nodup_cons.mp (by simpa using h.canonical)).2
  aliases := (List.nodup_append.mp h.aliases).2.1
  apart other hother name hname :=
    h.apart other (List.mem_cons_of_mem _ hother) name (List.mem_append_right _ hname)

/-- A later field shares no spelling with the first one. -/
theorem Separate.disjoint {rest : List (String × List String)} (h : Separate (entry :: rest))
    {other : String × List String} (hother : other ∈ rest) {name : String}
    (hname : name ∈ spellings other) : name ∉ entry.2 ∧ name ≠ entry.1 := by
  have hlater : ∀ older ∈ other.2, older ∈ rest.flatMap Prod.snd :=
    fun older holder => List.mem_flatMap.mpr ⟨other, hother, holder⟩
  obtain rfl | halias := List.mem_cons.mp hname
  · constructor
    · intro hmem
      exact h.apart other (List.mem_cons_of_mem _ hother) other.1 (List.mem_append_left _ hmem) rfl
    · intro heq
      have hnodup := h.canonical
      rw [List.map_cons, List.nodup_cons] at hnodup
      exact hnodup.1 (heq ▸ List.mem_map_of_mem hother)
  · constructor
    · intro hmem
      exact (List.nodup_append.mp h.aliases).2.2 name hmem name (hlater name halias) rfl
    · rintro rfl
      exact h.apart entry List.mem_cons_self entry.1 (List.mem_append_right _ (hlater _ halias)) rfl

/-- The value of a key of the normalized object. -/
def normalValue (payload : Json) (mapping : List (String × List String)) (key : String) :
    Option Json :=
  if key ∈ mapping.flatMap Prod.snd then none
  else match mapping.find? (·.1 = key) with
    | some entry => (saidValue payload entry).or (payload.get? key)
    | none => payload.get? key

theorem normalizeAliases_spec (hdict : payload.isDict = true) (hmapping : Separate mapping) :
    (∃ error, normalizeAliases payload mapping = .error error) ∧
        (∃ entry ∈ mapping, Contradicts payload entry) ∨
      (∃ out, normalizeAliases payload mapping = .ok out ∧ out.isDict = true ∧
        ∀ key, out.get? key = normalValue payload mapping key) ∧
        ∀ entry ∈ mapping, ¬ Contradicts payload entry := by
  induction mapping generalizing payload with
  | nil =>
    right
    exact ⟨⟨payload, rfl, hdict, fun _ => rfl⟩, nofun⟩
  | cons entry rest ih =>
    obtain ⟨⟨error, herror⟩, hcontradicts⟩ | ⟨⟨middle, hmiddle, hmiddleDict, hvalue⟩, hagrees⟩ :=
      normalizeEntry_spec hdict entry
    · left
      refine ⟨⟨error, ?_⟩, entry, List.mem_cons_self, hcontradicts⟩
      rw [normalizeAliases, herror, error_bind]
    -- the later fields find their spellings as they were
    have hsame : ∀ other ∈ rest, ∀ name ∈ spellings other, middle.get? name = payload.get? name := by
      intro other hother name hname
      obtain ⟨hnot, hne⟩ := hmapping.disjoint hother hname
      rw [hvalue, entryValue, if_neg hnot, if_neg hne]
    have hcontradicts : ∀ other ∈ rest, Contradicts middle other ↔ Contradicts payload other := by
      intro other hother
      rw [Contradicts, Contradicts, filterMap_specified_congr (hsame other hother)]
    have hsaid : ∀ other ∈ rest, saidValue middle other = saidValue payload other := by
      intro other hother
      rw [saidValue, saidValue, filterMap_specified_congr (hsame other hother)]
    rw [normalizeAliases, hmiddle, ok_bind]
    obtain ⟨herror, other, hother, hdiffers⟩ | ⟨⟨out, hout, houtDict, hget⟩, hagree⟩ :=
      ih hmiddleDict hmapping.tail
    · left
      exact ⟨herror, other, List.mem_cons_of_mem _ hother, (hcontradicts other hother).mp hdiffers⟩
    right
    refine ⟨⟨out, hout, houtDict, ?_⟩, ?_⟩
    · intro key
      have hmem : key ∈ (entry :: rest).flatMap Prod.snd ↔
          key ∈ entry.2 ∨ key ∈ rest.flatMap Prod.snd := by
        rw [List.flatMap_cons, List.mem_append]
      rw [hget, normalValue, normalValue]
      by_cases hrest : key ∈ rest.flatMap Prod.snd
      · rw [if_pos hrest, if_pos (hmem.mpr (.inr hrest))]
      rw [if_neg hrest]
      by_cases halias : key ∈ entry.2
      · rw [if_pos (hmem.mpr (.inl halias))]
        have hnone : rest.find? (·.1 = key) = none := by
          rw [List.find?_eq_none]
          intro other hother hkey
          exact (hmapping.disjoint hother (List.mem_cons_self)).1 (of_decide_eq_true hkey ▸ halias)
        rw [hnone, hvalue, entryValue, if_pos halias]
      rw [if_neg fun h => (hmem.mp h).elim halias hrest]
      by_cases hkey : key = entry.1
      · have hnone : rest.find? (·.1 = key) = none := by
          rw [List.find?_eq_none]
          intro other hother heq
          exact (hmapping.disjoint hother (List.mem_cons_self)).2 ((of_decide_eq_true heq).trans hkey)
        rw [hnone, List.find?_cons_of_pos (by simp [hkey]), hvalue, entryValue, if_neg halias,
          if_pos hkey]
      · rw [List.find?_cons_of_neg (by simpa using Ne.symm hkey), hvalue, entryValue,
          if_neg halias, if_neg hkey]
        cases hfind : rest.find? (·.1 = key) with
        | none => rfl
        | some other =>
          dsimp only
          rw [hsaid other (List.mem_of_find?_eq_some hfind)]
    · rw [List.forall_mem_cons]
      exact ⟨hagrees, fun other hother hdiffers => hagree other hother
        ((hcontradicts other hother).mpr hdiffers)⟩

/-! The contract of normalization and the objects that get it. -/

/-- The values that the spellings of a field carry; null is none. -/
def spelled (payload : Json) (entry : String × List String) : List Json :=
  (spellings entry).filterMap fun name => (payload.get? name).filter (!·.isNull)

/-- Two spellings of the field carry different values. -/
def Conflict (payload : Json) (entry : String × List String) : Prop :=
  ∃ value ∈ spelled payload entry, ∃ other ∈ spelled payload entry, sameValue value other = false

/-- What normalization promises for an object. -/
structure Normalizes (payload : Json) (mapping : List (String × List String)) : Prop where
  raises : (∃ error, normalizeAliases payload mapping = .error error) ↔
    ∃ entry ∈ mapping, Conflict payload entry
  isDict : ∀ out, normalizeAliases payload mapping = .ok out → out.isDict = true
  aliasFree : ∀ out, normalizeAliases payload mapping = .ok out → AliasFree mapping out
  idempotent : ∀ out, normalizeAliases payload mapping = .ok out →
    normalizeAliases out mapping = .ok out
  others : ∀ out, normalizeAliases payload mapping = .ok out → ∀ key,
    (∀ entry ∈ mapping, key ∉ spellings entry) → out.get? key = payload.get? key
  kept : ∀ out, normalizeAliases payload mapping = .ok out → ∀ entry ∈ mapping,
    ∀ value ∈ spelled payload entry, ∃ found, out.get? entry.1 = some found ∧
      sameValue found value = true

/-- An empty list or text that a spelling carries is the canonical one's value, and the
other spellings carry the same or nothing. -/
def EmptyAtHome (payload : Json) (entry : String × List String) : Prop :=
  ∀ value ∈ spelled payload entry, unspecified value = true →
    payload.get? entry.1 = some value ∧ ∀ other ∈ spelled payload entry, other = value

theorem mem_spelled {value : Json} : value ∈ spelled payload entry ↔
    ∃ name ∈ spellings entry, payload.get? name = some value ∧ value.isNull = false := by
  simp only [spelled, List.mem_filterMap, Option.filter_eq_some_iff, Bool.not_eq_true']

theorem mem_specified {name : String} {value : Json} :
    (name, value) ∈ (spellings entry).filterMap (specified payload) ↔
      name ∈ spellings entry ∧ payload.get? name = some value ∧ unspecified value = false := by
  simp only [List.mem_filterMap, specified, Option.map_eq_some_iff, Option.filter_eq_some_iff,
    Bool.not_eq_true', Prod.mk.injEq]
  constructor
  · rintro ⟨found, hfound, _, hvalue, rfl, rfl⟩
    exact ⟨hfound, hvalue⟩
  · rintro ⟨hname, hvalue⟩
    exact ⟨name, hname, value, hvalue, rfl, rfl⟩

theorem isNull_of_specified {value : Json} (h : unspecified value = false) : value.isNull = false := by
  cases value <;> first | rfl | cases h

theorem spelled_of_specified {name : String} {value : Json}
    (h : (name, value) ∈ (spellings entry).filterMap (specified payload)) :
    value ∈ spelled payload entry := by
  obtain ⟨hname, hvalue, hspecified⟩ := mem_specified.mp h
  exact mem_spelled.mpr ⟨name, hname, hvalue, isNull_of_specified hspecified⟩

/-- An empty list or text equals only itself. -/
theorem eq_of_sameValue_empty {value other : Json} (hempty : unspecified value = true)
    (hnull : value.isNull = false) (h : sameValue other value = true) : other = value := by
  cases value with
  | arr items =>
    obtain rfl : items = [] := List.isEmpty_iff.mp hempty
    cases other with
    | arr others =>
      cases others with
      | nil => rfl
      | cons _ _ => cases h
    | _ => cases h
  | str text =>
    cases other with
    | str other => exact congrArg Json.str (eq_of_beq h).symm
    | _ => cases h
  | null => cases hnull
  | _ => cases hempty

theorem distinct_of_get? {name : String} {value : Json} (h : payload.distinct = true)
    (hvalue : payload.get? name = some value) : value.distinct = true := by
  cases payload with
  | obj fields => exact (distinct_obj.mp h).2 _ (mem_of_lookup hvalue)
  | _ => cases hvalue

theorem distinct_of_spelled {value : Json} (h : payload.distinct = true)
    (hvalue : value ∈ spelled payload entry) : value.distinct = true := by
  obtain ⟨_, _, hget, _⟩ := mem_spelled.mp hvalue
  exact distinct_of_get? h hget

theorem Contradicts.conflict (h : Contradicts payload entry) : Conflict payload entry := by
  obtain ⟨first, rest, hvalues, other, hother, hdiffer⟩ := h
  have hmem : ∀ e ∈ first :: rest, e.2 ∈ spelled payload entry := by
    intro e he
    rw [← hvalues] at he
    exact spelled_of_specified he
  exact ⟨other.2, hmem other (List.mem_cons_of_mem _ hother), first.2,
    hmem first List.mem_cons_self, hdiffer⟩

theorem spelled_of_saidValue {value : Json} (h : saidValue payload entry = some value) :
    value ∈ spelled payload entry ∧ unspecified value = false := by
  obtain ⟨⟨name, said⟩, hhead, rfl⟩ := Option.map_eq_some_iff.mp h
  have hmem := List.mem_of_head? hhead
  exact ⟨spelled_of_specified hmem, (mem_specified.mp hmem).2.2⟩

theorem saidValue_of_empty {value : Json} (hempty : unspecified value = true)
    (hall : ∀ other ∈ spelled payload entry, other = value) : saidValue payload entry = none := by
  rw [Option.eq_none_iff_forall_not_mem]
  intro said hsaid
  obtain ⟨hmem, hspecified⟩ := spelled_of_saidValue hsaid
  rw [hall said hmem, hempty] at hspecified
  cases hspecified

/-- Without contradiction all that is said is the value of the first spelling. -/
theorem sameValue_saidValue (hdistinct : payload.distinct = true)
    (hagrees : ¬ Contradicts payload entry) {value : Json} (hvalue : value ∈ spelled payload entry)
    (hspecified : unspecified value = false) :
    ∃ said, saidValue payload entry = some said ∧ sameValue value said = true := by
  obtain ⟨name, hname, hget, hnull⟩ := mem_spelled.mp hvalue
  have hmem := mem_specified.mpr ⟨hname, hget, hspecified⟩
  unfold saidValue
  cases hvalues : (spellings entry).filterMap (specified payload) with
  | nil =>
    rw [hvalues] at hmem
    cases hmem
  | cons first rest =>
    refine ⟨first.2, rfl, ?_⟩
    rw [hvalues] at hmem
    obtain rfl | hrest := List.mem_cons.mp hmem
    · exact sameValue_refl value (distinct_of_get? hdistinct hget)
    · by_contra hdiffer
      rw [Bool.not_eq_true] at hdiffer
      exact hagrees ⟨first, rest, hvalues, _, hrest, hdiffer⟩

theorem not_conflict (hdistinct : payload.distinct = true) (hagrees : ¬ Contradicts payload entry)
    (hhome : EmptyAtHome payload entry) : ¬ Conflict payload entry := by
  intro ⟨value, hvalue, other, hother, hdiffer⟩
  have hdistinctOther := distinct_of_spelled hdistinct hother
  cases hempty : unspecified value with
  | true =>
    rw [(hhome value hvalue hempty).2 other hother,
      sameValue_refl value (distinct_of_spelled hdistinct hvalue)] at hdiffer
    cases hdiffer
  | false =>
    cases hempty' : unspecified other with
    | true =>
      rw [(hhome other hother hempty').2 value hvalue, sameValue_refl other hdistinctOther] at hdiffer
      cases hdiffer
    | false =>
      obtain ⟨said, hsaid, hsame⟩ := sameValue_saidValue hdistinct hagrees hvalue hempty
      obtain ⟨said', hsaid', hsame'⟩ := sameValue_saidValue hdistinct hagrees hother hempty'
      rw [hsaid] at hsaid'
      cases hsaid'
      have hdistinctSaid := distinct_of_spelled hdistinct (spelled_of_saidValue hsaid).1
      have hback := sameValue_symm hdistinctOther hdistinctSaid hsame'
      rw [sameValue_trans hsame hback] at hdiffer
      cases hdiffer

theorem find?_entry (hmapping : Separate mapping) (hentry : entry ∈ mapping) :
    mapping.find? (·.1 = entry.1) = some entry :=
  (find?_eq_some_iff_of_nodup hmapping.canonical fun _ => decide_eq_true_iff).mpr ⟨hentry, rfl⟩

/-- The canonical name ends up with what is said, or stays as it was. -/
theorem normalValue_canonical (hmapping : Separate mapping) (hentry : entry ∈ mapping) :
    normalValue payload mapping entry.1 = (saidValue payload entry).or (payload.get? entry.1) := by
  have hnot : entry.1 ∉ mapping.flatMap Prod.snd :=
    fun hmem => hmapping.apart entry hentry entry.1 hmem rfl
  rw [normalValue, if_neg hnot, find?_entry hmapping hentry]

theorem aliasFree_of_normal (h : ∀ key, out.get? key = normalValue payload mapping key) :
    AliasFree mapping out := by
  intro entry hentry name hname
  rw [h, normalValue, if_pos (List.mem_flatMap.mpr ⟨entry, hentry, hname⟩)]

theorem others_of_normal (h : ∀ key, out.get? key = normalValue payload mapping key) {key : String}
    (hkey : ∀ entry ∈ mapping, key ∉ spellings entry) : out.get? key = payload.get? key := by
  have halias : key ∉ mapping.flatMap Prod.snd := by
    intro hmem
    obtain ⟨entry, hentry, hname⟩ := List.mem_flatMap.mp hmem
    exact hkey entry hentry (List.mem_cons_of_mem _ hname)
  have hfind : mapping.find? (·.1 = key) = none := by
    rw [List.find?_eq_none]
    intro entry hentry heq
    apply hkey entry hentry
    rw [← of_decide_eq_true heq]
    exact List.mem_cons_self
  rw [h, normalValue, if_neg halias, hfind]

/-- The contract holds of exactly the objects that contradict themselves in what they
say, or in which an empty list or text stands under the canonical name and nothing else
under the others. -/
theorem normalizeAliases_normalizes_iff (hdict : payload.isDict = true)
    (hdistinct : payload.distinct = true) (hmapping : Separate mapping) :
    Normalizes payload mapping ↔
      (∃ entry ∈ mapping, Contradicts payload entry) ∨
        ∀ entry ∈ mapping, EmptyAtHome payload entry := by
  obtain ⟨⟨error, herror⟩, entry, hentry, hcontradicts⟩ | ⟨⟨out, hout, houtDict, hget⟩, hagrees⟩ :=
    normalizeAliases_spec hdict hmapping
  · have hnone : ∀ out, normalizeAliases payload mapping ≠ .ok out := by
      intro out hout
      rw [herror] at hout
      cases hout
    refine ⟨fun _ => .inl ⟨entry, hentry, hcontradicts⟩, fun _ => ?_⟩
    exact {
      raises := ⟨fun _ => ⟨entry, hentry, hcontradicts.conflict⟩, fun _ => ⟨error, herror⟩⟩
      isDict := fun out hout => absurd hout (hnone out)
      aliasFree := fun out hout => absurd hout (hnone out)
      idempotent := fun out hout => absurd hout (hnone out)
      others := fun out hout => absurd hout (hnone out)
      kept := fun out hout => absurd hout (hnone out) }
  constructor
  · intro h
    right
    have hnoError : ¬ ∃ error, normalizeAliases payload mapping = .error error := by
      rintro ⟨error, herror⟩
      rw [hout] at herror
      cases herror
    intro entry hentry value hvalue hempty
    obtain ⟨_, _, _, hnull⟩ := mem_spelled.mp hvalue
    -- without conflict all spellings carry the empty value
    have hall : ∀ other ∈ spelled payload entry, other = value := by
      intro other hother
      apply eq_of_sameValue_empty hempty hnull
      by_contra hdiffer
      rw [Bool.not_eq_true] at hdiffer
      exact hnoError (h.raises.mpr ⟨entry, hentry, other, hother, value, hvalue, hdiffer⟩)
    obtain ⟨found, hfound, hsame⟩ := h.kept out hout entry hentry value hvalue
    rw [hget, normalValue_canonical hmapping hentry, saidValue_of_empty hempty hall,
      Option.none_or] at hfound
    rw [hfound, eq_of_sameValue_empty hempty hnull hsame]
    exact ⟨rfl, hall⟩
  · intro h
    have hhome : ∀ entry ∈ mapping, EmptyAtHome payload entry := by
      obtain ⟨entry, hentry, hcontradicts⟩ | hhome := h
      · exact absurd hcontradicts (hagrees entry hentry)
      · exact hhome
    have hfree := aliasFree_of_normal hget
    constructor
    · constructor
      · rintro ⟨error, herror⟩
        rw [hout] at herror
        cases herror
      · rintro ⟨entry, hentry, hconflict⟩
        exact absurd hconflict (not_conflict hdistinct (hagrees entry hentry) (hhome entry hentry))
    all_goals
      intro out' hout'
      rw [hout] at hout'
      cases hout'
    · exact houtDict
    · exact hfree
    · exact normalizeAliases_of_free hfree
    · intro key hkey
      exact others_of_normal hget hkey
    · intro entry hentry value hvalue
      rw [hget, normalValue_canonical hmapping hentry]
      cases hempty : unspecified value with
      | true =>
        obtain ⟨hcanonical, hall⟩ := hhome entry hentry value hvalue hempty
        rw [saidValue_of_empty hempty hall, hcanonical]
        exact ⟨value, rfl, sameValue_refl value (distinct_of_spelled hdistinct hvalue)⟩
      | false =>
        obtain ⟨said, hsaid, hsame⟩ :=
          sameValue_saidValue hdistinct (hagrees entry hentry) hvalue hempty
        rw [hsaid]
        exact ⟨said, rfl, sameValue_symm (distinct_of_spelled hdistinct hvalue)
          (distinct_of_spelled hdistinct (spelled_of_saidValue hsaid).1) hsame⟩

/-- An interface list under its older name, and a true conflict of two spellings. -/
theorem olderNames_normalized :
    Normalizes (.obj [("provides", .arr [.str "api"]), ("slot", .str "")])
        [("provides_interfaces", ["provides"]), ("slot", ["output_slot"])] := by
  have hmapping : Separate [("provides_interfaces", ["provides"]), ("slot", ["output_slot"])] := by
    constructor <;> decide
  refine (normalizeAliases_normalizes_iff rfl (by decide) hmapping).mpr (.inr ?_)
  rw [List.forall_mem_cons, List.forall_mem_singleton]
  constructor
  · intro value hvalue hempty
    have hprovides : spelled (.obj [("provides", .arr [.str "api"]), ("slot", .str "")])
        ("provides_interfaces", ["provides"]) = [.arr [.str "api"]] := rfl
    rw [hprovides] at hvalue
    rw [List.mem_singleton.mp hvalue] at hempty
    cases hempty
  · intro value hvalue _
    have hslot : spelled (.obj [("provides", .arr [.str "api"]), ("slot", .str "")])
        ("slot", ["output_slot"]) = [.str ""] := rfl
    rw [hslot] at hvalue ⊢
    rw [List.mem_singleton.mp hvalue, List.forall_mem_singleton]
    exact ⟨rfl, rfl⟩

/-- An empty list that only the older name carries is lost. -/
theorem emptyList_lost :
    ¬ Normalizes (.obj [("provides", .arr [])]) [("provides_interfaces", ["provides"])] := by
  intro h
  obtain ⟨found, hfound, -⟩ := h.kept (.obj []) rfl ("provides_interfaces", ["provides"])
    List.mem_cons_self (.arr []) (List.mem_singleton_self _)
  cases hfound

end ProjectOS.Orchestration.FieldSemantics
