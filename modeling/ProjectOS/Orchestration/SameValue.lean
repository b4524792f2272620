import ProjectOS.Base.JsonSorted
import ProjectOS.Orchestration.FieldAliases

/-! Python's `==` on JSON values is an equivalence. The keys of a dictionary come in
any order, so for symmetry they have to be distinct. -/
namespace ProjectOS.Orchestration.FieldSemantics
open Base Json

theorem sameFields_iff {fields others : List (String × Json)} :
    sameFields fields others = true ↔
      ∀ e ∈ fields, ∃ other, lookup e.1 others = some other ∧ sameValue e.2 other = true := by
  induction fields with
  | nil => simp [sameFields]
  | cons e rest ih =>
    obtain ⟨key, value⟩ := e
    rw [sameFields, Bool.and_eq_true, ih, List.forall_mem_cons]
    apply and_congr_left
    intro _
    cases lookup key others <;> simp

theorem lookup_of_mem {fields : List (String × Json)} (h : (fields.map Prod.fst).Nodup)
    {e : String × Json} (he : e ∈ fields) : lookup e.1 fields = some e.2 := by
  induction fields with
  | nil => cases he
  | cons first rest ih =>
    obtain ⟨key, value⟩ := first
    rw [List.map_cons, List.nodup_cons] at h
    obtain rfl | hrest := List.mem_cons.mp he
    · rw [lookup, if_pos rfl]
    · have hne : key ≠ e.1 := fun heq => h.1 (List.mem_map.mpr ⟨e, hrest, heq.symm⟩)
      rw [lookup, if_neg hne, ih h.2 hrest]

theorem mem_of_lookup {key : String} {value : Json} {fields : List (String × Json)}
    (h : lookup key fields = some value) : (key, value) ∈ fields := by
  induction fields with
  | nil => cases h
  | cons e rest ih =>
    obtain ⟨k, v⟩ := e
    by_cases hk : k = key
    · rw [lookup, if_pos hk] at h
      cases h
      rw [hk]
      exact List.mem_cons_self
    · rw [lookup, if_neg hk] at h
      exact List.mem_cons_of_mem _ (ih h)

theorem distinct_obj {fields : List (String × Json)} :
    (obj fields).distinct = true ↔
      (fields.map Prod.fst).Nodup ∧ ∀ e ∈ fields, e.2.distinct = true := by
  rw [distinct, Bool.and_eq_true, decide_eq_true_eq, distinctFields_iff]

/-- Dictionaries of one length of which one holds the keys of the other have the same keys. -/
theorem mem_keys_of_sameFields {fields others : List (String × Json)}
    (hfields : (fields.map Prod.fst).Nodup) (hlength : fields.length = others.length)
    (h : ∀ e ∈ fields, ∃ other, lookup e.1 others = some other ∧ sameValue e.2 other = true)
    {e : String × Json} (he : e ∈ others) : ∃ value, (e.1, value) ∈ fields := by
  have hsubset : fields.map Prod.fst ⊆ others.map Prod.fst := by
    intro key hkey
    obtain ⟨field, hfield, rfl⟩ := List.mem_map.mp hkey
    obtain ⟨other, hother, -⟩ := h field hfield
    exact List.mem_map.mpr ⟨_, mem_of_lookup hother, rfl⟩
  have hperm := (List.subperm_of_subset hfields hsubset).perm_of_length_le
    (by rw [List.length_map, List.length_map, hlength])
  obtain ⟨field, hfield, hkey⟩ := List.mem_map.mp (hperm.mem_iff.mpr (List.mem_map_of_mem he))
  exact ⟨field.2, by rw [← hkey]; exact hfield⟩

mutual

theorem sameValue_refl : ∀ value : Json, value.distinct = true → sameValue value value = true
  | .null, _ => rfl
  | .bool b, _ => by cases b <;> rfl
  | .int value, _ => by simp [sameValue, isInt]
  | .str text, _ => by simp [sameValue, isStr]
  | .arr items, h => sameItems_refl items (by rwa [distinct, distinctItems_iff] at h)
  | .obj fields, h => by
      obtain ⟨hkeys, hvalues⟩ := distinct_obj.mp h
      rw [sameValue, Bool.and_eq_true, sameFields_iff]
      refine ⟨by simp, ?_⟩
      intro e he
      exact ⟨e.2, lookup_of_mem hkeys he, sameField_refl fields hvalues e he⟩

theorem sameItems_refl : ∀ items : List Json, (∀ value ∈ items, value.distinct = true) →
    sameItems items items = true
  | [], _ => rfl
  | value :: rest, h => by
      rw [List.forall_mem_cons] at h
      rw [sameItems, sameValue_refl value h.1, sameItems_refl rest h.2]
      rfl

theorem sameField_refl : ∀ fields : List (String × Json), (∀ e ∈ fields, e.2.distinct = true) →
    ∀ e ∈ fields, sameValue e.2 e.2 = true
  | [], _ => nofun
  | (_, value) :: rest, h => by
      rw [List.forall_mem_cons] at h ⊢
      exact ⟨sameValue_refl value h.1, sameField_refl rest h.2⟩

end

mutual

theorem sameValue_symm : ∀ {value other : Json}, value.distinct = true → other.distinct = true →
    sameValue value other = true → sameValue other value = true
  | .null, other, _, _, h => by cases other <;> simp_all [sameValue, isNull]
  | .bool b, other, _, _, h => by
      cases other <;> simp_all [sameValue, isInt]
  | .int value, other, _, _, h => by
      cases other <;> simp_all [sameValue, isInt]
  | .str text, other, _, _, h => by
      cases other <;> simp_all [sameValue, isStr]
  | .arr items, other, hitems, hother, h => by
      cases other with
      | arr others =>
        rw [distinct, distinctItems_iff] at hitems hother
        rw [sameValue] at h ⊢
        exact sameItems_symm hitems hother h
      | _ => cases h
  | .obj fields, other, hfields, hother, h => by
      cases other with
      | obj others =>
        obtain ⟨hkeys, hvalues⟩ := distinct_obj.mp hfields
        obtain ⟨hotherKeys, hotherValues⟩ := distinct_obj.mp hother
        rw [sameValue, Bool.and_eq_true, beq_iff_eq, sameFields_iff] at h ⊢
        refine ⟨h.1.symm, ?_⟩
        intro e he
        obtain ⟨value, hvalue⟩ := mem_keys_of_sameFields hkeys h.1 h.2 he
        obtain ⟨found, hfound, hsame⟩ := h.2 _ hvalue
        rw [lookup_of_mem hotherKeys he] at hfound
        cases hfound
        exact ⟨value, lookup_of_mem hkeys hvalue,
          sameField_symm hvalues _ hvalue (hotherValues e he) hsame⟩
      | _ => cases h

theorem sameItems_symm : ∀ {items others : List Json}, (∀ value ∈ items, value.distinct = true) →
    (∀ value ∈ others, value.distinct = true) → sameItems items others = true →
      sameItems others items = true
  | [], [], _, _, _ => rfl
  | [], _ :: _, _, _, h => by cases h
  | _ :: _, [], _, _, h => by cases h
  | value :: rest, other :: others, hitems, hothers, h => by
      rw [List.forall_mem_cons] at hitems hothers
      rw [sameItems, Bool.and_eq_true] at h ⊢
      exact ⟨sameValue_symm hitems.1 hothers.1 h.1, sameItems_symm hitems.2 hothers.2 h.2⟩

theorem sameField_symm : ∀ {fields : List (String × Json)}, (∀ e ∈ fields, e.2.distinct = true) →
    ∀ e ∈ fields, ∀ {other : Json}, other.distinct = true → sameValue e.2 other = true →
      sameValue other e.2 = true
  | [], _ => nofun
  | (_, value) :: rest, h => by
      rw [List.forall_mem_cons] at h ⊢
      exact ⟨fun hother hsame => sameValue_symm h.1 hother hsame, sameField_symm h.2⟩

end

mutual

theorem sameValue_trans : ∀ {value other third : Json}, sameValue value other = true →
    sameValue other third = true → sameValue value third = true
  | .null, other, third, h, h' => by
      cases other <;> simp_all [sameValue, isNull]
  | .bool b, other, third, h, h' => by
      cases other <;> simp_all [sameValue, isInt]
  | .int value, other, third, h, h' => by
      cases other <;> simp_all [sameValue, isInt]
  | .str text, other, third, h, h' => by
      cases other <;> simp_all [sameValue, isStr]
  | .arr items, other, third, h, h' => by
      cases other with
      | arr others =>
        cases third with
        | arr thirds =>
          rw [sameValue] at h h' ⊢
          exact sameItems_trans h h'
        | _ => cases h'
      | _ => cases h
  | .obj fields, other, third, h, h' => by
      cases other with
      | obj others =>
        cases third with
        | obj thirds =>
          rw [sameValue, Bool.and_eq_true, beq_iff_eq, sameFields_iff] at h h' ⊢
          refine ⟨h.1.trans h'.1, ?_⟩
          intro e he
          obtain ⟨middle, hmiddle, hsame⟩ := h.2 e he
          obtain ⟨last, hlast, hsame'⟩ := h'.2 _ (mem_of_lookup hmiddle)
          exact ⟨last, hlast, sameField_trans fields e he hsame hsame'⟩
        | _ => cases h'
      | _ => cases h

theorem sameItems_trans : ∀ {items others thirds : List Json}, sameItems items others = true →
    sameItems others thirds = true → sameItems items thirds = true
  | [], [], _, _, h' => h'
  | [], _ :: _, _, h, _ => by cases h
  | _ :: _, [], _, h, _ => by cases h
  | _ :: _, _ :: _, [], _, h' => by cases h'
  | value :: rest, other :: others, third :: thirds, h, h' => by
      rw [sameItems, Bool.and_eq_true] at h h' ⊢
      exact ⟨sameValue_trans h.1 h'.1, sameItems_trans h.2 h'.2⟩

theorem sameField_trans : ∀ fields : List (String × Json), ∀ e ∈ fields, ∀ {other third : Json},
    sameValue e.2 other = true → sameValue other third = true → sameValue e.2 third = true
  | [] => nofun
  | (_, value) :: rest => by
      rw [List.forall_mem_cons]
      exact ⟨fun h h' => sameValue_trans h h', sameField_trans rest⟩

end

end ProjectOS.Orchestration.FieldSemantics
