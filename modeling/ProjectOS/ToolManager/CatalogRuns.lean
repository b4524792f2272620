import ProjectOS.ToolManager.Catalog

/-! What the calls of a catalog keep: one source a tool, the latest answers, and the catalog
as it was where a call raises. -/
namespace ProjectOS.ToolManager.ToolCatalog
open Base

variable {c c' : ToolCatalog} {record : SourceRegistration} {definitions : List ToolDef}
  {key : String × String}

theorem get?_foldl_set {κ ν : Type} [DecidableEq κ] {entries : List (κ × ν)}
    (h : (entries.map Prod.fst).Nodup) (d : Dict κ ν) (k : κ) :
    (entries.foldl (fun d entry => d.set entry.1 entry.2) d).get? k =
      (Dict.getIn k entries).or (d.get? k) := by
  induction entries generalizing d with
  | nil => rfl
  | cons entry rest ih =>
    rw [List.map_cons, List.nodup_cons] at h
    rw [List.foldl_cons, ih h.2, Dict.get?_set, Dict.getIn]
    by_cases hk : entry.1 = k
    · have habsent : Dict.getIn k rest = none := by
        rw [Option.eq_none_iff_forall_ne_some]
        intro v hv
        exact h.1 (hk ▸ List.mem_map_of_mem ((Dict.getIn_eq_some_iff h.2).mp hv))
      rw [habsent, if_pos hk.symm, if_pos hk]
      rfl
    · rw [if_neg (Ne.symm hk), if_neg hk]

theorem get?_allTools (c : ToolCatalog) (key : String × String) :
    c.allTools.get? key = (c.dynamicTools.get? key).or (c.staticTools.get? key) :=
  get?_foldl_set c.dynamicTools.nodup _ _

/-- What holds of a catalog between its calls. -/
structure Sound (c : ToolCatalog) : Prop extends Unique c where
  keyed : ∀ key record, c.sources.get? key = some record → record.key = key
  fixed : ∀ key registration, c.staticTools.get? key = some registration →
    registration.isDynamic = false
  moving : ∀ key registration, c.dynamicTools.get? key = some registration →
    registration.isDynamic = true

theorem sound_empty : Sound {} where
  registered := nofun
  once := fun _ => .inl rfl
  keyed := nofun
  fixed := nofun
  moving := nofun

theorem get?_allTools_iff (h : c.Sound) {registration : Registration} :
    c.allTools.get? key = some registration ↔
      c.staticTools.get? key = some registration ∨ c.dynamicTools.get? key = some registration := by
  rw [get?_allTools, Option.or_eq_some_iff]
  obtain hnone | hnone := h.once key
  · simp [hnone]
  · simp [hnone]

/-- A name that no other source holds is free, or held by the source itself. -/
theorem eq_of_not_taken (h : c.Sound) (hrecord : c.sources.get? record.key = some record)
    {name : String} (htaken : c.taken record name = false) {registration : Registration}
    (hget : c.allTools.get? (record.domain, name) = some registration) :
    registration.toSourceRegistration = record := by
  obtain ⟨hkey, hsource⟩ := h.registered _ _ ((get?_allTools_iff h).mp hget)
  have hdomain : registration.domain = record.domain := congrArg Prod.fst hkey
  have hname : registration.sourceName = record.sourceName := by
    rw [taken, hget, Option.any_some, decide_eq_false_iff_not, not_not] at htaken
    exact htaken
  have hsame : registration.sourceKey = record.key := Prod.ext hdomain hname
  rw [hsame, hrecord] at hsource
  exact (Option.some.inj hsource).symm

theorem Sound.put (h : c.Sound) (hrecord : c.sources.get? record.key = some record)
    {definition : ToolDef} (htaken : c.taken record definition.name = false) :
    (c.put ⟨record, definition⟩).Sound ∧
      ∀ key, (c.put ⟨record, definition⟩).allTools.get? key =
        if key = (record.domain, definition.name) then some ⟨record, definition⟩
        else c.allTools.get? key := by
  have hown {registration : Registration}
      (hget : c.staticTools.get? (record.domain, definition.name) = some registration ∨
        c.dynamicTools.get? (record.domain, definition.name) = some registration) :
      registration.toSourceRegistration = record :=
    eq_of_not_taken h hrecord htaken ((get?_allTools_iff h).mpr hget)
  have hkind {kind : Bool} (hkind : record.isDynamic = kind) {registration : Registration}
      (hsame : registration.toSourceRegistration = record) : registration.isDynamic = kind := by
    rw [← hkind, ← hsame]
  cases hdynamic : record.isDynamic with
  | true =>
    have hput : c.put ⟨record, definition⟩ = { c with
        dynamicTools := (c.dynamicTools.set (record.domain, definition.name) ⟨record, definition⟩) } := by
      rw [ToolCatalog.put, if_pos hdynamic]
      rfl
    have hstatic : c.staticTools.get? (record.domain, definition.name) = none := by
      rw [Option.eq_none_iff_forall_ne_some]
      intro registration hget
      exact absurd ((h.fixed _ _ hget).symm.trans (hkind hdynamic (hown (.inl hget))))
        Bool.false_ne_true
    rw [hput]
    refine ⟨⟨⟨?_, ?_⟩, h.keyed, h.fixed, ?_⟩, ?_⟩
    · intro key registration hget
      dsimp only at hget
      rw [Dict.get?_set] at hget
      split at hget
      · rename_i hkey
        obtain hget | hget := hget
        · rw [hkey, hstatic] at hget
          cases hget
        · cases hget
          exact ⟨hkey.symm, hrecord⟩
      · exact h.registered key registration hget
    · intro key
      dsimp only
      rw [Dict.get?_set]
      split
      · rename_i hkey
        exact .inl (hkey ▸ hstatic)
      · exact h.once key
    · intro key registration hget
      rw [Dict.get?_set] at hget
      split at hget
      · cases hget
        exact hdynamic
      · exact h.moving key registration hget
    · intro key
      rw [get?_allTools, get?_allTools, Dict.get?_set]
      split <;> rfl
  | false =>
    have hput : c.put ⟨record, definition⟩ = { c with
        staticTools := (c.staticTools.set (record.domain, definition.name) ⟨record, definition⟩) } := by
      rw [ToolCatalog.put, if_neg (by rw [hdynamic]; exact Bool.false_ne_true)]
      rfl
    have hfree : c.dynamicTools.get? (record.domain, definition.name) = none := by
      rw [Option.eq_none_iff_forall_ne_some]
      intro registration hget
      exact absurd ((hkind hdynamic (hown (.inr hget))).symm.trans (h.moving _ _ hget))
        Bool.false_ne_true
    rw [hput]
    refine ⟨⟨⟨?_, ?_⟩, h.keyed, ?_, h.moving⟩, ?_⟩
    · intro key registration hget
      dsimp only at hget
      rw [Dict.get?_set] at hget
      split at hget
      · rename_i hkey
        obtain hget | hget := hget
        · cases hget
          exact ⟨hkey.symm, hrecord⟩
        · rw [hkey, hfree] at hget
          cases hget
      · exact h.registered key registration hget
    · intro key
      dsimp only
      rw [Dict.get?_set]
      split
      · rename_i hkey
        exact .inr (hkey ▸ hfree)
      · exact h.once key
    · intro key registration hget
      rw [Dict.get?_set] at hget
      split at hget
      · cases hget
        exact hdynamic
      · exact h.fixed key registration hget
    · intro key
      rw [get?_allTools, get?_allTools, Dict.get?_set]
      split
      · rename_i hkey
        rw [hkey, hfree]
        rfl
      · rfl

theorem sources_put (registration : Registration) : (c.put registration).sources = c.sources := by
  unfold put
  split <;> rfl

/-- The definitions of a source one after the other. -/
def putAll (c : ToolCatalog) (record : SourceRegistration) (definitions : List ToolDef) :
    ToolCatalog :=
  definitions.foldl (fun c definition => c.put ⟨record, definition⟩) c

theorem sources_putAll : (c.putAll record definitions).sources = c.sources := by
  induction definitions generalizing c with
  | nil => rfl
  | cons definition rest ih =>
    rw [putAll, List.foldl_cons]
    exact (ih (c := c.put ⟨record, definition⟩)).trans (sources_put _)

theorem taken_put (h : c.Sound) (hrecord : c.sources.get? record.key = some record)
    {definition : ToolDef} (htaken : c.taken record definition.name = false) (name : String) :
    (c.put ⟨record, definition⟩).taken record name = c.taken record name := by
  rw [taken, (h.put hrecord htaken).2]
  split
  · rename_i hkey
    obtain rfl : name = definition.name := congrArg Prod.snd hkey
    rw [htaken, Option.any_some, decide_eq_false_iff_not, not_not]
  · rfl

/-- Free names are registered, and the loop goes on behind them. -/
theorem registerDiscovered_append (h : c.Sound)
    (hrecord : c.sources.get? record.key = some record) {front : List ToolDef}
    (hfree : ∀ definition ∈ front, c.taken record definition.name = false) :
    (c.putAll record front).Sound ∧
      (∀ name, (c.putAll record front).taken record name = c.taken record name) ∧
        ∀ more, c.registerDiscovered record (front ++ more) =
          (c.putAll record front).registerDiscovered record more := by
  induction front generalizing c with
  | nil => exact ⟨h, fun _ => rfl, fun _ => rfl⟩
  | cons definition front ih =>
    rw [List.forall_mem_cons] at hfree
    obtain ⟨hfirst, hfree⟩ := hfree
    have htaken := taken_put h hrecord hfirst
    obtain ⟨hsound, hsame, hloop⟩ := ih (h.put hrecord hfirst).1
      ((congrArg (·.get? record.key) (sources_put _)).trans hrecord)
      (fun other hother => (htaken _).trans (hfree other hother))
    refine ⟨hsound, fun name => (hsame name).trans (htaken name), fun more => ?_⟩
    rw [List.cons_append, registerDiscovered, hfirst, if_neg Bool.false_ne_true, hloop]
    rfl

/-! The tools of a source under its last answer. -/

theorem named_eq_some {registration : Registration}
    (h : named record definitions key = some registration) :
    registration.toSourceRegistration = record ∧ registration.key = key ∧
      registration.definition ∈ definitions := by
  have hmem := List.mem_of_find?_eq_some h
  have hkey := List.find?_some h
  rw [List.mem_reverse, List.mem_map] at hmem
  obtain ⟨definition, hdefinition, rfl⟩ := hmem
  exact ⟨rfl, of_decide_eq_true hkey, hdefinition⟩

theorem named_eq_none_iff : named record definitions key = none ↔
    ∀ definition ∈ definitions, (record.domain, definition.name) ≠ key := by
  rw [named, List.find?_eq_none]
  simp only [List.mem_reverse, List.forall_mem_map, decide_eq_true_eq]
  rfl

theorem exists_named {definition : ToolDef} (h : definition ∈ definitions) :
    ∃ registration, named record definitions (record.domain, definition.name) =
      some registration := by
  rw [← Option.ne_none_iff_exists', ne_eq, named_eq_none_iff]
  exact fun hall => hall definition h rfl

theorem named_cons (definition : ToolDef) (key : String × String) :
    named record (definition :: definitions) key = (named record definitions key).or
      (if key = (record.domain, definition.name) then some ⟨record, definition⟩ else none) := by
  rw [named, List.map_cons, List.reverse_cons, List.find?_append]
  congr 1
  by_cases hkey : key = (record.domain, definition.name)
  · rw [if_pos hkey, List.find?_cons_of_pos]
    exact decide_eq_true hkey.symm
  · rw [if_neg hkey, List.find?_cons_of_neg]
    · rfl
    · exact fun h => hkey (of_decide_eq_true h).symm

/-- A dynamic source changes nothing but its own dynamic tools. -/
theorem putAll_dynamic (hdynamic : record.isDynamic = true) :
    (c.putAll record definitions).staticTools = c.staticTools ∧
      ∀ key, (c.putAll record definitions).dynamicTools.get? key =
        (named record definitions key).or (c.dynamicTools.get? key) := by
  induction definitions generalizing c with
  | nil => exact ⟨rfl, fun _ => rfl⟩
  | cons definition rest ih =>
    obtain ⟨hstatic, hget⟩ := ih (c := c.put ⟨record, definition⟩)
    have hput : c.put ⟨record, definition⟩ = { c with
        dynamicTools := (c.dynamicTools.set (record.domain, definition.name) ⟨record, definition⟩) } := by
      rw [put, if_pos hdynamic]
      rfl
    refine ⟨hstatic.trans (by rw [hput]), fun key => ?_⟩
    rw [named_cons, Option.or_assoc]
    refine (hget key).trans (congrArg _ ?_)
    rw [hput, Dict.get?_set]
    split <;> rfl

theorem get?_removeSourceTools (record : SourceRegistration) (key : String × String) :
    (c.removeSourceTools record).dynamicTools.get? key =
      (c.dynamicTools.get? key).filter (·.sourceKey ≠ record.key) := by
  rw [removeSourceTools, Dict.get?_filter]
  congr 1
  funext registration
  have hiff : registration.sourceKey = record.key ↔
      registration.domain = record.domain ∧ registration.sourceName = record.sourceName :=
    Prod.ext_iff
  rw [Bool.eq_iff_iff]
  simp only [Bool.not_eq_true', Bool.and_eq_false_iff, decide_eq_false_iff_not, decide_eq_true_eq,
    ne_eq, hiff]
  tauto

theorem removeSourceTools_sound (h : c.Sound) : (c.removeSourceTools record).Sound := by
  have hless {key : String × String} {registration : Registration}
      (hget : (c.removeSourceTools record).dynamicTools.get? key = some registration) :
      c.dynamicTools.get? key = some registration := by
    rw [get?_removeSourceTools, Option.filter_eq_some_iff] at hget
    exact hget.1
  refine ⟨⟨fun key registration hget => h.registered key registration (hget.imp_right hless),
    fun key => ?_⟩, h.keyed, h.fixed, fun key registration hget => h.moving _ _ (hless hget)⟩
  refine (h.once key).imp_right fun hnone => ?_
  rw [get?_removeSourceTools, hnone]
  rfl

theorem taken_removeSourceTools (h : c.Sound) (name : String) :
    (c.removeSourceTools record).taken record name = c.taken record name := by
  rw [taken, taken, get?_allTools, get?_allTools, get?_removeSourceTools]
  cases hget : c.dynamicTools.get? (record.domain, name) with
  | none => rfl
  | some registration =>
    have hstatic : c.staticTools.get? (record.domain, name) = none :=
      (h.once _).resolve_right (by rw [hget]; exact Option.some_ne_none _)
    have hdomain : registration.domain = record.domain :=
      congrArg Prod.fst (h.registered _ _ (.inr hget)).1
    change (((Option.some registration).filter _).or (c.staticTools.get? _)).any _ = _
    by_cases hown : registration.sourceKey = record.key
    · have hname : registration.sourceName = record.sourceName := congrArg Prod.snd hown
      rw [Option.filter_some_neg (by simpa using hown), Option.none_or, hstatic]
      simp [hname]
    · rw [Option.filter_some_pos (by simpa using hown)]

/-! A refresh of several sources. -/

variable {discover : String × String → Discovery} {done : Refreshes} {domain : String}

def doneKeys (done : Refreshes) : List (String × String) := done.map fun entry => entry.1.key

/-- The dynamic tools after these refreshes. -/
def held (c : ToolCatalog) (done : Refreshes) (key : String × String) : Option Registration :=
  (done.findSome? fun entry => named entry.1 entry.2 key).or
    ((c.dynamicTools.get? key).filter (·.sourceKey ∉ doneKeys done))

/-- The catalog `c` once these sources have been refreshed. -/
structure Agrees (c : ToolCatalog) (done : Refreshes) (c' : ToolCatalog) : Prop where
  sound : c'.Sound
  sources : c'.sources = c.sources
  staticTools : c'.staticTools = c.staticTools
  dynamicTools : ∀ key, c'.dynamicTools.get? key = c.held done key

/-- Dynamic sources of one domain, each once. -/
structure Group (c : ToolCatalog) (domain : String) (records : List SourceRegistration) : Prop where
  known : ∀ record ∈ records, c.sources.get? record.key = some record
  dynamic : ∀ record ∈ records, record.isDynamic = true
  inDomain : ∀ record ∈ records, record.domain = domain
  distinct : (records.map SourceRegistration.key).Nodup

theorem Group.sublist {records some : List SourceRegistration} (h : Group c domain records)
    (hsub : some.Sublist records) : Group c domain some where
  known record hrecord := h.known record (hsub.subset hrecord)
  dynamic record hrecord := h.dynamic record (hsub.subset hrecord)
  inDomain record hrecord := h.inDomain record (hsub.subset hrecord)
  distinct := h.distinct.sublist (hsub.map _)

theorem group_refreshed (h : c.Sound) (domain : String) (names : List String) :
    Group c domain (c.refreshed domain names) := by
  have hmem {record : SourceRegistration} (hrecord : record ∈ c.refreshed domain names) :
      c.sources.get? record.key = some record ∧ record.isDynamic = true ∧
        record.domain = domain := by
    obtain ⟨entry, hentry, rfl⟩ := List.mem_map.mp hrecord
    obtain ⟨hentry, hchosen⟩ := List.mem_filter.mp hentry
    have hget := Dict.get?_eq_some_iff.mpr hentry
    have hkey := h.keyed _ _ hget
    simp only [Bool.and_eq_true, decide_eq_true_eq] at hchosen
    exact ⟨hkey ▸ hget, hchosen.2, (congrArg Prod.fst hkey).trans hchosen.1.1⟩
  refine ⟨fun _ hrecord => (hmem hrecord).1, fun _ hrecord => (hmem hrecord).2.1,
    fun _ hrecord => (hmem hrecord).2.2, ?_⟩
  have hkeys : (c.refreshed domain names).map SourceRegistration.key =
      (c.sources.entries.filter fun entry => entry.1.1 = domain && entry.2.sourceName ∈ names &&
        entry.2.isDynamic).map Prod.fst := by
    rw [refreshed, List.map_map]
    apply List.map_congr_left
    intro entry hentry
    exact h.keyed _ _ (Dict.get?_eq_some_iff.mpr (List.mem_of_mem_filter hentry))
  rw [hkeys]
  exact c.sources.nodup.sublist (List.filter_sublist.map _)

/-- No name is listed by two of the sources. -/
def Apart (done : Refreshes) : Prop :=
  done.Pairwise fun a b => ∀ x ∈ a.2, ∀ y ∈ b.2, x.name ≠ y.name

theorem findSome?_iff (h : Apart done) {registration : Registration} :
    (done.findSome? fun entry => named entry.1 entry.2 key) = some registration ↔
      ∃ entry ∈ done, named entry.1 entry.2 key = some registration := by
  constructor
  · exact List.exists_of_findSome?_eq_some
  · rintro ⟨entry, hentry, hnamed⟩
    induction done with
    | nil => cases hentry
    | cons first rest ih =>
      rw [Apart, List.pairwise_cons] at h
      rw [List.findSome?_cons]
      obtain rfl | hrest := List.mem_cons.mp hentry
      · rw [hnamed]
      · have hnone : named first.1 first.2 key = none := by
          rw [Option.eq_none_iff_forall_ne_some]
          intro other hother
          obtain ⟨-, hkey, hmem⟩ := named_eq_some hother
          obtain ⟨-, hkey', hmem'⟩ := named_eq_some hnamed
          exact h.1 entry hrest _ hmem _ hmem'
            (congrArg Prod.snd (hkey.trans hkey'.symm))
        rw [hnone]
        exact ih h.2 hrest

theorem eq_of_key (hgroup : Group c domain (done.map Prod.fst)) {a b : SourceRegistration × List ToolDef}
    (ha : a ∈ done) (hb : b ∈ done) (h : a.1.key = b.1.key) : a = b := by
  have hdistinct := hgroup.distinct
  rw [List.map_map] at hdistinct
  exact List.inj_on_of_nodup_map hdistinct ha hb h

theorem mem_doneKeys {entry : SourceRegistration × List ToolDef} (h : entry ∈ done) :
    entry.1.key ∈ doneKeys done :=
  List.mem_map_of_mem h

/-- A refreshed source has the tools of its answer. -/
theorem held_iff (hgroup : Group c domain (done.map Prod.fst)) (hapart : Apart done)
    {entry : SourceRegistration × List ToolDef} (hentry : entry ∈ done)
    {registration : Registration} :
    c.held done key = some registration ∧ registration.sourceKey = entry.1.key ↔
      named entry.1 entry.2 key = some registration := by
  rw [held, Option.or_eq_some_iff]
  constructor
  · rintro ⟨hlisted | ⟨-, hheld⟩, hkey⟩
    · obtain ⟨other, hother, hnamed⟩ := (findSome?_iff hapart).mp hlisted
      have hsame : other.1.key = entry.1.key := by
        rw [← hkey, Registration.sourceKey, (named_eq_some hnamed).1]
      rwa [← eq_of_key hgroup hother hentry hsame]
    · have hout := (Option.filter_eq_some_iff.mp hheld).2
      rw [hkey] at hout
      exact absurd (mem_doneKeys hentry) (of_decide_eq_true hout)
  · intro hnamed
    refine ⟨.inl ((findSome?_iff hapart).mpr ⟨entry, hentry, hnamed⟩), ?_⟩
    rw [Registration.sourceKey, (named_eq_some hnamed).1]

theorem lists_of_agrees (hgroup : Group c domain (done.map Prod.fst)) (hapart : Apart done)
    (hagrees : Agrees c done c') {entry : SourceRegistration × List ToolDef}
    (hentry : entry ∈ done) : c'.Lists entry.1 entry.2 := by
  intro key
  ext registration
  rw [ownTools, hagrees.dynamicTools, Option.filter_eq_some_iff, decide_eq_true_eq]
  exact held_iff hgroup hapart hentry

/-- The catalog is as it was exactly if each refreshed source lists what it had. -/
theorem unchanged_iff (hgroup : Group c domain (done.map Prod.fst)) (hapart : Apart done)
    (hagrees : Agrees c done c') :
    Unchanged c c' ↔ ∀ entry ∈ done, c.Lists entry.1 entry.2 := by
  have hown {entry : SourceRegistration × List ToolDef} {key : String × String}
      {registration : Registration} : c.ownTools entry.1 key = some registration ↔
        c.dynamicTools.get? key = some registration ∧ registration.sourceKey = entry.1.key := by
    rw [ownTools, Option.filter_eq_some_iff, decide_eq_true_eq]
  constructor
  · intro h entry hentry key
    ext registration
    rw [hown, ← h.dynamicTools key, hagrees.dynamicTools]
    exact held_iff hgroup hapart hentry
  · intro h
    refine ⟨fun key => by rw [hagrees.sources], fun key => by rw [hagrees.staticTools],
      fun key => ?_⟩
    ext registration
    rw [hagrees.dynamicTools]
    have hlisted {entry : SourceRegistration × List ToolDef} (hentry : entry ∈ done)
        {found : Registration} (hnamed : named entry.1 entry.2 key = some found) :
        c.dynamicTools.get? key = some found ∧ found.sourceKey = entry.1.key :=
      hown.mp ((h entry hentry key).trans hnamed)
    constructor
    · intro hheld
      rw [held, Option.or_eq_some_iff] at hheld
      obtain hfound | ⟨-, hfound⟩ := hheld
      · obtain ⟨entry, hentry, hnamed⟩ := (findSome?_iff hapart).mp hfound
        exact (hlisted hentry hnamed).1
      · exact (Option.filter_eq_some_iff.mp hfound).1
    · intro hget
      by_cases hdone : registration.sourceKey ∈ doneKeys done
      · obtain ⟨entry, hentry, hkey⟩ := List.mem_map.mp hdone
        have hnamed := (h entry hentry key).symm.trans (hown.mpr ⟨hget, hkey.symm⟩)
        exact ((held_iff hgroup hapart hentry).mpr hnamed).1
      · have hnone : (done.findSome? fun entry => named entry.1 entry.2 key) = none := by
          rw [Option.eq_none_iff_forall_ne_some]
          intro found hfound
          obtain ⟨entry, hentry, hnamed⟩ := (findSome?_iff hapart).mp hfound
          obtain ⟨hsame, hkey⟩ := hlisted hentry hnamed
          obtain rfl := Option.some.inj (hget.symm.trans hsame)
          exact hdone (hkey ▸ mem_doneKeys hentry)
        rw [held, hnone, Option.none_or, Option.filter_eq_some_iff]
        exact ⟨hget, decide_eq_true hdone⟩

theorem key_ne_of_group (hgroup : Group c domain (done.map Prod.fst ++ [record])) :
    ∀ entry ∈ done, entry.1.key ≠ record.key := by
  intro entry hentry heq
  have hdistinct := hgroup.distinct
  rw [List.map_append, List.nodup_append] at hdistinct
  exact hdistinct.2.2 entry.1.key (List.mem_map_of_mem (List.mem_map_of_mem hentry)) record.key
    (by simp) heq

/-- Which names another source holds once these sources have been refreshed. -/
theorem taken_iff (h : c.Sound) (hgroup : Group c domain (done.map Prod.fst ++ [record]))
    (hagrees : Agrees c done c') (name : String) :
    c'.taken record name = true ↔ c.Holds done record name := by
  have hrecord : record.domain = domain := hgroup.inDomain record (by simp)
  have hapart := key_ne_of_group hgroup
  have hother {registration : Registration} (hdomain : registration.domain = record.domain) :
      registration.sourceName ≠ record.sourceName ↔ registration.sourceKey ≠ record.key :=
    not_congr ⟨fun hname => Prod.ext hdomain hname, fun hkey => congrArg Prod.snd hkey⟩
  have htaken : c'.taken record name = true ↔ ∃ registration,
      c'.allTools.get? (record.domain, name) = some registration ∧
        registration.sourceKey ≠ record.key := by
    rw [taken, Option.any_eq_true]
    refine exists_congr fun registration => and_congr_right fun hget => ?_
    rw [decide_eq_true_eq]
    exact hother (congrArg Prod.fst
      (hagrees.sound.registered _ _ ((get?_allTools_iff hagrees.sound).mp hget)).1)
  rw [htaken]
  constructor
  · rintro ⟨registration, hget, hkey⟩
    rw [get?_allTools_iff hagrees.sound, hagrees.staticTools, hagrees.dynamicTools, held,
      Option.or_eq_some_iff] at hget
    obtain hget | hget | ⟨-, hget⟩ := hget
    · refine .inl ⟨registration, (get?_allTools_iff h).mpr (.inl hget), hkey, fun hmem => ?_⟩
      obtain ⟨entry, hentry, heq⟩ := List.mem_map.mp hmem
      have hsource := (h.registered _ _ (.inl hget)).2
      rw [← heq, hgroup.known entry.1 (List.mem_append_left _ (List.mem_map_of_mem hentry))]
        at hsource
      have hdynamic := hgroup.dynamic entry.1 (List.mem_append_left _ (List.mem_map_of_mem hentry))
      rw [Option.some.inj hsource, h.fixed _ _ hget] at hdynamic
      cases hdynamic
    · obtain ⟨entry, hentry, hnamed⟩ := List.exists_of_findSome?_eq_some hget
      obtain ⟨-, hname, hmem⟩ := named_eq_some hnamed
      exact .inr ⟨entry, hentry, _, hmem, congrArg Prod.snd hname⟩
    · obtain ⟨hget, hout⟩ := Option.filter_eq_some_iff.mp hget
      exact .inl ⟨registration, (get?_allTools_iff h).mpr (.inr hget), hkey,
        of_decide_eq_true hout⟩
  · have hlisted {found : Registration} (hfound : (done.findSome? fun entry =>
        named entry.1 entry.2 (record.domain, name)) = some found) :
        ∃ registration, c'.allTools.get? (record.domain, name) = some registration ∧
          registration.sourceKey ≠ record.key := by
      obtain ⟨entry, hentry, hnamed⟩ := List.exists_of_findSome?_eq_some hfound
      refine ⟨found, (get?_allTools_iff hagrees.sound).mpr (.inr ?_), ?_⟩
      · rw [hagrees.dynamicTools, held, hfound, Option.some_or]
      · rw [Registration.sourceKey, (named_eq_some hnamed).1]
        exact hapart entry hentry
    rintro (⟨registration, hget, hkey, hout⟩ | ⟨entry, hentry, definition, hmem, rfl⟩)
    · cases hfound : done.findSome? fun entry => named entry.1 entry.2 (record.domain, name) with
      | some found => exact hlisted hfound
      | none =>
        refine ⟨registration, (get?_allTools_iff hagrees.sound).mpr ?_, hkey⟩
        refine ((get?_allTools_iff h).mp hget).imp (fun hstatic => ?_) fun hdynamic => ?_
        · rwa [hagrees.staticTools]
        · rw [hagrees.dynamicTools, held, hfound, Option.none_or, Option.filter_eq_some_iff]
          exact ⟨hdynamic, decide_eq_true hout⟩
    · have hdomain : entry.1.domain = record.domain := (hgroup.inDomain entry.1
        (List.mem_append_left _ (List.mem_map_of_mem hentry))).trans hrecord.symm
      obtain ⟨registration, hnamed⟩ := @exists_named entry.1 _ _ hmem
      rw [hdomain] at hnamed
      have hsome : (done.findSome? fun entry =>
          named entry.1 entry.2 (record.domain, definition.name)).isSome = true :=
        List.findSome?_isSome_iff.mpr ⟨entry, hentry, Option.isSome_of_mem hnamed⟩
      obtain ⟨found, hfound⟩ := Option.isSome_iff_exists.mp hsome
      exact hlisted hfound

theorem apart_concat (h : Apart done) {definitions : List ToolDef}
    (hfree : ∀ definition ∈ definitions, ¬ c.Holds done record definition.name) :
    Apart (done ++ [(record, definitions)]) := by
  rw [Apart, List.pairwise_append]
  refine ⟨h, List.pairwise_singleton _ _, fun entry hentry last hlast x hx y hy heq => ?_⟩
  obtain rfl := List.mem_singleton.mp hlast
  exact hfree y hy (.inr ⟨entry, hentry, x, hx, heq⟩)

/-- What stands before the first name that is held. -/
theorem front_unique {front front' : List ToolDef} {definition definition' : ToolDef}
    {back back' : List ToolDef}
    (heq : front ++ definition :: back = front' ++ definition' :: back')
    (hfree : ∀ earlier ∈ front, ¬ c.Holds done record earlier.name)
    (hheld : c.Holds done record definition.name)
    (hfree' : ∀ earlier ∈ front', ¬ c.Holds done record earlier.name)
    (hheld' : c.Holds done record definition'.name) : front = front' := by
  obtain ⟨more, rfl, hmore⟩ | ⟨more, rfl, hmore⟩ := List.append_eq_append_iff.mp heq
  · cases more with
    | nil => exact (List.append_nil _).symm
    | cons first more =>
      obtain ⟨rfl, -⟩ := List.cons.inj hmore
      exact absurd hheld (hfree' _ (by simp))
  · cases more with
    | nil => exact List.append_nil _
    | cons first more =>
      obtain ⟨rfl, -⟩ := List.cons.inj hmore
      exact absurd hheld' (hfree _ (by simp))

/-- A further source is refreshed with names that are free. -/
theorem Agrees.next (h : c.Sound) (hgroup : Group c domain (done.map Prod.fst ++ [record]))
    (hagrees : Agrees c done c') {front : List ToolDef}
    (hfree : ∀ definition ∈ front, ¬ c.Holds done record definition.name) :
    Agrees c (done ++ [(record, front)]) ((c'.removeSourceTools record).putAll record front) ∧
      (∀ name, ((c'.removeSourceTools record).putAll record front).taken record name = true ↔
        c.Holds done record name) ∧
        ∀ more, (c'.removeSourceTools record).registerDiscovered record (front ++ more) =
          ((c'.removeSourceTools record).putAll record front).registerDiscovered record more := by
  have hrecord : c'.sources.get? record.key = some record := by
    rw [hagrees.sources]
    exact hgroup.known record (by simp)
  have htaken (name : String) : (c'.removeSourceTools record).taken record name = true ↔
      c.Holds done record name := by
    rw [taken_removeSourceTools hagrees.sound]
    exact taken_iff h hgroup hagrees name
  obtain ⟨hsound, hsame, hloop⟩ := registerDiscovered_append (removeSourceTools_sound hagrees.sound)
    hrecord fun definition hmem => Bool.eq_false_iff.mpr fun htrue =>
      hfree definition hmem ((htaken _).mp htrue)
  obtain ⟨hstatic, hdynamic⟩ := @putAll_dynamic (c'.removeSourceTools record) record front
    (hgroup.dynamic record (by simp))
  refine ⟨⟨hsound, sources_putAll.trans hagrees.sources, hstatic.trans hagrees.staticTools,
    fun key => ?_⟩, fun name => (congrArg (· = true) (hsame name)).to_iff.trans (htaken name),
    hloop⟩
  have hnone {registration : Registration} (hnamed : named record front key = some registration) :
      (done.findSome? fun entry => named entry.1 entry.2 key) = none := by
    rw [Option.eq_none_iff_forall_ne_some]
    intro found hfound
    obtain ⟨entry, hentry, hother⟩ := List.exists_of_findSome?_eq_some hfound
    obtain ⟨-, hkey, hmem⟩ := named_eq_some hnamed
    obtain ⟨-, hkey', hmem'⟩ := named_eq_some hother
    exact hfree _ hmem (.inr ⟨entry, hentry, _, hmem', congrArg Prod.snd (hkey'.trans hkey.symm)⟩)
  rw [hdynamic, get?_removeSourceTools, hagrees.dynamicTools, held, held, List.findSome?_append]
  cases hnamed : named record front key with
  | some registration => simp [hnone hnamed, hnamed]
  | none =>
    rw [Option.none_or, List.findSome?_singleton, hnamed, Option.or_none]
    cases hfound : done.findSome? fun entry => named entry.1 entry.2 key with
    | some found =>
      obtain ⟨entry, hentry, hother⟩ := List.exists_of_findSome?_eq_some hfound
      have hkey : found.sourceKey ≠ record.key := by
        rw [Registration.sourceKey, (named_eq_some hother).1]
        exact key_ne_of_group hgroup entry hentry
      rw [Option.some_or, Option.some_or, Option.filter_some_pos (by simpa using hkey)]
    | none =>
      rw [Option.none_or, Option.none_or, Option.filter_filter]
      congr 1
      funext registration
      have hmore : doneKeys (done ++ [(record, front)]) = doneKeys done ++ [record.key] :=
        List.map_append
      rw [hmore, Bool.eq_iff_iff]
      simp only [Bool.and_eq_true, decide_eq_true_eq, List.mem_append, List.mem_singleton, not_or,
        ne_eq]

/-- How far the refresh of several sources goes. -/
theorem Walk.reached (h : c.Sound) (hwalk : Walk c discover done)
    (hgroup : Group c domain (done.map Prod.fst)) :
    Apart done ∧ (∀ entry ∈ done, discover entry.1.key = .ok entry.2) ∧
      ∃ c', Agrees c done c' ∧ ∀ rest,
        refreshSources discover (done.map Prod.fst ++ rest) c = refreshSources discover rest c' := by
  induction hwalk with
  | start =>
    refine ⟨List.Pairwise.nil, nofun, c, ⟨h, rfl, rfl, fun key => ?_⟩, fun rest => rfl⟩
    rw [held, List.findSome?_nil, Option.none_or]
    cases c.dynamicTools.get? key <;> rfl
  | @next done record definitions walk answer free ih =>
    rw [List.map_append, List.map_singleton] at hgroup
    obtain ⟨hapart, hanswers, middle, hagrees, hrest⟩ :=
      ih (hgroup.sublist (List.sublist_append_left _ _))
    obtain ⟨hnext, -, hloop⟩ := hagrees.next h hgroup free
    refine ⟨apart_concat hapart free, ?_, _, hnext, fun rest => ?_⟩
    · rw [List.forall_mem_append, List.forall_mem_singleton]
      exact ⟨hanswers, answer⟩
    · have hdone := hloop []
      rw [List.append_nil] at hdone
      rw [List.map_append, List.map_singleton, List.append_assoc, hrest, List.singleton_append,
        refreshSources, answer]
      dsimp only
      rw [hdone]
      rfl

/-- A source at which the refresh fails: it does not answer, or lists a name that another
source holds. -/
inductive FailsAt (c : ToolCatalog) (discover : String × String → Discovery) (done : Refreshes)
    (record : SourceRegistration) : Prop where
  | silent {failure : Failure} (answer : discover record.key = .error failure)
  | clash {front : List ToolDef} {definition : ToolDef} {back : List ToolDef}
      (answer : discover record.key = .ok (front ++ definition :: back))
      (free : ∀ earlier ∈ front, ¬ c.Holds done record earlier.name)
      (held : c.Holds done record definition.name)

theorem free_or_clash (c : ToolCatalog) (done : Refreshes) (record : SourceRegistration)
    (definitions : List ToolDef) :
    (∀ definition ∈ definitions, ¬ c.Holds done record definition.name) ∨
      ∃ front definition back, definitions = front ++ definition :: back ∧
        (∀ earlier ∈ front, ¬ c.Holds done record earlier.name) ∧
          c.Holds done record definition.name := by
  induction definitions with
  | nil => exact .inl nofun
  | cons definition rest ih =>
    by_cases hheld : c.Holds done record definition.name
    · exact .inr ⟨[], definition, rest, rfl, nofun, hheld⟩
    · obtain hfree | ⟨front, clashing, back, rfl, hfree, hclash⟩ := ih
      · exact .inl (List.forall_mem_cons.mpr ⟨hheld, hfree⟩)
      · exact .inr ⟨definition :: front, clashing, back, rfl,
          List.forall_mem_cons.mpr ⟨hheld, hfree⟩, hclash⟩

/-- A refresh goes through, or fails at the first source that it cannot refresh. -/
theorem walk_or_fails (records : List SourceRegistration) (hwalk : Walk c discover done) :
    (∃ all, Walk c discover all ∧ all.map Prod.fst = done.map Prod.fst ++ records) ∨
      ∃ front record back, Walk c discover front ∧
        front.map Prod.fst ++ record :: back = done.map Prod.fst ++ records ∧
          FailsAt c discover front record := by
  induction records generalizing done with
  | nil => exact .inl ⟨done, hwalk, (List.append_nil _).symm⟩
  | cons record rest ih =>
    cases hanswer : discover record.key with
    | error failure => exact .inr ⟨done, record, rest, hwalk, rfl, .silent hanswer⟩
    | ok definitions =>
      obtain hfree | ⟨front, definition, back, rfl, hfree, hheld⟩ :=
        free_or_clash c done record definitions
      · have hmore := ih (hwalk.next hanswer hfree)
        rw [List.map_append, List.map_singleton, List.append_assoc, List.singleton_append] at hmore
        exact hmore
      · exact .inr ⟨done, record, rest, hwalk, rfl, .clash hanswer hfree hheld⟩

/-- Where a refresh fails it leaves the sources before as they were refreshed, and those names
of the failing one that are free. -/
theorem FailsAt.outcome (h : c.Sound) (hwalk : Walk c discover done) {rest : List SourceRegistration}
    (hgroup : Group c domain (done.map Prod.fst ++ record :: rest))
    (hfails : FailsAt c discover done record) :
    ∃ failure left, refreshSources discover (done.map Prod.fst ++ record :: rest) c =
        (.error failure, left) ∧ left.Sound ∧
      (Unchanged c left ↔ KeepsAt c discover done record) := by
  have hsplit : done.map Prod.fst ++ record :: rest = (done.map Prod.fst ++ [record]) ++ rest := by
    rw [List.append_assoc, List.singleton_append]
  have hnext := hgroup.sublist (hsplit ▸ List.sublist_append_left (done.map Prod.fst ++ [record]) rest)
  have hdone := hgroup.sublist (List.sublist_append_left (done.map Prod.fst) (record :: rest))
  obtain ⟨hapart, -, middle, hagrees, hrest⟩ := hwalk.reached h hdone
  rw [hrest, refreshSources]
  cases hfails with
  | @silent failure answer =>
    rw [answer]
    refine ⟨_, _, rfl, hagrees.sound, ?_⟩
    rw [unchanged_iff hdone hapart hagrees]
    exact ⟨fun hlists => ⟨fun _ _ => hlists, fun _ _ _ hok => (nomatch answer.symm.trans hok)⟩,
      fun hlists => hlists.1 failure answer⟩
  | @clash front definition back answer free held =>
    obtain ⟨hstopped, htaken, hloop⟩ := hagrees.next h hnext free
    rw [answer]
    dsimp only
    rw [hloop, registerDiscovered, if_pos ((htaken _).mpr held)]
    refine ⟨_, _, rfl, hstopped.sound, ?_⟩
    have hgroup' : Group c domain ((done ++ [(record, front)]).map Prod.fst) := by
      rw [List.map_append, List.map_singleton]
      exact hnext
    rw [unchanged_iff hgroup' (apart_concat hapart free) hstopped]
    constructor
    · intro hlists
      refine ⟨fun _ herror => (nomatch answer.symm.trans herror),
        fun front' definition' back' hanswer hfree hheld => ?_⟩
      obtain rfl := front_unique (Except.ok.inj (answer.symm.trans hanswer)) free held hfree hheld
      exact hlists
    · exact fun hlists => hlists.2 front definition back answer free held

/-- Only where the refresh fails there is something to keep. -/
theorem keepsAt_of_fails (h : FailsAt c discover done record → KeepsAt c discover done record) :
    KeepsAt c discover done record :=
  ⟨fun failure answer => (h (.silent answer)).1 failure answer,
    fun front definition back answer free held =>
      (h (.clash answer free held)).2 front definition back answer free held⟩

theorem list_kept (h : c.Sound) (domain : String) (names : List String)
    (discover : String × String → Discovery) :
    (c.run (.list domain names discover)).2.Sound ∧
      (c.Kept (.list domain names discover) ↔ c.Orderly (.list domain names discover)) := by
  have hgroup := group_refreshed h domain names
  obtain ⟨all, hwalk, hall⟩ | ⟨front, record, back, hwalk, hsplit, hfails⟩ :=
    walk_or_fails (c.refreshed domain names) (show Walk c discover [] from .start)
  · have hsame : all.map Prod.fst = c.refreshed domain names := hall
    have hgroup' := hsame ▸ hgroup
    obtain ⟨hapart, hanswers, c', hagrees, hrest⟩ := hwalk.reached h hgroup'
    have hdone : refreshSources discover (c.refreshed domain names) c = (.ok (), c') := by
      rw [← hsame, ← List.append_nil (all.map Prod.fst), hrest]
      rfl
    have hrun : c.run (.list domain names discover) =
        (.ok ((c'.allTools.entries.filter fun entry => entry.1.1 = domain).map Prod.snd), c') := by
      rw [run, listRegistrations, hdone]
    rw [hrun]
    refine ⟨hagrees.sound, fun _ => ?_, fun _ => ⟨?_, ?_, ?_⟩⟩
    · intro done record rest hsplit hwalk
      apply keepsAt_of_fails
      intro hfails
      obtain ⟨failure, left, hfailed, -⟩ := hfails.outcome h hwalk (hsplit ▸ hgroup)
      rw [← hsplit, hdone] at hfailed
      cases hfailed
    · rw [hrun]
      exact hagrees.sound.toUnique
    · rw [hrun]
      exact nofun
    · intro listed _ record hrecord
      rw [← hsame] at hrecord
      obtain ⟨entry, hentry, rfl⟩ := List.mem_map.mp hrecord
      rw [hrun]
      exact ⟨entry.2, hanswers entry hentry, lists_of_agrees hgroup' hapart hagrees hentry⟩
  · rw [List.map_nil, List.nil_append] at hsplit
    obtain ⟨failure, left, hfailed, hsound, hkept⟩ := hfails.outcome h hwalk (hsplit ▸ hgroup)
    have hrun : c.run (.list domain names discover) = (.error failure, left) := by
      rw [run, listRegistrations, ← hsplit, hfailed]
    rw [hrun]
    refine ⟨hsound, fun hall => ?_, fun horder => ⟨?_, ?_, ?_⟩⟩
    · intro done record' rest hother hwalk'
      apply keepsAt_of_fails
      intro hfails'
      obtain ⟨failure', left', hfailed', -, hkept'⟩ := hfails'.outcome h hwalk' (hother ▸ hgroup)
      rw [← hother, ← hsplit, hfailed] at hfailed'
      cases hfailed'
      have hunchanged := hall.unchanged failure (by rw [hrun])
      rw [hrun] at hunchanged
      exact hkept'.mp hunchanged
    · rw [hrun]
      exact hsound.toUnique
    · intro _ _
      rw [hrun]
      exact hkept.mpr (horder front record back hsplit.symm hwalk)
    · intro listed hlisted
      rw [hrun] at hlisted
      cases hlisted

theorem sound_sources (h : c.Sound) (hnew : c.sources.get? record.key = none) :
    Sound { c with sources := c.sources.set record.key record } := by
  refine ⟨⟨fun key registration hget => ?_, h.once⟩, fun key found hget => ?_, h.fixed, h.moving⟩
  · obtain ⟨hkey, hsource⟩ := h.registered key registration hget
    refine ⟨hkey, ?_⟩
    rw [Dict.get?_set, if_neg fun heq => ?_, hsource]
    rw [heq, hnew] at hsource
    cases hsource
  · rw [Dict.get?_set] at hget
    split at hget
    · rename_i hsame
      cases hget
      exact hsame.symm
    · exact h.keyed key found hget

theorem taken_or_free (c : ToolCatalog) (record : SourceRegistration)
    (definitions : List ToolDef) :
    (∀ definition ∈ definitions, c.taken record definition.name = false) ∨
      ∃ front definition back, definitions = front ++ definition :: back ∧
        (∀ earlier ∈ front, c.taken record earlier.name = false) ∧
          c.taken record definition.name = true := by
  induction definitions with
  | nil => exact .inl nofun
  | cons definition rest ih =>
    cases htaken : c.taken record definition.name with
    | true => exact .inr ⟨[], definition, rest, rfl, nofun, htaken⟩
    | false =>
      obtain hfree | ⟨front, clashing, back, rfl, hfree, hclash⟩ := ih
      · exact .inl (List.forall_mem_cons.mpr ⟨htaken, hfree⟩)
      · exact .inr ⟨definition :: front, clashing, back, rfl,
          List.forall_mem_cons.mpr ⟨htaken, hfree⟩, hclash⟩

theorem not_kept {call : Call} {failure : Failure} {left : ToolCatalog}
    (hrun : c.run call = (.error failure, left)) (hnew : c.sources.get? key = none)
    (hleft : left.sources.get? key = some record) : ¬ c.Kept call := by
  intro hkept
  have hsame := (hkept.unchanged failure (by rw [hrun])).sources key
  rw [hrun, hnew, hleft] at hsame
  cases hsame

theorem register_kept (h : c.Sound) (record : SourceRegistration) (discovered : Discovery) :
    (c.run (.register record discovered)).2.Sound ∧
      (c.Kept (.register record discovered) ↔ c.Orderly (.register record discovered)) := by
  have hreturns {left : ToolCatalog} (hsound : left.Sound)
      (hrun : c.run (.register record discovered) = (.ok [], left))
      (horder : c.Orderly (.register record discovered)) :
      (c.run (.register record discovered)).2.Sound ∧
        (c.Kept (.register record discovered) ↔ c.Orderly (.register record discovered)) := by
    rw [hrun]
    refine ⟨hsound, fun _ => horder, fun _ => ⟨?_, ?_, fun _ _ => trivial⟩⟩
    · rw [hrun]
      exact hsound.toUnique
    · rw [hrun]
      exact nofun
  have hraises (failure : Failure) {left : ToolCatalog} (hsound : left.Sound)
      (hrun : c.run (.register record discovered) = (.error failure, left))
      (hnew : c.sources.get? record.key = none)
      (hleft : left.sources.get? record.key = some record)
      (horder : ¬ c.Orderly (.register record discovered)) :
      (c.run (.register record discovered)).2.Sound ∧
        (c.Kept (.register record discovered) ↔ c.Orderly (.register record discovered)) := by
    have hkept := not_kept hrun hnew hleft
    rw [hrun]
    exact ⟨hsound, fun hkept' => absurd hkept' hkept, fun horder' => absurd horder' horder⟩
  cases hnew : c.sources.get? record.key with
  | some old =>
    have hpresent : (c.sources.get? record.key).isSome = true := by rw [hnew]; rfl
    have hrun : (c.run (.register record discovered)).2 = c := by
      rw [run, registerSource, if_pos hpresent]
    rw [hrun]
    refine ⟨h, fun _ => .inl hpresent, fun _ => ⟨?_, fun _ _ => ?_, fun _ _ => trivial⟩⟩
    · rw [hrun]
      exact h.toUnique
    · rw [hrun]
      exact ⟨fun _ => rfl, fun _ => rfl, fun _ => rfl⟩
  | none =>
    let added : ToolCatalog := { c with sources := c.sources.set record.key record }
    have hadded : added.Sound := sound_sources h hnew
    have hrecord : added.sources.get? record.key = some record := by
      rw [Dict.get?_set, if_pos rfl]
    have habsent : ¬ (c.sources.get? record.key).isSome = true := by rw [hnew]; exact nofun
    cases hdynamic : record.isDynamic with
    | true =>
      refine hreturns hadded ?_ (.inr (.inl hdynamic))
      rw [run, registerSource, if_neg habsent, if_pos hdynamic]
      rfl
    | false =>
      have hstatic : ¬ record.isDynamic = true := by rw [hdynamic]; exact Bool.false_ne_true
      cases discovered with
      | error failure =>
        refine hraises failure hadded ?_ hnew hrecord ?_
        · rw [run, registerSource, if_neg habsent, if_neg hstatic]
          rfl
        · rintro (hsome | htrue | ⟨definitions, hanswer, -⟩)
          · exact habsent hsome
          · exact hstatic htrue
          · cases hanswer
      | ok definitions =>
        obtain hfree | ⟨front, definition, back, rfl, hfree, hclash⟩ :=
          taken_or_free c record definitions
        · obtain ⟨hsound, -, hloop⟩ := registerDiscovered_append hadded hrecord hfree
          have hdone := hloop []
          rw [List.append_nil] at hdone
          refine hreturns hsound ?_ (.inr (.inr ⟨definitions, rfl, hfree⟩))
          rw [run, registerSource, if_neg habsent, if_neg hstatic]
          dsimp only
          rw [hdone]
          rfl
        · obtain ⟨hsound, hsame, hloop⟩ := registerDiscovered_append hadded hrecord hfree
          refine hraises ((added.putAll record front).clash record definition.name) hsound ?_ hnew
            (by rw [sources_putAll, hrecord]) ?_
          · rw [run, registerSource, if_neg habsent, if_neg hstatic]
            dsimp only
            rw [hloop, registerDiscovered, if_pos ((hsame _).trans hclash)]
            rfl
          · rintro (hsome | htrue | ⟨definitions, hanswer, hall⟩)
            · exact habsent hsome
            · exact hstatic htrue
            · cases hanswer
              rw [hall definition (by simp)] at hclash
              cases hclash

theorem sound_after (calls : List Call) : (after calls).Sound := by
  induction calls using List.reverseRecOn with
  | nil => exact sound_empty
  | append_singleton calls call ih =>
    rw [after, List.foldl_append, List.foldl_cons, List.foldl_nil]
    cases call with
    | register record discovered => exact (register_kept ih record discovered).1
    | list domain names discover => exact (list_kept ih domain names discover).1

/-- In every run: all calls keep what they have to exactly if all are orderly. -/
theorem calls_kept_iff (calls : List Call) :
    (∀ earlier call later, calls = earlier ++ call :: later → (after earlier).Kept call) ↔
      ∀ earlier call later, calls = earlier ++ call :: later → (after earlier).Orderly call := by
  have hcall (earlier : List Call) (call : Call) :
      (after earlier).Kept call ↔ (after earlier).Orderly call := by
    cases call with
    | register record discovered => exact (register_kept (sound_after earlier) _ _).2
    | list domain names discover => exact (list_kept (sound_after earlier) _ _ _).2
  simp only [hcall]

def searchSource : SourceRegistration where
  domain := "code"
  capability := "search"
  toolset := "web"
  sourceName := "search"
  isDynamic := false
  exposure := .always

/-- A source that does not answer stays registered. -/
theorem silent_source_stays :
    ¬ (after []).Kept (.register searchSource (.error (.other "timed out"))) :=
  not_kept rfl (show (after []).sources.get? searchSource.key = none from rfl) rfl

end ProjectOS.ToolManager.ToolCatalog
