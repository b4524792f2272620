import ProjectOS.Architecture.Handoff
import ProjectOS.Architecture.ProjectContract
import ProjectOS.Base.JsonText

/-! The two entry forms of the project contract tool. The wire object is stored
through its canonical dictionary. A dictionary takes the same way when every
layer names one of its rules, and is otherwise read as a historical payload
that keeps the names of its layers and gets the default rules. -/
namespace ProjectOS.Architecture
open Base Orchestration

inductive ContractForm where
  | input (input : ProjectContractInput)
  | dict (raw : Json)

namespace ArchitectureService

def policyKeys : List String := ["allowed_dependencies", "forbidden_imports", "path_mapping"]

def isText : Json → Bool
  | .str _ => true
  | _ => false

def structuredLayer (item : Json) : Bool :=
  item.isDict && isText (item.get "name") && policyKeys.any fun key => (item.get? key).isSome

def structuredLayers (raw : Json) : Bool :=
  match raw.get? "layers" with
  | some (.arr items) => !items.isEmpty && items.all structuredLayer
  | _ => false

def layerName (item : Json) : Json :=
  if item.isDict then item.getD "name" (item.getD "id" (item.get "layer")) else item

def nameLayers (raw : Json) : Json :=
  match raw.get? "layers" with
  | some (.obj fields) => raw.set "layers" (.strs (fields.map (·.1)))
  | some (.arr items) =>
      if items.any (·.isDict) then raw.set "layers" (.arr (items.map layerName)) else raw
  | _ => raw

def defaultLayers : List String := ["api", "application", "domain", "infrastructure"]

def defaultDependencies : List (String × List String) := [
  ("api", ["application"]),
  ("application", ["domain", "infrastructure"]),
  ("domain", []),
  ("infrastructure", ["domain", "application"])]

def defaultImports : List (String × List String) := [
  ("api", ["sqlalchemy.orm.Session"]),
  ("application", ["fastapi"]),
  ("domain", ["fastapi", "sqlalchemy", "requests"]),
  ("infrastructure", [])]

def defaultPaths : List (String × List String) := [
  ("api", ["backend/app/api/**", "backend/app/routers/**", "backend/app/routes/**"]),
  ("application", ["backend/app/application/**", "backend/app/services/**"]),
  ("domain", ["backend/app/domain/**", "backend/app/models.py", "backend/app/schemas.py"]),
  ("infrastructure", ["backend/app/infrastructure/**", "backend/app/repositories/**",
    "backend/app/database.py"])]

/-- `_default_layer_contract`. -/
def defaultLayerContract : List (String × Json) := [
  ("schema_version", .int 1),
  ("layers", .strs defaultLayers),
  ("allowed_dependencies", rules defaultDependencies),
  ("forbidden_imports", rules defaultImports),
  ("required_test_types", .strs ["domain_unit", "application_unit", "api_http"]),
  ("path_mapping", rules defaultPaths)]

/-- `raw.setdefault(key, value)`. -/
def setDefault (raw : Json) (entry : String × Json) : Json :=
  if (raw.get? entry.1).isSome then raw else raw.set entry.1 entry.2

def legacyProjection (raw : Json) : Json := defaultLayerContract.foldl setDefault (nameLayers raw)

def isSemantic (raw : Json) : Bool := (raw.get "compilation_strategy").isStr "semantic"

/-- The part of `save_implementation_contract` behind the choice of the form. -/
def store (raw : Json) : Result ProjectContract := do
  if isSemantic raw then
    let gaps := (← ProjectContract.parse raw).handoffGaps
    raiseWhen (!gaps.isEmpty) ("project_contract_handoff_incomplete: " ++ Text.join "; " gaps)
  ProjectContract.parse raw

theorem store_eq_ok {raw : Json} {contract : ProjectContract} :
    store raw = .ok contract ↔ ProjectContract.parse raw = .ok contract ∧
      (isSemantic raw = true → contract.handoffGaps = []) := by
  unfold store
  cases hsemantic : isSemantic raw with
  | false => simp
  | true =>
    simp only [if_true, forall_const]
    cases hparse : ProjectContract.parse raw with
    | error e => simp
    | ok parsed =>
      rw [ok_bind, raiseWhen_bind_eq_ok, Bool.not_eq_false', List.isEmpty_iff]
      constructor
      · rintro ⟨hgaps, hcontract⟩
        cases hcontract
        exact ⟨rfl, hgaps⟩
      · rintro ⟨hcontract, hgaps⟩
        cases hcontract
        exact ⟨hgaps, rfl⟩

/-- The contract without its layers is accepted and can be handed over. -/
def BodyStorable (raw : Json) : Prop :=
  ∃ body, ImplementationContract.parseBody raw = .ok body ∧
    (isSemantic raw = true → body.handoffGaps = [])

theorem store_isOk_iff {raw : Json} {layers : List String}
    (hlayers : strings "layers" (raw.getD "layers" (.arr [])) = .ok layers) :
    (∃ contract, store raw = .ok contract) ↔ BodyStorable raw ∧
      (∃ rules, ProjectContract.mappingOf raw layers "allowed_dependencies" false = .ok rules) ∧
      (∃ rules, ProjectContract.mappingOf raw layers "forbidden_imports" true = .ok rules) ∧
      (∃ tests, strings "required_test_types" (raw.getD "required_test_types" (.arr [])) =
        .ok tests) ∧
      ∃ rules, ProjectContract.mappingOf raw layers "path_mapping" false = .ok rules := by
  simp only [store_eq_ok, ProjectContract.parse_eq_ok, hlayers, Except.ok.injEq]
  constructor
  · rintro ⟨contract, ⟨hbody, rfl, hallowed, hforbidden, htests, hpaths⟩, hgaps⟩
    exact ⟨⟨_, hbody, hgaps⟩, ⟨_, hallowed⟩, ⟨_, hforbidden⟩, ⟨_, htests⟩, ⟨_, hpaths⟩⟩
  · rintro ⟨⟨body, hbody, hgaps⟩, ⟨allowed, hallowed⟩, ⟨forbidden, hforbidden⟩, ⟨tests, htests⟩,
      ⟨paths, hpaths⟩⟩
    exact ⟨⟨body, layers, allowed, forbidden, tests, paths⟩,
      ⟨hbody, rfl, hallowed, hforbidden, htests, hpaths⟩, hgaps⟩

section canonical
open ProjectContractInput
variable {input : ProjectContractInput}

/-- The names of the layers as the wire validation leaves them. -/
structure Named (input : ProjectContractInput) : Prop where
  layered : input.layers ≠ []
  stripped : ∀ layer ∈ input.layers, Text.strip layer.name = layer.name
  nonempty : ∀ layer ∈ input.layers, layer.name ≠ ""

theorem layerNames_nodup (input : ProjectContractInput) : input.layerNames.Nodup := by
  have h := input.accepted
  rw [ProjectContractFields.validateUniqueLayers, raiseWhen_bind_eq_ok] at h
  simpa using h.1

theorem Named.reads (h : Named input) (name : String) :
    strings name (.strs input.layerNames) = .ok input.layerNames := by
  have hstripped : input.layerNames.map Text.strip = input.layerNames := by
    rw [ProjectContractFields.layerNames, List.map_map]
    exact List.map_congr_left h.stripped
  rw [strings_strs_eq_ok]
  constructor
  · intro name hname
    obtain ⟨layer, hlayer, rfl⟩ := List.mem_map.mp hname
    by_contra hblank
    rw [Bool.not_eq_false] at hblank
    apply h.nonempty layer hlayer
    rw [← h.stripped layer hlayer, Text.strip, Text.stripBy_eq_empty_iff]
    exact hblank
  · rw [storedTexts, hstripped]
    exact dedupe_eq_self_iff.mpr (layerNames_nodup input)

theorem layerNames_ne_nil (h : Named input) : input.layerNames ≠ [] := by
  rw [ProjectContractFields.layerNames, Ne, List.map_eq_nil_iff]
  exact h.layered

/-- A contract input that the canonical contract accepts. -/
structure Storable (input : ProjectContractInput) : Prop where
  body : BodyStorable input.toCanonicalDict
  policies : ∀ layer ∈ input.layers, Filled layer.allowedDependencies ∧
    Filled layer.forbiddenImports ∧ Filled layer.pathMapping
  tests : Filled input.requiredTestTypes

def ruleLists (lists : ContractLayerInput → List String) (input : ProjectContractInput) :
    List (String × List String) := input.layers.map fun layer => (layer.name, lists layer)

theorem names_ruleLists (lists : ContractLayerInput → List String) (input : ProjectContractInput) :
    (ruleLists lists input).map Prod.fst = input.layerNames := by
  rw [ruleLists, List.map_map]
  rfl

theorem policies_eq_rules (lists : ContractLayerInput → List String)
    (input : ProjectContractInput) :
    policies lists input.layers = rules (ruleLists lists input) := by
  rw [policies, rules, ruleLists, List.map_map]
  rfl

theorem Named.stripped_ruleLists (h : Named input) {lists : ContractLayerInput → List String} :
    ∀ e ∈ ruleLists lists input, Text.strip e.1 = e.1 := by
  intro e he
  obtain ⟨layer, hlayer, rfl⟩ := List.mem_map.mp he
  exact h.stripped layer hlayer

theorem Named.mappingOf_isOk_iff (h : Named input) {lists : ContractLayerInput → List String}
    {name : String} (hget : input.toCanonicalDict.get? name = some (policies lists input.layers))
    (allowMissing : Bool) :
    (∃ rules, ProjectContract.mappingOf input.toCanonicalDict input.layerNames name allowMissing =
      .ok rules) ↔ ∀ layer ∈ input.layers, Filled (lists layer) := by
  rw [policies_eq_rules] at hget
  simp only [ProjectContract.mappingOf_rules_eq_ok hget (layerNames_ne_nil h) h.stripped_ruleLists,
    names_ruleLists, exists_and_left, exists_eq', and_true, imp_self, implies_true]
  exact List.forall_mem_map

/-- The input is stored exactly when its body, its rules and its test types are accepted. -/
theorem storable_iff (h : Named input) :
    (∃ contract, store input.toCanonicalDict = .ok contract) ↔ Storable input := by
  have hlayers : strings "layers" (input.toCanonicalDict.getD "layers" (.arr [])) =
      .ok input.layerNames := h.reads "layers"
  rw [store_isOk_iff hlayers, h.mappingOf_isOk_iff rfl false,
    h.mappingOf_isOk_iff rfl true, h.mappingOf_isOk_iff rfl false]
  have htests : (∃ tests, strings "required_test_types"
      (input.toCanonicalDict.getD "required_test_types" (.arr [])) = .ok tests) ↔
      Filled input.requiredTestTypes := by
    change (∃ tests, strings _ (.strs input.requiredTestTypes) = .ok tests) ↔ _
    simp
  rw [htests]
  constructor
  · rintro ⟨hbody, hallowed, hforbidden, hfilled, hpaths⟩
    exact ⟨hbody, fun layer hlayer => ⟨hallowed layer hlayer, hforbidden layer hlayer,
      hpaths layer hlayer⟩, hfilled⟩
  · rintro ⟨hbody, hpolicies, hfilled⟩
    exact ⟨hbody, fun layer hlayer => (hpolicies layer hlayer).1,
      fun layer hlayer => (hpolicies layer hlayer).2.1, hfilled,
      fun layer hlayer => (hpolicies layer hlayer).2.2⟩

/-- The rules of a stored layer, in the order allowed, forbidden, paths. -/
def storedRules (contract : ProjectContract) (layer : String) : List (Option (List String)) :=
  [contract.allowedDependencies, contract.forbiddenImports, contract.pathMapping].map
    (·.get? layer)

theorem storedRules_canonical (h : Named input) {contract : ProjectContract}
    (hstore : store input.toCanonicalDict = .ok contract) {layer : ContractLayerInput}
    (hlayer : layer ∈ input.layers) :
    storedRules contract layer.name =
      [layer.allowedDependencies, layer.forbiddenImports, layer.pathMapping].map
        (some ∘ storedTexts) := by
  obtain ⟨hparse, -⟩ := store_eq_ok.mp hstore
  obtain ⟨-, hlayers, hallowed, hforbidden, -, hpaths⟩ := ProjectContract.parse_eq_ok.mp hparse
  have hnames : contract.layers = input.layerNames :=
    Except.ok.inj (hlayers.symm.trans (h.reads "layers"))
  rw [hnames] at hallowed hforbidden hpaths
  have hname : layer.name ∈ input.layerNames := List.mem_map.mpr ⟨layer, hlayer, rfl⟩
  have hget {lists : ContractLayerInput → List String} {name : String} {allowMissing : Bool}
      {out : LayerMapping}
      (hraw : input.toCanonicalDict.get? name = some (policies lists input.layers))
      (hout : ProjectContract.mappingOf input.toCanonicalDict input.layerNames name
        allowMissing = .ok out) : out.get? layer.name = some (storedTexts (lists layer)) := by
    rw [policies_eq_rules] at hraw
    apply ProjectContract.get?_of_mappingOf hraw (layerNames_ne_nil h) h.stripped_ruleLists _ hout
      hname
    · exact List.mem_map.mpr ⟨layer, hlayer, rfl⟩
    · rw [names_ruleLists]
      exact layerNames_nodup input
  rw [storedRules, List.map_cons, List.map_cons, List.map_singleton, hget rfl hallowed,
    hget rfl hforbidden, hget rfl hpaths]
  rfl

theorem get?_dumped_eq_none {excludeNone : Bool} {fields : List (String × Json)} {key : String}
    (h : key ∉ fields.map Prod.fst) : (dumped excludeNone fields).get? key = none := by
  have hnone : ∀ e ∈ (if excludeNone then fields.filter (!·.2.isNull) else fields),
      e.1 ≠ key := by
    intro e he hkey
    apply h
    rw [← hkey]
    split at he
    · exact List.mem_map_of_mem (List.mem_of_mem_filter he)
    · exact List.mem_map_of_mem he
  exact FieldSemantics.lookup_eq_none_iff.mpr hnone

/-- A canonical dictionary uses no alias. -/
theorem canonical_toCanonicalDict (input : ProjectContractInput) :
    CanonicalContractNormalizer.Canonical input.toCanonicalDict := by
  refine ⟨rfl, ?_, ?_, ?_, ?_, ?_⟩
  · intro entry hentry name hname
    apply @get?_dumped_eq_none false input.canonicalFields name
    revert hname name hentry entry
    simp [CanonicalContractNormalizer.topLevel, canonicalFields]
  · intro items hitems item hitem
    cases hitems
    obtain ⟨name, -, rfl⟩ := List.mem_map.mp hitem
    exact fun _ _ _ _ => rfl
  · intro fields h
    cases h
  · intro items hitems item hitem
    cases hitems
    obtain ⟨interface, -, rfl⟩ := List.mem_map.mp hitem
    intro entry hentry name hname
    apply get?_dumped_eq_none
    revert hname name hentry entry
    simp [CanonicalContractNormalizer.interface]
  · intro items hitems item hitem
    cases hitems
    obtain ⟨unit, -, rfl⟩ := List.mem_map.mp hitem
    intro entry hentry name hname
    apply get?_dumped_eq_none
    revert hname name hentry entry
    simp [CanonicalContractNormalizer.unit]

end canonical

section legacy

theorem get?_setDefault {raw : Json} (h : raw.isDict = true) (entry : String × Json) (k : String) :
    (setDefault raw entry).get? k = (raw.get? k).or (Json.lookup k [entry]) := by
  obtain ⟨key, value⟩ := entry
  unfold setDefault
  split
  · rename_i hkey
    by_cases hk : key = k
    · subst hk
      obtain ⟨found, hfound⟩ := Option.isSome_iff_exists.mp hkey
      rw [hfound, Option.some_or]
    · rw [Json.lookup, if_neg hk, Json.lookup, Option.or_none]
  · rename_i hkey
    rw [FieldSemantics.get?_set h]
    by_cases hk : key = k
    · subst hk
      rw [Option.not_isSome_iff_eq_none] at hkey
      rw [if_pos rfl, hkey, Option.none_or, Json.lookup, if_pos rfl]
    · rw [if_neg hk, Json.lookup, if_neg hk, Json.lookup, Option.or_none]

theorem isDict_setDefault {raw : Json} (h : raw.isDict = true) (entry : String × Json) :
    (setDefault raw entry).isDict = true := by
  unfold setDefault
  split
  · exact h
  · exact FieldSemantics.isDict_set h _ _

theorem get?_foldl_setDefault {raw : Json} (h : raw.isDict = true) (entries : List (String × Json))
    (k : String) :
    (entries.foldl setDefault raw).get? k = (raw.get? k).or (Json.lookup k entries) := by
  induction entries generalizing raw with
  | nil => rw [List.foldl_nil, Json.lookup, Option.or_none]
  | cons entry rest ih =>
    rw [List.foldl_cons, ih (isDict_setDefault h entry), get?_setDefault h, Option.or_assoc]
    congr 1
    obtain ⟨key, value⟩ := entry
    rw [Json.lookup, Json.lookup, Json.lookup]
    split <;> rfl

theorem isDict_foldl_setDefault {raw : Json} (h : raw.isDict = true)
    (entries : List (String × Json)) : (entries.foldl setDefault raw).isDict = true := by
  induction entries generalizing raw with
  | nil => exact h
  | cons entry rest ih => exact ih (isDict_setDefault h entry)

/-- Nothing is supplied where every default has a value. -/
theorem foldl_setDefault_of_some {raw : Json} {entries : List (String × Json)}
    (h : ∀ entry ∈ entries, (raw.get? entry.1).isSome = true) :
    entries.foldl setDefault raw = raw := by
  induction entries with
  | nil => rfl
  | cons entry rest ih =>
    rw [List.forall_mem_cons] at h
    rw [List.foldl_cons, setDefault, if_pos h.1, ih h.2]

end legacy

/-- The wire texts of a list field; an omitted list is empty. -/
def wireList (item : Json) (key : String) : List String :=
  match item.get? key with
  | some (.arr values) => values.map (·.pyStr)
  | _ => []

/-- A field of texts, stripped by the validation, that may be omitted. -/
def ReadsList (item : Json) (key : String) (texts : List String) : Prop :=
  texts = (wireList item key).map Text.strip ∧
    (item.get? key = none ∨ item.get? key = some (.strs (wireList item key)))

/-- A layer object and its validated form. -/
structure ReadsLayer (item : Json) (layer : ContractLayerInput) : Prop where
  isDict : item.isDict = true
  name : ∃ name, item.get? "name" = some (.str name) ∧ layer.name = Text.strip name
  nonempty : layer.name ≠ ""
  allowed : ReadsList item "allowed_dependencies" layer.allowedDependencies
  forbidden : ReadsList item "forbidden_imports" layer.forbiddenImports
  paths : ReadsList item "path_mapping" layer.pathMapping

/-- The fields of the wire object without a default. -/
def requiredFields : List String := [
  "schema_version", "layers", "required_test_types", "entrypoints", "required_files",
  "interfaces", "implementation_units"]

/-- What the wire validation guarantees: a closed object with all its required
fields, whose layers are read in order with their texts stripped. -/
structure Validates (modelValidate : Json → Result ProjectContractInput) : Prop where
  isDict : ∀ {raw input}, modelValidate raw = .ok input → raw.isDict = true
  closed : ∀ {raw input}, modelValidate raw = .ok input → ∀ key, (raw.get? key).isSome = true →
    key ∈ "compilation_strategy" :: requiredFields
  required : ∀ {raw input}, modelValidate raw = .ok input → ∀ key ∈ requiredFields,
    (raw.get? key).isSome = true
  layers : ∀ {raw input}, modelValidate raw = .ok input → ∃ items,
    raw.get? "layers" = some (.arr items) ∧ items ≠ [] ∧ List.Forall₂ ReadsLayer items input.layers

section validated
variable {modelValidate : Json → Result ProjectContractInput} {raw : Json}
  {input : ProjectContractInput}

theorem named_of_forall₂ {items : List Json} (hne : items ≠ [])
    (h : List.Forall₂ ReadsLayer items input.layers) : Named input := by
  constructor
  · intro hnil
    rw [hnil, List.forall₂_nil_right_iff] at h
    exact hne h
  · intro layer hlayer
    obtain ⟨item, -, hread⟩ := exists_left_of_forall₂ h hlayer
    obtain ⟨name, -, hname⟩ := hread.name
    rw [hname, strip_strip]
  · intro layer hlayer
    obtain ⟨item, -, hread⟩ := exists_left_of_forall₂ h hlayer
    exact hread.nonempty

theorem Validates.named (h : Validates modelValidate) (hraw : modelValidate raw = .ok input) :
    Named input := by
  obtain ⟨items, -, hne, hitems⟩ := h.layers hraw
  exact named_of_forall₂ hne hitems

theorem ReadsLayer.layerName {item : Json} {layer : ContractLayerInput} (h : ReadsLayer item layer) :
    textItem "layers" (layerName item) = .ok layer.name := by
  obtain ⟨name, hget, hname⟩ := h.name
  rw [ArchitectureService.layerName, h.isDict, if_pos rfl, Json.getD, hget, Option.getD_some,
    textItem_str_eq_ok]
  refine ⟨?_, hname.symm⟩
  by_contra hblank
  rw [Bool.not_eq_false] at hblank
  apply h.nonempty
  rw [hname, Text.strip, Text.stripBy_eq_empty_iff]
  exact hblank

/-- The dictionary that a payload without rules is read as. -/
theorem get?_legacyProjection (h : Validates modelValidate) (hraw : modelValidate raw = .ok input)
    (key : String) : ∃ items, raw.get? "layers" = some (.arr items) ∧
      (legacyProjection raw).get? key =
        (if "layers" = key then some (.arr (items.map layerName)) else raw.get? key).or
          (Json.lookup key defaultLayerContract) := by
  obtain ⟨items, hitems, hne, hreads⟩ := h.layers hraw
  refine ⟨items, hitems, ?_⟩
  have hdict : items.any (·.isDict) = true := by
    obtain ⟨item, hitem⟩ := List.exists_mem_of_ne_nil items hne
    obtain ⟨layer, -, hread⟩ := exists_right_of_forall₂ hreads hitem
    exact List.any_eq_true.mpr ⟨item, hitem, hread.isDict⟩
  have hnamed : nameLayers raw = raw.set "layers" (.arr (items.map layerName)) := by
    rw [nameLayers, hitems]
    exact if_pos hdict
  rw [legacyProjection, hnamed, get?_foldl_setDefault (FieldSemantics.isDict_set (h.isDict hraw) _ _),
    FieldSemantics.get?_set (h.isDict hraw)]

/-- A field of the wire object is read as it was written. -/
theorem get?_legacyProjection_of_required (h : Validates modelValidate)
    (hraw : modelValidate raw = .ok input) {key : String} (hkey : key ∈ requiredFields)
    (hlayers : "layers" ≠ key) : (legacyProjection raw).get? key = raw.get? key := by
  obtain ⟨items, -, hget⟩ := get?_legacyProjection h hraw key
  obtain ⟨value, hvalue⟩ := Option.isSome_iff_exists.mp (h.required hraw key hkey)
  rw [hget, if_neg hlayers, hvalue, Option.some_or]

theorem get?_legacyProjection_of_plain (h : Validates modelValidate)
    (hraw : modelValidate raw = .ok input) {key : String}
    (hkey : Json.lookup key defaultLayerContract = none) :
    (legacyProjection raw).get? key = raw.get? key := by
  obtain ⟨items, -, hget⟩ := get?_legacyProjection h hraw key
  have hlayers : "layers" ≠ key := by
    rintro rfl
    cases hkey
  rw [hget, if_neg hlayers, hkey, Option.or_none]

theorem policyKeys_closed : ∀ key ∈ policyKeys, key ∉ "compilation_strategy" :: requiredFields := by
  decide

/-- The rules of the payload are the default rules. -/
theorem get?_legacyProjection_of_policy (h : Validates modelValidate)
    (hraw : modelValidate raw = .ok input) {key : String} (hkey : key ∈ policyKeys) :
    (legacyProjection raw).get? key = Json.lookup key defaultLayerContract := by
  obtain ⟨items, -, hget⟩ := get?_legacyProjection h hraw key
  have hnone : raw.get? key = none := by
    by_contra hsome
    exact policyKeys_closed key hkey (h.closed hraw key (Option.isSome_iff_ne_none.mpr hsome))
  have hlayers : "layers" ≠ key := by
    rintro rfl
    exact absurd hkey (by decide)
  rw [hget, if_neg hlayers, hnone, Option.none_or]

theorem strings_legacyProjection (h : Validates modelValidate) (hraw : modelValidate raw = .ok input) :
    strings "layers" ((legacyProjection raw).getD "layers" (.arr [])) = .ok input.layerNames := by
  obtain ⟨items, hitems, hne, hreads⟩ := h.layers hraw
  obtain ⟨items', hitems', hget⟩ := get?_legacyProjection h hraw "layers"
  have hsame : items' = items := by
    rw [hitems] at hitems'
    cases hitems'
    rfl
  rw [Json.getD, hget, if_pos rfl, Option.some_or, Option.getD_some, hsame, strings_arr_eq_ok]
  refine ⟨input.layerNames, ?_, dedupe_eq_self_iff.mpr (layerNames_nodup input)⟩
  rw [ProjectContractFields.layerNames, List.forall₂_map_left_iff, List.forall₂_map_right_iff]
  exact hreads.imp fun _ _ hread => hread.layerName

theorem bodyStorable_legacyProjection (h : Validates modelValidate)
    (hraw : modelValidate raw = .ok input) :
    BodyStorable (legacyProjection raw) ↔ BodyStorable raw := by
  have hplain {key : String} (hkey : Json.lookup key defaultLayerContract = none) :=
    get?_legacyProjection_of_plain h hraw hkey
  have hdict : (legacyProjection raw).isDict = raw.isDict := by
    rw [h.isDict hraw]
    apply isDict_foldl_setDefault
    unfold nameLayers
    split
    · exact FieldSemantics.isDict_set (h.isDict hraw) _ _
    · split
      · exact FieldSemantics.isDict_set (h.isDict hraw) _ _
      · exact h.isDict hraw
    · exact h.isDict hraw
  have hbody : ImplementationContract.parseBody (legacyProjection raw) =
      ImplementationContract.parseBody raw := by
    apply ImplementationContract.parseBody_congr hdict
    intro key hkey
    simp only [ImplementationContract.bodyKeys, List.mem_cons, List.not_mem_nil, or_false] at hkey
    rcases hkey with rfl | rfl | rfl | rfl | rfl | rfl | rfl
    · exact get?_legacyProjection_of_required h hraw (by decide) (by decide)
    all_goals exact hplain rfl
  have hsemantic : isSemantic (legacyProjection raw) = isSemantic raw := by
    rw [isSemantic, isSemantic, Json.get, Json.getD, hplain rfl]
    rfl
  rw [BodyStorable, hbody, hsemantic]
  rfl

/-- A payload without rules that is stored with the default rules. -/
structure LegacyStorable (raw : Json) (input : ProjectContractInput) : Prop where
  body : BodyStorable raw
  tests : ∃ tests, strings "required_test_types" (raw.getD "required_test_types" (.arr [])) =
    .ok tests
  layers : ∀ name, name ∈ input.layerNames ↔ name ∈ defaultLayers

theorem mappingOf_legacy_isOk_iff (h : Validates modelValidate)
    (hraw : modelValidate raw = .ok input) {key : String} (hkey : key ∈ policyKeys)
    {lists : List (String × List String)}
    (hlists : Json.lookup key defaultLayerContract = some (rules lists))
    (hstripped : ∀ e ∈ lists, Text.strip e.1 = e.1) (hfilled : ∀ e ∈ lists, Filled e.2)
    (hnames : lists.map Prod.fst = defaultLayers) (allowMissing : Bool) :
    (∃ rules, ProjectContract.mappingOf (legacyProjection raw) input.layerNames key allowMissing =
      .ok rules) ↔ (∀ name ∈ defaultLayers, name ∈ input.layerNames) ∧
        (allowMissing = false → ∀ name ∈ input.layerNames, name ∈ defaultLayers) := by
  have hget := (get?_legacyProjection_of_policy h hraw hkey).trans hlists
  simp only [ProjectContract.mappingOf_rules_eq_ok hget (layerNames_ne_nil (h.named hraw)) hstripped,
    hnames, exists_and_left, exists_eq', and_true]
  exact and_iff_right hfilled

theorem legacyStorable_iff (h : Validates modelValidate) (hraw : modelValidate raw = .ok input) :
    (∃ contract, store (legacyProjection raw) = .ok contract) ↔ LegacyStorable raw input := by
  rw [store_isOk_iff (strings_legacyProjection h hraw), bodyStorable_legacyProjection h hraw,
    mappingOf_legacy_isOk_iff h hraw (by decide +kernel) rfl (by decide +kernel) (by decide +kernel) rfl false,
    mappingOf_legacy_isOk_iff h hraw (by decide +kernel) rfl (by decide +kernel) (by decide +kernel) rfl true,
    mappingOf_legacy_isOk_iff h hraw (by decide +kernel) rfl (by decide +kernel) (by decide +kernel) rfl false]
  have htests : (legacyProjection raw).getD "required_test_types" (.arr []) =
      raw.getD "required_test_types" (.arr []) := by
    rw [Json.getD, get?_legacyProjection_of_required h hraw (by decide) (by decide), Json.getD]
  rw [htests]
  constructor
  · rintro ⟨hbody, ⟨hdefault, hknown⟩, -, htests, -⟩
    exact ⟨hbody, htests, fun name => ⟨hknown rfl name, hdefault name⟩⟩
  · rintro ⟨hbody, htests, hlayers⟩
    have hboth : (∀ name ∈ defaultLayers, name ∈ input.layerNames) ∧
        ∀ name ∈ input.layerNames, name ∈ defaultLayers :=
      ⟨fun name => (hlayers name).mpr, fun name => (hlayers name).mp⟩
    exact ⟨hbody, ⟨hboth.1, fun _ => hboth.2⟩, ⟨hboth.1, fun _ => hboth.2⟩, htests, hboth.1,
      fun _ => hboth.2⟩

/-- Stored with the default rules, every layer has paths. -/
theorem pathMapping_legacy (h : Validates modelValidate) (hraw : modelValidate raw = .ok input)
    {contract : ProjectContract} (hstore : store (legacyProjection raw) = .ok contract)
    {name : String} (hname : name ∈ input.layerNames) :
    contract.pathMapping.get? name ≠ some [] := by
  have hdefault : name ∈ defaultLayers :=
    (((legacyStorable_iff h hraw).mp ⟨contract, hstore⟩).layers name).mp hname
  obtain ⟨hparse, -⟩ := store_eq_ok.mp hstore
  obtain ⟨-, hlayers, -, -, -, hpaths⟩ := ProjectContract.parse_eq_ok.mp hparse
  have hnames : contract.layers = input.layerNames :=
    Except.ok.inj (hlayers.symm.trans (strings_legacyProjection h hraw))
  rw [hnames] at hpaths
  have hdefaults : ∀ layer ∈ defaultLayers, ∃ texts, (layer, texts) ∈ defaultPaths ∧
      storedTexts texts ≠ [] := by
    intro layer hlayer
    obtain ⟨e, he, rfl⟩ := List.mem_map.mp (show layer ∈ defaultPaths.map Prod.fst from hlayer)
    refine ⟨e.2, he, ?_⟩
    revert e
    decide
  obtain ⟨texts, htexts, hne⟩ := hdefaults name hdefault
  have hget : (legacyProjection raw).get? "path_mapping" = some (rules defaultPaths) :=
    get?_legacyProjection_of_policy h hraw (by decide)
  rw [ProjectContract.get?_of_mappingOf hget (layerNames_ne_nil (h.named hraw)) (by decide)
    (by decide) hpaths hname htexts]
  exact fun heq => hne (Option.some.inj heq)

end validated

variable (modelValidate : Json → Result ProjectContractInput)

/-- `save_implementation_contract`: the contract that is written. -/
def saveImplementationContract (form : ContractForm) : Result ProjectContract := do
  let raw := match form with
    | .input input => input.toCanonicalDict
    | .dict raw => raw
  let raw ← CanonicalContractNormalizer.normalize raw
  if structuredLayers raw then
    let input ← modelValidate raw
    store input.toCanonicalDict
  else store (legacyProjection raw)

/-- The rules of every layer are stored under its name as the caller wrote them. -/
def PersistsAsGiven (raw : Json) (contract : ProjectContract) : Prop :=
  ∀ items, raw.get? "layers" = some (.arr items) → ∀ item ∈ items, ∀ name,
    item.get? "name" = some (.str name) →
    storedRules contract (Text.strip name) = policyKeys.map fun key => some (wireList item key)

/-- Both forms store the same contract, with the rules of the caller, or both are refused. -/
def FormsAgree (raw : Json) (input : ProjectContractInput) : Prop :=
  (∃ contract, saveImplementationContract modelValidate (.dict raw) = .ok contract ∧
    saveImplementationContract modelValidate (.input input) = .ok contract ∧
    PersistsAsGiven raw contract) ∨
  (∀ contract, saveImplementationContract modelValidate (.dict raw) ≠ .ok contract) ∧
    ∀ contract, saveImplementationContract modelValidate (.input input) ≠ .ok contract

/-- No rule of a layer is written twice or with surrounding blanks. -/
def PlainRules (raw : Json) : Prop :=
  ∀ items, raw.get? "layers" = some (.arr items) → ∀ item ∈ items, ∀ key ∈ policyKeys,
    (wireList item key).Nodup ∧ ∀ text ∈ wireList item key, Text.strip text = text

variable {modelValidate}

theorem save_input (input : ProjectContractInput) :
    saveImplementationContract modelValidate (.input input) = store input.toCanonicalDict := by
  have hstructured : structuredLayers input.toCanonicalDict = false := by
    change (!(input.layerNames.map Json.str).isEmpty &&
      (input.layerNames.map Json.str).all structuredLayer) = false
    cases input.layerNames <;> rfl
  have hlegacy : legacyProjection input.toCanonicalDict = input.toCanonicalDict := by
    have hnames : nameLayers input.toCanonicalDict = input.toCanonicalDict := by
      change (if (input.layerNames.map Json.str).any (·.isDict) then _ else _) = _
      rw [if_neg]
      simp [Json.isDict]
    rw [legacyProjection, hnames]
    apply foldl_setDefault_of_some
    intro entry hentry
    have hkey : entry.1 ∈ ["schema_version", "layers", "allowed_dependencies",
        "forbidden_imports", "required_test_types", "path_mapping"] :=
      List.mem_map_of_mem hentry
    simp only [List.mem_cons, List.not_mem_nil, or_false] at hkey
    rcases hkey with h | h | h | h | h | h <;> rw [h] <;> rfl
  rw [saveImplementationContract,
    CanonicalContractNormalizer.normalize_of_canonical (canonical_toCanonicalDict input), ok_bind,
    hstructured, if_neg Bool.false_ne_true, hlegacy]

theorem save_dict {raw : Json} {input : ProjectContractInput}
    (hcanonical : CanonicalContractNormalizer.Canonical raw)
    (hraw : modelValidate raw = .ok input) :
    saveImplementationContract modelValidate (.dict raw) =
      if structuredLayers raw then store input.toCanonicalDict
      else store (legacyProjection raw) := by
  rw [saveImplementationContract, CanonicalContractNormalizer.normalize_of_canonical hcanonical,
    ok_bind]
  split
  · rw [hraw, ok_bind]
  · rfl

theorem persistsAsGiven_iff (h : Validates modelValidate) {raw : Json}
    {input : ProjectContractInput} (hraw : modelValidate raw = .ok input)
    {contract : ProjectContract} (hstore : store input.toCanonicalDict = .ok contract) :
    PersistsAsGiven raw contract ↔ PlainRules raw := by
  obtain ⟨items, hitems, hne, hreads⟩ := h.layers hraw
  have hnamed := named_of_forall₂ hne hreads
  have hitem : ∀ item ∈ items, ∀ name, item.get? "name" = some (.str name) →
      (storedRules contract (Text.strip name) = policyKeys.map (fun key => some (wireList item key)) ↔
        ∀ key ∈ policyKeys, storedTexts (wireList item key) = wireList item key) := by
    intro item hitem name hname
    obtain ⟨layer, hlayer, hread⟩ := exists_right_of_forall₂ hreads hitem
    obtain ⟨name', hname', hlayerName⟩ := hread.name
    have hsame : name' = name := by
      rw [hname] at hname'
      cases hname'
      rfl
    subst hsame
    rw [← hlayerName, storedRules_canonical hnamed hstore hlayer, hread.allowed.1,
      hread.forbidden.1, hread.paths.1]
    simp [policyKeys, storedTexts_strip]
  constructor
  · intro hpersists items' hitems' item hmem
    have hsame : items' = items := by
      rw [hitems] at hitems'
      cases hitems'
      rfl
    rw [hsame] at hmem
    obtain ⟨layer, -, hread⟩ := exists_right_of_forall₂ hreads hmem
    obtain ⟨name, hname, -⟩ := hread.name
    have hlists := (hitem item hmem name hname).mp (hpersists items hitems item hmem name hname)
    exact fun key hkey => storedTexts_eq_self_iff.mp (hlists key hkey)
  · intro hplain items' hitems' item hmem name hname
    have hsame : items' = items := by
      rw [hitems] at hitems'
      cases hitems'
      rfl
    rw [hsame] at hmem
    exact (hitem item hmem name hname).mpr fun key hkey =>
      storedTexts_eq_self_iff.mpr (hplain items hitems item hmem key hkey)

/-- Without rules for some layer the two forms never store the same contract. -/
theorem store_ne_of_unstructured (h : Validates modelValidate) {raw : Json}
    {input : ProjectContractInput} (hraw : modelValidate raw = .ok input)
    (hstructured : structuredLayers raw = false) {contract : ProjectContract}
    (hlegacy : store (legacyProjection raw) = .ok contract) :
    store input.toCanonicalDict ≠ .ok contract := by
  intro hstore
  obtain ⟨items, hitems, hne, hreads⟩ := h.layers hraw
  have hnamed := named_of_forall₂ hne hreads
  have hbare : ∃ item ∈ items, structuredLayer item = false := by
    rw [structuredLayers, hitems] at hstructured
    simpa [hne] using hstructured
  obtain ⟨item, hmem, hitem⟩ := hbare
  obtain ⟨layer, hlayer, hread⟩ := exists_right_of_forall₂ hreads hmem
  have hpaths : layer.pathMapping = [] := by
    obtain ⟨name, hname, -⟩ := hread.name
    have hnone : item.get? "path_mapping" = none := by
      simp only [structuredLayer, hread.isDict, Json.get, Json.getD, hname, Option.getD_some, isText,
        Bool.true_and, List.any_eq_false] at hitem
      simpa using hitem "path_mapping" (by decide)
    rw [hread.paths.1, wireList, hnone]
    rfl
  have hrules := storedRules_canonical hnamed hstore hlayer
  rw [storedRules, hpaths] at hrules
  simp only [List.map_cons, List.map_nil, List.cons.injEq] at hrules
  have hname : layer.name ∈ input.layerNames := List.mem_map.mpr ⟨layer, hlayer, rfl⟩
  exact pathMapping_legacy h hraw hlegacy hname hrules.2.2.1

/-- The two forms agree exactly when every layer of the dictionary names one of
its rules, each written once and without surrounding blanks, or nothing is stored
in either form. -/
theorem contract_forms_agree_iff (h : Validates modelValidate) {raw : Json}
    {input : ProjectContractInput} (hcanonical : CanonicalContractNormalizer.Canonical raw)
    (hraw : modelValidate raw = .ok input) :
    FormsAgree modelValidate raw input ↔
      (structuredLayers raw = true ∧ (PlainRules raw ∨ ¬ Storable input)) ∨
      (structuredLayers raw = false ∧ ¬ Storable input ∧ ¬ LegacyStorable raw input) := by
  have hnamed := h.named hraw
  rw [← legacyStorable_iff h hraw, ← storable_iff hnamed, FormsAgree, save_input,
    save_dict hcanonical hraw]
  cases hstructured : structuredLayers raw with
  | true =>
    simp only [if_true, true_and, Bool.true_eq_false, false_and, or_false, not_exists, and_self]
    constructor
    · rintro (⟨contract, hstore, -, hpersists⟩ | hnone)
      · exact .inl ((persistsAsGiven_iff h hraw hstore).mp hpersists)
      · exact .inr hnone
    · rintro (hplain | hnone)
      · by_cases hsome : ∃ contract, store input.toCanonicalDict = .ok contract
        · obtain ⟨contract, hstore⟩ := hsome
          exact .inl ⟨contract, hstore, hstore, (persistsAsGiven_iff h hraw hstore).mpr hplain⟩
        · exact .inr (not_exists.mp hsome)
      · exact .inr hnone
  | false =>
    simp only [Bool.false_eq_true, if_false, false_and, false_or, true_and, not_exists]
    constructor
    · rintro (⟨contract, hlegacy, hstore, -⟩ | ⟨hlegacy, hstore⟩)
      · exact absurd hstore (store_ne_of_unstructured h hraw hstructured hlegacy)
      · exact ⟨hstore, hlegacy⟩
    · rintro ⟨hstore, hlegacy⟩
      exact .inr ⟨hlegacy, hstore⟩

/-- A validation that knows one object. -/
def acceptsOnly (raw : Json) (input : ProjectContractInput) (other : Json) :
    Result ProjectContractInput :=
  if other.distinct && other.chars = raw.chars then .ok input
  else raise "Input should be a valid contract"

theorem acceptsOnly_eq_ok {raw other : Json} {input input' : ProjectContractInput}
    (hdistinct : raw.distinct = true) :
    acceptsOnly raw input other = .ok input' ↔ other = raw ∧ input = input' := by
  unfold acceptsOnly
  constructor
  · intro h
    split at h
    · rename_i hsame
      rw [Bool.and_eq_true, decide_eq_true_eq] at hsame
      have hloads := Json.loads_chars hsame.1
      rw [hsame.2, Json.loads_chars hdistinct] at hloads
      exact ⟨(Option.some.inj hloads).symm, Except.ok.inj h⟩
    · cases h
  · rintro ⟨rfl, rfl⟩
    rw [if_pos]
    simp [hdistinct]

/-- Four layers of which only the first writes its rules. -/
def partialFields : List (String × Json) := [
  ("schema_version", .int 1),
  ("layers", .arr [
    .obj [("name", .str "api"), ("allowed_dependencies", .strs ["domain"]),
      ("path_mapping", .strs ["backend/http/**"])],
    .obj [("name", .str "application")],
    .obj [("name", .str "domain")],
    .obj [("name", .str "infrastructure")]]),
  ("required_test_types", .strs ["unit"]),
  ("entrypoints", .obj []),
  ("required_files", .arr []),
  ("interfaces", .arr []),
  ("implementation_units", .arr [.obj [
    ("unit_id", .str "u-api"), ("layer", .str "api"), ("objective", .str "serve the tasks"),
    ("allowed_paths", .strs ["backend/http/**"])]])]

def partialLayers : Json := .obj partialFields

def partialInput : ProjectContractInput where
  layers := [
    { name := "api", allowedDependencies := ["domain"], pathMapping := ["backend/http/**"] },
    { name := "application" }, { name := "domain" }, { name := "infrastructure" }]
  requiredTestTypes := ["unit"]
  entrypoints := {}
  requiredFiles := []
  interfaces := []
  implementationUnits := [{
    unitId := "u-api", layer := "api", objective := "serve the tasks"
    allowedPaths := ["backend/http/**"] }]
  accepted := by decide

theorem validates_partialLayers : Validates (acceptsOnly partialLayers partialInput) := by
  have hdistinct : partialLayers.distinct = true := by decide
  constructor
  · intro raw input h
    obtain ⟨rfl, -⟩ := (acceptsOnly_eq_ok hdistinct).mp h
    rfl
  · intro raw input h key hkey
    obtain ⟨rfl, -⟩ := (acceptsOnly_eq_ok hdistinct).mp h
    have hknown : ∀ key ∈ partialFields.map Prod.fst,
        key ∈ "compilation_strategy" :: requiredFields := by decide
    apply hknown
    by_contra hother
    have hnone : partialLayers.get? key = none :=
      FieldSemantics.lookup_eq_none_iff.mpr fun e he heq =>
        hother (heq ▸ List.mem_map_of_mem he)
    rw [hnone] at hkey
    cases hkey
  · intro raw input h key hkey
    obtain ⟨rfl, -⟩ := (acceptsOnly_eq_ok hdistinct).mp h
    revert key
    decide
  · intro raw input h
    obtain ⟨rfl, rfl⟩ := (acceptsOnly_eq_ok hdistinct).mp h
    have hbare {name : String} (hname : Text.strip name = name) (hne : name ≠ "") :
        ReadsLayer (.obj [("name", .str name)]) { name := name } :=
      ⟨rfl, ⟨name, rfl, hname.symm⟩, hne, ⟨rfl, .inl rfl⟩, ⟨rfl, .inl rfl⟩, ⟨rfl, .inl rfl⟩⟩
    refine ⟨_, rfl, List.cons_ne_nil _ _, .cons ?_ (.cons (hbare (by decide) (by decide))
      (.cons (hbare (by decide) (by decide)) (.cons (hbare (by decide) (by decide)) .nil)))⟩
    exact ⟨rfl, ⟨"api", rfl, by decide⟩, by decide, ⟨by decide, .inr rfl⟩, ⟨rfl, .inl rfl⟩,
      ⟨by decide, .inr rfl⟩⟩

theorem canonical_partialLayers : CanonicalContractNormalizer.Canonical partialLayers := by
  refine ⟨rfl, ?_, ?_, ?_, ?_, ?_⟩
  · intro entry hentry name hname
    revert hname name hentry entry
    decide
  · intro items hitems
    cases hitems
    intro item hitem entry hentry name hname
    revert hname name hentry entry hitem item
    decide
  · intro fields h
    cases h
  · intro items hitems
    cases hitems
    intro item hitem
    cases hitem
  · intro items hitems
    cases hitems
    intro item hitem entry hentry name hname
    revert hname name hentry entry hitem item
    decide

theorem partialLayers_agree_iff :
    FormsAgree (acceptsOnly partialLayers partialInput) partialLayers partialInput ↔
      (structuredLayers partialLayers = true ∧
        (PlainRules partialLayers ∨ ¬ Storable partialInput)) ∨
      (structuredLayers partialLayers = false ∧ ¬ Storable partialInput ∧
        ¬ LegacyStorable partialLayers partialInput) :=
  contract_forms_agree_iff validates_partialLayers canonical_partialLayers
    ((acceptsOnly_eq_ok (by decide)).mpr ⟨rfl, rfl⟩)

theorem partialLayers_disagree : ∃ modelValidate raw input, Validates modelValidate ∧
    CanonicalContractNormalizer.Canonical raw ∧ modelValidate raw = .ok input ∧
    ¬ FormsAgree modelValidate raw input := by
  have hraw : acceptsOnly partialLayers partialInput partialLayers = .ok partialInput :=
    (acceptsOnly_eq_ok (by decide)).mpr ⟨rfl, rfl⟩
  refine ⟨_, _, _, validates_partialLayers, canonical_partialLayers, hraw, ?_⟩
  have hstructured : structuredLayers partialLayers = false := by decide
  have hstored : ∃ contract, store partialInput.toCanonicalDict = .ok contract :=
    exists_of_isOk (by decide +kernel)
  rw [FormsAgree, save_input, save_dict canonical_partialLayers hraw, hstructured,
    if_neg Bool.false_ne_true]
  rintro (⟨contract, hlegacy, hstore, -⟩ | ⟨-, hnone⟩)
  · exact store_ne_of_unstructured validates_partialLayers hraw hstructured hlegacy hstore
  · obtain ⟨contract, hstore⟩ := hstored
    exact hnone contract hstore

end ArchitectureService
end ProjectOS.Architecture
