import ProjectOS.Architecture.Bindings
import ProjectOS.Architecture.ContractInput

/-! The project contract as it is read from a dictionary and stored: the
implementation contract with the layers of the architecture and their rules. -/
namespace ProjectOS.Architecture
open Base Orchestration

def textItem (name : String) : Json → Result String
  | .str text => if Text.blank text then raise (name ++ " 必须是字符串数组") else .ok (Text.strip text)
  | _ => raise (name ++ " 必须是字符串数组")

/-- `_strings(value, name, allow_empty=True)`: one text stands for a list of one. -/
def strings (name : String) : Json → Result (List String)
  | .str text => .ok (if Text.blank text then [] else [Text.strip text])
  | .arr items => (collect (textItem name) items).map dedupe
  | _ => raise (name ++ " 必须是字符串数组")

def optionalString : Json → Result (Option String)
  | .null => .ok none
  | .str text => .ok (if Text.blank text then none else some (Text.strip text))
  | _ => raise "可选字符串字段不能是空值"

def optionalInt : Json → Result (Option Int)
  | .null => .ok none
  | .str text => if text = "" then .ok none else raise "可选 wave 必须是非负整数"
  | .int value => if value < 0 then raise "可选 wave 必须是非负整数" else .ok (some value)
  | _ => raise "可选 wave 必须是非负整数"

/-- The items of `for item in value`. -/
def items (value : Json) : Result (List Json) :=
  match value.iterate? with
  | some values => .ok values
  | none => .error (.typeError "object is not iterable")

/-- `str(raw.get(name, default)).strip()`. -/
def strippedText (raw : Json) (name : String) (default : Json) : String :=
  Text.strip (raw.getD name default).pyStr

namespace EntrypointContract

def optional (raw : Json) (name : String) : Result (Option String) :=
  match raw.get name with
  | .null => .ok none
  | .str text => .ok (if Text.blank text then none else some (Text.strip text))
  | _ => raise ("entrypoints." ++ name ++ " 必须是字符串")

def healthPathOf (raw : Json) : Result String :=
  match raw.getD "health_path" (.str "/health") with
  | .str text =>
      if Text.blank text then raise "entrypoints.health_path 必须是非空字符串"
      else .ok (Text.strip text)
  | _ => raise "entrypoints.health_path 必须是非空字符串"

def parse (raw : Json) : Result EntrypointContract := do
  if raw.isNull then .ok {}
  else
    raiseWhen (!raw.isDict) "Implementation Contract.entrypoints 必须是对象"
    .ok {
      healthPath := ← healthPathOf raw
      backendFile := ← optional raw "backend_file"
      backendImport := ← optional raw "backend_import"
      backendCommand := ← optional raw "backend_command"
      frontendFile := ← optional raw "frontend_file" }

end EntrypointContract

namespace HttpOperationContract

def openBrace : Char := Char.ofNat 123

def closeBrace : Char := Char.ofNat 125

/-- The placeholders of a path; nothing where a brace belongs to none. The
first argument is the name of the placeholder being read. -/
def placeholders : Option (List Char) → List Char → Option (List String)
  | none, [] => some []
  | some _, [] => none
  | none, c :: rest =>
      if c = openBrace then placeholders (some []) rest
      else if c = closeBrace then none
      else placeholders none rest
  | some name, c :: rest =>
      if c = closeBrace then
        if pythonName (String.ofList name) then
          (placeholders none rest).map (String.ofList name :: ·)
        else none
      else placeholders (some (name ++ [c])) rest

/-- `c.upper()` where the capitals are ASCII; any other character is in no method. -/
def upperChar (c : Char) : List Char :=
  if 'a' ≤ c && c ≤ 'z' then [Char.ofNat (c.toNat - 32)]
  else match c.toNat with
    | 0x131 => ['I']
    | 0x17F => ['S']
    | 0xDF => ['S', 'S']
    | 0xFB00 => ['F', 'F']
    | 0xFB01 => ['F', 'I']
    | 0xFB02 => ['F', 'L']
    | 0xFB03 => ['F', 'F', 'I']
    | 0xFB04 => ['F', 'F', 'L']
    | 0xFB05 => ['S', 'T']
    | 0xFB06 => ['S', 'T']
    | _ => [c]

def methods : List String := ["GET", "POST", "PUT", "PATCH", "DELETE", "HEAD", "OPTIONS"]

/-- `__post_init__`: the method in capitals and the path without a slash at its end. -/
def create (raw : HttpOperationContract) : Result HttpOperationContract := do
  let method := String.ofList ((Text.strip raw.method).toList.flatMap upperChar)
  raiseWhen (method ∉ methods) ("HttpOperationContract.method 不支持: " ++ raw.method)
  let path := Text.strip raw.path
  raiseWhen (!Text.startswith path "/" || '?' ∈ path.toList || '#' ∈ path.toList)
    "HttpOperationContract.path 必须是以 / 开头且不含 query/fragment 的路径"
  match placeholders none path.toList with
  | none => raise ("HttpOperationContract.path 包含非法参数: " ++ path)
  | some names => do
      raiseWhen (hasDuplicates names) ("HttpOperationContract.path 参数不能重复: " ++ path)
      let bare := stripTrailingSlashes path
      .ok { raw with method := method, path := if bare = "" then "/" else bare }

def parse (raw : Json) : Result HttpOperationContract := do
  raiseWhen (!raw.isDict) "API operations 中的元素必须是对象"
  create {
    method := strippedText raw "method" (.str "")
    path := strippedText raw "path" (.str "")
    requestSchema := ← optionalString (raw.get "request_schema")
    responseSchema := ← optionalString (raw.get "response_schema") }

end HttpOperationContract

namespace InterfaceContract

def kindAliases : List (String × String) := [
  ("endpoint", "api"), ("rest", "api"), ("http", "api"), ("http_endpoint", "api"),
  ("http_api", "api"), ("rest_api", "api"), ("api_endpoint", "api"), ("route", "api"),
  ("class", "symbol"), ("function", "symbol"), ("method", "symbol"), ("model", "data"),
  ("schema", "data"), ("message", "event"), ("topic", "event"), ("repository", "service"),
  ("repo", "service"), ("in_process_repository", "service"), ("repository_port", "service"),
  ("port", "service"), ("use_case", "service"), ("application_service", "service"),
  ("domain", "service"), ("service_interface", "service"), ("python_service", "service"),
  ("python_callable", "symbol"), ("python-callable", "symbol"), ("internal_service", "service"),
  ("worker", "service"), ("router", "api"), ("route_handler", "api"),
  ("http_handler_factory", "api"), ("controller", "api"), ("dto", "data"),
  ("model_schema", "data"), ("database", "data"), ("storage", "data"), ("orm", "data"),
  ("queue", "event"), ("provided", "service"), ("consumed", "service"), ("exception", "symbol"),
  ("entrypoint", "api"), ("process_entrypoint", "api"), ("process-entrypoint", "api"),
  ("lifecycle", "service"), ("dependency", "service")]

def kinds : List String := ["symbol", "service", "api", "data", "event"]

def kindHints : List (String × String) := [
  ("python_module", "symbol"), ("json_schema", "data"), ("browser_ui", "service"),
  ("http_api", "api"), ("rest_api", "api"), ("frontend", "service"), ("backend", "service")]

def normalKind (kind : String) : String :=
  let raw := Text.lower (Text.strip kind)
  (kindAliases.lookup raw).getD
    ((kindAliases.lookup (Text.replaceChar '-' '_' raw)).getD raw)

def kindMessage (kind : String) : String :=
  let raw := Text.lower (Text.strip kind)
  "InterfaceContract.kind 必须是 symbol/service/api/data/event，当前值: " ++ Text.quote raw ++
  (match kindHints.lookup raw with
  | some hint => "\n提示: " ++ Text.quote raw ++ " 应该使用 " ++ Text.quote hint
  | none => "") ++
  "\n\n请调用 select_interface_kind 工具获取可用的接口类型。" ++
  "\n不要创造新的类型名称，必须从标准的 5 种中选择。"

/-- `__post_init__`: the interface with its kind in normal form. -/
def create (raw : InterfaceContract) : Result InterfaceContract := do
  forEach (fun field =>
      raiseWhen (Text.blank field.2) ("InterfaceContract." ++ field.1 ++ " 不能为空"))
    [("interface_id", raw.interfaceId), ("kind", raw.kind), ("name", raw.name),
      ("owner_unit", raw.ownerUnit)]
  let kind := normalKind raw.kind
  raiseWhen (kind ∉ kinds) (kindMessage raw.kind)
  if kind = "api" then
    raiseWhen (hasDuplicates (raw.operations.map fun operation => (operation.method, operation.path)))
      ("API 接口 " ++ raw.interfaceId ++ " 的 operations 不能重复")
  else
    raiseWhen (!raw.operations.isEmpty)
      ("非 API 接口 " ++ raw.interfaceId ++ " 不能声明 HTTP operations")
  .ok { raw with kind := kind }

def parse (raw : Json) : Result InterfaceContract := do
  raiseWhen (!raw.isDict) "interfaces 中的元素必须是对象"
  let ownerFile ← optionalString (raw.get "owner_file")
  let signature ← optionalString (raw.get "signature")
  let inputSchema ← optionalString (raw.get "input_schema")
  let outputSchema ← optionalString (raw.get "output_schema")
  let errors ← strings "interfaces.errors" (raw.getD "errors" (.arr []))
  let constraints ← strings "interfaces.constraints" (raw.getD "constraints" (.arr []))
  let operations ← items (raw.getD "operations" (raw.getD "http_operations" (.arr [])))
  create {
    interfaceId := strippedText raw "interface_id" (raw.getD "id" (.str ""))
    kind := Text.lower (strippedText raw "kind" (.str "symbol"))
    name := strippedText raw "name" (.str "")
    ownerUnit := strippedText raw "owner_unit" (raw.getD "provider" (.str ""))
    ownerFile, signature, inputSchema, outputSchema, errors, constraints
    operations := ← collect HttpOperationContract.parse operations }

end InterfaceContract

namespace ImplementationUnit

def listOf (raw : Json) (name : String) (default : List String := []) : Result (List String) :=
  strings name (raw.getD name (.strs default))

def fieldsOf (raw : Json) : Result UnitFields := do
  let allowedPaths ← listOf raw "allowed_paths"
  let allowedRoots ← listOf raw "allowed_roots"
  let required ← FieldSemantics.coalesceAlias raw "required_paths" ["required_files"]
  let slot ← FieldSemantics.coalesceAlias raw "slot" ["output_slot"]
  let provides ← FieldSemantics.coalesceAlias raw "provides_interfaces" ["provides"]
  let consumes ← FieldSemantics.coalesceAlias raw "consumes_interfaces" ["consumes"]
  .ok {
    unitId := strippedText raw "unit_id" (.str "")
    layer := strippedText raw "layer" (.str "")
    objective := strippedText raw "objective" (.str "")
    -- The root of a directory grant becomes a pattern for all files below it.
    allowedPaths := dedupe (allowedPaths ++
      allowedRoots.map fun root => stripTrailingSlashes root ++ "/**")
    requiredPaths := ← strings "required_paths" (required.getD (.arr []))
    forbiddenPaths := ← listOf raw "forbidden_paths"
    dependsOn := ← listOf raw "depends_on"
    inputRefs := ← listOf raw "input_refs" ["architecture", "environment"]
    acceptanceCriteria := ← listOf raw "acceptance_criteria"
    constraints := ← listOf raw "constraints"
    nonGoals := ← listOf raw "non_goals"
    policyRefs := ← listOf raw "policy_refs"
    skillRefs := ← listOf raw "skill_refs"
    parallelGroup := ← optionalString (raw.get "parallel_group")
    outputKey := ← optionalString (raw.get "output_key")
    slot := ← optionalString (slot.getD .null)
    requirementIds := ← listOf raw "requirement_ids"
    wave := ← optionalInt (raw.get "wave")
    ownedFiles := ← listOf raw "owned_files"
    providesInterfaces := ← strings "provides_interfaces" (provides.getD (.arr []))
    consumesInterfaces := ← strings "consumes_interfaces" (consumes.getD (.arr []))
    providedSymbols := ← listOf raw "provided_symbols"
    requiredSymbols := ← listOf raw "required_symbols" }

def parse (raw : Json) : Result ImplementationUnit := do
  raiseWhen (!raw.isDict) "implementation_units 中的元素必须是对象"
  create (← fieldsOf raw)

end ImplementationUnit

namespace ImplementationContract

def create (raw : ContractFields) : Result ImplementationContract :=
  match h : raw.postInit with
  | .ok () => .ok ⟨raw, h⟩
  | .error e => .error e

/-- The contract without its layers. -/
def parseBody (raw : Json) : Result ImplementationContract := do
  raiseWhen (!raw.isDict || !(raw.get "schema_version").isInt 1)
    "Implementation Contract 必须包含 schema_version=1"
  match raw.get "implementation_units" with
  | .arr units => do
      let units ← collect ImplementationUnit.parse units
      let entrypoints ← EntrypointContract.parse (raw.getD "entrypoints" (raw.get "entrypoint"))
      let requiredFiles ← strings "required_files" (raw.getD "required_files" (.arr []))
      let interfaces ← items (raw.getD "interfaces" (.arr []))
      create {
        schemaVersion := 1
        compilationStrategy := (raw.getD "compilation_strategy" (.str "file")).pyStr
        units, entrypoints, requiredFiles
        interfaces := ← collect InterfaceContract.parse interfaces }
  | _ => raise "Implementation Contract.implementation_units 必须是数组"

def bodyKeys : List String := [
  "schema_version", "implementation_units", "entrypoints", "entrypoint", "required_files",
  "interfaces", "compilation_strategy"]

theorem parseBody_congr {raw raw' : Json} (hdict : raw.isDict = raw'.isDict)
    (h : ∀ key ∈ bodyKeys, raw.get? key = raw'.get? key) : parseBody raw = parseBody raw' := by
  have hget (key : String) (hkey : key ∈ bodyKeys) (default : Json) :
      raw.getD key default = raw'.getD key default := by
    rw [Json.getD, h key hkey, Json.getD]
  unfold parseBody Json.get
  simp only [hdict, hget "schema_version" (by decide),
    hget "implementation_units" (by decide), hget "entrypoints" (by decide),
    hget "entrypoint" (by decide), hget "required_files" (by decide),
    hget "interfaces" (by decide), hget "compilation_strategy" (by decide)]

end ImplementationContract

abbrev LayerMapping := Dict String (List String)

def readMapping (name : String) : LayerMapping → List (String × Json) → Result LayerMapping
  | seen, [] => .ok seen
  | seen, (layer, values) :: rest => do
      let texts ← strings (name ++ "." ++ layer) values
      readMapping name (seen.set (Text.strip layer) texts) rest

/-- `_raw_layer_mapping`. -/
def rawLayerMapping (name : String) : Json → Result LayerMapping
  | .null => .ok ∅
  | .obj fields => readMapping name ∅ fields
  | _ => raise ("Implementation Contract." ++ name ++ " 必须是对象")

def rulesOf (value : LayerMapping) (name : String) (allowMissing : Bool) (layer : String) :
    Result (String × List String) :=
  match value.get? layer with
  | some rules => .ok (layer, rules)
  | none =>
      if allowMissing then .ok (layer, [])
      else raise ("Implementation Contract." ++ name ++ " 缺少层: " ++ layer)

/-- `_normalize_layer_mapping`. -/
def normalizeLayerMapping (value : LayerMapping) (layers : List String) (name : String)
    (allowMissing : Bool) : Result LayerMapping :=
  if layers.isEmpty then do
    raiseWhen (!value.entries.isEmpty)
      ("Implementation Contract." ++ name ++ " 声明了层映射但缺少 layers")
    .ok ∅
  else do
    let unknown := value.keys.filter (· ∉ layers)
    raiseWhen (!unknown.isEmpty) ("Implementation Contract." ++ name ++ " 包含未声明层: " ++
      Text.join ", " (Text.sorted unknown))
    let rules ← collect (rulesOf value name allowMissing) layers
    .ok (Dict.ofList rules)

/-- Every text of the list says something. -/
def Filled (texts : List String) : Prop := ∀ text ∈ texts, Text.blank text = false

instance (texts : List String) : Decidable (Filled texts) :=
  inferInstanceAs (Decidable (∀ text ∈ texts, Text.blank text = false))

/-- The texts of a list as the contract stores them. -/
def storedTexts (texts : List String) : List String := dedupe (texts.map Text.strip)

theorem strip_strip (text : String) : Text.strip (Text.strip text) = Text.strip text :=
  Text.stripBy_stripBy Text.isSpace text

theorem storedTexts_strip (texts : List String) :
    storedTexts (texts.map Text.strip) = storedTexts texts := by
  have hstrip : Text.strip ∘ Text.strip = Text.strip := by
    funext text
    exact strip_strip text
  rw [storedTexts, storedTexts, List.map_map, hstrip]

/-- The contract stores a list as it is where no text repeats or is stripped. -/
theorem storedTexts_eq_self_iff {texts : List String} :
    storedTexts texts = texts ↔ texts.Nodup ∧ ∀ text ∈ texts, Text.strip text = text := by
  constructor
  · intro h
    constructor
    · rw [← h, storedTexts]
      exact nodup_dedupe _
    · intro text htext
      rw [← h, storedTexts, mem_dedupe] at htext
      obtain ⟨source, -, hsource⟩ := List.mem_map.mp htext
      rw [← hsource]
      exact strip_strip source
  · rintro ⟨hnodup, hstripped⟩
    have hsame : texts.map Text.strip = texts := by
      rw [List.map_congr_left hstripped, List.map_id']
    rw [storedTexts, hsame]
    exact dedupe_eq_self_iff.mpr hnodup

/-- A table of lists by name. -/
def rules (lists : List (String × List String)) : Json :=
  .obj (lists.map fun e => (e.1, .strs e.2))

theorem textItem_str_eq_ok {name text out : String} :
    textItem name (.str text) = .ok out ↔ Text.blank text = false ∧ Text.strip text = out := by
  cases hblank : Text.blank text <;> simp [textItem, hblank]

theorem strings_arr_eq_ok {name : String} {values : List Json} {out : List String} :
    strings name (.arr values) = .ok out ↔
      ∃ texts, List.Forall₂ (fun value text => textItem name value = .ok text) values texts ∧
        dedupe texts = out := by
  simp only [strings, map_eq_ok, collect_eq_ok]

@[simp] theorem strings_strs_eq_ok {name : String} {texts out : List String} :
    strings name (.strs texts) = .ok out ↔ Filled texts ∧ storedTexts texts = out := by
  rw [Json.strs, strings_arr_eq_ok]
  simp only [List.forall₂_map_left_iff, textItem_str_eq_ok, List.forall₂_and_left]
  constructor
  · rintro ⟨stored, ⟨hfilled, hstored⟩, rfl⟩
    rw [← List.forall₂_map_left_iff, List.forall₂_eq_eq_eq] at hstored
    exact ⟨hfilled, congrArg dedupe hstored⟩
  · rintro ⟨hfilled, rfl⟩
    refine ⟨_, ⟨hfilled, ?_⟩, rfl⟩
    rw [← List.forall₂_map_left_iff, List.forall₂_eq_eq_eq]

theorem readMapping_rules_eq_ok {name : String} {lists : List (String × List String)}
    {seen out : LayerMapping} :
    readMapping name seen (lists.map fun e => (e.1, .strs e.2)) = .ok out ↔
      (∀ e ∈ lists, Filled e.2) ∧
      lists.foldl (fun seen e => seen.set (Text.strip e.1) (storedTexts e.2)) seen = out := by
  induction lists generalizing seen with
  | nil => simp [readMapping]
  | cons e rest ih =>
    simp only [List.map_cons, readMapping, bind_eq_ok, strings_strs_eq_ok, ih,
      List.forall_mem_cons, List.foldl_cons]
    constructor
    · rintro ⟨_, ⟨hfilled, rfl⟩, hrest, hout⟩
      exact ⟨⟨hfilled, hrest⟩, hout⟩
    · rintro ⟨⟨hfilled, hrest⟩, hout⟩
      exact ⟨_, ⟨hfilled, rfl⟩, hrest, hout⟩

/-- A table is read list by list, under the stripped names. -/
theorem rawLayerMapping_rules_eq_ok {name : String} {lists : List (String × List String)}
    {out : LayerMapping} :
    rawLayerMapping name (rules lists) = .ok out ↔ (∀ e ∈ lists, Filled e.2) ∧
      Dict.ofList (lists.map fun e => (Text.strip e.1, storedTexts e.2)) = out := by
  rw [rules, rawLayerMapping, readMapping_rules_eq_ok, Dict.ofList, List.foldl_map]

theorem rulesOf_eq_ok {value : LayerMapping} {name layer : String} {allowMissing : Bool}
    {out : String × List String} :
    rulesOf value name allowMissing layer = .ok out ↔
      (allowMissing = false → layer ∈ value.keys) ∧ (layer, (value.get? layer).getD []) = out := by
  unfold rulesOf
  split
  · rename_i rules hrules
    have hkey : layer ∈ value.keys := Dict.mem_keys_iff.mpr ⟨rules, hrules⟩
    simp [hrules, hkey]
  · rename_i hnone
    have hkey : layer ∉ value.keys := Dict.get?_eq_none_iff.mp hnone
    cases allowMissing <;> simp [hnone, hkey]

/-- What `_normalize_layer_mapping` accepts: no other layers, and every layer
unless some may be missing. -/
theorem normalizeLayerMapping_eq_ok {value out : LayerMapping} {layers : List String}
    {name : String} {allowMissing : Bool} (hne : layers ≠ []) :
    normalizeLayerMapping value layers name allowMissing = .ok out ↔
      (∀ key ∈ value.keys, key ∈ layers) ∧
      (allowMissing = false → ∀ layer ∈ layers, layer ∈ value.keys) ∧
      Dict.ofList (layers.map fun layer => (layer, (value.get? layer).getD [])) = out := by
  have hempty : layers.isEmpty = false := by
    rw [List.isEmpty_eq_false_iff]
    exact hne
  rw [normalizeLayerMapping, hempty, if_neg Bool.false_ne_true]
  simp only [raiseWhen_bind_eq_ok, Bool.not_eq_false', List.isEmpty_iff, List.filter_eq_nil_iff,
    decide_eq_true_eq, not_not]
  simp only [bind_eq_ok, collect_eq_ok, rulesOf_eq_ok, List.forall₂_and_left]
  constructor
  · rintro ⟨hkeys, found, ⟨hlayers, hfound⟩, hout⟩
    rw [← List.forall₂_map_left_iff, List.forall₂_eq_eq_eq] at hfound
    exact ⟨hkeys, fun hmissing layer hlayer => hlayers layer hlayer hmissing,
      hfound ▸ Except.ok.inj hout⟩
  · rintro ⟨hkeys, hlayers, rfl⟩
    refine ⟨hkeys, _, ⟨fun layer hlayer hmissing => hlayers hmissing layer hlayer, ?_⟩, rfl⟩
    rw [← List.forall₂_map_left_iff, List.forall₂_eq_eq_eq]

structure ProjectContract extends ImplementationContract where
  layers : List String
  allowedDependencies : LayerMapping
  forbiddenImports : LayerMapping
  requiredTestTypes : List String
  pathMapping : LayerMapping

namespace ProjectContract

def mappingOf (raw : Json) (layers : List String) (name : String) (allowMissing : Bool) :
    Result LayerMapping := do
  let value ← rawLayerMapping name (raw.getD name (.obj []))
  normalizeLayerMapping value layers name allowMissing

/-- `ImplementationContract.parse`. The checks of the units come before those of
the layers here, which decides at most which refusal is reported. -/
def parse (raw : Json) : Result ProjectContract := do
  let body ← ImplementationContract.parseBody raw
  let layers ← strings "layers" (raw.getD "layers" (.arr []))
  .ok {
    body with
    layers := layers
    allowedDependencies := ← mappingOf raw layers "allowed_dependencies" false
    forbiddenImports := ← mappingOf raw layers "forbidden_imports" true
    requiredTestTypes :=
      ← strings "required_test_types" (raw.getD "required_test_types" (.arr []))
    pathMapping := ← mappingOf raw layers "path_mapping" false }

theorem parse_eq_ok {raw : Json} {contract : ProjectContract} :
    parse raw = .ok contract ↔
      ImplementationContract.parseBody raw = .ok contract.toImplementationContract ∧
      strings "layers" (raw.getD "layers" (.arr [])) = .ok contract.layers ∧
      mappingOf raw contract.layers "allowed_dependencies" false =
        .ok contract.allowedDependencies ∧
      mappingOf raw contract.layers "forbidden_imports" true = .ok contract.forbiddenImports ∧
      strings "required_test_types" (raw.getD "required_test_types" (.arr [])) =
        .ok contract.requiredTestTypes ∧
      mappingOf raw contract.layers "path_mapping" false = .ok contract.pathMapping := by
  simp only [parse, bind_eq_ok]
  constructor
  · rintro ⟨body, hbody, layers, hlayers, allowed, hallowed, forbidden, hforbidden, tests, htests,
      paths, hpaths, hcontract⟩
    cases hcontract
    exact ⟨hbody, hlayers, hallowed, hforbidden, htests, hpaths⟩
  · rintro ⟨hbody, hlayers, hallowed, hforbidden, htests, hpaths⟩
    exact ⟨_, hbody, _, hlayers, _, hallowed, _, hforbidden, _, htests, _, hpaths, rfl⟩

section rules
variable {raw : Json} {layers : List String} {name : String} {allowMissing : Bool}
  {lists : List (String × List String)}

theorem mappingOf_rules_eq_ok (hraw : raw.get? name = some (rules lists)) (hne : layers ≠ [])
    (hstripped : ∀ e ∈ lists, Text.strip e.1 = e.1) {out : LayerMapping} :
    mappingOf raw layers name allowMissing = .ok out ↔ (∀ e ∈ lists, Filled e.2) ∧
      (∀ key ∈ lists.map Prod.fst, key ∈ layers) ∧
      (allowMissing = false → ∀ layer ∈ layers, layer ∈ lists.map Prod.fst) ∧
      Dict.ofList (layers.map fun layer => (layer, ((Dict.ofList (lists.map fun e =>
        (e.1, storedTexts e.2))).get? layer).getD [])) = out := by
  have hlists : lists.map (fun e => (Text.strip e.1, storedTexts e.2)) =
      lists.map fun e => (e.1, storedTexts e.2) := by
    apply List.map_congr_left
    intro e he
    rw [hstripped e he]
  have hkeys (key : String) : key ∈ (Dict.ofList (lists.map fun e =>
      (e.1, storedTexts e.2))).keys ↔ key ∈ lists.map Prod.fst := by
    rw [Dict.mem_keys_ofList, List.map_map]
    rfl
  rw [mappingOf, Json.getD, hraw, Option.getD_some]
  simp only [bind_eq_ok, rawLayerMapping_rules_eq_ok, normalizeLayerMapping_eq_ok hne, hlists]
  constructor
  · rintro ⟨_, ⟨hfilled, rfl⟩, hknown, hall, hout⟩
    simp only [hkeys] at hknown hall
    exact ⟨hfilled, hknown, hall, hout⟩
  · rintro ⟨hfilled, hknown, hall, hout⟩
    refine ⟨_, ⟨hfilled, rfl⟩, ?_, ?_, hout⟩
    · simpa only [hkeys] using hknown
    · simpa only [hkeys] using hall

/-- The stored rules of a layer are the texts of the table. -/
theorem get?_of_mappingOf (hraw : raw.get? name = some (rules lists)) (hne : layers ≠ [])
    (hstripped : ∀ e ∈ lists, Text.strip e.1 = e.1) (hnodup : (lists.map Prod.fst).Nodup)
    {out : LayerMapping} (hout : mappingOf raw layers name allowMissing = .ok out)
    {layer : String} (hlayer : layer ∈ layers) {texts : List String}
    (htexts : (layer, texts) ∈ lists) : out.get? layer = some (storedTexts texts) := by
  obtain ⟨-, -, -, rfl⟩ := (mappingOf_rules_eq_ok hraw hne hstripped).mp hout
  have hsame : (Dict.ofList (lists.map fun e => (e.1, storedTexts e.2))).get? layer =
      some (storedTexts texts) := by
    rw [Dict.get?_eq_some_iff, Dict.entries_ofList]
    · exact List.mem_map.mpr ⟨_, htexts, rfl⟩
    · rw [List.map_map]
      exact hnodup
  rw [Dict.get?_ofList_iff]
  · exact List.mem_map.mpr ⟨layer, hlayer, by rw [hsame]; rfl⟩
  · intro a ha b hb hab
    obtain ⟨l, -, rfl⟩ := List.mem_map.mp ha
    obtain ⟨l', -, rfl⟩ := List.mem_map.mp hb
    cases hab
    rfl

end rules

end ProjectContract
end ProjectOS.Architecture
