import ProjectOS.Architecture.ImplementationContract

/-! The units a contract is compiled from: review artifacts are left to the
review node, and a unit with several files becomes one unit for each file. -/
namespace ProjectOS.Workflow
open Base Orchestration Architecture

namespace ImplementationContractCompiler

def isReviewArtifactUnit (unit : UnitFields) : Bool :=
  unit.unitId != "project-documents" &&
    (Text.replaceChar '_' '-' (Text.lower (Text.strip unit.unitId)) ∈
        ["review", "u-review", "project-review"] ||
      (unit.ownedFiles ++ unit.requiredPaths).any fun path =>
        Text.lower (Text.strip (workspaceRelative path)) = "review.md")

def fileRole (path : String) : String :=
  let normalized := workspaceRelative path
  let basename := Text.afterLast '/' normalized
  let inInterfaces := Text.contains ("/" ++ normalized ++ "/") "/interfaces/"
  if basename = "main.py" && Text.startswith normalized "backend/" then
    "只负责 FastAPI 组合根：创建 app、注册已存在的路由/异常处理、" ++
      "配置 lifespan 和健康入口；不得在此文件实现业务用例、数据库查询、" ++
      "Pydantic 业务 schema 或新的业务功能。"
  else if inInterfaces && basename ∈ ["routes.py", "router.py"] then
    "只负责 HTTP 路由适配：调用 application 用例端口并映射请求/响应，不实现领域规则或数据库访问。"
  else if inInterfaces && basename ∈ ["schemas.py", "dto.py"] then
    "只负责 HTTP 输入输出 schema 和序列化校验，不实现业务决策、事务或数据库访问。"
  else if inInterfaces && basename ∈ ["dependencies.py", "auth.py"] then
    "只负责依赖注入和认证上下文适配，返回 application 所需端口，不实现业务用例。"
  else if inInterfaces && basename ∈ ["errors.py", "exceptions.py"] then
    "只负责异常到 HTTP 响应的映射，不新增业务错误或修改领域状态。"
  else "只负责完整文件 " ++ normalized ++ "，不得修改其他文件或承担同目录其他文件的职责。"

def fileObjective (unit : UnitFields) (path : String) : String :=
  fileRole path ++ " 原架构目标：" ++ unit.objective

/-- What a file adds to the id of its unit. -/
def fileSuffix (index : Nat) (path : String) : String :=
  let suffix := Text.stripBy (fun c => c = '_' || c = '.' || c = '-')
    (Text.collapse Text.isSafeChar '_' path)
  if suffix = "" then toString (index + 1) else suffix

def childId (unit : UnitFields) (index : Nat) (path : String) : String :=
  unit.unitId ++ "-" ++ fileSuffix index path

def fileChild (unit : UnitFields) (index : Nat) (path : String) : UnitFields :=
  let required := unit.requiredPaths.filter (· = path)
  { unit with
    unitId := childId unit index path
    objective := fileObjective unit path
    allowedPaths := [path]
    requiredPaths := if required.isEmpty then [path] else required
    dependsOn := []
    ownedFiles := [path]
    outputKey := some (Text.orElse unit.outputKey unit.unitId ++ "_" ++ fileSuffix index path)
    providedSymbols := if unit.ownedFiles.length = 1 then unit.providedSymbols else [] }

/-- A unit with at most one file stays as it is. -/
def pieces (unit : UnitFields) : List UnitFields :=
  if unit.ownedFiles.length ≤ 1 then [unit]
  else unit.ownedFiles.zipIdx.map fun (path, index) => fileChild unit index path

structure Expansion where
  children : Dict String (List String) := ∅
  sourceByChild : Dict String ImplementationUnit := ∅
  expanded : List ImplementationUnit := []

def expandUnit (acc : Expansion) (unit : ImplementationUnit) : Result Expansion := do
  raiseWhen (unit.ownedFiles.isEmpty && unit.unitId != "project-documents")
    ("实现单元 " ++ Text.quote unit.unitId ++ " 必须声明一个或多个 concrete owned_files；" ++
      "目录授权请使用 allowed_paths/allowed_roots，不能作为交付边界")
  let parts ← collect ImplementationUnit.create (pieces unit.toUnitFields)
  .ok {
    children := acc.children.set unit.unitId (parts.map (·.unitId))
    sourceByChild := parts.foldl (fun d part => d.set part.unitId unit) acc.sourceByChild
    expanded := acc.expanded ++ parts }

def expand : Expansion → List ImplementationUnit → Result Expansion
  | acc, [] => .ok acc
  | acc, unit :: rest => do
      let acc ← expandUnit acc unit
      expand acc rest

/-- A dependency on a unit becomes one on each of its pieces. -/
def rewriteDependencies (expansion : Expansion) (unit : ImplementationUnit) :
    Result ImplementationUnit := do
  let source ← subscript expansion.sourceByChild unit.unitId
  let deps ← collect (subscript expansion.children) source.dependsOn
  ImplementationUnit.create { unit.toUnitFields with dependsOn := deps.flatten }

def splitFileUnits (units : List ImplementationUnit) : Result (List ImplementationUnit) := do
  let expansion ← expand {} units
  collect (rewriteDependencies expansion) expansion.expanded

def pieceIds (unit : UnitFields) : List String := (pieces unit).map (·.unitId)

section FileChild
variable (unit : UnitFields) (index : Nat) (path : String)

@[simp] theorem fileChild_unitId : (fileChild unit index path).unitId = childId unit index path := rfl

@[simp] theorem fileChild_ownedFiles : (fileChild unit index path).ownedFiles = [path] := rfl

@[simp] theorem fileChild_allowedPaths : (fileChild unit index path).allowedPaths = [path] := rfl

theorem fileChild_requiredPaths {p : String} (h : p ∈ (fileChild unit index path).requiredPaths) :
    p = path := by
  simp only [fileChild] at h
  split at h
  · exact List.mem_singleton.mp h
  · exact of_decide_eq_true (List.mem_filter.mp h).2

/-- The texts of a file unit are those of its unit and the path. -/
theorem fileChild_textLists {texts : List String} {text : String}
    (hmem : texts ∈ (fileChild unit index path).textLists) (htext : text ∈ texts) :
    text = path ∨ ∃ texts ∈ unit.textLists, text ∈ texts := by
  simp only [UnitFields.textLists, fileChild, List.mem_cons, List.not_mem_nil, or_false] at hmem
  rcases hmem with rfl | rfl | rfl | rfl | rfl | rfl | rfl | rfl | rfl | rfl | rfl | rfl | rfl |
    rfl | rfl
  case inl => exact .inl (List.mem_singleton.mp htext)
  case inr.inl => exact .inl (fileChild_requiredPaths unit index path htext)
  case inr.inr.inr.inl => cases htext
  case inr.inr.inr.inr.inr.inr.inr.inr.inr.inr.inr.inr.inr.inl =>
    split at htext
    · exact .inr ⟨unit.providedSymbols, by simp [UnitFields.textLists], htext⟩
    · cases htext
  all_goals exact .inr ⟨_, by simp [UnitFields.textLists], htext⟩

end FileChild

theorem fileChild_accepted {unit : UnitFields} (h : unit.postInit = .ok ()) {path : String}
    (hpath : path ∈ unit.ownedFiles) (index : Nat) :
    (fileChild unit index path).postInit = .ok () := by
  rw [UnitFields.postInit_eq_ok] at h ⊢
  obtain ⟨⟨hid, hlayer, hobjective⟩, -, htexts, howned, -, -, hwave⟩ := h
  have hfile := howned path hpath
  have hchildId : Text.blank (childId unit index path) = false := by
    simp [childId, Text.blank_append, hid]
  have hchildObjective : Text.blank (fileObjective unit path) = false := by
    simp [fileObjective, Text.blank_append, hobjective]
  refine ⟨⟨hchildId, hlayer, hchildObjective⟩, List.cons_ne_nil _ _, ?_, ?_, ?_, ?_, hwave⟩
  · intro texts hmem text htext
    rcases fileChild_textLists unit index path hmem htext with rfl | ⟨texts', hmem', htext'⟩
    · exact not_blank_of_concreteFile hfile
    · exact htexts texts' hmem' text htext'
  · intro p hp
    rw [fileChild_ownedFiles, List.mem_singleton] at hp
    exact hp ▸ hfile
  · intro p hp
    exact fileChild_requiredPaths unit index path hp ▸ hfile
  · intro _ p hp
    rw [fileChild_ownedFiles, List.mem_singleton]
    exact fileChild_requiredPaths unit index path hp

theorem pieces_accepted {unit : UnitFields} (h : unit.postInit = .ok ()) :
    ∀ piece ∈ pieces unit, piece.postInit = .ok () := by
  intro piece hpiece
  unfold pieces at hpiece
  split at hpiece
  · rwa [List.mem_singleton.mp hpiece]
  · obtain ⟨⟨path, index⟩, hmem, rfl⟩ := List.mem_map.mp hpiece
    exact fileChild_accepted h (List.fst_mem_of_mem_zipIdx hmem) index

/-- The pieces of a unit as accepted units. -/
def parts (unit : ImplementationUnit) : List ImplementationUnit :=
  (pieces unit.toUnitFields).pmap (fun piece h => ⟨piece, h⟩) (pieces_accepted unit.accepted)

theorem map_fields_parts (unit : ImplementationUnit) :
    (parts unit).map (·.toUnitFields) = pieces unit.toUnitFields := by
  simp [parts, List.map_pmap]

theorem map_unitId_parts (unit : ImplementationUnit) :
    (parts unit).map (·.unitId) = pieceIds unit.toUnitFields := by
  rw [pieceIds, ← map_fields_parts, List.map_map]
  rfl

theorem collect_create_pieces (unit : ImplementationUnit) :
    collect ImplementationUnit.create (pieces unit.toUnitFields) = .ok (parts unit) := by
  have hall : ∀ (fields : List UnitFields) (h : ∀ piece ∈ fields, piece.postInit = .ok ()),
      collect ImplementationUnit.create fields =
        .ok (fields.pmap (fun piece h => ⟨piece, h⟩) h) := by
    intro fields h
    induction fields with
    | nil => rfl
    | cons piece rest ih =>
      rw [List.forall_mem_cons] at h
      simp [collect, ImplementationUnit.create_of_accepted h.1, ih h.2]
  exact hall _ (pieces_accepted unit.accepted)

def OwnsFiles (unit : UnitFields) : Prop :=
  unit.ownedFiles = [] → unit.unitId = "project-documents"

/-- The expansion of a list of units that own their files. -/
def expansionOf (acc : Expansion) (units : List ImplementationUnit) : Expansion where
  children := (units.map fun unit => (unit.unitId, pieceIds unit.toUnitFields)).foldl
    (fun d entry => d.set entry.1 entry.2) acc.children
  sourceByChild := (units.flatMap fun unit => (parts unit).map fun part => (part.unitId, unit)).foldl
    (fun d entry => d.set entry.1 entry.2) acc.sourceByChild
  expanded := acc.expanded ++ units.flatMap parts

theorem expand_eq_ok {acc result : Expansion} {units : List ImplementationUnit} :
    expand acc units = .ok result ↔
      (∀ unit ∈ units, OwnsFiles unit.toUnitFields) ∧ result = expansionOf acc units := by
  induction units generalizing acc with
  | nil =>
    simp [expand, expansionOf, eq_comm]
  | cons unit rest ih =>
    have hown : (unit.ownedFiles.isEmpty && unit.unitId != "project-documents") = false ↔
        OwnsFiles unit.toUnitFields := by
      simp [OwnsFiles]
    have hstep (acc' : Expansion) : expandUnit acc unit = .ok acc' ↔
        OwnsFiles unit.toUnitFields ∧ acc' = expansionOf acc [unit] := by
      rw [expandUnit, raiseWhen_bind_eq_ok, hown, collect_create_pieces]
      simp [expansionOf, map_unitId_parts, List.foldl_map, eq_comm]
    have hcons : expansionOf (expansionOf acc [unit]) rest = expansionOf acc (unit :: rest) := by
      simp [expansionOf, List.foldl_append]
    simp only [expand, bind_eq_ok, hstep, ih, List.forall_mem_cons]
    constructor
    · rintro ⟨_, ⟨hunit, rfl⟩, hrest, rfl⟩
      exact ⟨⟨hunit, hrest⟩, hcons⟩
    · rintro ⟨⟨hunit, hrest⟩, rfl⟩
      exact ⟨_, ⟨hunit, rfl⟩, hrest, hcons.symm⟩

/-- Each piece with the unit it comes from. -/
def sourced (units : List ImplementationUnit) : List (ImplementationUnit × ImplementationUnit) :=
  units.flatMap fun unit => (parts unit).map fun part => (part, unit)

def allPieceIds (units : List ImplementationUnit) : List String :=
  units.flatMap fun unit => pieceIds unit.toUnitFields

theorem map_fst_sourced (units : List ImplementationUnit) :
    (sourced units).map Prod.fst = units.flatMap parts := by
  simp [sourced, List.map_flatMap, Function.comp_def]

theorem map_unitId_sourced (units : List ImplementationUnit) :
    (sourced units).map (·.1.unitId) = allPieceIds units := by
  simp [sourced, allPieceIds, List.map_flatMap, Function.comp_def, map_unitId_parts]

/-- The unit ids, and the ids of all their pieces, are distinct. -/
structure DistinctPieces (units : List ImplementationUnit) : Prop where
  unitIds : (units.map (·.unitId)).Nodup
  pieceIds : (allPieceIds units).Nodup

theorem children_eq_some_iff {units : List ImplementationUnit} (h : DistinctPieces units)
    {d : String} {ids : List String} :
    (expansionOf {} units).children.get? d = some ids ↔
      ∃ unit ∈ units, unit.unitId = d ∧ pieceIds unit.toUnitFields = ids := by
  have hentries := Dict.entries_ofList
    (units.map fun unit => (unit.unitId, pieceIds unit.toUnitFields))
    (by simpa [Function.comp_def] using h.unitIds)
  rw [Dict.get?_eq_some_iff, expansionOf]
  change _ ∈ (Dict.ofList _).entries ↔ _
  simp [hentries]

theorem source_of_sourced {units : List ImplementationUnit} (h : DistinctPieces units)
    {part source : ImplementationUnit} (hmem : (part, source) ∈ sourced units) :
    (expansionOf {} units).sourceByChild.get? part.unitId = some source := by
  have hentries := Dict.entries_ofList
    (units.flatMap fun unit => (parts unit).map fun part => (part.unitId, unit))
    (by simpa [List.map_flatMap, Function.comp_def, map_unitId_parts, allPieceIds] using h.pieceIds)
  rw [Dict.get?_eq_some_iff, expansionOf]
  change _ ∈ (Dict.ofList _).entries
  obtain ⟨unit, hunit, hpart⟩ := List.mem_flatMap.mp hmem
  obtain ⟨_, hpart, heq⟩ := List.mem_map.mp hpart
  cases heq
  rw [hentries]
  exact List.mem_flatMap.mpr ⟨_, hunit, List.mem_map_of_mem hpart⟩

/-- A rewritten piece depends on all pieces of the units its own unit depends on. -/
structure Rewritten (units : List ImplementationUnit) (part source out : ImplementationUnit) :
    Prop where
  sourced : (part, source) ∈ sourced units
  known : ∀ d ∈ source.dependsOn, ∃ unit ∈ units, unit.unitId = d
  fields : out.toUnitFields = { part.toUnitFields with dependsOn := out.dependsOn }
  mem_dependsOn : ∀ d, d ∈ out.dependsOn ↔
    ∃ unit ∈ units, unit.unitId ∈ source.dependsOn ∧ d ∈ pieceIds unit.toUnitFields

theorem rewriteDependencies_eq_ok {units : List ImplementationUnit} (h : DistinctPieces units)
    {part source out : ImplementationUnit} (hmem : (part, source) ∈ sourced units)
    (hok : rewriteDependencies (expansionOf {} units) part = .ok out) :
    Rewritten units part source out := by
  simp only [rewriteDependencies, bind_eq_ok, subscript_eq_ok, source_of_sourced h hmem,
    Option.some.injEq, exists_eq_left'] at hok
  obtain ⟨deps, hdeps, hout⟩ := hok
  have hfields := ImplementationUnit.fields_of_create hout
  have hall : ∀ d ∈ source.dependsOn, ∃ ids ∈ deps,
      (expansionOf {} units).children.get? d = some ids := fun d hd => by
    simpa using collect_mem hdeps hd
  refine ⟨hmem, ?_, by rw [hfields], ?_⟩
  · intro d hd
    obtain ⟨ids, -, hids⟩ := hall d hd
    obtain ⟨unit, hunit, hid, -⟩ := (children_eq_some_iff h).mp hids
    exact ⟨unit, hunit, hid⟩
  · intro d
    rw [hfields]
    simp only [List.mem_flatten]
    constructor
    · rintro ⟨ids, hids, hd⟩
      obtain ⟨dep, hdep, hget⟩ := mem_of_collect hdeps hids
      obtain ⟨unit, hunit, rfl, rfl⟩ := (children_eq_some_iff h).mp (subscript_eq_ok.mp hget)
      exact ⟨unit, hunit, hdep, hd⟩
    · rintro ⟨unit, hunit, hdep, hd⟩
      obtain ⟨ids, hids, hget⟩ := hall _ hdep
      rw [(children_eq_some_iff h).mpr ⟨unit, hunit, rfl, rfl⟩] at hget
      exact ⟨ids, hids, Option.some.inj hget ▸ hd⟩

theorem withDependencies_accepted {unit : UnitFields} (h : unit.postInit = .ok ())
    {deps : List String} (hdeps : ∀ d ∈ deps, Text.blank d = false) :
    ({ unit with dependsOn := deps } : UnitFields).postInit = .ok () := by
  rw [UnitFields.postInit_eq_ok] at h ⊢
  obtain ⟨htext, hallowed, htexts, hrest⟩ := h
  refine ⟨htext, hallowed, ?_, hrest⟩
  intro texts hmem text hin
  have hcases : texts = deps ∨ texts ∈ unit.textLists := by
    rw [UnitFields.textLists] at hmem ⊢
    grind
  rcases hcases with rfl | hunit
  · exact hdeps text hin
  · exact htexts texts hunit text hin

theorem pieceIds_not_blank {unit : ImplementationUnit} {d : String}
    (h : d ∈ pieceIds unit.toUnitFields) : Text.blank d = false := by
  obtain ⟨piece, hpiece, rfl⟩ := List.mem_map.mp h
  exact (UnitFields.postInit_eq_ok.mp (pieces_accepted unit.accepted piece hpiece)).1.1

theorem rewriteDependencies_isOk {units : List ImplementationUnit} (h : DistinctPieces units)
    {part source : ImplementationUnit} (hmem : (part, source) ∈ sourced units)
    (hknown : ∀ d ∈ source.dependsOn, ∃ unit ∈ units, unit.unitId = d) :
    ∃ out, rewriteDependencies (expansionOf {} units) part = .ok out := by
  have hdeps : ∃ deps, collect (subscript (expansionOf {} units).children) source.dependsOn =
      .ok deps := by
    rw [collect_isOk_iff]
    intro d hd
    obtain ⟨unit, hunit, rfl⟩ := hknown d hd
    exact ⟨_, subscript_eq_ok.mpr ((children_eq_some_iff h).mpr ⟨unit, hunit, rfl, rfl⟩)⟩
  obtain ⟨deps, hdeps⟩ := hdeps
  have hblank : ∀ d ∈ deps.flatten, Text.blank d = false := by
    intro d hd
    obtain ⟨ids, hids, hin⟩ := List.mem_flatten.mp hd
    obtain ⟨dep, -, hget⟩ := mem_of_collect hdeps hids
    obtain ⟨unit, -, -, rfl⟩ := (children_eq_some_iff h).mp (subscript_eq_ok.mp hget)
    exact pieceIds_not_blank hin
  refine ⟨⟨_, withDependencies_accepted part.accepted hblank⟩, ?_⟩
  simp only [rewriteDependencies, bind_eq_ok, subscript_eq_ok, source_of_sourced h hmem,
    Option.some.injEq, exists_eq_left']
  exact ⟨deps, hdeps, ImplementationUnit.create_of_accepted _⟩

theorem splitFileUnits_eq_ok {units out : List ImplementationUnit}
    (hok : splitFileUnits units = .ok out) :
    (∀ unit ∈ units, OwnsFiles unit.toUnitFields) ∧
      List.Forall₂ (fun entry out => rewriteDependencies (expansionOf {} units) entry.1 = .ok out)
        (sourced units) out := by
  simp only [splitFileUnits, bind_eq_ok, expand_eq_ok] at hok
  obtain ⟨_, ⟨hown, rfl⟩, hout⟩ := hok
  refine ⟨hown, ?_⟩
  rw [collect_eq_ok] at hout
  have hexpanded : (expansionOf {} units).expanded = (sourced units).map Prod.fst := by
    rw [map_fst_sourced]
    rfl
  rwa [hexpanded, List.forall₂_map_left_iff] at hout

/-- Whatever the ids, the pieces come out in order, with their dependencies rewritten. -/
theorem splitFileUnits_fields {units out : List ImplementationUnit}
    (hok : splitFileUnits units = .ok out) :
    List.Forall₂ (fun entry out : ImplementationUnit => out.toUnitFields =
        { entry.toUnitFields with dependsOn := out.dependsOn })
      (units.flatMap parts) out := by
  rw [← map_fst_sourced, List.forall₂_map_left_iff]
  refine (splitFileUnits_eq_ok hok).2.imp fun entry out h => ?_
  simp only [rewriteDependencies, bind_eq_ok] at h
  obtain ⟨_, _, _, _, hcreate⟩ := h
  rw [ImplementationUnit.fields_of_create hcreate]

theorem pieces_ne_nil (unit : UnitFields) : pieces unit ≠ [] := by
  unfold pieces
  split
  · exact List.cons_ne_nil _ _
  · rename_i hmany
    intro hnil
    have hnone : unit.ownedFiles = [] := by simpa using congrArg List.length hnil
    simp [hnone] at hmany

theorem exists_sourced {units : List ImplementationUnit} {source : ImplementationUnit}
    (h : source ∈ units) : ∃ part, (part, source) ∈ sourced units := by
  have hparts : parts source ≠ [] := by
    intro hnil
    apply pieces_ne_nil source.toUnitFields
    rw [← map_fields_parts, hnil, List.map_nil]
  obtain ⟨part, hpart⟩ := List.exists_mem_of_ne_nil _ hparts
  exact ⟨part, List.mem_flatMap.mpr ⟨source, h, List.mem_map_of_mem hpart⟩⟩

theorem source_mem {units : List ImplementationUnit} {part source : ImplementationUnit}
    (h : (part, source) ∈ sourced units) : source ∈ units ∧ part ∈ parts source := by
  obtain ⟨unit, hunit, hpart⟩ := List.mem_flatMap.mp h
  obtain ⟨_, hpart, heq⟩ := List.mem_map.mp hpart
  cases heq
  exact ⟨hunit, hpart⟩

theorem splitFileUnits_rewritten {units out : List ImplementationUnit} (h : DistinctPieces units)
    (hok : splitFileUnits units = .ok out) :
    List.Forall₂ (fun entry out => Rewritten units entry.1 entry.2 out) (sourced units) out := by
  obtain ⟨-, hall⟩ := splitFileUnits_eq_ok hok
  rw [List.forall₂_iff_get] at hall ⊢
  exact ⟨hall.1, fun i hi ho => rewriteDependencies_eq_ok h (List.get_mem _ _) (hall.2 i hi ho)⟩

/-- Splitting succeeds when files are owned and no dependency leaves the list. -/
theorem splitFileUnits_isOk_iff {units : List ImplementationUnit} (h : DistinctPieces units) :
    (∃ out, splitFileUnits units = .ok out) ↔
      (∀ unit ∈ units, OwnsFiles unit.toUnitFields) ∧
        ∀ source ∈ units, ∀ d ∈ source.dependsOn, ∃ unit ∈ units, unit.unitId = d := by
  constructor
  · rintro ⟨out, hok⟩
    refine ⟨(splitFileUnits_eq_ok hok).1, fun source hsource => ?_⟩
    obtain ⟨part, hpart⟩ := exists_sourced hsource
    obtain ⟨_, -, hrewritten⟩ := exists_right_of_forall₂ (splitFileUnits_rewritten h hok) hpart
    exact hrewritten.known
  · rintro ⟨hown, hknown⟩
    simp only [splitFileUnits, bind_eq_ok, expand_eq_ok]
    have hall : ∃ out, collect (rewriteDependencies (expansionOf {} units))
        (expansionOf {} units).expanded = .ok out := by
      rw [collect_isOk_iff]
      intro part hpart
      have hsourced : part ∈ (sourced units).map Prod.fst := by rwa [map_fst_sourced]
      obtain ⟨⟨_, source⟩, hmem, rfl⟩ := List.mem_map.mp hsourced
      exact rewriteDependencies_isOk h hmem (hknown source (source_mem hmem).1)
    exact hall.imp fun out hout => ⟨_, ⟨hown, rfl⟩, hout⟩

end ImplementationContractCompiler
end ProjectOS.Workflow
