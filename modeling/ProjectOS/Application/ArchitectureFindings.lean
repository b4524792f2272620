import ProjectOS.Architecture.Designs
import ProjectOS.Base.JsonText
import ProjectOS.Orchestration.State

/-! What a resume reads out of the error of a failed architecture integration: the
design at fault, found among the staged designs, and the diagnostic it is given. -/
namespace ProjectOS.Application
open Base Orchestration Architecture.Designs

namespace Finding

/-- `[A-Za-z0-9]` and the given characters. -/
def inClass (extra : List Char) (c : Char) : Bool :=
  Text.isAsciiLetter c || Text.isAsciiDigit c || c ∈ extra

def nameChar : Char → Bool := inClass ['.', '_', '-']

def pathChar : Char → Bool := inClass ['.', '_', '/', '-']

/-- `\s+`. -/
def skipSpace : List Char → Option (List Char)
  | [] => none
  | c :: cs => if Text.isSpace c then some (cs.dropWhile Text.isSpace) else none

def skipText (text : String) (cs : List Char) : Option (List Char) :=
  if text.toList.isPrefixOf cs then some (cs.drop text.toList.length) else none

/-- The longest run of the class, at least one character. -/
def takeToken (p : Char → Bool) (cs : List Char) : Option (String × List Char) :=
  if cs.takeWhile p = [] then none else some (String.ofList (cs.takeWhile p), cs.dropWhile p)

/-- `lead\s+([A-Za-z0-9._-]+)\s+text...` at this position. The classes next to
each other are disjoint, so that nothing is given back. -/
def named (lead : String) (texts : List String) (cs : List Char) : Option (String × List Char) := do
  let cs ← skipSpace (← skipText lead cs)
  let (name, cs) ← takeToken nameChar cs
  let cs ← texts.foldlM (fun cs text => do skipText text (← skipSpace cs)) cs
  some (name, cs)

def search {α : Type} (matchAt : List Char → Option α) (error : String) : Option α :=
  error.toList.tails.findSome? matchAt

def undeclaredInterface : String → Option (String × String) := search fun cs => do
  let (design, cs) ← named "实现设计" ["引用了未声明的接口:"] cs
  let (interface, _) ← takeToken nameChar (cs.dropWhile Text.isSpace)
  some (design, interface)

def requiredPathNotOwned : String → Option (String × String) := search fun cs => do
  let (unitId, cs) ← named "实现单元" ["的 required_paths", "必须属于 owned_files:"] cs
  let (path, _) ← takeToken pathChar (cs.dropWhile Text.isSpace)
  some (unitId, path)

/-- Further files, each behind white space; the fuel bounds their number. -/
def moreFiles : Nat → List Char → List Char
  | 0, _ => []
  | fuel + 1, cs =>
      let gap := cs.takeWhile Text.isSpace
      let rest := cs.dropWhile Text.isSpace
      if gap = [] || rest.takeWhile pathChar = [] then []
      else gap ++ rest.takeWhile pathChar ++ moreFiles fuel (rest.dropWhile pathChar)

def requiredFileNotOwned : String → Option String := search fun cs => do
  let cs ← skipText "ArchitectureBlueprint.required_file_not_owned:" cs
  let (first, cs) ← takeToken (inClass ['.', '_', '/', ',', '-']) (cs.dropWhile Text.isSpace)
  some (first ++ String.ofList (moreFiles cs.length cs))

def moduleParentMismatch : String → Option String := search fun cs =>
  (named "模块设计" ["未引用当前总体蓝图"] cs).map (·.1)

def implementationParentMismatch : String → Option String := search fun cs =>
  (named "实现设计" ["未引用已存在的模块设计"] cs).map (·.1)

/-- The second group may hold white space, which is stripped from it. -/
def unknownImplementationDependency : String → Option (String × String) := search fun cs => do
  let (unitId, cs) ← named "实现单元" ["依赖不存在的实现单元:"] cs
  let (dependencies, _) ← takeToken
    (fun c => inClass ['.', '_', ',', '-'] c || Text.isSpace c) cs
  some (unitId, Text.strip dependencies)

def modulePurposeMismatch : String → Option String := search fun cs =>
  (named "模块设计" ["的 purpose", "必须与 Blueprint 一致"] cs).map (·.1)

end Finding

/-- The staged designs: the content of a reference whose manifest holds, and how
`parse_design` reads a content. -/
structure StagedDesigns where
  load : (artifactKey workItemId slot : String) → Option String
  parse : String → Option Design

namespace StagedDesigns
variable (designs : StagedDesigns) (plan : ExecutionPlan) (state : RunState)

def content (item : WorkItem) : Option String :=
  designs.load "architecture" item.id (item.slot.getD "")

def design (item : WorkItem) : Option Design := (designs.content item).bind designs.parse

def isPart (item : WorkItem) : Bool :=
  item.agentId = "architecture_agent" && item.executionMode = .partitioned

def isImplementation (item : WorkItem) : Bool :=
  isPart item && Text.startswith (item.slot.getD "") "implementation-"

/-- `item.delivery_contract["architecture"]`, where it is a dictionary. -/
def contractOf (item : WorkItem) : Option Json :=
  match Json.lookup "architecture" (item.deliveryContract.getD []) with
  | some contract => if contract.isDict then some contract else none
  | none => none

def declaredModule (item : WorkItem) : Option String :=
  match (contractOf item).map fun contract : Json => contract.get "module_id" with
  | some (.str moduleId) => some moduleId
  | _ => none

def declaredDepth (item : WorkItem) : Option Int :=
  match (contractOf item).map fun contract : Json => contract.get "depth" with
  | some (.int depth) => some depth
  | _ => none

/-- The units a content names that is no valid design; only a dictionary has them. -/
def rawUnitIds (raw : Json) : Result (List String) :=
  if !raw.isDict then .error (.attributeError "get")
  else match raw.get "depth", raw.get "implementation_units" with
    | .int 2, .arr units => .ok (units.filterMap fun unit =>
        match unit.get? "unit_id" with
        | some (.str unitId) => some unitId
        | _ => none)
    | _, _ => .ok []

/-- One turn of the loop over the items; a content that cannot be loaded leaves
the one of the turn before. -/
def unitOwner (unitId : String) (before : Option String) (item : WorkItem) :
    Result (Option String × Bool) :=
  if !isImplementation item || !state.hasCompleted item.id then .ok (before, false)
  else
    let current := (designs.content item).or before
    match (designs.content item).bind designs.parse with
    | some (.implementation design _ _) => .ok (current, unitId ∈ design.unitIds)
    | some _ => .ok (current, false)
    | none =>
        match current.bind Json.loads with
        | none => .ok (current, false)
        | some raw => do .ok (current, unitId ∈ (← rawUnitIds raw))

def unitOwnersFrom (unitId : String) : Option String → List WorkItem → Result (List WorkItem)
  | _, [] => .ok []
  | before, item :: items => do
      let (current, owns) ← designs.unitOwner state unitId before item
      let owners ← unitOwnersFrom unitId current items
      .ok (if owns then item :: owners else owners)

/-- `_architecture_implementation_owners_for_unit`. -/
def implementationOwnersForUnit (unitId : String) : Result (List WorkItem) :=
  designs.unitOwnersFrom state unitId none plan.workItems

/-- `_architecture_module_design_owners_for_design_id`. -/
def moduleDesignOwners (designId : String) : List WorkItem :=
  plan.workItems.filter fun item =>
    isPart item && item.stageId = some "architecture_module" && state.hasCompleted item.id &&
      match designs.design item with
      | some (.module design _) => design.designId = designId
      | _ => false

/-- `_architecture_implementation_design_owners_for_design_id`. -/
def implementationDesignOwners (designId : String) : List WorkItem :=
  plan.workItems.filter fun item =>
    isImplementation item && state.hasCompleted item.id &&
      match designs.design item with
      | some (.implementation design _ _) => design.designId = designId
      | _ => false

def one {α : Type} : List α → Option α
  | [x] => some x
  | _ => none

/-- `_architecture_current_module_design_id`. -/
def currentModuleDesignId (owner : WorkItem) : Option String :=
  match declaredModule owner with
  | none => none
  | some moduleId =>
      if moduleId = "" then none
      else one (plan.workItems.filterMap fun item =>
        if item.id ∈ owner.dependencyIds && isPart item && item.stageId = some "architecture_module" &&
            declaredModule item = some moduleId && state.hasCompleted item.id then
          match designs.design item with
          | some (.module design _) =>
              if design.moduleId = moduleId then some design.designId else none
          | _ => none
        else none)

/-- `depends_on_modules` of the contract, if it lists names. -/
def dependencyModules (owner : WorkItem) : List String :=
  match (contractOf owner).map fun contract : Json => contract.get "depends_on_modules" with
  | some (.arr items) =>
      let names := items.filterMap fun item =>
        match item with
        | .str name => if name = "" then none else some name
        | _ => none
      if names.length = items.length then names else []
  | _ => []

/-- `_architecture_dependency_interface_catalogs`. -/
def dependencyInterfaceCatalogs (owner : WorkItem) : List (String × List String) :=
  (dependencyModules owner).filterMap fun moduleId =>
    match one (plan.workItems.filter fun item =>
        isPart item && state.hasCompleted item.id && item.stageId = some "architecture_module" &&
          declaredModule item = some moduleId) with
    | none => none
    | some item =>
        match designs.design item with
        | some (.module design _) =>
            if design.moduleId = moduleId then
              some (moduleId, Text.sorted (dedupe design.providedInterfaces))
            else none
        | _ => none

/-- `_architecture_blueprint_module_purpose`. -/
def blueprintModulePurpose (moduleId : String) : Option String :=
  one (plan.workItems.filterMap fun item =>
    if isPart item && item.stageId = some "architecture_blueprint" && state.hasCompleted item.id then
      match (designs.load (Text.orElse item.artifactKey "architecture") item.id
          (Text.orElse item.slot "blueprint")).bind designs.parse with
      | some (.blueprint design) =>
          match one (design.modules.filter (·.moduleId = moduleId)) with
          | some module => if module.businessPurpose = "" then none else some module.businessPurpose
          | none => none
      | _ => none
    else none)

end StagedDesigns

/-- The owners of a finding and the diagnostic for them. -/
structure Attribution where
  owners : List WorkItem
  diagnostic : String

namespace StagedDesigns
variable (designs : StagedDesigns) (plan : ExecutionPlan) (state : RunState)

def catalogText (catalogs : List (String × List String)) : String :=
  Text.join "; " (catalogs.map fun catalog => catalog.1 ++ ": " ++
    (if catalog.2 = [] then "（无）" else Text.join ", " catalog.2))

/-- The catalogs are read for a single owner only. -/
def catalogsOf (owners : List WorkItem) : List (String × List String) :=
  match one owners with
  | some owner => designs.dependencyInterfaceCatalogs plan state owner
  | none => []

def requiredFileFinding (requiredFiles : String) : Attribution where
  owners := plan.workItems.filter fun item =>
    isPart item && item.stageId = some "architecture_blueprint"
  diagnostic := "集成校验发现 Blueprint.required_files 中的文件 " ++ Text.quote (Text.strip requiredFiles) ++
    " 没有任何 implementation unit 在 owned_files 中声明。" ++
    "请重新生成 Blueprint：required_files 只能列出由 implementation units 实际拥有、" ++
    "并会在交付中产出的具体文件；不要凭空添加入口或包初始化文件。"

def moduleParentFinding (designId : String) : Attribution where
  owners := designs.moduleDesignOwners plan state designId
  diagnostic := "集成校验发现模块设计 " ++ designId ++ " 未引用当前总体蓝图。" ++
    "请读取当前已完成的 Blueprint，并将 parent_design_id 逐字设置为其 design_id；" ++
    "不要复用旧运行或旧 Blueprint 的 parent_design_id。"

def implementationParentFinding (designId : String) : Attribution :=
  let owners := designs.implementationDesignOwners plan state designId
  let expected := (one owners).bind (designs.currentModuleDesignId plan state)
  { owners := owners
    diagnostic := "集成校验发现实现设计 " ++ designId ++ " 未引用已存在的模块设计。" ++
      "请读取当前已完成的 ModuleDesign，并将 parent_design_id 逐字设置为其 design_id；" ++
      "不要复用旧运行或旧模块设计的 parent_design_id。" ++
      match expected with
      | some expected => " 已由控制面按该 WorkItem 的唯一已完成模块依赖验证：" ++
          "本轮 parent_design_id 必须精确为 `" ++ expected ++ "`。"
      | none => "" }

def unknownDependencyFinding (unitId unknown : String) : Result Attribution := do
  let owners ← designs.implementationOwnersForUnit plan state unitId
  let catalogs := designs.catalogsOf plan state owners
  .ok {
    owners := owners
    diagnostic := "集成校验发现 implementation unit " ++ Text.quote unitId ++
      " 的 depends_on 引用了不存在的 " ++ "implementation unit：" ++ unknown ++ "。" ++
      "depends_on 只能引用本次集成架构中实际存在的 unit_id，且只能依赖更早 wave 的单元；" ++
      "跨模块业务能力不得写入 depends_on，应在 ImplementationDesign 顶层 " ++
      "consumed_interfaces 中引用依赖模块已声明的正式 interface_id。" ++
      "请删除不存在的 unit ID；不要把 module_id 或 interface_id 写入 depends_on。" ++
      (if catalogs = [] then "" else " 当前依赖模块的正式接口目录：" ++ catalogText catalogs ++ "。") }

def undeclaredInterfaceFinding (designName invalidInterfaceId : String) : Attribution :=
  let owners := plan.workItems.filter fun item =>
    isImplementation item && Text.afterLast '-' (item.slot.getD "") = designName
  let catalogs := designs.catalogsOf plan state owners
  { owners := owners
    diagnostic := "集成校验发现接口 " ++ Text.quote invalidInterfaceId ++
      " 不在已声明的正式 provider catalog 中。" ++
      "consumed_interfaces / consumes_interfaces 只能引用依赖模块 ModuleDesign 的" ++
      "正式 provided_interfaces；请按实际依赖选择现有接口，或先在所属模块显式提供新的正式接口。" ++
      "不要猜测接口同义词，也不要将 implementation unit ID 写入接口引用字段。" ++
      (if catalogs = [] then "" else " 当前依赖模块的正式接口目录：" ++ catalogText catalogs ++ "。") }

def requiredPathFinding (unitId requiredPath : String) : Result Attribution := do
  .ok {
    owners := ← designs.implementationOwnersForUnit plan state unitId
    diagnostic := "集成校验发现 implementation unit " ++ Text.quote unitId ++ " 将 " ++
      Text.quote requiredPath ++ " 声明为 " ++
      "required_paths，但该字段只能列出本单元唯一拥有的输出文件。" ++
      "若该文件由另一个 implementation unit 产出，请通过 depends_on、" ++
      "required_symbols 或正式接口表达依赖；不要把其他单元的文件写入 required_paths。" }

def modulePurposeFinding (moduleId : String) : Option Attribution :=
  (designs.blueprintModulePurpose plan state moduleId).map fun purpose => {
    owners := plan.workItems.filter fun item =>
      isPart item && item.stageId = some "architecture_module" && declaredDepth item = some 1 &&
        declaredModule item = some moduleId
    diagnostic := "集成校验发现模块设计 " ++ moduleId ++ " 的 purpose 必须与 Blueprint 完全一致。" ++
      "Blueprint 为 " ++ moduleId ++ " 声明的正式 purpose：\n“" ++ purpose ++ "”\n" ++
      "请逐字复用该 purpose；不要在 ModuleDesign 中补充、改写或细化 purpose。" }

/-- The findings in the order in which they are looked for. -/
def attribution (error : String) : Result (Option Attribution) :=
  match Finding.requiredFileNotOwned error, Finding.moduleParentMismatch error,
    Finding.implementationParentMismatch error, Finding.unknownImplementationDependency error,
    Finding.undeclaredInterface error, Finding.requiredPathNotOwned error,
    Finding.modulePurposeMismatch error with
  | some files, _, _, _, _, _, _ => .ok (some (requiredFileFinding plan files))
  | none, some designId, _, _, _, _, _ => .ok (some (designs.moduleParentFinding plan state designId))
  | none, none, some designId, _, _, _, _ =>
      .ok (some (designs.implementationParentFinding plan state designId))
  | none, none, none, some (unitId, unknown), _, _, _ =>
      (designs.unknownDependencyFinding plan state unitId unknown).map some
  | none, none, none, none, some (designName, interfaceId), _, _ =>
      .ok (some (designs.undeclaredInterfaceFinding plan state designName interfaceId))
  | none, none, none, none, none, some (unitId, path), _ =>
      (designs.requiredPathFinding plan state unitId path).map some
  | none, none, none, none, none, none, some moduleId =>
      .ok (designs.modulePurposeFinding plan state moduleId)
  | none, none, none, none, none, none, none => .ok none

end StagedDesigns

end ProjectOS.Application
