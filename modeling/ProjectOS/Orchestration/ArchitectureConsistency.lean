import ProjectOS.Base.DepthFirst
import ProjectOS.Base.Dict
import ProjectOS.Base.Text

/-! Consistency of the interfaces that module designs declare and consume. -/
namespace ProjectOS.Orchestration
open Base

/-- The part of a design the validator reads; an interface is its id and the way
it is consumed. -/
structure DesignInterfaces where
  moduleId : String
  techStack : List String := []
  runtime : String := "unknown"
  providedInterfaces : List (String × Option String)
  consumedInterfaces : List (String × Option String)

/-- A violation without its repair suggestion; every rule reports errors only. -/
structure ArchitectureViolation where
  ruleName : String
  moduleId : String
  interfaceId : Option String := none
  message : String

namespace ArchitectureConsistencyValidator

/-- `interface_id.split(".")[0]`. -/
def providerModule (interfaceId : String) : String := (Text.split '.' interfaceId).headD ""

/-- The interfaces with an id. -/
def named (interfaces : List (String × Option String)) : List (String × Option String) :=
  interfaces.filter (·.1 ≠ "")

/-- `provided_map`: the last declaration of an id wins. -/
def providedMap (designs : List DesignInterfaces) : Dict String (Option String) :=
  Dict.ofList (designs.flatMap fun design => named design.providedInterfaces)

def checkMissingInterfaces (designs : List DesignInterfaces) : List ArchitectureViolation :=
  designs.flatMap fun design =>
    ((named design.consumedInterfaces).filter fun consumed =>
      consumed.1 ∉ (providedMap designs).keys).map fun consumed => {
        ruleName := "interface_must_exist"
        moduleId := design.moduleId
        interfaceId := some consumed.1
        message := "模块 " ++ Text.quote design.moduleId ++ " 引用了不存在的接口 " ++
          Text.quote consumed.1 }

def isFrontend (design : DesignInterfaces) : Bool :=
  design.runtime = "browser" ||
    design.techStack.any fun tech => Text.lower tech ∈ ["react", "vue", "vite", "webpack"]

def checkFrontendInterfaces (designs : List DesignInterfaces) : List ArchitectureViolation :=
  (designs.filter isFrontend).flatMap fun design =>
    (design.providedInterfaces.filter fun provided => provided.2 = some "import_code").map
      fun provided => {
        ruleName := "frontend_no_code_interface"
        moduleId := design.moduleId
        interfaceId := some provided.1
        message := "前端模块 " ++ Text.quote design.moduleId ++ " 不能提供 import_code 接口 " ++
          Text.quote provided.1 }

def moduleRuntime (designs : List DesignInterfaces) : Dict String String :=
  Dict.ofList (designs.map fun design => (design.moduleId, design.runtime))

def checkCrossProcessImports (designs : List DesignInterfaces) : List ArchitectureViolation :=
  designs.flatMap fun design =>
    ((named design.consumedInterfaces).filter fun consumed =>
      let provider := ((moduleRuntime designs).get? (providerModule consumed.1)).getD "unknown"
      consumed.2 = some "import_code" && design.runtime ≠ provider &&
        design.runtime ≠ "unknown" && provider ≠ "unknown").map fun consumed => {
          ruleName := "no_cross_process_import"
          moduleId := design.moduleId
          interfaceId := some consumed.1
          message := "模块 " ++ Text.quote design.moduleId ++ " (runtime: " ++ design.runtime ++
            ") 不能通过 import_code 消费模块 " ++ Text.quote (providerModule consumed.1) ++
            " (runtime: " ++
            ((moduleRuntime designs).get? (providerModule consumed.1)).getD "unknown" ++ ")" }

/-- The two sides name different ways of consumption. -/
def mismatched (provided : Dict String (Option String)) (consumed : String × Option String) : Bool :=
  match consumed.2, (provided.get? consumed.1).join with
  | some mine, some yours => mine ≠ "" && yours ≠ "" && mine ≠ yours
  | _, _ => false

def checkConsumptionTypeMismatch (designs : List DesignInterfaces) : List ArchitectureViolation :=
  designs.flatMap fun design =>
    ((named design.consumedInterfaces).filter (mismatched (providedMap designs))).map
      fun consumed => {
        ruleName := "consumption_type_mismatch"
        moduleId := design.moduleId
        interfaceId := some consumed.1
        message := "消费方式不匹配: 模块 " ++ Text.quote design.moduleId ++ " 期望通过 " ++
          Text.quote (consumed.2.getD "") ++ " 消费接口 " ++ Text.quote consumed.1 ++
          "，但提供者声明为 " ++
          Text.quote (((providedMap designs).get? consumed.1).join.getD "") }

def consumedModules (design : DesignInterfaces) : List String :=
  dedupe ((named design.consumedInterfaces).map fun consumed => providerModule consumed.1)

/-- `graph[module_id] = dependencies`: a later design of a module replaces an earlier one. -/
def interfaceGraph (designs : List DesignInterfaces) : Dict String (List String) :=
  Dict.ofList (designs.map fun design => (design.moduleId, consumedModules design))

def targets (graph : Dict String (List String)) (module : String) : List String :=
  (graph.get? module).getD []

def checkCircularDependencies (designs : List DesignInterfaces) : List ArchitectureViolation :=
  let graph := interfaceGraph designs
  match DepthFirst.search (targets graph) (graph.keys.length + 1) graph.keys with
  | .error (.cycle nodes) => [{
      ruleName := "no_circular_dependency"
      moduleId := nodes.headD ""
      message := "检测到循环依赖: " ++ Text.join " → " nodes }]
  | .error .outOfFuel => [{
      ruleName := "no_circular_dependency", moduleId := "", message := "检测到循环依赖" }]
  | .ok _ => []

def validate (designs : List DesignInterfaces) : List ArchitectureViolation :=
  checkMissingInterfaces designs ++ checkFrontendInterfaces designs ++
  checkCrossProcessImports designs ++ checkConsumptionTypeMismatch designs ++
  checkCircularDependencies designs

/-- No chain of consumed modules goes on for ever. -/
def Circular (designs : List DesignInterfaces) : Prop :=
  ∃ module ∈ (interfaceGraph designs).keys,
    ¬ DepthFirst.Grounded (targets (interfaceGraph designs)) module

theorem checkCircularDependencies_eq_nil_iff {designs : List DesignInterfaces} :
    checkCircularDependencies designs = [] ↔ ¬ Circular designs := by
  have hkeys (module : String) (h : module ∉ (interfaceGraph designs).keys) :
      targets (interfaceGraph designs) module = [] := by
    rw [targets, Dict.get?_eq_none_iff.mpr h]
    rfl
  have hsearch := @DepthFirst.search_isOk_iff _ _ _ _ hkeys _ (Nat.lt_succ_self _)
    (interfaceGraph designs).keys
  rw [Circular]
  push Not
  rw [← hsearch]
  unfold checkCircularDependencies
  dsimp only
  constructor
  · intro h
    split at h
    · cases h
    · cases h
    · rename_i visited hvisited
      exact ⟨visited, hvisited⟩
  · rintro ⟨visited, hvisited⟩
    simp only [hvisited]

end ArchitectureConsistencyValidator
end ProjectOS.Orchestration
