import ProjectOS.Orchestration.ExecutionMode
import ProjectOS.Base.Glob
import Mathlib.Tactic.SplitIfs

/-! Delivery contracts by lifecycle role. -/
namespace ProjectOS.Orchestration
open Base

structure WorkItemDeliveryContract where
  kind : String
  agentId : String
  domain : String
  requiredTools : List String
  expectedTool : Option String
  outputArtifactKind : Option String
  outputSlotPattern : Option String
  validator : Option String
  retryPolicy : String
deriving DecidableEq

/-- The attributes of an item its delivery contract is derived from. -/
structure DeliveryRole where
  agentId : String
  executionMode : ExecutionMode
  slot : Option String
  workItemId : Option String
  stageId : Option String
  publishTarget : Option String

namespace DeliveryContractRegistry

def architecture (kind : String) (requiredTools : List String) (expectedTool : String)
    (outputSlotPattern : Option String) (validator : String) : WorkItemDeliveryContract where
  kind := kind
  agentId := "architecture_agent"
  domain := "architecture"
  requiredTools := requiredTools
  expectedTool := some expectedTool
  outputArtifactKind := some (
    if validator = "MarkdownArchitecturePackage" then "architecture_markdown"
    else "architecture_design")
  outputSlotPattern := outputSlotPattern
  validator := some validator
  retryPolicy := "artifact_schema_repair"

def partitionedContract (slot : String) : Option WorkItemDeliveryContract :=
  if slot ∈ ["design", "baseline", "api", "data", "frontend"] then
    some (architecture "architecture.markdown_package"
      ["load_architecture_input", "write_staged_architecture"] "write_staged_architecture"
      (some slot) "MarkdownArchitecturePackage")
  else if slot = "blueprint" then
    some (architecture "architecture.blueprint"
      ["load_architecture_input", "write_architecture_blueprint"] "write_architecture_blueprint"
      (some "blueprint") "ArchitectureBlueprint")
  else if slot = "module" || Text.startswith slot "module-" then
    some (architecture "architecture.module_design"
      ["load_architecture_input", "write_module_design"] "write_module_design"
      (some "module-*") "ModuleDesign")
  else if slot = "implementation" || Text.startswith slot "implementation-" then
    some (architecture "architecture.implementation_design"
      ["load_architecture_input", "write_implementation_design"] "write_implementation_design"
      (some "implementation-*") "ImplementationDesign")
  else none

def integrationContract (role : DeliveryRole) : Option WorkItemDeliveryContract :=
  if role.stageId = some "architecture_markdown_integration" then
    some (architecture "architecture.markdown_integration"
      ["load_architecture_input", "create_architecture_candidate"] "create_architecture_candidate"
      none "MarkdownArchitecturePackage")
  else if role.stageId = some "architecture_integration" ||
      (role.stageId = none &&
        (Text.endswith (role.workItemId.getD "") "architecture-layered-integration" ||
          role.publishTarget = some "architecture")) then
    some (architecture "architecture.integration"
      ["load_architecture_input", "integrate_architecture_designs"]
      "integrate_architecture_designs" none "ArchitectureDesignBundle")
  else none

def contractFor (role : DeliveryRole) : Option WorkItemDeliveryContract :=
  if role.agentId ≠ "architecture_agent" then none
  else match role.executionMode with
    | .partitioned => partitionedContract (role.slot.getD "")
    | .integration => integrationContract role
    | _ => none

def requiredToolsFor (role : DeliveryRole) : List String :=
  match contractFor role with
  | some contract => contract.requiredTools
  | none => []

/-- The tool lists of the registered contracts. -/
def toolLists : List (List String) := [[],
  ["load_architecture_input", "write_staged_architecture"],
  ["load_architecture_input", "write_architecture_blueprint"],
  ["load_architecture_input", "write_module_design"],
  ["load_architecture_input", "write_implementation_design"],
  ["load_architecture_input", "create_architecture_candidate"],
  ["load_architecture_input", "integrate_architecture_designs"]]

theorem requiredToolsFor_mem (role : DeliveryRole) : requiredToolsFor role ∈ toolLists := by
  unfold requiredToolsFor contractFor
  split
  · rename_i contract hcontract
    split at hcontract
    · cases hcontract
    · split at hcontract
      · unfold partitionedContract at hcontract
        split_ifs at hcontract <;> cases hcontract <;> simp [architecture, toolLists]
      · unfold integrationContract at hcontract
        split_ifs at hcontract <;> cases hcontract <;> simp [architecture, toolLists]
      · cases hcontract
  · exact List.mem_cons_self

theorem contractFor_of_other_agent {role : DeliveryRole} (h : role.agentId ≠ "architecture_agent") :
    contractFor role = none := by
  simp [contractFor, h]

theorem requiredToolsFor_of_other_agent {role : DeliveryRole}
    (h : role.agentId ≠ "architecture_agent") : requiredToolsFor role = [] := by
  simp [requiredToolsFor, contractFor_of_other_agent h]

end DeliveryContractRegistry
end ProjectOS.Orchestration
