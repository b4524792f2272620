import Mathlib.Data.List.Nodup
import ProjectOS.Error

/-! The agents a plan may name. Ids and output keys are used once. -/
namespace ProjectOS.Agent
open Base

structure DefinitionFields where
  id : String
  domain : String
  description : String
  outputKey : String
  maxParallelInstances : Nat := 1
  artifactKey : Option String := none

def DefinitionFields.postInit (raw : DefinitionFields) : Result Unit := do
  forEach (fun field =>
      raiseWhen (Text.blank field.2) ("AgentDefinition." ++ field.1 ++ " 不能为空"))
    [("id", raw.id), ("domain", raw.domain), ("description", raw.description),
      ("output_key", raw.outputKey)]
  raiseWhen (raw.maxParallelInstances < 1) "AgentDefinition.max_parallel_instances 至少为 1"
  raiseWhen (raw.artifactKey.any Text.blank) "AgentDefinition.artifact_key 不能是空字符串"

structure AgentDefinition extends DefinitionFields where
  accepted : toDefinitionFields.postInit = .ok ()

theorem AgentDefinition.maxParallelInstances_pos (definition : AgentDefinition) :
    1 ≤ definition.maxParallelInstances := by
  have h := definition.accepted
  simp only [DefinitionFields.postInit, check_bind_eq_ok, raiseWhen_eq_ok, decide_eq_false_iff_not]
    at h
  omega

/-- The definitions in the order of their registration. -/
structure AgentRegistry where
  definitions : List AgentDefinition := []
  ids_nodup : (definitions.map (·.id)).Nodup := by decide
  outputKeys_nodup : (definitions.map (·.outputKey)).Nodup := by decide

namespace AgentRegistry

def definition (agents : AgentRegistry) (agentId : String) : Option AgentDefinition :=
  agents.definitions.find? (·.id == agentId)

theorem nodup_concat {xs : List AgentDefinition} {x : AgentDefinition} {f : AgentDefinition → String}
    (hxs : (xs.map f).Nodup) (hx : xs.all (f · ≠ f x) = true) : ((xs ++ [x]).map f).Nodup := by
  rw [List.map_append, List.nodup_append]
  refine ⟨hxs, List.nodup_singleton _, ?_⟩
  intro a ha b hb
  obtain ⟨y, hy, rfl⟩ := List.mem_map.mp ha
  obtain rfl : b = f x := by simpa using hb
  simpa using List.all_eq_true.mp hx y hy

/-- `AgentRegistry.register`, without the factory. -/
def register (agents : AgentRegistry) (added : AgentDefinition) : Result AgentRegistry :=
  if hids : agents.definitions.all (·.id ≠ added.id) = true then
    if houtputs : agents.definitions.all (·.outputKey ≠ added.outputKey) = true then
      .ok {
        definitions := agents.definitions ++ [added]
        ids_nodup := nodup_concat agents.ids_nodup hids
        outputKeys_nodup := nodup_concat agents.outputKeys_nodup houtputs }
    else raise ("Agent " ++ Text.quote added.id ++ " 的 output_key " ++ Text.quote added.outputKey ++
      " 已被 " ++ Text.quote (((agents.definitions.find? (·.outputKey == added.outputKey)).map
        (·.id)).getD "") ++ " 使用")
  else raise ("Agent " ++ Text.quote added.id ++ " 已注册")

end AgentRegistry
end ProjectOS.Agent
