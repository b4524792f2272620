import Mathlib.Logic.Relation
import ProjectOS.Planner.DynamicBuilder

/-! The dependency graph of a plan after both expansions: one design item and
one implementation item for each module of the blueprint, joined as the modules
depend on each other. -/
namespace ProjectOS.Planner.DynamicPlanBuilder
open Base Artifact Orchestration Architecture

/-- `a` waits for `b` in the plan. -/
def DependsOn (plan : ExecutionPlan) (a b : String) : Prop :=
  ∃ item ∈ plan.workItems, item.id = a ∧ b ∈ item.dependencyIds

/-- An item of a stage that says it was made for the module. -/
structure MadeFor (stage moduleId : String) (item : WorkItem) : Prop where
  stage : item.stageId = some stage
  declared : declaredModule item = .str moduleId

def moduleStage : String := "architecture_module"

def implementationStage : String := "architecture_implementation"

/-- An item that the expansions added for a module. -/
structure Added (plan expanded : ExecutionPlan) (stage moduleId : String) (item : WorkItem) :
    Prop where
  mem : item ∈ expanded.workItems
  new : item.id ∉ plan.itemIds
  made : MadeFor stage moduleId item

/-- What a plan expanded by modules and by implementations is to its original. -/
structure ModuleGraph (plan expanded : ExecutionPlan) (blueprint : ArchitectureBlueprint)
    (integrationId : Option String) : Prop where
  moduleItem : ∀ module ∈ blueprint.modules,
    ∃! item, Added plan expanded moduleStage module.moduleId item
  implementationItem : ∀ module ∈ blueprint.modules,
    ∃! item, Added plan expanded implementationStage module.moduleId item
  nothingElse : ∀ item ∈ expanded.workItems, item.id ∉ plan.itemIds → ∃ module ∈ blueprint.modules,
    MadeFor moduleStage module.moduleId item ∨ MadeFor implementationStage module.moduleId item
  moduleEdges : ∀ module ∈ blueprint.modules, ∀ other ∈ blueprint.modules, ∀ item otherItem,
    Added plan expanded moduleStage module.moduleId item →
    Added plan expanded moduleStage other.moduleId otherItem →
    (otherItem.id ∈ item.dependencyIds ↔ other.moduleId ∈ module.dependsOnModules)
  waves : ∀ module ∈ blueprint.modules, ∀ otherId ∈ module.dependsOnModules, ∀ item otherItem,
    Added plan expanded moduleStage module.moduleId item →
    Added plan expanded moduleStage otherId otherItem → otherItem.wave < item.wave
  ownModule : ∀ module ∈ blueprint.modules, ∀ item moduleItem,
    Added plan expanded implementationStage module.moduleId item →
    Added plan expanded moduleStage module.moduleId moduleItem →
    moduleItem.id ∈ item.dependencyIds
  integration : ∀ id ∈ integrationId, ∃ item ∈ expanded.workItems, item.id = id ∧
    ∀ added ∈ expanded.workItems, added.id ∉ plan.itemIds → added.id ∈ item.dependencyIds
  /-- The integration item and the contract items are wired anew. -/
  digests : ∀ item ∈ plan.workItems, some item.id ≠ integrationId → item.stageId ≠ some "contract" →
    ∃ item' ∈ expanded.workItems, item'.id = item.id ∧ item'.contractDigest = item.contractDigest
  edges : ∀ a b, Relation.TransGen (DependsOn plan) a b → Relation.TransGen (DependsOn expanded) a b

section safeIds

theorem safeIdsFrom_eq_ok {done moduleIds : List String} {known safeIds : Dict String String}
    (hknown : known.entries = done.map fun id => (id, safeComponent id))
    (h : safeIdsFrom known moduleIds = .ok safeIds) :
    safeIds.entries = (done ++ moduleIds).map (fun id => (id, safeComponent id)) ∧
      ((done.map safeComponent).Nodup → ((done ++ moduleIds).map safeComponent).Nodup) := by
  induction moduleIds generalizing done known with
  | nil =>
    cases h
    rw [List.append_nil]
    exact ⟨hknown, id⟩
  | cons moduleId rest ih =>
    simp only [safeIdsFrom, raiseWhen_bind_eq_ok] at h
    obtain ⟨-, hfree, hrest⟩ := h
    have hvalues : known.values = done.map safeComponent := by
      rw [Dict.values, hknown, List.map_map]
      rfl
    rw [decide_eq_false_iff_not, hvalues] at hfree
    have hfresh : moduleId ∉ known.keys := by
      intro hmem
      rw [Dict.keys, hknown, List.map_map] at hmem
      obtain ⟨id, hid, rfl⟩ := List.mem_map.mp hmem
      exact hfree (List.mem_map_of_mem hid)
    have hnext : (known.set moduleId (safeComponent moduleId)).entries =
        (done ++ [moduleId]).map fun id => (id, safeComponent id) := by
      rw [Dict.entries_set_of_not_mem hfresh, hknown, List.map_append]
      rfl
    obtain ⟨hentries, hnodup⟩ := ih hnext hrest
    rw [List.append_assoc, List.singleton_append] at hentries hnodup
    refine ⟨hentries, fun hdone => hnodup ?_⟩
    rw [List.map_append, List.map_singleton]
    exact hdone.append (List.nodup_singleton _) (List.disjoint_singleton.mpr hfree)

/-- The node ids of the modules: one for each, and all different. -/
structure SafeIds (blueprint : ArchitectureBlueprint) (safeIds : Dict String String) : Prop where
  nodup : blueprint.moduleIds.Nodup
  values : safeIds.values = blueprint.moduleIds.map safeComponent
  get : ∀ moduleId safe, safeIds.get? moduleId = some safe → safe = safeComponent moduleId
  inj : ∀ a ∈ blueprint.moduleIds, ∀ b ∈ blueprint.moduleIds,
    safeComponent a = safeComponent b → a = b

theorem safeIds_of_eq_ok {blueprint : ArchitectureBlueprint} {safeIds : Dict String String}
    (h : safeIdsFrom ∅ blueprint.moduleIds = .ok safeIds) : SafeIds blueprint safeIds := by
  obtain ⟨hentries, hnodup⟩ := safeIdsFrom_eq_ok (show _ = [].map _ from rfl) h
  rw [List.nil_append] at hentries hnodup
  constructor
  · exact (hnodup List.nodup_nil).of_map
  · rw [Dict.values, hentries, List.map_map]
    rfl
  · intro moduleId safe hget
    rw [Dict.get?_eq_some_iff, hentries] at hget
    obtain ⟨id, -, heq⟩ := List.mem_map.mp hget
    cases heq
    rfl
  · intro a ha b hb hsame
    exact List.inj_on_of_nodup_map (hnodup List.nodup_nil) ha hb hsame

end safeIds

section items
variable {plan : ExecutionPlan} {blueprint : ArchitectureBlueprint} {safeIds : Dict String String}
  {waves : Dict String Nat} {module : ModuleRef} {item : WorkItem}

def moduleItemOf (moduleId : String) : String := moduleItemId (safeComponent moduleId)

def implementationItemOf (moduleId : String) : String := implementationItemId (safeComponent moduleId)

theorem workItemId_of_system {workItemId ruleId : String} {dep : WorkItemDependency}
    (h : WorkItemDependency.system workItemId ruleId = .ok dep) : dep.workItemId = workItemId := by
  rw [WorkItemDependency.create_eq_ok.mp h]

theorem workItemIds_of_system {ids : List String} {ruleId : String} {deps : List WorkItemDependency}
    (h : collect (WorkItemDependency.system · ruleId) ids = .ok deps) :
    deps.map (·.workItemId) = ids := by
  have hmap := map_of_collect h (q := id) fun _ _ hdep => workItemId_of_system hdep
  rwa [List.map_id] at hmap

/-- What an added item keeps of the fields it is made from. -/
structure Built (raw : WorkItemFields) (item : WorkItem) : Prop where
  id : item.id = raw.id
  stageId : item.stageId = raw.stageId
  slot : item.slot = raw.slot
  wave : item.wave = raw.wave
  dependencies : item.dependencies = raw.dependencies
  contract : item.deliveryContract = raw.deliveryContract

theorem built_of_create {raw : WorkItemFields} (h : WorkItem.create raw = .ok item) :
    Built raw item := by
  obtain ⟨_, _, hfields⟩ := WorkItem.create_fields h
  constructor <;> rw [hfields] <;> rfl

theorem declared_of_contract {depth : Nat} {designId parentDesignId : String}
    (h : item.deliveryContract = some (architectureContract depth designId parentDesignId module)) :
    declaredModule item = .str module.moduleId := by
  rw [declaredModule, h]
  rfl

/-- A design item of a module. -/
structure ModuleItem (blueprintItemId : String) (waves : Dict String Nat) (module : ModuleRef)
    (item : WorkItem) : Prop where
  id : item.id = moduleItemOf module.moduleId
  made : MadeFor moduleStage module.moduleId item
  slot : item.slot = some ("module-" ++ safeComponent module.moduleId)
  wave : ∃ wave, waves.get? module.moduleId = some wave ∧ item.wave = wave
  dependencyIds : item.dependencyIds = blueprintItemId :: module.dependsOnModules.map moduleItemOf

/-- An implementation design item of a module. -/
structure ImplementationItem (module : ModuleRef) (item : WorkItem) : Prop where
  id : item.id = implementationItemOf module.moduleId
  made : MadeFor implementationStage module.moduleId item
  dependencyIds : item.dependencyIds = [moduleItemOf module.moduleId]

theorem moduleItem_eq_ok (hsafe : SafeIds blueprint safeIds) {blueprintItem : WorkItem}
    {ref : ArtifactRef}
    (h : moduleItem plan blueprint blueprintItem ref safeIds waves module = .ok item) :
    ModuleItem blueprintItem.id waves module item := by
  simp only [moduleItem, bind_eq_ok, subscript_eq_ok] at h
  obtain ⟨safe, hget, wave, hwave, onBlueprint, honBlueprint, others, hothers, onModules, honModules,
    _, -, hcreate⟩ := h
  obtain rfl := hsafe.get _ _ hget
  have hbuilt := built_of_create hcreate
  have hsafes : others = module.dependsOnModules.map safeComponent := by
    have hmap := map_of_collect hothers (p := id) (q := safeComponent)
      fun _ _ hsub => hsafe.get _ _ (subscript_eq_ok.mp hsub)
    rwa [List.map_id] at hmap
  have hmodules : onModules.map (·.workItemId) = others.map moduleItemId :=
    map_of_collect honModules fun _ _ hdep => workItemId_of_system hdep
  refine ⟨hbuilt.id, ⟨hbuilt.stageId, declared_of_contract hbuilt.contract⟩, hbuilt.slot,
    ⟨wave, hwave, hbuilt.wave⟩, ?_⟩
  rw [WorkItemFields.dependencyIds, hbuilt.dependencies, List.map_cons,
    workItemId_of_system honBlueprint, hmodules, hsafes, List.map_map]
  rfl

theorem implementationItem_eq_ok (hsafe : SafeIds blueprint safeIds) {ref : ArtifactRef}
    {designs : Dict String ModuleDesign} {itemIds : Dict String String}
    (hitemIds : ∀ moduleId itemId, itemIds.get? moduleId = some itemId →
      itemId = moduleItemOf moduleId)
    (h : implementationItem plan ref designs itemIds safeIds waves module = .ok item) :
    ImplementationItem module item := by
  simp only [implementationItem, bind_eq_ok, subscript_eq_ok] at h
  obtain ⟨itemId, hitemId, _, -, safe, hget, _, -, _, -, _, -, onModule, honModule, hcreate⟩ := h
  obtain rfl := hsafe.get _ _ hget
  obtain rfl := hitemIds _ _ hitemId
  have hbuilt := built_of_create hcreate
  refine ⟨hbuilt.id, ⟨hbuilt.stageId, declared_of_contract hbuilt.contract⟩, ?_⟩
  rw [WorkItemFields.dependencyIds, hbuilt.dependencies, List.map_singleton,
    workItemId_of_system honModule]

end items

section present
variable {plan : ExecutionPlan} {integration : WorkItem} {added : List WorkItem}

/-- An item of the plan in the expanded one: only an anchor is wired anew, and it keeps its edges. -/
structure Carried (anchor : Prop) (item item' : WorkItem) : Prop where
  id : item'.id = item.id
  stageId : item'.stageId = item.stageId
  slot : item'.slot = item.slot
  edges : ∀ d ∈ item.dependencyIds, d ∈ item'.dependencyIds
  same : ¬ anchor → item' = item

theorem Carried.refl (anchor : Prop) (item : WorkItem) : Carried anchor item item :=
  ⟨rfl, rfl, rfl, fun _ hd => hd, fun _ => rfl⟩

theorem dependencyIds_of_rewired {item item' : WorkItem} {deps : List WorkItemDependency}
    {refs : List ArtifactRef} (h : item.rewired deps refs = .ok item') :
    item'.dependencyIds = deps.map (·.workItemId) := by
  have hbuilt := built_of_create h
  exact congrArg (List.map (·.workItemId)) hbuilt.dependencies

theorem carried_of_rewired {anchor : Prop} {item item' : WorkItem} {deps : List WorkItemDependency}
    {refs : List ArtifactRef} (h : item.rewired deps refs = .ok item') (hanchor : anchor)
    (hdeps : ∀ d ∈ item.dependencyIds, d ∈ deps.map (·.workItemId)) : Carried anchor item item' := by
  have hbuilt := built_of_create h
  refine ⟨hbuilt.id, hbuilt.stageId, hbuilt.slot, ?_, fun hnot => absurd hanchor hnot⟩
  rw [dependencyIds_of_rewired h]
  exact hdeps

theorem mergeDependencies_eq_ok {ruleId : String} {addedIds : List String}
    {deps : List WorkItemDependency} (h : mergeDependencies integration ruleId addedIds = .ok deps)
    (d : String) : d ∈ deps.map (·.workItemId) ↔ d ∈ integration.dependencyIds ∨ d ∈ addedIds := by
  simp only [mergeDependencies, bind_eq_ok, Except.ok.injEq] at h
  obtain ⟨onAdded, honAdded, rfl⟩ := h
  rw [mem_map_uniqueBy, List.map_append, List.mem_append, workItemIds_of_system honAdded]
  rfl

/-- The items of the plan, each carried over, and the integration item waiting for the added ones. -/
structure Present (plan : ExecutionPlan) (anchor : WorkItem → Prop) (integrationId : Option String)
    (addedIds : List String) (present : List WorkItem) : Prop where
  carried : List.Forall₂ (fun item item' => Carried (anchor item) item item') plan.workItems present
  waits : ∀ id ∈ integrationId, ∃ item ∈ present, item.id = id ∧ ∀ d ∈ addedIds, d ∈ item.dependencyIds

theorem withModules_eq_ok {ref : ArtifactRef} {safes : List String} {integrationId : Option String}
    {present : List WorkItem} (h : withModules plan ref safes integrationId = .ok present) :
    Present plan (fun item => some item.id = integrationId) integrationId (safes.map moduleItemId)
      present := by
  unfold withModules at h
  cases integrationId with
  | none =>
    cases h
    exact ⟨List.forall₂_same.mpr fun item _ => .refl _ item, nofun⟩
  | some integrationId =>
    simp only [bind_eq_ok] at h
    obtain ⟨integration, hintegration, deps, hdeps, _, -, updated, hupdated, h⟩ := h
    cases h
    obtain ⟨hmem, rfl⟩ := integrationOf_ok hintegration
    have hmerged := mergeDependencies_eq_ok hdeps
    constructor
    · rw [List.forall₂_map_right_iff, List.forall₂_same]
      intro item hitem
      split
      · rename_i hid
        obtain rfl := plan.eq_of_id_eq hitem hmem hid
        exact carried_of_rewired hupdated rfl fun d hd => (hmerged d).mpr (.inl hd)
      · exact .refl _ item
    · intro id hid
      cases hid
      have hbuilt := built_of_create hupdated
      refine ⟨updated, List.mem_map.mpr ⟨integration, hmem, if_pos rfl⟩, hbuilt.id, fun d hd => ?_⟩
      rw [dependencyIds_of_rewired hupdated]
      exact (hmerged d).mpr (.inr hd)

theorem withImplementations_eq_ok {integrationId : Option String} {integration : Option WorkItem}
    {present : List WorkItem} (hintegration : optionalIntegration plan integrationId = .ok integration)
    (h : withImplementations plan added integration = .ok present) :
    Present plan (fun item => some item.id = integrationId ∨ item.stageId = some "contract")
      integrationId (added.map (·.id)) present := by
  cases integrationId with
  | none =>
    cases hintegration
    cases h
    exact ⟨List.forall₂_same.mpr fun item _ => .refl _ item, fun _ hid => by cases hid⟩
  | some integrationId =>
    simp only [optionalIntegration, bind_eq_ok, Except.ok.injEq] at hintegration
    obtain ⟨found, hfound, rfl⟩ := hintegration
    obtain ⟨hmem, rfl⟩ := integrationOf_ok hfound
    simp only [withImplementations, bind_eq_ok] at h
    obtain ⟨deps, hdeps, _, -, updated, hupdated, hpresent⟩ := h
    have hmerged := mergeDependencies_eq_ok hdeps
    constructor
    · have hmembers := (List.forall₂_and_left _ _).mpr ⟨fun _ hitem => hitem, collect_eq_ok.mp hpresent⟩
      apply hmembers.imp
      rintro item item' ⟨hitem, hrewired⟩
      unfold rewiredForDesigns at hrewired
      split at hrewired
      · rename_i hid
        cases hrewired
        obtain rfl := plan.eq_of_id_eq hitem hmem hid
        exact carried_of_rewired hupdated (.inl rfl) fun d hd => (hmerged d).mpr (.inl hd)
      · split at hrewired
        · rename_i hcontract
          exact carried_of_rewired hrewired (.inr hcontract) fun _ hd => hd
        · cases hrewired
          exact .refl _ item
    · intro id hid
      cases hid
      obtain ⟨item', hitem', hrewired⟩ := collect_mem hpresent hmem
      rw [rewiredForDesigns, if_pos rfl] at hrewired
      cases hrewired
      refine ⟨updated, hitem', (built_of_create hupdated).id, fun d hd => ?_⟩
      rw [dependencyIds_of_rewired hupdated]
      exact (hmerged d).mpr (.inr hd)

end present

section expansions
variable {maxModules : Nat} {plan : ExecutionPlan} {blueprint : ArchitectureBlueprint}
  {blueprintId : String} {integrationId : Option String} {revision : Option Int}

theorem moduleMap_get? {moduleId : String} (hnodup : blueprint.moduleIds.Nodup) {module : ModuleRef} :
    (moduleMap blueprint).get? moduleId = some module ↔
      module ∈ blueprint.modules ∧ module.moduleId = moduleId := by
  have hkeys : ((blueprint.modules.map fun module => (module.moduleId, module)).map Prod.fst).Nodup := by
    rwa [List.map_map]
  rw [moduleMap, Dict.get?_eq_some_iff, Dict.entries_ofList _ hkeys, List.mem_map]
  constructor
  · rintro ⟨found, hfound, heq⟩
    cases heq
    exact ⟨hfound, rfl⟩
  · rintro ⟨hmem, rfl⟩
    exact ⟨module, hmem, rfl⟩

/-- Every dependency is a module, at a smaller wave. -/
theorem wave_lt {waves : Dict String Nat} (hnodup : blueprint.moduleIds.Nodup)
    (h : moduleWaves blueprint = .ok waves) {module : ModuleRef} (hmodule : module ∈ blueprint.modules)
    {other : String} (hother : other ∈ module.dependsOnModules) :
    other ∈ blueprint.moduleIds ∧ ∀ wave otherWave, waves.get? module.moduleId = some wave →
      waves.get? other = some otherWave → otherWave < wave := by
  unfold moduleWaves at h
  dsimp only at h
  split at h
  · rename_i found hlevels
    cases h
    obtain ⟨hsound, -, hall⟩ := Levels.levels_sound Levels.sound_empty hlevels
    have hget := (moduleMap_get? hnodup).mpr ⟨hmodule, rfl⟩
    have hkey : module.moduleId ∈ (moduleMap blueprint).keys := Dict.mem_keys_iff.mpr ⟨module, hget⟩
    obtain ⟨wave, hwave⟩ := hall _ hkey
    have hnode : ((moduleMap blueprint).get? module.moduleId).map
        (fun module => (0, module.dependsOnModules)) = some (0, module.dependsOnModules) := by
      rw [hget]
      rfl
    obtain ⟨own, deps, hknown, hdeps⟩ := hsound.closed hwave
    cases hnode.symm.trans hknown
    obtain ⟨below, hbelow⟩ := hdeps other hother
    constructor
    · obtain ⟨own', deps', hknown', -⟩ := hsound.closed hbelow
      obtain ⟨found, hfound, -⟩ := Option.map_eq_some_iff.mp hknown'
      obtain ⟨hmem, rfl⟩ := (moduleMap_get? hnodup).mp hfound
      exact List.mem_map_of_mem hmem
    · intro high low hhigh hlow
      exact hsound.level_lt hnode hother hhigh hlow
  · cases h
  · cases h

/-- What a successful expansion by modules has made. -/
structure ModulesExpanded (plan expanded : ExecutionPlan) (blueprint : ArchitectureBlueprint)
    (integrationId : Option String) (blueprintItemId : String) (waves : Dict String Nat)
    (present added : List WorkItem) : Prop where
  fresh : ∀ item ∈ plan.workItems, isModuleItem item = false
  blueprintItem : blueprintItemId ∈ plan.itemIds
  nodup : blueprint.moduleIds.Nodup
  inj : ∀ a ∈ blueprint.moduleIds, ∀ b ∈ blueprint.moduleIds,
    safeComponent a = safeComponent b → a = b
  levels : moduleWaves blueprint = .ok waves
  kept : Present plan (fun item => some item.id = integrationId) integrationId
    (blueprint.moduleIds.map moduleItemOf) present
  items : List.Forall₂ (ModuleItem blueprintItemId waves) blueprint.modules added
  workItems : expanded.workItems = present ++ added

theorem expandModules_eq_ok {expansion : BlueprintExpansion}
    (h : expandModules maxModules plan blueprint blueprintId integrationId revision = .ok expansion) :
    ∃ blueprintItemId waves present added, ModulesExpanded plan expansion.plan blueprint integrationId
      blueprintItemId waves present added := by
  simp only [expandModules, bind_eq_ok, raiseWhen_eq_ok] at h
  obtain ⟨_, -, blueprintItem, hblueprint, _, -, _, hfresh, safeIds, hsafeIds, waves, hwaves, ref, -,
    _, -, added, hadded, present, hpresent, expanded, hexpanded, h⟩ := h
  cases h
  have hsafe := safeIds_of_eq_ok hsafeIds
  have hitems := withModules_eq_ok hpresent
  rw [hsafe.values, List.map_map] at hitems
  refine ⟨blueprintItem.id, waves, present, added, ?_, ?_, hsafe.nodup, hsafe.inj, hwaves, hitems, ?_, ?_⟩
  · intro item hitem
    exact Bool.eq_false_iff.mpr (List.any_eq_false.mp hfresh item hitem)
  · unfold blueprintItemOf at hblueprint
    split at hblueprint
    · cases hblueprint
    · rename_i found hfound
      rw [raiseWhen_bind_eq_ok] at hblueprint
      cases hblueprint.2
      exact List.mem_map_of_mem (plan.workItem_eq_some_iff.mp hfound).1
  · exact (collect_eq_ok.mp hadded).imp fun _ _ hitem => moduleItem_eq_ok hsafe hitem
  · rw [ExecutionPlan.create_eq_ok.mp hexpanded]

/-- What a successful expansion by implementations has made, once it knows the design items. -/
structure ImplementationsExpanded (plan expanded : ExecutionPlan) (blueprint : ArchitectureBlueprint)
    (integrationId : Option String) (present added : List WorkItem) : Prop where
  kept : Present plan (fun item => some item.id = integrationId ∨ item.stageId = some "contract")
    integrationId (added.map (·.id)) present
  items : List.Forall₂ ImplementationItem blueprint.modules added
  workItems : expanded.workItems = present ++ added

theorem resolveModuleItems_eq_ok {supplied itemIds : Dict String String} {moduleIds : List String}
    (hresolve : ∀ moduleId ∈ moduleIds, ∀ itemId,
      resolveModuleItem plan supplied moduleId = .ok itemId → itemId = moduleItemOf moduleId)
    (h : resolveModuleItems plan supplied moduleIds = .ok itemIds) {moduleId itemId : String}
    (hget : itemIds.get? moduleId = some itemId) : itemId = moduleItemOf moduleId := by
  simp only [resolveModuleItems, bind_eq_ok, Except.ok.injEq] at h
  obtain ⟨found, hfound, rfl⟩ := h
  have hmem := Dict.mem_of_mem_ofList (Dict.get?_eq_some_iff.mp hget)
  have hall := List.forall₂_zip (collect_eq_ok.mp hfound) hmem
  exact hresolve moduleId (List.of_mem_zip hmem).1 itemId hall

theorem expandImplementations_eq_ok {designs : List ModuleDesign} {supplied : Dict String String}
    {expansion : ImplementationExpansion}
    (hresolve : ∀ moduleId ∈ blueprint.moduleIds, ∀ itemId,
      resolveModuleItem plan supplied moduleId = .ok itemId → itemId = moduleItemOf moduleId)
    (h : expandImplementations maxModules plan blueprint designs blueprintId supplied integrationId
      revision = .ok expansion) :
    ∃ present added, ImplementationsExpanded plan expansion.plan blueprint integrationId present added := by
  simp only [expandImplementations, bind_eq_ok] at h
  obtain ⟨_, -, _, -, integration, hintegration, _, -, _, -, _, -, itemIds, hitemIds, safeIds, hsafeIds,
    _, -, _, -, _, -, added, hadded, present, hpresent, expanded, hexpanded, h⟩ := h
  cases h
  have hsafe := safeIds_of_eq_ok hsafeIds
  refine ⟨present, added, withImplementations_eq_ok hintegration hpresent, ?_, ?_⟩
  · apply (collect_eq_ok.mp hadded).imp
    intro module item hitem
    exact implementationItem_eq_ok hsafe
      (fun _ _ hget => resolveModuleItems_eq_ok hresolve hitemIds hget) hitem
  · rw [ExecutionPlan.create_eq_ok.mp hexpanded]

end expansions

theorem append_left_inj {front a b : String} (h : front ++ a = front ++ b) : a = b := by
  have hlist := congrArg String.toList h
  rw [String.toList_append, String.toList_append, List.append_cancel_left_eq] at hlist
  exact String.toList_inj.mp hlist

theorem Present.ids {plan : ExecutionPlan} {anchor : WorkItem → Prop} {integrationId : Option String}
    {addedIds : List String} {present : List WorkItem}
    (h : Present plan anchor integrationId addedIds present) :
    present.map (·.id) = plan.itemIds := by
  have hids : List.Forall₂ (fun item item' => item'.id = item.id) plan.workItems present :=
    h.carried.imp fun _ _ hcarried => hcarried.id
  rw [PlanFields.itemIds, ← List.forall₂_eq_eq_eq, List.forall₂_map_left_iff, List.forall₂_map_right_iff]
  exact hids.flip

section modules
variable {plan middle : ExecutionPlan} {blueprint : ArchitectureBlueprint}
  {integrationId : Option String} {blueprintItemId : String} {waves : Dict String Nat}
  {present modules : List WorkItem} {item : WorkItem}

theorem ModulesExpanded.new (h : ModulesExpanded plan middle blueprint integrationId blueprintItemId
    waves present modules) (hitem : item ∈ modules) : item.id ∉ plan.itemIds := by
  intro hmem
  have hnodup := middle.itemIds_nodup
  rw [PlanFields.itemIds, h.workItems, List.map_append, h.kept.ids] at hnodup
  exact List.disjoint_of_nodup_append hnodup hmem (List.mem_map_of_mem hitem)

theorem ModulesExpanded.moduleOf (h : ModulesExpanded plan middle blueprint integrationId
    blueprintItemId waves present modules) (hitem : item ∈ modules) :
    ∃ module ∈ blueprint.modules, ModuleItem blueprintItemId waves module item :=
  exists_left_of_forall₂ h.items hitem

theorem ModulesExpanded.itemOf (h : ModulesExpanded plan middle blueprint integrationId
    blueprintItemId waves present modules) {module : ModuleRef} (hmodule : module ∈ blueprint.modules) :
    ∃ item ∈ modules, ModuleItem blueprintItemId waves module item :=
  exists_right_of_forall₂ h.items hmodule

theorem ModulesExpanded.stage_of_present (h : ModulesExpanded plan middle blueprint integrationId
    blueprintItemId waves present modules) (hitem : item ∈ present) :
    item.stageId ≠ some moduleStage := by
  obtain ⟨original, horiginal, hcarried⟩ := exists_left_of_forall₂ h.kept.carried hitem
  have hfresh := h.fresh original horiginal
  rw [isModuleItem, Bool.or_eq_false_iff, decide_eq_false_iff_not] at hfresh
  rw [hcarried.stageId]
  exact hfresh.1

theorem ModulesExpanded.eq_of_moduleId_eq (h : ModulesExpanded plan middle blueprint integrationId
    blueprintItemId waves present modules) {a b : ModuleRef} (ha : a ∈ blueprint.modules)
    (hb : b ∈ blueprint.modules) (hsame : a.moduleId = b.moduleId) : a = b :=
  List.inj_on_of_nodup_map h.nodup ha hb hsame

theorem moduleItemOf_inj (h : ModulesExpanded plan middle blueprint integrationId blueprintItemId
    waves present modules) {a b : String} (ha : a ∈ blueprint.moduleIds) (hb : b ∈ blueprint.moduleIds)
    (hsame : moduleItemOf a = moduleItemOf b) : a = b := h.inj a ha b hb (append_left_inj hsame)

/-- A design item that is made for a module, by its contract or by its slot, is that module's. -/
theorem ModulesExpanded.id_of_isItemOfModule (h : ModulesExpanded plan middle blueprint integrationId
    blueprintItemId waves present modules) {moduleId : String}
    (hmodule : moduleId ∈ blueprint.moduleIds) (hmem : item ∈ middle.workItems)
    (hstage : item.stageId = some moduleStage)
    (hitem : (declaredModule item).isStr moduleId = true ∨
      item.slot.getD "" = "module-" ++ safeComponent moduleId) : item.id = moduleItemOf moduleId := by
  rw [h.workItems, List.mem_append] at hmem
  rcases hmem with hpresent | hadded
  · exact absurd hstage (h.stage_of_present hpresent)
  · obtain ⟨module, hmod, hmade⟩ := h.moduleOf hadded
    have hsame : module.moduleId = moduleId := by
      rcases hitem with hdeclared | hslot
      · rw [hmade.made.declared, Json.isStr, beq_iff_eq] at hdeclared
        exact hdeclared
      · rw [hmade.slot, Option.getD_some] at hslot
        exact h.inj _ (List.mem_map_of_mem hmod) _ hmodule (append_left_inj hslot)
    rw [hmade.id, hsame]

/-- The planner finds the design item of each module, or is told it. -/
theorem ModulesExpanded.resolve (h : ModulesExpanded plan middle blueprint integrationId
    blueprintItemId waves present modules) {supplied : Dict String String}
    (hsupplied : ∀ moduleId itemId, supplied.get? moduleId = some itemId →
      ∃ item ∈ middle.workItems, item.id = itemId ∧ MadeFor moduleStage moduleId item)
    {moduleId itemId : String} (hmodule : moduleId ∈ blueprint.moduleIds)
    (hresolve : resolveModuleItem middle supplied moduleId = .ok itemId) :
    itemId = moduleItemOf moduleId := by
  unfold resolveModuleItem at hresolve
  dsimp only at hresolve
  split at hresolve
  · cases hresolve
  · rename_i found hfound
    rw [raiseWhen_bind_eq_ok] at hresolve
    cases hresolve.2
    obtain ⟨candidate, hcandidate, hitem⟩ := Option.bind_eq_some_iff.mp hfound
    obtain ⟨hmem, rfl⟩ := middle.workItem_eq_some_iff.mp hitem
    split at hcandidate
    · rename_i suppliedId hget
      cases hcandidate
      obtain ⟨item, hitem, hid, hmade⟩ := hsupplied moduleId _ hget
      obtain rfl := middle.eq_of_id_eq hitem hmem hid
      apply h.id_of_isItemOfModule hmodule hmem hmade.stage
      rw [hmade.declared, Json.isStr, beq_self_eq_true]
      exact .inl rfl
    · split at hcandidate
      · rename_i only honly
        have hfilter : only ∈ middle.workItems.filter (isItemOfModule moduleId) := by
          rw [honly]
          exact List.mem_singleton_self only
        obtain ⟨honlyMem, hmatches⟩ := List.mem_filter.mp hfilter
        obtain rfl := middle.eq_of_id_eq honlyMem hmem (Option.some.inj hcandidate)
        rw [isItemOfModule, Bool.and_eq_true, Bool.and_eq_true, Bool.or_eq_true, decide_eq_true_eq,
          decide_eq_true_eq, decide_eq_true_eq] at hmatches
        exact h.id_of_isItemOfModule hmodule honlyMem hmatches.1.1 hmatches.2
      · cases hcandidate

end modules

section graph
variable {plan middle expanded : ExecutionPlan} {blueprint : ArchitectureBlueprint}
  {integrationId : Option String} {blueprintItemId : String} {waves : Dict String Nat}
  {present modules present' implementations : List WorkItem} {item : WorkItem}

/-- Both expansions, one after the other. -/
structure Joined (plan middle expanded : ExecutionPlan) (blueprint : ArchitectureBlueprint)
    (integrationId : Option String) (blueprintItemId : String) (waves : Dict String Nat)
    (present modules present' implementations : List WorkItem) : Prop where
  first : ModulesExpanded plan middle blueprint integrationId blueprintItemId waves present modules
  second : ImplementationsExpanded middle expanded blueprint integrationId present' implementations

namespace Joined

/-- No design item is an anchor. -/
theorem not_anchor (h : Joined plan middle expanded blueprint integrationId blueprintItemId waves
    present modules present' implementations) (hitem : item ∈ modules) :
    ¬ (some item.id = integrationId ∨ item.stageId = some "contract") := by
  rintro (hid | hstage)
  · obtain ⟨integration, hmem, hsame, -⟩ := h.first.kept.waits item.id hid.symm
    apply h.first.new hitem
    rw [← h.first.kept.ids, ← hsame]
    exact List.mem_map_of_mem hmem
  · obtain ⟨module, -, hmade⟩ := h.first.moduleOf hitem
    exact absurd (hmade.made.stage.symm.trans hstage) (by decide)

/-- The design items reach the last plan as they are. -/
theorem kept_module (h : Joined plan middle expanded blueprint integrationId blueprintItemId waves
    present modules present' implementations) (hitem : item ∈ modules) : item ∈ expanded.workItems := by
  have hmem : item ∈ middle.workItems := by
    rw [h.first.workItems]
    exact List.mem_append_right _ hitem
  obtain ⟨item', hitem', hcarried⟩ := exists_right_of_forall₂ h.second.kept.carried hmem
  obtain rfl := hcarried.same (h.not_anchor hitem)
  rw [h.second.workItems]
  exact List.mem_append_left _ hitem'

/-- An item of the last plan that is new is one of the added ones. -/
theorem new_cases (h : Joined plan middle expanded blueprint integrationId blueprintItemId waves
    present modules present' implementations) (hmem : item ∈ expanded.workItems)
    (hnew : item.id ∉ plan.itemIds) : item ∈ modules ∨ item ∈ implementations := by
  rw [h.second.workItems, List.mem_append] at hmem
  rcases hmem with hpresent | hadded
  · obtain ⟨before, hbefore, hcarried⟩ := exists_left_of_forall₂ h.second.kept.carried hpresent
    rw [h.first.workItems, List.mem_append] at hbefore
    rcases hbefore with hold | hmodule
    · refine absurd ?_ hnew
      rw [← h.first.kept.ids, hcarried.id]
      exact List.mem_map_of_mem hold
    · obtain rfl := hcarried.same (h.not_anchor hmodule)
      exact .inl hmodule
  · exact .inr hadded

theorem implementation_new (h : Joined plan middle expanded blueprint integrationId blueprintItemId
    waves present modules present' implementations) (hitem : item ∈ implementations) :
    item.id ∉ plan.itemIds := by
  intro hmem
  have hnodup := expanded.itemIds_nodup
  rw [PlanFields.itemIds, h.second.workItems, List.map_append, h.second.kept.ids] at hnodup
  refine List.disjoint_of_nodup_append hnodup ?_ (List.mem_map_of_mem hitem)
  rw [PlanFields.itemIds, h.first.workItems, List.map_append, h.first.kept.ids]
  exact List.mem_append_left _ hmem

theorem added_module (h : Joined plan middle expanded blueprint integrationId blueprintItemId waves
    present modules present' implementations) {module : ModuleRef}
    (hmodule : module ∈ blueprint.modules) : Added plan expanded moduleStage module.moduleId item ↔
      item ∈ modules ∧ ModuleItem blueprintItemId waves module item := by
  constructor
  · intro hadded
    rcases h.new_cases hadded.mem hadded.new with hitem | hitem
    · obtain ⟨other, hother, hmade⟩ := h.first.moduleOf hitem
      have hsame : other.moduleId = module.moduleId :=
        Json.str.inj (hmade.made.declared.symm.trans hadded.made.declared)
      obtain rfl := h.first.eq_of_moduleId_eq hother hmodule hsame
      exact ⟨hitem, hmade⟩
    · obtain ⟨other, -, hmade⟩ := exists_left_of_forall₂ h.second.items hitem
      exact absurd (hmade.made.stage.symm.trans hadded.made.stage) (by decide)
  · intro ⟨hitem, hmade⟩
    exact ⟨h.kept_module hitem, h.first.new hitem, hmade.made⟩

theorem added_implementation (h : Joined plan middle expanded blueprint integrationId blueprintItemId
    waves present modules present' implementations) {module : ModuleRef}
    (hmodule : module ∈ blueprint.modules) :
    Added plan expanded implementationStage module.moduleId item ↔
      item ∈ implementations ∧ ImplementationItem module item := by
  constructor
  · intro hadded
    rcases h.new_cases hadded.mem hadded.new with hitem | hitem
    · obtain ⟨other, -, hmade⟩ := h.first.moduleOf hitem
      exact absurd (hmade.made.stage.symm.trans hadded.made.stage) (by decide)
    · obtain ⟨other, hother, hmade⟩ := exists_left_of_forall₂ h.second.items hitem
      have hsame : other.moduleId = module.moduleId :=
        Json.str.inj (hmade.made.declared.symm.trans hadded.made.declared)
      obtain rfl := h.first.eq_of_moduleId_eq hother hmodule hsame
      exact ⟨hitem, hmade⟩
  · intro ⟨hitem, hmade⟩
    refine ⟨?_, h.implementation_new hitem, hmade.made⟩
    rw [h.second.workItems]
    exact List.mem_append_right _ hitem

/-- An item of the plan in the last one, with all its edges. -/
theorem carried (h : Joined plan middle expanded blueprint integrationId blueprintItemId waves
    present modules present' implementations) (hitem : item ∈ plan.workItems) :
    ∃ item' ∈ expanded.workItems,
      Carried (some item.id = integrationId ∨ item.stageId = some "contract") item item' := by
  obtain ⟨between, hbetween, hfirst⟩ := exists_right_of_forall₂ h.first.kept.carried hitem
  have hmem : between ∈ middle.workItems := by
    rw [h.first.workItems]
    exact List.mem_append_left _ hbetween
  obtain ⟨item', hitem', hsecond⟩ := exists_right_of_forall₂ h.second.kept.carried hmem
  refine ⟨item', ?_, ?_⟩
  · rw [h.second.workItems]
    exact List.mem_append_left _ hitem'
  · refine ⟨hsecond.id.trans hfirst.id, hsecond.stageId.trans hfirst.stageId,
      hsecond.slot.trans hfirst.slot, fun d hd => hsecond.edges d (hfirst.edges d hd), fun hnot => ?_⟩
    rw [hfirst.same fun hid => hnot (.inl hid)] at hsecond
    exact hsecond.same hnot

/-- The integration item waits for what each expansion added. -/
theorem waits (h : Joined plan middle expanded blueprint integrationId blueprintItemId waves
    present modules present' implementations) {id : String} (hid : id ∈ integrationId) :
    ∃ item ∈ expanded.workItems, item.id = id ∧
      ∀ added ∈ expanded.workItems, added.id ∉ plan.itemIds → added.id ∈ item.dependencyIds := by
  obtain ⟨between, hbetween, hbetweenId, hmodules⟩ := h.first.kept.waits id hid
  obtain ⟨last, hlast, hlastId, himplementations⟩ := h.second.kept.waits id hid
  have hlastMem : last ∈ expanded.workItems := by
    rw [h.second.workItems]
    exact List.mem_append_left _ hlast
  refine ⟨last, hlastMem, hlastId, fun added hadded hnew => ?_⟩
  rcases h.new_cases hadded hnew with hitem | hitem
  · have hmem : between ∈ middle.workItems := by
      rw [h.first.workItems]
      exact List.mem_append_left _ hbetween
    obtain ⟨item', hitem', hcarried⟩ := exists_right_of_forall₂ h.second.kept.carried hmem
    have hsame : item' = last := by
      apply expanded.eq_of_id_eq _ hlastMem ((hcarried.id.trans hbetweenId).trans hlastId.symm)
      rw [h.second.workItems]
      exact List.mem_append_left _ hitem'
    obtain ⟨module, hmodule, hmade⟩ := h.first.moduleOf hitem
    rw [← hsame, hmade.id]
    apply hcarried.edges
    exact hmodules _ (List.mem_map_of_mem (List.mem_map_of_mem hmodule))
  · exact himplementations _ (List.mem_map_of_mem hitem)

theorem moduleEdges (h : Joined plan middle expanded blueprint integrationId blueprintItemId waves
    present modules present' implementations) {module other : ModuleRef}
    (hmodule : module ∈ blueprint.modules) (hother : other ∈ blueprint.modules) {otherItem : WorkItem}
    (hmade : ModuleItem blueprintItemId waves module item) (hotherItem : otherItem ∈ modules)
    (hotherMade : ModuleItem blueprintItemId waves other otherItem) :
    otherItem.id ∈ item.dependencyIds ↔ other.moduleId ∈ module.dependsOnModules := by
  rw [hmade.dependencyIds, List.mem_cons, List.mem_map, hotherMade.id]
  constructor
  · rintro (hblueprint | ⟨id, hid, hsame⟩)
    · rw [← hotherMade.id] at hblueprint
      exact absurd (hblueprint ▸ h.first.blueprintItem) (h.first.new hotherItem)
    · have hknown := (wave_lt h.first.nodup h.first.levels hmodule hid).1
      rwa [← moduleItemOf_inj h.first hknown (List.mem_map_of_mem hother) hsame]
  · exact fun hdep => .inr ⟨other.moduleId, hdep, rfl⟩

theorem graph (h : Joined plan middle expanded blueprint integrationId blueprintItemId waves present
    modules present' implementations) : ModuleGraph plan expanded blueprint integrationId where
  moduleItem module hmodule := by
    obtain ⟨item, hitem, hmade⟩ := h.first.itemOf hmodule
    refine ⟨item, (h.added_module hmodule).mpr ⟨hitem, hmade⟩, fun other hother => ?_⟩
    have hotherMade := ((h.added_module hmodule).mp hother).2
    exact expanded.eq_of_id_eq hother.mem (h.kept_module hitem) (hotherMade.id.trans hmade.id.symm)
  implementationItem module hmodule := by
    obtain ⟨item, hitem, hmade⟩ := exists_right_of_forall₂ h.second.items hmodule
    have hadded := (h.added_implementation hmodule).mpr ⟨hitem, hmade⟩
    refine ⟨item, hadded, fun other hother => ?_⟩
    have hotherMade := ((h.added_implementation hmodule).mp hother).2
    exact expanded.eq_of_id_eq hother.mem hadded.mem (hotherMade.id.trans hmade.id.symm)
  nothingElse item hmem hnew := by
    rcases h.new_cases hmem hnew with hitem | hitem
    · obtain ⟨module, hmodule, hmade⟩ := h.first.moduleOf hitem
      exact ⟨module, hmodule, .inl hmade.made⟩
    · obtain ⟨module, hmodule, hmade⟩ := exists_left_of_forall₂ h.second.items hitem
      exact ⟨module, hmodule, .inr hmade.made⟩
  moduleEdges module hmodule other hother item otherItem hitem hotherItem := by
    obtain ⟨-, hmade⟩ := (h.added_module hmodule).mp hitem
    obtain ⟨hmem, hotherMade⟩ := (h.added_module hother).mp hotherItem
    exact h.moduleEdges hmodule hother hmade hmem hotherMade
  waves module hmodule otherId hdep item otherItem hitem hotherItem := by
    obtain ⟨hknown, hlt⟩ := wave_lt h.first.nodup h.first.levels hmodule hdep
    obtain ⟨other, hother, rfl⟩ := List.mem_map.mp hknown
    obtain ⟨wave, hwave, heq⟩ := ((h.added_module hmodule).mp hitem).2.wave
    obtain ⟨otherWave, hotherWave, hotherEq⟩ := ((h.added_module hother).mp hotherItem).2.wave
    have := hlt wave otherWave hwave hotherWave
    omega
  ownModule module hmodule item moduleItem hitem hmoduleItem := by
    rw [((h.added_implementation hmodule).mp hitem).2.dependencyIds,
      ((h.added_module hmodule).mp hmoduleItem).2.id]
    exact List.mem_singleton_self _
  integration id hid := h.waits hid
  digests item hitem hid hstage := by
    obtain ⟨item', hitem', hcarried⟩ := h.carried hitem
    obtain rfl := hcarried.same (not_or.mpr ⟨hid, hstage⟩)
    exact ⟨item', hitem', rfl, rfl⟩
  edges a b hpath := by
    refine Relation.TransGen.mono ?_ a b hpath
    rintro x y ⟨item, hitem, rfl, hy⟩
    obtain ⟨item', hitem', hcarried⟩ := h.carried hitem
    exact ⟨item', hitem', hcarried.id, hcarried.edges y hy⟩

end Joined

/-- Both expansions of a plan give the graph of the modules. -/
theorem expansions_graph {maxModules : Nat} {blueprintId blueprintId' : String}
    {revision revision' : Option Int} {designs : List ModuleDesign} {supplied : Dict String String}
    {byModules : BlueprintExpansion} {byImplementations : ImplementationExpansion}
    (hmodules : expandModules maxModules plan blueprint blueprintId integrationId revision =
      .ok byModules)
    (himplementations : expandImplementations maxModules byModules.plan blueprint designs blueprintId'
      supplied integrationId revision' = .ok byImplementations)
    (hsupplied : ∀ moduleId itemId, supplied.get? moduleId = some itemId →
      ∃ item ∈ byModules.plan.workItems, item.id = itemId ∧ MadeFor moduleStage moduleId item) :
    ModuleGraph plan byImplementations.plan blueprint integrationId := by
  obtain ⟨_, _, _, _, hfirst⟩ := expandModules_eq_ok hmodules
  obtain ⟨_, _, hsecond⟩ := expandImplementations_eq_ok
    (fun _ hmodule _ => hfirst.resolve hsupplied hmodule) himplementations
  exact (Joined.mk hfirst hsecond).graph

end graph

section shop

def blueprintItem : WorkItem := .ofFields {
  id := "wi-blueprint"
  agentId := "architecture_agent"
  objective := "总体蓝图"
  outputKey := "architecture"
  executionMode := .partitioned
  slot := some "blueprint"
  stageId := some "architecture_blueprint" } (by decide)

def integrationItem : WorkItem := .ofFields {
  id := "wi-architecture-integration"
  agentId := "architecture_agent"
  objective := "集成架构"
  outputKey := "architecture"
  executionMode := .integration
  publishTarget := some "architecture"
  dependencies := [⟨⟨"wi-blueprint", .system, some "integration"⟩, by decide⟩]
  stageId := some "architecture_integration" } (by decide)

def shopPlan : ExecutionPlan where
  id := "plan-dynamic"
  goal := "构建电商系统"
  workItems := [blueprintItem, integrationItem]
  trace := { requirementId := "req-1", traceId := "trace-1" }
  accepted := by decide

def shopBlueprint : ArchitectureBlueprint where
  designId := "shop"
  layerNames := ["api"]
  modules := [{ moduleId := "catalog", responsibility := "商品目录", purpose := some "让用户发现商品" },
    { moduleId := "orders", responsibility := "订单编排", purpose := some "让用户完成购买",
      dependsOnModules := ["catalog"] }]

def shopDesigns : List ModuleDesign := [
  { designId := "module-catalog", parentDesignId := "shop", moduleId := "catalog",
    purpose := some "让用户发现商品" },
  { designId := "module-orders", parentDesignId := "shop", moduleId := "orders",
    purpose := some "让用户完成购买", dependsOnModules := ["catalog"] }]

/-- The texts of the added items are never blank, so the evaluation need not read them. -/
theorem shop_expands : (do
    let byModules ← expandModules 12 shopPlan shopBlueprint "wi-blueprint"
      (some "wi-architecture-integration") none
    expandImplementations 12 byModules.plan shopBlueprint shopDesigns "wi-blueprint" ∅
      (some "wi-architecture-integration") none).isOk = true := by
  unfold expandModules moduleItem moduleItemId
  unfold expandImplementations implementationItem implementationItemId
  simp (disch :=
    simp only [WorkItemFields.words, List.cons_append, List.nil_append, List.append_nil,
      List.forall_mem_cons]
    and_intros
    all_goals first
      | (repeat with_reducible apply Text.not_blank_append
         exact Text.blank_ofList_cons (by decide))
      | exact fun _ h => absurd h List.not_mem_nil) only [WorkItem.create_eq_worded]
  decide +kernel

/-- Orders on top of a catalog. -/
theorem shop_graph : ∃ byModules byImplementations,
    expandModules 12 shopPlan shopBlueprint "wi-blueprint" (some "wi-architecture-integration") none =
      .ok byModules ∧
    expandImplementations 12 byModules.plan shopBlueprint shopDesigns "wi-blueprint" ∅
      (some "wi-architecture-integration") none = .ok byImplementations ∧
    ModuleGraph shopPlan byImplementations.plan shopBlueprint (some "wi-architecture-integration") := by
  obtain ⟨byImplementations, hboth⟩ := exists_of_isOk shop_expands
  obtain ⟨byModules, hmodules, himplementations⟩ := bind_eq_ok.mp hboth
  exact ⟨byModules, byImplementations, hmodules, himplementations,
    expansions_graph hmodules himplementations fun _ _ hnone => nomatch hnone⟩

end shop

end ProjectOS.Planner.DynamicPlanBuilder
