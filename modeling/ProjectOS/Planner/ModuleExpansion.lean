import ProjectOS.Base.GlobLanguage
import ProjectOS.Base.Schedules
import ProjectOS.Orchestration.PlanExtension
import ProjectOS.Planner.ModuleGraph

/-! When a plan can be expanded by the modules of a blueprint. -/
namespace ProjectOS.Planner.DynamicPlanBuilder
open Base Artifact Orchestration Architecture Relation

section names

theorem mem_collapseRuns {keep : Char → Bool} {sub c : Char} {inRun : Bool} {cs : List Char}
    (h : c ∈ Text.collapseRuns keep sub inRun cs) : keep c = true ∨ c = sub := by
  induction cs generalizing inRun with
  | nil => cases h
  | cons d cs ih =>
    unfold Text.collapseRuns at h
    split at h
    · rename_i hd
      rcases List.mem_cons.mp h with rfl | h
      · exact .inl hd
      · exact ih h
    · split at h
      · exact ih h
      · rcases List.mem_cons.mp h with rfl | h
        · exact .inr rfl
        · exact ih h

theorem mem_of_mem_stripBy {p : Char → Bool} {s : String} {c : Char}
    (h : c ∈ (Text.stripBy p s).toList) : c ∈ s.toList := by
  simp only [Text.stripBy, Text.rstripBy, Text.lstripBy, String.toList_ofList] at h
  exact (List.dropWhile_sublist p).subset ((List.rdropWhile_prefix p _).subset h)

/-- A node name is at most eighty safe characters. -/
theorem safeComponent_safe (moduleId : String) :
    (∀ c ∈ (safeComponent moduleId).toList, Text.isSafeChar c = true) ∧
      (safeComponent moduleId).toList.length ≤ 80 := by
  unfold safeComponent
  rw [String.toList_ofList]
  constructor
  · intro c hc
    have hcollapsed := mem_of_mem_stripBy (List.mem_of_mem_take hc)
    rw [Text.collapse, String.toList_ofList] at hcollapsed
    rcases mem_collapseRuns hcollapsed with hsafe | rfl
    · exact hsafe
    · decide
  · exact List.length_take_le _ _

/-- A safe word before a node name gives an identifier. -/
theorem safeId_append {front : String} (hfront : safeId front = true)
    (hlength : front.toList.length ≤ 40) (moduleId : String) :
    safeId (front ++ safeComponent moduleId) = true := by
  obtain ⟨hsafe, hcount⟩ := safeComponent_safe moduleId
  unfold safeId at hfront ⊢
  rw [String.toList_append]
  split at hfront
  · cases hfront
  · rename_i c rest hchars
    rw [hchars] at hlength ⊢
    simp only [List.cons_append, Bool.and_eq_true, decide_eq_true_eq, List.all_eq_true,
      List.length_append, List.mem_append] at hfront ⊢
    rw [List.length_cons] at hlength
    exact ⟨⟨hfront.1.1, by omega⟩, fun d hd => hd.elim (hfront.2 d) (hsafe d)⟩

theorem safeIdsFrom_isOk {known : Dict String String} {moduleIds : List String}
    (hnamed : ∀ moduleId ∈ moduleIds, safeComponent moduleId ≠ "")
    (hapart : (moduleIds.map safeComponent).Nodup)
    (hfree : ∀ moduleId ∈ moduleIds, safeComponent moduleId ∉ known.values) :
    ∃ safeIds, safeIdsFrom known moduleIds = .ok safeIds := by
  induction moduleIds generalizing known with
  | nil => exact ⟨known, rfl⟩
  | cons moduleId rest ih =>
    simp only [List.forall_mem_cons, List.map_cons, List.nodup_cons] at hnamed hapart hfree
    have hnext : ∀ other ∈ rest,
        safeComponent other ∉ (known.set moduleId (safeComponent moduleId)).values := by
      intro other hother hmem
      obtain ⟨e, he, hvalue⟩ := List.mem_map.mp hmem
      rcases Dict.mem_set he with hnew | hold
      · rw [hnew] at hvalue
        exact hapart.1 (List.mem_map.mpr ⟨other, hother, hvalue.symm⟩)
      · exact hfree.2 other hother (List.mem_map.mpr ⟨e, hold, hvalue⟩)
    obtain ⟨safeIds, h⟩ := ih hnamed.2 hapart.2 hnext
    refine ⟨safeIds, ?_⟩
    unfold safeIdsFrom
    simp only [raiseWhen_bind_eq_ok, decide_eq_false_iff_not]
    exact ⟨hnamed.1, hfree.1, h⟩

theorem known_of_safeIdsFrom {safeIds : Dict String String} {moduleIds : List String}
    (h : safeIdsFrom ∅ moduleIds = .ok safeIds) :
    ∀ moduleId ∈ moduleIds, ∃ safe, safeIds.get? moduleId = some safe := by
  intro moduleId hmem
  obtain ⟨hentries, -⟩ := safeIdsFrom_eq_ok (show _ = [].map _ from rfl) h
  rw [List.nil_append] at hentries
  rw [← Dict.mem_keys_iff, Dict.keys, hentries, List.map_map]
  exact List.mem_map.mpr ⟨moduleId, hmem, rfl⟩

theorem named_of_safeIdsFrom {known safeIds : Dict String String} {moduleIds : List String}
    (h : safeIdsFrom known moduleIds = .ok safeIds) :
    ∀ moduleId ∈ moduleIds, safeComponent moduleId ≠ "" := by
  induction moduleIds generalizing known with
  | nil => exact fun _ hmem => absurd hmem List.not_mem_nil
  | cons moduleId rest ih =>
    simp only [safeIdsFrom, raiseWhen_bind_eq_ok, decide_eq_false_iff_not] at h
    exact List.forall_mem_cons.mpr ⟨h.1, ih h.2.2⟩

/-- Every module has a node name of its own. -/
theorem safeIdsFrom_isOk_iff {moduleIds : List String} :
    (∃ safeIds, safeIdsFrom ∅ moduleIds = .ok safeIds) ↔
      (∀ moduleId ∈ moduleIds, safeComponent moduleId ≠ "") ∧
        (moduleIds.map safeComponent).Nodup := by
  constructor
  · rintro ⟨safeIds, h⟩
    refine ⟨named_of_safeIdsFrom h, ?_⟩
    simpa using (safeIdsFrom_eq_ok (show _ = [].map _ from rfl) h).2 List.nodup_nil
  · rintro ⟨hnamed, hapart⟩
    exact safeIdsFrom_isOk hnamed hapart fun _ _ => List.not_mem_nil

end names

section waves
variable {blueprint : ArchitectureBlueprint} {maxModules : Nat}

/-- What the validation says about the dependencies. -/
theorem dependencies_of_validate (h : blueprint.validate maxModules = .ok ()) :
    blueprint.moduleIds.Nodup ∧
      (∀ module ∈ blueprint.modules, ∀ d ∈ module.dependsOnModules, d ∈ blueprint.moduleIds) ∧
      ∀ a, ¬ TransGen (Reachability.Edge blueprint.graph) a a := by
  simp only [ArchitectureBlueprint.validate, check_bind_eq_ok, raiseWhen_eq_ok, forEach_eq_ok] at h
  obtain ⟨-, -, -, hnodup, hmodules, hacyclic⟩ := h
  have hnodup : blueprint.moduleIds.Nodup := by simpa using hnodup
  have hknown : ∀ module ∈ blueprint.modules, ∀ d ∈ module.dependsOnModules,
      d ∈ blueprint.moduleIds := by
    intro module hmodule d hd
    have hcheck := hmodules module hmodule
    simp only [ArchitectureBlueprint.validateModule, check_bind_eq_ok, raiseWhen_eq_ok,
      Bool.not_eq_false', List.isEmpty_iff] at hcheck
    by_contra hunknown
    have hmem : d ∈ ArchitectureBlueprint.unknownDependencies blueprint.moduleIds module := by
      simp [ArchitectureBlueprint.unknownDependencies, Text.mem_sorted, mem_dedupe, hd, hunknown]
    rw [hcheck.2.1] at hmem
    cases hmem
  refine ⟨hnodup, hknown, ?_⟩
  have hnodes : Layers.nodes blueprint.graph = blueprint.moduleIds := by
    simp [Layers.nodes, ArchitectureBlueprint.graph, ArchitectureBlueprint.moduleIds]
  apply Reachability.irrefl_of_acyclic (hnodes ▸ hnodup)
  rw [← Layers.ensureAcyclic_eq_ok_iff]
  split at hacyclic
  · assumption
  · cases hacyclic

/-- The modules as the waves are computed from them. -/
def moduleNodes (blueprint : ArchitectureBlueprint) : Levels.Nodes String := fun moduleId =>
  ((moduleMap blueprint).get? moduleId).map fun module => (0, module.dependsOnModules)

theorem keys_moduleMap (hnodup : blueprint.moduleIds.Nodup) :
    (moduleMap blueprint).keys = blueprint.moduleIds := by
  rw [Dict.keys, moduleMap, Dict.entries_ofList _ (by rwa [List.map_map]), List.map_map]
  rfl

theorem moduleNodes_of_mem (hnodup : blueprint.moduleIds.Nodup) {module : ModuleRef}
    (hmodule : module ∈ blueprint.modules) :
    moduleNodes blueprint module.moduleId = some (0, module.dependsOnModules) := by
  rw [moduleNodes, (moduleMap_get? hnodup).mpr ⟨hmodule, rfl⟩, Option.map_some]

theorem edge_moduleNodes (hnodup : blueprint.moduleIds.Nodup) :
    Levels.Edge (moduleNodes blueprint) = Reachability.Edge blueprint.graph := by
  funext a b
  simp only [Levels.Edge, Reachability.Edge, ArchitectureBlueprint.graph, List.mem_map, eq_iff_iff]
  constructor
  · rintro ⟨own, deps, hsome, hb⟩
    obtain ⟨module, hmodule, heq⟩ := Option.map_eq_some_iff.mp hsome
    obtain ⟨hmem, hid⟩ := (moduleMap_get? hnodup).mp hmodule
    cases heq
    exact ⟨_, ⟨module, hmem, rfl⟩, hid, hb⟩
  · rintro ⟨_, ⟨module, hmem, rfl⟩, rfl, hb⟩
    exact ⟨_, _, moduleNodes_of_mem hnodup hmem, hb⟩

/-- A valid blueprint has a wave for each module. -/
theorem moduleWaves_isOk (h : blueprint.validate maxModules = .ok ()) :
    ∃ waves, moduleWaves blueprint = .ok waves ∧
      ∀ moduleId ∈ blueprint.moduleIds, ∃ wave, waves.get? moduleId = some wave := by
  obtain ⟨hnodup, hknown, hacyclic⟩ := dependencies_of_validate h
  have hkeys := keys_moduleMap hnodup
  have hlisted : ∀ x, moduleNodes blueprint x ≠ none → x ∈ blueprint.moduleIds := by
    intro x hx
    obtain ⟨value, hvalue⟩ := Option.ne_none_iff_exists'.mp hx
    obtain ⟨module, hmodule, -⟩ := Option.map_eq_some_iff.mp hvalue
    exact hkeys ▸ Dict.mem_keys_iff.mpr ⟨module, hmodule⟩
  have hcount : blueprint.moduleIds.length < blueprint.modules.length + 1 := by
    simp [ArchitectureBlueprint.moduleIds]
  have hclosed : ∀ x ∈ blueprint.moduleIds, ∃ own deps,
      moduleNodes blueprint x = some (own, deps) ∧ deps ⊆ blueprint.moduleIds := by
    intro x hx
    obtain ⟨module, hmodule, rfl⟩ := List.mem_map.mp hx
    exact ⟨_, _, moduleNodes_of_mem hnodup hmodule, hknown module hmodule⟩
  have hranked := (Levels.exists_ranked_iff hclosed).mpr fun x _ =>
    edge_moduleNodes hnodup ▸ hacyclic x
  obtain ⟨waves, hwaves⟩ := (Levels.levels_isOk_iff hcount hlisted).mpr hranked
  refine ⟨waves, ?_, (Levels.levels_sound Levels.sound_empty hwaves).2.2⟩
  unfold moduleWaves
  dsimp only
  unfold moduleNodes at hwaves
  rw [hkeys, hwaves]

end waves

section items
variable {plan : ExecutionPlan} {blueprint : ArchitectureBlueprint} {safeIds : Dict String String}
  {waves : Dict String Nat} {blueprintItem : WorkItem} {ref : ArtifactRef}

/-- The module names its dependencies once and no blank requirement. -/
def Tidy (module : ModuleRef) : Prop :=
  module.dependsOnModules.Nodup ∧ module.requirementIds.any Text.blank = false

theorem not_blank_moduleItemId (safe : String) : Text.blank (moduleItemId safe) = false :=
  Text.not_blank_append (by decide)

theorem moduleRef_isOk (htrace : safeId plan.trace.traceId = true) (moduleId : String) :
    ∃ ref, moduleRef plan (moduleItemId (safeComponent moduleId)) (safeComponent moduleId) = .ok ref :=
  ArtifactRef.staged_isOk_iff.mpr ⟨by decide, htrace, safeId_append (by decide) (by decide) _,
    safeId_append (by decide) (by decide) _⟩

/-- Different modules have different items, none of them the blueprint's. -/
theorem dependencies_fit_iff (hsafe : SafeIds blueprint safeIds) {module : ModuleRef}
    (hmodule : module ∈ blueprint.modules)
    (hknown : ∀ d ∈ module.dependsOnModules, d ∈ blueprint.moduleIds)
    (hself : module.moduleId ∉ module.dependsOnModules) {blueprintItemId : String}
    (hfree : ∀ moduleId ∈ blueprint.moduleIds, moduleItemOf moduleId ≠ blueprintItemId) :
    ((blueprintItemId :: module.dependsOnModules.map moduleItemOf).Nodup ∧
      moduleItemOf module.moduleId ∉ blueprintItemId :: module.dependsOnModules.map moduleItemOf) ↔
        module.dependsOnModules.Nodup := by
  have hid : module.moduleId ∈ blueprint.moduleIds := List.mem_map_of_mem hmodule
  have hinj {a b : String} (ha : a ∈ blueprint.moduleIds) (hb : b ∈ blueprint.moduleIds)
      (h : moduleItemOf a = moduleItemOf b) : a = b := hsafe.inj a ha b hb (append_left_inj h)
  constructor
  · rintro ⟨hnodup, -⟩
    exact (List.nodup_cons.mp hnodup).2.of_map
  · intro hnodup
    refine ⟨List.nodup_cons.mpr ⟨?_, hnodup.map_on fun a ha b hb =>
      hinj (hknown a ha) (hknown b hb)⟩, ?_⟩
    · intro hmem
      obtain ⟨d, hd, heq⟩ := List.mem_map.mp hmem
      exact hfree d (hknown d hd) heq
    · rw [List.mem_cons, not_or]
      refine ⟨hfree _ hid, fun hmem => ?_⟩
      obtain ⟨d, hd, heq⟩ := List.mem_map.mp hmem
      exact hself (hinj (hknown d hd) hid heq ▸ hd)

/-- The constructor refuses the item of a module only for a doubled dependency or a
blank requirement. -/
theorem moduleItem_isOk_iff (hsafe : SafeIds blueprint safeIds)
    (hids : ∀ moduleId ∈ blueprint.moduleIds, ∃ safe, safeIds.get? moduleId = some safe)
    (hwaves : ∀ moduleId ∈ blueprint.moduleIds, ∃ wave, waves.get? moduleId = some wave)
    (htrace : safeId plan.trace.traceId = true) {module : ModuleRef}
    (hmodule : module ∈ blueprint.modules)
    (hknown : ∀ d ∈ module.dependsOnModules, d ∈ blueprint.moduleIds)
    (hself : module.moduleId ∉ module.dependsOnModules)
    (hfree : ∀ moduleId ∈ blueprint.moduleIds, moduleItemOf moduleId ≠ blueprintItem.id) :
    (∃ item, moduleItem plan blueprint blueprintItem ref safeIds waves module = .ok item) ↔
      Tidy module := by
  have hget {moduleId : String} (h : moduleId ∈ blueprint.moduleIds) :
      subscript safeIds moduleId = .ok (safeComponent moduleId) := by
    obtain ⟨safe, hsome⟩ := hids moduleId h
    rw [subscript_eq_ok, hsome, hsafe.get _ _ hsome]
  have hid : module.moduleId ∈ blueprint.moduleIds := List.mem_map_of_mem hmodule
  obtain ⟨wave, hwave⟩ := hwaves module.moduleId hid
  have hothers : collect (subscript safeIds) module.dependsOnModules =
      .ok (module.dependsOnModules.map safeComponent) := by
    rw [collect_eq_ok, List.forall₂_map_right_iff, List.forall₂_same]
    exact fun d hd => hget (hknown d hd)
  obtain ⟨onBlueprint, honBlueprint⟩ := WorkItemDependency.system_isOk
    "architecture_blueprint:module" blueprintItem.id_not_blank (by decide)
  obtain ⟨onModules, honModules⟩ := collect_isOk_iff.mpr
    fun safe (_ : safe ∈ module.dependsOnModules.map safeComponent) =>
      WorkItemDependency.system_isOk "architecture_module:depends_on_modules"
        (not_blank_moduleItemId safe) (by decide)
  have hstaged : ∀ safe ∈ module.dependsOnModules.map safeComponent,
      ∃ ref, moduleRef plan (moduleItemId safe) safe = .ok ref := by
    rw [List.forall_mem_map]
    exact fun d _ => moduleRef_isOk htrace d
  obtain ⟨refs, hrefs⟩ := collect_isOk_iff.mpr hstaged
  have honModules' : onModules.map (·.workItemId) =
      (module.dependsOnModules.map safeComponent).map moduleItemId :=
    map_of_collect honModules fun _ _ hdep => workItemId_of_system hdep
  unfold moduleItem
  rw [hget hid, ok_bind, subscript_eq_ok.mpr hwave, ok_bind, honBlueprint, ok_bind, hothers, ok_bind,
    honModules, ok_bind, hrefs, ok_bind]
  refine (WorkItem.Pathless.create_isOk_iff ?_).trans ?_
  · exact {
      fresh := rfl
      paths := ⟨rfl, rfl, rfl, rfl⟩
      refs := ⟨rfl, rfl⟩
      unit := rfl
      tools := rfl
      wave := by
        dsimp only
        omega
      words := by
        unfold WorkItemFields.words moduleItemId
        dsimp only [List.cons_append, List.nil_append]
        simp only [List.forall_mem_cons]
        and_intros
        all_goals first
          | (repeat with_reducible apply Text.not_blank_append
             exact Text.blank_ofList_cons (by decide))
          | exact fun _ h => absurd h List.not_mem_nil
      labels := by
        dsimp only
        exact ⟨by decide, by decide, by decide⟩
      grant := by
        dsimp only [WorkItemFields.validateExecutionGrant]
        have hslot : WorkItemFields.missing (some ("module-" ++ safeComponent module.moduleId)) = false :=
          Text.not_blank_append (by decide)
        rw [hslot]
        rfl }
  · dsimp only [WorkItemFields.dependencyIds]
    rw [List.map_cons, workItemId_of_system honBlueprint, honModules', List.map_map]
    exact (and_congr_right fun _ => dependencies_fit_iff hsafe hmodule hknown hself hfree).trans
      and_comm

/-- A design item as the builder drafts it. -/
structure Drafted (stage : String) (item : WorkItem) : Prop where
  agentId : item.agentId = "architecture_agent"
  executionMode : item.executionMode = .partitioned
  artifactKey : item.artifactKey = some "architecture"
  ownedFiles : item.ownedFiles = []
  stageId : item.stageId = some stage
  requiredTools : item.requiredTools = DeliveryContractRegistry.requiredToolsFor item.role

theorem drafted_of_create {raw : WorkItemFields} {item : WorkItem} {stage : String}
    (h : WorkItem.create raw = .ok item)
    (hraw : raw.agentId = "architecture_agent" ∧ raw.executionMode = .partitioned ∧
      raw.artifactKey = some "architecture" ∧ raw.ownedFiles = [] ∧ raw.stageId = some stage ∧
      raw.requiredTools = []) : Drafted stage item := by
  obtain ⟨hagent, hmode, hkey, howned, hstage, htools⟩ := hraw
  obtain ⟨_, _, hfields⟩ := WorkItem.create_fields h
  have htools' : item.requiredTools = raw.fill.requiredTools := by rw [hfields]
  have hrole : item.role = raw.role := by rw [hfields]; rfl
  constructor
  · rw [hfields]; exact hagent
  · rw [hfields]; exact hmode
  · rw [hfields, WorkItemFields.fill, hkey]; rfl
  · rw [hfields]; exact howned
  · rw [hfields]; exact hstage
  · rw [htools', hrole, WorkItemFields.fill, htools]
    rfl

theorem moduleItem_drafted {module : ModuleRef} {item : WorkItem}
    (h : moduleItem plan blueprint blueprintItem ref safeIds waves module = .ok item) :
    Drafted moduleStage item := by
  simp only [moduleItem, bind_eq_ok] at h
  obtain ⟨_, -, _, -, _, -, _, -, _, -, _, -, hcreate⟩ := h
  exact drafted_of_create hcreate ⟨rfl, rfl, rfl, rfl, rfl, rfl⟩

/-- The delivery contract of a module's design. -/
def moduleContract : WorkItemDeliveryContract :=
  DeliveryContractRegistry.architecture "architecture.module_design"
    ["load_architecture_input", "write_module_design"] "write_module_design"
    (some "module-*") "ModuleDesign"

theorem partitionedContract_module (rest : String) :
    DeliveryContractRegistry.partitionedContract ("module-" ++ rest) = some moduleContract := by
  have hstart : Text.startswith ("module-" ++ rest) "module-" = true := Text.startswith_append _ _
  have hother : "module-" ++ rest ∉ ["design", "baseline", "api", "data", "frontend", "blueprint"] := by
    intro hmem
    have hnone : ∀ slot ∈ ["design", "baseline", "api", "data", "frontend", "blueprint"],
        Text.startswith slot "module-" = false := by decide
    rw [hnone _ hmem] at hstart
    cases hstart
  simp only [List.mem_cons, List.not_mem_nil, or_false, not_or] at hother
  simp [DeliveryContractRegistry.partitionedContract, hother, hstart, moduleContract]

theorem Drafted.contract {stage : String} {item : WorkItem} (h : Drafted stage item) {rest : String}
    (hslot : item.slot = some ("module-" ++ rest)) :
    DeliveryContractRegistry.contractFor item.role = some moduleContract := by
  have hrole : item.role.agentId = "architecture_agent" ∧ item.role.executionMode = .partitioned ∧
      item.role.slot = some ("module-" ++ rest) := ⟨h.agentId, h.executionMode, hslot⟩
  unfold DeliveryContractRegistry.contractFor
  rw [hrole.1, hrole.2.1, hrole.2.2]
  exact partitionedContract_module rest

theorem Drafted.valid {stage : String} {item : WorkItem} (h : Drafted stage item) {rest : String}
    (hslot : item.slot = some ("module-" ++ rest)) :
    DeliveryContractRegistry.validateWorkItem item = [] := by
  have hcontract := h.contract hslot
  have htools : item.requiredTools = moduleContract.requiredTools := by
    rw [h.requiredTools, DeliveryContractRegistry.requiredToolsFor, hcontract]
  have hpattern : moduleContract.outputSlotPattern = some "module-*" := rfl
  have hmatch : Glob.fnmatch ("module-" ++ rest) "module-*" = true := by
    rw [show "module-*" = "module-" ++ "*" by decide,
      Glob.fnmatch_stars (by decide) Glob.matchTokens_star]
    exact Text.startswith_append _ _
  unfold DeliveryContractRegistry.validateWorkItem
  rw [hcontract]
  dsimp only
  rw [htools, hpattern, hslot]
  simp [hmatch]

theorem Drafted.places {stage slot : String} {item : WorkItem} (h : Drafted stage item)
    (hslot : item.slot = some slot) (hne : slot ≠ "") :
    DeliveryContractRegistry.outputIdentities item = [("architecture", slot, stage)] := by
  simp [DeliveryContractRegistry.outputIdentities, h.executionMode, h.artifactKey, hslot, hne,
    h.ownedFiles, h.stageId]

end items

section refs

/-- The parts of a staged reference hold no separator. -/
theorem staged_parts {ref : ArtifactRef} (h : ref.layer = "staged") :
    ∃ trace item slot, ref.traceId = some trace ∧ ref.workItemId = some item ∧
      ref.slot = some slot ∧ ∀ part ∈ [trace, item, slot], ':' ∉ part.toList := by
  have hplain {part : String} (hsafe : safeId part = true) : ':' ∉ part.toList := by
    intro hmem
    unfold safeId at hsafe
    split at hsafe
    · rename_i hnil
      rw [hnil] at hmem
      cases hmem
    · rename_i c rest hchars
      simp only [Bool.and_eq_true, decide_eq_true_eq, List.all_eq_true] at hsafe
      rw [hchars] at hmem
      rcases List.mem_cons.mp hmem with rfl | hmem
      · exact absurd hsafe.1.1 (by decide)
      · exact absurd (hsafe.2 _ hmem) (by decide)
  have haccepted := ref.accepted
  have hstaged : ¬ ref.layer = "published" := by
    rw [h]
    decide
  rw [RefFields.postInit, check_bind_eq_ok, if_neg hstaged, check_bind_eq_ok, forEach_eq_ok] at haccepted
  simp only [List.forall_mem_cons, validateId, raiseWhen_eq_ok, Bool.not_eq_false',
    Option.any_eq_true] at haccepted
  obtain ⟨-, -, ⟨trace, htrace, hsafe⟩, ⟨item, hitem, hsafe'⟩, ⟨slot, hslot, hsafe''⟩, -⟩ := haccepted
  exact ⟨trace, item, slot, htrace, hitem, hslot, List.forall_mem_cons.mpr ⟨hplain hsafe,
    List.forall_mem_cons.mpr ⟨hplain hsafe', List.forall_mem_singleton.mpr (hplain hsafe'')⟩⟩⟩

theorem split_refId {ref : ArtifactRef} (h : ref.layer = "staged") :
    (Text.split ':' ref.refId).map some = [some "staged", ref.traceId, ref.workItemId, ref.slot] := by
  obtain ⟨trace, item, slot, htrace, hitem, hslot, hplain⟩ := staged_parts h
  have hid : ref.refId = Text.join (String.singleton ':') ["staged", trace, item, slot] := by
    have hstaged : ¬ ref.layer = "published" := by
      rw [h]
      decide
    rw [ArtifactRef.refId, if_neg hstaged, htrace, hitem, hslot]
    simp [Text.join, String.intercalate_cons_cons, String.append_assoc]
  rw [hid, Text.split_join (List.cons_ne_nil _ _)
    (List.forall_mem_cons.mpr ⟨by decide, hplain⟩), htrace, hitem, hslot]
  rfl

theorem layer_of_refId {a b : ArtifactRef} (ha : a.layer = "staged") (h : a.refId = b.refId) :
    b.layer = "staged" := by
  have hstaged : ¬ a.layer = "published" := by
    rw [ha]
    decide
  have hother : ¬ b.layer = "published" := by
    intro hb
    rw [ArtifactRef.refId, if_neg hstaged, ArtifactRef.refId, if_pos hb] at h
    have hhead := congrArg (fun s => s.toList.head?) h
    simp at hhead
  have haccepted := b.accepted
  rw [RefFields.postInit, check_bind_eq_ok, if_neg hother, raiseWhen_bind_eq_ok] at haccepted
  exact bne_eq_false_iff_eq.mp haccepted.2.1

/-- A staged reference is known by its position. -/
theorem position_of_refId {a b : ArtifactRef} (ha : a.layer = "staged") (h : a.refId = b.refId) :
    b.layer = "staged" ∧ b.traceId = a.traceId ∧ b.workItemId = a.workItemId ∧ b.slot = a.slot := by
  have hb := layer_of_refId ha h
  have hparts := split_refId hb
  rw [← h, split_refId ha] at hparts
  simp only [List.cons.injEq, true_and, and_true] at hparts
  exact ⟨hb, hparts.1.symm, hparts.2.1.symm, hparts.2.2.symm⟩

theorem mem_mergeRefs {known new : List ArtifactRef} {ref : ArtifactRef}
    (h : ref ∈ mergeRefs known new) : ref ∈ known ∨ ref ∈ new := by
  induction new generalizing known with
  | nil => exact .inl h
  | cons first new ih =>
    rw [mergeRefs, List.foldl_cons] at h
    rcases ih h with hknown | hnew
    · split at hknown
      · exact .inl hknown
      · rcases List.mem_append.mp hknown with hknown | hfirst
        · exact .inl hknown
        · exact .inr (List.mem_singleton.mp hfirst ▸ List.mem_cons_self)
    · exact .inr (List.mem_cons_of_mem _ hnew)

theorem mem_refIds_mergeRefs {known new : List ArtifactRef} {refId : String}
    (h : refId ∈ known.map (·.refId) ∨ refId ∈ new.map (·.refId)) :
    refId ∈ (mergeRefs known new).map (·.refId) := by
  induction new generalizing known with
  | nil => exact h.resolve_right List.not_mem_nil
  | cons first new ih =>
    rw [mergeRefs, List.foldl_cons]
    apply ih
    rw [List.map_cons, List.mem_cons] at h
    split
    · rename_i hfirst
      rcases h with hknown | rfl | hnew
      · exact .inl hknown
      · exact .inl hfirst
      · exact .inr hnew
    · rw [List.map_append, List.mem_append, List.map_singleton, List.mem_singleton]
      tauto

end refs

section anchors

theorem orElse_of_not_blank {text : String} (h : Text.blank text = false) (default : String) :
    Text.orElse (some text) default = text :=
  if_neg (Text.ne_empty_of_not_blank h)

theorem slot_of_partitioned {item : WorkItem} (h : item.executionMode = .partitioned) :
    ∃ slot, item.slot = some slot ∧ Text.blank slot = false := by
  have hgrant := item.checks.2.2.2.2.2.2.2.2
  rw [WorkItemFields.validateExecutionGrant, h] at hgrant
  have hslot := (raiseWhen_bind_eq_ok.mp hgrant).1
  unfold WorkItemFields.missing at hslot
  split at hslot
  · rename_i slot heq
    exact ⟨slot, heq, hslot⟩
  · cases hslot

theorem artifactKey_not_blank (item : WorkItem) :
    ∃ key, item.artifactKey = some key ∧ Text.blank key = false := by
  obtain ⟨key, hkey⟩ := Option.isSome_iff_exists.mp item.artifactKey_isSome
  have hidentity := item.checks.1
  simp only [WorkItemFields.checkIdentity, check_bind_eq_ok, raiseWhen_eq_ok, hkey,
    Option.any_some] at hidentity
  exact ⟨key, hkey, hidentity.2.1⟩

end anchors

section expanded

theorem rebuilt_isOk_iff {plan : ExecutionPlan} {workItems : List WorkItem} :
    (∃ expanded, rebuilt plan workItems = .ok expanded) ↔ (plan.withItems workItems).WellFormed :=
  ExecutionPlan.create_isOk_iff.trans PlanFields.postInit_iff_wellFormed

/-- How the integration item takes the modules in: it comes after the blueprint,
and its contract integrates designs. -/
structure Joins (plan : ExecutionPlan) (blueprintItem integration : WorkItem) : Prop where
  mode : integration.executionMode = .integration
  later : ¬ TransGen plan.WaitsFor blueprintItem.id integration.id
  kinds : ∀ consumer, DeliveryContractRegistry.contractFor integration.role = some consumer →
    consumer.outputArtifactKind = some "architecture_design" ∧
      ∃ contract, DeliveryContractRegistry.contractFor blueprintItem.role = some contract ∧
        contract.outputArtifactKind = some "architecture_design"

def moduleItems (blueprint : ArchitectureBlueprint) : List String :=
  blueprint.moduleIds.map moduleItemOf

/-- The references to the designs of the modules. -/
def moduleRefs (plan : ExecutionPlan) (blueprint : ArchitectureBlueprint) :
    Result (List ArtifactRef) :=
  collect (fun safe => moduleRef plan (moduleItemId safe) safe)
    (blueprint.moduleIds.map safeComponent)

/-- The item added for a module. -/
structure AddedFor (blueprintItem : WorkItem) (module : ModuleRef) (item : WorkItem) : Prop where
  id : item.id = moduleItemOf module.moduleId
  drafted : Drafted moduleStage item
  slot : item.slot = some ("module-" ++ safeComponent module.moduleId)
  dependencyIds : item.dependencyIds = blueprintItem.id :: module.dependsOnModules.map moduleItemOf

/-- The items of the expanded plan: those of the plan, where the integration item is
wired anew, and one for each module. -/
structure Laid (plan : ExecutionPlan) (blueprint : ArchitectureBlueprint) (blueprintItem : WorkItem)
    (integrationId : Option String) (ref : ArtifactRef) (refs : List ArtifactRef)
    (renew : WorkItem → WorkItem) (added : List WorkItem) : Prop where
  anchor : blueprintItem ∈ plan.workItems
  mode : blueprintItem.executionMode = .partitioned
  fresh : ∀ item ∈ plan.workItems, isModuleItem item = false
  free : ∀ moduleId ∈ blueprint.moduleIds, moduleItemOf moduleId ∉ plan.itemIds
  apart : (blueprint.moduleIds.map safeComponent).Nodup
  known : ∀ module ∈ blueprint.modules, ∀ d ∈ module.dependsOnModules, d ∈ blueprint.moduleIds
  acyclic : ∀ a, ¬ TransGen (Reachability.Edge blueprint.graph) a a
  staged : blueprintRef plan blueprintItem = .ok ref
  designs : moduleRefs plan blueprint = .ok refs
  added : List.Forall₂ (AddedFor blueprintItem) blueprint.modules added
  renews : ∀ item ∈ plan.workItems, item.Renews (renew item)
  others : ∀ item ∈ plan.workItems, some item.id ≠ integrationId → renew item = item
  joined : ∀ item ∈ plan.workItems, some item.id = integrationId →
    (∀ d, d ∈ (renew item).dependencyIds ↔ d ∈ item.dependencyIds ∨ d ∈ moduleItems blueprint) ∧
      (renew item).inputRefs = mergeRefs item.inputRefs (ref :: refs)

namespace Laid
variable {plan : ExecutionPlan} {blueprint : ArchitectureBlueprint} {blueprintItem : WorkItem}
  {integrationId : Option String} {ref : ArtifactRef} {refs : List ArtifactRef}
  {renew : WorkItem → WorkItem} {added : List WorkItem}

/-- The fields of the expanded plan. -/
def fields (plan : ExecutionPlan) (renew : WorkItem → WorkItem) (added : List WorkItem) : PlanFields :=
  plan.withItems (plan.workItems.map renew ++ added)

variable (h : Laid plan blueprint blueprintItem integrationId ref refs renew added)
include h

theorem module_of_added {item : WorkItem} (hitem : item ∈ added) :
    ∃ module ∈ blueprint.modules, AddedFor blueprintItem module item :=
  exists_left_of_forall₂ h.added hitem

theorem exists_added {module : ModuleRef} (hmodule : module ∈ blueprint.modules) :
    ∃ item ∈ added, AddedFor blueprintItem module item :=
  exists_right_of_forall₂ h.added hmodule

theorem inj {a b : String} (ha : a ∈ blueprint.moduleIds) (hb : b ∈ blueprint.moduleIds)
    (heq : moduleItemOf a = moduleItemOf b) : a = b :=
  List.inj_on_of_nodup_map h.apart ha hb (append_left_inj heq)

theorem id_renew {item : WorkItem} (hitem : item ∈ plan.workItems) : (renew item).id = item.id :=
  (h.renews item hitem).rewires.id

theorem map_id_renew : (plan.workItems.map renew).map (·.id) = plan.itemIds := by
  rw [List.map_map]
  exact List.map_congr_left fun item hitem => h.id_renew hitem

theorem map_id_added : added.map (·.id) = moduleItems blueprint := by
  rw [moduleItems, ArchitectureBlueprint.moduleIds, List.map_map, ← List.forall₂_eq_eq_eq,
    List.forall₂_map_left_iff, List.forall₂_map_right_iff]
  exact (h.added.imp fun _ _ hadded => hadded.id).flip

theorem itemIds_fields : (fields plan renew added).itemIds = plan.itemIds ++ moduleItems blueprint := by
  rw [PlanFields.itemIds, fields, PlanFields.withItems, List.map_append, h.map_id_renew, h.map_id_added]

theorem distinct : (fields plan renew added).itemIds.Nodup := by
  rw [h.itemIds_fields, List.nodup_append']
  refine ⟨plan.itemIds_nodup, ?_, ?_⟩
  · exact h.apart.of_map.map_on fun a ha b hb => h.inj ha hb
  · intro id hid hmodule
    obtain ⟨moduleId, hmem, rfl⟩ := List.mem_map.mp hmodule
    exact h.free moduleId hmem hid

theorem waits_iff {a b : String} : (fields plan renew added).WaitsFor a b ↔
    plan.WaitsFor a b ∨ (some a = integrationId ∧ a ∈ plan.itemIds ∧ b ∈ moduleItems blueprint) ∨
      ∃ module ∈ blueprint.modules, a = moduleItemOf module.moduleId ∧
        (b = blueprintItem.id ∨ b ∈ module.dependsOnModules.map moduleItemOf) := by
  constructor
  · rintro ⟨item', hitem', rfl, hb⟩
    rcases List.mem_append.mp hitem' with hpresent | hadded
    · obtain ⟨item, hitem, rfl⟩ := List.mem_map.mp hpresent
      rw [h.id_renew hitem]
      by_cases hid : some item.id = integrationId
      · rcases ((h.joined item hitem hid).1 b).mp hb with hold | hnew
        · exact .inl ⟨item, hitem, rfl, hold⟩
        · exact .inr (.inl ⟨hid, List.mem_map_of_mem hitem, hnew⟩)
      · rw [h.others item hitem hid] at hb
        exact .inl ⟨item, hitem, rfl, hb⟩
    · obtain ⟨module, hmodule, hadded⟩ := h.module_of_added hadded
      rw [hadded.dependencyIds] at hb
      exact .inr (.inr ⟨module, hmodule, hadded.id, List.mem_cons.mp hb⟩)
  · rintro (⟨item, hitem, rfl, hb⟩ | ⟨hid, hmem, hb⟩ | ⟨module, hmodule, rfl, hb⟩)
    · exact ⟨renew item, List.mem_append_left _ (List.mem_map_of_mem hitem), h.id_renew hitem,
        (h.renews item hitem).edges b hb⟩
    · obtain ⟨item, hitem, rfl⟩ := List.mem_map.mp hmem
      exact ⟨renew item, List.mem_append_left _ (List.mem_map_of_mem hitem), h.id_renew hitem,
        ((h.joined item hitem hid).1 b).mpr (.inr hb)⟩
    · obtain ⟨item, hitem, hadded⟩ := h.exists_added hmodule
      exact ⟨item, List.mem_append_right _ hitem, hadded.id,
        hadded.dependencyIds ▸ List.mem_cons.mpr hb⟩

/-- The modules are joined as they depend on each other. -/
theorem path_within_modules {x y : String}
    (hpath : TransGen (fun a b => (fields plan renew added).WaitsFor a b ∧
      a ∈ moduleItems blueprint ∧ b ∈ moduleItems blueprint) x y) :
    ∀ a ∈ blueprint.moduleIds, x = moduleItemOf a → ∃ b ∈ blueprint.moduleIds,
      y = moduleItemOf b ∧ TransGen (Reachability.Edge blueprint.graph) a b := by
  have hstep {x y : String} (hxy : (fields plan renew added).WaitsFor x y)
      (hy : y ∈ moduleItems blueprint) {a : String} (ha : a ∈ blueprint.moduleIds)
      (hx : x = moduleItemOf a) : ∃ b ∈ blueprint.moduleIds,
        y = moduleItemOf b ∧ Reachability.Edge blueprint.graph a b := by
    subst hx
    rcases h.waits_iff.mp hxy with hold | ⟨-, hmem, -⟩ | ⟨module, hmodule, heq, hb⟩
    · obtain ⟨item, hitem, hid, -⟩ := hold
      exact absurd (hid ▸ List.mem_map_of_mem hitem) (h.free a ha)
    · exact absurd hmem (h.free a ha)
    · obtain rfl := h.inj ha (List.mem_map_of_mem hmodule) heq
      rcases hb with rfl | hb
      · obtain ⟨moduleId, hmem, heq⟩ := List.mem_map.mp hy
        exact absurd (heq ▸ List.mem_map_of_mem h.anchor) (h.free moduleId hmem)
      · obtain ⟨d, hd, rfl⟩ := List.mem_map.mp hb
        exact ⟨d, h.known module hmodule d hd, rfl, _, List.mem_map_of_mem hmodule, rfl, hd⟩
  intro a ha hx
  induction hpath with
  | single hxy =>
    obtain ⟨b, hb, rfl, hedge⟩ := hstep hxy.1 hxy.2.2 ha hx
    exact ⟨b, hb, rfl, .single hedge⟩
  | tail _ hxy ih =>
    obtain ⟨b, hb, heq, hpath⟩ := ih
    obtain ⟨c, hc, rfl, hedge⟩ := hstep hxy.1 hxy.2.2 hb heq
    exact ⟨c, hc, rfl, hpath.tail hedge⟩

/-- Below the modules is what the blueprint item waits for, above them the rest. -/
theorem irrefl (hlater : ∀ id ∈ integrationId, ¬ ReflTransGen plan.WaitsFor blueprintItem.id id)
    (a : String) : ¬ TransGen (fields plan renew added).WaitsFor a a := by
  classical
  let level (x : String) : Nat := if x ∈ moduleItems blueprint then 1
    else if ReflTransGen plan.WaitsFor blueprintItem.id x then 0 else 2
  have hmodule {x : String} (hx : x ∈ moduleItems blueprint) : level x = 1 := if_pos hx
  have hplanned {x : String} (hx : x ∈ plan.itemIds) : x ∉ moduleItems blueprint := by
    intro hmem
    obtain ⟨moduleId, hid, rfl⟩ := List.mem_map.mp hmem
    exact h.free moduleId hid hx
  have hreached {x : String} (hx : x ∈ plan.itemIds)
      (hreach : ReflTransGen plan.WaitsFor blueprintItem.id x) : level x = 0 := by
    simp only [level, if_neg (hplanned hx), if_pos hreach]
  have hrest {x : String} (hx : x ∈ plan.itemIds)
      (hreach : ¬ ReflTransGen plan.WaitsFor blueprintItem.id x) : level x = 2 := by
    simp only [level, if_neg (hplanned hx), if_neg hreach]
  have hends {x y : String} (hxy : plan.WaitsFor x y) : x ∈ plan.itemIds ∧ y ∈ plan.itemIds := by
    refine ⟨?_, plan.wellFormed.known x y hxy⟩
    obtain ⟨item, hitem, rfl, -⟩ := hxy
    exact List.mem_map_of_mem hitem
  have hanchor := hreached (List.mem_map_of_mem h.anchor) .refl
  have hjoin {x : String} (hx : some x = integrationId) (hmem : x ∈ plan.itemIds) : level x = 2 :=
    hrest hmem (hlater x hx.symm)
  refine Reachability.irrefl_of_levels level (fun {x y} hxy => ?_) fun n x hloop => ?_
  · rcases h.waits_iff.mp hxy with hold | ⟨hid, hmem, hy⟩ | ⟨module, hmem, rfl, hy⟩
    · obtain ⟨hx, hy⟩ := hends hold
      by_cases hreach : ReflTransGen plan.WaitsFor blueprintItem.id x
      · rw [hreached hx hreach, hreached hy (hreach.tail hold)]
      · rw [hrest hx hreach]
        by_cases hreach' : ReflTransGen plan.WaitsFor blueprintItem.id y
        · rw [hreached hy hreach']
          omega
        · rw [hrest hy hreach']
    · rw [hjoin hid hmem, hmodule hy]
      omega
    · rw [hmodule (List.mem_map_of_mem (List.mem_map_of_mem hmem))]
      rcases hy with rfl | hy
      · rw [hanchor]
        omega
      · obtain ⟨d, hd, rfl⟩ := List.mem_map.mp hy
        rw [hmodule (List.mem_map_of_mem (h.known module hmem d hd))]
  · by_cases hn : n = 1
    · subst hn
      have hone {x : String} (hx : level x = 1) : x ∈ moduleItems blueprint := by
        by_contra hmem
        simp only [level, if_neg hmem] at hx
        split at hx <;> cases hx
      obtain ⟨y, ⟨-, hx, -⟩, -⟩ := TransGen.head'_iff.mp hloop
      obtain ⟨moduleId, hmem, rfl⟩ := List.mem_map.mp (hone hx)
      obtain ⟨other, hother, heq, hpath⟩ := h.path_within_modules
        (TransGen.mono (fun _ _ hxy => ⟨hxy.1, hone hxy.2.1, hone hxy.2.2⟩) _ _ hloop) moduleId hmem rfl
      obtain rfl := h.inj hmem hother heq
      exact h.acyclic _ hpath
    · refine plan.wellFormed.acyclic x (TransGen.mono (fun x y ⟨hxy, hx, hy⟩ => ?_) _ _ hloop)
      rcases h.waits_iff.mp hxy with hold | ⟨-, -, hmem⟩ | ⟨module, hmem, rfl, -⟩
      · exact hold
      · exact absurd (hy.symm.trans (hmodule hmem)) hn
      · exact absurd (hx.symm.trans (hmodule (List.mem_map_of_mem (List.mem_map_of_mem hmem)))) hn

theorem carries : plan.Carries (fields plan renew added) fun _ => True where
  trace := rfl
  renewed item hitem _ :=
    ⟨renew item, List.mem_append_left _ (List.mem_map_of_mem hitem), h.renews item hitem⟩
  closed _ _ _ _ _ _ := trivial

/-- A place of the plan is no module's: no item of the plan is of their stage. -/
theorem place_of_plan {item : WorkItem} (hitem : item ∈ plan.workItems) {slot : String} :
    ("architecture", slot, moduleStage) ∉ DeliveryContractRegistry.outputIdentities item := by
  intro hmem
  unfold DeliveryContractRegistry.outputIdentities at hmem
  dsimp only at hmem
  split at hmem
  · obtain ⟨_, -, heq⟩ := List.mem_map.mp hmem
    simp only [Prod.mk.injEq] at heq
    have hstage : item.stageId = some moduleStage := by
      cases hstage : item.stageId with
      | none =>
        rw [hstage] at heq
        exact absurd heq.2.2 (by decide)
      | some stage =>
        rw [hstage, Option.getD_some] at heq
        rw [heq.2.2]
    have hnot := h.fresh item hitem
    rw [isModuleItem, hstage] at hnot
    simp [moduleStage] at hnot
  · cases hmem

omit h in
theorem places_of_added {item : WorkItem} {module : ModuleRef}
    (hadded : AddedFor blueprintItem module item) :
    DeliveryContractRegistry.outputIdentities item =
      [("architecture", "module-" ++ safeComponent module.moduleId, moduleStage)] :=
  hadded.drafted.places hadded.slot fun hnil => by
    have hchars := congrArg String.toList hnil
    simp at hchars

theorem places {a b : WorkItem} (ha : a ∈ (fields plan renew added).workItems)
    (hb : b ∈ (fields plan renew added).workItems) {place : DeliveryContractRegistry.OutputIdentity}
    (hplace : place ∈ DeliveryContractRegistry.outputIdentities a)
    (hplace' : place ∈ DeliveryContractRegistry.outputIdentities b) : a = b := by
  have hcross {item : WorkItem} (hitem : item ∈ plan.workItems) {other : WorkItem}
      (hother : other ∈ added)
      (hold : place ∈ DeliveryContractRegistry.outputIdentities (renew item))
      (hnew : place ∈ DeliveryContractRegistry.outputIdentities other) : False := by
    obtain ⟨module, -, hadded⟩ := h.module_of_added hother
    rw [places_of_added hadded, List.mem_singleton] at hnew
    rw [(h.renews item hitem).rewires.outputIdentities, hnew] at hold
    exact h.place_of_plan hitem hold
  rcases List.mem_append.mp ha with ha | ha <;> rcases List.mem_append.mp hb with hb | hb
  · obtain ⟨item, hitem, rfl⟩ := List.mem_map.mp ha
    obtain ⟨other, hother, rfl⟩ := List.mem_map.mp hb
    rw [(h.renews item hitem).rewires.outputIdentities] at hplace
    rw [(h.renews other hother).rewires.outputIdentities] at hplace'
    rw [plan.wellFormed.places item hitem other hother place hplace hplace']
  · obtain ⟨item, hitem, rfl⟩ := List.mem_map.mp ha
    exact (hcross hitem hb hplace hplace').elim
  · obtain ⟨item, hitem, rfl⟩ := List.mem_map.mp hb
    exact (hcross hitem ha hplace' hplace).elim
  · obtain ⟨module, hmodule, hadded⟩ := h.module_of_added ha
    obtain ⟨other, hother, hadded'⟩ := h.module_of_added hb
    rw [places_of_added hadded, List.mem_singleton] at hplace
    rw [places_of_added hadded', List.mem_singleton, hplace] at hplace'
    simp only [Prod.mk.injEq, true_and, and_true] at hplace'
    have hsame : a.id = b.id := by
      rw [hadded.id, hadded'.id, moduleItemOf, moduleItemOf, append_left_inj hplace']
    exact List.inj_on_of_nodup_map h.distinct (List.mem_append_right _ ha)
      (List.mem_append_right _ hb) hsame

/-- A new reference names the item whose design it is. -/
theorem new_ref {r : ArtifactRef} (hr : r ∈ ref :: refs) :
    (fields plan renew added).StagedHere r ∧
      ((r.workItemId = some blueprintItem.id ∧ r.slot = blueprintItem.slot ∧
          blueprintItem.artifactKey = some r.artifactKey) ∨
        ∃ module ∈ blueprint.modules, r.workItemId = some (moduleItemOf module.moduleId) ∧
          r.slot = some ("module-" ++ safeComponent module.moduleId) ∧
          r.artifactKey = "architecture") := by
  rcases List.mem_cons.mp hr with rfl | hr
  · have hstaged := h.staged
    rw [blueprintRef, ArtifactRef.staged, ArtifactRef.create_eq_ok] at hstaged
    have hslot : blueprintItem.slot = some (Text.orElse blueprintItem.slot "blueprint") := by
      obtain ⟨slot, hslot, hblank⟩ := slot_of_partitioned h.mode
      rw [hslot, orElse_of_not_blank hblank]
    have hkey : blueprintItem.artifactKey =
        some (Text.orElse blueprintItem.artifactKey "architecture") := by
      obtain ⟨key, hkey, hblank⟩ := artifactKey_not_blank blueprintItem
      rw [hkey, orElse_of_not_blank hblank]
    refine ⟨⟨by rw [hstaged], by rw [hstaged]; rfl⟩, .inl ⟨by rw [hstaged], ?_, ?_⟩⟩
    · rw [hstaged]
      exact hslot.symm
    · rw [hstaged]
      exact hkey
  · have hdesigns := collect_eq_ok.mp h.designs
    obtain ⟨safe, hsafe, href⟩ := exists_left_of_forall₂ hdesigns hr
    obtain ⟨moduleId, hid, rfl⟩ := List.mem_map.mp hsafe
    obtain ⟨module, hmodule, rfl⟩ := List.mem_map.mp hid
    rw [moduleRef, ArtifactRef.staged, ArtifactRef.create_eq_ok] at href
    exact ⟨⟨by rw [href], by rw [href]; rfl⟩, .inr ⟨module, hmodule, by rw [href]; rfl, by rw [href],
      by rw [href]⟩⟩

omit h in
theorem renewed {item : WorkItem} (hitem : item ∈ plan.workItems) :
    renew item ∈ (fields plan renew added).workItems :=
  List.mem_append_left _ (List.mem_map_of_mem hitem)

theorem waits_module {integration : WorkItem} (hmem : integration ∈ plan.workItems)
    (hid : some integration.id = integrationId) {moduleId : String}
    (hmodule : moduleId ∈ blueprint.moduleIds) :
    (fields plan renew added).WaitsFor integration.id (moduleItemOf moduleId) :=
  h.waits_iff.mpr (.inr (.inl ⟨hid, List.mem_map_of_mem hmem, List.mem_map_of_mem hmodule⟩))

theorem module_waits {module : ModuleRef} (hmodule : module ∈ blueprint.modules) :
    (fields plan renew added).WaitsFor (moduleItemOf module.moduleId) blueprintItem.id :=
  h.waits_iff.mpr (.inr (.inr ⟨module, hmodule, rfl, .inl rfl⟩))

/-- The integration item finds the producers of its new references. -/
theorem producer_of_new (hmodules : blueprint.modules ≠ []) {integration : WorkItem}
    (hmem : integration ∈ plan.workItems) (hid : some integration.id = integrationId)
    {consumer : WorkItemDeliveryContract}
    (hkind : consumer.outputArtifactKind = some "architecture_design")
    (hcontract : ∃ contract,
      DeliveryContractRegistry.contractFor blueprintItem.role = some contract ∧
        contract.outputArtifactKind = some "architecture_design")
    {r : ArtifactRef} (hr : r ∈ ref :: refs) :
    ∃ producer, (fields plan renew added).ProducerOf (renew integration) consumer r producer := by
  have hself : (renew integration).id = integration.id := h.id_renew hmem
  obtain ⟨-, ⟨hnamed, hslot, hkey⟩ | ⟨module, hmodule, hnamed, hslot, hkey⟩⟩ := h.new_ref hr
  · obtain ⟨module, hmodule⟩ := List.exists_mem_of_ne_nil _ hmodules
    have hrewires := (h.renews blueprintItem h.anchor).rewires
    have hslot' : (renew blueprintItem).slot = blueprintItem.slot := by rw [hrewires]
    have hkey' : (renew blueprintItem).artifactKey = blueprintItem.artifactKey := by rw [hrewires]
    exact ⟨renew blueprintItem, {
      mem := renewed h.anchor
      named := by rw [hnamed, hrewires.id]
      waited := by
        rw [hself, hrewires.id]
        exact .tail (.single (h.waits_module hmem hid (List.mem_map_of_mem hmodule)))
          (h.module_waits hmodule)
      mode := hrewires.executionMode.trans h.mode
      slot := hslot'.trans hslot.symm
      key := by rw [hkey', hkey, Option.getD_some]
      kind := by
        rw [hrewires.role, hkind]
        exact hcontract }⟩
  · obtain ⟨item, hitem, hadded⟩ := h.exists_added hmodule
    exact ⟨item, {
      mem := List.mem_append_right _ hitem
      named := by rw [hnamed, hadded.id]
      waited := by
        rw [hself, hadded.id]
        exact .single (h.waits_module hmem hid (List.mem_map_of_mem hmodule))
      mode := hadded.drafted.executionMode
      slot := hadded.slot.trans hslot.symm
      key := by rw [hadded.drafted.artifactKey, Option.getD_some, hkey]
      kind := ⟨moduleContract, hadded.drafted.contract hadded.slot, hkind ▸ rfl⟩ }⟩

theorem wellFormed (hmodules : blueprint.modules ≠ [])
    (hjoins : ∀ integration ∈ plan.workItems, some integration.id = integrationId →
      Joins plan blueprintItem integration)
    (hintegration : ∀ id ∈ integrationId, id ∈ plan.itemIds) :
    (fields plan renew added).WellFormed where
  id := plan.wellFormed.id
  goal := plan.wellFormed.goal
  nonempty := by
    obtain ⟨item, hitem⟩ := List.exists_mem_of_ne_nil _ plan.wellFormed.nonempty
    exact List.ne_nil_of_mem (renewed hitem)
  templateId := plan.wellFormed.templateId
  processId := plan.wellFormed.processId
  distinct := h.distinct
  contracts := by
    intro item' hitem'
    rcases List.mem_append.mp hitem' with hpresent | hadded
    · obtain ⟨item, hitem, rfl⟩ := List.mem_map.mp hpresent
      rw [(h.renews item hitem).rewires.validateWorkItem]
      exact plan.wellFormed.contracts item hitem
    · obtain ⟨module, -, hadded⟩ := h.module_of_added hadded
      exact hadded.drafted.valid hadded.slot
  places := fun a ha b hb place hplace hplace' => h.places ha hb hplace hplace'
  known := by
    intro a b hab
    rw [h.itemIds_fields, List.mem_append]
    rcases h.waits_iff.mp hab with hold | ⟨-, -, hb⟩ | ⟨module, hmodule, -, rfl | hb⟩
    · exact .inl (plan.wellFormed.known a b hold)
    · exact .inr hb
    · exact .inl (List.mem_map_of_mem h.anchor)
    · obtain ⟨d, hd, rfl⟩ := List.mem_map.mp hb
      exact .inr (List.mem_map_of_mem (h.known module hmodule d hd))
  acyclic := by
    refine h.irrefl fun id hid hreach => ?_
    obtain ⟨integration, hmem, rfl⟩ := List.mem_map.mp (hintegration id hid)
    have hjoin := hjoins integration hmem hid.symm
    rcases reflTransGen_iff_eq_or_transGen.mp hreach with hsame | hpath
    · have hmode := h.mode
      rw [← plan.eq_of_id_eq hmem h.anchor hsame, hjoin.mode] at hmode
      cases hmode
    · exact hjoin.later hpath
  candidates := by
    intro item' hitem' hgate
    rcases List.mem_append.mp hitem' with hpresent | hadded
    · obtain ⟨item, hitem, rfl⟩ := List.mem_map.mp hpresent
      have hrenews := h.renews item hitem
      obtain ⟨producer, hproducer⟩ := plan.wellFormed.candidates item hitem
        (hrenews.rewires.executionMode ▸ hgate)
      exact h.carries.candidate hitem trivial hrenews hproducer
    · obtain ⟨module, -, hadded⟩ := h.module_of_added hadded
      rw [hadded.drafted.executionMode] at hgate
      cases hgate
  inputs := by
    intro item' hitem' hmode consumer hconsumer r hr hhere
    rcases List.mem_append.mp hitem' with hpresent | hadded
    · obtain ⟨item, hitem, rfl⟩ := List.mem_map.mp hpresent
      have hrenews := h.renews item hitem
      rw [hrenews.rewires.executionMode] at hmode
      rw [hrenews.rewires.role] at hconsumer
      have hold (hr : r ∈ item.inputRefs) :
          ∃ producer, (fields plan renew added).ProducerOf (renew item) consumer r producer := by
        obtain ⟨producer, hproducer⟩ := plan.wellFormed.inputs item hitem hmode consumer hconsumer r hr
          (h.carries.stagedHere.mp hhere)
        exact h.carries.producer plan.wellFormed hitem trivial hrenews hproducer
      by_cases hid : some item.id = integrationId
      · rw [(h.joined item hitem hid).2] at hr
        rcases mem_mergeRefs hr with hr | hr
        · exact hold hr
        · obtain ⟨hkind, hcontract⟩ := (hjoins item hitem hid).kinds consumer hconsumer
          exact h.producer_of_new hmodules hitem hid hkind hcontract hr
      · rw [h.others item hitem hid] at hr
        exact hold hr
    · obtain ⟨module, -, hadded⟩ := h.module_of_added hadded
      rw [hadded.drafted.executionMode] at hmode
      cases hmode

/-- In a plan that is accepted the producer of a new reference fits its consumer. -/
theorem kind_of_wellFormed (hwell : (fields plan renew added).WellFormed) {integration : WorkItem}
    (hmem : integration ∈ plan.workItems) (hid : some integration.id = integrationId)
    (hmode : integration.executionMode = .integration) {consumer : WorkItemDeliveryContract}
    (hconsumer : DeliveryContractRegistry.contractFor integration.role = some consumer)
    {r : ArtifactRef} (hr : r ∈ ref :: refs) {producer : WorkItem}
    (hproducer : producer ∈ (fields plan renew added).workItems)
    (hnamed : r.workItemId = some producer.id) :
    ∃ contract, DeliveryContractRegistry.contractFor producer.role = some contract ∧
      contract.outputArtifactKind = consumer.outputArtifactKind := by
  have hrenews := h.renews integration hmem
  obtain ⟨hhere, -⟩ := h.new_ref hr
  have hmerged : r.refId ∈ (mergeRefs integration.inputRefs (ref :: refs)).map (·.refId) :=
    mem_refIds_mergeRefs (.inr (List.mem_map_of_mem hr))
  obtain ⟨r', hr', hsame⟩ := List.mem_map.mp hmerged
  obtain ⟨hlayer, htrace, hitem, -⟩ := position_of_refId hhere.1 hsame.symm
  obtain ⟨found, hfound⟩ := hwell.inputs (renew integration) (renewed hmem)
    (hrenews.rewires.executionMode.trans hmode) consumer (hrenews.rewires.role ▸ hconsumer) r'
    ((h.joined integration hmem hid).2 ▸ hr') ⟨hlayer, htrace.trans hhere.2⟩
  have hids : found.id = producer.id :=
    Option.some.inj (hfound.named.symm.trans (hitem.trans hnamed))
  rw [← List.inj_on_of_nodup_map h.distinct hfound.mem hproducer hids]
  exact hfound.kind

theorem joins (hmodules : blueprint.modules ≠ []) (hwell : (fields plan renew added).WellFormed)
    {integration : WorkItem} (hmem : integration ∈ plan.workItems)
    (hid : some integration.id = integrationId) (hmode : integration.executionMode = .integration) :
    Joins plan blueprintItem integration := by
  obtain ⟨module, hmodule⟩ := List.exists_mem_of_ne_nil _ hmodules
  refine ⟨hmode, fun hpath => ?_, fun consumer hconsumer => ?_⟩
  · have hnew : TransGen (fields plan renew added).WaitsFor blueprintItem.id integration.id :=
      TransGen.mono (fun _ _ hab => h.waits_iff.mpr (.inl hab)) _ _ hpath
    exact hwell.acyclic _ ((TransGen.single (h.waits_module hmem hid
      (List.mem_map_of_mem hmodule))).tail (h.module_waits hmodule) |>.trans hnew)
  · have hkind {r : ArtifactRef} (hr : r ∈ ref :: refs) {producer : WorkItem}
        (hproducer : producer ∈ (fields plan renew added).workItems)
        (hnamed : r.workItemId = some producer.id) :=
      h.kind_of_wellFormed hwell hmem hid hmode hconsumer hr hproducer hnamed
    have hdesign : consumer.outputArtifactKind = some "architecture_design" := by
      obtain ⟨item, hitem, hadded⟩ := h.exists_added hmodule
      have hsafe : safeComponent module.moduleId ∈ blueprint.moduleIds.map safeComponent :=
        List.mem_map_of_mem (List.mem_map_of_mem hmodule)
      obtain ⟨r, hr, href⟩ := exists_right_of_forall₂ (collect_eq_ok.mp h.designs) hsafe
      rw [moduleRef, ArtifactRef.staged, ArtifactRef.create_eq_ok] at href
      obtain ⟨contract, hcontract, heq⟩ := hkind (List.mem_cons_of_mem _ hr)
        (List.mem_append_right _ hitem) (by rw [href, hadded.id]; rfl)
      rw [hadded.drafted.contract hadded.slot] at hcontract
      cases hcontract
      exact heq.symm
    refine ⟨hdesign, ?_⟩
    have hrewires := (h.renews blueprintItem h.anchor).rewires
    have hstaged := h.staged
    rw [blueprintRef, ArtifactRef.staged, ArtifactRef.create_eq_ok] at hstaged
    obtain ⟨contract, hcontract, heq⟩ := hkind List.mem_cons_self (renewed h.anchor)
      (by rw [hstaged, hrewires.id])
    exact ⟨contract, hrewires.role ▸ hcontract, heq.trans hdesign⟩

end Laid

end expanded

section expansion
variable {maxModules : Nat} {plan : ExecutionPlan} {blueprint : ArchitectureBlueprint}
  {blueprintId : String} {integrationId : Option String} {revision : Option Int}

/-- The parts of the reference to the blueprint are identifiers. -/
structure Referable (plan : ExecutionPlan) (blueprintItem : WorkItem) : Prop where
  key : blueprintItem.artifactKey.any safeId = true
  trace : safeId plan.trace.traceId = true
  id : safeId blueprintItem.id = true
  slot : blueprintItem.slot.any safeId = true

theorem blueprintRef_isOk_iff {blueprintItem : WorkItem}
    (hmode : blueprintItem.executionMode = .partitioned) :
    (∃ ref, blueprintRef plan blueprintItem = .ok ref) ↔ Referable plan blueprintItem := by
  obtain ⟨slot, hslot, hblank⟩ := slot_of_partitioned hmode
  obtain ⟨key, hkey, hblank'⟩ := artifactKey_not_blank blueprintItem
  rw [blueprintRef, ArtifactRef.staged_isOk_iff, hslot, hkey, orElse_of_not_blank hblank,
    orElse_of_not_blank hblank']
  constructor
  · rintro ⟨hkeySafe, htrace, hid, hslotSafe⟩
    exact ⟨by rw [hkey]; exact hkeySafe, htrace, hid, by rw [hslot]; exact hslotSafe⟩
  · intro h
    exact ⟨by simpa [hkey] using h.key, h.trace, h.id, by simpa [hslot] using h.slot⟩

theorem moduleRefs_isOk (htrace : safeId plan.trace.traceId = true) :
    ∃ refs, moduleRefs plan blueprint = .ok refs := by
  have hstaged : ∀ safe ∈ blueprint.moduleIds.map safeComponent,
      ∃ ref, moduleRef plan (moduleItemId safe) safe = .ok ref := by
    rw [List.forall_mem_map]
    exact fun moduleId _ => moduleRef_isOk htrace moduleId
  exact collect_isOk_iff.mpr hstaged

theorem integrationOf_eq_ok {workItemId : String} {integration : WorkItem} :
    integrationOf plan workItemId = .ok integration ↔ integration ∈ plan.workItems ∧
      integration.id = workItemId ∧ integration.executionMode = .integration := by
  unfold integrationOf
  split
  · rename_i hnone
    rw [plan.workItem_eq_none_iff] at hnone
    simp only [raise, reduceCtorEq, false_iff]
    rintro ⟨hmem, rfl, -⟩
    exact hnone (List.mem_map_of_mem hmem)
  · rename_i item hitem
    obtain ⟨hmem, rfl⟩ := plan.workItem_eq_some_iff.mp hitem
    rw [raiseWhen_bind_eq_ok, bne_eq_false_iff_eq, Except.ok.injEq]
    constructor
    · rintro ⟨hmode, rfl⟩
      exact ⟨hmem, rfl, hmode⟩
    · rintro ⟨hother, hid, hmode⟩
      obtain rfl := plan.eq_of_id_eq hother hmem hid
      exact ⟨hmode, rfl⟩

/-- How the integration item is wired anew. -/
structure Rewired (plan : ExecutionPlan) (blueprint : ArchitectureBlueprint)
    (integrationId : Option String) (ref : ArtifactRef) (refs : List ArtifactRef)
    (renew : WorkItem → WorkItem) : Prop where
  renews : ∀ item ∈ plan.workItems, item.Renews (renew item)
  others : ∀ item ∈ plan.workItems, some item.id ≠ integrationId → renew item = item
  joined : ∀ item ∈ plan.workItems, some item.id = integrationId →
    (∀ d, d ∈ (renew item).dependencyIds ↔ d ∈ item.dependencyIds ∨ d ∈ moduleItems blueprint) ∧
      (renew item).inputRefs = mergeRefs item.inputRefs (ref :: refs)

theorem rewired_of_withModules {ref : ArtifactRef} {refs : List ArtifactRef} {present : List WorkItem}
    (hrefs : moduleRefs plan blueprint = .ok refs)
    (h : withModules plan ref (blueprint.moduleIds.map safeComponent) integrationId = .ok present) :
    ∃ renew, present = plan.workItems.map renew ∧
      Rewired plan blueprint integrationId ref refs renew := by
  cases integrationId with
  | none =>
    cases h
    exact ⟨id, (List.map_id _).symm, fun item _ => .refl item, fun _ _ _ => rfl,
      fun _ _ hid => nomatch hid⟩
  | some id =>
    simp only [withModules, bind_eq_ok] at h
    obtain ⟨integration, hintegration, deps, hdeps, refs', hrefs', updated, hupdated, h⟩ := h
    cases h
    cases hrefs.symm.trans hrefs'
    obtain ⟨hmem, rfl⟩ := integrationOf_ok hintegration
    have hmerged := mergeDependencies_eq_ok hdeps
    obtain ⟨hrewires, hdeps', hrefs'⟩ := WorkItem.rewired_rewires hupdated
    have hids : updated.dependencyIds = deps.map (·.workItemId) := by
      rw [WorkItemFields.dependencyIds, hdeps']
    refine ⟨fun item => if item.id = integration.id then updated else item, rfl, ?_, ?_, ?_⟩
    · intro item hitem
      split
      · rename_i hid
        obtain rfl := plan.eq_of_id_eq hitem hmem hid
        exact ⟨hrewires, fun d hd => hids ▸ (hmerged d).mpr (.inl hd)⟩
      · exact .refl item
    · exact fun item _ hid => if_neg fun heq => hid (congrArg some heq)
    · intro item hitem hid
      obtain rfl := plan.eq_of_id_eq hitem hmem (Option.some.inj hid)
      rw [if_pos rfl, hids, hrefs']
      refine ⟨fun d => ?_, rfl⟩
      rw [hmerged d, List.map_map]
      rfl

theorem withModules_isOk {ref : ArtifactRef} {refs : List ArtifactRef}
    (hrefs : moduleRefs plan blueprint = .ok refs)
    (hfree : ∀ moduleId ∈ blueprint.moduleIds, moduleItemOf moduleId ∉ plan.itemIds)
    (hintegration : ∀ id ∈ integrationId, ∃ integration ∈ plan.workItems, integration.id = id ∧
      integration.executionMode = .integration) :
    ∃ present, withModules plan ref (blueprint.moduleIds.map safeComponent) integrationId =
      .ok present := by
  cases integrationId with
  | none => exact ⟨_, rfl⟩
  | some id =>
    obtain ⟨integration, hmem, rfl, hmode⟩ := hintegration id rfl
    have hfound := integrationOf_eq_ok.mpr ⟨hmem, rfl, hmode⟩
    have hadded : ∀ item ∈ (blueprint.moduleIds.map safeComponent).map moduleItemId,
        ∃ dep, WorkItemDependency.system item "architecture_blueprint:all_modules" = .ok dep := by
      rw [List.forall_mem_map]
      exact fun safe _ => WorkItemDependency.system_isOk _ (not_blank_moduleItemId safe) (by decide)
    obtain ⟨onAdded, honAdded⟩ := collect_isOk_iff.mpr hadded
    have hmerged : mergeDependencies integration "architecture_blueprint:all_modules"
        ((blueprint.moduleIds.map safeComponent).map moduleItemId) =
          .ok (uniqueBy (·.workItemId) (integration.dependencies ++ onAdded)) := by
      rw [mergeDependencies, honAdded, ok_bind]
    obtain ⟨updated, hupdated⟩ : ∃ updated, integration.rewired
        (uniqueBy (·.workItemId) (integration.dependencies ++ onAdded))
        (mergeRefs integration.inputRefs (ref :: refs)) = .ok updated := by
      rw [WorkItem.rewired_isOk_iff]
      refine ⟨nodup_map_uniqueBy _ _, fun hself => ?_⟩
      rcases (mergeDependencies_eq_ok hmerged _).mp hself with hold | hnew
      · exact integration.dependencies_valid.2 hold
      · rw [List.map_map] at hnew
        obtain ⟨moduleId, hmodule, heq⟩ := List.mem_map.mp hnew
        have hid : moduleItemOf moduleId = integration.id := heq
        exact hfree moduleId hmodule (hid ▸ List.mem_map_of_mem hmem)
    unfold moduleRefs at hrefs
    refine ⟨plan.workItems.map fun item => if item.id = integration.id then updated else item, ?_⟩
    rw [withModules, hfound, ok_bind, hmerged, ok_bind, hrefs, ok_bind, hupdated, ok_bind]

/-- What the expansion of a plan by the modules of a blueprint asks for. -/
structure Expandable (maxModules : Nat) (plan : ExecutionPlan) (blueprint : ArchitectureBlueprint)
    (blueprintId : String) (integrationId : Option String) : Prop where
  valid : blueprint.validate maxModules = .ok ()
  named : ∀ moduleId ∈ blueprint.moduleIds, safeComponent moduleId ≠ ""
  apart : (blueprint.moduleIds.map safeComponent).Nodup
  tidy : ∀ module ∈ blueprint.modules, Tidy module
  fresh : ∀ item ∈ plan.workItems, isModuleItem item = false
  free : ∀ moduleId ∈ blueprint.moduleIds, moduleItemOf moduleId ∉ plan.itemIds
  anchor : ∃ blueprintItem ∈ plan.workItems, blueprintItem.id = blueprintId ∧
    blueprintItem.agentId = "architecture_agent" ∧ blueprintItem.executionMode = .partitioned ∧
    Referable plan blueprintItem ∧
    ∀ id ∈ integrationId, ∃ integration ∈ plan.workItems, integration.id = id ∧
      Joins plan blueprintItem integration

theorem blueprintItemOf_eq_ok {blueprintItem : WorkItem} :
    blueprintItemOf plan blueprintId = .ok blueprintItem ↔ blueprintItem ∈ plan.workItems ∧
      blueprintItem.id = blueprintId ∧ blueprintItem.agentId = "architecture_agent" := by
  unfold blueprintItemOf
  split
  · rename_i hnone
    rw [plan.workItem_eq_none_iff] at hnone
    simp only [raise, reduceCtorEq, false_iff]
    rintro ⟨hmem, rfl, -⟩
    exact hnone (List.mem_map_of_mem hmem)
  · rename_i item hitem
    obtain ⟨hmem, rfl⟩ := plan.workItem_eq_some_iff.mp hitem
    rw [raiseWhen_bind_eq_ok, bne_eq_false_iff_eq, Except.ok.injEq]
    constructor
    · rintro ⟨hagent, rfl⟩
      exact ⟨hmem, rfl, hagent⟩
    · rintro ⟨hother, hid, hagent⟩
      obtain rfl := plan.eq_of_id_eq hother hmem hid
      exact ⟨hagent, rfl⟩

theorem forall_free_iff {safes : List String} (hsafes : safes = blueprint.moduleIds.map safeComponent) :
    plan.itemIds.any (· ∈ safes.map moduleItemId) = false ↔
      ∀ moduleId ∈ blueprint.moduleIds, moduleItemOf moduleId ∉ plan.itemIds := by
  subst hsafes
  simp only [List.any_eq_false, decide_eq_true_eq, List.map_map, List.mem_map, not_exists, not_and]
  constructor
  · exact fun h moduleId hmodule hmem => h _ hmem moduleId hmodule rfl
  · rintro h id hid moduleId hmodule rfl
    exact h moduleId hmodule hid

/-- The added items fit their modules when each could be built. -/
theorem addedFor_of_collect {safeIds : Dict String String} {waves : Dict String Nat}
    {blueprintItem : WorkItem} {ref : ArtifactRef} {added : List WorkItem}
    (hsafe : SafeIds blueprint safeIds)
    (h : collect (moduleItem plan blueprint blueprintItem ref safeIds waves) blueprint.modules =
      .ok added) : List.Forall₂ (AddedFor blueprintItem) blueprint.modules added :=
  (collect_eq_ok.mp h).imp fun _ _ hitem =>
    have hmade := moduleItem_eq_ok hsafe hitem
    ⟨hmade.id, moduleItem_drafted hitem, hmade.slot, hmade.dependencyIds⟩

theorem integration_of_withModules {ref : ArtifactRef} {safes : List String} {present : List WorkItem}
    (h : withModules plan ref safes integrationId = .ok present) :
    ∀ id ∈ integrationId, ∃ integration ∈ plan.workItems, integration.id = id ∧
      integration.executionMode = .integration := by
  rintro id rfl
  simp only [withModules, bind_eq_ok] at h
  obtain ⟨integration, hintegration, -⟩ := h
  exact ⟨integration, integrationOf_eq_ok.mp hintegration⟩

/-- The items of a valid blueprint on free ids can be built when its modules have their texts. -/
theorem moduleItems_isOk_iff (hvalid : blueprint.validate maxModules = .ok ())
    {safeIds : Dict String String} (hsafeIds : safeIdsFrom ∅ blueprint.moduleIds = .ok safeIds)
    {waves : Dict String Nat}
    (hwaves : ∀ moduleId ∈ blueprint.moduleIds, ∃ wave, waves.get? moduleId = some wave)
    (htrace : safeId plan.trace.traceId = true)
    (hfree : ∀ moduleId ∈ blueprint.moduleIds, moduleItemOf moduleId ∉ plan.itemIds)
    {blueprintItem : WorkItem} (hmem : blueprintItem ∈ plan.workItems) (ref : ArtifactRef) :
    (∃ added, collect (moduleItem plan blueprint blueprintItem ref safeIds waves) blueprint.modules =
      .ok added) ↔ ∀ module ∈ blueprint.modules, Tidy module := by
  obtain ⟨-, hknown, hacyclic⟩ := dependencies_of_validate hvalid
  rw [collect_isOk_iff]
  refine forall₂_congr fun module hmodule => moduleItem_isOk_iff (safeIds_of_eq_ok hsafeIds)
    (known_of_safeIdsFrom hsafeIds) hwaves htrace hmodule (hknown module hmodule) ?_ ?_
  · intro hself
    exact hacyclic _ (.single ⟨_, List.mem_map_of_mem hmodule, rfl, hself⟩)
  · intro moduleId hid heq
    exact hfree moduleId hid (heq ▸ List.mem_map_of_mem hmem)

theorem expandable_of_expandModules (hmodules : blueprint.modules ≠ [])
    {expansion : BlueprintExpansion} (h : expandModules maxModules plan blueprint blueprintId
      integrationId revision = .ok expansion) :
    Expandable maxModules plan blueprint blueprintId integrationId := by
  simp only [expandModules, bind_eq_ok, raiseWhen_eq_ok, bne_eq_false_iff_eq] at h
  obtain ⟨_, hvalid, blueprintItem, hblueprint, _, hmode, _, hfresh, safeIds, hsafeIds, waves, hwaves,
    ref, href, _, hfree, added, hadded, present, hpresent, expanded, hexpanded, -⟩ := h
  have hsafe := safeIds_of_eq_ok hsafeIds
  obtain ⟨hnamed, hapart⟩ := safeIdsFrom_isOk_iff.mp ⟨_, hsafeIds⟩
  obtain ⟨hmem, rfl, hagent⟩ := blueprintItemOf_eq_ok.mp hblueprint
  have hreferable := (blueprintRef_isOk_iff hmode).mp ⟨ref, href⟩
  have hfree := (forall_free_iff hsafe.values).mp hfree
  have hfresh : ∀ item ∈ plan.workItems, isModuleItem item = false :=
    fun item hitem => Bool.eq_false_iff.mpr (List.any_eq_false.mp hfresh item hitem)
  obtain ⟨-, hknown, hacyclic⟩ := dependencies_of_validate hvalid
  obtain ⟨waves', hwaves', hall⟩ := moduleWaves_isOk hvalid
  cases hwaves.symm.trans hwaves'
  obtain ⟨refs, hrefs⟩ : ∃ refs, moduleRefs plan blueprint = .ok refs :=
    moduleRefs_isOk hreferable.trace
  rw [hsafe.values] at hpresent
  obtain ⟨renew, rfl, hrewired⟩ := rewired_of_withModules hrefs hpresent
  have hlaid : Laid plan blueprint blueprintItem integrationId ref refs renew added :=
    ⟨hmem, hmode, hfresh, hfree, hapart, hknown, hacyclic, href, hrefs,
      addedFor_of_collect hsafe hadded, hrewired.renews, hrewired.others, hrewired.joined⟩
  refine ⟨hvalid, hnamed, hapart,
    (moduleItems_isOk_iff hvalid hsafeIds hall hreferable.trace hfree hmem ref).mp ⟨_, hadded⟩,
    hfresh, hfree, blueprintItem, hmem, rfl, hagent, hmode, hreferable, fun id hid => ?_⟩
  obtain ⟨integration, hintegration, rfl, hjoined⟩ := integration_of_withModules hpresent id hid
  exact ⟨integration, hintegration, rfl, hlaid.joins hmodules (rebuilt_isOk_iff.mp ⟨_, hexpanded⟩)
    hintegration hid.symm hjoined⟩

theorem Expandable.expandModules_isOk (hmodules : blueprint.modules ≠ [])
    (h : Expandable maxModules plan blueprint blueprintId integrationId) :
    ∃ expansion, expandModules maxModules plan blueprint blueprintId integrationId revision =
      .ok expansion := by
  obtain ⟨blueprintItem, hmem, hid, hagent, hmode, hreferable, hjoins⟩ := h.anchor
  obtain ⟨safeIds, hsafeIds⟩ := safeIdsFrom_isOk_iff.mpr ⟨h.named, h.apart⟩
  have hsafe := safeIds_of_eq_ok hsafeIds
  obtain ⟨waves, hwaves, hall⟩ := moduleWaves_isOk h.valid
  obtain ⟨ref, href⟩ := (blueprintRef_isOk_iff hmode).mpr hreferable
  obtain ⟨refs, hrefs⟩ : ∃ refs, moduleRefs plan blueprint = .ok refs :=
    moduleRefs_isOk hreferable.trace
  obtain ⟨-, hknown, hacyclic⟩ := dependencies_of_validate h.valid
  obtain ⟨added, hadded⟩ := (moduleItems_isOk_iff h.valid hsafeIds hall
    hreferable.trace h.free hmem ref).mpr h.tidy
  obtain ⟨present, hpresent⟩ : ∃ present, withModules plan ref
      (blueprint.moduleIds.map safeComponent) integrationId = .ok present :=
    withModules_isOk hrefs h.free fun id hid => by
      obtain ⟨integration, hintegration, heq, hjoin⟩ := hjoins id hid
      exact ⟨integration, hintegration, heq, hjoin.mode⟩
  obtain ⟨renew, rfl, hrewired⟩ := rewired_of_withModules hrefs hpresent
  have hlaid : Laid plan blueprint blueprintItem integrationId ref refs renew added :=
    ⟨hmem, hmode, h.fresh, h.free, h.apart, hknown, hacyclic, href, hrefs,
      addedFor_of_collect hsafe hadded, hrewired.renews, hrewired.others, hrewired.joined⟩
  have hjoins' : ∀ integration ∈ plan.workItems, some integration.id = integrationId →
      Joins plan blueprintItem integration := by
    intro integration hintegration heq
    obtain ⟨found, hfound, hsame, hjoin⟩ := hjoins integration.id heq.symm
    obtain rfl := plan.eq_of_id_eq hfound hintegration hsame
    exact hjoin
  have hplanned : ∀ id ∈ integrationId, id ∈ plan.itemIds := by
    intro id hid
    obtain ⟨integration, hintegration, rfl, -⟩ := hjoins id hid
    exact List.mem_map_of_mem hintegration
  obtain ⟨expanded, hexpanded⟩ := rebuilt_isOk_iff.mpr (hlaid.wellFormed hmodules hjoins' hplanned)
  have hnone : plan.workItems.any isModuleItem = false :=
    List.any_eq_false.mpr fun item hitem => Bool.eq_false_iff.mp (h.fresh item hitem)
  refine ⟨{
    plan := expanded
    blueprintDesignId := blueprint.designId
    blueprintWorkItemId := blueprintId
    addedWorkItemIds := added.map (·.id)
    integrationWorkItemId := integrationId
    moduleWaves := waves
    parentPlanRevision := revision }, ?_⟩
  simp only [expandModules, bind_eq_ok, raiseWhen_eq_ok, bne_eq_false_iff_eq]
  rw [← hsafe.values] at hpresent
  exact ⟨(), h.valid, blueprintItem, blueprintItemOf_eq_ok.mpr ⟨hmem, hid, hagent⟩, (), hmode, (),
    hnone, safeIds, hsafeIds, waves, hwaves, ref, href, (), (forall_free_iff hsafe.values).mpr h.free,
    added, hadded, _, hpresent, expanded, hexpanded, rfl⟩

/-- A blueprint with modules is expanded exactly when its own demands are met: the
plan that the builder makes is never refused for another reason. -/
theorem expandModules_isOk_iff (hmodules : blueprint.modules ≠ []) :
    (∃ expansion, expandModules maxModules plan blueprint blueprintId integrationId revision =
      .ok expansion) ↔ Expandable maxModules plan blueprint blueprintId integrationId := by
  constructor
  · rintro ⟨expansion, h⟩
    exact expandable_of_expandModules hmodules h
  · exact fun h => h.expandModules_isOk hmodules

/-- The plan with a catalog and orders on top of it can be expanded. -/
theorem shop_expandable :
    Expandable 12 shopPlan shopBlueprint "wi-blueprint" (some "wi-architecture-integration") := by
  obtain ⟨byImplementations, hboth⟩ := exists_of_isOk shop_expands
  obtain ⟨byModules, hmodules, -⟩ := bind_eq_ok.mp hboth
  exact (expandModules_isOk_iff (List.cons_ne_nil _ _)).mp ⟨byModules, hmodules⟩

end expansion

end ProjectOS.Planner.DynamicPlanBuilder
