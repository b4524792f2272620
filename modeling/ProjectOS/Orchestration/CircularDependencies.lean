import ProjectOS.Orchestration.ArchitectureConsistency

/-! Cycles of consumed interfaces, for every order in which the sets of consumed
modules are iterated. -/
namespace ProjectOS.Orchestration.ArchitectureConsistencyValidator
open Base

/-- The order in which the set of a module's dependencies is iterated. -/
structure IterationOrder where
  arrange : String → List String → List String
  perm : ∀ module dependencies, (arrange module dependencies).Perm dependencies

namespace IterationOrder

def firstOccurrence : IterationOrder := ⟨fun _ dependencies => dependencies, fun _ _ => .refl _⟩

def reversed : IterationOrder :=
  ⟨fun _ dependencies => dependencies.reverse, fun _ dependencies => dependencies.reverse_perm⟩

end IterationOrder

/-- `graph.get(node, [])`, as `find_cycle` iterates it. -/
def dependenciesIn (order : IterationOrder) (designs : List DesignInterfaces) (module : String) :
    List String :=
  order.arrange module (targets (interfaceGraph designs) module)

/-- `find_cycle` from every module with the shared set of visited modules. -/
def findCycle (order : IterationOrder) (designs : List DesignInterfaces) :
    Except (DepthFirst.Stop String) (List String) :=
  DepthFirst.search (dependenciesIn order designs) ((interfaceGraph designs).keys.length + 1)
    (interfaceGraph designs).keys

def circularViolation (cycle : List String) : ArchitectureViolation where
  ruleName := "no_circular_dependency"
  moduleId := cycle.headD ""
  message := "检测到循环依赖: " ++ Text.join " → " cycle

def checkCircularDependenciesIn (order : IterationOrder) (designs : List DesignInterfaces) :
    List ArchitectureViolation :=
  match findCycle order designs with
  | .error (.cycle nodes) => [circularViolation nodes]
  | .error .outOfFuel => [{
      ruleName := "no_circular_dependency", moduleId := "", message := "检测到循环依赖" }]
  | .ok _ => []

theorem checkCircularDependenciesIn_firstOccurrence (designs : List DesignInterfaces) :
    checkCircularDependenciesIn .firstOccurrence designs = checkCircularDependencies designs := rfl

/-- The documented form of an interface id: `module-id.capability-name`. -/
def InterfaceOf (provider interfaceId : String) : Prop :=
  '.' ∉ provider.toList ∧ ∃ capability, interfaceId = provider ++ "." ++ capability

/-- The module consumes an interface of the provider, which need not be a known module. -/
def Consumes (designs : List DesignInterfaces) (module provider : String) : Prop :=
  ∃ design ∈ designs, design.moduleId = module ∧
    ∃ consumed ∈ design.consumedInterfaces, InterfaceOf provider consumed.1

theorem InterfaceOf.providerModule_eq {provider interfaceId : String}
    (h : InterfaceOf provider interfaceId) : providerModule interfaceId = provider := by
  obtain ⟨hdot, capability, rfl⟩ := h
  have hchars : (provider ++ "." ++ capability).toList =
      provider.toList ++ '.' :: capability.toList := by simp
  rw [providerModule, Text.split, hchars, Text.splitOn_append hdot]
  simp

theorem InterfaceOf.ne_empty {provider interfaceId : String}
    (h : InterfaceOf provider interfaceId) : interfaceId ≠ "" := by
  obtain ⟨-, capability, rfl⟩ := h
  intro hempty
  have hchars := congrArg String.toList hempty
  simp at hchars

section
variable {designs : List DesignInterfaces}

theorem mem_consumedModules {design : DesignInterfaces}
    (hform : ∀ consumed ∈ design.consumedInterfaces, ∃ provider, InterfaceOf provider consumed.1)
    {provider : String} :
    provider ∈ consumedModules design ↔
      ∃ consumed ∈ design.consumedInterfaces, InterfaceOf provider consumed.1 := by
  unfold consumedModules named
  rw [mem_dedupe, List.mem_map]
  constructor
  · rintro ⟨consumed, hconsumed, rfl⟩
    have hmem := (List.mem_filter.mp hconsumed).1
    obtain ⟨provider, hprovider⟩ := hform consumed hmem
    exact ⟨consumed, hmem, by rwa [hprovider.providerModule_eq]⟩
  · rintro ⟨consumed, hmem, hprovider⟩
    refine ⟨consumed, ?_, hprovider.providerModule_eq⟩
    exact List.mem_filter.mpr ⟨hmem, by simpa using hprovider.ne_empty⟩

/-- Each edge of the graph is a consumed interface, whatever the order of iteration. -/
theorem mem_dependenciesIn (hids : (designs.map (·.moduleId)).Nodup)
    (hform : ∀ design ∈ designs, ∀ consumed ∈ design.consumedInterfaces,
      ∃ provider, InterfaceOf provider consumed.1)
    (order : IterationOrder) {module provider : String} :
    provider ∈ dependenciesIn order designs module ↔ Consumes designs module provider := by
  have hgraph (dependencies : List String) :
      (interfaceGraph designs).get? module = some dependencies ↔
        ∃ design ∈ designs, design.moduleId = module ∧ consumedModules design = dependencies := by
    rw [interfaceGraph, Dict.get?_ofList_iff]
    · simp
    · intro pair hpair pair' hpair' heq
      obtain ⟨a, ha, rfl⟩ := List.mem_map.mp hpair
      obtain ⟨b, hb, rfl⟩ := List.mem_map.mp hpair'
      rw [List.inj_on_of_nodup_map hids ha hb heq]
  rw [dependenciesIn, (order.perm module _).mem_iff, targets]
  constructor
  · intro h
    cases hget : (interfaceGraph designs).get? module with
    | none => simp [hget] at h
    | some dependencies =>
      rw [hget, Option.getD_some] at h
      obtain ⟨design, hmem, hid, rfl⟩ := (hgraph dependencies).mp hget
      exact ⟨design, hmem, hid, (mem_consumedModules (hform design hmem)).mp h⟩
  · rintro ⟨design, hmem, hid, hconsumed⟩
    rw [(hgraph (consumedModules design)).mpr ⟨design, hmem, hid, rfl⟩, Option.getD_some]
    exact (mem_consumedModules (hform design hmem)).mpr hconsumed

theorem dependenciesIn_of_not_mem (order : IterationOrder) {module : String}
    (h : module ∉ (interfaceGraph designs).keys) : dependenciesIn order designs module = [] := by
  rw [dependenciesIn, targets, Dict.get?_eq_none_iff.mpr h]
  exact (order.perm module []).eq_nil

end

/-- A violation is reported exactly for a cycle of the consumes relation, the
reported list is such a cycle, and the search always ends by itself. -/
theorem circularDependency_reported_iff (designs : List DesignInterfaces)
    (hids : (designs.map (·.moduleId)).Nodup)
    (hform : ∀ design ∈ designs, ∀ consumed ∈ design.consumedInterfaces,
      ∃ provider, InterfaceOf provider consumed.1)
    (order : IterationOrder) :
    (checkCircularDependenciesIn order designs ≠ [] ↔
      ∃ module, Relation.TransGen (Consumes designs) module module) ∧
    (∀ violation ∈ checkCircularDependenciesIn order designs, ∃ nodes : List String,
      violation = circularViolation nodes ∧ nodes.IsChain (Consumes designs) ∧
      nodes.head? = nodes.getLast? ∧ 2 ≤ nodes.length) ∧
    findCycle order designs ≠ .error .outOfFuel := by
  have hkeys (module : String) (h : module ∉ (interfaceGraph designs).keys) :=
    dependenciesIn_of_not_mem order h
  have hfuel := Nat.lt_succ_self (interfaceGraph designs).keys.length
  have hedges : (fun module provider => provider ∈ dependenciesIn order designs module) =
      Consumes designs := by
    funext module provider
    exact propext (mem_dependenciesIn hids hform order)
  have hiff := DepthFirst.search_reports_iff hkeys hfuel (List.Subset.refl _)
  rw [hedges] at hiff
  rcases DepthFirst.search_cases hkeys hfuel (interfaceGraph designs).keys with
    ⟨visited, hsearch⟩ | ⟨nodes, hsearch, hcycle⟩
  · have hfind : findCycle order designs = .ok visited := hsearch
    have hnone : ¬ ∃ module, Relation.TransGen (Consumes designs) module module := by
      rw [← hiff, hsearch]
      simp
    simp only [checkCircularDependenciesIn, hfind]
    exact ⟨⟨fun h => absurd rfl h, fun h => absurd h hnone⟩,
      fun _ h => absurd h List.not_mem_nil, nofun⟩
  · have hfind : findCycle order designs = .error (.cycle nodes) := hsearch
    have hsome := hiff.mp ⟨nodes, hsearch⟩
    have hfollows := hcycle.follows
    rw [hedges] at hfollows
    simp only [checkCircularDependenciesIn, hfind]
    refine ⟨⟨fun _ => hsome, fun _ => List.cons_ne_nil _ _⟩, fun violation h => ?_, nofun⟩
    exact ⟨nodes, List.mem_singleton.mp h, hfollows, hcycle.closes, hcycle.two_le_length⟩

/-- `a` and `b` consume each other's interfaces, and `a` one of an unknown module. -/
def mutualDesigns : List DesignInterfaces := [
  { moduleId := "a", providedInterfaces := [("a.x", none)],
    consumedInterfaces := [("c.z", none), ("b.y", none)] },
  { moduleId := "b", providedInterfaces := [("b.y", none)],
    consumedInterfaces := [("a.x", none)] }]

theorem mutualDesigns_reported :
    checkCircularDependenciesIn .reversed mutualDesigns ≠ [] :=
  (circularDependency_reported_iff mutualDesigns (by decide)
    (by
      intro design hdesign consumed hconsumed
      simp only [mutualDesigns, List.mem_cons, List.not_mem_nil, or_false] at hdesign
      rcases hdesign with rfl | rfl
      · simp only [List.mem_cons, List.not_mem_nil, or_false] at hconsumed
        rcases hconsumed with rfl | rfl
        · exact ⟨"c", by decide, "z", by decide⟩
        · exact ⟨"b", by decide, "y", by decide⟩
      · simp only [List.mem_cons, List.not_mem_nil, or_false] at hconsumed
        subst hconsumed
        exact ⟨"a", by decide, "x", by decide⟩)
    .reversed).1.mpr ⟨"a", .head
      ⟨_, List.mem_cons_self, rfl, ("b.y", none), by decide, by decide, "y", by decide⟩ (.single
      ⟨_, List.mem_cons_of_mem _ List.mem_cons_self, rfl, ("a.x", none), by decide, by decide, "x",
        by decide⟩)⟩

end ProjectOS.Orchestration.ArchitectureConsistencyValidator
