import ProjectOS.Architecture.Designs
import ProjectOS.Base.Levels

/-! The normalization passes of the integration: module aliases, interface
aliases, repeated references and declarations, dependencies on interfaces, and
waves. Each pass maps the implementation designs one by one, under tables that
are read from all of them. -/
namespace ProjectOS.Architecture.Designs
open Base Orchestration

namespace ArchitectureWorkflow

/-- `module_id.rsplit("-", 1)[-1]`. -/
def tail (moduleId : String) : String := Text.afterLast '-' moduleId

/-- The module a shortened id names: the only one with that suffix. -/
def canonical (moduleIds : List String) (moduleId : String) : String :=
  if moduleId ∈ moduleIds then moduleId
  else match moduleIds.filter fun candidate => tail candidate = moduleId with
    | [target] => if tail target = target then moduleId else target
    | _ => moduleId

def isSeparator (c : Char) : Bool := c = '.' || c = '-' || c = '_' || c = ':'

/-- The parts of an interface id between its separators, without empty ones. -/
def parts (value : String) : List String :=
  ((value.toList.splitOnP isSeparator).filter (· ≠ [])).map fun part =>
    Text.lower (String.ofList part)

/-- The candidate is declared in the namespace of the reference, shares two of
its tokens, and one of the two names has all tokens of the other. -/
def isAlias (reference candidate : String) : Bool :=
  match parts reference, parts candidate with
  | area :: semantic, candidateArea :: candidateSemantic =>
      candidateArea = area &&
        2 ≤ (dedupe (semantic.filter (· ∈ candidateSemantic))).length &&
        (semantic.all (· ∈ candidateSemantic) || candidateSemantic.all (· ∈ semantic))
  | _, _ => false

/-- `alias_for`: the candidates form a set. -/
def aliasFor (reference : String) (candidates : List String) : Option String :=
  if reference ∈ candidates then some reference
  else if (parts reference).length < 2 then none
  else match (dedupe candidates).filter (isAlias reference) with
    | [candidate] => some candidate
    | _ => none

/-- `declared_by_module`: the last design of a module wins. -/
def declaredBy (modules : List ModuleDesign) (moduleId : String) : List String :=
  match modules.reverse.find? (·.moduleId = moduleId) with
  | some module => dedupe module.providedInterfaces
  | none => []

/-- `design_module_dependencies`: the first design of a module wins. -/
def dependenciesOf (modules : List ModuleDesign) (moduleId : String) : List String :=
  match modules.find? (·.moduleId = moduleId) with
  | some module => module.dependsOnModules
  | none => []

def providedId (modules : List ModuleDesign) (moduleId interfaceId : String) : String :=
  (aliasFor interfaceId (declaredBy modules moduleId)).getD interfaceId

def providerIds (modules : List ModuleDesign) (designs : List ImplementationDesign) :
    List String :=
  designs.flatMap fun design => design.interfaceIds.map (providedId modules design.moduleId)

def allUnits (designs : List ImplementationDesign) : List UnitFields :=
  designs.flatMap (·.implementationUnits)

def unitIdsOf (designs : List ImplementationDesign) : List String :=
  (allUnits designs).map (·.unitId)

/-- `canonical_reference` of a design of the module. -/
def canonicalReference (modules : List ModuleDesign) (known : List String) (moduleId reference : String) :
    String :=
  let candidates := (dependenciesOf modules moduleId).flatMap fun dependency =>
    (declaredBy modules dependency).filter fun interfaceId =>
      (parts interfaceId).take 1 = (parts reference).take 1
  match dedupe candidates with
  | [candidate] => candidate
  | _ => (aliasFor reference known).getD reference

/-- A unit with its references to interfaces in canonical form. -/
def canonicalUnit (reference : String → String) (unitIds : List String) (unit : UnitFields) :
    UnitFields :=
  { unit with
    consumesInterfaces := dedupe (unit.consumesInterfaces.map reference)
    dependsOn := dedupe (unit.dependsOn.map fun dependency =>
      if dependency ∈ unitIds then dependency else reference dependency) }

def canonicalDesign (modules : List ModuleDesign) (known unitIds : List String)
    (design : ImplementationDesign) : ImplementationDesign :=
  let reference := canonicalReference modules known design.moduleId
  { design with
    providedInterfaces := design.providedInterfaces.map fun interface =>
      { interface with
        interfaceId := providedId modules design.moduleId interface.interfaceId }
    consumedInterfaces := design.consumedInterfaces.map fun consumed =>
      { consumed with interfaceId := reference consumed.interfaceId }
    implementationUnits := design.implementationUnits.map (canonicalUnit reference unitIds) }

def normalizeInterfaceReferences (modules : List ModuleDesign)
    (designs : List ImplementationDesign) : List ImplementationDesign :=
  designs.map (canonicalDesign modules (providerIds modules designs) (unitIdsOf designs))

/-- The earlier reference takes over what a repeated one adds. -/
def mergeReference (reference : ConsumedInterfaceRef) :
    List ConsumedInterfaceRef → List ConsumedInterfaceRef
  | [] => [reference]
  | previous :: rest =>
      if previous.interfaceId = reference.interfaceId then
        { previous with
          usage := if (previous.usage.filter (· ≠ "")).isSome then previous.usage
            else reference.usage
          required := previous.required || reference.required } :: rest
      else previous :: mergeReference reference rest

def mergedReferences (references : List ConsumedInterfaceRef) : List ConsumedInterfaceRef :=
  references.foldl (fun merged reference => mergeReference reference merged) []

def dedupeConsumedInterfaceReferences (designs : List ImplementationDesign) :
    List ImplementationDesign :=
  designs.map fun design =>
    { design with consumedInterfaces := mergedReferences design.consumedInterfaces }

abbrev Declarations := Dict String ContractInterfaceInput

/-- The first declaration of an id is kept; a later one must repeat it. -/
def keepFirst : Declarations → List ContractInterfaceInput →
    Result (Declarations × List ContractInterfaceInput)
  | seen, [] => .ok (seen, [])
  | seen, interface :: rest =>
      match seen.get? interface.interfaceId with
      | none => do
          let (seen, kept) ← keepFirst (seen.set interface.interfaceId interface) rest
          .ok (seen, interface :: kept)
      | some previous => do
          raiseWhen (previous ≠ interface)
            ("接口 " ++ interface.interfaceId ++ " 在多个实现设计中定义冲突")
          keepFirst seen rest

def dedupeDeclarationsFrom : Declarations → List ImplementationDesign →
    Result (List ImplementationDesign)
  | _, [] => .ok []
  | seen, design :: rest => do
      let (seen, kept) ← keepFirst seen design.providedInterfaces
      let others ← dedupeDeclarationsFrom seen rest
      .ok ({ design with providedInterfaces := kept } :: others)

def dedupeInterfaceDeclarations (designs : List ImplementationDesign) :
    Result (List ImplementationDesign) := dedupeDeclarationsFrom ∅ designs

def declarations (designs : List ImplementationDesign) : List ContractInterfaceInput :=
  designs.flatMap (·.providedInterfaces)

/-- The unit that owns an interface; the first declaration wins. -/
def interfaceOwner (designs : List ImplementationDesign) (interfaceId : String) : Option String :=
  ((declarations designs).find? (·.interfaceId = interfaceId)).map (·.ownerUnit)

def withOwners (owner : String → Option String) (unit : UnitFields) : UnitFields :=
  { unit with dependsOn := dedupe (unit.dependsOn.map fun d => (owner d).getD d) }

def mapUnits (change : UnitFields → UnitFields) (design : ImplementationDesign) :
    ImplementationDesign :=
  { design with implementationUnits := design.implementationUnits.map change }

def normalizeInterfaceDependencies (designs : List ImplementationDesign) :
    List ImplementationDesign :=
  designs.map (mapUnits (withOwners (interfaceOwner designs)))

def waveHint (unit : UnitFields) : Nat := (unit.wave.getD 0).toNat

/-- The known unit with its wave hint and its known dependencies. -/
def waveNodes (units : List UnitFields) : Levels.Nodes String := fun unitId =>
  (units.find? (·.unitId = unitId)).map fun unit =>
    (waveHint unit, unit.dependsOn.filter (· ∈ units.map (·.unitId)))

def withWave (resolved : Dict String Nat) (unit : UnitFields) : UnitFields :=
  { unit with wave := (resolved.get? unit.unitId).map Int.ofNat }

/-- `_normalize_unit_waves`: nothing changes where ids repeat or dependencies
form a cycle. -/
def normalizeUnitWaves (designs : List ImplementationDesign) : List ImplementationDesign :=
  let units := allUnits designs
  let ids := units.map (·.unitId)
  if hasDuplicates ids then designs
  else match Levels.levels (waveNodes units) (units.length + 1) ∅ ids with
    | .ok resolved => designs.map (mapUnits (withWave resolved))
    | .error _ => designs

end ArchitectureWorkflow
end ProjectOS.Architecture.Designs
