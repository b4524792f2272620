import Mathlib.Logic.Function.Basic
import ProjectOS.ToolManager.AccessPolicy

/-! Stores of several processes on the ledger files of one project. Each read and each write
of a file is a step of its own, and nothing orders the steps of different calls. -/
namespace ProjectOS.ToolManager
open Base CapabilityGrant CapabilityGrantStore

inductive GrantFile where
  | project
  | trace (traceId : String)
deriving DecidableEq

/-- The file a grant is written to. -/
def CapabilityGrant.home (grant : CapabilityGrant) : GrantFile :=
  if grant.scope = .project then .project else .trace grant.traceId

inductive StoreCall where
  | list (traceId : String) (includeInactive : Bool)
  | grant (traceId : String) (call : GrantCall)
  | revoke (traceId grantId : String)

inductive Answer where
  | listed (grants : List CapabilityGrant)
  | granted (grant : CapabilityGrant)
  | revoked (grant : CapabilityGrant)
deriving DecidableEq

/-- What a call does once it has read both files. -/
inductive Decision where
  | raised
  | returned (answer : Answer)
  | rewrite (next : Ledger) (answer : Answer)
  | add (grant : CapabilityGrant)

namespace StoreCall

def traceId : StoreCall → String
  | .list traceId _ => traceId
  | .grant traceId _ => traceId
  | .revoke traceId _ => traceId

/-- The grant that the call revokes. -/
def target : StoreCall → Option String
  | .revoke _ grantId => some grantId
  | _ => none

def decide (calendar : Calendar) (now : Int) (seen : Ledger) : StoreCall → Decision
  | .list traceId includeInactive =>
      match CapabilityGrantStore.list calendar now traceId includeInactive seen with
      | .ok (grants, some kept) => .rewrite (writeAll kept) (.listed grants)
      | .ok (grants, none) => .returned (.listed grants)
      | .error _ => .raised
  | .grant traceId call =>
      match CapabilityGrantStore.grant calendar now traceId call seen with
      | .ok (.existing found) => .returned (.granted found)
      | .ok (.fresh added) => .add added
      | .error _ => .raised
  | .revoke traceId grantId =>
      match CapabilityGrantStore.revoke calendar now traceId grantId seen with
      | .ok (revoked, grants) => .rewrite (writeAll grants) (.revoked revoked)
      | .error _ => .raised

end StoreCall

deriving instance DecidableEq for Ledger

/-- How far a call is, with the grants that were made before its first read. -/
inductive Phase where
  | idle
  | readProject (before project : List CapabilityGrant)
  | readBoth (before : List CapabilityGrant) (seen : Ledger)
  | rewriteProject (before : List CapabilityGrant) (seen next : Ledger) (answer : Answer)
  | rewriteTrace (before : List CapabilityGrant) (seen next : Ledger) (answer : Answer)
  | readTarget (before : List CapabilityGrant) (grant : CapabilityGrant)
  | append (before : List CapabilityGrant) (grant : CapabilityGrant) (seen : List CapabilityGrant)
  | returned (before : List CapabilityGrant) (answer : Answer)
  | raised
deriving DecidableEq

/-- The files, the grants whose call has written them, and every call's phase. -/
structure Race (ι : Type) where
  now : Int := 0
  files : GrantFile → List CapabilityGrant := fun _ => []
  made : List CapabilityGrant := []
  phase : ι → Phase := fun _ => .idle

namespace Race
variable {ι : Type} [DecidableEq ι]

def goto (race : Race ι) (i : ι) (phase : Phase) : Race ι :=
  { race with phase := Function.update race.phase i phase }

def put (race : Race ι) (file : GrantFile) (content : List CapabilityGrant) : Race ι :=
  { race with files := Function.update race.files file content }

/-- The next step of a call. -/
def act (calendar : Calendar) (calls : ι → StoreCall) (race : Race ι) (i : ι) : Race ι :=
  match race.phase i with
  | .idle => race.goto i (.readProject race.made (race.files .project))
  | .readProject before project =>
      race.goto i (.readBoth before ⟨project, race.files (.trace (calls i).traceId)⟩)
  | .readBoth before seen =>
      match (calls i).decide calendar race.now seen with
      | .raised => race.goto i .raised
      | .returned answer => race.goto i (.returned before answer)
      | .rewrite next answer => race.goto i (.rewriteProject before seen next answer)
      | .add grant => race.goto i (.readTarget before grant)
  | .rewriteProject before seen next answer =>
      (race.put .project next.project).goto i (.rewriteTrace before seen next answer)
  | .rewriteTrace before _ next answer =>
      (race.put (.trace (calls i).traceId) next.trace).goto i (.returned before answer)
  | .readTarget before grant => race.goto i (.append before grant (race.files grant.home))
  | .append before grant seen =>
      ({ race with made := race.made ++ [grant.reread] }.put grant.home (withGrant grant seen)).goto i
        (.returned before (.granted grant))
  | .returned .. => race
  | .raised => race

def run (calendar : Calendar) (calls : ι → StoreCall) (race : Race ι) (steps : List ι) : Race ι :=
  steps.foldl (act calendar calls) race

def tick (race : Race ι) (duration : Nat) : Race ι := { race with now := race.now + duration }

/-- The file still has the active entries that a call read from it. -/
def Undisturbed (calendar : Calendar) (race : Race ι) (file : GrantFile)
    (seen : List CapabilityGrant) : Prop :=
  ∀ entry, entry.ActiveAt calendar race.now → (entry ∈ seen ↔ entry ∈ race.files file)

/-- Only a write needs a condition, and a new grant a zone. -/
def Permitted (calendar : Calendar) (calls : ι → StoreCall) (race : Race ι) (i : ι) : Prop :=
  match race.phase i with
  | .rewriteProject _ seen _ _ => race.Undisturbed calendar .project seen.project
  | .rewriteTrace _ seen _ _ => race.Undisturbed calendar (.trace (calls i).traceId) seen.trace
  | .append _ grant seen => race.Undisturbed calendar grant.home seen ∧ Zoned calendar grant.expiresAt
  | _ => True

/-- The races that permitted steps reach from empty files. -/
inductive Reached (calendar : Calendar) (calls : ι → StoreCall) (permitted : Race ι → ι → Prop) :
    Race ι → Prop where
  | start (now : Int) : Reached calendar calls permitted { now := now }
  | act {race : Race ι} (i : ι) (previous : Reached calendar calls permitted race)
      (allowed : permitted race i) : Reached calendar calls permitted (race.act calendar calls i)
  | tick {race : Race ι} (duration : Nat) (previous : Reached calendar calls permitted race) :
      Reached calendar calls permitted (race.tick duration)

end Race

/-- A call of `revoke` in this phase has found the grant. -/
def Phase.decided : Phase → Bool
  | .rewriteProject .. | .rewriteTrace .. | .returned .. => true
  | _ => false

namespace Race
variable {ι : Type}

/-- A call that revokes the grant has found it. -/
def Revoking (calls : ι → StoreCall) (race : Race ι) (grantId : String) : Prop :=
  ∃ i, (calls i).target = some grantId ∧ (race.phase i).decided = true

/-- A revoked grant is active nowhere. A grant stays in its file and in what is listed, and
no listing raises. -/
structure NoLostUpdate (calendar : Calendar) (calls : ι → StoreCall) (race : Race ι) : Prop where
  revoked : ∀ i traceId grantId before answer, calls i = .revoke traceId grantId →
    race.phase i = .returned before answer → ∀ file, ∀ entry ∈ race.files file,
      entry.grantId = grantId → ¬ entry.ActiveAt calendar race.now
  granted : ∀ i traceId call before grant, calls i = .grant traceId call →
    race.phase i = .returned before (.granted grant) → ¬ race.Revoking calls grant.grantId →
      lapsed calendar race.now grant.expiresAt = false →
        ∃ entry ∈ race.files grant.home, entry.grantId = grant.grantId ∧
          entry.ActiveAt calendar race.now
  listed : ∀ i traceId includeInactive before grants, calls i = .list traceId includeInactive →
    race.phase i = .returned before (.listed grants) → ∀ grant ∈ before,
      grant.home = .project ∨ grant.home = .trace traceId → ¬ race.Revoking calls grant.grantId →
        lapsed calendar race.now grant.expiresAt = false → grant ∈ grants
  lists : ∀ i traceId includeInactive, calls i = .list traceId includeInactive →
    race.phase i ≠ .raised

end Race

end ProjectOS.ToolManager
