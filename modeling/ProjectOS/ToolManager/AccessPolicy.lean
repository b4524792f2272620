import ProjectOS.ToolManager.GrantLedger

/-! Which tools an agent is shown: those of the sources that an active grant covers. -/
namespace ProjectOS.ToolManager
open Base

inductive ToolExposure where
  | always
  | onDemand
  | confirm
  | denied
deriving DecidableEq, Repr

structure ToolRegistration where
  capability : String
  sourceName : String
  exposure : ToolExposure

/-- The trusted identity of a tool call. -/
structure ExecutionContext where
  traceId : String
  workItemId : String
  named : Text.blank workItemId = false

/-- The active grants by their ids. -/
abbrev ToolAccessPolicy := Dict String CapabilityGrant

namespace CapabilityGrant

/-- The grant reaches the context. -/
def reaches (grant : CapabilityGrant) (context : ExecutionContext) : Bool :=
  grant.scope = .project ||
    (grant.traceId = context.traceId &&
      (grant.scope = .trace || (grant.scope = .node && grant.workItemId = some context.workItemId)))

end CapabilityGrant

namespace ToolAccessPolicy

def activateGrant (calendar : Calendar) (now : Int) (policy : ToolAccessPolicy)
    (grant : CapabilityGrant) : Result ToolAccessPolicy := do
  let active ← grant.isActive calendar now
  .ok (if active then policy.set grant.grantId grant else policy)

def activateAll (calendar : Calendar) (now : Int) (policy : ToolAccessPolicy) :
    List CapabilityGrant → Result ToolAccessPolicy
  | [] => .ok policy
  | grant :: rest => do
      let policy ← policy.activateGrant calendar now grant
      policy.activateAll calendar now rest

def grantMatches (calendar : Calendar) (now : Int) (registration : ToolRegistration)
    (context : Option ExecutionContext) (grant : CapabilityGrant) : Result Bool := do
  let active ← grant.isActive calendar now
  if !active then .ok false
  else if registration.capability ≠ grant.capability ||
      registration.sourceName ≠ grant.sourceName then .ok false
  else .ok (context.any grant.reaches)

/-- `any(...)`, which stops at the first match. -/
def anyMatch (calendar : Calendar) (now : Int) (registration : ToolRegistration)
    (context : Option ExecutionContext) : List CapabilityGrant → Result Bool
  | [] => .ok false
  | grant :: rest => do
      let found ← grantMatches calendar now registration context grant
      if found then .ok true else anyMatch calendar now registration context rest

def isVisible (calendar : Calendar) (now : Int) (policy : ToolAccessPolicy)
    (registration : ToolRegistration) (context : Option ExecutionContext) : Result Bool :=
  match registration.exposure with
  | .always => .ok true
  | .onDemand => anyMatch calendar now registration context policy.values
  | _ => .ok false

end ToolAccessPolicy

namespace CapabilityGrant

/-- The grant is for the source and reaches the context. -/
def Serves (grant : CapabilityGrant) (registration : ToolRegistration)
    (context : ExecutionContext) : Prop :=
  registration.capability = grant.capability ∧ registration.sourceName = grant.sourceName ∧
    grant.reaches context = true

/-- The grant is active at the time. -/
def ActiveAt (calendar : Calendar) (now : Int) (grant : CapabilityGrant) : Prop :=
  grant.status = .active ∧ lapsed calendar now grant.expiresAt = false

end CapabilityGrant

namespace ToolAccessPolicy
open CapabilityGrant

variable {calendar : Calendar} {now : Int} {registration : ToolRegistration}
  {context : ExecutionContext} {grants : List CapabilityGrant}

theorem isActive_iff {grant : CapabilityGrant} (h : Zoned calendar grant.expiresAt) :
    ∃ active, grant.isActive calendar now = .ok active ∧
      (active = true ↔ grant.ActiveAt calendar now) := by
  refine ⟨_, isActive_of_zoned h, ?_⟩
  simp [ActiveAt]

/-- Activating grants with ids of their own keeps the active ones. -/
theorem activateAll_of_zoned (h : ∀ grant ∈ grants, Zoned calendar grant.expiresAt)
    (hnodup : (grants.map (·.grantId)).Nodup) (policy : ToolAccessPolicy)
    (hpolicy : ∀ grant ∈ grants, grant.grantId ∉ policy.keys) :
    ∃ policy', policy.activateAll calendar now grants = .ok policy' ∧
      ∀ grant, grant ∈ policy'.values ↔
        grant ∈ policy.values ∨ grant ∈ grants ∧ grant.ActiveAt calendar now := by
  induction grants generalizing policy with
  | nil => exact ⟨policy, rfl, by simp⟩
  | cons grant rest ih =>
    rw [List.forall_mem_cons] at h hpolicy
    rw [List.map_cons, List.nodup_cons] at hnodup
    obtain ⟨active, hactive, hiff⟩ := @isActive_iff calendar now grant h.1
    rw [activateAll, activateGrant, hactive]
    simp only [ok_bind]
    have hne : ∀ other ∈ rest, other.grantId ≠ grant.grantId := fun other hother hid =>
      hnodup.1 (List.mem_map.mpr ⟨other, hother, hid⟩)
    cases active with
    | false =>
      obtain ⟨policy', hpolicy', hvalues⟩ := ih h.2 hnodup.2 policy hpolicy.2
      refine ⟨policy', hpolicy', fun other => ?_⟩
      have hout : ¬ grant.ActiveAt calendar now := by simpa using hiff
      rw [hvalues, List.mem_cons]
      constructor
      · rintro (hold | ⟨hrest, hnow⟩)
        · exact .inl hold
        · exact .inr ⟨.inr hrest, hnow⟩
      · rintro (hold | ⟨rfl | hrest, hnow⟩)
        · exact .inl hold
        · exact absurd hnow hout
        · exact .inr ⟨hrest, hnow⟩
    | true =>
      obtain ⟨policy', hpolicy', hvalues⟩ := ih h.2 hnodup.2 (policy.set grant.grantId grant)
        (fun other hother hmem => (Dict.mem_keys_set.mp hmem).elim (hne other hother)
          (hpolicy.2 other hother))
      refine ⟨policy', hpolicy', fun other => ?_⟩
      have hin : grant.ActiveAt calendar now := hiff.mp rfl
      have hset : (Dict.set policy grant.grantId grant).values = policy.values ++ [grant] := by
        rw [Dict.values, Dict.entries_set_of_not_mem hpolicy.1]
        simp [Dict.values]
      rw [hvalues, hset, List.mem_append, List.mem_singleton, List.mem_cons]
      constructor
      · rintro ((hold | rfl) | ⟨hrest, hnow⟩)
        · exact .inl hold
        · exact .inr ⟨.inl rfl, hin⟩
        · exact .inr ⟨.inr hrest, hnow⟩
      · rintro (hold | ⟨rfl | hrest, hnow⟩)
        · exact .inl (.inl hold)
        · exact .inl (.inr rfl)
        · exact .inr ⟨hrest, hnow⟩

theorem anyMatch_of_zoned (h : ∀ grant ∈ grants, Zoned calendar grant.expiresAt) :
    ∃ found, anyMatch calendar now registration (some context) grants = .ok found ∧
      (found = true ↔ ∃ grant ∈ grants, grant.ActiveAt calendar now ∧
        grant.Serves registration context) := by
  induction grants with
  | nil => exact ⟨false, rfl, by simp⟩
  | cons grant rest ih =>
    rw [List.forall_mem_cons] at h
    obtain ⟨found, hfound, hiff⟩ := ih h.2
    obtain ⟨active, hactive, hnow⟩ := @isActive_iff calendar now grant h.1
    have hhere : ∃ here, grantMatches calendar now registration (some context) grant = .ok here ∧
        (here = true ↔ grant.ActiveAt calendar now ∧ grant.Serves registration context) := by
      rw [grantMatches, hactive, ok_bind, ← hnow]
      cases active with
      | false => exact ⟨false, rfl, by simp⟩
      | true =>
        rw [if_neg (by simp)]
        split
        · rename_i hother
          refine ⟨false, rfl, ?_⟩
          simp only [Bool.or_eq_true, decide_eq_true_eq] at hother
          simp only [Bool.false_eq_true, true_and, false_iff]
          intro ⟨hcapability, hsource, _⟩
          obtain hne | hne := hother
          · exact hne hcapability
          · exact hne hsource
        · rename_i hsame
          refine ⟨_, rfl, ?_⟩
          simp only [Bool.or_eq_true, decide_eq_true_eq, not_or, not_not] at hsame
          simp [Serves, hsame]
    obtain ⟨here, hmatch, hereIff⟩ := hhere
    rw [anyMatch, hmatch, ok_bind]
    simp only [List.exists_mem_cons_iff, ← hereIff, ← hiff]
    cases here with
    | true => exact ⟨true, rfl, by simp⟩
    | false => exact ⟨found, hfound, by simp⟩

end ToolAccessPolicy

end ProjectOS.ToolManager
