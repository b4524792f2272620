import ProjectOS.ToolManager.AccessPolicy

/-! What the grants of a project mean: after any calls, a source is visible in a context
when a call that was approved for it is neither revoked nor over. -/
namespace ProjectOS.ToolManager
open Base CapabilityGrant CapabilityGrantStore

/-- A call of `grant` that returned, in its trace. -/
structure Approval where
  traceId : String
  call : GrantCall
  grantId : String
deriving DecidableEq

namespace Approval

/-- The call asks for the source in this context. -/
def Covers (approval : Approval) (registration : ToolRegistration) (context : ExecutionContext) :
    Prop :=
  registration.capability = Text.strip approval.call.capability ∧
    registration.sourceName = Text.strip approval.call.sourceName ∧
    (approval.call.scope = "project" ∨ approval.traceId = context.traceId ∧
      (approval.call.scope = "trace" ∨
        approval.call.scope = "node" ∧ approval.call.workItemId = some context.workItemId))

end Approval

/-- The ledger files of a project, with the grants made, the approvals given and the ids
revoked so far. -/
structure Project where
  now : Int := 0
  shared : List CapabilityGrant := []
  traces : Dict String (List CapabilityGrant) := ∅
  minted : List CapabilityGrant := []
  approvals : List Approval := []
  revoked : List String := []

inductive GrantEvent where
  | grant (traceId : String) (call : GrantCall)
  | revoke (traceId grantId : String)
  | list (traceId : String) (includeInactive : Bool)
  | tick (duration : Nat)

namespace Project

def ofTrace (project : Project) (traceId : String) : List CapabilityGrant :=
  (project.traces.get? traceId).getD []

def ledger (project : Project) (traceId : String) : Ledger :=
  ⟨project.shared, project.ofTrace traceId⟩

def write (project : Project) (traceId : String) (ledger : Ledger) : Project :=
  { project with shared := ledger.project, traces := project.traces.set traceId ledger.trace }

/-- The file of the scope with the new grant. -/
def mint (project : Project) (traceId : String) (grant : CapabilityGrant) : Project :=
  let ledger := project.ledger traceId
  { project.write traceId (if grant.scope = .project
      then ⟨withGrant grant ledger.project, ledger.trace⟩
      else ⟨ledger.project, withGrant grant ledger.trace⟩) with
    minted := project.minted ++ [grant.reread] }

def approve (project : Project) (traceId : String) (call : GrantCall) (grant : CapabilityGrant) :
    Project :=
  { project with approvals := project.approvals ++ [⟨traceId, call, grant.grantId⟩] }

/-- One call after another; a call that raises changes nothing. -/
def apply (calendar : Calendar) (project : Project) : GrantEvent → Project
  | .grant traceId call =>
      match CapabilityGrantStore.grant calendar project.now traceId call (project.ledger traceId) with
      | .ok (.existing grant) => project.approve traceId call grant
      | .ok (.fresh grant) => (project.mint traceId grant).approve traceId call grant
      | .error _ => project
  | .revoke traceId grantId =>
      match CapabilityGrantStore.revoke calendar project.now traceId grantId
          (project.ledger traceId) with
      | .ok (_, grants) =>
          { project.write traceId (writeAll grants) with revoked := project.revoked ++ [grantId] }
      | .error _ => project
  | .list traceId includeInactive =>
      match CapabilityGrantStore.list calendar project.now traceId includeInactive
          (project.ledger traceId) with
      | .ok (_, some kept) => project.write traceId (writeAll kept)
      | _ => project
  | .tick duration => { project with now := project.now + duration }

/-- The id of a new grant is new. -/
def Permitted (project : Project) : GrantEvent → Prop
  | .grant _ call => "grant-" ++ call.hex ∉ project.minted.map (·.grantId)
  | _ => True

inductive Reached (calendar : Calendar) (allowed : Project → GrantEvent → Prop) : Project → Prop where
  | empty (now : Int) : Reached calendar allowed { now := now }
  | step {project : Project} {event : GrantEvent} (previous : Reached calendar allowed project)
      (permitted : project.Permitted event) (kind : allowed project event) :
      Reached calendar allowed (project.apply calendar event)

/-- What the policy answers once the listed grants of the trace are activated. -/
def visible (calendar : Calendar) (project : Project) (registration : ToolRegistration)
    (context : ExecutionContext) : Result Bool := do
  let (grants, _) ← CapabilityGrantStore.list calendar project.now context.traceId false
    (project.ledger context.traceId)
  let policy ← ToolAccessPolicy.activateAll calendar project.now ∅ grants
  policy.isVisible calendar project.now registration (some context)

/-- No listing raises, and a source on demand is visible exactly where an approval that
is neither revoked nor over covers the context. -/
def Meaning (calendar : Calendar) (project : Project) : Prop :=
  (∀ traceId includeInactive, (CapabilityGrantStore.list calendar project.now traceId
    includeInactive (project.ledger traceId)).isOk = true) ∧
  ∀ registration context, registration.exposure = .onDemand →
    ∃ answer, project.visible calendar registration context = .ok answer ∧
      (answer = true ↔ ∃ approval ∈ project.approvals, approval.grantId ∉ project.revoked ∧
        lapsed calendar project.now approval.call.expiresAt = false ∧
          approval.Covers registration context)

/-- The active grant of the store that a call would be answered with. -/
def matching (calendar : Calendar) (project : Project) (traceId : String) (call : GrantCall) :
    Option CapabilityGrant :=
  (project.shared ++ project.ofTrace traceId).find? fun existing =>
    existing.status = .active && !lapsed calendar project.now existing.expiresAt &&
      (existing.capability = call.capability && existing.sourceName = call.sourceName &&
        existing.workItemId = call.workItemId)

/-- The scope is at least as wide as the one asked for. -/
def wideEnough (asked : String) (scope : GrantScope) : Bool :=
  asked = "node" || (asked = "trace" && scope ≠ .node) || scope = .project

/-- An expiry has its zone, and a call that meets an active grant for the same source and
work item asks for no wider scope and no later expiry than that grant has. -/
def Safe (calendar : Calendar) (project : Project) : GrantEvent → Prop
  | .grant traceId call => Zoned calendar call.expiresAt ∧
      ∀ existing, project.matching calendar traceId call = some existing →
        wideEnough call.scope existing.scope = true ∧
          ∀ later, lapsed calendar later call.expiresAt = false →
            lapsed calendar later existing.expiresAt = false
  | _ => True

/-- Where a grant is kept. -/
def home (project : Project) (grant : CapabilityGrant) : List CapabilityGrant :=
  if grant.scope = .project then project.shared else project.ofTrace grant.traceId

/-- The grant is what the approval asked for. -/
structure Answers (calendar : Calendar) (grant : CapabilityGrant) (approval : Approval) : Prop where
  grantId : grant.grantId = approval.grantId
  covers : ∀ registration context, approval.Covers registration context →
    grant.Serves registration context
  lasts : ∀ later, lapsed calendar later approval.call.expiresAt = false →
    lapsed calendar later grant.expiresAt = false

structure Sound (calendar : Calendar) (project : Project) : Prop where
  ids : Minted project.minted
  shared : Holding project.minted InProject project.shared
  traces : ∀ traceId, Holding project.minted (InTrace traceId) (project.ofTrace traceId)
  zoned : ∀ grant ∈ project.minted, Zoned calendar grant.expiresAt
  kept : ∀ grant ∈ project.minted, grant.grantId ∉ project.revoked →
    lapsed calendar project.now grant.expiresAt = false → grant ∈ project.home grant
  live : ∀ traceId, ∀ entry ∈ project.shared ++ project.ofTrace traceId, entry.status = .active →
    entry.grantId ∉ project.revoked
  origin : ∀ grant ∈ project.minted, ∃ approval ∈ project.approvals,
    grant.grantId = approval.grantId ∧
      (∀ registration context, grant.Serves registration context →
        approval.Covers registration context) ∧
      ∀ now, lapsed calendar now grant.expiresAt = lapsed calendar now approval.call.expiresAt
  served : ∀ approval ∈ project.approvals, ∃ grant ∈ project.minted,
    Answers calendar grant approval
  stripped : ∀ grant ∈ project.minted, Text.strip grant.capability = grant.capability ∧
    Text.strip grant.sourceName = grant.sourceName
  known : ∀ id ∈ project.revoked, id ∈ project.minted.map (·.grantId)

namespace Sound

variable {calendar : Calendar} {project : Project} {traceId : String}

theorem empty (now : Int) : Sound calendar { now := now } := by
  refine ⟨⟨List.nodup_nil, nofun, nofun⟩, .empty, fun _ => .empty, nofun, nofun, ?_, nofun, nofun,
    nofun, nofun⟩
  intro traceId entry hentry
  cases hentry

theorem ledger (h : project.Sound calendar) (traceId : String) :
    CapabilityGrantStore.Sound project.minted traceId (project.ledger traceId) :=
  ⟨h.ids, h.shared, h.traces traceId⟩

theorem zoned_entry (h : project.Sound calendar) :
    ∀ entry ∈ project.shared ++ project.ofTrace traceId, Zoned calendar entry.expiresAt :=
  (h.ledger traceId).zoned_entry h.zoned

/-- An active entry is minted, in the file that is its home. -/
theorem minted_of_active (h : project.Sound calendar) {entry : CapabilityGrant}
    (hentry : entry ∈ project.shared ++ project.ofTrace traceId) (hactive : entry.status = .active) :
    entry ∈ project.minted ∧ (entry.scope = .project ∨ entry.traceId = traceId) := by
  obtain hentry | hentry := List.mem_append.mp hentry
  · obtain ⟨hminted, hhome⟩ := h.shared.active hentry hactive
    exact ⟨hminted, .inl hhome⟩
  · obtain ⟨hminted, hhome⟩ := (h.traces traceId).active hentry hactive
    exact ⟨hminted, .inr hhome.2⟩

theorem list_eq (h : project.Sound calendar) (includeInactive : Bool) :
    ∃ written, CapabilityGrantStore.list calendar project.now traceId includeInactive
        (project.ledger traceId) =
      .ok (if includeInactive then project.shared ++ project.ofTrace traceId
        else (project.shared ++ project.ofTrace traceId).filter fun entry =>
          entry.status = .active && !lapsed calendar project.now entry.expiresAt, written) ∧
      ∀ kept, written = some kept →
        kept = (project.shared ++ project.ofTrace traceId).filter fun entry =>
          entry.status = .active && !lapsed calendar project.now entry.expiresAt ||
            entry.status = .revoked := (h.ledger traceId).list_eq h.zoned includeInactive

/-- A sound ledger means what was approved. -/
theorem meaning (h : project.Sound calendar) : project.Meaning calendar := by
  constructor
  · intro traceId includeInactive
    obtain ⟨written, hlist, -⟩ := @list_eq _ _ traceId h includeInactive
    rw [hlist]
    rfl
  intro registration context hexposure
  obtain ⟨written, hlist, -⟩ := @list_eq _ _ context.traceId h false
  rw [if_neg Bool.false_ne_true] at hlist
  have hzoned := @zoned_entry _ _ context.traceId h
  have hactivate := @ToolAccessPolicy.activateAll_of_zoned calendar project.now
    ((project.shared ++ project.ofTrace context.traceId).filter fun entry =>
      entry.status = .active && !lapsed calendar project.now entry.expiresAt)
    (fun grant hgrant => hzoned grant (List.mem_of_mem_filter hgrant))
    ((h.ledger context.traceId).nodup.sublist ((List.filter_sublist).map _)) ∅ (by simp)
  obtain ⟨policy, hpolicy, hvalues⟩ := hactivate
  have hmember : ∀ grant, grant ∈ policy.values →
      grant ∈ project.shared ++ project.ofTrace context.traceId := fun grant hgrant => by
    obtain hnone | ⟨hmem, -⟩ := (hvalues grant).mp hgrant
    · cases hnone
    · exact List.mem_of_mem_filter hmem
  obtain ⟨answer, hanswer, hiff⟩ := @ToolAccessPolicy.anyMatch_of_zoned calendar project.now
    registration context policy.values fun grant hgrant => hzoned grant (hmember grant hgrant)
  refine ⟨answer, ?_, hiff.trans ⟨?_, ?_⟩⟩
  · rw [visible, hlist, ok_bind]
    dsimp only
    rw [hpolicy, ok_bind, ToolAccessPolicy.isVisible, hexposure]
    exact hanswer
  · intro ⟨grant, hgrant, hactive, hserves⟩
    obtain ⟨hminted, -⟩ := h.minted_of_active (hmember grant hgrant) hactive.1
    obtain ⟨approval, happroval, hid, hcovers, hlapsed⟩ := h.origin grant hminted
    exact ⟨approval, happroval, hid ▸ h.live _ grant (hmember grant hgrant) hactive.1,
      (hlapsed _).symm.trans hactive.2, hcovers registration context hserves⟩
  · intro ⟨approval, happroval, hrevoked, hlapsed, hcovers⟩
    obtain ⟨grant, hminted, hanswers⟩ := h.served approval happroval
    have hserves := hanswers.covers registration context hcovers
    have hlasts := hanswers.lasts _ hlapsed
    have hhome := h.kept grant hminted (hanswers.grantId ▸ hrevoked) hlasts
    have hactive := h.ids.active grant hminted
    have hmem : grant ∈ project.shared ++ project.ofTrace context.traceId := by
      unfold home at hhome
      split at hhome
      · exact List.mem_append_left _ hhome
      · rename_i hscope
        have htrace : grant.traceId = context.traceId := by
          have hreaches := hserves.2.2
          simp only [reaches, hscope, decide_false, Bool.false_or, Bool.and_eq_true,
            decide_eq_true_eq] at hreaches
          exact hreaches.1
        exact List.mem_append_right _ (htrace ▸ hhome)
    refine ⟨grant, (hvalues grant).mpr (.inr ⟨List.mem_filter.mpr ⟨hmem, ?_⟩, hactive, hlasts⟩),
      ⟨hactive, hlasts⟩, hserves⟩
    simp [hactive, hlasts]

theorem get_write (project : Project) (traceId other : String) (ledger : Ledger) :
    (project.write traceId ledger).ofTrace other =
      if other = traceId then ledger.trace else project.ofTrace other := by
  rw [ofTrace, write, Dict.get?_set]
  split <;> rfl

/-- The files of a store are written, and ids may be revoked with it. -/
theorem write (h : project.Sound calendar) {ledger : Ledger} {revoked : List String}
    (hshared : Holding project.minted InProject ledger.project)
    (htrace : Holding project.minted (InTrace traceId) ledger.trace)
    (hrevoked : ∀ id ∈ project.revoked, id ∈ revoked)
    (hknown : ∀ id ∈ revoked, id ∈ project.minted.map (·.grantId))
    (hkept : ∀ grant ∈ project.minted, grant.grantId ∉ revoked →
      lapsed calendar project.now grant.expiresAt = false →
        (grant ∈ project.shared → grant ∈ ledger.project) ∧
          (grant ∈ project.ofTrace traceId → grant ∈ ledger.trace))
    (hlive : ∀ entry ∈ ledger.project ++ ledger.trace, entry.status = .active →
      entry.grantId ∉ revoked)
    (hothers : ∀ other, other ≠ traceId → ∀ entry ∈ project.ofTrace other, entry.status = .active →
      entry.grantId ∉ revoked) :
    Sound calendar { project.write traceId ledger with revoked := revoked } := by
  refine ⟨h.ids, hshared, fun other => ?_, h.zoned, fun grant hgrant hid hlapsed => ?_,
    fun other entry hentry hactive => ?_, h.origin, h.served, h.stripped, hknown⟩
  · change Holding project.minted (InTrace other) ((project.write traceId ledger).ofTrace other)
    rw [get_write]
    split
    · rename_i hother
      exact hother ▸ htrace
    · exact h.traces other
  · have hhome := h.kept grant hgrant (fun hmem => hid (hrevoked _ hmem)) hlapsed
    obtain ⟨hproject, hin⟩ := hkept grant hgrant hid hlapsed
    change grant ∈ (project.write traceId ledger).home grant
    unfold home at hhome ⊢
    split
    · rename_i hscope
      rw [if_pos hscope] at hhome
      exact hproject hhome
    · rename_i hscope
      rw [if_neg hscope] at hhome
      rw [get_write]
      split
      · rename_i hsame
        exact hin (hsame ▸ hhome)
      · exact hhome
  · obtain hmem | hmem := List.mem_append.mp hentry
    · exact hlive entry (List.mem_append_left _ hmem) hactive
    · change entry ∈ (project.write traceId ledger).ofTrace other at hmem
      rw [get_write] at hmem
      split at hmem
      · exact hlive entry (List.mem_append_right _ hmem) hactive
      · rename_i hother
        exact hothers other hother entry hmem hactive

/-- What a listing leaves out is over or was never active. -/
theorem listed (h : project.Sound calendar) {includeInactive : Bool}
    {shown kept : List CapabilityGrant}
    (hlist : CapabilityGrantStore.list calendar project.now traceId includeInactive
      (project.ledger traceId) = .ok (shown, some kept)) :
    Sound calendar (project.write traceId (writeAll kept)) := by
  obtain ⟨written, heq, hkept⟩ := @list_eq _ _ traceId h includeInactive
  rw [heq] at hlist
  cases hlist
  obtain rfl := hkept kept rfl
  have hfiles := (h.ledger traceId).writeAll_filter fun entry =>
    entry.status = .active && !lapsed calendar project.now entry.expiresAt ||
      entry.status = .revoked
  change writeAll (List.filter _ (project.shared ++ project.ofTrace traceId)) =
    ⟨project.shared.filter _, (project.ofTrace traceId).filter _⟩ at hfiles
  rw [hfiles]
  refine @write _ _ traceId h ⟨_, _⟩ project.revoked (h.shared.filter _)
    ((h.traces traceId).filter _) (fun _ => id) h.known ?_ ?_ ?_
  · intro grant hgrant _ hlapsed
    have hactive := h.ids.active grant hgrant
    exact ⟨fun hmem => List.mem_filter.mpr ⟨hmem, by simp [hactive, hlapsed]⟩,
      fun hmem => List.mem_filter.mpr ⟨hmem, by simp [hactive, hlapsed]⟩⟩
  · intro entry hentry
    apply h.live traceId entry
    obtain hmem | hmem := List.mem_append.mp hentry
    · exact List.mem_append_left _ (List.mem_of_mem_filter hmem)
    · exact List.mem_append_right _ (List.mem_of_mem_filter hmem)
  · exact fun other _ entry hentry => h.live other entry (List.mem_append_right _ hentry)

/-- A revoked id is inactive in the one file that holds it. -/
theorem revoke (h : project.Sound calendar) {grantId : String}
    {found : CapabilityGrant × List CapabilityGrant}
    (hrevoke : CapabilityGrantStore.revoke calendar project.now traceId grantId
      (project.ledger traceId) = .ok found) :
    Sound calendar { project.write traceId (writeAll found.2) with
      revoked := project.revoked ++ [grantId] } := by
  unfold CapabilityGrantStore.revoke at hrevoke
  obtain ⟨_, hlist, hrevoke⟩ := bind_eq_ok.mp hrevoke
  obtain ⟨written, heq, -⟩ := @list_eq _ _ traceId h true
  cases heq.symm.trans hlist
  rw [if_pos rfl] at hrevoke
  dsimp only at hrevoke
  split at hrevoke
  · rename_i found' hfound
    cases hrevoke
    have hnodup := (h.ledger traceId).nodup
    obtain ⟨-, -, hmark, hin⟩ := revokeFirst_eq_some hnodup hfound
    have hfiles := (h.ledger traceId).writeAll_mark grantId
    have hminted : ∃ grant ∈ project.minted, grantId = grant.grantId ∧
        (InProject grant ∨ InTrace traceId grant) := by
      obtain ⟨seen, hseen, rfl⟩ := List.mem_map.mp hin
      obtain hmem | hmem := List.mem_append.mp hseen
      · obtain ⟨grant, hgrant, hhome, heq, -⟩ := h.shared.fields hmem
        exact ⟨grant, hgrant, heq, .inl hhome⟩
      · obtain ⟨grant, hgrant, hhome, heq, -⟩ := (h.traces traceId).fields hmem
        exact ⟨grant, hgrant, heq, .inr hhome⟩
    obtain ⟨grant, hgrant, hgrantId, hplace⟩ := hminted
    rw [hmark, hfiles]
    refine h.write (h.shared.mark grantId) ((h.traces traceId).mark grantId)
      (fun _ hid => List.mem_append_left _ hid) (fun id hid => ?_) ?_ ?_ ?_
    · obtain hid | hid := List.mem_append.mp hid
      · exact h.known id hid
      · exact List.mem_map.mpr ⟨grant, hgrant, (List.mem_singleton.mp hid).symm ▸ hgrantId.symm⟩
    · intro grant _ hid _
      have hne : grant.grantId ≠ grantId := fun heq =>
        hid (List.mem_append_right _ (heq ▸ List.mem_singleton_self _))
      exact ⟨fun hmem => mem_mark hmem hne, fun hmem => mem_mark hmem hne⟩
    · intro entry hentry hactive hid
      have hold : entry ∈ project.shared ++ project.ofTrace traceId ∧ entry.grantId ≠ grantId := by
        obtain hmem | hmem := List.mem_append.mp hentry
        · obtain ⟨hfile, hne⟩ := mark_active hmem hactive
          exact ⟨List.mem_append_left _ hfile, hne⟩
        · obtain ⟨hfile, hne⟩ := mark_active hmem hactive
          exact ⟨List.mem_append_right _ hfile, hne⟩
      obtain hid | hid := List.mem_append.mp hid
      · exact h.live traceId entry hold.1 hactive hid
      · exact hold.2 (List.mem_singleton.mp hid)
    · intro other hother entry hentry hactive hid
      obtain hid | hid := List.mem_append.mp hid
      · exact h.live other entry (List.mem_append_right _ hentry) hactive hid
      · -- the entry that was revoked has its home in this store
        obtain ⟨hminted, hscope, hhome⟩ := (h.traces other).active hentry hactive
        obtain rfl := h.ids.eq_of_id hminted hgrant ((List.mem_singleton.mp hid).trans hgrantId)
        obtain hproject | htrace := hplace
        · exact hscope hproject
        · exact hother (hhome.symm.trans htrace.2)
  · cases hrevoke

theorem parse_ok {text : String} {scope : GrantScope} (h : GrantScope.parse text = .ok scope) :
    (text = "node" ∧ scope = .node) ∨ (text = "trace" ∧ scope = .trace) ∨
      (text = "project" ∧ scope = .project) := by
  unfold GrantScope.parse at h
  split at h
  · cases h
    exact .inl ⟨‹_›, rfl⟩
  · split at h
    · cases h
      exact .inr (.inl ⟨‹_›, rfl⟩)
    · split at h
      · cases h
        exact .inr (.inr ⟨‹_›, rfl⟩)
      · cases h

theorem named_ne_empty (context : ExecutionContext) : context.workItemId ≠ "" := by
  intro hempty
  have hnamed := context.named
  rw [hempty] at hnamed
  cases hnamed

/-- A new grant serves what its call covers. -/
theorem serves_iff {call : GrantCall} {scope : GrantScope} {grant : CapabilityGrant}
    (hscope : GrantScope.parse call.scope = .ok scope)
    (hgrant : grant.capability = Text.strip call.capability ∧
      grant.sourceName = Text.strip call.sourceName ∧ grant.traceId = traceId ∧
      grant.scope = scope ∧ grant.workItemId = call.workItemId)
    (registration : ToolRegistration) (context : ExecutionContext) (grantId : String) :
    grant.reread.Serves registration context ↔
      (Approval.mk traceId call grantId).Covers registration context := by
  obtain ⟨hcapability, hsource, htrace, hscopeOf, hwork⟩ := hgrant
  have hitem : call.workItemId.filter (· ≠ "") = some context.workItemId ↔
      call.workItemId = some context.workItemId := by
    rw [Option.filter_eq_some_iff]
    simp [named_ne_empty context]
  unfold Serves Approval.Covers reaches
  simp only [reread, hcapability, hsource, htrace, hscopeOf, hwork, Bool.or_eq_true,
    Bool.and_eq_true, decide_eq_true_eq, hitem]
  obtain ⟨htext, rfl⟩ | ⟨htext, rfl⟩ | ⟨htext, rfl⟩ := parse_ok hscope <;> simp [htext]

theorem approve (h : project.Sound calendar) {call : GrantCall} {grant : CapabilityGrant}
    (hanswers : ∃ minted ∈ project.minted,
      Answers calendar minted ⟨traceId, call, grant.grantId⟩) :
    Sound calendar (project.approve traceId call grant) := by
  refine ⟨h.ids, h.shared, h.traces, h.zoned, h.kept, h.live, fun minted hminted => ?_,
    fun approval happroval => ?_, h.stripped, h.known⟩
  · obtain ⟨approval, happroval, hrest⟩ := h.origin minted hminted
    exact ⟨approval, List.mem_append_left _ happroval, hrest⟩
  · obtain hold | hnew := List.mem_append.mp happroval
    · exact h.served approval hold
    · obtain rfl := List.mem_singleton.mp hnew
      exact hanswers

/-- An active grant that is wide and long enough answers the call. -/
theorem existing (h : project.Sound calendar) {call : GrantCall} {grant : CapabilityGrant}
    (hmatching : project.matching calendar traceId call = some grant)
    (hwide : wideEnough call.scope grant.scope = true)
    (hlasts : ∀ later, lapsed calendar later call.expiresAt = false →
      lapsed calendar later grant.expiresAt = false) :
    Sound calendar (project.approve traceId call grant) := by
  have hentry := List.mem_of_find?_eq_some hmatching
  have hsame := List.find?_some hmatching
  simp only [Bool.and_eq_true, decide_eq_true_eq] at hsame
  obtain ⟨⟨hactive, -⟩, ⟨hcapability, hsource⟩, hwork⟩ := hsame
  obtain ⟨hminted, hplace⟩ := h.minted_of_active hentry hactive
  obtain ⟨hstripped, hstrippedSource⟩ := h.stripped grant hminted
  refine h.approve ⟨grant, hminted, rfl, fun registration context hcovers => ?_, hlasts⟩
  obtain ⟨hfor, hfrom, hreach⟩ := hcovers
  dsimp only at hfor hfrom hreach
  refine ⟨by rw [hfor, ← hcapability, hstripped], by rw [hfrom, ← hsource, hstrippedSource], ?_⟩
  unfold wideEnough at hwide
  unfold reaches
  simp only [Bool.or_eq_true, Bool.and_eq_true, decide_eq_true_eq] at hwide ⊢
  by_cases hproject : grant.scope = .project
  · exact .inl hproject
  · have htrace := hplace.resolve_left hproject
    obtain hasked | ⟨hcontext, hasked⟩ := hreach
    · simp [hasked, hproject] at hwide
    · refine .inr ⟨htrace.trans hcontext, ?_⟩
      obtain hasked | ⟨hasked, hitem⟩ := hasked
      · left
        cases hscopeOf : grant.scope <;> simp_all
      · cases hscopeOf : grant.scope with
        | project => exact absurd hscopeOf hproject
        | trace => exact .inl rfl
        | node => exact .inr ⟨rfl, hwork.trans hitem⟩

/-- A new grant answers its call. -/
theorem fresh (h : project.Sound calendar) {call : GrantCall} {grant : CapabilityGrant}
    {scope : GrantScope} (hscope : GrantScope.parse call.scope = .ok scope)
    (hzoned : Zoned calendar call.expiresAt) (hid : grant.grantId ≠ "")
    (hnew : grant.grantId ∉ project.minted.map (·.grantId)) (hactive : grant.status = .active)
    (hexpires : grant.expiresAt = call.expiresAt)
    (hgrant : grant.capability = Text.strip call.capability ∧
      grant.sourceName = Text.strip call.sourceName ∧ grant.traceId = traceId ∧
      grant.scope = scope ∧ grant.workItemId = call.workItemId) :
    Sound calendar ((project.mint traceId grant).approve traceId call grant) := by
  obtain ⟨hcapability, hsource, htrace, -⟩ := id hgrant
  have hserves := fun registration context =>
    serves_iff hscope hgrant registration context grant.grantId
  have hlapsed (now : Int) : lapsed calendar now grant.reread.expiresAt =
      lapsed calendar now call.expiresAt := hexpires ▸ lapsed_filter grant.expiresAt
  have hmem {minted : CapabilityGrant} (h : minted ∈ (project.mint traceId grant).minted) :
      minted ∈ project.minted ∨ minted = grant.reread :=
    (List.mem_append.mp h).imp id List.mem_singleton.mp
  have hself : grant.reread ∈ (project.mint traceId grant).minted :=
    List.mem_append_right _ (List.mem_singleton_self _)
  have hshared : (project.mint traceId grant).shared =
      if grant.scope = .project then withGrant grant project.shared else project.shared := by
    dsimp only [mint, Project.write]
    split <;> rfl
  have htraces (other : String) : (project.mint traceId grant).ofTrace other =
      if other = traceId ∧ grant.scope ≠ .project then withGrant grant (project.ofTrace traceId)
      else project.ofTrace other := by
    change (project.write traceId _).ofTrace other = _
    rw [get_write]
    by_cases hother : other = traceId
    · subst hother
      by_cases hproject : grant.scope = .project <;> simp [hproject, Project.ledger]
    · simp [hother]
  refine ⟨⟨?_, fun minted h' => ?_, fun minted h' => ?_⟩, ?_, fun other => ?_, fun minted h' => ?_,
    fun minted h' hid' hlapsed' => ?_, fun other entry hentry hentryActive => ?_,
    fun minted h' => ?_, fun approval h' => ?_, fun minted h' => ?_, fun id h' => ?_⟩
  · change ((project.minted ++ [grant.reread]).map (·.grantId)).Nodup
    rw [List.map_append, List.map_singleton, List.nodup_append_comm, List.singleton_append,
      List.nodup_cons]
    exact ⟨hnew, h.ids.nodup⟩
  · obtain hold | rfl := hmem h'
    · exact h.ids.active minted hold
    · exact hactive
  · obtain hold | rfl := hmem h'
    · exact h.ids.named minted hold
    · exact hid
  · change Holding (project.minted ++ [grant.reread]) InProject (project.mint traceId grant).shared
    rw [hshared]
    split
    · rename_i hproject
      exact h.shared.withGrant hproject hnew
    · exact h.shared.grow _
  · change Holding (project.minted ++ [grant.reread]) (InTrace other)
      ((project.mint traceId grant).ofTrace other)
    rw [htraces]
    split
    · rename_i hother
      obtain ⟨rfl, hscopeNe⟩ := hother
      exact (h.traces other).withGrant ⟨hscopeNe, htrace⟩ hnew
    · exact (h.traces other).grow _
  · obtain hold | rfl := hmem h'
    · exact h.zoned minted hold
    · exact zoned_filter (hexpires ▸ hzoned)
  · change minted ∈ (project.mint traceId grant).home minted
    unfold home
    rw [hshared, htraces]
    obtain hold | rfl := hmem h'
    · have hhome := h.kept minted hold hid' hlapsed'
      have hmintedActive := h.ids.active minted hold
      unfold home at hhome
      split
      · rename_i hproject
        rw [if_pos hproject] at hhome
        split
        · exact mem_withGrant hhome hmintedActive
        · exact hhome
      · rename_i hproject
        rw [if_neg hproject] at hhome
        split
        · rename_i hother
          exact mem_withGrant (hother.1 ▸ hhome) hmintedActive
        · exact hhome
    · have hscopeSame : grant.reread.scope = grant.scope := rfl
      have htraceSame : grant.reread.traceId = traceId := htrace
      rw [hscopeSame, htraceSame]
      by_cases hproject : grant.scope = .project
      · simp only [hproject, if_true]
        exact reread_mem_withGrant _
      · simp only [hproject, if_false, ne_eq, not_false_eq_true, and_true, if_true]
        exact reread_mem_withGrant _
  · have hold : entry ∈ project.shared ++ project.ofTrace other ∨
        entry ∈ project.shared ++ project.ofTrace traceId ∨ entry = grant.reread := by
      obtain hentry | hentry := List.mem_append.mp hentry
      · change entry ∈ (project.mint traceId grant).shared at hentry
        rw [hshared] at hentry
        split at hentry
        · obtain hold | hnew := of_mem_withGrant hentry
          · exact .inl (List.mem_append_left _ hold)
          · exact .inr (.inr hnew)
        · exact .inl (List.mem_append_left _ hentry)
      · change entry ∈ (project.mint traceId grant).ofTrace other at hentry
        rw [htraces] at hentry
        split at hentry
        · obtain hold | hnew := of_mem_withGrant hentry
          · exact .inr (.inl (List.mem_append_right _ hold))
          · exact .inr (.inr hnew)
        · exact .inl (List.mem_append_right _ hentry)
    obtain hold | hold | rfl := hold
    · exact h.live other entry hold hentryActive
    · exact h.live traceId entry hold hentryActive
    · exact fun hrevoked => hnew (h.known _ hrevoked)
  · obtain hold | rfl := hmem h'
    · obtain ⟨approval, happroval, hrest⟩ := h.origin minted hold
      exact ⟨approval, List.mem_append_left _ happroval, hrest⟩
    · exact ⟨⟨traceId, call, grant.grantId⟩, List.mem_append_right _ (List.mem_singleton_self _),
        rfl, fun registration context => (hserves registration context).mp, hlapsed⟩
  · obtain hold | hnew := List.mem_append.mp h'
    · obtain ⟨minted, hminted, hanswers⟩ := h.served approval hold
      exact ⟨minted, List.mem_append_left _ hminted, hanswers⟩
    · obtain rfl := List.mem_singleton.mp hnew
      exact ⟨grant.reread, hself, rfl, fun registration context => (hserves registration context).mpr,
        fun later hlasts => (hlapsed later).trans hlasts⟩
  · obtain hold | rfl := hmem h'
    · exact h.stripped minted hold
    · exact ⟨by rw [reread, hcapability]; exact Text.stripBy_stripBy _ _,
        by rw [reread, hsource]; exact Text.stripBy_stripBy _ _⟩
  · obtain ⟨minted, hminted, hid'⟩ := List.mem_map.mp (h.known id h')
    exact List.mem_map.mpr ⟨minted, List.mem_append_left _ hminted, hid'⟩

/-- A safe event keeps the ledger sound. -/
theorem apply {event : GrantEvent} (h : project.Sound calendar)
    (hpermitted : project.Permitted event) (hsafe : project.Safe calendar event) :
    Sound calendar (project.apply calendar event) := by
  cases event with
  | tick duration =>
    refine ⟨h.ids, h.shared, h.traces, h.zoned, fun grant hgrant hid hlapsed => ?_, h.live,
      h.origin, h.served, h.stripped, h.known⟩
    have hnow : project.now ≤ project.now + duration := by omega
    exact h.kept grant hgrant hid (lapsed_mono hnow hlapsed)
  | list traceId includeInactive =>
    simp only [Project.apply]
    split
    · rename_i hlist
      exact h.listed hlist
    · exact h
  | revoke traceId grantId =>
    simp only [Project.apply]
    split
    · rename_i hrevoke
      exact h.revoke hrevoke
    · exact h
  | grant traceId call =>
    simp only [Project.apply]
    split
    · rename_i grant hgrant
      obtain ⟨scope, -, hgranted⟩ := (h.ledger traceId).grant_ok h.zoned hgrant
      obtain ⟨existing, heq, hmatching⟩ | ⟨_, heq, -⟩ := hgranted
      · cases heq
        obtain ⟨hwide, hlasts⟩ := hsafe.2 grant hmatching
        exact h.existing hmatching hwide hlasts
      · cases heq
    · rename_i grant hgrant
      obtain ⟨scope, hscope, hgranted⟩ := (h.ledger traceId).grant_ok h.zoned hgrant
      obtain ⟨_, heq, -⟩ | ⟨_, heq, hid, hactive, hexpires, hfields⟩ := hgranted
      · cases heq
      · cases heq
        refine h.fresh hscope hsafe.1 ?_ (hid ▸ hpermitted) hactive hexpires hfields
        rw [hid]
        simp
    · exact h

theorem reached (h : Reached calendar (Safe calendar) project) : project.Sound calendar := by
  induction h with
  | empty now => exact .empty now
  | step _ hpermitted hsafe ih => exact ih.apply hpermitted hsafe

end Sound

/-- The grants of a project mean what was approved as long as every expiry has its zone and
no call asks for more than the active grant that it is answered with. -/
theorem grants_mean {calendar : Calendar} {project : Project}
    (h : Reached calendar (Safe calendar) project) : project.Meaning calendar :=
  (Sound.reached h).meaning

/-- New Year 2030, with its zone and without. -/
def newYear : Calendar := fun text =>
  if text = "2030-01-01T00:00:00+00:00" then some (.aware 1893456000)
  else if text = "2030-01-01T00:00:00" then some .naive
  else none

/-- An approval of the search source for one work item. -/
def searchCall (scope hex : String) (expiresAt : Option String) : GrantCall where
  capability := "web_search"
  sourceName := "search"
  workItemId := some "api"
  scope := scope
  expiresAt := expiresAt
  hex := hex
  approvedAt := "2024-01-01T00:00:00+00:00"

def searchTool : ToolRegistration := ⟨"web_search", "search", .onDemand⟩

def apiContext : ExecutionContext := ⟨"tr-1", "api", by decide⟩

def webContext : ExecutionContext := ⟨"tr-1", "web", by decide⟩

def zonedCall : GrantCall := searchCall "node" "1" (some "2030-01-01T00:00:00+00:00")

def zonedProject : Project := ({} : Project).apply newYear (.grant "tr-1" zonedCall)

theorem zonedProject_means : zonedProject.Meaning newYear ∧
    (zonedProject.visible newYear searchTool apiContext).toOption = some true := by
  have hreached : Reached newYear (Safe newYear) zonedProject := by
    refine .step (.empty 0) nofun ⟨?_, nofun⟩
    intro text htext _ stamp hstamp
    cases htext
    exact ⟨1893456000, by simpa [newYear] using hstamp.symm⟩
  exact ⟨grants_mean hreached, by decide +kernel⟩

/-- Approved for one work item, then for the whole trace. -/
def widenedProject : Project :=
  (({} : Project).apply newYear (.grant "tr-1" (searchCall "node" "1" none))).apply newYear
    (.grant "tr-1" (searchCall "trace" "2" none))

/-- Approved until a time without zone. -/
def naiveProject : Project :=
  ({} : Project).apply newYear (.grant "tr-1" (searchCall "trace" "1" (some "2030-01-01T00:00:00")))

/-- The wider approval has no effect, and the time without zone makes every listing raise. -/
theorem grants_do_not_mean :
    (Reached newYear (fun _ _ => True) widenedProject ∧ ¬ widenedProject.Meaning newYear) ∧
      Reached newYear (fun _ _ => True) naiveProject ∧ ¬ naiveProject.Meaning newYear := by
  refine ⟨⟨?_, fun hmeaning => ?_⟩, ?_, fun hmeaning => ?_⟩
  · refine .step (.step (.empty 0) nofun trivial) ?_ trivial
    change "grant-" ++ "2" ∉ _
    decide +kernel
  · obtain ⟨answer, hvisible, hiff⟩ := hmeaning.2 searchTool webContext rfl
    have hhidden : (widenedProject.visible newYear searchTool webContext).toOption = some false := by
      decide +kernel
    rw [hvisible] at hhidden
    cases hhidden
    have happroved : ⟨"tr-1", searchCall "trace" "2" none, "grant-1"⟩ ∈ widenedProject.approvals := by
      decide +kernel
    have hrevoked : widenedProject.revoked = [] := by decide +kernel
    exact Bool.false_ne_true (hiff.mpr ⟨_, happroved, by simp [hrevoked], rfl, by decide +kernel,
      by decide +kernel, .inr ⟨rfl, .inl rfl⟩⟩)
  · exact .step (.empty 0) nofun trivial
  · have hlist := hmeaning.1 "tr-1" false
    revert hlist
    decide +kernel

end Project

end ProjectOS.ToolManager
