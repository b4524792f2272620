import ProjectOS.Runtime.PortLifecycle

/-! The processes of a host that share a registry of port leases, through any calls,
deaths and passage of time. -/
namespace ProjectOS.Runtime
open Base PortLifecycleManager

structure Process where
  pid : Nat
  alive : Bool := true
  manager : PortLifecycleManager
  allocator : PortAllocator

/-- What is known of a lease from the calls that returned it. -/
structure Issued where
  owner : Nat
  ports : List Nat
  expiresAt : Nat

/-- The processes of a host and their shared registry, with the leases issued so far:
those a release took from the registry, those their holder called `release` on, and
those a reclaiming call dropped. -/
structure Host where
  now : Nat := 0
  processes : Dict Nat Process := ∅
  registry : Registry := ∅
  issued : Dict String Issued := ∅
  released : List String := []
  givenUp : List String := []
  reclaimed : List String := []

inductive Call where
  | acquire (ownerId : String) (count : Int) (free : Nat → Bool) (hex : String)
  | renew (leaseId : String)
  | release (leaseId : String)
  | activeLeases
  | reclaim

/-- A call comes with what the host says of the pids at that moment. -/
inductive Event where
  | start (process : Nat) (program : Process)
  | die (process : Nat)
  | tick (duration : Nat)
  | call (process : Nat) (alive : Nat → Bool) (call : Call)

namespace Host

def live (host : Host) (process : Nat) : Bool := (host.processes.get? process).any (·.alive)

/-- The leases that a reclaiming call drops now. -/
def overdue (host : Host) (alive : Nat → Bool) : List String :=
  host.registry.keys.filter (· ∉ (reclaimState alive host.now host.registry).keys)

def reclaiming (host : Host) (alive : Nat → Bool) : Host :=
  { host with
    registry := reclaimState alive host.now host.registry
    reclaimed := host.reclaimed ++ host.overdue alive }

def issue (host : Host) (process : Nat) (program : Process) (lease : PortLease) : Host :=
  { host with
    processes := host.processes.set process program
    registry := host.registry.set lease.leaseId lease
    issued := host.issued.set lease.leaseId ⟨process, lease.ports, lease.expiresAt⟩ }

def extend (host : Host) (leaseId : String) (lease : PortLease) : Host :=
  { host with
    registry := host.registry.set leaseId lease
    issued := match host.issued.get? leaseId with
      | some issued => host.issued.set leaseId { issued with expiresAt := lease.expiresAt }
      | none => host.issued }

def releasing (host : Host) (process : Nat) (program : Process) (leaseId : String) : Host :=
  let (_, allocator, registry) := release leaseId program.allocator host.registry
  { host with
    processes := host.processes.set process { program with allocator := allocator }
    registry := registry
    released := if leaseId ∈ host.registry.keys then leaseId :: host.released else host.released
    givenUp := if (host.issued.get? leaseId).any (·.owner = process) then leaseId :: host.givenUp
      else host.givenUp }

/-- A call of a process. One that raises leaves the registry as it was. -/
def runCall (host : Host) (process : Nat) (program : Process) (alive : Nat → Bool) : Call → Host
  | .acquire ownerId count free hex =>
      match program.manager.acquire alive host.now program.pid hex ownerId count free
          program.allocator host.registry with
      | .ok (lease, allocator, _) =>
          (host.reclaiming alive).issue process { program with allocator := allocator } lease
      | .error _ => host
  | .renew leaseId =>
      match program.manager.renew alive host.now leaseId host.registry with
      | .ok (lease, _) => (host.reclaiming alive).extend leaseId lease
      | .error _ => host
  | .release leaseId => host.releasing process program leaseId
  | .activeLeases => host.reclaiming alive
  | .reclaim => host.reclaiming alive

def apply (host : Host) : Event → Host
  | .start process program => { host with processes := host.processes.set process program }
  | .die process =>
      match host.processes.get? process with
      | some program =>
          { host with processes := host.processes.set process { program with alive := false } }
      | none => host
  | .tick duration => { host with now := host.now + duration }
  | .call process alive call =>
      match host.processes.get? process with
      | some program => host.runCall process program alive call
      | none => host

/-- The host finds the pid of every live process. -/
def Sees (host : Host) (alive : Nat → Bool) : Prop :=
  ∀ other program, host.processes.get? other = some program → program.alive = true →
    alive program.pid = true

/-- A process starts under a name of its own with nothing reserved; live processes call,
and the host finds every live process; a lease id is new. -/
def Permitted (host : Host) : Event → Prop
  | .start process program => process ∉ host.processes.keys ∧ 0 < program.pid ∧
      program.allocator.reserved = ∅
  | .die _ => True
  | .tick _ => True
  | .call process alive call => host.live process = true ∧ host.Sees alive ∧
      ∀ ownerId count free hex, call = .acquire ownerId count free hex →
        "lease-" ++ hex ∉ host.issued.keys

/-- The hosts reached by events of a kind, from the empty registry. -/
inductive Reached (allowed : Host → Event → Prop) : Host → Prop where
  | empty : Reached allowed {}
  | step {host : Host} {event : Event} (previous : Reached allowed host)
      (permitted : host.Permitted event) (kind : allowed host event) :
      Reached allowed (host.apply event)

theorem Reached.mono {allowed allowed' : Host → Event → Prop} {host : Host}
    (h : Reached allowed host) (hkind : ∀ host event, allowed host event → allowed' host event) :
    Reached allowed' host := by
  induction h with
  | empty => exact .empty
  | step _ hpermitted hallowed ih => exact .step ih hpermitted (hkind _ _ hallowed)

/-- The lease is not released, unexpired and its holder lives. -/
def Current (host : Host) (leaseId : String) (issued : Issued) : Prop :=
  host.issued.get? leaseId = some issued ∧ leaseId ∉ host.released ∧ host.now < issued.expiresAt ∧
    host.live issued.owner = true

/-- The ports of two current leases are disjoint. -/
def Exclusive (host : Host) : Prop :=
  ∀ id id' issued issued', host.Current id issued → host.Current id' issued' → id ≠ id' →
    ∀ port ∈ issued.ports, port ∉ issued'.ports

/-- The registry holds issued leases with disjoint ports. -/
structure Sound (host : Host) : Prop where
  pids : ∀ process program, host.processes.get? process = some program → 0 < program.pid
  recorded : ∀ id lease, host.registry.get? id = some lease → ∃ issued program,
    host.issued.get? id = some issued ∧ issued.ports = lease.ports ∧
      issued.expiresAt = lease.expiresAt ∧ host.processes.get? issued.owner = some program ∧
      program.pid = lease.pid
  disjoint : ∀ id id' lease lease', host.registry.get? id = some lease →
    host.registry.get? id' = some lease' → id ≠ id' → ∀ port ∈ lease.ports, port ∉ lease'.ports
  kept : ∀ id issued, host.issued.get? id = some issued → id ∈ host.registry.keys ∨
    id ∈ host.released ∨ issued.expiresAt ≤ host.now ∨ host.live issued.owner = false
  known : ∀ id ∈ host.givenUp ++ host.reclaimed, id ∈ host.issued.keys
  gone : ∀ id ∈ host.givenUp ++ host.reclaimed, id ∉ host.registry.keys
  owners : ∀ id issued, host.issued.get? id = some issued → ∃ program,
    host.processes.get? issued.owner = some program ∧
      ∀ port ∈ issued.ports, port ∈ program.allocator.portRange

namespace Sound

variable {host : Host} {process : Nat} {program program' : Process} {alive : Nat → Bool}
  {leaseId : String} {lease raw : PortLease}

theorem empty : Sound {} := by
  constructor <;> simp

/-- Current leases are in the registry, whose leases are disjoint. -/
theorem exclusive (h : host.Sound) : host.Exclusive := by
  have hmem {id : String} {issued : Issued} (hcurrent : host.Current id issued) :
      ∃ lease, host.registry.get? id = some lease ∧ issued.ports = lease.ports := by
    obtain ⟨hissued, hreleased, hexpires, hlive⟩ := hcurrent
    obtain hkeys | hother | hover | hdead := h.kept id issued hissued
    · obtain ⟨lease, hlease⟩ := Dict.mem_keys_iff.mp hkeys
      obtain ⟨issued', program, hissued', hports, -⟩ := h.recorded id lease hlease
      rw [hissued, Option.some.injEq] at hissued'
      exact ⟨lease, hlease, hissued' ▸ hports⟩
    · exact absurd hother hreleased
    · omega
    · rw [hdead] at hlive
      cases hlive
  intro id id' issued issued' hcurrent hcurrent' hne
  obtain ⟨lease, hlease, hports⟩ := hmem hcurrent
  obtain ⟨lease', hlease', hports'⟩ := hmem hcurrent'
  rw [hports, hports']
  exact h.disjoint id id' lease lease' hlease hlease' hne

/-- A process may change what it has reserved, or die. -/
theorem reprogram (h : host.Sound) (hprogram : host.processes.get? process = some program)
    (hpid : program'.pid = program.pid) (halive : program'.alive = true → program.alive = true)
    (hrange : program'.allocator.portRange = program.allocator.portRange) :
    Sound { host with processes := host.processes.set process program' } := by
  have hget (other : Nat) : (host.processes.set process program').get? other =
      if other = process then some program' else host.processes.get? other := Dict.get?_set ..
  have hsame {owner : Nat} {old : Process} (hold : host.processes.get? owner = some old) :
      ∃ new, (host.processes.set process program').get? owner = some new ∧ new.pid = old.pid ∧
        new.allocator.portRange = old.allocator.portRange ∧
          (new.alive = true → old.alive = true) := by
    rw [hget]
    by_cases howner : owner = process
    · subst howner
      rw [hprogram, Option.some.injEq] at hold
      subst hold
      exact ⟨program', if_pos rfl, hpid, hrange, halive⟩
    · exact ⟨old, by rw [if_neg howner, hold], rfl, rfl, id⟩
  refine ⟨fun other program₂ hother => ?_, fun id lease hlease => ?_, h.disjoint,
    fun id issued hissued => ?_, h.known, h.gone, fun id issued hissued => ?_⟩
  · rw [hget] at hother
    split at hother
    · cases hother
      rw [hpid]
      exact h.pids process program hprogram
    · exact h.pids other program₂ hother
  · obtain ⟨issued, old, hissued, hports, hexpires, hold, holdPid⟩ := h.recorded id lease hlease
    obtain ⟨new, hnew, hnewPid, -⟩ := hsame hold
    exact ⟨issued, new, hissued, hports, hexpires, hnew, hnewPid.trans holdPid⟩
  · obtain hkeys | hother | hover | hdead := h.kept id issued hissued
    · exact .inl hkeys
    · exact .inr (.inl hother)
    · exact .inr (.inr (.inl hover))
    · refine .inr (.inr (.inr ?_))
      obtain ⟨old, hold, -⟩ := h.owners id issued hissued
      obtain ⟨new, hnew, -, -, hnewAlive⟩ := hsame hold
      rw [live, hold] at hdead
      rw [live, hnew]
      cases hlive : new.alive with
      | false => exact hlive
      | true => simp [hnewAlive hlive] at hdead
  · obtain ⟨old, hold, hports⟩ := h.owners id issued hissued
    obtain ⟨new, hnew, -, hnewRange, -⟩ := hsame hold
    exact ⟨new, hnew, fun port hport => hnewRange ▸ hports port hport⟩

theorem start (h : host.Sound) (hfresh : process ∉ host.processes.keys) (hpid : 0 < program.pid) :
    Sound { host with processes := host.processes.set process program } := by
  have hget (other : Nat) : (host.processes.set process program).get? other =
      if other = process then some program else host.processes.get? other := Dict.get?_set ..
  have hsame {owner : Nat} {old : Process} (hold : host.processes.get? owner = some old) :
      (host.processes.set process program).get? owner = some old := by
    rw [hget, if_neg, hold]
    rintro rfl
    exact hfresh (Dict.mem_keys_iff.mpr ⟨old, hold⟩)
  refine ⟨fun other program₂ hother => ?_, fun id lease hlease => ?_, h.disjoint,
    fun id issued hissued => ?_, h.known, h.gone, fun id issued hissued => ?_⟩
  · rw [hget] at hother
    split at hother
    · cases hother
      exact hpid
    · exact h.pids other program₂ hother
  · obtain ⟨issued, old, hissued, hports, hexpires, hold, holdPid⟩ := h.recorded id lease hlease
    exact ⟨issued, old, hissued, hports, hexpires, hsame hold, holdPid⟩
  · obtain ⟨old, hold, -⟩ := h.owners id issued hissued
    have hlive : Host.live { host with processes := host.processes.set process program }
        issued.owner = host.live issued.owner := by rw [live, live, hsame hold, hold]
    rw [hlive]
    exact h.kept id issued hissued
  · obtain ⟨old, hold, hports⟩ := h.owners id issued hissued
    exact ⟨old, hsame hold, hports⟩

theorem tick (h : host.Sound) (duration : Nat) :
    Sound { host with now := host.now + duration } := by
  refine ⟨h.pids, h.recorded, h.disjoint, fun id issued hissued => ?_, h.known, h.gone, h.owners⟩
  obtain hkeys | hother | hover | hdead := h.kept id issued hissued
  · exact .inl hkeys
  · exact .inr (.inl hother)
  · exact .inr (.inr (.inl (Nat.le_add_right_of_le hover)))
  · exact .inr (.inr (.inr hdead))

theorem reclaiming (h : host.Sound) (hsees : host.Sees alive) : (host.reclaiming alive).Sound := by
  have hsub {id : String} {lease : PortLease}
      (hlease : (host.reclaiming alive).registry.get? id = some lease) :
      host.registry.get? id = some lease := (get?_reclaimState.mp hlease).1
  refine ⟨h.pids, fun id lease hlease => h.recorded id lease (hsub hlease),
    fun id id' lease lease' hlease hlease' =>
      h.disjoint id id' lease lease' (hsub hlease) (hsub hlease'),
    fun id issued hissued => ?_, fun id hid => ?_, fun id hid hkeys => ?_, h.owners⟩
  · obtain hkeys | hother | hover | hdead := h.kept id issued hissued
    · by_cases hnew : id ∈ (host.reclaiming alive).registry.keys
      · exact .inl hnew
      · -- a dropped lease is expired or its holder is dead
        obtain ⟨lease, hlease⟩ := Dict.mem_keys_iff.mp hkeys
        obtain ⟨issued', program, hissued', -, hexpires, hprogram, hpid⟩ := h.recorded id lease hlease
        obtain rfl : issued = issued' := Option.some.inj (hissued.symm.trans hissued')
        right
        right
        by_cases hover : issued.expiresAt ≤ host.now
        · exact .inl hover
        · refine .inr ?_
          change host.live issued.owner = false
          rw [live, hprogram]
          cases halive : program.alive with
          | false => exact halive
          | true =>
            have hseen := hsees _ program hprogram halive
            have hpos := h.pids _ program hprogram
            rw [hpid] at hseen hpos
            exact absurd (Dict.mem_keys_iff.mpr
              ⟨lease, get?_reclaimState.mpr ⟨hlease, by omega, hpos, hseen⟩⟩) hnew
    · exact .inr (.inl hother)
    · exact .inr (.inr (.inl hover))
    · exact .inr (.inr (.inr hdead))
  · obtain hold | hnew := List.mem_append.mp hid
    · exact h.known id (List.mem_append_left _ hold)
    · obtain hold | hdropped := List.mem_append.mp hnew
      · exact h.known id (List.mem_append_right _ hold)
      · obtain ⟨lease, hlease⟩ := Dict.mem_keys_iff.mp (List.mem_of_mem_filter hdropped)
        obtain ⟨issued, program, hissued, -⟩ := h.recorded id lease hlease
        exact Dict.mem_keys_iff.mpr ⟨issued, hissued⟩
  · obtain ⟨lease, hlease⟩ := Dict.mem_keys_iff.mp hkeys
    have hbefore := Dict.mem_keys_iff.mpr ⟨lease, hsub hlease⟩
    obtain hold | hnew := List.mem_append.mp hid
    · exact h.gone id (List.mem_append_left _ hold) hbefore
    · obtain hold | hdropped := List.mem_append.mp hnew
      · exact h.gone id (List.mem_append_right _ hold) hbefore
      · have hout := (List.mem_filter.mp hdropped).2
        rw [decide_eq_true_eq] at hout
        exact hout hkeys

/-- A new lease holds ports that no lease of the registry holds. -/
theorem issue (h : host.Sound) (hprogram : host.processes.get? process = some program)
    (hpid : program'.pid = program.pid) (halive : program'.alive = program.alive)
    (hrange : program'.allocator.portRange = program.allocator.portRange)
    (hfresh : lease.leaseId ∉ host.issued.keys) (hlease : lease.pid = program.pid)
    (hports : ∀ port ∈ lease.ports, port ∈ program.allocator.portRange ∧
      port ∉ held host.registry) : (host.issue process program' lease).Sound := by
  have hbase := h.reprogram hprogram hpid (by rw [halive]; exact id) hrange
  have hprocess : (host.processes.set process program').get? process = some program' := by
    rw [Dict.get?_set, if_pos rfl]
  have hunknown {id : String} (hid : id ∈ host.issued.keys) : id ≠ lease.leaseId := by
    rintro rfl
    exact hfresh hid
  have hregistry {id : String} {other : PortLease} (hother : host.registry.get? id = some other) :
      id ≠ lease.leaseId := by
    obtain ⟨issued, -, hissued, -⟩ := h.recorded id other hother
    exact hunknown (Dict.mem_keys_iff.mpr ⟨issued, hissued⟩)
  have hclear {id : String} {other : PortLease} (hother : host.registry.get? id = some other) :
      ∀ port ∈ lease.ports, port ∉ other.ports := fun port hport hmem =>
    (hports port hport).2 (mem_held.mpr ⟨id, other, hother, hmem⟩)
  refine ⟨hbase.pids, fun id other hother => ?_, fun id id' first second hfirst hsecond hne => ?_,
    fun id issued hissued => ?_, fun id hid => ?_, fun id hid hkeys => ?_, fun id issued hissued => ?_⟩
  · simp only [Host.issue, Dict.get?_set] at hother ⊢
    split at hother
    · rename_i hid
      cases hother
      rw [if_pos hid]
      exact ⟨_, program', rfl, rfl, rfl, by rw [if_pos rfl], hpid.trans hlease.symm⟩
    · rename_i hid
      obtain ⟨issued, old, hissued, hrest⟩ := hbase.recorded id other hother
      simp only [Dict.get?_set] at hrest
      exact ⟨issued, old, by rw [if_neg hid]; exact hissued, hrest⟩
  · simp only [Host.issue, Dict.get?_set] at hfirst hsecond
    split at hfirst <;> split at hsecond
    · rename_i hid hid'
      exact absurd (hid.trans hid'.symm) hne
    · cases hfirst
      exact hclear hsecond
    · cases hsecond
      exact fun port hport hmem => hclear hfirst port hmem hport
    · exact h.disjoint id id' first second hfirst hsecond hne
  · simp only [Host.issue, Dict.get?_set] at hissued ⊢
    rw [Dict.mem_keys_set]
    split at hissued
    · rename_i hid
      exact .inl (.inl hid)
    · obtain hkeys | hrest := hbase.kept id issued hissued
      · exact .inl (.inr hkeys)
      · exact .inr hrest
  · exact Dict.mem_keys_set.mpr (.inr (h.known id hid))
  · obtain hnew | hold := Dict.mem_keys_set.mp hkeys
    · exact hunknown (h.known id hid) hnew
    · exact h.gone id hid hold
  · simp only [Host.issue, Dict.get?_set] at hissued
    split at hissued
    · cases hissued
      exact ⟨program', hprocess, fun port hport => hrange ▸ (hports port hport).1⟩
    · exact hbase.owners id issued hissued

theorem extend (h : host.Sound) (hraw : host.registry.get? leaseId = some raw)
    (hports : lease.ports = raw.ports) (hpid : lease.pid = raw.pid) :
    (host.extend leaseId lease).Sound := by
  obtain ⟨issued, program, hissued, hissuedPorts, -, hprogram, hprogramPid⟩ :=
    h.recorded leaseId raw hraw
  have hissuedNow (id : String) : (host.extend leaseId lease).issued.get? id =
      if id = leaseId then some { issued with expiresAt := lease.expiresAt }
      else host.issued.get? id := by
    rw [Host.extend, hissued]
    exact Dict.get?_set ..
  have hregistryNow (id : String) : (host.extend leaseId lease).registry.get? id =
      if id = leaseId then some lease else host.registry.get? id := Dict.get?_set ..
  have hkeysNow {id : String} : id ∈ (host.extend leaseId lease).registry.keys ↔
      id ∈ host.registry.keys := by
    rw [Host.extend, Dict.mem_keys_set]
    constructor
    · rintro (rfl | hold)
      · exact Dict.mem_keys_iff.mpr ⟨raw, hraw⟩
      · exact hold
    · exact .inr
  have hshape {id : String} {other : PortLease}
      (hother : (host.extend leaseId lease).registry.get? id = some other) :
      ∃ old, host.registry.get? id = some old ∧ other.ports = old.ports := by
    rw [hregistryNow] at hother
    split at hother
    · rename_i hid
      cases hother
      exact ⟨raw, hid ▸ hraw, hports⟩
    · exact ⟨other, hother, rfl⟩
  refine ⟨h.pids, fun id other hother => ?_, fun id id' first second hfirst hsecond hne => ?_,
    fun id other hother => ?_, fun id hid => ?_, fun id hid hkeys => ?_, fun id other hother => ?_⟩
  · rw [hregistryNow] at hother
    rw [hissuedNow]
    split at hother
    · rename_i hid
      cases hother
      rw [if_pos hid]
      exact ⟨_, program, rfl, hissuedPorts.trans hports.symm, rfl, hprogram,
        hprogramPid.trans hpid.symm⟩
    · rename_i hid
      rw [if_neg hid]
      exact h.recorded id other hother
  · obtain ⟨old, hold, hfirst⟩ := hshape hfirst
    obtain ⟨old', hold', hsecond⟩ := hshape hsecond
    rw [hfirst, hsecond]
    exact h.disjoint id id' old old' hold hold' hne
  · rw [hissuedNow] at hother
    rw [hkeysNow]
    split at hother
    · rename_i hid
      exact .inl (hid ▸ Dict.mem_keys_iff.mpr ⟨raw, hraw⟩)
    · exact h.kept id other hother
  · obtain ⟨other, hother⟩ := Dict.mem_keys_iff.mp (h.known id hid)
    rw [Dict.mem_keys_iff, hissuedNow]
    split
    · exact ⟨_, rfl⟩
    · exact ⟨other, hother⟩
  · exact h.gone id hid (hkeysNow.mp hkeys)
  · rw [hissuedNow] at hother
    split at hother
    · cases hother
      exact h.owners leaseId issued hissued
    · exact h.owners id other hother

theorem mem_givenUp {id : String}
    (hid : id ∈ (host.releasing process program leaseId).givenUp) :
    id ∈ host.givenUp ∨ id = leaseId ∧ ∃ issued, host.issued.get? leaseId = some issued ∧
      issued.owner = process := by
  simp only [Host.releasing] at hid
  split at hid
  · rename_i howner
    obtain rfl | hid := List.mem_cons.mp hid
    · obtain ⟨issued, hissued, howner⟩ := (Option.any_eq_true ..).mp howner
      exact .inr ⟨rfl, issued, hissued, by simpa using howner⟩
    · exact .inl hid
  · exact .inl hid

theorem registry_releasing {id : String} {other : PortLease} :
    (host.releasing process program leaseId).registry.get? id = some other ↔
      host.registry.get? id = some other ∧ id ≠ leaseId := by
  unfold Host.releasing PortLifecycleManager.release
  cases hlease : host.registry.get? leaseId with
  | none =>
    dsimp only
    constructor
    · intro hother
      refine ⟨hother, ?_⟩
      rintro rfl
      rw [hlease] at hother
      cases hother
    · exact And.left
  | some raw =>
    dsimp only
    rw [Dict.get?_erase]
    split <;> simp [*]

theorem releasing (h : host.Sound) (hprogram : host.processes.get? process = some program) :
    (host.releasing process program leaseId).Sound := by
  have hbase : Sound { host with processes := (host.releasing process program leaseId).processes } := by
    refine h.reprogram hprogram rfl id ?_
    dsimp only [PortLifecycleManager.release]
    split <;> rfl
  have hkeys {id : String} (hid : id ∈ (host.releasing process program leaseId).registry.keys) :
      id ∈ host.registry.keys ∧ id ≠ leaseId := by
    obtain ⟨other, hother⟩ := Dict.mem_keys_iff.mp hid
    obtain ⟨hother, hne⟩ := registry_releasing.mp hother
    exact ⟨Dict.mem_keys_iff.mpr ⟨other, hother⟩, hne⟩
  refine ⟨hbase.pids, fun id other hother => hbase.recorded id other (registry_releasing.mp hother).1,
    fun id id' first second hfirst hsecond =>
      h.disjoint id id' first second (registry_releasing.mp hfirst).1 (registry_releasing.mp hsecond).1,
    fun id issued hissued => ?_, fun id hid => ?_, fun id hid hmem => ?_, hbase.owners⟩
  · obtain hmem | hreleased | hrest := hbase.kept id issued hissued
    · by_cases hid : id = leaseId
      · subst hid
        refine .inr (.inl ?_)
        simp only [Host.releasing, if_pos hmem, List.mem_cons_self]
      · obtain ⟨other, hother⟩ := Dict.mem_keys_iff.mp hmem
        exact .inl (Dict.mem_keys_iff.mpr ⟨other, registry_releasing.mpr ⟨hother, hid⟩⟩)
    · refine .inr (.inl ?_)
      simp only [Host.releasing]
      split
      · exact List.mem_cons_of_mem _ hreleased
      · exact hreleased
    · exact .inr (.inr hrest)
  · obtain hid | hid := List.mem_append.mp hid
    · obtain hold | ⟨rfl, issued, hissued, -⟩ := mem_givenUp hid
      · exact h.known id (List.mem_append_left _ hold)
      · exact Dict.mem_keys_iff.mpr ⟨issued, hissued⟩
    · exact h.known id (List.mem_append_right _ hid)
  · obtain hid | hid := List.mem_append.mp hid
    · obtain hold | ⟨rfl, -⟩ := mem_givenUp hid
      · exact h.gone id (List.mem_append_left _ hold) (hkeys hmem).1
      · exact (hkeys hmem).2 rfl
    · exact h.gone id (List.mem_append_right _ hid) (hkeys hmem).1

/-- Every permitted event keeps the registry sound. -/
theorem apply {event : Event} (h : host.Sound) (hpermitted : host.Permitted event) :
    (host.apply event).Sound := by
  cases event with
  | start process program => exact h.start hpermitted.1 hpermitted.2.1
  | tick duration => exact h.tick duration
  | die process =>
    simp only [Host.apply]
    split
    · rename_i program hprogram
      exact h.reprogram hprogram rfl (fun halive => by cases halive) rfl
    · exact h
  | call process alive call =>
    obtain ⟨-, hsees, hfresh⟩ := hpermitted
    simp only [Host.apply]
    split
    · rename_i program hprogram
      cases call with
      | acquire ownerId count free hex =>
        simp only [runCall]
        split
        · rename_i lease allocator registry hacquire
          obtain ⟨hid, hpid, -, -, hports, rfl, -⟩ := acquire_eq_ok hacquire
          exact (h.reclaiming hsees).issue hprogram rfl rfl rfl
            (hid ▸ hfresh ownerId count free hex rfl) hpid
            fun port hport => ⟨(hports port hport).1, (hports port hport).2.2⟩
        · exact h
      | renew leaseId =>
        simp only [runCall]
        split
        · rename_i lease registry hrenew
          obtain ⟨raw, hraw, rfl, -⟩ := renew_eq_ok hrenew
          exact (h.reclaiming hsees).extend hraw rfl rfl
        · exact h
      | release leaseId => exact h.releasing hprogram
      | activeLeases => exact h.reclaiming hsees
      | reclaim => exact h.reclaiming hsees
    · exact h

theorem reached {allowed : Host → Event → Prop} (h : Reached allowed host) : host.Sound := by
  induction h with
  | empty => exact .empty
  | step _ hpermitted _ ih => exact ih.apply hpermitted

end Sound

end Host

end ProjectOS.Runtime
