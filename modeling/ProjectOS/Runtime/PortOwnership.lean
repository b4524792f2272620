import ProjectOS.Runtime.PortHost

/-! Who may use a port. The registry and the reserved ports of a process say it twice;
they come apart where a lease of a live process leaves the registry without it. -/
namespace ProjectOS.Runtime
open Base PortLifecycleManager

namespace Host

/-- The holder of the lease has not released it and no call has reclaimed it. -/
def Standing (host : Host) (leaseId : String) (issued : Issued) : Prop :=
  host.issued.get? leaseId = some issued ∧ leaseId ∉ host.givenUp ∧ leaseId ∉ host.reclaimed

/-- What a live process has reserved belongs to standing leases of its own. -/
def Owned (host : Host) : Prop :=
  ∀ process program, host.processes.get? process = some program → program.alive = true →
    ∀ port ∈ program.allocator.reserved, ∃ id issued, host.Standing id issued ∧
      issued.owner = process ∧ port ∈ issued.ports

/-- A port of a lease that is over can be had again by the process that held it, once no
lease of it stands. -/
def Reacquirable (host : Host) : Prop :=
  ∀ process program, host.processes.get? process = some program → program.alive = true →
    ∀ id issued, host.issued.get? id = some issued → issued.owner = process →
    ∀ port ∈ issued.ports, (∀ other standing, host.Standing other standing → port ∉ standing.ports) →
    ∀ alive free hex ownerId, free port = true → Text.blank ownerId = false →
      ∃ count lease allocator registry,
        program.manager.acquire alive host.now program.pid hex ownerId count free
          program.allocator host.registry = .ok (lease, allocator, registry) ∧ port ∈ lease.ports

/-- The call writes the registry back: it does not raise. -/
def writesBack (host : Host) (process : Nat) (alive : Nat → Bool) : Call → Bool
  | .acquire ownerId count free _ => !Text.blank ownerId && 1 ≤ count &&
      (host.processes.get? process).any fun program => count.toNat ≤ (program.allocator.openPorts
        (held (reclaimState alive host.now host.registry)) free).length
  | .renew leaseId => leaseId ∈ (reclaimState alive host.now host.registry).keys
  | _ => true

/-- No lease of a live process has expired. -/
def Quiet (host : Host) : Prop :=
  ∀ id lease issued, host.registry.get? id = some lease → host.issued.get? id = some issued →
    host.live issued.owner = true → host.now < lease.expiresAt

/-- No reclaiming call meets an expired lease of a live process, and the first `release`
of a holder finds the lease in the registry. -/
def Safe (host : Host) : Event → Prop
  | .call process _ (.release leaseId) => ∀ issued, host.issued.get? leaseId = some issued →
      issued.owner = process → leaseId ∉ host.givenUp → leaseId ∈ host.registry.keys
  | .call process alive call => host.writesBack process alive call = true → host.Quiet
  | _ => True

variable {host : Host} {process : Nat} {program program' : Process} {alive : Nat → Bool}
  {leaseId : String} {lease raw : PortLease} {issued : Issued}

theorem not_overdue (hs : host.Sound) (hsees : Sees host alive) (hquiet : host.Quiet)
    (hissued : host.issued.get? leaseId = some issued) (hlive : host.live issued.owner = true) :
    leaseId ∉ host.overdue alive := by
  intro hmem
  obtain ⟨hkeys, hdropped⟩ := List.mem_filter.mp hmem
  obtain ⟨lease, hlease⟩ := Dict.mem_keys_iff.mp hkeys
  obtain ⟨issued', program, hissued', -, -, hprogram, hpid⟩ := hs.recorded leaseId lease hlease
  obtain rfl : issued = issued' := Option.some.inj (hissued.symm.trans hissued')
  have halive : program.alive = true := by simpa [live, hprogram] using hlive
  have hseen := hsees _ program hprogram halive
  have hpos := hs.pids _ program hprogram
  rw [hpid] at hseen hpos
  rw [decide_eq_true_eq] at hdropped
  exact hdropped (Dict.mem_keys_iff.mpr ⟨lease, get?_reclaimState.mpr
    ⟨hlease, hquiet leaseId lease issued hlease hissued hlive, hpos, hseen⟩⟩)

theorem Standing.reclaiming (h : host.Standing leaseId issued) (hs : host.Sound)
    (hsees : Sees host alive) (hquiet : host.Quiet) (hlive : host.live issued.owner = true) :
    (host.reclaiming alive).Standing leaseId issued := by
  refine ⟨h.1, h.2.1, fun hmem => ?_⟩
  obtain hold | hnew := List.mem_append.mp hmem
  · exact h.2.2 hold
  · exact not_overdue hs hsees hquiet h.1 hlive hnew

theorem live_of_get? (h : host.processes.get? process = some program)
    (halive : program.alive = true) : host.live process = true := by
  rw [live, h]
  exact halive

namespace Owned

theorem reclaiming (h : host.Owned) (hs : host.Sound) (hsees : Sees host alive)
    (hquiet : host.Quiet) : (host.reclaiming alive).Owned := by
  intro process program hprogram halive port hport
  obtain ⟨id, issued, hstanding, rfl, hmem⟩ := h process program hprogram halive port hport
  exact ⟨id, issued, hstanding.reclaiming hs hsees hquiet (live_of_get? hprogram halive), rfl, hmem⟩

/-- The ports a new lease reserves are its own. -/
theorem issue (h : host.Owned) (hs : host.Sound)
    (hprogram : host.processes.get? process = some program)
    (halive : program'.alive = program.alive)
    (hreserved : program'.allocator.reserved = program.allocator.reserved ∪ lease.ports.toFinset)
    (hfresh : lease.leaseId ∉ host.issued.keys) : (host.issue process program' lease).Owned := by
  have hold {id : String} {issued : Issued} (hstanding : host.Standing id issued) :
      (host.issue process program' lease).Standing id issued := by
    refine ⟨?_, hstanding.2⟩
    rw [Host.issue, Dict.get?_set, if_neg, hstanding.1]
    rintro rfl
    exact hfresh (Dict.mem_keys_iff.mpr ⟨issued, hstanding.1⟩)
  have hnew : (host.issue process program' lease).Standing lease.leaseId
      ⟨process, lease.ports, lease.expiresAt⟩ := by
    refine ⟨by rw [Host.issue, Dict.get?_set, if_pos rfl], fun hmem => ?_, fun hmem => ?_⟩
    · exact hfresh (hs.known _ (List.mem_append_left _ hmem))
    · exact hfresh (hs.known _ (List.mem_append_right _ hmem))
  intro other otherProgram hother hotherAlive port hport
  simp only [Host.issue, Dict.get?_set] at hother
  split at hother
  · rename_i hsame
    cases hother
    subst hsame
    rw [hreserved, Finset.mem_union, List.mem_toFinset] at hport
    obtain hport | hport := hport
    · obtain ⟨id, issued, hstanding, howner, hmem⟩ :=
        h other program hprogram (halive ▸ hotherAlive) port hport
      exact ⟨id, issued, hold hstanding, howner, hmem⟩
    · exact ⟨lease.leaseId, _, hnew, rfl, hport⟩
  · obtain ⟨id, issued, hstanding, howner, hmem⟩ := h other otherProgram hother hotherAlive port hport
    exact ⟨id, issued, hold hstanding, howner, hmem⟩

theorem extend (h : host.Owned) : (host.extend leaseId lease).Owned := by
  intro process program hprogram halive port hport
  obtain ⟨id, issued, hstanding, howner, hmem⟩ := h process program hprogram halive port hport
  have hissued : ∃ issued', (host.extend leaseId lease).issued.get? id = some issued' ∧
      issued'.owner = issued.owner ∧ issued'.ports = issued.ports := by
    rw [Host.extend]
    cases hlease : host.issued.get? leaseId with
    | none => exact ⟨issued, hstanding.1, rfl, rfl⟩
    | some old =>
      dsimp only
      rw [Dict.get?_set]
      by_cases hid : id = leaseId
      · subst hid
        obtain rfl : issued = old := Option.some.inj (hstanding.1.symm.trans hlease)
        exact ⟨_, if_pos rfl, rfl, rfl⟩
      · exact ⟨issued, by rw [if_neg hid, hstanding.1], rfl, rfl⟩
  obtain ⟨issued', hissued', howner', hports'⟩ := hissued
  exact ⟨id, issued', ⟨hissued', hstanding.2⟩, howner'.trans howner, hports' ▸ hmem⟩

/-- A release takes back what its lease had reserved. -/
theorem releasing (h : host.Owned) (hs : host.Sound)
    (hprogram : host.processes.get? process = some program)
    (hsafe : ∀ issued, host.issued.get? leaseId = some issued → issued.owner = process →
      leaseId ∉ host.givenUp → leaseId ∈ host.registry.keys) :
    (host.releasing process program leaseId).Owned := by
  have hkeep {id : String} {issued : Issued} (hstanding : host.Standing id issued)
      (hother : id ≠ leaseId ∨ issued.owner ≠ process) :
      (host.releasing process program leaseId).Standing id issued := by
    refine ⟨hstanding.1, fun hmem => ?_, hstanding.2.2⟩
    obtain hold | ⟨rfl, issued', hissued', howner⟩ := Sound.mem_givenUp hmem
    · exact hstanding.2.1 hold
    · obtain rfl : issued = issued' := Option.some.inj (hstanding.1.symm.trans hissued')
      obtain hne | hne := hother
      · exact hne rfl
      · exact hne howner
  intro other otherProgram hother halive port hport
  simp only [Host.releasing, Dict.get?_set] at hother
  split at hother
  · rename_i hsame
    cases hother
    subst hsame
    have hbefore : port ∈ program.allocator.reserved ∧
        ∀ lease, host.registry.get? leaseId = some lease → port ∉ lease.ports := by
      dsimp only [PortLifecycleManager.release] at hport
      split at hport
      · rename_i hnone
        refine ⟨hport, fun lease hlease => ?_⟩
        rw [hnone] at hlease
        cases hlease
      · rename_i raw hraw
        dsimp only [PortAllocator.release] at hport
        rw [Finset.mem_sdiff, List.mem_toFinset] at hport
        refine ⟨hport.1, fun lease hlease => ?_⟩
        obtain rfl : raw = lease := Option.some.inj (hraw.symm.trans hlease)
        exact hport.2
    obtain ⟨id, issued, hstanding, howner, hmem⟩ := h other program hprogram halive port hbefore.1
    refine ⟨id, issued, hkeep hstanding (.inl ?_), howner, hmem⟩
    rintro rfl
    -- the holder's lease is in the registry, so its ports are no longer reserved
    obtain ⟨lease, hlease⟩ := Dict.mem_keys_iff.mp (hsafe issued hstanding.1 howner hstanding.2.1)
    obtain ⟨issued', -, hissued', hports, -⟩ := hs.recorded id lease hlease
    obtain rfl : issued = issued' := Option.some.inj (hstanding.1.symm.trans hissued')
    exact hbefore.2 lease hlease (hports ▸ hmem)
  · rename_i hne
    obtain ⟨id, issued, hstanding, howner, hmem⟩ := h other otherProgram hother halive port hport
    exact ⟨id, issued, hkeep hstanding (.inr (howner ▸ hne)), howner, hmem⟩

/-- A safe event leaves no reserved port behind. -/
theorem apply {event : Event} (h : host.Owned) (hs : host.Sound) (hpermitted : host.Permitted event)
    (hsafe : host.Safe event) : (host.apply event).Owned := by
  cases event with
  | start process program =>
    intro other otherProgram hother halive port hport
    simp only [Host.apply, Dict.get?_set] at hother
    split at hother
    · cases hother
      rw [hpermitted.2.2] at hport
      exact absurd hport (Finset.notMem_empty port)
    · exact h other otherProgram hother halive port hport
  | tick duration => exact h
  | die process =>
    simp only [Host.apply]
    split
    · intro other otherProgram hother halive port hport
      simp only [Dict.get?_set] at hother
      split at hother
      · cases hother
        cases halive
      · exact h other otherProgram hother halive port hport
    · exact h
  | call process alive call =>
    obtain ⟨-, hsees, hfresh⟩ := hpermitted
    simp only [Host.apply]
    split
    · rename_i program hprogram
      cases call with
      | acquire ownerId count free hex =>
        simp only [runCall]
        split
        · rename_i lease allocator registry hacquire
          obtain ⟨hid, -, -, -, -, rfl, -⟩ := acquire_eq_ok hacquire
          obtain ⟨howner, hcount, henough⟩ := acquire_writes hacquire
          have hquiet : host.Quiet := hsafe (by
            simp only [writesBack, howner, hprogram, Option.any_some, Bool.not_false, Bool.true_and,
              Bool.and_eq_true, decide_eq_true_eq]
            exact ⟨hcount, henough⟩)
          exact (h.reclaiming hs hsees hquiet).issue (hs.reclaiming hsees) hprogram rfl rfl
            (hid ▸ hfresh ownerId count free hex rfl)
        · exact h
      | renew leaseId =>
        simp only [runCall]
        split
        · rename_i lease registry hrenew
          obtain ⟨raw, hraw, -⟩ := renew_eq_ok hrenew
          have hquiet : host.Quiet :=
            hsafe (decide_eq_true (Dict.mem_keys_iff.mpr ⟨raw, hraw⟩))
          exact (h.reclaiming hs hsees hquiet).extend
        · exact h
      | release leaseId => exact h.releasing hs hprogram hsafe
      | activeLeases => exact h.reclaiming hs hsees (hsafe rfl)
      | reclaim => exact h.reclaiming hs hsees (hsafe rfl)
    · exact h

theorem reached (h : Reached Safe host) : host.Owned := by
  induction h with
  | empty =>
    intro process program hprogram
    cases hprogram
  | step hprevious hpermitted hsafe ih => exact ih.apply (.reached hprevious) hpermitted hsafe

/-- Ports that nobody has reserved or leased are open. -/
theorem reacquirable (h : host.Owned) (hs : host.Sound) : host.Reacquirable := by
  intro process program hprogram halive id issued hissued howner port hport hover alive free hex
    ownerId hfree hownerId
  apply exists_acquire hownerId
  obtain ⟨program', hprogram', hrange⟩ := hs.owners id issued hissued
  rw [howner, hprogram, Option.some.injEq] at hprogram'
  subst hprogram'
  have hreserved : port ∉ program.allocator.reserved := by
    intro hmem
    obtain ⟨other, standing, hstanding, -, hports⟩ := h process program hprogram halive port hmem
    exact hover other standing hstanding hports
  have hheld : port ∉ held (reclaimState alive host.now host.registry) := by
    intro hmem
    obtain ⟨other, lease, hlease, hports⟩ := mem_held.mp hmem
    have hlease := (get?_reclaimState.mp hlease).1
    obtain ⟨standing, -, hstanding, hsame, -⟩ := hs.recorded other lease hlease
    have hkeys := Dict.mem_keys_iff.mpr ⟨lease, hlease⟩
    exact hover other standing ⟨hstanding,
      fun hmem => hs.gone other (List.mem_append_left _ hmem) hkeys,
      fun hmem => hs.gone other (List.mem_append_right _ hmem) hkeys⟩ (hsame ▸ hports)
  refine List.mem_filter.mpr ⟨hrange port hport, ?_⟩
  simp [hreserved, hheld, hfree]

end Owned

/-- Current leases are disjoint in every run; what a process has reserved belongs to its
standing leases, and comes free with them, as long as every step is safe. -/
theorem ports_owned {allowed : Host → Event → Prop} (h : Reached allowed host) :
    host.Exclusive ∧ ((∀ host event, allowed host event → host.Safe event) →
      host.Owned ∧ host.Reacquirable) := by
  have hsound : host.Sound := .reached h
  refine ⟨hsound.exclusive, fun hsafe => ?_⟩
  have howned : host.Owned := .reached (h.mono hsafe)
  exact ⟨howned, howned.reacquirable hsound⟩

def everyPid : Nat → Bool := fun _ => true

/-- A process with a range of one port. -/
def apiProcess : Process where
  pid := 100
  manager := {}
  allocator := { start := 8100, stop := 8100, valid := by decide }

def startedHost : Host := ({} : Host).apply (.start 1 apiProcess)

def acquireEvent : Event := .call 1 everyPid (.acquire "run-1" 1 everyPid "a")

def leasedHost : Host := startedHost.apply acquireEvent

theorem startedHost_permitted (allowed : Host → Event → Prop)
    (hstart : allowed {} (.start 1 apiProcess)) : Reached allowed startedHost :=
  .step .empty ⟨by decide, by decide, rfl⟩ hstart

theorem leasedHost_reached (allowed : Host → Event → Prop)
    (hstart : allowed {} (.start 1 apiProcess)) (hacquire : allowed startedHost acquireEvent) :
    Reached allowed leasedHost := by
  refine .step (startedHost_permitted allowed hstart) ⟨by decide, fun _ _ _ _ => rfl, ?_⟩ hacquire
  intro ownerId count free hex _ hkeys
  cases hkeys

theorem leasedHost_owned :
    (leasedHost.registry.get? "lease-a").map (·.ports) = some [8100] ∧
      leasedHost.Exclusive ∧ leasedHost.Owned ∧ leasedHost.Reacquirable := by
  have hreached : Reached Safe leasedHost := by
    refine leasedHost_reached Safe trivial ?_
    intro _ id lease issued hlease
    cases hlease
  have hports := ports_owned hreached
  exact ⟨by decide, hports.1, hports.2 fun _ _ => id⟩

/-- An hour later the lease has expired; the next call that looks at the leases drops it. -/
def expiredHost : Host :=
  (leasedHost.apply (.tick 3600000000)).apply (.call 1 everyPid .activeLeases)

def lateHost : Host := expiredHost.apply (.call 1 everyPid (.release "lease-a"))

/-- The expired lease is gone and then released, and its port can never be had again by
the process that held it. -/
theorem expiredLease_leaks : Reached (fun _ _ => True) lateHost ∧ lateHost.registry.keys = [] ∧
    lateHost.reclaimed = ["lease-a"] ∧ lateHost.givenUp = ["lease-a"] ∧ ¬ lateHost.Owned ∧
      ¬ lateHost.Reacquirable := by
  have hreached : Reached (fun _ _ => True) lateHost := by
    have hleased := leasedHost_reached (fun _ _ => True) trivial trivial
    have hticked : Reached (fun _ _ => True) (leasedHost.apply (.tick 3600000000)) :=
      .step hleased trivial trivial
    have hexpired : Reached (fun _ _ => True) expiredHost :=
      .step hticked ⟨by decide, fun _ _ _ _ => rfl, nofun⟩ trivial
    exact .step hexpired ⟨by decide, fun _ _ _ _ => rfl, nofun⟩ trivial
  have hissued {id : String} {issued : Issued} (h : lateHost.Standing id issued) : False := by
    have hkeys := Dict.mem_keys_iff.mpr ⟨issued, h.1⟩
    have hone : lateHost.issued.keys = ["lease-a"] := by decide
    rw [hone, List.mem_singleton] at hkeys
    subst hkeys
    exact h.2.2 (by decide)
  obtain ⟨program, hprogram, halive, hreserved⟩ : ∃ program,
      lateHost.processes.get? 1 = some program ∧ program.alive = true ∧
        8100 ∈ program.allocator.reserved := ⟨_, rfl, rfl, by decide⟩
  refine ⟨hreached, by decide, by decide, by decide, fun howned => ?_, fun hagain => ?_⟩
  · obtain ⟨id, issued, hstanding, -⟩ := howned 1 program hprogram halive 8100 hreserved
    exact hissued hstanding
  · obtain ⟨count, lease, allocator, registry, hacquire, hport⟩ :=
      hagain 1 program hprogram halive "lease-a" ⟨1, [8100], 3600000000⟩ rfl rfl
        8100 (by decide) (fun _ _ hstanding => (hissued hstanding).elim) everyPid everyPid "b"
        "run-2" rfl (by decide)
    exact ((acquire_eq_ok hacquire).2.2.2.2.1 8100 hport).2.1 hreserved

end Host

end ProjectOS.Runtime
