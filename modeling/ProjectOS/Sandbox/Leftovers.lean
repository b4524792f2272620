import ProjectOS.Sandbox.ApplicationRunner

/-! What a run leaves behind when its start fails, and when it is stopped. -/
namespace ProjectOS.Sandbox
open Base DockerApplicationRunner

/-- Nothing of the run exists. -/
def Clean (machine : Machine) : Prop :=
  machine.containers = [] ∧ machine.network = false ∧ machine.leases = []

section Start
variable (nameOf : ApplicationService → String) (outcomes : ApplicationService → ServiceOutcome)

/-- The step at which the loop fails is a `docker run` that created its container. -/
def leaksFrom : List String → List ApplicationService → Bool
  | _, [] => false
  | started, service :: rest =>
      (outcomes service).prepared && nameOf service ∉ started &&
        match (outcomes service).run with
        | .refused created => created.isSome
        | .accepted stays => stays && (!service.readiness || (outcomes service).ready) &&
            leaksFrom (started ++ [nameOf service]) rest

end Start

/-- A start fails at a `docker run` that created its container. -/
def leaks (nameOf : ApplicationService → String) (services : List ApplicationService)
    (outcome : StartOutcome) : Bool :=
  outcome.checked && (publishable services = [] || outcome.leased) && outcome.images &&
    outcome.network && leaksFrom nameOf outcome.services [] services

section CleanUp
variable {machine : Machine}

theorem stopAndRemove_containers (name : String) :
    (stopAndRemove machine name).containers = machine.containers.filter (· ≠ name) := by
  unfold stopAndRemove Machine.dockerStop
  split <;> rfl

theorem stopAndRemove_running (name : String) :
    (stopAndRemove machine name).running = machine.running.filter (· ≠ name) := by
  unfold stopAndRemove Machine.dockerStop
  split
  · simp [Machine.dockerRemove]
  · rfl

theorem stopAndRemove_network (name : String) :
    (stopAndRemove machine name).network = machine.network ∧
      (stopAndRemove machine name).leases = machine.leases := by
  unfold stopAndRemove Machine.dockerStop
  split <;> exact ⟨rfl, rfl⟩

theorem foldl_stopAndRemove (names : List String) :
    (names.foldl stopAndRemove machine).containers = machine.containers.filter (· ∉ names) ∧
      (names.foldl stopAndRemove machine).running = machine.running.filter (· ∉ names) ∧
      (names.foldl stopAndRemove machine).network = machine.network ∧
      (names.foldl stopAndRemove machine).leases = machine.leases := by
  induction names generalizing machine with
  | nil => simp
  | cons name names ih =>
    obtain ⟨hcontainers, hrunning, hnetwork, hleases⟩ := @ih (stopAndRemove machine name)
    rw [List.foldl_cons, hcontainers, hrunning, hnetwork, hleases, stopAndRemove_containers,
      stopAndRemove_running, (stopAndRemove_network name).1, (stopAndRemove_network name).2]
    refine ⟨?_, ?_, rfl, rfl⟩
    · rw [List.filter_filter]
      apply List.filter_congr
      intro other _
      simp [Bool.and_comm]
    · rw [List.filter_filter]
      apply List.filter_congr
      intro other _
      simp [Bool.and_comm]

/-- Cleaning up takes back all but the containers that were not recorded. -/
theorem cleanUp_clean_iff {lease : Option String} {started : List String}
    (hleases : machine.leases = lease.toList)
    (hrunning : ∀ name ∈ machine.running, name ∈ machine.containers) :
    Clean (cleanUp lease started machine) ↔ ∀ name ∈ machine.containers, name ∈ started := by
  have hrelease : ∃ released : Machine, released.containers = machine.containers ∧
      released.running = machine.running ∧ released.leases = [] ∧
      cleanUp lease started machine =
        (started.reverse.foldl stopAndRemove released).networkRemove := by
    cases lease with
    | none => exact ⟨machine, rfl, rfl, hleases, rfl⟩
    | some leaseId =>
      refine ⟨machine.release leaseId, rfl, rfl, ?_, rfl⟩
      simp [Machine.release, hleases]
  obtain ⟨released, hcontainers, hreleased, hnone, hcleanUp⟩ := hrelease
  obtain ⟨hleft, hup, -, hlease⟩ := @foldl_stopAndRemove released started.reverse
  rw [hcleanUp]
  unfold Clean Machine.networkRemove
  constructor
  · intro h name hname
    have hempty : (started.reverse.foldl stopAndRemove released).containers = [] := by
      split at h <;> exact h.1
    rw [hleft, hcontainers, List.filter_eq_nil_iff] at hempty
    simpa using hempty name hname
  · intro h
    have hcontained : (started.reverse.foldl stopAndRemove released).containers = [] := by
      rw [hleft, hcontainers, List.filter_eq_nil_iff]
      intro name hname
      simpa using h name hname
    have hstopped : (started.reverse.foldl stopAndRemove released).running = [] := by
      rw [hup, hreleased, List.filter_eq_nil_iff]
      intro name hname
      simpa using h name (hrunning name hname)
    rw [if_pos hstopped]
    exact ⟨hcontained, rfl, hlease.trans hnone⟩

end CleanUp

/-- The containers of the machine are those that the start has recorded. -/
structure Recorded (started : List String) (machine : Machine) : Prop where
  containers : machine.containers = started
  running : ∀ name ∈ machine.running, name ∈ started

section Services
variable {nameOf : ApplicationService → String} {outcomes : ApplicationService → ServiceOutcome}
  {started : List String} {machine : Machine}

theorem Recorded.create (h : Recorded started machine) (name : String) (stays : Bool) :
    Recorded (started ++ [name]) (machine.create name stays) := by
  constructor
  · rw [Machine.create, h.containers]
  · intro other hother
    unfold Machine.create at hother
    dsimp only at hother
    split at hother
    · rcases List.mem_append.mp hother with hmem | hlast
      · exact List.mem_append_left _ (h.running other hmem)
      · exact List.mem_append_right _ hlast
    · exact List.mem_append_left _ (h.running other hother)

/-- What the loop leaves: all recorded, or one container too many. -/
structure LeftBehind (leak : Bool) (leases : List String) (machine : Machine)
    (started : List String) (finished : Bool) : Prop where
  leases_eq : machine.leases = leases
  running : ∀ name ∈ machine.running, name ∈ machine.containers
  recorded : leak = false → Recorded started machine
  extra : leak = true → finished = false ∧ ∃ name ∈ machine.containers, name ∉ started

theorem Recorded.leftBehind (h : Recorded started machine) (finished : Bool) :
    LeftBehind false machine.leases machine started finished := by
  refine ⟨rfl, ?_, fun _ => h, (nomatch ·)⟩
  rw [h.containers]
  exact h.running

theorem dockerRun_conflict {name : String} (h : name ∈ machine.containers) (outcome : RunOutcome) :
    dockerRun machine name outcome = (machine, false) := by
  unfold dockerRun
  rw [if_pos h]

theorem dockerRun_free {name : String} (h : name ∉ machine.containers) (outcome : RunOutcome) :
    dockerRun machine name outcome =
      match outcome with
      | .accepted stays => (machine.create name stays, true)
      | .refused (some stays) => (machine.create name stays, false)
      | .refused none => (machine, false) := by
  unfold dockerRun
  exact if_neg h

theorem startServices_leaves (h : Recorded started machine) (services : List ApplicationService) :
    LeftBehind (leaksFrom nameOf outcomes started services) machine.leases
      (startServices nameOf outcomes services started machine).1
      (startServices nameOf outcomes services started machine).2.1
      (startServices nameOf outcomes services started machine).2.2 := by
  induction services generalizing started machine with
  | nil => exact h.leftBehind true
  | cons service rest ih =>
    unfold startServices leaksFrom
    cases (outcomes service).prepared with
    | false => exact h.leftBehind false
    | true =>
      simp only [Bool.not_true, Bool.false_eq_true, if_false, Bool.true_and]
      by_cases hname : nameOf service ∈ started
      · have hused : nameOf service ∈ machine.containers := by rwa [h.containers]
        rw [dockerRun_conflict hused]
        simpa [hname] using h.leftBehind false
      · have hfree : nameOf service ∉ machine.containers := by rwa [h.containers]
        rw [dockerRun_free hfree]
        cases (outcomes service).run with
        | refused created =>
          cases created with
          | none => simpa [hname] using h.leftBehind false
          | some stays =>
            have hcreated := h.create (nameOf service) stays
            simp only [Bool.not_false, if_true, hname, not_false_eq_true, decide_true, Bool.and_true,
              Option.isSome_some]
            refine ⟨rfl, ?_, (nomatch ·), fun _ => ⟨rfl, nameOf service, ?_, hname⟩⟩
            · rw [hcreated.containers]
              exact hcreated.running
            · rw [hcreated.containers]
              exact List.mem_append_right _ List.mem_cons_self
        | accepted stays =>
          have hcreated := h.create (nameOf service) stays
          have hup : nameOf service ∈ (machine.create (nameOf service) stays).running ↔
              stays = true := by
            have hdown : nameOf service ∉ machine.running := fun hmem => hname (h.running _ hmem)
            cases stays <;> simp [Machine.create, hdown]
          cases stays with
          | false =>
            have hdown := mt hup.mp Bool.false_ne_true
            simpa [hname, hdown] using hcreated.leftBehind false
          | true =>
            have hstays := hup.mpr rfl
            cases hready : (service.readiness && !(outcomes service).ready) with
            | true =>
              have hleak : (!service.readiness || (outcomes service).ready) = false := by
                cases hr : service.readiness <;> simp_all
              simpa [hname, hstays, hready, hleak] using hcreated.leftBehind false
            | false =>
              have hleak : (!service.readiness || (outcomes service).ready) = true := by
                cases hr : service.readiness <;> simp_all
              simpa [hname, hstays, hready, hleak] using ih hcreated

end Services

section Started
variable {nameOf : ApplicationService → String} {services : List ApplicationService}
  {leaseId : String} {outcome : StartOutcome}

/-- What a start comes to: cleaned up after a failure, or a run with its containers and lease. -/
theorem start_cases :
    (start nameOf services leaseId outcome).2 = none ∧
        (Clean (start nameOf services leaseId outcome).1 ↔ leaks nameOf services outcome = false) ∨
      ∃ run, (start nameOf services leaseId outcome).2 = some run ∧ run.status = .running ∧
        Recorded run.containerNames (start nameOf services leaseId outcome).1 ∧
        (start nameOf services leaseId outcome).1.leases = run.portLeaseId.toList := by
  have hnothing : ∀ {machine : Machine} {lease : Option String}, machine.leases = lease.toList →
      machine.containers = [] → machine.running = [] → Clean (cleanUp lease [] machine) := by
    intro machine lease hleases hcontainers hrunning
    apply (cleanUp_clean_iff hleases _).mpr
    · rw [hcontainers]
      exact fun _ h => absurd h List.not_mem_nil
    · rw [hrunning]
      exact fun _ h => absurd h List.not_mem_nil
  unfold start leaks
  cases outcome.checked with
  | false => exact .inl ⟨rfl, by simp [Clean]⟩
  | true =>
    by_cases hlease : (publishable services ≠ [] && !outcome.leased) = true
    · have hleased : (publishable services = [] || outcome.leased) = false := by
        simpa using hlease
      rw [if_neg (by decide), if_pos hlease]
      exact .inl ⟨rfl, by simpa [hleased] using hnothing rfl rfl rfl⟩
    · have hleased : (publishable services = [] || outcome.leased) = true := by
        rw [Bool.or_eq_true, decide_eq_true_eq]
        simpa [imp_iff_not_or] using hlease
      rw [if_neg (by decide), if_neg hlease]
      cases hready : (!outcome.images || !outcome.network) with
      | true =>
        have hunready : (outcome.images && outcome.network) = false := by
          simpa [imp_iff_not_or] using hready
        exact .inl ⟨rfl, by simpa [Bool.and_assoc, hunready] using hnothing rfl rfl rfl⟩
      | false =>
        obtain ⟨himages, hnetwork⟩ : outcome.images = true ∧ outcome.network = true := by
          simpa using hready
        rw [hleased, himages, hnetwork]
        simp only [Bool.false_eq_true, if_false, Bool.true_and]
        have hloop := @startServices_leaves nameOf outcome.services []
          { leases := (if publishable services = [] then none else some leaseId).toList,
            network := true } ⟨rfl, fun _ h => h⟩ services
        rcases hend : startServices nameOf outcome.services services []
          { leases := (if publishable services = [] then none else some leaseId).toList,
            network := true } with ⟨machine, started, _ | _⟩
        · rw [hend] at hloop
          refine .inl ⟨rfl, ?_⟩
          rw [cleanUp_clean_iff hloop.leases_eq hloop.running]
          cases hleak : leaksFrom nameOf outcome.services [] services with
          | false =>
            have hall : ∀ name ∈ machine.containers, name ∈ started := by
              rw [(hloop.recorded hleak).containers]
              exact fun _ h => h
            simpa using hall
          | true =>
            obtain ⟨-, name, hname, hmissed⟩ := hloop.extra hleak
            simpa using ⟨name, hname, hmissed⟩
        · rw [hend] at hloop
          have hleak : leaksFrom nameOf outcome.services [] services = false := by
            by_contra hleak
            cases (hloop.extra (Bool.eq_true_of_not_eq_false hleak)).1
          exact .inr ⟨_, rfl, rfl, hloop.recorded hleak, hloop.leases_eq⟩

end Started

/-- A started run is up, with its containers and its lease, or nothing but its lease is left. -/
inductive Kept (lease : Option String) : Machine × ApplicationRun → Prop
  | up {machine : Machine} {run : ApplicationRun} (status : run.status = .running)
      (recorded : Recorded run.containerNames machine) (leases : machine.leases = lease.toList) :
      Kept lease (machine, run)
  | down {machine : Machine} {run : ApplicationRun} (status : run.status ≠ .running)
      (containers : machine.containers = []) (running : machine.running = [])
      (network : machine.network = false) : Kept lease (machine, run)

section Run
variable {machine : Machine} {run : ApplicationRun} {lease : Option String}

theorem Kept.release (hstatus : run.status ≠ .running) (hcontainers : machine.containers = [])
    (hrunning : machine.running = []) (hnetwork : machine.network = false) :
    Kept lease (releasePorts machine run) := by
  unfold releasePorts
  split
  · exact .down hstatus hcontainers hrunning hnetwork
  · exact .down hstatus hcontainers hrunning hnetwork

theorem stopAll_fst (names : List String) :
    (stopAll names machine).1 = names.foldl stopAndRemove machine := by
  induction names generalizing machine with
  | nil => rfl
  | cons name names ih => exact ih

theorem Kept.stop (h : Kept lease (machine, run)) : Kept lease (stop machine run) := by
  unfold DockerApplicationRunner.stop
  cases h with
  | down hstatus hcontainers hrunning hnetwork =>
    rw [if_neg hstatus]
    exact .release hstatus hcontainers hrunning hnetwork
  | up hstatus hrecorded hleases =>
    obtain ⟨hcontainers, hrunning, -, -⟩ := @foldl_stopAndRemove machine run.containerNames.reverse
    rw [← stopAll_fst] at hcontainers hrunning
    have hgone : (stopAll run.containerNames.reverse machine).1.containers = [] := by
      rw [hcontainers, List.filter_eq_nil_iff, hrecorded.containers]
      intro name hname
      simpa using hname
    have hdown : (stopAll run.containerNames.reverse machine).1.running = [] := by
      rw [hrunning, List.filter_eq_nil_iff]
      intro name hname
      simpa using hrecorded.running name hname
    rw [if_pos hstatus]
    simp only [Machine.networkRemove, if_pos hdown]
    split
    · exact .release nofun hgone hdown rfl
    · exact .release nofun hgone hdown rfl

/-- The run is not asked for its status while it is RUNNING with a dead container. -/
def Seen (state : Machine × ApplicationRun) (event : Event) : Prop :=
  event = .status → state.2.status = .running →
    ∀ name ∈ state.2.containerNames, name ∈ state.1.running

theorem Kept.step {state : Machine × ApplicationRun} (h : Kept lease state) (event : Event)
    (hseen : Seen state event) : Kept lease (step state event) := by
  obtain ⟨machine, run⟩ := state
  cases event with
  | stop => exact h.stop
  | die names =>
    cases h with
    | down hstatus hcontainers hrunning hnetwork =>
      refine .down hstatus hcontainers ?_ hnetwork
      simp [Machine.die, hrunning]
    | up hstatus hrecorded hleases =>
      refine .up hstatus ⟨hrecorded.containers, ?_⟩ hleases
      intro name hname
      exact hrecorded.running name (List.mem_of_mem_filter hname)
  | status =>
    have hunchanged : status machine run = (machine, run) := by
      unfold status
      by_cases hstatus : run.status = .running
      · have hall : run.containerNames.all (· ∈ machine.running) = true := by
          rw [List.all_eq_true]
          intro name hname
          exact decide_eq_true (hseen rfl hstatus name hname)
        rw [if_neg (not_not_intro hstatus), if_pos hall]
      · rw [if_pos hstatus]
    change Kept lease (status machine run)
    rwa [hunchanged]

end Run

/-- The states of a run after calls and deaths, each of them permitted where it happens. -/
inductive Reached (permitted : Machine × ApplicationRun → Event → Prop)
    (started : Machine × ApplicationRun) : Machine × ApplicationRun → Prop
  | start : Reached permitted started started
  | step {state : Machine × ApplicationRun} {event : Event}
      (previous : Reached permitted started state) (allowed : permitted state event) :
      Reached permitted started (step state event)

theorem Kept.reached {lease : Option String} {started state : Machine × ApplicationRun}
    (h : Kept lease started) (hreached : Reached Seen started state) : Kept lease state := by
  induction hreached with
  | start => exact h
  | step _ hseen ih => exact ih.step _ hseen

/-- A start that raised has left nothing if and only if no refused `docker run` created its
container; as long as the status of a run is asked only while its containers live, its lease
is released when none of them runs, and stopping it leaves nothing. -/
theorem application_leaves_nothing (nameOf : ApplicationService → String)
    (services : List ApplicationService) (leaseId : String) (outcome : StartOutcome) :
    ((start nameOf services leaseId outcome).2 = none →
      (Clean (start nameOf services leaseId outcome).1 ↔ leaks nameOf services outcome = false)) ∧
    ∀ run, (start nameOf services leaseId outcome).2 = some run →
      ∀ machine after, Reached Seen ((start nameOf services leaseId outcome).1, run)
          (machine, after) →
        (∀ lease, run.portLeaseId = some lease → lease ∉ machine.leases → machine.running = []) ∧
          ((stop machine after).2.status = .stopped →
            (stop machine after).1.containers = [] ∧ (stop machine after).1.network = false) := by
  rcases @start_cases nameOf services leaseId outcome with
    ⟨hraised, hclean⟩ | ⟨run, hrun, hstatus, hrecorded, hleases⟩
  · refine ⟨fun _ => hclean, ?_⟩
    intro run hrun
    rw [hraised] at hrun
    cases hrun
  · refine ⟨fun hraised => (by rw [hrun] at hraised; cases hraised), ?_⟩
    intro _ hstarted machine after hreached
    cases hrun.symm.trans hstarted
    have hkept := (Kept.up hstatus hrecorded hleases).reached hreached
    constructor
    · intro lease hlease hreleased
      cases hkept with
      | up _ _ hheld =>
        rw [hlease] at hheld
        exact absurd (hheld ▸ List.mem_singleton_self lease) hreleased
      | down _ _ hdown _ => exact hdown
    · intro hstopped
      rcases hafter : stop machine after with ⟨left, ended⟩
      have hleft := hkept.stop
      rw [hafter] at hleft hstopped
      cases hleft with
      | up hup _ _ => rw [hup] at hstopped; cases hstopped
      | down _ hcontainers _ hnetwork => exact ⟨hcontainers, hnetwork⟩

/-- A refused `docker run` leaves the container it created, and so does a status call that finds
a dead container next to a running one: it gives the ports back, and the later stop, finding
the run STOPPED, takes nothing down. -/
theorem application_leaves_containers :
    let nameOf := fun service : ApplicationService => containerNameOf "shop" "app-1" service.id
    let outcome (run : RunOutcome) : StartOutcome :=
      ⟨true, true, true, true, fun _ => ⟨true, run, true⟩⟩
    let refused := start nameOf [{ id := "web" }] "lease-1" (outcome (.refused (some false)))
    let started := start nameOf [{ id := "db" }, { id := "web" }] "lease-1"
      (outcome (.accepted true))
    let run : ApplicationRun :=
      ⟨.running, ["projectos-shop-app-1-db", "projectos-shop-app-1-web"], some "lease-1", none⟩
    let asked := status (started.1.die ["projectos-shop-app-1-db"]) run
    refused = ({ containers := ["projectos-shop-app-1-web"] }, none) ∧
      started.2 = some run ∧
      asked.1.leases = [] ∧ asked.1.running = ["projectos-shop-app-1-web"] ∧
      (stop asked.1 asked.2).2.status = .stopped ∧
      (stop asked.1 asked.2).1.containers = run.containerNames ∧
      (stop asked.1 asked.2).1.network = true := by
  decide

end ProjectOS.Sandbox
