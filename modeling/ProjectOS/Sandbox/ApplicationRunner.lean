import ProjectOS.Base.Text

/-! The runner of a generated application: its containers, its network and its lease of host
ports, from the start of a run to its stop. -/
namespace ProjectOS.Sandbox
open Base

/-- `_safe_name`. -/
def safeName (value : String) : String :=
  let cleaned := Text.stripBy (fun c => c = '-' || c = '.') (Text.collapse Text.isSafeChar '-' value)
  let name := String.ofList (cleaned.toList.take 96)
  if name = "" then "projectos-runtime" else name

def containerNameOf (projectName runId serviceId : String) : String :=
  safeName ("projectos-" ++ projectName ++ "-" ++ runId ++ "-" ++ serviceId)

/-- What a start reads of a service. -/
structure ApplicationService where
  id : String
  publishPort : Bool := true
  hostPort : Nat := 0
  readiness : Bool := true
deriving DecidableEq

/-- What exists of one run on the machine: its containers, those of them that run, its network
and its leases. -/
structure Machine where
  containers : List String := []
  running : List String := []
  network : Bool := false
  leases : List String := []
deriving DecidableEq

namespace Machine
variable (machine : Machine)

/-- `docker stop`; it fails on what does not exist. -/
def dockerStop (name : String) : Machine × Bool :=
  if name ∈ machine.containers then
    ({ machine with running := machine.running.filter (· ≠ name) }, true)
  else (machine, false)

/-- `docker rm -f`. -/
def dockerRemove (name : String) : Machine :=
  { machine with
    containers := machine.containers.filter (· ≠ name)
    running := machine.running.filter (· ≠ name) }

/-- `docker network rm`; a running container keeps its network. -/
def networkRemove : Machine :=
  if machine.running = [] then { machine with network := false } else machine

def release (leaseId : String) : Machine :=
  { machine with leases := machine.leases.filter (· ≠ leaseId) }

def create (name : String) (stays : Bool) : Machine :=
  { machine with
    containers := machine.containers ++ [name]
    running := if stays then machine.running ++ [name] else machine.running }

@[simp] theorem create_leases (name : String) (stays : Bool) :
    (machine.create name stays).leases = machine.leases := rfl

@[simp] theorem create_network (name : String) (stays : Bool) :
    (machine.create name stays).network = machine.network := rfl

/-- Containers die on their own; they still exist. -/
def die (names : List String) : Machine :=
  { machine with running := machine.running.filter (· ∉ names) }

end Machine

/-- How `docker run` ends. Refused, it may still have created the container. -/
inductive RunOutcome where
  | accepted (stays : Bool)
  | refused (created : Option Bool)

/-- How the steps for one service come out. -/
structure ServiceOutcome where
  /-- Its folder, its volume and its command are there. -/
  prepared : Bool
  run : RunOutcome
  ready : Bool

/-- How the steps of a start come out. -/
structure StartOutcome where
  checked : Bool
  leased : Bool
  images : Bool
  network : Bool
  services : ApplicationService → ServiceOutcome

inductive ApplicationRunStatus where
  | running
  | stopped
  | failed
deriving DecidableEq, Repr

structure ApplicationRun where
  status : ApplicationRunStatus
  containerNames : List String
  portLeaseId : Option String
  error : Option String := none
deriving DecidableEq

namespace DockerApplicationRunner

/-- The `docker run` of a service: the machine after it, and whether it returned a container. -/
def dockerRun (machine : Machine) (name : String) (outcome : RunOutcome) : Machine × Bool :=
  if name ∈ machine.containers then (machine, false)
  else
    match outcome with
    | .accepted stays => (machine.create name stays, true)
    | .refused (some stays) => (machine.create name stays, false)
    | .refused none => (machine, false)

/-- The loop over the services: the containers it recorded, and whether it came to its end. -/
def startServices (nameOf : ApplicationService → String)
    (outcomes : ApplicationService → ServiceOutcome) :
    List ApplicationService → List String → Machine → Machine × List String × Bool
  | [], started, machine => (machine, started, true)
  | service :: rest, started, machine =>
      if !(outcomes service).prepared then (machine, started, false)
      else
        let name := nameOf service
        let (machine, returned) := dockerRun machine name (outcomes service).run
        if !returned then (machine, started, false)
        else if name ∉ machine.running then (machine, started ++ [name], false)
        else if service.readiness && !(outcomes service).ready then
          (machine, started ++ [name], false)
        else startServices nameOf outcomes rest (started ++ [name]) machine

def stopAndRemove (machine : Machine) (name : String) : Machine :=
  (machine.dockerStop name).1.dockerRemove name

/-- What a failed start takes back: its lease, the containers it recorded and the network. -/
def cleanUp (leaseId : Option String) (started : List String) (machine : Machine) : Machine :=
  let machine := match leaseId with
    | some leaseId => machine.release leaseId
    | none => machine
  (started.reverse.foldl stopAndRemove machine).networkRemove

def publishable (services : List ApplicationService) : List ApplicationService :=
  services.filter fun service => service.publishPort && service.hostPort = 0

/-- `start`: what exists afterwards, and the run unless it raised. -/
def start (nameOf : ApplicationService → String) (services : List ApplicationService)
    (leaseId : String) (outcome : StartOutcome) : Machine × Option ApplicationRun :=
  if !outcome.checked then ({}, none)
  else if publishable services ≠ [] && !outcome.leased then (cleanUp none [] {}, none)
  else
    let lease := if publishable services = [] then none else some leaseId
    let leased : Machine := { leases := lease.toList }
    if !outcome.images || !outcome.network then (cleanUp lease [] leased, none)
    else
      match startServices nameOf outcome.services services [] { leased with network := true } with
      | (machine, started, true) => (machine, some ⟨.running, started, lease, none⟩)
      | (machine, started, false) => (cleanUp lease started machine, none)

/-- `_release_ports`. -/
def releasePorts (machine : Machine) (run : ApplicationRun) : Machine × ApplicationRun :=
  match run.portLeaseId with
  | some leaseId => (machine.release leaseId, { run with portLeaseId := none })
  | none => (machine, run)

/-- `status`. -/
def status (machine : Machine) (run : ApplicationRun) : Machine × ApplicationRun :=
  if run.status ≠ .running then (machine, run)
  else if run.containerNames.all (· ∈ machine.running) then (machine, run)
  else releasePorts machine { run with status := .stopped }

/-- The loop of `stop`: the machine, and the containers that did not stop. -/
def stopAll : List String → Machine → Machine × List String
  | [], machine => (machine, [])
  | name :: rest, machine =>
      let (stopped, done) := machine.dockerStop name
      let (machine, failures) := stopAll rest (stopped.dockerRemove name)
      (machine, if done then failures else name :: failures)

/-- `stop`. -/
def stop (machine : Machine) (run : ApplicationRun) : Machine × ApplicationRun :=
  if run.status = .running then
    let (machine, failures) := stopAll run.containerNames.reverse machine
    let run := if failures = [] then { run with status := .stopped }
      else { run with
        status := .failed, error := some ("停止容器失败: " ++ Text.join ", " failures) }
    releasePorts machine.networkRemove run
  else releasePorts machine run

/-- What happens to a started run. -/
inductive Event where
  | status
  | stop
  | die (names : List String)

def step : Machine × ApplicationRun → Event → Machine × ApplicationRun
  | (machine, run), .status => status machine run
  | (machine, run), .stop => stop machine run
  | (machine, run), .die names => (machine.die names, run)

end DockerApplicationRunner

end ProjectOS.Sandbox
