import Mathlib.Data.Finset.Basic
import ProjectOS.Base.Dict
import ProjectOS.Error

/-! Leases of host ports: a registry that the processes of a host share, and the
ports that each process has reserved for itself. -/
namespace ProjectOS.Runtime
open Base

structure PortAllocator where
  start : Nat
  stop : Nat
  reserved : Finset Nat := ∅
  valid : 1 ≤ start ∧ start ≤ stop ∧ stop ≤ 65535

namespace PortAllocator

def portRange (allocator : PortAllocator) : List Nat :=
  List.range' allocator.start (allocator.stop + 1 - allocator.start)

/-- The ports the loop of `allocate` does not pass over; `free` is the outcome of the
test by `bind`. -/
def openPorts (allocator : PortAllocator) (excluded : List Nat) (free : Nat → Bool) : List Nat :=
  allocator.portRange.filter fun port =>
    port ∉ allocator.reserved && port ∉ excluded && free port

def allocate (allocator : PortAllocator) (count : Int) (excluded : List Nat) (free : Nat → Bool) :
    Result (List Nat × PortAllocator) := do
  raiseWhen (count < 1) "count 必须为正整数"
  let available := (allocator.openPorts excluded free).take count.toNat
  if available.length < count.toNat then
    .error (.runtimeError ("端口池 " ++ toString allocator.start ++ "-" ++ toString allocator.stop ++
      " 空闲端口不足，需要 " ++ toString count ++ " 个"))
  else .ok (available, { allocator with reserved := allocator.reserved ∪ available.toFinset })

def release (allocator : PortAllocator) (ports : List Nat) : PortAllocator :=
  { allocator with reserved := allocator.reserved \ ports.toFinset }

end PortAllocator

/-- Times are in microseconds. -/
structure PortLease where
  leaseId : String
  ownerId : String
  ports : List Nat
  pid : Nat
  createdAt : Nat
  expiresAt : Nat
deriving DecidableEq

abbrev Registry := Dict String PortLease

structure PortLifecycleManager where
  ttl : Nat := 3600000000
  valid : 30000000 ≤ ttl := by decide

namespace PortLifecycleManager

/-- The registry after `_reclaim_state`; `alive` is what `os.kill(pid, 0)` finds. -/
def reclaimState (alive : Nat → Bool) (now : Nat) (state : Registry) : Registry :=
  state.filter fun _ lease => now < lease.expiresAt && (0 < lease.pid && alive lease.pid)

def held (state : Registry) : List Nat := state.values.flatMap (·.ports)

/-- `acquire` in the process `pid`, with the fresh id it takes. -/
def acquire (manager : PortLifecycleManager) (alive : Nat → Bool) (now pid : Nat) (hex : String)
    (ownerId : String) (count : Int) (free : Nat → Bool) (allocator : PortAllocator)
    (state : Registry) : Result (PortLease × PortAllocator × Registry) := do
  raiseWhen (Text.blank ownerId) "owner_id 不能为空"
  let leases := reclaimState alive now state
  let (ports, allocator) ← allocator.allocate count (held leases) free
  let lease : PortLease := {
    leaseId := "lease-" ++ hex
    ownerId := ownerId
    ports := ports
    pid := pid
    createdAt := now
    expiresAt := now + manager.ttl }
  .ok (lease, allocator, leases.set lease.leaseId lease)

def renew (manager : PortLifecycleManager) (alive : Nat → Bool) (now : Nat) (leaseId : String)
    (state : Registry) : Result (PortLease × Registry) := do
  let leases := reclaimState alive now state
  match leases.get? leaseId with
  | none => .error (.keyError ("端口租约不存在或已过期: " ++ leaseId))
  | some raw =>
      let lease := { raw with leaseId := leaseId, expiresAt := now + manager.ttl }
      .ok (lease, leases.set leaseId lease)

def release (leaseId : String) (allocator : PortAllocator) (state : Registry) :
    List Nat × PortAllocator × Registry :=
  match state.get? leaseId with
  | none => ([], allocator, state)
  | some raw => (raw.ports, allocator.release raw.ports, state.erase leaseId)

def activeLeases (alive : Nat → Bool) (now : Nat) (state : Registry) : List PortLease × Registry :=
  let leases := reclaimState alive now state
  (leases.values, leases)

def reclaim (alive : Nat → Bool) (now : Nat) (state : Registry) : List String × Registry :=
  let leases := reclaimState alive now state
  (Text.sorted (state.keys.filter (· ∉ leases.keys)), leases)

end PortLifecycleManager

variable {allocator allocator' : PortAllocator} {state state' : Registry} {ports : List Nat}

/-- What an allocation gives: open ports, which are then reserved. -/
theorem PortAllocator.allocate_eq_ok {count : Int} {excluded : List Nat} {free : Nat → Bool}
    (h : allocator.allocate count excluded free = .ok (ports, allocator')) :
    ports.length = count.toNat ∧ 1 ≤ count ∧
      count.toNat ≤ (allocator.openPorts excluded free).length ∧
      (∀ port ∈ ports, port ∈ allocator.portRange ∧ port ∉ allocator.reserved ∧
        port ∉ excluded) ∧
      allocator' = { allocator with reserved := allocator.reserved ∪ ports.toFinset } := by
  unfold allocate at h
  rw [raiseWhen_bind_eq_ok] at h
  obtain ⟨hcount, h⟩ := h
  dsimp only at h
  split at h
  · cases h
  · rename_i henough
    simp only [Except.ok.injEq, Prod.mk.injEq] at h
    obtain ⟨rfl, rfl⟩ := h
    rw [List.length_take] at henough
    refine ⟨by rw [List.length_take]; omega, by simpa using hcount, by omega, fun port hport => ?_, rfl⟩
    obtain ⟨hrange, hopen⟩ := List.mem_filter.mp (List.mem_of_mem_take hport)
    simp only [Bool.and_eq_true, decide_eq_true_eq] at hopen
    exact ⟨hrange, hopen.1⟩

/-- All open ports can be had at once. -/
theorem PortAllocator.allocate_open {excluded : List Nat} {free : Nat → Bool}
    (h : allocator.openPorts excluded free ≠ []) :
    allocator.allocate (allocator.openPorts excluded free).length excluded free =
      .ok (allocator.openPorts excluded free, { allocator with
        reserved := allocator.reserved ∪ (allocator.openPorts excluded free).toFinset }) := by
  have hpos := List.length_pos_iff.mpr h
  have hcount : ¬ (((allocator.openPorts excluded free).length : Int) < 1) := by omega
  unfold allocate
  rw [raiseWhen, decide_eq_false hcount, raiseIf_false, ok_bind, Int.toNat_natCast, List.take_length]
  dsimp only
  rw [if_neg (Nat.lt_irrefl _)]

namespace PortLifecycleManager
variable {alive : Nat → Bool} {now : Nat} {leaseId : String} {lease : PortLease}

theorem get?_reclaimState :
    (reclaimState alive now state).get? leaseId = some lease ↔
      state.get? leaseId = some lease ∧ now < lease.expiresAt ∧ 0 < lease.pid ∧
        alive lease.pid = true := by
  rw [reclaimState, Dict.get?_filter, Option.filter_eq_some_iff]
  simp

theorem mem_held {port : Nat} :
    port ∈ held state ↔ ∃ leaseId lease, state.get? leaseId = some lease ∧ port ∈ lease.ports := by
  simp only [held, Dict.values, List.mem_flatMap, List.mem_map, Prod.exists]
  constructor
  · rintro ⟨lease, ⟨leaseId, _, hmem, rfl⟩, hport⟩
    exact ⟨leaseId, _, Dict.get?_eq_some_iff.mpr hmem, hport⟩
  · intro ⟨leaseId, lease, hget, hport⟩
    exact ⟨lease, ⟨leaseId, lease, Dict.get?_eq_some_iff.mp hget, rfl⟩, hport⟩

variable {manager : PortLifecycleManager} {pid : Nat}

/-- A new lease holds ports that no kept lease holds and that were not reserved. -/
theorem acquire_eq_ok {hex ownerId : String} {count : Int} {free : Nat → Bool}
    (h : manager.acquire alive now pid hex ownerId count free allocator state =
      .ok (lease, allocator', state')) :
    lease.leaseId = "lease-" ++ hex ∧ lease.pid = pid ∧ now < lease.expiresAt ∧ lease.ports ≠ [] ∧
      (∀ port ∈ lease.ports, port ∈ allocator.portRange ∧ port ∉ allocator.reserved ∧
        port ∉ held (reclaimState alive now state)) ∧
      allocator' = { allocator with reserved := allocator.reserved ∪ lease.ports.toFinset } ∧
      state' = (reclaimState alive now state).set lease.leaseId lease := by
  unfold acquire at h
  rw [raiseWhen_bind_eq_ok] at h
  obtain ⟨⟨ports, next⟩, hallocate, h⟩ := bind_eq_ok.mp h.2
  cases h
  obtain ⟨hlength, hcount, -, hfresh, rfl⟩ := PortAllocator.allocate_eq_ok hallocate
  have hvalid := manager.valid
  refine ⟨rfl, rfl, ?_, ?_, hfresh, rfl, rfl⟩
  · show now < now + manager.ttl
    omega
  · intro hempty
    rw [show ports = [] from hempty, List.length_nil] at hlength
    omega

/-- An acquisition that does not raise found enough open ports. -/
theorem acquire_writes {hex ownerId : String} {count : Int} {free : Nat → Bool}
    (h : manager.acquire alive now pid hex ownerId count free allocator state =
      .ok (lease, allocator', state')) :
    Text.blank ownerId = false ∧ 1 ≤ count ∧
      count.toNat ≤ (allocator.openPorts (held (reclaimState alive now state)) free).length := by
  unfold acquire at h
  rw [raiseWhen_bind_eq_ok] at h
  obtain ⟨_, hallocate, -⟩ := bind_eq_ok.mp h.2
  obtain ⟨-, hcount, henough, -⟩ := PortAllocator.allocate_eq_ok hallocate
  exact ⟨h.1, hcount, henough⟩

/-- Every open port can be acquired. -/
theorem exists_acquire {hex ownerId : String} {free : Nat → Bool} {port : Nat}
    (howner : Text.blank ownerId = false)
    (hport : port ∈ allocator.openPorts (held (reclaimState alive now state)) free) :
    ∃ count lease allocator' state', manager.acquire alive now pid hex ownerId count free allocator
      state = .ok (lease, allocator', state') ∧ port ∈ lease.ports := by
  have hallocate := PortAllocator.allocate_open (List.ne_nil_of_mem hport)
  generalize allocator.openPorts (held (reclaimState alive now state)) free = ports at hport hallocate
  let lease : PortLease := ⟨"lease-" ++ hex, ownerId, ports, pid, now, now + manager.ttl⟩
  refine ⟨ports.length, lease, { allocator with reserved := allocator.reserved ∪ ports.toFinset },
    (reclaimState alive now state).set lease.leaseId lease, ?_, hport⟩
  rw [acquire, howner, raiseWhen, raiseIf_false, ok_bind]
  dsimp only
  rw [hallocate]
  rfl

theorem renew_eq_ok (h : manager.renew alive now leaseId state = .ok (lease, state')) :
    ∃ raw, (reclaimState alive now state).get? leaseId = some raw ∧
      lease = { raw with leaseId := leaseId, expiresAt := now + manager.ttl } ∧
      state' = (reclaimState alive now state).set leaseId lease := by
  unfold renew at h
  dsimp only at h
  split at h
  · cases h
  · rename_i raw hraw
    cases h
    exact ⟨raw, hraw, rfl, rfl⟩

end PortLifecycleManager

end ProjectOS.Runtime
