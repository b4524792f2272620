import Mathlib.Logic.Function.Basic
import Mathlib.Logic.Relation

/-! The worker lease of a trace as processes step through the file system. Creating
the file and writing the pid into it are two steps, and so are reading and
unlinking a stale lease. -/
namespace ProjectOS.Orchestration.WorkerLease

/-- The file at the lease path. A body that names no pid reads as none; the inode
tells the file a process has open from one created later under the same path. -/
structure LeaseFile (ι : Type) where
  inode : Nat
  body : Option ι

/-- Where a process is in `claim_worker` and `release_worker`. -/
inductive Pc (ι : Type) where
  | idle
  | contended
  | checking (pid : ι)
  | unlinking
  | retrying
  | creating (inode : Nat)
  | owning (inode : Nat)
  | releasing (inode : Nat)

structure State (ι : Type) where
  lease : Option (LeaseFile ι)
  nextInode : Nat
  alive : ι → Bool
  pc : ι → Pc ι

variable {ι : Type} [DecidableEq ι]

namespace State

def goto (s : State ι) (i : ι) (pc : Pc ι) : State ι :=
  { s with pc := Function.update s.pc i pc }

/-- `os.open(path, O_CREAT | O_EXCL | O_WRONLY)`. -/
def create (s : State ι) (i : ι) : State ι :=
  match s.lease with
  | none =>
      { s with lease := some ⟨s.nextInode, none⟩, nextInode := s.nextInode + 1 }.goto i
        (.creating s.nextInode)
  | some _ => s.goto i .contended

/-- A lease that is gone or names no pid counts as stale. -/
def readLease (s : State ι) (i : ι) : State ι :=
  match s.lease with
  | some ⟨_, some pid⟩ => s.goto i (.checking pid)
  | _ => s.goto i .unlinking

/-- `os.kill(pid, 0)`; a live owner ends the claim with `False`. -/
def checkPid (s : State ι) (i pid : ι) : State ι :=
  if s.alive pid then s.goto i .idle else s.goto i .unlinking

/-- Unlinking the path, whatever file is there by now. -/
def takeOver (s : State ι) (i : ι) : State ι :=
  match s.lease with
  | some _ => { s with lease := none }.goto i .retrying
  | none => s.goto i .idle

/-- The body goes to the file that was opened. -/
def writeBody (s : State ι) (i : ι) (inode : Nat) : State ι :=
  { s with lease := s.lease.map fun file : LeaseFile ι =>
      if file.inode = inode then ⟨inode, some i⟩ else file }.goto i (.owning inode)

/-- `release_worker` goes on only when the lease names its own pid. -/
def readOwn (s : State ι) (i : ι) (inode : Nat) : State ι :=
  if (s.lease.bind (·.body)) = some i then s.goto i (.releasing inode) else s.goto i .idle

def remove (s : State ι) (i : ι) : State ι := { s with lease := none }.goto i .idle

/-- The next file-system step of a process. An idle process claims, an owner releases. -/
def act (s : State ι) (i : ι) : State ι :=
  match s.pc i with
  | .idle => s.create i
  | .contended => s.readLease i
  | .checking pid => s.checkPid i pid
  | .unlinking => s.takeOver i
  | .retrying => s.create i
  | .creating inode => s.writeBody i inode
  | .owning inode => s.readOwn i inode
  | .releasing _ => s.remove i

def die (s : State ι) (i : ι) : State ι := { s with alive := Function.update s.alive i false }

/-- No lease, one of a live owner, or one left behind. -/
def start (alive : ι → Bool) (lease : Option (Option ι)) : State ι where
  lease := lease.map fun body => ⟨0, body⟩
  nextInode := 1
  alive := alive
  pc := fun i => if lease = some (some i) ∧ alive i then .owning 0 else .idle

/-- A claim returned `True` and its process has not released it. -/
def Owns (s : State ι) (i : ι) : Prop := s.alive i = true ∧ ∃ inode, s.pc i = .owning inode

def Exclusive (s : State ι) : Prop := ∀ i j, s.Owns i → s.Owns j → i = j

end State

/-- The file a process made and has not given up. -/
def Pc.Holds : Pc ι → Nat → Prop
  | .creating n, inode => n = inode
  | .owning n, inode => n = inode
  | .releasing n, inode => n = inode
  | _, _ => False

namespace State

/-- The process is about to unlink a lease it judged stale. -/
def TakesOver (s : State ι) (i : ι) : Prop := s.alive i = true ∧ s.pc i = .unlinking

/-- The file at the path is no live process's. -/
def Abandoned (s : State ι) : Prop :=
  ∀ file, s.lease = some file → ∀ j, s.alive j = true → ¬ (s.pc j).Holds file.inode

/-- A live process takes its next step, or one dies. -/
inductive Step (permitted : State ι → ι → Prop) (s : State ι) : State ι → Prop where
  | act {i : ι} (live : s.alive i = true) (allowed : permitted s i) : Step permitted s (s.act i)
  | die {i : ι} : Step permitted s (s.die i)

abbrev Run (permitted : State ι → ι → Prop) : State ι → State ι → Prop :=
  Relation.ReflTransGen (Step permitted)

/-- A process unlinks only an abandoned lease. -/
def Careful (s : State ι) (i : ι) : Prop := s.TakesOver i → s.Abandoned

/-- The live holder of a file is the holder of the lease. -/
structure Held (s : State ι) : Prop where
  fresh : ∀ i inode, (s.pc i).Holds inode → inode < s.nextInode
  own : ∀ i j inode, (s.pc i).Holds inode → (s.pc j).Holds inode → i = j
  lease : ∀ i inode, s.alive i = true → (s.pc i).Holds inode → ∃ body, s.lease = some ⟨inode, body⟩

variable {s : State ι}

omit [DecidableEq ι] in
theorem Held.exclusive (h : s.Held) : s.Exclusive := by
  rintro i j ⟨hi, n, hn⟩ ⟨hj, m, hm⟩
  have hholdsI : (s.pc i).Holds n := by rw [hn]; rfl
  have hholdsJ : (s.pc j).Holds m := by rw [hm]; rfl
  obtain ⟨_, hleaseI⟩ := h.lease i n hi hholdsI
  obtain ⟨_, hleaseJ⟩ := h.lease j m hj hholdsJ
  cases hleaseI.symm.trans hleaseJ
  exact h.own i j n hholdsI hholdsJ

theorem held_start (alive : ι → Bool) (lease : Option (Option ι)) : (start alive lease).Held := by
  have hpc (i : ι) (inode : Nat) (h : ((start alive lease).pc i).Holds inode) :
      inode = 0 ∧ lease = some (some i) := by
    simp only [start] at h
    split at h
    · rename_i howner
      exact ⟨h.symm, howner.1⟩
    · cases h
  refine ⟨fun i inode h => ?_, fun i j inode hi hj => ?_, fun i inode _ h => ?_⟩
  · have := (hpc i inode h).1
    simp only [start]
    omega
  · cases (hpc i inode hi).2.symm.trans (hpc j inode hj).2
    rfl
  · obtain ⟨rfl, hlease⟩ := hpc i inode h
    exact ⟨some i, by rw [start, hlease]; rfl⟩

theorem holds_update {i j : ι} {pc : Pc ι} {inode : Nat}
    (h : (Function.update s.pc i pc j).Holds inode)
    (hpc : pc.Holds inode → (s.pc i).Holds inode) : (s.pc j).Holds inode := by
  by_cases hij : j = i
  · subst hij
    rw [Function.update_self] at h
    exact hpc h
  · rwa [Function.update_of_ne hij] at h

/-- A step that creates no file keeps the invariant where the live holders still
find their file. -/
theorem Held.moved (h : s.Held) {i : ι} {pc : Pc ι} {lease : Option (LeaseFile ι)}
    (hpc : ∀ inode, pc.Holds inode → (s.pc i).Holds inode)
    (hlease : ∀ j inode, s.alive j = true → (Function.update s.pc i pc j).Holds inode →
      ∃ body, lease = some ⟨inode, body⟩) :
    (({ s with lease := lease } : State ι).goto i pc).Held := by
  refine ⟨fun j inode hj => ?_, fun j k inode hj hk => ?_, hlease⟩
  · exact h.fresh j inode (holds_update hj (hpc inode))
  · exact h.own j k inode (holds_update hj (hpc inode)) (holds_update hk (hpc inode))

/-- Only the program counter moves. -/
theorem Held.goto (h : s.Held) {i : ι} {pc : Pc ι}
    (hpc : ∀ inode, pc.Holds inode → (s.pc i).Holds inode) : (s.goto i pc).Held :=
  h.moved hpc fun j inode hj hholds => h.lease j inode hj (holds_update hholds (hpc inode))

theorem Held.create (h : s.Held) {i : ι} : (s.create i).Held := by
  unfold State.create
  split
  · rename_i hnone
    have hpc (j : ι) (inode : Nat)
        (hj : (Function.update s.pc i (.creating s.nextInode) j).Holds inode) :
        (j = i ∧ inode = s.nextInode) ∨ (s.pc j).Holds inode := by
      by_cases hij : j = i
      · subst hij
        rw [Function.update_self] at hj
        exact .inl ⟨rfl, hj.symm⟩
      · rw [Function.update_of_ne hij] at hj
        exact .inr hj
    refine ⟨fun j inode hj => ?_, fun j k inode hj hk => ?_, fun j inode halive hj => ?_⟩
    · have hfresh := h.fresh j inode
      simp only [State.goto]
      rcases hpc j inode hj with ⟨-, rfl⟩ | hold
      · omega
      · have := hfresh hold
        omega
    · rcases hpc j inode hj with ⟨rfl, rfl⟩ | hold
      · rcases hpc k _ hk with ⟨rfl, -⟩ | hold
        · rfl
        · exact absurd (h.fresh k _ hold) (Nat.lt_irrefl _)
      · rcases hpc k inode hk with ⟨rfl, rfl⟩ | hold'
        · exact absurd (h.fresh j _ hold) (Nat.lt_irrefl _)
        · exact h.own j k inode hold hold'
    · rcases hpc j inode hj with ⟨-, rfl⟩ | hold
      · exact ⟨none, rfl⟩
      · obtain ⟨_, hlease⟩ := h.lease j inode halive hold
        rw [hnone] at hlease
        cases hlease
  · exact h.goto nofun

theorem Held.takeOver (h : s.Held) {i : ι} (habandoned : s.Abandoned) : (s.takeOver i).Held := by
  unfold State.takeOver
  split
  · rename_i file hfile
    refine h.moved nofun fun j inode hj hholds => ?_
    have hholds := holds_update hholds nofun
    obtain ⟨body, hlease⟩ := h.lease j inode hj hholds
    cases hfile.symm.trans hlease
    exact absurd hholds (habandoned _ hfile j hj)
  · exact h.goto nofun

theorem Held.writeBody (h : s.Held) {i : ι} {inode : Nat} (hi : s.pc i = .creating inode) :
    (s.writeBody i inode).Held := by
  have hpc (n : Nat) (hn : (Pc.owning inode : Pc ι).Holds n) : (s.pc i).Holds n := by
    rw [hi]
    exact hn
  refine h.moved hpc fun j n hj hholds => ?_
  obtain ⟨body, hlease⟩ := h.lease j n hj (holds_update hholds (hpc n))
  rw [hlease, Option.map_some]
  by_cases hn : n = inode
  · exact ⟨some i, by simp [hn]⟩
  · exact ⟨body, by simp [hn]⟩

theorem Held.readOwn (h : s.Held) {i : ι} {inode : Nat} (hi : s.pc i = .owning inode) :
    (s.readOwn i inode).Held := by
  unfold State.readOwn
  split
  · refine h.goto fun n hn => ?_
    rw [hi]
    exact hn
  · exact h.goto nofun

/-- The releasing process unlinks its own file. -/
theorem Held.remove (h : s.Held) {i : ι} {inode : Nat} (hlive : s.alive i = true)
    (hi : s.pc i = .releasing inode) : (s.remove i).Held := by
  refine h.moved nofun fun j n hj hholds => ?_
  have hown : (s.pc i).Holds inode := by rw [hi]; rfl
  have hother : (s.pc j).Holds n := holds_update hholds nofun
  obtain ⟨_, hleaseI⟩ := h.lease i inode hlive hown
  obtain ⟨_, hleaseJ⟩ := h.lease j n hj hother
  cases hleaseI.symm.trans hleaseJ
  cases h.own i j inode hown hother
  rw [Function.update_self] at hholds
  cases hholds

theorem Held.act (h : s.Held) {i : ι} (hlive : s.alive i = true) (hcareful : s.Careful i) :
    (s.act i).Held := by
  unfold State.act
  split
  · exact h.create
  · unfold State.readLease
    split <;> exact h.goto nofun
  · unfold State.checkPid
    split <;> exact h.goto nofun
  · rename_i hpc
    exact h.takeOver (hcareful ⟨hlive, hpc⟩)
  · exact h.create
  · rename_i hpc
    exact h.writeBody hpc
  · rename_i hpc
    exact h.readOwn hpc
  · rename_i hpc
    exact h.remove hlive hpc

theorem Held.die (h : s.Held) {i : ι} : (s.die i).Held := by
  refine ⟨h.fresh, h.own, fun j inode hj hholds => h.lease j inode ?_ hholds⟩
  simp only [State.die, Function.update_apply] at hj
  split at hj
  · cases hj
  · exact hj

theorem Held.run {s' : State ι} (h : s.Held) (hrun : Run Careful s s') : s'.Held := by
  induction hrun with
  | refl => exact h
  | tail _ hstep ih =>
    cases hstep with
    | act hlive hcareful => exact ih.act hlive hcareful
    | die => exact ih.die

/-- The state after a process has created the lease and written its pid. -/
def claimed (s : State ι) (i : ι) : State ι :=
  { s with lease := some ⟨s.nextInode, some i⟩, nextInode := s.nextInode + 1 }.goto i
    (.owning s.nextInode)

@[simp] theorem goto_pc (s : State ι) (i j : ι) (pc : Pc ι) :
    (s.goto i pc).pc j = if j = i then pc else s.pc j := Function.update_apply ..

@[simp] theorem goto_lease (s : State ι) (i : ι) (pc : Pc ι) : (s.goto i pc).lease = s.lease := rfl

@[simp] theorem goto_alive (s : State ι) (i : ι) (pc : Pc ι) : (s.goto i pc).alive = s.alive := rfl

@[simp] theorem goto_nextInode (s : State ι) (i : ι) (pc : Pc ι) :
    (s.goto i pc).nextInode = s.nextInode := rfl

omit [DecidableEq ι] in
theorem careful_of_ne {i : ι} (h : s.pc i ≠ .unlinking) : s.Careful i :=
  fun htakes => absurd htakes.2 h

/-- A process that finds no lease claims it in two steps. -/
theorem run_claimed {i : ι} (hlive : s.alive i = true) (hfree : s.lease = none)
    (hready : s.pc i = .idle ∨ s.pc i = .retrying) : Run Careful s (s.claimed i) := by
  have hcreate : s.act i = ({ s with
      lease := some ⟨s.nextInode, none⟩
      nextInode := s.nextInode + 1 } : State ι).goto i (.creating s.nextInode) := by
    rcases hready with hpc | hpc <;> simp only [State.act, hpc, State.create, hfree]
  have hwrite : (s.act i).act i = s.claimed i := by
    rw [hcreate]
    simp only [State.act, goto_pc, if_true]
    simp [State.writeBody, State.goto, claimed]
  refine .tail (.single (.act hlive (careful_of_ne ?_))) (hwrite ▸ .act ?_ (careful_of_ne ?_))
  · rcases hready with hpc | hpc <;> simp [hpc]
  · rw [hcreate]
    exact hlive
  · rw [hcreate]
    simp

/-- After a live process lost its lease, two processes come to own it, even if
every later unlink is careful. -/
theorem not_exclusive_of_disturbed {i : ι} (htakes : s.TakesOver i) (hnot : ¬ s.Abandoned) :
    ∃ s', Run Careful (s.act i) s' ∧ ¬ s'.Exclusive := by
  simp only [Abandoned, not_forall, not_not] at hnot
  obtain ⟨file, hfile, j, hlive, hholds⟩ := hnot
  have hij : i ≠ j := by
    rintro rfl
    rw [htakes.2] at hholds
    exact hholds
  have htaken : s.act i = ({ s with lease := none } : State ι).goto i .retrying := by
    simp only [State.act, htakes.2, State.takeOver, hfile]
  have hclaimed : Run Careful (s.act i) ((s.act i).claimed i) :=
    run_claimed (by rw [htaken]; exact htakes.1) (by rw [htaken]; rfl) (by rw [htaken]; simp)
  have hpcJ : ((s.act i).claimed i).pc j = s.pc j := by
    rw [htaken]
    simp [claimed, hij.symm]
  have hliveJ : ((s.act i).claimed i).alive j = true := by
    rw [htaken]
    exact hlive
  have howns : ((s.act i).claimed i).Owns i := by
    rw [htaken]
    exact ⟨htakes.1, s.nextInode, by simp [claimed]⟩
  generalize (s.act i).claimed i = t at hclaimed hpcJ hliveJ howns
  have hboth (s' : State ι) (hi : s'.Owns i) (hj : s'.Owns j) : ¬ s'.Exclusive :=
    fun h => hij (h i j hi hj)
  cases hpc : s.pc j with
  | creating n =>
    rw [hpc] at hpcJ
    have hwrite : t.act j = t.writeBody j n := by simp only [State.act, hpcJ]
    refine ⟨t.act j, hclaimed.tail (.act hliveJ (careful_of_ne (by simp [hpcJ]))), ?_⟩
    obtain ⟨hliveI, n', hn'⟩ := howns
    rw [hwrite]
    exact hboth _ ⟨hliveI, n', by simp [State.writeBody, hij, hn']⟩
      ⟨hliveJ, n, by simp [State.writeBody]⟩
  | owning n =>
    rw [hpc] at hpcJ
    exact ⟨t, hclaimed, hboth t howns ⟨hliveJ, n, hpcJ⟩⟩
  | releasing n =>
    rw [hpc] at hpcJ
    have hremove : t.act j = t.remove j := by simp only [State.act, hpcJ]
    have hreclaimed : Run Careful (t.remove j) ((t.remove j).claimed j) :=
      run_claimed hliveJ rfl (.inl (by simp [State.remove]))
    have hstep : Step Careful t (t.remove j) := hremove ▸ .act hliveJ (careful_of_ne (by simp [hpcJ]))
    obtain ⟨hliveI, n', hn'⟩ := howns
    refine ⟨_, (hclaimed.tail hstep).trans hreclaimed, hboth _ ⟨hliveI, n', ?_⟩
      ⟨hliveJ, t.nextInode, ?_⟩⟩
    · simp [claimed, State.remove, hij, hn']
    · simp only [claimed, goto_pc, if_true]
      rfl
  | _ =>
    rw [hpc] at hholds
    exact hholds.elim

/-- While only abandoned leases are unlinked at most one live process owns the lease,
and the next takeover keeps it so exactly when the lease it unlinks is abandoned. -/
theorem lease_exclusive {alive : ι → Bool} {lease : Option (Option ι)}
    (h : Run Careful (start alive lease) s) :
    s.Exclusive ∧ ∀ i, s.TakesOver i →
      ((∀ s', Run Careful (s.act i) s' → s'.Exclusive) ↔ s.Abandoned) := by
  have hheld := (held_start alive lease).run h
  refine ⟨hheld.exclusive, fun i htakes => ⟨fun hall => ?_, fun habandoned s' hrun => ?_⟩⟩
  · by_contra hnot
    obtain ⟨s', hrun, hshared⟩ := not_exclusive_of_disturbed htakes hnot
    exact hshared (hall s' hrun)
  · exact ((hheld.act htakes.1 fun _ => habandoned).run hrun).exclusive

theorem act_alive (s : State ι) (i : ι) : (s.act i).alive = s.alive := by
  simp only [State.act, State.create, readLease, checkPid, State.takeOver, State.writeBody,
    State.readOwn, State.remove]
  repeat' split
  all_goals rfl

/-- Live processes may take their steps in any order. -/
theorem run_acts (order : List ι) (h : ∀ i ∈ order, s.alive i = true) :
    Run (fun _ _ => True) s (order.foldl act s) := by
  induction order generalizing s with
  | nil => exact .refl
  | cons i rest ih =>
    rw [List.forall_mem_cons] at h
    refine .head (.act h.1 trivial) (ih fun j hj => ?_)
    rw [act_alive]
    exact h.2 j hj

/-- Process 2 is dead, 0 and 1 are alive. -/
def twoAlive (i : Fin 3) : Bool := i ≠ 2

/-- A claimant meets a lease without its pid yet, or two have seen the same stale one. -/
theorem lease_not_exclusive :
    (∃ s, Run (fun _ _ => True) (start twoAlive none) s ∧ ¬ s.Exclusive) ∧
    ∃ s, Run (fun _ _ => True) (start twoAlive (some (some 2))) s ∧ ¬ s.Exclusive := by
  have hshared (s : State (Fin 3)) (h0 : s.Owns 0) (h1 : s.Owns 1) : ¬ s.Exclusive :=
    fun h => absurd (h 0 1 h0 h1) (by decide)
  constructor
  · refine ⟨_, run_acts [0, 1, 1, 1, 1, 1, 0] (by decide), hshared _ ?_ ?_⟩
    · exact ⟨rfl, 1, rfl⟩
    · exact ⟨rfl, 2, rfl⟩
  · refine ⟨_, run_acts [0, 0, 0, 1, 1, 1, 0, 0, 0, 1, 1, 1] (by decide), hshared _ ?_ ?_⟩
    · exact ⟨rfl, 1, rfl⟩
    · exact ⟨rfl, 2, rfl⟩

/-- A process alone claims the lease. -/
theorem claimed_exclusive : ((start twoAlive none).claimed 0).Exclusive ∧
    ∀ i, ((start twoAlive none).claimed 0).TakesOver i →
      ((∀ s', Run Careful (((start twoAlive none).claimed 0).act i) s' → s'.Exclusive) ↔
        ((start twoAlive none).claimed 0).Abandoned) :=
  lease_exclusive (run_claimed rfl rfl (.inl rfl))

end State
end ProjectOS.Orchestration.WorkerLease
