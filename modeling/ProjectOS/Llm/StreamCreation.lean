import Mathlib.Logic.Relation

/-! The creation of a response stream under a deadline. A thread calls the SDK and hands the
result over in a queue of one place, while the caller waits for it until the deadline. What
the two do under the lock are steps of their own, and they may be taken in any order that
the lock allows. -/
namespace ProjectOS.Llm.StreamCreation

/-- `σ` are the streams of the SDK and `ε` its errors. -/
inductive Creation (σ ε : Type) where
  | stream (stream : σ)
  | error (error : ε)
deriving DecidableEq

/-- How far the thread of `create` is. -/
inductive Creator (σ ε : Type) where
  | creating
  | created (result : Creation σ ε)
  | locked (result : Creation σ ε)
  | putting (result : Creation σ ε)
  | put
  | refused (result : Creation σ ε)
  | closing (stream : σ)
  | done

/-- How far the caller is. -/
inductive Caller (σ ε : Type) where
  | waiting
  | received (result : Creation σ ε)
  | timedOut
  | locked
  | abandoned
  | drained (late : Option (Creation σ ε))
  | leaving (late : Option (Creation σ ε))
  | returned (stream : σ)
  | raised (error : ε)
  | timeoutError

/-- The SDK's answer, the threads of the function, and the one that closes a late stream. -/
inductive Thread where
  | sdk
  | creator
  | caller
  | closer
deriving DecidableEq

/-- `created`, `closed` and `dropped` are what happened so far: what the SDK returned, the
streams that were passed to `close`, and the errors that nobody got. -/
structure State (σ ε : Type) where
  creator : Creator σ ε := .creating
  caller : Caller σ ε := .waiting
  queue : Option (Creation σ ε) := none
  abandoned : Bool := false
  handoff : Option Thread := none
  closer : Option σ := none
  created : Option (Creation σ ε) := none
  closed : List σ := []
  dropped : List ε := []

variable {σ ε : Type}

namespace State

/-- The creator is past the lock; an error is dropped there. -/
def leave (s : State σ ε) : Creation σ ε → State σ ε
  | .stream stream => { s with creator := .closing stream, handoff := none }
  | .error error =>
      { s with creator := .done, handoff := none, dropped := s.dropped ++ [error] }

/-- The caller gets what was in the queue. -/
def finish (s : State σ ε) : Creation σ ε → State σ ε
  | .stream stream => { s with caller := .returned stream }
  | .error error => { s with caller := .raised error }

/-- The caller starts a thread for a late stream, and raises. -/
def giveUp (s : State σ ε) : Option (Creation σ ε) → State σ ε
  | some (.stream stream) => { s with caller := .timeoutError, closer := some stream }
  | some (.error error) => { s with caller := .timeoutError, dropped := s.dropped ++ [error] }
  | none => { s with caller := .timeoutError }

end State

/-- The steps of `_create_sync_stream`. The deadline may pass at any moment of the wait. -/
inductive Step (s : State σ ε) : Thread → State σ ε → Prop where
  | returns (result : Creation σ ε) (at_ : s.creator = .creating) :
      Step s .sdk { s with creator := .created result, created := some result }
  | creatorLocks {result : Creation σ ε} (at_ : s.creator = .created result)
      (free : s.handoff = none) :
      Step s .creator { s with creator := .locked result, handoff := some .creator }
  | accepts {result : Creation σ ε} (at_ : s.creator = .locked result)
      (wanted : s.abandoned = false) : Step s .creator { s with creator := .putting result }
  | refuses {result : Creation σ ε} (at_ : s.creator = .locked result)
      (late : s.abandoned = true) : Step s .creator { s with creator := .refused result }
  | puts {result : Creation σ ε} (at_ : s.creator = .putting result) (empty : s.queue = none) :
      Step s .creator { s with creator := .put, queue := some result }
  | unlocks (at_ : s.creator = .put) :
      Step s .creator { s with creator := .done, handoff := none }
  | leaves {result : Creation σ ε} (at_ : s.creator = .refused result) :
      Step s .creator (s.leave result)
  | closes {stream : σ} (at_ : s.creator = .closing stream) :
      Step s .creator { s with creator := .done, closed := s.closed ++ [stream] }
  | gets {result : Creation σ ε} (at_ : s.caller = .waiting) (full : s.queue = some result) :
      Step s .caller { s with caller := .received result, queue := none }
  | finishes {result : Creation σ ε} (at_ : s.caller = .received result) :
      Step s .caller (s.finish result)
  | timesOut (at_ : s.caller = .waiting) : Step s .caller { s with caller := .timedOut }
  | callerLocks (at_ : s.caller = .timedOut) (free : s.handoff = none) :
      Step s .caller { s with caller := .locked, handoff := some .caller }
  | abandons (at_ : s.caller = .locked) :
      Step s .caller { s with caller := .abandoned, abandoned := true }
  | drains (at_ : s.caller = .abandoned) :
      Step s .caller { s with caller := .drained s.queue, queue := none }
  | callerUnlocks {late : Option (Creation σ ε)} (at_ : s.caller = .drained late) :
      Step s .caller { s with caller := .leaving late, handoff := none }
  | givesUp {late : Option (Creation σ ε)} (at_ : s.caller = .leaving late) :
      Step s .caller (s.giveUp late)
  | closesLate {stream : σ} (pending : s.closer = some stream) :
      Step s .closer { s with closer := none, closed := s.closed ++ [stream] }

/-- Any number of steps, of any threads. -/
abbrev Run : State σ ε → State σ ε → Prop := Relation.ReflTransGen fun s s' => ∃ t, Step s t s'

/-- Only the SDK may still do something. -/
def Final (s : State σ ε) : Prop := ∀ t s', Step s t s' → t = .sdk

/-- The deadline has passed for the caller. -/
def Caller.late : Caller σ ε → Bool
  | .timedOut | .locked | .abandoned | .drained _ | .leaving _ | .timeoutError => true
  | _ => false

/-- What holds of the results in every state: a stream that was returned is not closed and
never will be, and what is closed is the created stream, once, after the deadline. -/
structure Safe (s : State σ ε) : Prop where
  returned : ∀ stream, s.caller = .returned stream →
    s.created = some (.stream stream) ∧ s.closed = [] ∧ s.closer = none ∧ s.creator ≠ .closing stream
  raised : ∀ error, s.caller = .raised error → s.created = some (.error error)
  closed : s.closed = [] ∨
    ∃ stream, s.created = some (.stream stream) ∧ s.closed = [stream] ∧ s.caller.late = true

/-- What has become of the result when nothing is left to do. -/
def Settled (s : State σ ε) : Prop :=
  match s.created with
  | some (.stream stream) =>
      (s.caller = .returned stream ∧ s.closed = []) ∨
        (s.caller = .timeoutError ∧ s.closed = [stream])
  | some (.error error) =>
      s.closed = [] ∧ ((s.caller = .raised error ∧ s.dropped = []) ∨
        (s.caller = .timeoutError ∧ s.dropped = [error]))
  | none => s.caller = .timeoutError ∧ s.closed = []

/-! The invariants: the result is in one place, and the flag and the queue change under the lock. -/

def Creator.held : Creator σ ε → List (Creation σ ε)
  | .created result | .locked result | .putting result | .refused result => [result]
  | .closing stream => [.stream stream]
  | _ => []

def Caller.held : Caller σ ε → List (Creation σ ε)
  | .received result => [result]
  | .drained late | .leaving late => late.toList
  | .returned stream => [.stream stream]
  | .raised error => [.error error]
  | _ => []

namespace State

/-- Every place where a result may be. -/
def places (s : State σ ε) : List (Creation σ ε) :=
  s.creator.held ++ (s.queue.toList ++ (s.caller.held ++ (s.closer.toList.map .stream ++
    (s.closed.map .stream ++ s.dropped.map .error))))

end State

/-- The caller has set the flag. -/
def Caller.gone : Caller σ ε → Bool
  | .abandoned | .drained _ | .leaving _ | .timeoutError => true
  | _ => false

def Caller.locks : Caller σ ε → Bool
  | .locked | .abandoned | .drained _ => true
  | _ => false

def Creator.locks : Creator σ ε → Bool
  | .locked _ | .putting _ | .put | .refused _ => true
  | _ => false

structure Control (s : State σ ε) : Prop where
  flag : s.abandoned = s.caller.gone
  creatorLock : s.creator.locks = true ↔ s.handoff = some .creator
  callerLock : s.caller.locks = true ↔ s.handoff = some .caller
  holder : s.handoff = none ∨ s.handoff = some .creator ∨ s.handoff = some .caller
  /-- A put is decided on while the flag is not set. -/
  putting : ∀ result, s.creator = .putting result → s.caller.gone = false
  /-- After the flag is set the queue is emptied and stays empty. -/
  emptied : s.caller.gone = true → s.caller ≠ .abandoned → s.queue = none
  /-- Only after the flag is set results are closed or dropped. -/
  refused : ∀ result, s.creator = .refused result → s.caller.gone = true
  closing : ∀ stream, s.creator = .closing stream → s.caller.gone = true
  late : s.closer ≠ none ∨ s.closed ≠ [] ∨ s.dropped ≠ [] → s.caller.gone = true

theorem control_start : Control ({} : State σ ε) := by
  constructor <;> simp [Caller.gone, Caller.locks, Creator.locks]

attribute [local simp] State.places
  Creator.held.eq_1 Creator.held.eq_2 Creator.held.eq_3 Creator.held.eq_4 Creator.held.eq_5 Creator.held.eq_6
  Caller.held.eq_1 Caller.held.eq_2 Caller.held.eq_3 Caller.held.eq_4 Caller.held.eq_5 Caller.held.eq_6
  Caller.gone.eq_1 Caller.gone.eq_2 Caller.gone.eq_3 Caller.gone.eq_4 Caller.gone.eq_5
  Caller.locks.eq_1 Caller.locks.eq_2 Caller.locks.eq_3 Caller.locks.eq_4
  Creator.locks.eq_1 Creator.locks.eq_2 Creator.locks.eq_3 Creator.locks.eq_4 Creator.locks.eq_5

/-- A result that is somewhere is nowhere else. -/
theorem alone {α : Type} (front : List α) {back : List α} {x : α} {c : Option α}
    (h : front ++ x :: back = c.toList) : front = [] ∧ back = [] ∧ c = some x := by
  cases c with
  | none => simp at h
  | some y =>
    have hlength := congrArg List.length h
    simp only [List.length_append, List.length_cons, Option.toList_some, List.length_nil] at hlength
    have hfront : front = [] := List.length_eq_zero_iff.1 (by omega)
    have hback : back = [] := List.length_eq_zero_iff.1 (by omega)
    subst hfront hback
    simpa using h.symm

/-- No step loses or doubles a result. -/
theorem step_places {s s' : State σ ε} {t : Thread} (hplaces : s.places = s.created.toList)
    (hfresh : s.creator = .creating → s.created = none) (hstep : Step s t s') :
    s'.places = s'.created.toList ∧ (s'.creator = .creating → s'.created = none) := by
  cases hstep with
  | returns result at_ =>
    have hnone := hfresh at_
    simp_all
  | leaves at_ =>
    rename_i result
    have halone := alone [] (by simpa [at_] using hplaces)
    cases result <;> simp_all [State.leave]
  | closes at_ =>
    have halone := alone [] (by simpa [at_] using hplaces)
    simp_all
  | finishes at_ =>
    rename_i result
    cases result <;> simp_all [State.finish]
  | givesUp at_ =>
    rename_i late
    rcases late with _ | (stream | error)
    · simp_all [State.giveUp]
    · have halone := alone (s.creator.held ++ s.queue.toList) (by simpa [at_] using hplaces)
      simp_all [State.giveUp]
    · have halone := alone (s.creator.held ++ s.queue.toList) (by simpa [at_] using hplaces)
      simp_all [State.giveUp]
  | closesLate pending =>
    have halone := alone (s.creator.held ++ (s.queue.toList ++ s.caller.held))
      (by simpa [pending] using hplaces)
    simp_all
  | creatorLocks at_ free | accepts at_ wanted | refuses at_ late | puts at_ empty | unlocks at_
  | gets at_ full | timesOut at_ | callerLocks at_ free | abandons at_ | drains at_
  | callerUnlocks at_ =>
    simp_all

/-- The flag is set under the lock, between the creator's checks. -/
theorem step_control {s s' : State σ ε} {t : Thread} (h : Control s) (hstep : Step s t s') :
    Control s' := by
  obtain ⟨hflag, hcreator, hcaller, hholder, hputting, hemptied, hrefused, hclosing, hlate⟩ := h
  cases hstep with
  | leaves at_ =>
    rename_i result
    cases result <;> constructor <;> simp_all [State.leave]
  | finishes at_ =>
    rename_i result
    cases result <;> constructor <;> simp_all [State.finish]
  | abandons at_ =>
    have hlock := hcaller.1 (by simp [at_])
    have hother : ∀ result, s.creator ≠ .putting result := fun result h => by simp_all
    constructor <;> simp_all
  | givesUp at_ =>
    rename_i late
    rcases late with _ | (stream | error) <;> constructor <;> simp_all [State.giveUp]
  | returns result at_ | closes at_ | closesLate pending | creatorLocks at_ free | accepts at_ wanted
  | refuses at_ late | puts at_ empty | unlocks at_ | gets at_ full | timesOut at_
  | callerLocks at_ free | drains at_ | callerUnlocks at_ =>
    constructor <;> simp_all

/-! Runs. -/

structure Inv (s : State σ ε) : Prop extends Control s where
  places : s.places = s.created.toList
  fresh : s.creator = .creating → s.created = none

theorem inv_run {s : State σ ε} (hrun : Run {} s) : Inv s := by
  induction hrun with
  | refl => exact ⟨control_start, rfl, fun _ => rfl⟩
  | tail _ hstep ih =>
    obtain ⟨t, hstep⟩ := hstep
    obtain ⟨hplaces, hfresh⟩ := step_places ih.places ih.fresh hstep
    exact ⟨step_control ih.toControl hstep, hplaces, hfresh⟩

theorem Inv.safe {s : State σ ε} (h : Inv s) : Safe s := by
  have hplaces := h.places
  refine ⟨fun stream hreturned => ?_, fun error hraised => ?_, ?_⟩
  · have halone := alone (s.creator.held ++ s.queue.toList)
      (by simpa [hreturned] using hplaces)
    refine ⟨halone.2.2, ?_, ?_, ?_⟩
    · simp_all
    · simp_all
    · intro hclosing
      simp_all
  · have halone := alone (s.creator.held ++ s.queue.toList)
      (by simpa [hraised] using hplaces)
    exact halone.2.2
  · cases hclosed : s.closed with
    | nil => exact .inl rfl
    | cons stream more =>
      right
      have halone := alone
        (s.creator.held ++ (s.queue.toList ++ (s.caller.held ++ s.closer.toList.map .stream)))
        (by simpa [hclosed] using hplaces)
      have hgone : s.caller.gone = true := h.late (.inr (.inl (by simp [hclosed])))
      have hmore : more = [] := by simp_all
      refine ⟨stream, halone.2.2, by rw [hmore], ?_⟩
      revert hgone
      cases s.caller <;> simp [Caller.late]

/-- Where no thread can go on, all have come to an end. -/
theorem Inv.ended {s : State σ ε} (h : Inv s) (hfinal : Final s) :
    (s.creator = .creating ∨ s.creator = .done) ∧ s.closer = none ∧
      ((∃ stream, s.caller = .returned stream) ∨ (∃ error, s.caller = .raised error) ∨
        s.caller = .timeoutError) := by
  have hcaller : s.caller.locks = false := by
    cases hpc : s.caller with
    | locked => cases hfinal _ _ (.abandons hpc)
    | abandoned => cases hfinal _ _ (.drains hpc)
    | drained late => cases hfinal _ _ (.callerUnlocks hpc)
    | _ => simp
  have hcreator : s.creator.locks = false := by
    cases hpc : s.creator with
    | locked result =>
      cases hflag : s.abandoned with
      | false => cases hfinal _ _ (.accepts hpc hflag)
      | true => cases hfinal _ _ (.refuses hpc hflag)
    | putting result =>
      have halone := alone [] (by simpa [hpc] using h.places)
      cases hfinal _ _ (.puts hpc (by simp_all))
    | put => cases hfinal _ _ (.unlocks hpc)
    | refused result => cases hfinal _ _ (.leaves hpc)
    | _ => simp
  have hfree : s.handoff = none := by
    rcases h.holder with hfree | hheld | hheld
    · exact hfree
    · rw [h.creatorLock.2 hheld] at hcreator
      cases hcreator
    · rw [h.callerLock.2 hheld] at hcaller
      cases hcaller
  refine ⟨?_, ?_, ?_⟩
  · cases hpc : s.creator with
    | creating => exact .inl rfl
    | done => exact .inr rfl
    | created result => cases hfinal _ _ (.creatorLocks hpc hfree)
    | closing stream => cases hfinal _ _ (.closes hpc)
    | _ => simp [hpc] at hcreator
  · cases hcloser : s.closer with
    | none => rfl
    | some stream => cases hfinal _ _ (.closesLate hcloser)
  · cases hpc : s.caller with
    | waiting => cases hfinal _ _ (.timesOut hpc)
    | received result => cases hfinal _ _ (.finishes hpc)
    | timedOut => cases hfinal _ _ (.callerLocks hpc hfree)
    | leaving late => cases hfinal _ _ (.givesUp hpc)
    | returned stream => exact .inl ⟨stream, rfl⟩
    | raised error => exact .inr (.inl ⟨error, rfl⟩)
    | timeoutError => exact .inr (.inr rfl)
    | _ => simp [hpc] at hcaller

theorem Inv.settled {s : State σ ε} (h : Inv s) (hfinal : Final s) : Settled s := by
  obtain ⟨hcreator, hcloser, hcaller⟩ := h.ended hfinal
  have hplaces := h.places
  have hheld : s.creator.held = [] := by
    rcases hcreator with hpc | hpc <;> simp [hpc]
  unfold Settled
  rcases hcaller with ⟨stream, hpc⟩ | ⟨error, hpc⟩ | hpc
  · have halone := alone (s.queue.toList) (by simpa [hpc, hheld, hcloser] using hplaces)
    rw [halone.2.2]
    simp_all
  · have halone := alone (s.queue.toList) (by simpa [hpc, hheld, hcloser] using hplaces)
    rw [halone.2.2]
    simp_all
  · have hqueue : s.queue = none := h.emptied (by simp [hpc]) (by simp [hpc])
    have hlate : s.closed.map Creation.stream ++ s.dropped.map Creation.error =
        s.created.toList := by
      simpa [hpc, hheld, hcloser, hqueue] using hplaces
    cases hclosed : s.closed with
    | nil =>
      cases hdropped : s.dropped with
      | nil => cases hcreated : s.created <;> simp_all
      | cons error more =>
        have halone := alone [] (by simpa [hclosed, hdropped] using hlate)
        rw [halone.2.2]
        simp_all
    | cons stream more =>
      have halone := alone [] (by simpa [hclosed] using hlate)
      rw [halone.2.2]
      simp_all

/-! Every run comes to an end. -/

def Creator.rank : Creator σ ε → Nat
  | .creating => 6
  | .created _ => 5
  | .locked _ => 4
  | .putting _ | .refused _ => 3
  | .put => 2
  | .closing _ => 1
  | .done => 0

def Caller.rank : Caller σ ε → Nat
  | .waiting => 8
  | .timedOut => 7
  | .locked => 6
  | .abandoned => 5
  | .drained _ => 4
  | .leaving _ => 3
  | .received _ => 1
  | .returned _ | .raised _ | .timeoutError => 0

def State.rank (s : State σ ε) : Nat := s.creator.rank + s.caller.rank + s.closer.toList.length

theorem step_rank {s s' : State σ ε} {t : Thread} (hstep : Step s t s') : s'.rank < s.rank := by
  cases hstep with
  | leaves at_ =>
    rename_i result
    cases result <;> simp [State.rank, State.leave, at_, Creator.rank]
  | finishes at_ =>
    rename_i result
    cases result <;> simp [State.rank, State.finish, at_, Caller.rank]
  | givesUp at_ =>
    rename_i late
    rcases late with _ | (stream | error) <;> simp [State.rank, State.giveUp, at_, Caller.rank] <;>
      omega
  | closesLate pending => simp [State.rank, pending]
  | returns result at_ | closes at_ | creatorLocks at_ free | accepts at_ wanted
  | refuses at_ late | puts at_ empty | unlocks at_ | gets at_ full | timesOut at_
  | callerLocks at_ free | abandons at_ | drains at_ | callerUnlocks at_ =>
    simp [State.rank, at_, Creator.rank, Caller.rank]

/-- In every interleaving the created stream is returned and not closed, or it is closed once
and the caller has timed out; an error is raised or dropped after the deadline; and no run goes
on for ever. -/
theorem streams_settled {s : State σ ε} (hrun : Run {} s) :
    Safe s ∧ (Final s → Settled s) ∧ ∀ t s', Step s t s' → s'.rank < s.rank :=
  ⟨(inv_run hrun).safe, (inv_run hrun).settled, fun _ _ => step_rank⟩

/-- The response arrives between the deadline and the flag. -/
def lateState : State String Unit where
  creator := .done
  caller := .timeoutError
  abandoned := true
  created := some (.stream "resp-1")
  closed := ["resp-1"]

theorem lateState_reached : Run ({} : State String Unit) lateState := by
  refine .head ⟨_, .returns (.stream "resp-1") rfl⟩ ?_
  refine .head ⟨_, .timesOut rfl⟩ ?_
  refine .head ⟨_, .creatorLocks rfl rfl⟩ ?_
  refine .head ⟨_, .accepts rfl rfl⟩ ?_
  refine .head ⟨_, .puts rfl rfl⟩ ?_
  refine .head ⟨_, .unlocks rfl⟩ ?_
  refine .head ⟨_, .callerLocks rfl rfl⟩ ?_
  refine .head ⟨_, .abandons rfl⟩ ?_
  refine .head ⟨_, .drains rfl⟩ ?_
  refine .head ⟨_, .callerUnlocks rfl⟩ ?_
  refine .head ⟨_, .givesUp rfl⟩ ?_
  exact .head ⟨_, .closesLate rfl⟩ .refl

theorem late_stream_settled : lateState.caller = .timeoutError ∧ Safe lateState :=
  ⟨rfl, (streams_settled lateState_reached).1⟩

end ProjectOS.Llm.StreamCreation
