import ProjectOS.Memory.AppendOnly

/-! The memory log of a trace whose writers may be killed while they write a line. -/
namespace ProjectOS.Memory
open Base

/-- The log files, and whether that of the trace ends inside a character. -/
structure CrashLog where
  store : MemoryStore := ∅
  undecodable : Bool := false

namespace MemoryStore

/-- The event that `append` is about to write. -/
def next (store : MemoryStore) (call : AppendCall) : Result MemoryEvent := do
  validateId "trace id" call.traceId
  let events ← store.readUnlocked call.traceId
  MemoryEvent.create (call.event (events.length + 1))

def write (store : MemoryStore) (traceId : String) (cs : List Char) : MemoryStore :=
  store.set traceId ((store.get? traceId).getD "" ++ String.ofList cs)

theorem append_eq_next (store : MemoryStore) (call : AppendCall) :
    store.append call = (store.next call).map fun event =>
      (event, store.write call.traceId event.asDict.line) := by
  unfold append next
  cases validateId "trace id" call.traceId with
  | error error => rfl
  | ok =>
    rw [ok_bind, ok_bind]
    cases store.readUnlocked call.traceId with
    | error error => rfl
    | ok events =>
      rw [ok_bind, ok_bind]
      cases MemoryEvent.create (call.event (events.length + 1)) <;> rfl

end MemoryStore

namespace CrashLog

/-- `_read`; a file that ends inside a character cannot be decoded. -/
def read (log : CrashLog) (traceId : String) : Result (List MemoryEvent) :=
  if log.undecodable then raise "UnicodeDecodeError" else log.store.read traceId

def next (log : CrashLog) (call : AppendCall) : Result MemoryEvent :=
  if log.undecodable then raise "UnicodeDecodeError" else log.store.next call

def append (log : CrashLog) (call : AppendCall) : Result (MemoryEvent × CrashLog) :=
  if log.undecodable then raise "UnicodeDecodeError"
  else (log.store.append call).map fun result => (result.1, { log with store := result.2 })

/-- `append` killed once it has written a part of its line: so many characters, and then some
bytes of the next one if `inside`. -/
def kill (log : CrashLog) (call : AppendCall) (written : Nat) (inside : Bool) : CrashLog :=
  match log.next call with
  | .error _ => log
  | .ok event =>
      { store := log.store.write call.traceId (event.asDict.line.take written)
        undecodable := inside && (event.asDict.line.drop written).head?.any (127 < ·.toNat) }

/-- What follows the last newline of the file. -/
def tail (log : CrashLog) (traceId : String) : List Char :=
  (((log.store.get? traceId).getD "").toList.reverse.takeWhile (· ≠ '\n')).reverse

end CrashLog

inductive MemoryAction where
  | append (call : AppendCall)
  | kill (call : AppendCall) (written : Nat) (inside : Bool)

def MemoryAction.call : MemoryAction → AppendCall
  | .append call => call
  | .kill call _ _ => call

/-- The files with the events whose `append` has returned. -/
structure MemoryRun where
  log : CrashLog := {}
  acked : List MemoryEvent := []

namespace MemoryRun

def apply (run : MemoryRun) : MemoryAction → MemoryRun
  | .append call =>
      match run.log.append call with
      | .ok (event, log) => ⟨log, run.acked ++ [event]⟩
      | .error _ => run
  | .kill call written inside => { run with log := run.log.kill call written inside }

/-- The runs of calls on one trace whose steps are permitted. -/
inductive Reached (traceId : String) (permitted : MemoryRun → MemoryAction → Prop) :
    MemoryRun → Prop where
  | start : Reached traceId permitted {}
  | step {run : MemoryRun} {action : MemoryAction} (previous : Reached traceId permitted run)
      (trace : action.call.traceId = traceId) (allowed : permitted run action) :
      Reached traceId permitted (run.apply action)

/-- Reads return what was acknowledged, in order and under increasing numbers, and neither a
read nor the append of an event that passes its checks raises. -/
structure Survives (traceId : String) (run : MemoryRun) : Prop where
  read : ∃ events, run.log.read traceId = .ok events ∧ run.acked.Sublist events
  append : ∀ call, call.traceId = traceId →
    (∀ sequence, 1 ≤ sequence → (MemoryEvent.create (call.event sequence)).isOk = true) →
      (run.log.append call).isOk = true
  increasing : (run.acked.map (·.sequence)).Pairwise (· < ·)

/-- What a killed writer may leave: no part of a character and no wide line break; behind a
torn line no newline, nor anything that makes it a JSON text. -/
structure Torn (tail line : List Char) (written : Nat) (inside : Bool) : Prop where
  whole : inside = true → ∀ c, (line.drop written).head? = some c → c.toNat ≤ 127
  unbroken : ∀ c ∈ line.take written, Json.wideBreak c = false
  alone : tail ≠ [] → line.take written ≠ [] →
    '\n' ∉ line.take written ∧ Json.loads (String.ofList (tail ++ line.take written)) = none

/-- An append finds no torn line and keeps its own; a killed writer leaves what is forgiven. -/
def Permitted (traceId : String) (run : MemoryRun) : MemoryAction → Prop
  | .append call => call.Kept ∧ run.log.tail traceId = []
  | .kill call written inside => ∀ event, run.log.next call = .ok event →
      Torn (run.log.tail traceId) event.asDict.line written inside

end MemoryRun

end ProjectOS.Memory
