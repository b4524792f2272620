import ProjectOS.Base.Latest
import ProjectOS.Base.Pattern
import ProjectOS.Orchestration.Failure

/-! The evidence that the sandbox leaves of its checks. -/
namespace ProjectOS.Orchestration
open Base

inductive SandboxStatus where
  | passed
  | failed
  | setupFailed
  | timedOut
deriving DecidableEq, Repr

def SandboxStatus.value : SandboxStatus → String
  | passed => "passed"
  | failed => "failed"
  | setupFailed => "setup_failed"
  | timedOut => "timed_out"

/-- `createdAt` is compared as a text. -/
structure SandboxEvidence where
  id : String
  traceId : String
  workItemId : String
  checkId : String
  runtimeProfile : Option String := none
  status : SandboxStatus
  exitCode : Option Int := none
  stdout : String := ""
  stderr : String := ""
  createdAt : String
  message : Option String := none
deriving DecidableEq, Repr

namespace SandboxEvidence

/-- The evidence that a work item has of one check. -/
def ofCheck (workItemId checkId : String) (history : List SandboxEvidence) :
    List SandboxEvidence :=
  (history.filter (·.workItemId = workItemId)).filter (·.checkId = checkId)

/-- No evidence of its item and its check is later. -/
def IsLatest (workItemId : String) (history : List SandboxEvidence) (e : SandboxEvidence) : Prop :=
  Latest createdAt (ofCheck workItemId e.checkId history) e

theorem mem_ofCheck {workItemId checkId : String} {history : List SandboxEvidence}
    {e : SandboxEvidence} :
    e ∈ ofCheck workItemId checkId history ↔
      e ∈ history ∧ e.workItemId = workItemId ∧ e.checkId = checkId := by
  simp [ofCheck, and_comm]

/-- `latest_by_check`, filled in the order of the dates. -/
def latestByCheck (workItemId : String) (history : List SandboxEvidence) :
    Dict String SandboxEvidence :=
  Dict.ofList ((sortedBy createdAt (history.filter (·.workItemId = workItemId))).map fun e =>
    (e.checkId, e))

theorem get?_latestByCheck {workItemId checkId : String} {history : List SandboxEvidence}
    {e : SandboxEvidence} :
    (latestByCheck workItemId history).get? checkId = some e ↔
      Latest createdAt (ofCheck workItemId checkId history) e := by
  unfold latestByCheck
  rw [get?_ofList_keyed, filter_sortedBy, getLast?_sortedBy]
  rfl

/-- The values of the dictionary are the latest evidence of every check. -/
theorem mem_latestByCheck {workItemId : String} {history : List SandboxEvidence}
    {e : SandboxEvidence} :
    e ∈ (latestByCheck workItemId history).values ↔ IsLatest workItemId history e := by
  constructor
  · intro h
    obtain ⟨⟨checkId, e⟩, hentry, rfl⟩ := List.mem_map.1 h
    have hlatest := get?_latestByCheck.1 (Dict.get?_eq_some_iff.2 hentry)
    have hcheck : e.checkId = checkId := (mem_ofCheck.1 hlatest.mem).2.2
    subst hcheck
    exact hlatest
  · intro h
    exact List.mem_map.2 ⟨_, Dict.get?_eq_some_iff.1 (get?_latestByCheck.2 h), rfl⟩

theorem latestByCheck_eq_nil_iff {workItemId : String} {history : List SandboxEvidence} :
    (latestByCheck workItemId history).values = [] ↔
      ∀ e ∈ history, e.workItemId ≠ workItemId := by
  constructor
  · intro hnil e he hitem
    have hmem : e ∈ ofCheck workItemId e.checkId history := mem_ofCheck.2 ⟨he, hitem, rfl⟩
    obtain ⟨x, hx⟩ := exists_latest createdAt (List.ne_nil_of_mem hmem)
    have hx' := List.mem_map_of_mem (f := Prod.snd) (Dict.get?_eq_some_iff.1 (get?_latestByCheck.2 hx))
    rw [Dict.values] at hnil
    rw [hnil] at hx'
    exact absurd hx' List.not_mem_nil
  · intro hnone
    refine List.eq_nil_iff_forall_not_mem.2 fun e he => ?_
    obtain ⟨hmem, hitem, -⟩ := mem_ofCheck.1 (mem_latestByCheck.1 he).mem
    exact hnone e hmem hitem

/-! An empty suite. -/

section emptySuite

variable (w : WordChars)

/-- `\b` behind a word character. -/
def wordEnd : Pattern Unit := fun text =>
  if text.head?.all (!w.isWord ·) then [((), text)] else []

/-- The letters of a text as they are. -/
def letters (text : String) : Pattern Unit := Pattern.literal (fun c => c) text.toList

/-- `?` after one letter. -/
def optionalLetter (c : Char) : Pattern Unit :=
  Pattern.either (letters c.toString) (pure ())

/-- `no tests? ran\b`. -/
def noTestsRan : Pattern Unit := do
  letters "no test"
  optionalLetter 's'
  letters " ran"
  wordEnd w

/-- `verb\s+0\s+nouns?\b`. -/
def zeroOf (verb noun : String) : Pattern Unit := do
  letters verb
  let _ ← Pattern.greedy1 Text.isSpace
  letters "0"
  let _ ← Pattern.greedy1 Text.isSpace
  letters noun
  optionalLetter 's'
  wordEnd w

def matchesSomewhere (opens : Option Char → Bool) (p : Pattern Unit) (text : String) : Bool :=
  !(Pattern.findIter opens p text.toList).isEmpty

/-- `_is_empty_test_evidence`. -/
def isEmptyTestEvidence (e : SandboxEvidence) : Bool :=
  let text := Text.lower (Text.join "\n" [e.stdout, e.stderr, e.message.getD ""])
  matchesSomewhere w.wordStart (noTestsRan w) text ||
    matchesSomewhere (fun _ => true) (zeroOf w "ran" "test") text ||
    matchesSomewhere (fun _ => true) (zeroOf w "collected" "item") text

example : isEmptyTestEvidence asciiWords {
    id := "ev-1", traceId := "tr", workItemId := "test", checkId := "unit", status := .passed
    stderr := "Ran 0 tests in 0.000s", createdAt := "1" } = true := by
  decide +kernel

end emptySuite

end SandboxEvidence
end ProjectOS.Orchestration
