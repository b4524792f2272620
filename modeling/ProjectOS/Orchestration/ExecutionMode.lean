import ProjectOS.Error

/-! The write role the system assigns to a work item. -/
namespace ProjectOS.Orchestration

inductive ExecutionMode where
  | exclusive
  | partitioned
  | integration
  | qualityGate
deriving DecidableEq, Repr

namespace ExecutionMode

def value : ExecutionMode → String
  | exclusive => "exclusive"
  | partitioned => "partitioned"
  | integration => "integration"
  | qualityGate => "quality_gate"

def all : List ExecutionMode := [exclusive, partitioned, integration, qualityGate]

/-- `ExecutionMode(text)`. -/
def parse (text : String) : Result ExecutionMode := enumMember "ExecutionMode" all value text

@[simp] theorem parse_value (mode : ExecutionMode) : parse mode.value = .ok mode := by
  cases mode <;> decide

end ExecutionMode
end ProjectOS.Orchestration
