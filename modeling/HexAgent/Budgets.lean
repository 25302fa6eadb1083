import HexAgent.Json

/-!
Loop budgets: steps, parse errors and repeated tool calls. Parse errors do not
consume steps.
-/
namespace HexAgent.Budgets
open HexAgent.Values HexAgent.Json

structure Budget where
  max_steps : Int := 30
  max_parse_errors : Int := 3
  max_same_tool_calls : Int := 3
  steps : Int := 0
  parse_errors : Int := 0
  tool_calls : List (String × Int) := []

def Budget.record_step (b : Budget) : Budget := { b with steps := b.steps + 1 }
def Budget.step_exceeded (b : Budget) : Bool := b.max_steps < b.steps
def Budget.record_parse_error (b : Budget) : Budget := { b with parse_errors := b.parse_errors + 1 }
def Budget.parse_exceeded (b : Budget) : Bool := b.max_parse_errors ≤ b.parse_errors
def Budget.calls (b : Budget) (key : String) : Int := (Dicts.get key b.tool_calls).getD 0
def Budget.record_tool_call (b : Budget) (key : String) : Budget :=
  { b with tool_calls := Dicts.put key (b.calls key + 1) b.tool_calls }
def Budget.same_tool_exceeded (b : Budget) (key : String) : Bool := b.max_same_tool_calls < b.calls key

/-- The key under which calls of a tool with the same arguments are counted. -/
def tool_key (tool_name : String) (args : PyVal) : Except PyError String :=
  (dumps args).map fun text => tool_name ++ ":" ++ text

end HexAgent.Budgets
