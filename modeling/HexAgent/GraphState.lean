import HexAgent.Budgets
import HexAgent.Sessions

/-!
The checkpointed state of an agent run, and its codecs. What the services of a process are is not in
it: a run goes on from its state alone, with the budget and the session as they were.
-/
namespace HexAgent.GraphState
open HexAgent.Values HexAgent.Commands HexAgent.Schemas HexAgent.Budgets HexAgent.Sessions

structure Message where
  role : String
  content : String
  deriving DecidableEq

def Message.as_dict (message : Message) : Fields := [("role",.str message.role),("content",.str message.content)]

structure AgentState where
  schema_version : Int
  run_id : String
  task_id : String
  task : String
  context : Fields
  messages : List Message
  budget : Fields
  session_identity : SessionIdentity
  allowed_capabilities : List String
  session_state : StateStore
  kernel_state : StateStore := []
  model : Option String
  last_action : Option Fields
  route : String
  final : Option String
  outcome : Option Fields
  status : String
  error : Option String
  active_delegation_id : Option String
  last_delegation_result : Option Fields

/-! ### The session -/

/-- The task of a session as primitives. -/
def encode_session_state (state : StateStore) : StateStore :=
  match state.get "current_task" with
  | some (.task task) => state.set "current_task" (.value (.dict [("__task__",.dict task.as_dict)]))
  | _ => state

/-- The task of a session from primitives; one without an identifier gets the one drawn. -/
def decode_session_state (hex : String) (state : StateStore) : Except PyError StateStore :=
  match state.get "current_task" with
  | some (.value (.dict encoded)) =>
    match Fields.get encoded "__task__" with
    | .dict task => (TaskEnvelope.from_dict hex task).map fun task => state.set "current_task" (.task task)
    | _ => .ok state
  | _ => .ok state

/-- A task with an identifier is read back as it was. -/
theorem task_back {task : TaskEnvelope} (named : task.task_id ≠ "") (hex : String) :
    TaskEnvelope.from_dict hex task.as_dict = .ok task := by
  have context : ((PyVal.dict task.context).orElse (.dict [])).toDict = .ok task.context := toDict_orElse_dict _
  have metadata : ((PyVal.dict task.metadata).orElse (.dict [])).toDict = .ok task.metadata := toDict_orElse_dict _
  have kept : orText task.task_id hex = task.task_id := if_neg named
  show (do
    let context ← ((PyVal.dict task.context).orElse (.dict [])).toDict
    let metadata ← ((PyVal.dict task.metadata).orElse (.dict [])).toDict
    Except.ok (TaskEnvelope.mk task.user_request (orText task.task_id hex) context metadata)) = _
  rw [context,metadata,kept]
  rfl

/-- The state of a session with a task passes through its encoding. -/
theorem session_back {state : StateStore} {task : TaskEnvelope} (assigned : state.get "current_task" = some (.task task))
    (named : task.task_id ≠ "") (hex : String) : decode_session_state hex (encode_session_state state) = .ok state := by
  have encoded : encode_session_state state =
      state.set "current_task" (.value (.dict [("__task__",.dict task.as_dict)])) := by
    unfold encode_session_state
    rw [assigned]
  have stored : (encode_session_state state).get "current_task" =
      some (.value (.dict [("__task__",.dict task.as_dict)])) := by
    rw [encoded]
    exact Dicts.get_put_self ..
  unfold decode_session_state
  rw [stored]
  show (TaskEnvelope.from_dict hex task.as_dict).map _ = _
  rw [task_back named,encoded]
  show Except.ok (Dicts.put "current_task" _ (Dicts.put "current_task" _ state)) = _
  rw [Dicts.put_put,Dicts.put_same assigned]

theorem encoded_ne_nil {state : StateStore} {task : TaskEnvelope}
    (assigned : state.get "current_task" = some (.task task)) : encode_session_state state ≠ [] := by
  unfold encode_session_state
  rw [assigned]
  intro empty
  have stored := Dicts.get_put_self "current_task" (StateItem.value (.dict [("__task__",.dict task.as_dict)])) state
  rw [show Dicts.put "current_task" _ state = [] from empty] at stored
  cases stored

/-! ### The budget -/

def budget_to_dict (budget : Budget) : Fields :=
  [("max_steps",.int budget.max_steps),("max_parse_errors",.int budget.max_parse_errors),
    ("max_same_tool_calls",.int budget.max_same_tool_calls),("steps",.int budget.steps),
    ("parse_errors",.int budget.parse_errors),
    ("_tool_calls",.dict (budget.tool_calls.map fun entry => (entry.1,.int entry.2)))]

/-- A count that a budget compares; another value cannot be compared. -/
def countOf : PyVal → Except PyError Int
  | .int i => .ok i
  | .bool b => .ok (if b then 1 else 0)
  | v => .error (.TypeError ("'>=' not supported between instances of '" ++ v.cls ++ "' and 'int'"))

def countsOf : List (String × PyVal) → Except PyError (List (String × Int))
  | [] => .ok []
  | (key,v) :: rest => do
    let count ← countOf v
    let counts ← countsOf rest
    .ok ((key,count) :: counts)

/-- The counted calls of a budget. -/
def callsOf : PyVal → Except PyError (List (String × Int))
  | .dict entries => countsOf entries
  | v => .error (noGet v)

def budgetOf (raw : Fields) : Except PyError Budget := do
  let max_steps ← countOf (raw.getD "max_steps" (.int 30))
  let max_parse_errors ← countOf (raw.getD "max_parse_errors" (.int 3))
  let max_same_tool_calls ← countOf (raw.getD "max_same_tool_calls" (.int 3))
  let steps ← countOf (raw.getD "steps" (.int 0))
  let parse_errors ← countOf (raw.getD "parse_errors" (.int 0))
  let tool_calls ← callsOf (raw.getD "_tool_calls" (.dict []))
  .ok { max_steps, max_parse_errors, max_same_tool_calls, steps, parse_errors, tool_calls }

def budget_from_state (state : AgentState) : Except PyError Budget := budgetOf state.budget

theorem counts_back (counts : List (String × Int)) :
    countsOf (counts.map fun entry => (entry.1,.int entry.2)) = .ok counts := by
  induction counts with
  | nil => rfl
  | cons entry rest ih =>
    rw [List.map_cons,countsOf,ih]
    rfl

theorem budget_back (budget : Budget) : budgetOf (budget_to_dict budget) = .ok budget := by
  show (callsOf (.dict (budget.tool_calls.map fun entry => (entry.1,.int entry.2)))).bind _ = _
  rw [callsOf,counts_back]
  rfl

/-! ### A new run -/

def new_agent_state (session : KernelSession) (messages : List Message) (budget : Budget) (model : Option String) :
    Except PyError AgentState :=
  match session.state.get "current_task" with
  | some (.task task) => .ok {
      schema_version := 2
      run_id := session.identity.run_id
      task_id := session.identity.task_id
      task := task.user_request
      context := task.context
      messages
      budget := budget_to_dict budget
      session_identity := session.identity
      allowed_capabilities := sortedNames session.allowed_capabilities
      session_state := encode_session_state session.state
      model
      last_action := none
      route := "guard"
      final := none
      outcome := none
      status := "running"
      error := none
      active_delegation_id := none
      last_delegation_result := none }
  | _ => .error (.ValueError "Cannot initialize graph state from an inactive session.")

end HexAgent.GraphState
