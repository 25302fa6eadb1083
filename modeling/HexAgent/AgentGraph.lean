import HexAgent.EventLog
import HexAgent.GraphState
import HexAgent.JsonGate

/-!
The graph of a single agent: its nodes and the edges between them. A node restores the session from
the state, acts through the session, and leaves the session in the state again; so a run goes on from
its state in a fresh session at any point between two nodes.
-/
namespace HexAgent.AgentGraph
open HexAgent.Values HexAgent.Json HexAgent.JsonGate HexAgent.Commands HexAgent.Schemas HexAgent.Budgets
open HexAgent.Sessions HexAgent.EventLog HexAgent.GraphState Dicts

/-! ### The outside -/

inductive NodeName where
  | guard
  | agent
  | tool
  | delegate
  | finish
  | fail
  deriving DecidableEq, Repr

/-- A delegation service reads the session that delegates. -/
abbrev DelegationService (ω : Type) :=
  KernelSession → String → DelegationSpec → DelegationPolicy → ω → Except PyError DelegationResult × ω

/-- What the nodes of one process reach: the kernel with its capabilities, a delegation service if there is one, the
    reader of JSON and the identifier drawn next. Kernel and service share a world of their own; they may return
    or raise anything. -/
structure Services (ω : Type) where
  interp : Interpreter
  available : Finset String
  uuid : ω → String
  kernel : String → Fields → ToolCallContext → ω → Except PyError Fields × ω
  delegation_service : Option (DelegationService ω)

/-- What a run does outside of its state: a call of a node that reaches the kernel, or an event of the run. -/
inductive Deed where
  | called (node : NodeName) (name : String) (args : Fields)
  | published (topic : String) (payload : Fields)

/-- The process that a run is in, and what the run did so far. -/
structure Desk (ω : Type) where
  services : Services ω
  session : KernelSession
  world : ω
  log : List Deed := []

section
variable {ω : Type}

namespace Desk
variable (desk : Desk ω)

def publish (topic : String) (payload : Fields) : Desk ω := { desk with log := desk.log ++ [.published topic payload] }

/-- `session.execute_tool(name, args)` in a node. -/
def execute_tool (node : NodeName) (name : String) (args : Fields) : Except PyError (Fields × Desk ω) :=
  if desk.session.is_active then
    match desk.services.kernel name args desk.session.call_context desk.world with
    | (.ok result,world) => .ok (result,{ desk with world, log := desk.log ++ [.called node name args] })
    | (.error exc,_) => .error exc
  else .ok (desk.session.notActive name,desk)

/-- `session.complete_task(result, status=status)`. -/
def complete_task (result : PyVal) (status : String) : Except PyError (Fields × Desk ω) :=
  if desk.session.is_active then
    .ok (desk.session.outcome result status,
      { desk with session := desk.session.closing result status }.publish
        (if status = "completed" then "task.completed" else "task.failed")
        (merge desk.session.call_context.event_fields [("status",.str status)]))
  else .error (.RuntimeError "Session task lifecycle is already closed.")

def fail_task (reason : String) (extra : Fields) : Except PyError (Fields × Desk ω) :=
  desk.complete_task (.dict (merge [("reason",.str reason)] extra)) "failed"

def _restore_session (state : AgentState) : Except PyError (Desk ω) := do
  let raw := if state.session_state = [] then state.kernel_state else state.session_state
  let restored ← decode_session_state (desk.services.uuid desk.world) raw
  .ok { desk with session := { desk.session with state := restored } }

def _session_snapshot : StateStore := encode_session_state desk.session.state

def _emit (topic : String) (state : AgentState) (payload : Fields) : Except PyError (Desk ω) := do
  let budget ← budget_from_state state
  .ok (desk.publish topic (merge (merge desk.session.call_context.event_fields [("step",.int budget.steps)]) payload))

end Desk

/-! ### The nodes -/

/-- Stop before the next call of the model once the budget of valid actions is used up. -/
def guard_node (state : AgentState) (desk : Desk ω) : Except PyError (AgentState × Desk ω) := do
  let desk ← desk._restore_session state
  let budget ← budget_from_state state
  if budget.max_steps ≤ budget.steps then
    let error := "step budget exceeded"
    let desk ← desk._emit "graph.budget_blocked" state [("reason",.str error)]
    .ok ({ state with route := "fail", error := some error, session_state := desk._session_snapshot },desk)
  else .ok ({ state with route := "agent", session_state := desk._session_snapshot },desk)

/-- `str((response.get("data") or {}).get("content", ""))`. -/
def contentOf (response : Fields) : Except PyError String :=
  match (response.get "data").orElse (.dict []) with
  | .dict data => strOf (Fields.getD data "content" (.str ""))
  | v => .error (noGet v)

/-- The arguments of the call of the model. -/
def chatArgs (state : AgentState) : Fields :=
  [("messages",.list (state.messages.map fun message => .dict message.as_dict)),("model",ofOption state.model),
    ("json_mode",.bool true)]

/-- The route of an action; none for an unknown one. -/
def routeOf (verb : String) : Option String :=
  if verb = "tool" then some "tool"
  else if verb = "delegate" then some "delegate"
  else if verb = "final" then some "finish"
  else none

/-- After an output that is no action. -/
def misread (state : AgentState) (desk : Desk ω) (messages : List Message) (message stage : String) : Except PyError (AgentState × Desk ω) := do
  let budget ← budget_from_state state
  let budget := budget.record_parse_error
  let desk ← desk._emit "graph.parse_error" state [("error",.str message),("stage",.str stage)]
  if budget.parse_exceeded then
    .ok ({ state with
      messages, budget := budget_to_dict budget, route := "fail", error := some "too many parse errors",
      session_state := desk._session_snapshot },desk)
  else
    .ok ({ state with
      messages := messages ++ [⟨"user",build_retry_message stage⟩], budget := budget_to_dict budget, route := "guard",
      session_state := desk._session_snapshot },desk)

/-- After an action was parsed. -/
def decided (state : AgentState) (desk : Desk ω) (messages : List Message) (action : Fields) : Except PyError (AgentState × Desk ω) := do
  let budget ← budget_from_state state
  let budget := budget.record_step
  let verb := action.textOf "action"
  let desk ← desk._emit "graph.step" state [("action",.str verb),("next_step",.int budget.steps)]
  let update := { state with
    messages, budget := budget_to_dict budget, last_action := some action, session_state := desk._session_snapshot }
  match routeOf verb with
  | some route => .ok ({ update with route },desk)
  | none => .ok ({ update with
      messages := messages ++ [⟨"user","Unknown 'action'. Use 'tool' or 'final'."⟩], route := "guard" },desk)

/-- Parse one action from an output of the model. -/
def understood (state : AgentState) (desk : Desk ω) (content : String) : Except PyError (AgentState × Desk ω) :=
  let messages := state.messages ++ [⟨"assistant",content⟩]
  match parse_action desk.services.interp content with
  | .ok action => decided state desk messages action
  | .error (.JsonGateError message stage _) => misread state desk messages message stage
  | .error exc => .error exc

/-- Call the model, parse one action, and keep the budgets. -/
def agent_node (state : AgentState) (desk : Desk ω) : Except PyError (AgentState × Desk ω) := do
  let desk ← desk._restore_session state
  let (response,desk) ← desk.execute_tool .agent "llm.chat" (chatArgs state)
  let content ← contentOf response
  understood state desk content

/-- `json.dumps(result, ensure_ascii=False, default=str)`. -/
def dumpResult (result : Fields) : Except PyError String :=
  writeJson dumpText (fun o => .ok (dumpText o.text)) (.dict result)

/-- The arguments of a tool action; what is no dictionary is dropped. -/
def argsOf (action : Fields) : Fields :=
  match (action.get "args").orElse (.dict []) with
  | .dict args => args
  | _ => []

/-- Execute the tool that was asked for, unless it was called too often. -/
def tool_node (state : AgentState) (desk : Desk ω) : Except PyError (AgentState × Desk ω) := do
  let desk ← desk._restore_session state
  let action := state.last_action.getD []
  let name := action.textOf "tool"
  let args := argsOf action
  let budget ← budget_from_state state
  let key ← tool_key name (.dict args)
  let budget := budget.record_tool_call key
  if budget.same_tool_exceeded key then
    let error := "repeated the same tool call too many times"
    let desk ← desk._emit "graph.budget_blocked" state [("reason",.str error),("tool",.str name)]
    .ok ({ state with
      budget := budget_to_dict budget, route := "fail", error := some error,
      session_state := desk._session_snapshot },desk)
  else
    let (result,desk) ← desk.execute_tool .tool name args
    let text ← dumpResult result
    .ok ({ state with
      messages := state.messages ++ [⟨"user",text⟩], budget := budget_to_dict budget, route := "guard",
      session_state := desk._session_snapshot },desk)

/-- The state and the process of a delegation that fails. -/
def undelegated (state : AgentState) (desk : Desk ω) (error : String) : AgentState × Desk ω :=
  ({ state with route := "fail", error := some error, session_state := desk._session_snapshot },desk)

/-- Convert the policy and call the service. -/
def attempted (service : DelegationService ω) (desk : Desk ω) (target : String) (spec : DelegationSpec)
    (policy : Fields) : Except PyError DelegationResult × ω :=
  match DelegationPolicy.from_dict policy with
  | .ok policy => service desk.session target spec policy desk.world
  | .error exc => (.error exc,desk.world)

/-- Delegate through the service; an exception that has a text fails the run, a result is observed. -/
def consulted (service : DelegationService ω) (state : AgentState) (desk : Desk ω) (target : String)
    (spec : DelegationSpec) (policy : Fields) : Except PyError (AgentState × Desk ω) :=
  match attempted service desk target spec policy with
  | (.error exc,world) => do
    let text ← desk.services.interp.describe exc
    .ok (undelegated state { desk with world } ("delegation failed at the application boundary: " ++ text))
  | (.ok result,world) => do
    let observation := result.as_dict
    let text ← dumpResult observation
    .ok ({ state with
      messages := state.messages ++ [⟨"user","DELEGATION_RESULT: " ++ text⟩], active_delegation_id := none,
      last_delegation_result := some observation, route := "guard", session_state := desk._session_snapshot },
      { desk with world })

/-- Convert the specification, outside of any guard, and delegate. -/
def specified (service : DelegationService ω) (state : AgentState) (desk : Desk ω) (target : String)
    (spec_raw policy_raw : Fields) : Except PyError (AgentState × Desk ω) := do
  let spec ← DelegationSpec.from_dict spec_raw
  if spec.objective = "" then .ok (undelegated state desk "delegation objective must not be empty")
  else consulted service state desk target spec policy_raw

/-- Check the action and delegate. -/
def delegated (service : DelegationService ω) (state : AgentState) (desk : Desk ω) :
    Except PyError (AgentState × Desk ω) :=
  let action := state.last_action.getD []
  let target := action.textOf "target"
  let malformed := undelegated state desk "delegate action requires target, object spec, and optional object policy"
  if target = "" then .ok malformed
  else match (action.get "spec").orElse (.dict []),(action.get "policy").orElse (.dict []) with
    | .dict spec_raw,.dict policy_raw => specified service state desk target spec_raw policy_raw
    | _,_ => .ok malformed

def delegation_node (state : AgentState) (desk : Desk ω) : Except PyError (AgentState × Desk ω) := do
  let desk ← desk._restore_session state
  match desk.services.delegation_service with
  | none => .ok (undelegated state desk "delegation is not configured")
  | some service => delegated service state desk

/-- `bool` of what a session keeps under a key. -/
def flagged (state : StateStore) (key : String) : Bool :=
  match state.get key with
  | none => false
  | some (.task _) => true
  | some (.value v) => v.truthy

def requires_validation (state : StateStore) : Bool := flagged state "code_changed"
def has_passing_validation (state : StateStore) : Bool := flagged state "validation_passed"

/-- The reason that blocks a final, if there is one. -/
def check_finish (state : StateStore) (finish_reason : PyVal) : Option String :=
  if requires_validation state ∧ ¬ has_passing_validation state ∧ finish_reason ≠ .str "blocker" then
    some "Code changed but no passing validation. Validate or finish with finish_reason='blocker'."
  else none

/-- The model finished with an error. -/
def errored (action : Fields) : Prop := (action.get "finish_reason").text = "error"

instance : DecidablePred errored := fun action => inferInstanceAs (Decidable ((action.get "finish_reason").text = "error"))

/-- Fail on an error, else apply the finish gate and close the task. -/
def finish_node (state : AgentState) (desk : Desk ω) : Except PyError (AgentState × Desk ω) := do
  let desk ← desk._restore_session state
  let action := state.last_action.getD []
  if errored action then
    let reason := orText (action.textOf "message") "agent finished with an error"
    let (outcome,desk) ← desk.fail_task reason []
    let desk ← desk._emit "graph.completed" state [("status",.str "failed"),("reason",.str reason)]
    .ok ({ state with
      final := some reason, outcome := some outcome, status := "failed", route := "end",
      session_state := desk._session_snapshot },desk)
  else
    match check_finish desk.session.state (action.get "finish_reason") with
    | some reason =>
      let desk ← desk._emit "graph.finish_blocked" state [("reason",.str reason)]
      .ok ({ state with
        messages := state.messages ++ [⟨"user",reason⟩], route := "guard", session_state := desk._session_snapshot },desk)
    | none =>
      let final := action.textOf "message"
      let (outcome,desk) ← desk.complete_task (.str final) "completed"
      let desk ← desk._emit "graph.completed" state [("status",.str "completed")]
      .ok ({ state with
        final := some final, outcome := some outcome, status := "completed", route := "end",
        session_state := desk._session_snapshot },desk)

/-- Close a failed run. -/
def fail_node (state : AgentState) (desk : Desk ω) : Except PyError (AgentState × Desk ω) := do
  let desk ← desk._restore_session state
  let budget ← budget_from_state state
  let reason := orText (state.error.getD "") "agent run failed"
  let (outcome,desk) ← desk.fail_task reason [("steps",.int budget.steps),("parse_errors",.int budget.parse_errors)]
  let desk ← desk._emit "graph.completed" state [("status",.str "failed"),("reason",.str reason)]
  .ok ({ state with
    outcome := some outcome, status := "failed", route := "end", session_state := desk._session_snapshot },desk)

/-! ### The graph -/

def nodeOf : NodeName → AgentState → Desk ω → Except PyError (AgentState × Desk ω)
  | .guard => guard_node
  | .agent => agent_node
  | .tool => tool_node
  | .delegate => delegation_node
  | .finish => finish_node
  | .fail => fail_node

def _route (state : AgentState) : String := orText state.route "fail"

/-- The edges from a node by their routes, to a node or to the end; the last node has one edge. -/
def edgesOf : NodeName → Option (List (String × Option NodeName))
  | .guard => some [("agent",some .agent),("fail",some .fail)]
  | .agent => some [("tool",some .tool),("delegate",some .delegate),("finish",some .finish),("guard",some .guard),
      ("fail",some .fail)]
  | .tool | .delegate => some [("guard",some .guard),("fail",some .fail)]
  | .finish => some [("guard",some .guard),("end",none)]
  | .fail => none

/-- Where a run goes after a node; a route without an edge raises. -/
def edgeFrom (node : NodeName) (state : AgentState) : Except PyError (Option NodeName) :=
  match edgesOf node with
  | none => .ok none
  | some edges => match Dicts.get (_route state) edges with
    | some target => .ok target
    | none => .error (.KeyError (reprText (_route state)))

/-- A run between two nodes: the node that is next, none at the end. -/
structure Position (ω : Type) where
  next : Option NodeName
  state : AgentState
  desk : Desk ω

/-- Run a node and follow its edge. -/
def visit (node : NodeName) (p : Position ω) : Except PyError (Position ω) := do
  let (state,desk) ← nodeOf node p.state p.desk
  let next ← edgeFrom node state
  .ok ⟨next,state,desk⟩

/-- Whether a session state holds a task. -/
def holdsTask (state : StateStore) : Bool :=
  match state.get "current_task" with
  | some (.task _) => true
  | _ => false

/-- `SessionFactory.restore`: a session without a task is closed. -/
def restore (services : Services ω) (identity : SessionIdentity) (state : StateStore) (allowed : Finset String) :
    Except PyError KernelSession :=
  if allowed ⊆ services.available then .ok ⟨identity,state,allowed,!holdsTask state⟩
  else .error (.ValueError "Persisted session contains capabilities unavailable in this runtime.")

/-- The session that a new process restores from a state. -/
def _restore_persisted_session (state : AgentState) (services : Services ω) (world : ω) : Except PyError KernelSession := do
  let raw := if state.session_state = [] then state.kernel_state else state.session_state
  let restored ← decode_session_state (services.uuid world) raw
  let identity := { state.session_identity with agent_id := orText state.session_identity.agent_id "agent:root" }
  restore services identity restored state.allowed_capabilities.toFinset

section
-- whether the run may be interrupted
variable (resumable : Prop)

/-- What a run can come to from a start, with the nodes that it visited and the state after each. Between two nodes it
    may be interrupted and resumed from its state in a new process. -/
inductive Reaches (start : Position ω) : List (NodeName × AgentState) → Position ω → Prop
  | start : Reaches start [] start
  | visit {trail : List (NodeName × AgentState)} {node : NodeName} {p p' : Position ω} (reached : Reaches start trail p)
      (next : p.next = some node) (moved : visit node p = .ok p') : Reaches start (trail ++ [(node,p'.state)]) p'
  | resume {trail : List (NodeName × AgentState)} {node : NodeName} {p : Position ω} {session : KernelSession}
      (services : Services ω) (world : ω) (allowed : resumable) (reached : Reaches start trail p)
      (next : p.next = some node) (running : p.state.status = "running")
      (reader : services.interp = p.desk.services.interp)
      (restored : _restore_persisted_session p.state services world = .ok session) :
      Reaches start trail { p with desk := { services, session, world, log := p.desk.log } }

end

/-- The start of a run: a session with an open task that the factory made, a state for it, and nothing done yet. -/
structure Begins (p : Position ω) (task : TaskEnvelope) (messages : List Message) (budget : Budget)
    (model : Option String) : Prop where
  next : p.next = some .guard
  state : new_agent_state p.desk.session messages budget model = .ok p.state
  assigned : p.desk.session.state.get "current_task" = some (.task task)
  unclosed : p.desk.session._closed = false
  named : task.task_id ≠ ""
  owned : p.desk.session.identity.task_id = task.task_id
  idle : p.desk.log = []

end
end HexAgent.AgentGraph
