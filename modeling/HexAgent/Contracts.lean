import HexAgent.JsonGate
import HexAgent.Schemas

/-!
The structured artifacts of the supervisor: the team plan and the decisions that
the orchestrator writes as JSON, with their parsers, and the packet that the
broker writes for a worker. A packet carries no scope.
-/
namespace HexAgent.Contracts
open HexAgent.Values HexAgent.Json HexAgent.JsonGate HexAgent.Schemas

/-- A model output of the wrong shape. -/
def schemaError (message : String) : PyError := .JsonGateError message "schema" ""

/-! ### Team composition -/

structure AgentSelection where
  agent_id : String
  reason : String
  deriving DecidableEq, Repr

structure SessionPlan where
  selected : List AgentSelection
  deriving DecidableEq, Repr

def SessionPlan.agent_ids (plan : SessionPlan) : List String := plan.selected.map AgentSelection.agent_id

def SessionPlan.as_dict (plan : SessionPlan) : Fields :=
  [("selected_agents",.list (plan.selected.map fun s =>
    .dict [("agent_id",.str s.agent_id),("reason",.str s.reason)]))]

/-- The selection of a row, if it is an object that names an agent. -/
def selectionOf : PyVal → Option AgentSelection
  | .dict r =>
    if (Fields.get r "agent_id").truthy then some ⟨Fields.textOf r "agent_id",Fields.textOf r "reason"⟩ else none
  | _ => none

def parse_session_plan (interp : Interpreter) (raw : String) : Except PyError SessionPlan := do
  let obj ← parse_json_object interp raw
  match obj.get "selected_agents" with
  | .list (row :: rows) =>
    let selected := (row :: rows).filterMap selectionOf
    if selected = [] then .error (schemaError "SessionPlan has no valid agent_id entries.")
    else .ok ⟨selected⟩
  | _ => .error (schemaError "SessionPlan must list at least one selected agent.")

/-! ### Decisions -/

inductive Decision where
  | «continue»
  | need_tool
  | finished
  | blocked
  | failed
  deriving DecidableEq, Repr

def Decision.value : Decision → String
  | .continue => "continue"
  | .need_tool => "need_tool"
  | .finished => "finished"
  | .blocked => "blocked"
  | .failed => "failed"

def VALID_DECISIONS : List Decision := [.continue,.need_tool,.finished,.blocked,.failed]

def Decision.ofValue (s : String) : Option Decision := VALID_DECISIONS.find? fun decision => decision.value = s

inductive TargetKind where
  | agent
  | department
  deriving DecidableEq, Repr

def TargetKind.value : TargetKind → String
  | .agent => "agent"
  | .department => "department"

def TargetKind.ofValue (s : String) : Option TargetKind :=
  [TargetKind.agent,.department].find? fun kind => kind.value = s

/-- A call of one agent, or of every member of a department. -/
structure AgentAssignment where
  agent_id : String
  objective : String
  scope_of_work : String := ""
  allowed_capabilities : List String := []
  target_kind : TargetKind := .agent
  deriving DecidableEq, Repr

structure OrchestratorDecision where
  decision : Decision
  next_agent_calls : List AgentAssignment := []
  tool_requests : List Fields := []
  acceptance_status : List Fields := []
  progress_made : Bool := false
  reason : String := ""
  final_output : Option Fields := none
  commands : List Fields := []
  deriving DecidableEq

/-- A value as a sequence of texts; only a true value that cannot be iterated raises. -/
def as_str_tuple (value : PyVal) : Except PyError (List String) :=
  if value.truthy then value.iter.map fun items => items.map PyVal.text else .ok []

def require_list (obj : Fields) (key : String) : Except PyError (List PyVal) :=
  match obj.get key with
  | .null => .ok []
  | .list items => .ok items
  | _ => .error (schemaError ("'" ++ key ++ "' must be a list when present."))

def parseCall : PyVal → Except PyError AgentAssignment
  | .dict c => do
    let agent_id := strip (Fields.textOf c "agent_id")
    let objective := strip (Fields.textOf c "objective")
    if agent_id = "" then .error (schemaError "next_agent_call requires a non-empty 'agent_id'.")
    else if objective = "" then .error (schemaError "next_agent_call requires a non-empty 'objective'.")
    else
      let target_kind := (Fields.getD c "target_kind" (.str "agent")).text
      match TargetKind.ofValue target_kind with
      | none => .error (schemaError
          ("target_kind must be one of ['agent', 'department'], got " ++ reprText target_kind ++ "."))
      | some target_kind =>
        let allowed_capabilities ← as_str_tuple (Fields.get c "allowed_capabilities")
        .ok { agent_id, objective, scope_of_work := Fields.textOf c "scope_of_work", allowed_capabilities, target_kind }
  | _ => .error (schemaError "each next_agent_call must be an object.")

def parseTool : PyVal → Except PyError Fields
  | .dict t =>
    if strip (Fields.textOf t "tool") = "" then .error (schemaError "tool_request requires a non-empty 'tool' name.")
    else match Fields.getD t "args" (.dict []) with
      | .dict _ => .ok t
      | _ => .error (schemaError "tool_request 'args' must be a mapping.")
  | _ => .error (schemaError "each tool_request must be an object.")

/-- The shape of a command: an object that names its type. -/
def parseCommand : PyVal → Except PyError Fields
  | .dict cmd =>
    if strip (Fields.textOf cmd "command_type") = "" then
      .error (schemaError "command requires a non-empty 'command_type'.")
    else .ok cmd
  | _ => .error (schemaError "each command must be an object.")

/-- The fields of a value that is a dictionary. -/
def dictOf : PyVal → Option Fields
  | .dict fields => some fields
  | _ => none

/-- The decision that an object describes. -/
def decisionOf (obj : Fields) : Except PyError OrchestratorDecision := do
  let text := obj.textOf "decision"
  match Decision.ofValue text with
  | none => .error (schemaError
      ("Decision must be one of ['blocked', 'continue', 'failed', 'finished', 'need_tool'], got " ++ reprText text ++ "."))
  | some decision =>
    let next_agent_calls ← (← require_list obj "next_agent_calls").mapM parseCall
    let tool_requests ← (← require_list obj "tool_requests").mapM parseTool
    let acceptance_status := (← require_list obj "acceptance_status").filterMap dictOf
    let commands ← (← require_list obj "commands").mapM parseCommand
    .ok { decision, next_agent_calls, tool_requests, acceptance_status,
          progress_made := (obj.getD "progress_made" (.bool false)).truthy, reason := obj.textOf "reason",
          final_output := dictOf (obj.get "final_output"), commands }

def parse_decision (interp : Interpreter) (raw : String) : Except PyError OrchestratorDecision := do
  let obj ← parse_json_object interp raw
  decisionOf obj

/-! ### The packet of the broker -/

structure ContextPacket where
  target_agent_id : String
  objective : String
  briefing : String
  source_ids : List String
  expected_output_schema : Fields := []
  deriving DecidableEq

/-- What the worker is asked; the scope is not part of it. -/
def ContextPacket.to_spec (packet : ContextPacket) : DelegationSpec where
  objective := packet.objective
  input_context := [("briefing",.str packet.briefing),("source_ids",.list (packet.source_ids.map .str))]
  expected_output_schema := packet.expected_output_schema

end HexAgent.Contracts
