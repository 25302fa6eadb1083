import HexAgent.Budgets
import HexAgent.CommandBridge
import Mathlib.Data.List.Dedup

/-!
The nodes of the supervisor: composing the team, asking for a decision, running a
round of delegations, running tools, and judging the acceptance checks. Each
works on the Blackboard through the context.
-/
namespace HexAgent.Graph
open HexAgent.Values HexAgent.Board HexAgent.Budgets HexAgent.Contracts HexAgent.Roles HexAgent.Schemas
open HexAgent.CommandBridge HexAgent.Supervisor Journals Programs

/-! ### Artifacts -/

/-- A number with at least four digits. -/
def padded (n : Nat) : String := String.ofList (List.replicate (4 - (toString n).length) '0') ++ toString n

def next_id (kind : String) (state : TaskLoopState) : String := kind ++ "-" ++ padded state.artifacts.size

/-- `{"kind": kind, **fields}`. -/
def ofKind (kind : String) (fields : Fields) : Fields := Dicts.merge [("kind",.str kind)] fields

/-- Add an artifact under the next id of its kind, and return the id. -/
def post (kind : String) (fields : Fields) : Sup String := do
  let state ← currentBoard
  write (fun s => s.add_artifact (next_id kind state) (ofKind kind fields)) (.posted kind fields)
  pure (next_id kind state)

/-- By default the broker may ground in everything on the Blackboard. -/
def default_store_slice (state : TaskLoopState) : List Fields :=
  state.artifacts.pairs.map fun entry => [("id",.str entry.1),("text",.str (PyVal.dict entry.2).text)]

section
variable (ctx : SupervisorContext)

/-! ### Composing the team -/

def compose_team (task : String) : Sup SessionPlan := do
  let roles ← lift ctx.role_catalog
  let raw ← ask ctx (.compose_team task roles)
  let plan ← lift (parse_session_plan ctx.interp raw)
  let ids := plan.agent_ids
  let duplicates := sortedTexts (ids.filter fun a => 1 < ids.count a).dedup
  if duplicates ≠ [] then
    raise (.ValueError ("Team composition selected duplicate agents: " ++ (ofTexts duplicates).text))
  else do
    let catalog ← lift ctx.catalog
    let unknown := sortedTexts (ids.filter fun a => a ∉ catalog)
    if catalog ≠ [] ∧ unknown ≠ [] then
      raise (.ValueError ("Team composition selected unknown agents: " ++ (ofTexts unknown).text))
    else do
      write fun state => { state with selected_agents := ids }
      let _ ← post "session_plan" plan.as_dict
      write fun state => { state with status := .TEAM_SELECTED }
      emit ctx "loop.team_composed" [("selected",ofTexts ids)]
      pure plan

/-! ### Asking for a decision -/

/-- The view of a queued command: its type and the agent it names. -/
def commandView (c : Fields) : Except PyError PyVal := do
  let command_type ← c.item "command_type"
  match c.getD "payload" (.dict []) with
  | .dict payload => .ok (.dict [("command_type",command_type),("agent_id",Fields.get payload "agent_id")])
  | v => .error (Commands.noGet v)

def state_view (state : TaskLoopState) : Except PyError Fields := do
  let recent := if state.selected_agents = [] then 1 else state.selected_agents.length
  let pending ← state.pending_commands.mapM commandView
  .ok [("round_no",.int state.round_no),("selected_agents",ofTexts state.selected_agents),
    ("acceptance",.list (state.acceptance_checks.map fun c => .dict c.as_dict)),
    ("recent_turns",.list ((state.turns.drop (state.turns.length - recent)).map fun t => .dict t.as_dict)),
    ("artifact_ids",ofTexts state.artifacts.keys),("pending_commands",.list pending),
    ("departments",.dict ctx.departments_view)]

/-- Ask once: a decision ends the asking, and so does the end of the parse budget. -/
def askOnce (budget : Budget) : Sup (Budget ⊕ Option OrchestratorDecision × Budget) := do
  let state ← currentBoard
  let view ← lift (state_view ctx state)
  let raw ← ask ctx (.decide view)
  match parse_decision ctx.interp raw with
  | .error (.JsonGateError _ _ _) => do
    let budget := budget.record_parse_error
    emit ctx "loop.parse_error" [("round",.int state.round_no),("count",.int budget.parse_errors)]
    if budget.parse_exceeded then pure (.inr (none,budget)) else pure (.inl budget)
  | .error error => raise error
  | .ok decision => do
    emit ctx "loop.decision" [("round",.int state.round_no),("decision",.str decision.decision.value)]
    pure (.inr (some decision,budget))

/-- Ask for a decision until one parses or the parse budget is spent; the budget
    it leaves is returned with it. -/
def o_decide (budget : Budget) : Sup (Option OrchestratorDecision × Budget) :=
  loop (askOnce ctx) ((budget.max_parse_errors - budget.parse_errors).toNat + 1) budget

/-! ### Departments -/

def unresolvedReason (dept : String) : String :=
  "department " ++ reprText dept ++ " is empty or does not exist; if you meant a single agent, use target_kind='agent'"

/-- The calls of agents, the members to admit, and the departments refused. -/
structure Expansion where
  expanded : List AgentAssignment := []
  to_admit : List String := []
  rejected : List (String × String) := []

/-- The call of a department as a call of one of its members. -/
def memberCall (assignment : AgentAssignment) (member : String) : AgentAssignment :=
  { assignment with agent_id := member, target_kind := .agent }

/-- One call added to the expansion so far. -/
def expandCall (members_of : String → List String) (selected : List String) (acc : Expansion)
    (assignment : AgentAssignment) : Expansion :=
  match assignment.target_kind with
  | .agent => { acc with expanded := acc.expanded ++ [assignment] }
  | .department =>
    let members := members_of assignment.agent_id
    if members = [] then
      { acc with rejected := acc.rejected ++ [(assignment.agent_id,unresolvedReason assignment.agent_id)] }
    else
      { acc with expanded := acc.expanded ++ (members.filter (· ∈ selected)).map (memberCall assignment),
                 to_admit := acc.to_admit ++ members.filter (· ∉ selected) }

/-- Every department call becomes one call for each member in the roster. -/
def expand_departments (decision : OrchestratorDecision) (members_of : String → List String) (selected : List String) :
    Expansion :=
  decision.next_agent_calls.foldl (expandCall members_of selected) {}

/-- The departments that a decision calls. -/
def dept_aliases (decision : OrchestratorDecision) : List String :=
  (decision.next_agent_calls.filter fun a => a.target_kind = .department).map AgentAssignment.agent_id

/-- The calls of a round, expanded; without a registry the departments are refused. -/
def splitCalls (decision : OrchestratorDecision) (selected : List String) : Sup Expansion :=
  match ctx.agent_registry with
  | none => do
    each (fun dept => emit ctx "command.rejected"
      [("department",.str dept),("reason",.str "department targeting requires an agent_registry")])
      (dept_aliases decision)
    pure { expanded := decision.next_agent_calls.filter fun a => a.target_kind ≠ .department }
  | some registry => pure (expand_departments decision registry.members_of selected)

/-- The decision that asks to add one agent. -/
def admission (member : String) : OrchestratorDecision where
  decision := .continue
  commands := [[("command_type",.str "AddAgentToLoop"),("payload",.dict [("agent_id",.str member)])]]

/-- Refuse what did not resolve and queue the members that are not in the roster yet. -/
def admitMembers (decision : OrchestratorDecision) (expansion : Expansion) : Sup Unit := do
  each (fun refused => emit ctx "command.rejected" [("department",.str refused.1),("reason",.str refused.2)])
    expansion.rejected
  if dept_aliases decision ≠ [] then do
    each (fun member => do let _ ← enqueue_commands ctx (admission member)) expansion.to_admit
    emit ctx "loop.department_expanded" [("departments",ofTexts (dept_aliases decision)),
      ("expanded",ofTexts (expansion.expanded.map AgentAssignment.agent_id)),("admitted",ofTexts expansion.to_admit)]
  else pure ()

/-! ### Running a round -/

/-- Every call of the batch must target a selected agent. -/
def check_authority (selected : List String) (calls : List AgentAssignment) : Except PyError Unit :=
  match calls.find? fun assignment => assignment.agent_id ∉ selected with
  | none => .ok ()
  | some assignment => .error (.PermissionError
      ("Assignment targets agent '" ++ assignment.agent_id ++ "' that was not selected by composition."))

def store_slice (assignment : AgentAssignment) (state : TaskLoopState) : Sup (List Fields) :=
  if ctx.custom_slice then ask ctx (.store_slice assignment state) else pure (default_store_slice state)

/-- The policy of a delegation: the scope comes from the assignment only. -/
def policyOf (assignment : AgentAssignment) : DelegationPolicy :=
  { allowed_capabilities := assignment.allowed_capabilities.toFinset }

/-- The payload of a worker's artifact. -/
def workerPayload (agent_id : String) (art : ArtifactEnvelope) : Fields :=
  Dicts.merge [("kind",.str art.kind),("agent_id",.str agent_id)] art.payload

/-- Add an artifact of a worker, under the id it came with. -/
def merge (agent_id : String) (art : ArtifactEnvelope) : Sup Unit :=
  write (fun s => s.add_artifact art.artifact_id (workerPayload agent_id art)) (.merged agent_id art)

/-- What the artifact of a packet holds. -/
def packetFields (packet : ContextPacket) : Fields :=
  [("target",.str packet.target_agent_id),("objective",.str packet.objective),("briefing",.str packet.briefing),
    ("source_ids",ofTexts packet.source_ids)]

/-- What the artifact of a delegation result holds. -/
def resultFields (agent_id : String) (result : DelegationResult) : Fields :=
  [("agent_id",.str agent_id),("outcome",.str result.outcome.value),("summary",.dict result.summary),
    ("error",Commands.ofOption result.error)]

/-- The turn of a delegation. -/
def turnOf (round_no : Int) (assignment : AgentAssignment) (packet_id : String) (result : DelegationResult)
    (result_id : String) : AgentTurn where
  round_no
  agent_id := assignment.agent_id
  packet_id
  output_summary := result.outcome.value
  artifact_ids := result.artifacts.map ArtifactEnvelope.artifact_id ++ [result_id]

/-- One turn: the packet, the delegation, its artifacts and result, the turn, and a save. -/
def worker_turn (assignment : AgentAssignment) : Sup Unit := do
  let state ← currentBoard
  let slice ← store_slice ctx assignment state
  let packet ← ask ctx (.write_packet assignment slice)
  if packet.target_agent_id ≠ assignment.agent_id then
    raise (.PermissionError ("Broker packet target '" ++ packet.target_agent_id ++ "' does not match assigned agent '" ++
      assignment.agent_id ++ "'."))
  else do
    let packet_id ← post "context_packet" (packetFields packet)
    let result ← ask ctx (.delegate assignment.agent_id packet.to_spec (policyOf assignment))
    each (merge assignment.agent_id) result.artifacts
    let result_id ← post "delegation_result" (resultFields assignment.agent_id result)
    write fun s => { s with turns := s.turns ++ [turnOf s.round_no assignment packet_id result result_id] }
    emit ctx "loop.turn" [("agent_id",.str assignment.agent_id),("outcome",.str result.outcome.value)]
    save ctx

/-- The agents with a turn in the current round. -/
def done_this_round (state : TaskLoopState) : List String :=
  (state.turns.filter fun t => t.round_no = state.round_no).map AgentTurn.agent_id

/-- A call whose agent has no turn yet in this round. -/
def runCall (done : List String) (assignment : AgentAssignment) : Sup (List String) :=
  if assignment.agent_id ∈ done then pure done
  else do
    worker_turn ctx assignment
    pure (assignment.agent_id :: done)

def run_round (decision : OrchestratorDecision) : Sup Unit := do
  let state ← currentBoard
  let expansion ← splitCalls ctx decision state.selected_agents
  admitMembers ctx decision expansion
  lift (check_authority state.selected_agents expansion.expanded)
  let state ← currentBoard
  let _ ← fold (runCall ctx) (done_this_round state) expansion.expanded
  write fun s => { s with status := .IN_DISCUSSION }

/-! ### Tools and acceptance -/

/-- What the artifact of a tool result holds. -/
def toolFields (tool : String) (envelope : Fields) : Fields :=
  [("tool",.str tool),("ok",envelope.get "ok"),("data",envelope.get "data")]

def runRequest (req : Fields) : Sup Unit := do
  let tool := (((req.get "tool").orElse (req.get "name")).orElse (.str "")).text
  let args ← lift ((req.get "args").orElse (.dict [])).toDict
  let envelope ← ask ctx (.execute_tool tool args)
  let state ← currentBoard
  let art_id := next_id "tool_result" state
  write fun s => { s with tool_results := s.tool_results.put art_id envelope }
  write (fun s => s.add_artifact art_id (ofKind "tool_result" (toolFields tool envelope)))
    (.posted "tool_result" (toolFields tool envelope))
  emit ctx "loop.tool" [("tool",.str tool),("ok",Fields.get envelope "ok")]

def run_tool (decision : OrchestratorDecision) : Sup Unit := do
  each (runRequest ctx) decision.tool_requests
  write fun s => { s with status := .WAITING_TOOL }

end

/-- The first check with the id, changed. -/
def setCheck (check_id : String) (f : AcceptanceCheck → AcceptanceCheck) : List AcceptanceCheck → List AcceptanceCheck
  | [] => []
  | check :: rest => if check.id = check_id then f check :: rest else check :: setCheck check_id f rest

/-- `[str(e) for e in (row.get("evidence_ids") or [])]`. -/
def evidenceOf (row : Fields) : Except PyError (List String) :=
  (((row.get "evidence_ids").orElse (.list [])).iter).map fun items => items.map PyVal.text

/-- A check after one reported row: `passed` counts only with evidence that is on
    the Blackboard. -/
def judged (state : TaskLoopState) (claimed : String) (evidence : List String) (check : AcceptanceCheck) :
    AcceptanceCheck :=
  if claimed = "passed" ∧ evidence ≠ [] ∧ ∀ e ∈ evidence, e ∈ state.artifacts.keys then
    { check with status := .passed, evidence_ids := evidence }
  else if claimed = "failed" then { check with status := .failed, evidence_ids := evidence }
  else { check with status := .pending }

/-- The Blackboard after one reported row; a row for no check is ignored. -/
def judge_row (state : TaskLoopState) (row : Fields) : Except PyError TaskLoopState :=
  let check_id := row.textOf "id"
  match state.acceptance_by_id check_id with
  | none => .ok state
  | some _ => do
    let evidence ← evidenceOf row
    let claimed := (row.getD "status" (.str "pending")).text
    .ok { state with acceptance_checks := setCheck check_id (judged state claimed evidence) state.acceptance_checks }

def judge_acceptance (decision : OrchestratorDecision) : Sup Unit := do
  each (fun row => do
    let state ← currentBoard
    let state ← lift (judge_row state row)
    write fun _ => state) decision.acceptance_status
  write fun s => { s with status := .REVIEWING_AC }

end HexAgent.Graph
