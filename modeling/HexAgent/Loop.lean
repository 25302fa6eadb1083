import HexAgent.Graph

/-!
The task loop: it composes the team and then, round by round, asks for a decision,
carries it out, applies the queued commands and saves, until a terminal status.
The guard is apart from the orchestrator: the rounds, a round without progress,
and the same decision too many times end the loop. A run starts from a fresh
Blackboard or resumes from the last saved one.
-/
namespace HexAgent.Loop
open HexAgent.Values HexAgent.Board HexAgent.Budgets HexAgent.Contracts HexAgent.CommandBridge HexAgent.Graph
open HexAgent.Supervisor HexAgent.Events Journals Programs

/-! ### Acceptance criteria -/

/-- One criterion: a check, or a value that should be a dictionary or a pair. -/
inductive Criterion where
  | check (check : AcceptanceCheck)
  | item (v : PyVal)

/-- `cid, text = item`. -/
def unpackPair (v : PyVal) : Except PyError (PyVal × PyVal) :=
  match v.iter with
  | .error _ => .error (.TypeError ("cannot unpack non-iterable " ++ v.cls ++ " object"))
  | .ok [cid,text] => .ok (cid,text)
  | .ok items =>
    if items.length < 2 then .error (.ValueError
      ("not enough values to unpack (expected 2, got " ++ toString items.length ++ ")"))
    else .error (.ValueError "too many values to unpack (expected 2)")

def checkOf : Criterion → Except PyError AcceptanceCheck
  | .check check => .ok check
  | .item (.dict d) => do
    let id ← Fields.item d "id"
    .ok { id := id.text, text := Fields.textOf d "text" }
  | .item v => do
    let (cid,text) ← unpackPair v
    .ok { id := cid.text, text := text.text }

def criteria (items : List Criterion) : Except PyError (List AcceptanceCheck) := items.mapM checkOf

/-! ### The guard -/

/-- What tells a command from another one in a signature. -/
def commandMark (c : Fields) : Except PyError String :=
  match c.getD "payload" (.dict []) with
  | .dict payload => .ok (c.textOf "command_type" ++ ":" ++ Fields.textOf payload "agent_id")
  | v => .error (Commands.noGet v)

def decision_signature (decision : OrchestratorDecision) : Except PyError String := do
  let agents := sortedTexts (decision.next_agent_calls.map fun a => a.target_kind.value ++ ":" ++ a.agent_id)
  let tools := sortedTexts (decision.tool_requests.map fun t =>
    (((t.get "tool").orElse (t.get "name")).orElse (.str "")).text)
  let commands ← decision.commands.mapM commandMark
  .ok (decision.decision.value ++ "|" ++ join "," agents ++ "|" ++ join "," tools ++ "|" ++
    join "," (sortedTexts commands))

/-- What the loop keeps from round to round. -/
structure DriveVars where
  budget : Budget
  last_signature : Option String := none
  repeat_count : Int := 0

/-! ### The loop -/

section
variable (ctx : SupervisorContext)

def terminate (status : TaskLoopStatus) (reason : String) : Sup Unit := do
  write fun s => { s with status, reason }
  let state ← currentBoard
  emit ctx ("loop." ++ status.value) [("reason",.str reason),("rounds",.int state.round_no)]
  save ctx

/-- Carry out a decision; true when the round goes on to its checkpoint. -/
def carryOut (decision : OrchestratorDecision) : Sup Bool :=
  match decision.decision with
  | .finished => do
    judge_acceptance decision
    let state ← currentBoard
    if state.all_accepted then do
      write fun s => { s with final_output := some (decision.final_output.getD []) }
      terminate ctx .FINISHED (orText decision.reason "all criteria passed")
      pure false
    else do
      write fun s => { s with reason := "finish denied: acceptance criteria incomplete" }
      pure true
  | .need_tool => do
    run_tool ctx decision
    judge_acceptance decision
    pure true
  | .continue => do
    run_round ctx decision
    judge_acceptance decision
    pure true
  | .blocked => do
    terminate ctx .BLOCKED (orText decision.reason decision.decision.value)
    pure false
  | .failed => do
    terminate ctx .FAILED (orText decision.reason decision.decision.value)
    pure false

/-- The checkpoint at the end of a round: the queued commands are applied, the
    round advances, and one save stores it all. Returns the growth of the roster. -/
def closeRound : Sup Nat := do
  let state ← currentBoard
  let pending_before_apply := state.pending_commands.length
  let catalog ← lift ctx.catalog
  let applied ← apply_pending_commands ctx ctx.command_registry catalog
  write fun s => { s with round_no := s.round_no + 1 }
  save ctx
  let state ← currentBoard
  if 0 < pending_before_apply ∧ state.max_rounds - 1 ≤ state.round_no ∧ ¬ state.is_terminal then do
    emit ctx "loop.roster_growth_starved" [("pending",.int pending_before_apply),
      ("rounds_left",.int (max 0 (state.max_rounds - state.round_no)))]
    pure applied
  else pure applied

/-- The guard after a checkpoint: a round without progress or one repeat too many
    ends the loop. -/
def guardRound (max_decision_repeats : Int) (before : TaskLoopState) (applied : Nat) (vars : DriveVars) :
    Sup (DriveVars ⊕ Unit) := do
  let state ← currentBoard
  let progressed := before.artifacts.size < state.artifacts.size ∨
    state.acceptance_snapshot ≠ before.acceptance_snapshot ∨ 0 < applied
  if ¬ progressed then do
    terminate ctx .BLOCKED "no progress this round"
    pure (.inr ())
  else if max_decision_repeats ≤ vars.repeat_count then do
    terminate ctx .BLOCKED "orchestrator repeated the same decision"
    pure (.inr ())
  else pure (.inl vars)

/-- The part of a round after its decision is accepted, up to its checkpoint: the
    loop variables and the growth of the roster, or nothing when the loop has ended. -/
def takeDecision (decision : OrchestratorDecision) (vars : DriveVars) : Sup (Option (DriveVars × Nat)) := do
  note (.noted (.accepted decision))
  let _ ← enqueue_commands ctx decision
  let signature ← lift (decision_signature decision)
  let repeat_count := if some signature = vars.last_signature then vars.repeat_count + 1 else 0
  let goesOn ← carryOut ctx decision
  if goesOn then do
    let applied ← closeRound ctx
    pure (some ({ vars with last_signature := some signature, repeat_count := if 0 < applied then 0 else repeat_count },
      applied))
  else pure none

/-- One turn of the loop. -/
def driveRound (max_decision_repeats : Int) (vars : DriveVars) : Sup (DriveVars ⊕ Unit) := do
  let state ← currentBoard
  if state.is_terminal then pure (.inr ())
  else if state.max_rounds ≤ state.round_no then do
    terminate ctx .BLOCKED "max_rounds reached"
    pure (.inr ())
  else do
    let (decision,budget) ← o_decide ctx vars.budget
    match decision with
    | none => do
      terminate ctx .FAILED "parse-error budget exceeded"
      pure (.inr ())
    | some decision => do
      match ← takeDecision ctx decision { vars with budget } with
      | none => pure (.inr ())
      | some (vars,applied) => guardRound ctx max_decision_repeats state applied vars

def result (state : TaskLoopState) : Fields :=
  [("status",.str state.status.value),("task_id",.str state.task_id),("rounds",.int state.round_no),
    ("reason",.str state.reason),("selected_agents",ofTexts state.selected_agents),
    ("final_output",match state.final_output with | some fields => .dict fields | none => .null),
    ("acceptance",.list (state.acceptance_checks.map fun c => .dict c.as_dict)),
    ("state",.dict (encode_taskloop_state state))]

def drive (budget : Budget) (max_decision_repeats : Int) : Sup Fields := do
  let state ← currentBoard
  loop (driveRound ctx max_decision_repeats) ((state.max_rounds - state.round_no).toNat + 1) { budget }
  let state ← currentBoard
  pure (result state)

/-! ### Starting and resuming -/

/-- The Blackboard of a new run. -/
def start_state (max_rounds : Int) (acceptance_checks : List AcceptanceCheck) : TaskLoopState where
  session_id := ctx.identity.session_id
  task_id := ctx.identity.task_id
  max_rounds
  acceptance_checks

/-- The loop of a new run, once its Blackboard is made. -/
def beginLoop (task : String) (budget : Budget) (max_decision_repeats : Int) : Sup Fields := do
  let _ ← compose_team ctx task
  save ctx
  drive ctx budget max_decision_repeats

/-- A world with a Blackboard, in which nothing has happened yet. -/
def freshWorld (board : TaskLoopState) (emitter : Option EventEmitter) : World where
  board
  wire := emitter.map fun emitter => { emitter }

/-- What a call ends with, and the world it leaves. -/
abbrev Ending := Except (Stop PyError) Fields × World

def run_task_loop (task : String) (acceptance_criteria : List Criterion) (max_rounds max_decision_repeats : Int)
    (budget : Budget) (emitter : Option EventEmitter) : Ending :=
  match criteria acceptance_criteria with
  | .error error => (.error (.raised error),freshWorld (start_state ctx max_rounds []) emitter)
  | .ok checks =>
    (beginLoop ctx task budget max_decision_repeats).run (freshWorld (start_state ctx max_rounds checks) emitter)

/-- The Blackboard of a stored document, if it belongs to the session. -/
def restore (run_id : String) (stored : Option Fields) : Except PyError TaskLoopState :=
  match stored with
  | none => .error (.FileNotFoundError ("No TaskLoop checkpoint for run_id=" ++ reprText run_id))
  | some document => do
    let state ← decode_taskloop_state document
    if state.session_id ≠ ctx.identity.session_id ∨ state.task_id ≠ ctx.identity.task_id then
      .error (.ValueError ("Checkpoint identity (session=" ++ reprText state.session_id ++ ", task=" ++
        reprText state.task_id ++ ") does not match the active supervisor session (session=" ++
        reprText ctx.identity.session_id ++ ", task=" ++ reprText ctx.identity.task_id ++ ")."))
    else .ok state

/-- Continue from a loaded Blackboard; a terminal one is only reported. -/
def continueLoop (budget : Budget) (max_decision_repeats : Int) : Sup Fields := do
  let state ← currentBoard
  if state.is_terminal then pure (result state) else drive ctx budget max_decision_repeats

def resume_task_loop (run_id : String) (stored : Option Fields) (max_decision_repeats : Int) (budget : Budget)
    (emitter : Option EventEmitter) : Ending :=
  match restore ctx run_id stored with
  | .error error => (.error (.raised error),freshWorld (start_state ctx 5 []) emitter)
  | .ok state => (continueLoop ctx budget max_decision_repeats).run (freshWorld state emitter)

end

end HexAgent.Loop
