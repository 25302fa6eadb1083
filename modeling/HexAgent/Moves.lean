import HexAgent.Loop

/-!
What the loop may do to the Blackboard. `RoundMove` lists the writes within a
round and `LoopMove` all of them, each with the guard that the code establishes;
every node obeys these rules, and so does every run of the loop, whatever the
outside answers and wherever it raises. What holds of every reachable
Blackboard is derived from the moves alone.
-/
namespace HexAgent.Moves
open HexAgent.Values HexAgent.Board HexAgent.Commands HexAgent.Contracts HexAgent.Roles HexAgent.Schemas
open HexAgent.CommandBridge HexAgent.Graph HexAgent.Loop HexAgent.Supervisor HexAgent.Budgets HexAgent.Events
open Journals Programs

/-! ### What may be journalled -/

/-- The questions that are neither for a decision nor for a delegation. -/
def Op.routine : Op → Bool
  | .decide _ => false
  | .delegate .. => false
  | _ => true

/-- The topics that the shipped registry of event types declares. -/
def Declared (topic : String) : Prop := (load_event_registry.find topic).isSome

instance : DecidablePred Declared := fun topic =>
  inferInstanceAs (Decidable ((load_event_registry.find topic).isSome = true))

/-- The events allowed include everything but decisions, delegations and the
    topics that are not declared. -/
structure Usual (events : Event → Prop) : Prop where
  asks : ∀ op, Op.routine op = true → events (.asked op)
  emits : ∀ topic payload, Declared topic → events (.emitted topic payload)
  accepts : ∀ decision, events (.accepted decision)

/-- Every topic is allowed. -/
def Noisy (events : Event → Prop) : Prop := ∀ topic payload, events (.emitted topic payload)

/-- Every event is allowed. -/
def everything : Event → Prop := fun _ => True

theorem usual_everything : Usual everything := ⟨fun _ _ => trivial,fun _ _ _ => trivial,fun _ => trivial⟩
theorem noisy_everything : Noisy everything := fun _ _ => trivial

/-- How often the orchestrator was asked for a decision. -/
def decideCalls (journal : Journal) : Nat :=
  journal.countP fun entry => match entry with
    | .noted (.asked (.decide _)) => true
    | _ => false

@[simp] theorem decideCalls_append (journal more : Journal) :
    decideCalls (journal ++ more) = decideCalls journal + decideCalls more := List.countP_append ..

/-- The events allowed, but for the questions for a decision. -/
def Undecided (events : Event → Prop) (event : Event) : Prop := events event ∧ ∀ view, event ≠ .asked (.decide view)

theorem Usual.undecided {events : Event → Prop} (usual : Usual events) : Usual (Undecided events) where
  asks op routine := ⟨usual.asks op routine,fun view same => by cases same; cases routine⟩
  emits topic payload declared := ⟨usual.emits topic payload declared,nofun⟩
  accepts decision := ⟨usual.accepts decision,nofun⟩

/-! ### The moves -/

/-- The artifacts that the loop itself adds, under the next id of their kind. -/
inductive Posted : String → Fields → Prop where
  | plan (plan : SessionPlan) : Posted "session_plan" plan.as_dict
  | packet (packet : ContextPacket) : Posted "context_packet" (packetFields packet)
  | result (agent_id : String) (result : DelegationResult) : Posted "delegation_result" (resultFields agent_id result)
  | tool (name : String) (envelope : Fields) : Posted "tool_result" (toolFields name envelope)

/-- The agent has no turn yet in the current round. -/
def NoTurn (s : TaskLoopState) (agent_id : String) : Prop :=
  ∀ t ∈ s.turns, t.round_no = s.round_no → t.agent_id ≠ agent_id

/-- A queue in order beside the applied keys: it holds commands of the
    orchestrator, with distinct keys, none of them applied. -/
structure Orderly (pending : List Fields) (applied : List String) : Prop where
  issued : ∀ raw ∈ pending, ∃ cmd : RuntimeCommand, raw = cmd.as_dict ∧ cmd.issued_by = orchestrator
  distinct : (queued_keys pending).Nodup
  new : ∀ key ∈ queued_keys pending, key ∉ applied

/-- The queue of the Blackboard is in order. -/
def Settled (s : TaskLoopState) : Prop := Orderly s.pending_commands s.applied_command_keys

theorem settled_nil {s : TaskLoopState} (empty : s.pending_commands = []) : Settled s :=
  ⟨by simp [empty],by simp [empty,queued_keys],by simp [empty,queued_keys]⟩

/-- The key of a command is neither queued nor applied. -/
def Unseen (s : TaskLoopState) (cmd : RuntimeCommand) : Prop :=
  cmd.idempotency_key ∉ queued_keys s.pending_commands ∧ cmd.idempotency_key ∉ s.applied_command_keys

/-- The writes within a round, with what each is for. -/
inductive RoundMove : Event → TaskLoopState → TaskLoopState → Prop where
  | post {s : TaskLoopState} {kind : String} {fields : Fields} (posted : Posted kind fields) :
      RoundMove (.posted kind fields) s (s.add_artifact (next_id kind s) (ofKind kind fields))
  | worker {s : TaskLoopState} {agent_id : String} {art : ArtifactEnvelope} :
      RoundMove (.merged agent_id art) s (s.add_artifact art.artifact_id (workerPayload agent_id art))
  | envelope {s : TaskLoopState} {id : String} {envelope : Fields} :
      RoundMove .changed s { s with tool_results := s.tool_results.put id envelope }
  | turn {s : TaskLoopState} {turn : AgentTurn} (round : turn.round_no = s.round_no) (new : NoTurn s turn.agent_id)
      (packet : turn.packet_id ∈ s.artifacts.keys) (ids : ∀ id ∈ turn.artifact_ids, id ∈ s.artifacts.keys) :
      RoundMove .changed s { s with turns := s.turns ++ [turn] }
  | judge {s t : TaskLoopState} {row : Fields} (going : s.is_terminal = false) (judged : judge_row s row = .ok t) :
      RoundMove .changed s t
  | queue {s : TaskLoopState} {more : List RuntimeCommand} (distinct : (more.map RuntimeCommand.idempotency_key).Nodup)
      (unseen : ∀ cmd ∈ more, Unseen s cmd) (issued : ∀ cmd ∈ more, cmd.issued_by = orchestrator) :
      RoundMove .changed s { s with pending_commands := s.pending_commands ++ more.map RuntimeCommand.as_dict }
  | status {s : TaskLoopState} {status : TaskLoopStatus} (going : status ∉ TERMINAL) :
      RoundMove .changed s { s with status }
  | reason {s : TaskLoopState} {reason : String} : RoundMove .changed s { s with reason }
  | output {s : TaskLoopState} {output : Option Fields} : RoundMove .changed s { s with final_output := output }

/-- The agent that a command adds. -/
def agentOf (cmd : RuntimeCommand) : String := strip (cmd.payload.textOf "agent_id")

/-- The state with the key of a command recorded and its agent in the roster. -/
def recordCommand (s : TaskLoopState) (cmd : RuntimeCommand) : TaskLoopState :=
  { s with applied_command_keys := s.applied_command_keys ++ [cmd.idempotency_key],
           selected_agents := if agentOf cmd ∈ s.selected_agents then s.selected_agents
                              else s.selected_agents ++ [agentOf cmd] }

/-- A command that the loop honours in a state. -/
structure Honoured (ctx : SupervisorContext) (s : TaskLoopState) (cmd : RuntimeCommand) : Prop where
  queued : ∃ raw ∈ s.pending_commands, ∃ stamp, RuntimeCommand.from_dict stamp raw = .ok cmd
  new : cmd.idempotency_key ∉ s.applied_command_keys
  issuer : cmd.issued_by.type = .agent
  type : cmd.command_type = "AddAgentToLoop"
  known : ∃ spec, ctx.command_registry.get cmd.command_type = .ok spec ∧ spec.apply_at = .next_checkpoint
  listed : ∃ catalog, ctx.catalog = .ok catalog ∧ agentOf cmd ∈ catalog

/-- The team that the orchestrator composed: the agents of a plan it answered in the
    state, all of them in the catalog when there is one. -/
def Composed (ctx : SupervisorContext) (s : TaskLoopState) (ids : List String) : Prop :=
  ∃ journal task roles raw plan catalog, ctx.env.answer s journal (.compose_team task roles) = .ok raw ∧
    parse_session_plan ctx.interp raw = .ok plan ∧ ids = plan.agent_ids ∧ ctx.catalog = .ok catalog ∧
    (catalog ≠ [] → ∀ a ∈ ids, a ∈ catalog)

/-- All writes of the loop. -/
inductive LoopMove (ctx : SupervisorContext) : Event → TaskLoopState → TaskLoopState → Prop where
  | round {cause : Event} {s t : TaskLoopState} (move : RoundMove cause s t) : LoopMove ctx cause s t
  | compose {s : TaskLoopState} {ids : List String} (fresh : s.selected_agents = []) (distinct : ids.Nodup)
      (composed : Composed ctx s ids) : LoopMove ctx .changed s { s with selected_agents := ids }
  | record {s : TaskLoopState} {cmd : RuntimeCommand} (honoured : Honoured ctx s cmd) :
      LoopMove ctx .changed s (recordCommand s cmd)
  | clear {s : TaskLoopState} : LoopMove ctx .changed s { s with pending_commands := [] }
  | advance {s : TaskLoopState} (left : s.round_no < s.max_rounds) :
      LoopMove ctx .changed s { s with round_no := s.round_no + 1 }
  | terminate {s : TaskLoopState} {status : TaskLoopStatus} {reason : String} (ends : status ∈ TERMINAL)
      (earned : status = .FINISHED → s.all_accepted = true) : LoopMove ctx .changed s { s with status, reason }

/-- A state in which a decision is taken: the loop goes on, rounds are left, and the
    queue is in order. -/
structure Ready (s : TaskLoopState) : Prop where
  going : s.is_terminal = false
  left : s.round_no < s.max_rounds
  settled : Settled s

/-- An event that is allowed; a delegation is for an agent without a turn in the
    round, and a decision is taken in a state that is ready for it. -/
def Allowed (events : Event → Prop) (s : TaskLoopState) : Event → Prop
  | .asked (.delegate target spec policy) => NoTurn s target ∧ events (.asked (.delegate target spec policy))
  | .accepted decision => Ready s ∧ events (.accepted decision)
  | event => events event

/-- The rules within a round. -/
def roundRules (events : Event → Prop) : Rules TaskLoopState Event := ⟨RoundMove,Allowed events,Settled⟩
/-- The rules of the loop. -/
def loopRules (ctx : SupervisorContext) (events : Event → Prop) : Rules TaskLoopState Event :=
  ⟨LoopMove ctx,Allowed events,Settled⟩

theorem obeys_loop {ctx : SupervisorContext} {events : Event → Prop} {w w' : World}
    (obeys : Obeys (roundRules events) w w') : Obeys (loopRules ctx events) w w' := by
  have moves : ∀ c s t, (roundRules events).move c s t → (loopRules ctx events).move c s t := fun _ _ _ => LoopMove.round
  obtain ⟨more,journal,follows,board⟩ := obeys
  exact ⟨more,journal,follows_mono moves (fun _ _ allowed => allowed) (fun _ settled => settled) follows,board⟩

theorem runs_loop {ctx : SupervisorContext} {events : Event → Prop} {α : Type} {m : Sup α} {w : World}
    {Q : α → World → Prop} (runs : Runs (Obeys (roundRules events)) m w Q) :
    Runs (Obeys (loopRules ctx events)) m w Q :=
  runs.coarsen fun _ => obeys_loop

/-- Without questions for a decision, the orchestrator is not asked for one. -/
theorem follows_undecided {ctx : SupervisorContext} {events : Event → Prop} {s : TaskLoopState} {journal : Journal}
    (follows : Follows (loopRules ctx (Undecided events)) s journal) : decideCalls journal = 0 := by
  induction journal generalizing s with
  | nil => rfl
  | cons entry rest ih =>
    have later : decideCalls (entry :: rest) = decideCalls [entry] + decideCalls rest :=
      decideCalls_append [entry] rest
    cases entry with
    | wrote cause t => rw [later,ih follows.2]; rfl
    | saved t => rw [later,ih follows.2]; rfl
    | noted event =>
      rw [later,ih follows.2]
      obtain ⟨allowed,-⟩ := follows
      cases event with
      | asked op =>
        cases op with
        | decide view => exact absurd rfl (allowed.2 view)
        | _ => rfl
      | _ => rfl

theorem obeys_undecided {ctx : SupervisorContext} {events : Event → Prop} {w w' : World}
    (obeys : Obeys (loopRules ctx (Undecided events)) w w') :
    Obeys (loopRules ctx events) w w' ∧ decideCalls w'.journal = decideCalls w.journal := by
  obtain ⟨more,journal,follows,board⟩ := obeys
  have looser : ∀ s e, (loopRules ctx (Undecided events)).allows s e → (loopRules ctx events).allows s e := by
    intro s e allowed
    cases e with
    | asked op =>
      cases op with
      | delegate target spec policy => exact ⟨allowed.1,allowed.2.1⟩
      | _ => exact allowed.1
    | accepted decision => exact ⟨allowed.1,allowed.2.1⟩
    | _ => exact allowed.1
  have moves : ∀ c s t, (loopRules ctx (Undecided events)).move c s t → (loopRules ctx events).move c s t :=
    fun _ _ _ move => move
  refine ⟨⟨more,journal,follows_mono moves looser (fun _ settled => settled) follows,board⟩,?_⟩
  rw [journal,decideCalls_append,follows_undecided follows,Nat.add_zero]

/-! ### What a round leaves alone -/

/-- What the moves within a round leave alone, or only extend. -/
structure Frame (s t : TaskLoopState) : Prop where
  session_id : t.session_id = s.session_id := by rfl
  task_id : t.task_id = s.task_id := by rfl
  round_no : t.round_no = s.round_no := by rfl
  max_rounds : t.max_rounds = s.max_rounds := by rfl
  selected : t.selected_agents = s.selected_agents := by rfl
  applied : t.applied_command_keys = s.applied_command_keys := by rfl
  turns : s.turns <+: t.turns := by exact List.prefix_rfl
  queue : s.pending_commands <+: t.pending_commands := by exact List.prefix_rfl
  keys : ∀ k ∈ s.artifacts.keys, k ∈ t.artifacts.keys := by exact fun _ member => member
  going : s.is_terminal = false → t.is_terminal = false := by exact fun going => going
  settled : Settled s → Settled t := by exact fun settled => settled

instance : IsPreorder TaskLoopState Frame where
  refl _ := {}
  trans _ _ _ f g := {
    session_id := g.session_id.trans f.session_id
    task_id := g.task_id.trans f.task_id
    round_no := g.round_no.trans f.round_no
    max_rounds := g.max_rounds.trans f.max_rounds
    selected := g.selected.trans f.selected
    applied := g.applied.trans f.applied
    turns := f.turns.trans g.turns
    queue := f.queue.trans g.queue
    keys := fun k member => g.keys k (f.keys k member)
    going := fun going => g.going (f.going going)
    settled := fun settled => g.settled (f.settled settled) }

/-- A judged row changes nothing but one check. -/
theorem judge_row_ok {s t : TaskLoopState} {row : Fields} (judge : judge_row s row = .ok t) :
    t = s ∨ ∃ id claimed evidence,
      t = { s with acceptance_checks := setCheck id (judged s claimed evidence) s.acceptance_checks } := by
  unfold judge_row at judge
  simp only at judge
  split at judge
  · exact .inl (Except.ok.inj judge).symm
  · rcases read : evidenceOf row with error | evidence
    · rw [read] at judge; cases judge
    · rw [read] at judge
      exact .inr ⟨_,_,evidence,(Except.ok.inj judge).symm⟩

theorem queued_keys_append (pending : List Fields) (more : List RuntimeCommand) :
    queued_keys (pending ++ more.map RuntimeCommand.as_dict) =
      queued_keys pending ++ more.map RuntimeCommand.idempotency_key := by
  simp only [queued_keys,List.map_append,List.map_map]
  rfl

theorem frame_add (s : TaskLoopState) (id : String) (payload : Fields) : Frame s (s.add_artifact id payload) :=
  { keys := fun _ member => Dicts.Dict.mem_keys_put.mpr (.inr member) }

theorem round_frame {cause : Event} {s t : TaskLoopState} (move : RoundMove cause s t) : Frame s t := by
  cases move with
  | post posted => exact frame_add ..
  | worker => exact frame_add ..
  | envelope => exact {}
  | turn => exact { turns := List.prefix_append .. }
  | judge going judge =>
    rcases judge_row_ok judge with rfl | ⟨id,claimed,evidence,rfl⟩
    · exact {}
    · exact {}
  | @queue _ more distinct unseen issued =>
    refine { queue := List.prefix_append .., settled := fun settled => ⟨fun raw queued => ?_,?_,fun key queued => ?_⟩ }
    · rcases List.mem_append.mp queued with early | new
      · exact settled.issued raw early
      · obtain ⟨cmd,inMore,rfl⟩ := List.mem_map.mp new
        exact ⟨cmd,rfl,issued cmd inMore⟩
    · rw [queued_keys_append]
      refine settled.distinct.append distinct fun key early new => ?_
      obtain ⟨cmd,inMore,rfl⟩ := List.mem_map.mp new
      exact (unseen cmd inMore).1 early
    · rw [queued_keys_append] at queued
      rcases List.mem_append.mp queued with early | new
      · exact settled.new key early
      · obtain ⟨cmd,inMore,rfl⟩ := List.mem_map.mp new
        exact (unseen cmd inMore).2
  | status going => exact { going := fun _ => by simpa [TaskLoopState.is_terminal] using going }
  | reason => exact {}
  | output => exact {}

theorem frame_of_obeys {events : Event → Prop} {w w' : World} (obeys : Obeys (roundRules events) w w') :
    Frame w.board w'.board := by
  have along : ∀ c s t, (roundRules events).move c s t → Frame s t := fun _ _ _ => round_frame
  obtain ⟨more,-,follows,board⟩ := obeys
  rw [board]
  exact follows_above along follows _ (after_mem_states _ _)

end HexAgent.Moves
