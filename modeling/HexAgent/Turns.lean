import HexAgent.Scripted

/-!
The turns of a run. Along the saved checkpoints turns are only appended, at most
one for each round and agent, and what a turn refers to is on the Blackboard. A
process that resumes delegates to no agent whose turn for the round was saved:
asking anew for a decision may name the same agent, but the turns of the round
are read from the Blackboard before anything runs.
-/
namespace HexAgent.Turns
open HexAgent.Values HexAgent.Board HexAgent.Contracts HexAgent.Schemas HexAgent.Graph HexAgent.Loop HexAgent.Supervisor
open HexAgent.Moves HexAgent.Restarts HexAgent.Scripted Journals

/-- Turns were only appended. -/
def TurnsExtend (s t : TaskLoopState) : Prop := s.turns <+: t.turns

instance : IsPreorder TaskLoopState TurnsExtend where
  refl _ := List.prefix_rfl
  trans _ _ _ first second := first.trans second

/-- At most one turn for each round and agent, and what the turns refer to is there. -/
structure Recorded (s : TaskLoopState) : Prop where
  once : (s.turns.map fun turn => (turn.round_no,turn.agent_id)).Nodup
  packets : ∀ turn ∈ s.turns, turn.packet_id ∈ s.artifacts.keys
  artifacts : ∀ turn ∈ s.turns, ∀ id ∈ turn.artifact_ids, id ∈ s.artifacts.keys

/-! ### What one write preserves -/

theorem move_extends {ctx : SupervisorContext} {cause : Event} {s t : TaskLoopState} (move : LoopMove ctx cause s t) :
    TurnsExtend s t := by
  cases move with
  | round move => exact (round_frame move).turns
  | compose => exact List.prefix_rfl
  | record => exact List.prefix_rfl
  | clear => exact List.prefix_rfl
  | advance => exact List.prefix_rfl
  | terminate => exact List.prefix_rfl

/-- Where the turns stay and no artifact goes, the turns stay recorded. -/
theorem Recorded.mono {s t : TaskLoopState} (recorded : Recorded s) (turns : t.turns = s.turns)
    (kept : ∀ k ∈ s.artifacts.keys, k ∈ t.artifacts.keys) : Recorded t := by
  refine ⟨by rw [turns]; exact recorded.once,fun turn member => ?_,fun turn member id cited => ?_⟩
  · rw [turns] at member
    exact kept _ (recorded.packets turn member)
  · rw [turns] at member
    exact kept _ (recorded.artifacts turn member id cited)

/-- A turn of an agent that has none in the round is recorded beside the others. -/
theorem Recorded.turn {s : TaskLoopState} (recorded : Recorded s) {turn : AgentTurn} (round : turn.round_no = s.round_no)
    (new : NoTurn s turn.agent_id) (packet : turn.packet_id ∈ s.artifacts.keys)
    (ids : ∀ id ∈ turn.artifact_ids, id ∈ s.artifacts.keys) : Recorded { s with turns := s.turns ++ [turn] } := by
  refine ⟨?_,fun other member => ?_,fun other member => ?_⟩
  · rw [List.map_append]
    refine recorded.once.append (List.nodup_singleton _) fun mark early last => ?_
    obtain ⟨old,inTurns,rfl⟩ := List.mem_map.mp early
    have same : (old.round_no,old.agent_id) = (turn.round_no,turn.agent_id) := by simpa using last
    obtain ⟨sameRound,sameAgent⟩ := Prod.mk.inj same
    exact new old inTurns (sameRound.trans round) sameAgent
  · rcases List.mem_append.mp member with early | last
    · exact recorded.packets other early
    · rw [List.mem_singleton.mp last]; exact packet
  · rcases List.mem_append.mp member with early | last
    · exact recorded.artifacts other early
    · rw [List.mem_singleton.mp last]; exact ids

theorem round_recorded {cause : Event} {s t : TaskLoopState} (move : RoundMove cause s t) (recorded : Recorded s) :
    Recorded t := by
  have kept := (round_frame move).keys
  cases move with
  | turn round new packet ids => exact recorded.turn round new packet ids
  | judge going judge =>
    rcases judge_row_ok judge with rfl | ⟨id,claimed,evidence,rfl⟩
    · exact recorded
    · exact recorded.mono rfl kept
  | post => exact recorded.mono rfl kept
  | worker => exact recorded.mono rfl kept
  | envelope => exact recorded.mono rfl kept
  | queue => exact recorded.mono rfl kept
  | status => exact recorded.mono rfl kept
  | reason => exact recorded.mono rfl kept
  | output => exact recorded.mono rfl kept

theorem move_recorded {ctx : SupervisorContext} {cause : Event} {s t : TaskLoopState} (move : LoopMove ctx cause s t)
    (recorded : Recorded s) : Recorded t := by
  cases move with
  | round move => exact round_recorded move recorded
  | compose => exact recorded.mono rfl fun _ => id
  | record => exact recorded.mono rfl fun _ => id
  | clear => exact recorded.mono rfl fun _ => id
  | advance => exact recorded.mono rfl fun _ => id
  | terminate => exact recorded.mono rfl fun _ => id

/-! ### Every run -/

section
variable {admits : SupervisorContext → Prop} {items : List Criterion} {processes : List (Process TaskLoopState Event)}

theorem run_recorded (run : Run admits items processes) : ∀ process ∈ processes, ∀ s ∈ process.states, Recorded s := by
  refine survives_invariant ?_ ?_ ?_ run (run_follows run)
  · rintro cause s t ⟨ctx,-,move⟩
    exact move_recorded move
  · rintro s journal ⟨ctx,-,task,max_rounds,repeats,budget,emitter,checks,-,rfl,-⟩
    exact ⟨List.nodup_nil,by simp [start_state],by simp [start_state]⟩
  · intro s t reloads recorded
    have reloaded := reloads_reloaded reloads
    refine recorded.mono (by rw [reloaded.same]) fun k present => ?_
    rw [reloaded.artifacts.keys]
    exact present

theorem run_extends {cause : Event} {s t : TaskLoopState} (move : (runRules admits).move cause s t) : TurnsExtend s t := by
  obtain ⟨ctx,-,move⟩ := move
  exact move_extends move

/-- A process delegates to no agent with a turn for the round among the turns it
    started from. -/
theorem no_second_delegation {process : Process TaskLoopState Event}
    (follows : Follows (runRules admits) process.start process.journal) {before rest : Journal} {target : String}
    {spec : DelegationSpec} {policy : DelegationPolicy}
    (asks : process.journal = before ++ .noted (.asked (.delegate target spec policy)) :: rest)
    (sameRound : (after process.start before).round_no = process.start.round_no) :
    ∀ turn ∈ process.start.turns, turn.round_no = process.start.round_no → turn.agent_id ≠ target := by
  rw [asks] at follows
  obtain ⟨earlier,⟨new,-⟩,-⟩ := follows_append.mp follows
  have grown : TurnsExtend process.start (after process.start before) :=
    follows_above (fun _ _ _ => run_extends) earlier _ (after_mem_states _ _)
  intro turn member inRound
  exact new turn (grown.subset member) (inRound.trans sameRound.symm)

/-- Along the saved checkpoints turns are only appended; every checkpoint records
    at most one turn for each round and agent, and holds what its turns refer to; and
    no process delegates again, in the round it starts in, to an agent whose turn is
    in the checkpoint it starts from. -/
theorem turns_recorded_once (run : Run admits items processes) :
    (saves processes).IsChain TurnsExtend ∧
    (∀ s ∈ saves processes, (s.turns.map fun turn => (turn.round_no,turn.agent_id)).Nodup ∧
      ∀ turn ∈ s.turns, turn.packet_id ∈ s.artifacts.keys ∧ ∀ id ∈ turn.artifact_ids, id ∈ s.artifacts.keys) ∧
    ∀ process ∈ processes, ∀ before target spec policy rest,
      process.journal = before ++ .noted (.asked (.delegate target spec policy)) :: rest →
      (after process.start before).round_no = process.start.round_no →
      ∀ turn ∈ process.start.turns, turn.round_no = process.start.round_no → turn.agent_id ≠ target := by
  have follows := run_follows run
  refine ⟨?_,fun s saved => ?_,fun process inRun before target spec policy rest asks sameRound => ?_⟩
  · refine survives_chain (fun _ _ _ => run_extends) (fun s t reloads => ?_) run follows
    rw [TurnsExtend,(reloads_reloaded reloads).same]
  · obtain ⟨process,inRun,member⟩ := mem_saves.mp saved
    have recorded := run_recorded run process inRun s (checkpoints_subset_states (follows process inRun) s member)
    exact ⟨recorded.once,fun turn inTurns => ⟨recorded.packets turn inTurns,recorded.artifacts turn inTurns⟩⟩
  · exact no_second_delegation (follows process inRun) asks sameRound

end

/-- The review saves a turn, once. -/
theorem review_turn_once : ∃ s ∈ saves [reviewProcess], s.turns ≠ [] ∧
    (s.turns.map fun turn => (turn.round_no,turn.agent_id)).Nodup := by
  have turn : ∃ s ∈ saves [reviewProcess], s.turns ≠ [] := by decide +kernel
  obtain ⟨s,saved,some⟩ := turn
  exact ⟨s,saved,some,((turns_recorded_once review_runs).2.1 s saved).1⟩

end HexAgent.Turns
