import HexAgent.Scripted

/-!
The roster of a run and the queue that grows it. In every saved checkpoint the
roster and the applied keys have no duplicates, the queued keys are distinct and
not applied, and every agent was composed into the team or added by a command
whose key is applied. From checkpoint to checkpoint roster and applied keys are
only appended to.
-/
namespace HexAgent.Roster
open HexAgent.Values HexAgent.Board HexAgent.Commands HexAgent.CommandBridge HexAgent.Graph HexAgent.Loop
open HexAgent.Supervisor HexAgent.Moves HexAgent.Nodes HexAgent.Restarts HexAgent.Scripted Journals

/-- The roster and the applied keys were only appended to. -/
structure Extends (s t : TaskLoopState) : Prop where
  selected : s.selected_agents <+: t.selected_agents
  applied : s.applied_command_keys <+: t.applied_command_keys

instance : IsPreorder TaskLoopState Extends where
  refl _ := ⟨List.prefix_rfl,List.prefix_rfl⟩
  trans _ _ _ first second := ⟨first.selected.trans second.selected,first.applied.trans second.applied⟩

/-- The roster and the applied keys have no duplicates. -/
structure Distinct (s : TaskLoopState) : Prop where
  selected : s.selected_agents.Nodup
  applied : s.applied_command_keys.Nodup

/-- The team was composed in the first state, and the agent is in it. -/
def ByTeam (ctx : SupervisorContext) (before after : TaskLoopState) (agent_id : String) : Prop :=
  before.selected_agents = [] ∧ Composed ctx before after.selected_agents ∧ agent_id ∈ after.selected_agents

/-- A command that adds the agent was honoured in the first state, and its key is
    applied in the second. -/
def ByCommand (ctx : SupervisorContext) (before after : TaskLoopState) (agent_id : String) : Prop :=
  ∃ cmd, Honoured ctx before cmd ∧ agentOf cmd = agent_id ∧ cmd.idempotency_key ∈ after.applied_command_keys

/-! ### What one write preserves -/

section
variable {ctx : SupervisorContext} {cause : Event} {s t : TaskLoopState}

theorem Extends.same (selected : t.selected_agents = s.selected_agents)
    (applied : t.applied_command_keys = s.applied_command_keys) : Extends s t :=
  ⟨by rw [selected],by rw [applied]⟩

theorem Distinct.same (distinct : Distinct s) (selected : t.selected_agents = s.selected_agents)
    (applied : t.applied_command_keys = s.applied_command_keys) : Distinct t :=
  ⟨by rw [selected]; exact distinct.selected,by rw [applied]; exact distinct.applied⟩

theorem move_extends (move : LoopMove ctx cause s t) : Extends s t := by
  cases move with
  | round move => exact .same (round_frame move).selected (round_frame move).applied
  | compose fresh => exact ⟨by rw [fresh]; exact List.nil_prefix,List.prefix_rfl⟩
  | record => exact ⟨ recordCommand_prefix ..,List.prefix_append ..⟩
  | clear => exact .same rfl rfl
  | advance => exact .same rfl rfl
  | terminate => exact .same rfl rfl

/-- A recorded command adds its key, which is new, and its agent, unless it is there. -/
theorem Distinct.record (distinct : Distinct s) {cmd : RuntimeCommand}
    (new : cmd.idempotency_key ∉ s.applied_command_keys) : Distinct (recordCommand s cmd) := by
  refine ⟨?_,distinct.applied.append (List.nodup_singleton _) (by simpa using new)⟩
  simp only [recordCommand]
  split
  · exact distinct.selected
  · next absent => exact distinct.selected.append (List.nodup_singleton _) (by simpa using absent)

theorem move_distinct (move : LoopMove ctx cause s t) (distinct : Distinct s) : Distinct t := by
  cases move with
  | round move => exact distinct.same (round_frame move).selected (round_frame move).applied
  | compose fresh nodup => exact ⟨nodup,distinct.applied⟩
  | record honoured => exact distinct.record honoured.new
  | clear => exact distinct.same rfl rfl
  | advance => exact distinct.same rfl rfl
  | terminate => exact distinct.same rfl rfl

/-- A write brings an agent into the roster only by the team or by a command. -/
theorem move_brings {agent_id : String} (move : LoopMove ctx cause s t) (absent : agent_id ∉ s.selected_agents)
    (present : agent_id ∈ t.selected_agents) : ByTeam ctx s t agent_id ∨ ByCommand ctx s t agent_id := by
  cases move with
  | round move =>
    rw [(round_frame move).selected] at present
    exact absurd present absent
  | compose fresh nodup composed => exact .inl ⟨fresh,composed,present⟩
  | @record _ cmd honoured =>
    refine .inr ⟨cmd,honoured,?_,List.mem_append_right _ (List.mem_singleton_self _)⟩
    simp only [recordCommand] at present
    split at present
    · exact absurd present absent
    · rcases List.mem_append.mp present with old | new
      · exact absurd old absent
      · exact (List.mem_singleton.mp new).symm
  | clear => exact absurd present absent
  | advance => exact absurd present absent
  | terminate => exact absurd present absent

end

/-! ### Every run -/

section
variable {admits : SupervisorContext → Prop} {items : List Criterion} {processes : List (Process TaskLoopState Event)}

theorem run_extends {cause : Event} {s t : TaskLoopState} (move : (runRules admits).move cause s t) : Extends s t := by
  obtain ⟨ctx,-,move⟩ := move
  exact move_extends move

theorem reloads_extends {s t : TaskLoopState} (reloads : Reloads s t) : Extends s t := by
  have same := (reloads_reloaded reloads).same
  exact .same (by rw [same]) (by rw [same])

theorem run_distinct (run : Run admits items processes) : ∀ process ∈ processes, ∀ s ∈ process.states, Distinct s := by
  refine survives_invariant ?_ ?_ ?_ run (run_follows run)
  · rintro cause s t ⟨ctx,-,move⟩
    exact move_distinct move
  · rintro s journal ⟨ctx,-,task,max_rounds,repeats,budget,emitter,checks,-,rfl,-⟩
    exact ⟨List.nodup_nil,List.nodup_nil⟩
  · intro s t reloads distinct
    have same := (reloads_reloaded reloads).same
    exact distinct.same (by rw [same]) (by rw [same])

/-- Whoever is in the roster came in earlier in the run, by the team or by a command. -/
theorem run_brings (run : Run admits items processes) {process : Process TaskLoopState Event} (inRun : process ∈ processes)
    {s : TaskLoopState} (reached : s ∈ process.states) {agent_id : String} (present : agent_id ∈ s.selected_agents) :
    ∃ owner ∈ processes, ∃ before ∈ owner.states, ∃ next ∈ owner.states, ∃ ctx, admits ctx ∧ Extends next s ∧
      (ByTeam ctx before next agent_id ∨ ByCommand ctx before next agent_id) := by
  have lacks : ∀ start journal, Launches admits items start journal → agent_id ∉ start.selected_agents := by
    rintro start journal ⟨ctx,-,task,max_rounds,repeats,budget,emitter,checks,-,rfl,-⟩
    simp [start_state]
  have back : ∀ s t, Reloads s t → agent_id ∈ t.selected_agents → agent_id ∈ s.selected_agents := by
    intro s t reloads later
    rw [(reloads_reloaded reloads).same] at later
    exact later
  obtain ⟨owner,inRun',before,inBefore,next,inNext,⟨cause,ctx,admitted,move⟩,absent,here,onward⟩ :=
    survives_established (R := Extends) (fun _ _ _ => run_extends) (fun _ _ => reloads_extends)
      (fun s => agent_id ∈ s.selected_agents) lacks back run (run_follows run) process inRun s reached present
  exact ⟨owner,inRun',before,inBefore,next,inNext,ctx,admitted,onward,move_brings move absent here⟩

/-- Every saved checkpoint has a roster and applied keys without duplicates, queued
    keys that are distinct and not applied, and only agents that were composed or added
    by a command of an agent whose key it has applied; and from one checkpoint to the
    next the roster and the applied keys are only appended to. -/
theorem roster_in_order (run : Run admits items processes) :
    (∀ s ∈ saves processes, s.selected_agents.Nodup ∧ s.applied_command_keys.Nodup ∧
      (queued_keys s.pending_commands).Nodup ∧ (∀ key ∈ queued_keys s.pending_commands, key ∉ s.applied_command_keys) ∧
      ∀ agent_id ∈ s.selected_agents, ∃ owner ∈ processes, ∃ before ∈ owner.states, ∃ ctx, admits ctx ∧
        ((∃ next ∈ owner.states, ByTeam ctx before next agent_id) ∨ ByCommand ctx before s agent_id)) ∧
    (saves processes).IsChain Extends := by
  have follows := run_follows run
  refine ⟨fun s saved => ?_,survives_chain (fun _ _ _ => run_extends) (fun _ _ => reloads_extends) run follows⟩
  obtain ⟨process,inRun,member⟩ := mem_saves.mp saved
  have reached := checkpoints_subset_states (follows process inRun) s member
  have distinct := run_distinct run process inRun s reached
  have settled : Settled s := survives_saves follows s saved
  refine ⟨distinct.selected,distinct.applied,settled.distinct,settled.new,fun agent_id present => ?_⟩
  obtain ⟨owner,inRun',before,inBefore,next,inNext,ctx,admitted,onward,brought⟩ := run_brings run inRun reached present
  refine ⟨owner,inRun',before,inBefore,ctx,admitted,brought.imp (fun team => ⟨next,inNext,team⟩) ?_⟩
  rintro ⟨cmd,honoured,agent,applied⟩
  exact ⟨cmd,honoured,agent,onward.applied.subset applied⟩

end

/-- The review saves a roster. -/
theorem review_roster : ∃ s ∈ saves [reviewProcess], s.selected_agents ≠ [] ∧ s.selected_agents.Nodup := by
  have member : ∃ s ∈ saves [reviewProcess], s.selected_agents ≠ [] := by decide +kernel
  obtain ⟨s,saved,some⟩ := member
  exact ⟨s,saved,some,((roster_in_order review_runs).1 s saved).1⟩

end HexAgent.Roster
