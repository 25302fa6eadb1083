import HexAgent.Roster

/-!
Requests to add an agent. A decision asks for an agent by a command of its own or,
when it goes on, by calling a department of which the agent is a member outside
the roster. Such a request is met by the checkpoint of the round, unless its
idempotency key was used before for something else: by a command in the queue, by
an earlier command of the decision, or by one applied in the run.
-/
namespace HexAgent.Requests
open HexAgent.Values HexAgent.Board HexAgent.Commands HexAgent.CommandBridge HexAgent.Contracts HexAgent.Graph
open HexAgent.Loop HexAgent.Supervisor HexAgent.Moves HexAgent.Nodes HexAgent.Restarts HexAgent.Roster HexAgent.Roles
open HexAgent.Scripted Journals Programs

/-! ### Requests and their keys -/

/-- The raw command asks to add the agent, under the key. -/
def Adds (raw : Fields) (agent_id key : String) : Prop :=
  typeOf raw = "AddAgentToLoop" ∧ ∃ payload, ((raw.get "payload").orElse (.dict [])).toDict = .ok payload ∧
    strip (payload.textOf "agent_id") = agent_id ∧ keyOf raw payload = key

/-- The decision asks to add the agent under the key, after these raw commands: by one
    of its own, or when it goes on by calling a department with the member. -/
inductive Asks (ctx : SupervisorContext) (decision : OrchestratorDecision) (s : TaskLoopState) (agent_id key : String) :
    List Fields → Prop where
  | command {earlier later : List Fields} {raw : Fields} (own : decision.commands = earlier ++ raw :: later)
      (adds : Adds raw agent_id key) : Asks ctx decision s agent_id key earlier
  | member {member : String} (goes : decision.decision = .continue) (admitted : ToAdmit ctx decision s member)
      (adds : Adds (admissionCommand member) agent_id key) : Asks ctx decision s agent_id key decision.commands

/-- The command adds the agent. -/
def AddsAgent (cmd : RuntimeCommand) (agent_id : String) : Prop :=
  cmd.command_type = "AddAgentToLoop" ∧ agentOf cmd = agent_id

/-- The command was applied somewhere in the run. -/
def AppliedIn (admits : SupervisorContext → Prop) (processes : List (Process TaskLoopState Event))
    (cmd : RuntimeCommand) : Prop :=
  ∃ owner ∈ processes, ∃ before ∈ owner.states, recordCommand before cmd ∈ owner.states ∧
    ∃ ctx, admits ctx ∧ Honoured ctx before cmd

/-- Before the request, which comes after the given raw commands of its decision, the
    key was used for nothing but adding the agent. -/
structure Alone (admits : SupervisorContext → Prop) (processes : List (Process TaskLoopState Event))
    (s : TaskLoopState) (earlier : List Fields) (agent_id key : String) : Prop where
  queued : ∀ raw ∈ s.pending_commands, ∀ cmd, ReadsAs raw cmd → cmd.idempotency_key = key → AddsAgent cmd agent_id
  offered : ∀ raw ∈ earlier, ∀ stamp cmd, to_runtime_command stamp raw s.session_id = .ok cmd →
    cmd.idempotency_key = key → AddsAgent cmd agent_id
  applied : ∀ cmd, AppliedIn admits processes cmd → cmd.idempotency_key = key → agentOf cmd = agent_id

theorem typeOf_admission (member : String) : typeOf (admissionCommand member) = "AddAgentToLoop" := by
  have named : Fields.textOf (admissionCommand member) "command_type" = "AddAgentToLoop" := by
    simp [admissionCommand,Fields.textOf,Fields.getD,Dicts.get]
  rw [typeOf,named]
  decide +kernel

theorem keyOf_admission (member : String) (payload : Fields) :
    keyOf (admissionCommand member) payload = derive_idempotency_key "AddAgentToLoop" payload := by
  have unkeyed : Fields.textOf (admissionCommand member) "idempotency_key" = "" := by
    simp [admissionCommand,Fields.textOf,Fields.getD,Dicts.get]
  have blank : strip "" = "" := by decide
  rw [keyOf,unkeyed,typeOf_admission,blank]
  exact if_pos rfl

/-- A raw command that adds an agent is translated, under its key. -/
theorem Adds.translates {raw : Fields} {agent_id key : String} (adds : Adds raw agent_id key) {session_id : String}
    (owned : session_id ≠ "") (stamp : Stamp) :
    ∃ cmd, to_runtime_command stamp raw session_id = .ok cmd ∧ cmd.idempotency_key = key := by
  obtain ⟨type,payload,read,-,keyed⟩ := adds
  have typed : typeOf raw ≠ "" := by rw [type]; decide
  obtain ⟨cmd,made⟩ := make_succeeds typed owned (keyOf_nonempty typed payload) orchestrator payload stamp
  refine ⟨cmd,by rw [to_runtime_command_eq stamp session_id typed read]; exact made,?_⟩
  rw [(make_fields made).2.2.2.1,keyed]

/-- Whatever it is translated to adds the agent. -/
theorem Adds.addsAgent {raw : Fields} {agent_id key session_id : String} (adds : Adds raw agent_id key) {stamp : Stamp}
    {cmd : RuntimeCommand} (translated : to_runtime_command stamp raw session_id = .ok cmd) : AddsAgent cmd agent_id := by
  obtain ⟨type,payload,read,named,-⟩ := adds
  obtain ⟨payload',read',type',-,-,same⟩ := to_runtime_command_spec translated
  rw [read] at read'
  cases read'
  exact ⟨type'.trans type,by rw [agentOf,same]; exact named⟩

/-- A derived key tells agents apart. -/
theorem derived_key_injective {a b : String}
    (same : derive_idempotency_key "AddAgentToLoop" [("agent_id",.str a)] =
      derive_idempotency_key "AddAgentToLoop" [("agent_id",.str b)]) : strip a = strip b := by
  have named : ∀ x, Fields.textOf [("agent_id",.str x)] "agent_id" = x := fun _ => rfl
  have longer : ∀ x, "AddAgentToLoop" ≠ "AddAgentToLoop" ++ ":" ++ x := by
    intro x equal
    have lengths := congrArg String.length equal
    simp only [String.length_append] at lengths
    have colon : (":" : String).length = 1 := rfl
    omega
  simp only [derive_idempotency_key,named] at same
  split at same
  · next noA =>
    split at same
    · next noB => rw [noA,noB]
    · exact absurd same (longer _)
  · split at same
    · exact absurd same.symm (longer _)
    · exact (String.append_right_inj _).mp same

/-! ### Where a key stands -/

section
variable {ctx : SupervisorContext} {decision : OrchestratorDecision} {s t u : TaskLoopState} {agent_id key : String}
  {earlier : List Fields} {more : List RuntimeCommand}

/-- The command that holds the key of a request in the queue adds the agent, if the
    earlier ones with the key do. -/
theorem queued_adds (owned : s.session_id ≠ "") (settled : Settled s) (enqueued : Enqueued s decision.commands more)
    (carried : Carried ctx decision
      { s with pending_commands := s.pending_commands ++ more.map RuntimeCommand.as_dict } t)
    (distinct : (queued_keys t.pending_commands).Nodup) (asks : Asks ctx decision s agent_id key earlier)
    (before : ∀ raw ∈ s.pending_commands, ∀ cmd, ReadsAs raw cmd → cmd.idempotency_key = key → AddsAgent cmd agent_id)
    (offered : ∀ raw ∈ earlier, ∀ stamp cmd, to_runtime_command stamp raw s.session_id = .ok cmd →
      cmd.idempotency_key = key → AddsAgent cmd agent_id)
    (unapplied : key ∉ s.applied_command_keys) (queued : key ∈ queued_keys t.pending_commands) :
    ∃ cmd : RuntimeCommand, cmd.as_dict ∈ t.pending_commands ∧ cmd.issued_by = orchestrator ∧
      cmd.idempotency_key = key ∧ AddsAgent cmd agent_id := by
  obtain ⟨admitted,queue,sources⟩ := carried.grew
  simp only at queue
  rw [queue,queued_keys_append,queued_keys_append,List.mem_append,List.mem_append] at queued
  rw [queue,queued_keys_append,queued_keys_append] at distinct
  have reads : ∀ cmd : RuntimeCommand, cmd.issued_by = orchestrator → ReadsAs cmd.as_dict cmd := fun cmd issuer =>
    ⟨numbered 0,from_dict_as_dict _ cmd (by rw [issuer]; decide) (by rw [issuer]; decide)⟩
  rcases queued with (early | own) | admission
  · obtain ⟨raw,inQueue,rawKey⟩ := List.mem_map.mp early
    obtain ⟨cmd,rfl,issuer⟩ := settled.issued raw inQueue
    have keyed : cmd.idempotency_key = key := rawKey
    refine ⟨cmd,?_,issuer,keyed,before _ inQueue cmd (reads cmd issuer) keyed⟩
    rw [queue]
    exact List.mem_append_left _ (List.mem_append_left _ inQueue)
  · obtain ⟨cmd,inMore,keyed⟩ := List.mem_map.mp own
    obtain ⟨done,raw,rest,split,⟨stamp,translated⟩,first⟩ := enqueued.source cmd inMore
    obtain ⟨-,-,-,issuer,-⟩ := to_runtime_command_spec translated
    refine ⟨cmd,?_,issuer,keyed,?_⟩
    · rw [queue]
      exact List.mem_append_left _ (List.mem_append_right _ (List.mem_map_of_mem inMore))
    · cases asks with
      | member goes admitted adds =>
        refine offered raw ?_ stamp cmd translated keyed
        rw [split]
        exact List.mem_append_right _ (List.mem_cons_self ..)
      | @command _ later raw' ownCommand adds =>
        -- the queued command is the first with the key, so it is not after the request
        rw [split] at ownCommand
        rcases List.append_eq_append_iff.mp ownCommand with ⟨gap,rfl,tail⟩ | ⟨gap,rfl,tail⟩
        · cases gap with
          | nil =>
            obtain ⟨same,-⟩ := List.cons.inj tail
            rw [same] at translated
            exact adds.addsAgent translated
          | cons head gap =>
            obtain ⟨same,-⟩ := List.cons.inj tail
            refine offered raw ?_ stamp cmd translated keyed
            rw [same]
            exact List.mem_append_right _ (List.mem_cons_self ..)
        · cases gap with
          | nil =>
            obtain ⟨same,-⟩ := List.cons.inj tail
            rw [← same] at translated
            exact adds.addsAgent translated
          | cons head gap =>
            obtain ⟨same,-⟩ := List.cons.inj tail
            obtain ⟨cmd',translated',keyed'⟩ := adds.translates owned stamp
            refine absurd (keyed'.trans keyed.symm) (first raw' ?_ stamp cmd' translated')
            rw [same]
            exact List.mem_append_right _ (List.mem_cons_self ..)
  · obtain ⟨cmd,inAdmitted,keyed⟩ := List.mem_map.mp admission
    obtain ⟨source,⟨-,other,-,rfl⟩,stamp,translated⟩ := sources cmd inAdmitted
    obtain ⟨payload,read,type,issuer,ownKey,same⟩ := to_runtime_command_spec translated
    refine ⟨cmd,?_,issuer,keyed,?_⟩
    · rw [queue]
      exact List.mem_append_right _ (List.mem_map_of_mem inAdmitted)
    · cases asks with
      | command ownCommand adds =>
        -- the request itself is queued before any member is admitted
        obtain ⟨cmd',translated',keyed'⟩ := adds.translates owned stamp
        have held := enqueued_held enqueued rfl
          (by rw [ownCommand]; exact List.mem_append_right _ (List.mem_cons_self ..)) translated'
        rw [keyed'] at held
        have earlierKey := held.resolve_right unapplied
        rw [queued_keys_append] at earlierKey
        exact absurd rfl ((List.nodup_append.mp distinct).2.2 key earlierKey key admission)
      | @member member goes admitted adds =>
        obtain ⟨-,payload',read',named,keyed''⟩ := adds
        cases read
        cases read'
        rw [typeOf_admission] at type
        rw [keyOf_admission] at ownKey keyed''
        have agents := derived_key_injective (ownKey.symm.trans (keyed.trans keyed''.symm))
        refine ⟨type,?_⟩
        rw [agentOf,same]
        exact agents.trans named

/-- By the checkpoint of its round the key of a request is queued or applied. -/
theorem asked_held (owned : s.session_id ≠ "") (enqueued : Enqueued s decision.commands more)
    (carried : Carried ctx decision
      { s with pending_commands := s.pending_commands ++ more.map RuntimeCommand.as_dict } t)
    (asks : Asks ctx decision s agent_id key earlier) : Held t key := by
  cases asks with
  | command own adds =>
    obtain ⟨cmd,translated,keyed⟩ := adds.translates owned (numbered 0)
    rw [← keyed]
    refine held_frame carried.frame (enqueued_held enqueued rfl ?_ translated)
    rw [own]
    exact List.mem_append_right _ (List.mem_cons_self ..)
  | member goes admitted adds =>
    obtain ⟨cmd,translated,keyed⟩ := adds.translates owned (numbered 0)
    rw [← keyed]
    exact carried.held goes _ admitted _ cmd translated

end

section
variable {admits : SupervisorContext → Prop} {items : List Criterion} {processes : List (Process TaskLoopState Event)}

/-- A write adds a key only by recording a command. -/
theorem move_applies {ctx : SupervisorContext} {cause : Event} {s t : TaskLoopState} {key : String}
    (move : LoopMove ctx cause s t) (absent : key ∉ s.applied_command_keys) (present : key ∈ t.applied_command_keys) :
    ∃ cmd, Honoured ctx s cmd ∧ cmd.idempotency_key = key ∧ t = recordCommand s cmd := by
  cases move with
  | round move =>
    rw [(round_frame move).applied] at present
    exact absurd present absent
  | @record _ cmd honoured =>
    rcases List.mem_append.mp present with old | new
    · exact absurd old absent
    · exact ⟨cmd,honoured,(List.mem_singleton.mp new).symm,rfl⟩
  | compose => exact absurd present absent
  | clear => exact absurd present absent
  | advance => exact absurd present absent
  | terminate => exact absurd present absent

/-- An applied key was applied for a command of the run, whose agent is in the roster. -/
theorem applied_origin (run : Run admits items processes) {process : Process TaskLoopState Event}
    (inRun : process ∈ processes) {s : TaskLoopState} (reached : s ∈ process.states) {key : String}
    (applied : key ∈ s.applied_command_keys) :
    ∃ cmd, AppliedIn admits processes cmd ∧ cmd.idempotency_key = key ∧ agentOf cmd ∈ s.selected_agents := by
  have lacks : ∀ start journal, Launches admits items start journal → key ∉ start.applied_command_keys := by
    rintro start journal ⟨ctx,-,task,max_rounds,repeats,budget,emitter,checks,-,rfl,-⟩
    simp [start_state]
  have back : ∀ s t, Reloads s t → key ∈ t.applied_command_keys → key ∈ s.applied_command_keys := by
    intro s t reloads later
    rw [(reloads_reloaded reloads).same] at later
    exact later
  obtain ⟨owner,inRun',before,inBefore,next,inNext,⟨cause,ctx,admitted,move⟩,absent,here,onward⟩ :=
    survives_established (R := Extends) (fun _ _ _ => run_extends) (fun _ _ => reloads_extends)
      (fun s => key ∈ s.applied_command_keys) lacks back run (run_follows run) process inRun s reached applied
  obtain ⟨cmd,honoured,keyed,rfl⟩ := move_applies move absent here
  exact ⟨cmd,⟨owner,inRun',before,inBefore,inNext,ctx,admitted,honoured⟩,keyed,
    onward.selected.subset (mem_recordCommand before cmd)⟩

/-- Every state of a run belongs to a session with an id. -/
theorem run_owned (run : Run admits items processes) :
    ∀ process ∈ processes, ∀ s ∈ process.states, s.session_id ≠ "" := by
  refine survives_invariant ?_ ?_ ?_ run (run_follows run)
  · rintro cause s t ⟨ctx,-,move⟩ owned
    cases move with
    | round move => rw [(round_frame move).session_id]; exact owned
    | compose => exact owned
    | record => exact owned
    | clear => exact owned
    | advance => exact owned
    | terminate => exact owned
  · rintro s journal ⟨ctx,-,task,max_rounds,repeats,budget,emitter,checks,-,rfl,-⟩
    exact ctx.identity.session_id_nonempty
  · intro s t reloads owned
    rw [(reloads_reloaded reloads).same]
    exact owned

/-- Where a decision is taken in a run, the state is ready for it. -/
theorem run_ready (run : Run admits items processes) {process : Process TaskLoopState Event} (inRun : process ∈ processes)
    {before rest : Journal} {decision : OrchestratorDecision}
    (takes : process.journal = before ++ .noted (.accepted decision) :: rest) : Ready (after process.start before) := by
  have follows := run_follows run process inRun
  rw [takes] at follows
  exact (follows_append.mp follows).2.1.1

/-- Where a decision is taken in a run, the state is one of the process. -/
theorem taken_reached {process : Process TaskLoopState Event} {before rest : Journal} {event : Event}
    (takes : process.journal = before ++ .noted event :: rest) : after process.start before ∈ process.states := by
  rw [Process.states,takes]
  exact after_prefix_mem_states process.start before _

/-! ### Requests are met -/

/-- Wherever in a run a decision is taken, if its round comes to the checkpoint, every
    agent of the catalog that the decision asks to add is in the roster that is saved
    there, unless the key of the request was used before for something else. -/
theorem requested_agents_join (run : Run admits items processes) {process : Process TaskLoopState Event}
    (inRun : process ∈ processes) {before rest : Journal} {decision : OrchestratorDecision}
    (takes : process.journal = before ++ .noted (.accepted decision) :: rest) {ctx : SupervisorContext}
    (shipped : ctx.command_registry = load_command_registry) {w w' : World}
    (board : w.board = after process.start before) {vars vars' : DriveVars} {applied : Nat}
    (ends : (takeDecision ctx decision vars).run w = (.ok (some (vars',applied)),w')) {agent_id key : String}
    (listed : ∃ catalog, ctx.catalog = .ok catalog ∧ agent_id ∈ catalog) {earlier : List Fields}
    (asks : Asks ctx decision w.board agent_id key earlier)
    (alone : Alone admits processes w.board earlier agent_id key) :
    agent_id ∈ w'.board.selected_agents ∧ LastSaved ctx w' := by
  have ready := run_ready run inRun takes
  have reached := taken_reached takes
  have owned := run_owned run process inRun _ reached
  rw [← board] at ready reached owned
  obtain ⟨-,⟨⟨more,t,enqueued,carried,closed⟩⟩,saved,-⟩ :=
    (takeDecision_spec usual_everything (fun _ _ _ => trivial) (.inl noisy_everything) ready.going ready.settled
      ready.left vars).returned ends
  refine ⟨?_,saved⟩
  have held := asked_held owned enqueued carried asks
  have sameApplied : t.applied_command_keys = w.board.applied_command_keys := carried.frame.applied
  have sameSelected : t.selected_agents = w.board.selected_agents := carried.frame.selected
  by_cases old : key ∈ t.applied_command_keys
  · rw [sameApplied] at old
    obtain ⟨cmd,appliedIn,keyed,inRoster⟩ := applied_origin run inRun reached old
    rw [alone.applied cmd appliedIn keyed,← sameSelected] at inRoster
    exact closed.selected.subset inRoster
  · have settled : Settled t := carried.frame.settled ((enqueued_frame enqueued).settled ready.settled)
    obtain ⟨cmd,queued,issuer,keyed,adds⟩ := queued_adds owned ready.settled enqueued carried settled.distinct asks
      alone.queued alone.offered (by rw [← sameApplied]; exact old) (held.resolve_right old)
    have reads : ∀ stamp, RuntimeCommand.from_dict stamp cmd.as_dict = .ok cmd := fun stamp =>
      from_dict_as_dict stamp cmd (by rw [issuer]; decide) (by rw [issuer]; decide)
    obtain ⟨catalog,isCatalog,inCatalog⟩ := listed
    have applicable : Applicable ctx catalog t cmd := by
      refine ⟨by rw [keyed]; exact old,by rw [issuer]; rfl,adds.1,?_,by rw [adds.2]; exact inCatalog⟩
      rw [shipped,adds.1]
      exact ⟨_,shipped_addAgent,rfl⟩
    rw [← adds.2]
    exact closed.honours catalog isCatalog settled.distinct _ queued cmd reads applicable

end
/-! ### A request met and a request lost -/

def addReviewer : Fields := [("command_type",.str "AddAgentToLoop"),("payload",.dict [("agent_id",.str "reviewer")])]

/-- The reviewer is asked for. -/
def askedText : String :=
  "\x7b\"decision\":\"continue\",\"commands\":[" ++
    "\x7b\"command_type\":\"AddAgentToLoop\",\"payload\":\x7b\"agent_id\":\"reviewer\"\x7d\x7d]\x7d"

def askedDecision : OrchestratorDecision := { decision := .continue, commands := [addReviewer] }

def pauseUnderKey : Fields := [("command_type",.str "PauseWorkflow"),("idempotency_key",.str "k")]

def addUnderKey : Fields :=
  [("command_type",.str "AddAgentToLoop"),("idempotency_key",.str "k"),("payload",.dict [("agent_id",.str "reviewer")])]

/-- The reviewer is asked for under the key of a command before. -/
def lostText : String :=
  "\x7b\"decision\":\"continue\",\"commands\":[\x7b\"command_type\":\"PauseWorkflow\",\"idempotency_key\":\"k\"\x7d," ++
    "\x7b\"command_type\":\"AddAgentToLoop\",\"idempotency_key\":\"k\",\"payload\":\x7b\"agent_id\":\"reviewer\"\x7d\x7d]\x7d"

def lostDecision : OrchestratorDecision := { decision := .continue, commands := [pauseUnderKey,addUnderKey] }

/-- The state of the crew in which it takes its decision. -/
def crewTaking (text : String) : TaskLoopState := after (crewProcess text).start ((crewProcess text).journal.take 9)

/-- The state in which its round is saved, if it comes to the checkpoint. -/
def crewRound (text : String) (decision : OrchestratorDecision) : Option TaskLoopState :=
  match (takeDecision (crewContext text) decision ⟨{},none,0⟩).run (freshWorld (crewTaking text) none) with
  | (.ok (some _),w) => some w.board
  | _ => none

/-- A round of the crew that comes to its checkpoint is one that a decision takes. -/
theorem crewRound_takes {text : String} {decision : OrchestratorDecision} {s : TaskLoopState}
    (taken : ((crewProcess text).journal[9]?).bind acceptedAt = some decision) (ended : crewRound text decision = some s) :
    ∃ before rest : Journal, (crewProcess text).journal = before ++ .noted (.accepted decision) :: rest ∧
      after (crewProcess text).start before = crewTaking text ∧ ∃ vars vars' applied w w',
        w.board = after (crewProcess text).start before ∧
        (takeDecision (crewContext text) decision vars).run w = (.ok (some (vars',applied)),w') ∧ w'.board = s := by
  refine ⟨(crewProcess text).journal.take 9,_,accepted_split taken,rfl,⟨{},none,0⟩,?_⟩
  unfold crewRound at ended
  split at ended
  · next vars w' ran =>
    refine ⟨vars.1,vars.2,freshWorld (crewTaking text) none,w',?_,ran,Option.some.inj ended⟩
    simp only [freshWorld,crewTaking]
  · cases ended

theorem reviewer_listed (text : String) : ∃ catalog, (crewContext text).catalog = .ok catalog ∧ "reviewer" ∈ catalog := by
  have catalog : (crewContext "").catalog = .ok ["reviewer","writer"] := by decide +kernel
  have same : (crewContext text).catalog = (crewContext "").catalog := by
    unfold crewContext scriptedContext
    rfl
  rw [same]
  exact ⟨_,catalog,by decide⟩

/-- A request under the key of another command is lost. -/
theorem reused_key_loses_agent : Run (fun _ => True) [] [crewProcess lostText] ∧
    (∃ before rest : Journal, (crewProcess lostText).journal = before ++ .noted (.accepted lostDecision) :: rest ∧
      Asks (crewContext lostText) lostDecision (after (crewProcess lostText).start before) "reviewer" "k" [pauseUnderKey] ∧
      ∃ vars vars' applied w w', w.board = after (crewProcess lostText).start before ∧
        (takeDecision (crewContext lostText) lostDecision vars).run w = (.ok (some (vars',applied)),w') ∧
        "reviewer" ∉ w'.board.selected_agents) ∧
    (∃ catalog, (crewContext lostText).catalog = .ok catalog ∧ "reviewer" ∈ catalog) ∧
    ∃ s ∈ saves [crewProcess lostText], s.round_no = 1 ∧ "reviewer" ∉ s.selected_agents := by
  have runs : (((crewProcess lostText).journal[9]?).bind acceptedAt = some lostDecision ∧
      (crewRound lostText lostDecision).map TaskLoopState.selected_agents = some ["writer"]) ∧
      ∃ s ∈ saves [crewProcess lostText], s.round_no = 1 ∧ "reviewer" ∉ s.selected_agents := by decide +kernel
  obtain ⟨⟨taken,round⟩,saved⟩ := runs
  obtain ⟨s,ended,roster⟩ := Option.map_eq_some_iff.mp round
  obtain ⟨before,rest,takes,-,vars,vars',applied,w,w',board,ran,same⟩ := crewRound_takes taken ended
  have adds : Adds addUnderKey "reviewer" "k" :=
    ⟨by decide +kernel,[("agent_id",.str "reviewer")],rfl,by decide +kernel,by decide +kernel⟩
  have lost : "reviewer" ∉ w'.board.selected_agents := by
    rw [same,roster]
    decide
  have own : lostDecision.commands = [pauseUnderKey] ++ addUnderKey :: [] := rfl
  have listed := reviewer_listed lostText
  exact ⟨crew_runs lostText,⟨before,rest,takes,.command own adds,vars,vars',applied,w,w',board,ran,lost⟩,listed,saved⟩

/-- The commands of a process whose queues hold nothing but the request add the reviewer. -/
theorem only_reviewer {process : Process TaskLoopState Event}
    (only : ∀ s ∈ process.states, ∀ raw ∈ s.pending_commands,
      Fields.get raw "payload" = .dict [("agent_id",.str "reviewer")]) {cmd : RuntimeCommand}
    (applied : AppliedIn (fun _ => True) [process] cmd) : agentOf cmd = "reviewer" := by
  obtain ⟨owner,inRun,before,inBefore,-,ctx,-,honoured⟩ := applied
  rw [List.mem_singleton.mp inRun] at inBefore
  obtain ⟨raw,queued,stamp,read⟩ := honoured.queued
  have payload := (from_dict_spec read).2
  rw [only before inBefore raw queued] at payload
  have same : cmd.payload = [("agent_id",.str "reviewer")] := (Except.ok.inj payload).symm
  rw [agentOf,same]
  decide +kernel

theorem asked_reviewer_joins : ∃ w' : World, "reviewer" ∈ w'.board.selected_agents ∧ LastSaved (crewContext askedText) w' := by
  have runs : (((crewProcess askedText).journal[9]?).bind acceptedAt = some askedDecision ∧
      (crewRound askedText askedDecision).isSome = true) ∧
      (crewTaking askedText).pending_commands = [] ∧ ∀ s ∈ (crewProcess askedText).states, ∀ raw ∈ s.pending_commands,
        Fields.get raw "payload" = .dict [("agent_id",.str "reviewer")] := by decide +kernel
  obtain ⟨⟨taken,round⟩,unqueued,only⟩ := runs
  obtain ⟨s,ended⟩ := Option.isSome_iff_exists.mp round
  obtain ⟨before,rest,takes,at9,vars,vars',applied,w,w',board,ran,-⟩ := crewRound_takes taken ended
  have adds : Adds addReviewer "reviewer" "AddAgentToLoop:reviewer" :=
    ⟨by decide +kernel,[("agent_id",.str "reviewer")],rfl,by decide +kernel,by decide +kernel⟩
  have own : askedDecision.commands = [] ++ addReviewer :: [] := rfl
  have alone : Alone (fun _ => True) [crewProcess askedText] w.board [] "reviewer" "AddAgentToLoop:reviewer" := by
    refine ⟨?_,nofun,fun cmd applied _ => only_reviewer only applied⟩
    rw [board,at9,unqueued]
    exact nofun
  have shipped : (crewContext askedText).command_registry = load_command_registry := rfl
  exact ⟨w',requested_agents_join (crew_runs askedText) (List.mem_singleton_self _) takes shipped board ran
    (reviewer_listed askedText) (.command own adds) alone⟩

end HexAgent.Requests
