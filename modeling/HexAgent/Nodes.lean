import HexAgent.Moves

/-!
Every node of the supervisor obeys the rules of the loop, one lemma for each
function, from its parts upwards; the last ones are for a whole run, new or
resumed.
-/
namespace HexAgent.Nodes
open HexAgent.Values HexAgent.Board HexAgent.Commands HexAgent.Contracts HexAgent.Roles HexAgent.Schemas
open HexAgent.CommandBridge HexAgent.Graph HexAgent.Loop HexAgent.Supervisor HexAgent.Budgets HexAgent.Moves
open Journals Programs

section
variable {ctx : SupervisorContext} {events : Event → Prop} {α : Type} {w : World}

/-! ### Artifacts -/

theorem runs_post {rules : Rules TaskLoopState Event} {kind : String} {fields : Fields} {k : String → Sup α}
    {Q : α → World → Prop}
    (move : rules.move (.posted kind fields) w.board (w.board.add_artifact (next_id kind w.board) (ofKind kind fields)))
    (rest : Runs (Obeys rules) (k (next_id kind w.board))
      (w.wrote (.posted kind fields) (w.board.add_artifact (next_id kind w.board) (ofKind kind fields))) Q) :
    Runs (Obeys rules) (post kind fields >>= k) w Q := by
  refine Runs.bind (M := fun id w' => id = next_id kind w.board ∧
    w' = w.wrote (.posted kind fields) (w.board.add_artifact (next_id kind w.board) (ofKind kind fields))) ?_ ?_
  · exact runs_board (runs_write move (Runs.pure ⟨rfl,rfl⟩))
  · rintro id w' - ⟨rfl,rfl⟩
    exact rest

/-! ### Decisions -/

/-- What asking for a decision costs: a call for every parse error, and one for the
    decision; there is none when the parse budget is spent. -/
structure Asked (budget : Budget) (w : World) (decided : Bool) (budget' : Budget) (w' : World) : Prop where
  limit : budget'.max_parse_errors = budget.max_parse_errors
  errors : budget.parse_errors ≤ budget'.parse_errors
  calls : (decideCalls w'.journal : Int) =
    decideCalls w.journal + (budget'.parse_errors - budget.parse_errors) + if decided then 1 else 0
  within : decided = true →
    budget'.parse_errors = budget.parse_errors ∨ budget'.parse_errors < budget.max_parse_errors
  spent : budget'.parse_errors ≤ max (budget.parse_errors + 1) budget.max_parse_errors

/-- The budget while the orchestrator is asked again. -/
structure Retrying (budget : Budget) (w : World) (budget' : Budget) (w' : World) : Prop where
  board : w'.board = w.board
  limit : budget'.max_parse_errors = budget.max_parse_errors
  errors : budget.parse_errors ≤ budget'.parse_errors
  calls : (decideCalls w'.journal : Int) = decideCalls w.journal + (budget'.parse_errors - budget.parse_errors)
  within : budget'.parse_errors = budget.parse_errors ∨ budget'.parse_errors < budget.max_parse_errors

/-- Asking for a decision leaves the Blackboard as it is. -/
theorem o_decide_spec (usual : Usual events) (decides : ∀ view, events (.asked (.decide view))) (budget : Budget) :
    Runs (Obeys (roundRules events)) (o_decide ctx budget) w (fun answer w' =>
      w'.board = w.board ∧ Asked budget w answer.1.isSome answer.2 w') := by
  refine Runs.loop (I := Retrying budget w)
    (fun budget _ => (budget.max_parse_errors - budget.parse_errors).toNat) (fun budget' w' _ retrying => ?_) _
    ⟨rfl,rfl,le_refl _,by simp,.inl rfl⟩ (Nat.lt_succ_self _)
  obtain ⟨same,limit,errors,calls,within⟩ := retrying
  unfold askOnce
  refine runs_board (Runs.bind_lift fun view _ => runs_ask (decides view) fun raw _ => ?_)
  have asked : decideCalls (w'.noted (.asked (.decide view))).journal = decideCalls w'.journal + 1 :=
    decideCalls_append ..
  have emitted : ∀ (w₁ w₂ : World) (topic : String) (payload : Fields),
      w₂.journal = w₁.journal ++ [.noted (.emitted topic payload)] → decideCalls w₂.journal = decideCalls w₁.journal := by
    intro w₁ w₂ topic payload journal
    rw [journal,decideCalls_append]
    rfl
  split
  · refine Runs.bind (emit_journal fun _ => usual.emits _ _ (by decide)) fun _ w₁ _ ⟨board,journal⟩ => ?_
    have calls₁ := emitted _ _ _ _ journal
    refine Runs.ite (fun exceeded => Runs.pure ⟨board.trans same,limit,?_,?_,nofun,?_⟩) fun left => ?_
    · simp only [Budget.record_parse_error]
      omega
    · simp only [Budget.record_parse_error,Option.isSome_none,Bool.false_eq_true,if_false]
      omega
    · simp only [Budget.record_parse_error]
      omega
    · have below : ¬ budget'.max_parse_errors ≤ budget'.parse_errors + 1 := fun exceeded => left (decide_eq_true exceeded)
      refine Runs.pure ⟨⟨board.trans same,limit,?_,?_,.inr ?_⟩,?_⟩ <;> simp only [Budget.record_parse_error] <;> omega
  · exact Runs.raise
  · refine Runs.bind (emit_journal fun _ => usual.emits _ _ (by decide)) fun _ w₁ _ ⟨board,journal⟩ => ?_
    have calls₁ := emitted _ _ _ _ journal
    refine Runs.pure ⟨board.trans same,limit,errors,?_,fun _ => within,?_⟩
    · simp only [Option.isSome_some,if_true]
      omega
    · dsimp only
      omega

/-! ### The queue -/

/-- The command is translated from one of these, the first one with its key. -/
def Offers (session_id : String) (commands : List Fields) (cmd : RuntimeCommand) : Prop :=
  ∃ before raw rest, commands = before ++ raw :: rest ∧ (∃ stamp, to_runtime_command stamp raw session_id = .ok cmd) ∧
    ∀ raw' ∈ before, ∀ stamp cmd', to_runtime_command stamp raw' session_id = .ok cmd' →
      cmd'.idempotency_key ≠ cmd.idempotency_key

theorem Offers.append {session_id : String} {commands : List Fields} {cmd : RuntimeCommand}
    (offers : Offers session_id commands cmd) (raw : Fields) : Offers session_id (commands ++ [raw]) cmd := by
  obtain ⟨before,raw',rest,split,found⟩ := offers
  exact ⟨before,raw',rest ++ [raw],by rw [split]; simp,found⟩

theorem Offers.translated {session_id : String} {commands : List Fields} {cmd : RuntimeCommand}
    (offers : Offers session_id commands cmd) :
    ∃ raw ∈ commands, ∃ stamp, to_runtime_command stamp raw session_id = .ok cmd := by
  obtain ⟨before,raw,rest,rfl,translated,-⟩ := offers
  exact ⟨raw,List.mem_append_right _ (List.mem_cons_self ..),translated⟩

/-- The queue that a list of commands leaves: new commands of these, their keys
    unseen and distinct, and every key of these is there now or was seen before. -/
structure Enqueued (s : TaskLoopState) (commands : List Fields) (more : List RuntimeCommand) : Prop where
  distinct : (more.map RuntimeCommand.idempotency_key).Nodup
  unseen : ∀ cmd ∈ more, Unseen s cmd
  source : ∀ cmd ∈ more, Offers s.session_id commands cmd
  present : ∀ raw ∈ commands, ∀ stamp cmd, to_runtime_command stamp raw s.session_id = .ok cmd →
    Unseen s cmd → cmd.idempotency_key ∈ more.map RuntimeCommand.idempotency_key

theorem Enqueued.nil (s : TaskLoopState) : Enqueued s [] [] :=
  ⟨List.nodup_nil,by simp,by simp,by simp⟩

/-- A command that is not queued, because its key was seen or it has none. -/
theorem Enqueued.skip {s : TaskLoopState} {commands : List Fields} {more : List RuntimeCommand}
    (enqueued : Enqueued s commands more) {raw : Fields}
    (seen : ∀ stamp cmd, to_runtime_command stamp raw s.session_id = .ok cmd → Unseen s cmd →
      cmd.idempotency_key ∈ more.map RuntimeCommand.idempotency_key) : Enqueued s (commands ++ [raw]) more where
  distinct := enqueued.distinct
  unseen := enqueued.unseen
  source cmd inMore := (enqueued.source cmd inMore).append raw
  present raw' member stamp cmd translated unseen := by
    rcases List.mem_append.mp member with early | last
    · exact enqueued.present raw' early stamp cmd translated unseen
    · rw [List.mem_singleton.mp last] at translated
      exact seen stamp cmd translated unseen

/-- A command that is queued. -/
theorem Enqueued.add {s : TaskLoopState} {commands : List Fields} {more : List RuntimeCommand}
    (enqueued : Enqueued s commands more) {raw : Fields} {stamp : Stamp} {cmd : RuntimeCommand}
    (translated : to_runtime_command stamp raw s.session_id = .ok cmd) (unseen : Unseen s cmd)
    (new : cmd.idempotency_key ∉ more.map RuntimeCommand.idempotency_key) :
    Enqueued s (commands ++ [raw]) (more ++ [cmd]) where
  distinct := by
    rw [List.map_append]
    exact enqueued.distinct.append (List.nodup_singleton _) (by simpa using new)
  unseen cmd' member := by
    rcases List.mem_append.mp member with early | last
    · exact enqueued.unseen cmd' early
    · rw [List.mem_singleton.mp last]; exact unseen
  source cmd' member := by
    rcases List.mem_append.mp member with early | last
    · exact (enqueued.source cmd' early).append raw
    · rw [List.mem_singleton.mp last]
      refine ⟨commands,raw,[],rfl,⟨stamp,translated⟩,fun raw' earlier stamp' cmd'' translated' same => new ?_⟩
      rw [← same]
      exact enqueued.present raw' earlier stamp' cmd'' translated' (by unfold Unseen; rw [same]; exact unseen)
  present raw' member stamp' cmd' translated' unseen' := by
    rw [List.map_append]
    rcases List.mem_append.mp member with early | last
    · exact List.mem_append_left _ (enqueued.present raw' early stamp' cmd' translated' unseen')
    · rw [List.mem_singleton.mp last] at translated'
      obtain ⟨cmd'',here,key⟩ := translation_stable stamp translated'
      rw [translated] at here
      cases here
      exact List.mem_append_right _ (by simp [key])

/-- The queue after some commands of a decision were offered to it. -/
structure Offered (s : TaskLoopState) (commands : List Fields) (queue : Queue) (more : List RuntimeCommand) : Prop where
  pending : queue.pending = s.pending_commands ++ more.map RuntimeCommand.as_dict
  seen : ∀ key, key ∈ queue.seen ↔ key ∈ more.map RuntimeCommand.idempotency_key ∨
    key ∈ queued_keys s.pending_commands ∨ key ∈ s.applied_command_keys
  enqueued : Enqueued s commands more

theorem Offered.step {s : TaskLoopState} {commands : List Fields} {queue queue' : Queue} {more : List RuntimeCommand}
    (offered : Offered s commands queue more) {stamp : Stamp} {raw : Fields}
    (queued : enqueueOne stamp s.session_id queue raw = .ok queue') :
    ∃ more', Offered s (commands ++ [raw]) queue' more' := by
  rcases enqueueOne_ok queued with ⟨rfl,known⟩ | ⟨cmd,translated,new,rfl⟩
  · refine ⟨more,offered.pending,offered.seen,offered.enqueued.skip fun stamp' cmd translated unseen => ?_⟩
    rcases (offered.seen _).mp (known stamp' cmd translated) with here | queued | applied
    · exact here
    · exact absurd queued unseen.1
    · exact absurd applied unseen.2
  · have unseen : Unseen s cmd :=
      ⟨fun here => new ((offered.seen _).mpr (.inr (.inl here))),fun here => new ((offered.seen _).mpr (.inr (.inr here)))⟩
    have fresh : cmd.idempotency_key ∉ more.map RuntimeCommand.idempotency_key :=
      fun here => new ((offered.seen _).mpr (.inl here))
    refine ⟨more ++ [cmd],by simp [offered.pending],fun key => ?_,offered.enqueued.add translated unseen fresh⟩
    rw [List.mem_cons,offered.seen key,List.map_append,List.mem_append,List.map_singleton,List.mem_singleton,
      or_left_comm,or_assoc]

theorem enqueued_frame {s : TaskLoopState} {commands : List Fields} {more : List RuntimeCommand}
    (enqueued : Enqueued s commands more) :
    Frame s { s with pending_commands := s.pending_commands ++ more.map RuntimeCommand.as_dict } := by
  refine round_frame (RoundMove.queue enqueued.distinct enqueued.unseen fun cmd member => ?_)
  obtain ⟨raw,-,stamp,translated⟩ := (enqueued.source cmd member).translated
  obtain ⟨-,-,-,issuer,-⟩ := to_runtime_command_spec translated
  exact issuer

theorem enqueue_spec (decision : OrchestratorDecision) :
    Runs (Obeys (roundRules events)) (enqueue_commands ctx decision) w (fun _ w' => ∃ more,
      Enqueued w.board decision.commands more ∧
      w'.board = { w.board with pending_commands := w.board.pending_commands ++ more.map RuntimeCommand.as_dict }) := by
  unfold enqueue_commands
  refine runs_board (Runs.bind (M := fun queue (w' : World) => w'.board = w.board ∧
    ∃ more, Offered w.board decision.commands queue more) ?_ ?_)
  · refine Runs.fold_done (I := fun done queue (w' : World) =>
      w'.board = w.board ∧ ∃ more, Offered w.board done queue more) ?_ ?_
    · exact ⟨rfl,[],by simp,by simp,Enqueued.nil _⟩
    · rintro done raw rest - queue w₁ - ⟨board,more,offered⟩
      exact Runs.bind drawStamp_spec fun stamp w₂ _ board' =>
        Runs.lift fun queue' queued => ⟨board'.trans board,offered.step queued⟩
  · rintro queue w' - ⟨board,more,offered⟩
    have state : { w'.board with pending_commands := queue.pending } =
        { w.board with pending_commands := w.board.pending_commands ++ more.map RuntimeCommand.as_dict } := by
      rw [board,offered.pending]
    refine runs_write ?_ (Runs.pure ⟨more,offered.enqueued,state⟩)
    rw [state,board]
    refine RoundMove.queue offered.enqueued.distinct offered.enqueued.unseen fun cmd member => ?_
    obtain ⟨raw,-,stamp,translated⟩ := (offered.enqueued.source cmd member).translated
    obtain ⟨-,-,-,issuer,-⟩ := to_runtime_command_spec translated
    exact issuer

/-- The key is queued or applied. -/
def Held (s : TaskLoopState) (key : String) : Prop :=
  key ∈ queued_keys s.pending_commands ∨ key ∈ s.applied_command_keys

/-- The queue grew by commands translated from these. -/
def Grew (sources : Fields → Prop) (s t : TaskLoopState) : Prop :=
  ∃ more : List RuntimeCommand, t.pending_commands = s.pending_commands ++ more.map RuntimeCommand.as_dict ∧
    ∀ cmd ∈ more, ∃ raw, sources raw ∧ ∃ stamp, to_runtime_command stamp raw s.session_id = .ok cmd

theorem Grew.refl (sources : Fields → Prop) {s t : TaskLoopState} (same : t.pending_commands = s.pending_commands) :
    Grew sources s t := ⟨[],by simpa using same,by simp⟩

theorem Grew.trans {sources : Fields → Prop} {s t u : TaskLoopState} (first : Grew sources s t) (second : Grew sources t u)
    (session : t.session_id = s.session_id) : Grew sources s u := by
  obtain ⟨more,queue,from₁⟩ := first
  obtain ⟨more',queue',from₂⟩ := second
  refine ⟨more ++ more',by rw [queue',queue,List.map_append,List.append_assoc],fun cmd member => ?_⟩
  rcases List.mem_append.mp member with early | late
  · exact from₁ cmd early
  · rw [← session]; exact from₂ cmd late

theorem Grew.mono {sources sources' : Fields → Prop} {s t : TaskLoopState} (grew : Grew sources s t)
    (wider : ∀ raw, sources raw → sources' raw) : Grew sources' s t := by
  obtain ⟨more,queue,origin⟩ := grew
  refine ⟨more,queue,fun cmd member => ?_⟩
  obtain ⟨raw,source,translated⟩ := origin cmd member
  exact ⟨raw,wider raw source,translated⟩

theorem held_frame {s t : TaskLoopState} (frame : Frame s t) {key : String} (held : Held s key) : Held t key := by
  rcases held with queued | applied
  · obtain ⟨later,queue⟩ := frame.queue
    refine .inl ?_
    rw [← queue]
    simp only [queued_keys,List.map_append,List.mem_append]
    exact .inl queued
  · exact .inr (by rw [frame.applied]; exact applied)

theorem enqueued_grew {s t : TaskLoopState} {commands : List Fields} {more : List RuntimeCommand}
    (enqueued : Enqueued s commands more)
    (board : t = { s with pending_commands := s.pending_commands ++ more.map RuntimeCommand.as_dict }) :
    Grew (· ∈ commands) s t :=
  ⟨more,by rw [board],fun cmd member => (enqueued.source cmd member).translated⟩

theorem enqueued_held {s t : TaskLoopState} {commands : List Fields} {more : List RuntimeCommand}
    (enqueued : Enqueued s commands more)
    (board : t = { s with pending_commands := s.pending_commands ++ more.map RuntimeCommand.as_dict }) {raw : Fields}
    (member : raw ∈ commands) {stamp : Stamp} {cmd : RuntimeCommand}
    (translated : to_runtime_command stamp raw s.session_id = .ok cmd) : Held t cmd.idempotency_key := by
  unfold Held
  rw [board,queued_keys_append]
  by_cases unseen : Unseen s cmd
  · exact .inl (List.mem_append_right _ (enqueued.present raw member stamp cmd translated unseen))
  · rcases not_and_or.mp unseen with queued | applied
    · exact .inl (List.mem_append_left _ (not_not.mp queued))
    · exact .inr (not_not.mp applied)

/-! ### A round of delegations -/

/-- The call is one of the decision, or one of a department of the decision to a member. -/
def CallOf (ctx : SupervisorContext) (decision : OrchestratorDecision) (a : AgentAssignment) : Prop :=
  ∃ call ∈ decision.next_agent_calls, call.target_kind = .agent ∧ a = call ∨
    call.target_kind = .department ∧ ∃ registry, ctx.agent_registry = some registry ∧
      ∃ member ∈ registry.members_of call.agent_id, a = memberCall call member

/-- What an expansion consists of, after some calls of a decision. -/
structure Expanded (members_of : String → List String) (selected : List String) (calls : List AgentAssignment)
    (acc : Expansion) : Prop where
  expanded : ∀ a ∈ acc.expanded, ∃ call ∈ calls, call.target_kind = .agent ∧ a = call ∨
    call.target_kind = .department ∧ ∃ member ∈ members_of call.agent_id, a = memberCall call member
  to_admit : ∀ member, member ∈ acc.to_admit ↔
    ∃ call ∈ calls, call.target_kind = .department ∧ member ∈ members_of call.agent_id ∧ member ∉ selected

theorem expandCall_spec {members_of : String → List String} {selected : List String} {calls : List AgentAssignment}
    {acc : Expansion} (before : Expanded members_of selected calls acc) (call : AgentAssignment) :
    Expanded members_of selected (calls ++ [call]) (expandCall members_of selected acc call) := by
  have earlier : ∀ a ∈ acc.expanded, ∃ c ∈ calls ++ [call], c.target_kind = .agent ∧ a = c ∨
      c.target_kind = .department ∧ ∃ member ∈ members_of c.agent_id, a = memberCall c member := fun a member => by
    obtain ⟨c,inCalls,cases⟩ := before.expanded a member
    exact ⟨c,List.mem_append_left _ inCalls,cases⟩
  have last : call ∈ calls ++ [call] := List.mem_append_right _ (List.mem_singleton_self _)
  unfold expandCall
  cases kind : call.target_kind with
  | agent =>
    refine ⟨fun a member => ?_,fun member => ?_⟩
    · rcases List.mem_append.mp member with early | here
      · exact earlier a early
      · rw [List.mem_singleton.mp here]; exact ⟨call,last,.inl ⟨kind,rfl⟩⟩
    · rw [before.to_admit member]
      simp [kind,or_and_right,exists_or]
  | department =>
    simp only
    split
    · next none =>
      refine ⟨earlier,fun member => ?_⟩
      rw [before.to_admit member]
      simp [kind,none,or_and_right,exists_or]
    · refine ⟨fun a member => ?_,fun member => ?_⟩
      · rcases List.mem_append.mp member with early | here
        · exact earlier a early
        · obtain ⟨m,inFilter,rfl⟩ := List.mem_map.mp here
          exact ⟨call,last,.inr ⟨kind,m,(List.mem_filter.mp inFilter).1,rfl⟩⟩
      · rw [List.mem_append,before.to_admit member]
        simp [kind,or_and_right,exists_or]

theorem expand_departments_spec (decision : OrchestratorDecision) (members_of : String → List String)
    (selected : List String) :
    Expanded members_of selected decision.next_agent_calls (expand_departments decision members_of selected) := by
  have grows : ∀ (rest done : List AgentAssignment) (acc : Expansion), Expanded members_of selected done acc →
      Expanded members_of selected (done ++ rest) (rest.foldl (expandCall members_of selected) acc) := by
    intro rest
    induction rest with
    | nil => intro done acc before; simpa using before
    | cons call rest ih =>
      intro done acc before
      have next := ih (done ++ [call]) _ (expandCall_spec before call)
      simpa using next
  exact grows decision.next_agent_calls [] {} ⟨by simp,by simp⟩

/-- The member of a department that a decision calls is not in the roster. -/
def ToAdmit (ctx : SupervisorContext) (decision : OrchestratorDecision) (s : TaskLoopState) (member : String) : Prop :=
  ∃ registry, ctx.agent_registry = some registry ∧ ∃ call ∈ decision.next_agent_calls,
    call.target_kind = .department ∧ member ∈ registry.members_of call.agent_id ∧ member ∉ s.selected_agents

theorem splitCalls_spec (usual : Usual events) (decision : OrchestratorDecision) :
    Runs (Obeys (roundRules events)) (splitCalls ctx decision w.board.selected_agents) w (fun expansion w' =>
      w'.board = w.board ∧ (∀ a ∈ expansion.expanded, CallOf ctx decision a) ∧
      ∀ member, member ∈ expansion.to_admit ↔ ToAdmit ctx decision w.board member) := by
  unfold splitCalls
  split
  · next absent =>
    refine Runs.bind (M := fun _ (w' : World) => w'.board = w.board) ?_ fun _ w' _ board => Runs.pure ?_
    · exact Runs.each rfl fun dept _ w' _ board =>
        (emit_spec fun _ => usual.emits _ _ (by decide)).mono fun _ _ _ same => same.trans board
    · refine ⟨board,fun a member => ?_,fun member => ?_⟩
      · obtain ⟨inCalls,kind⟩ := List.mem_filter.mp member
        refine ⟨a,inCalls,.inl ⟨?_,rfl⟩⟩
        cases target : a.target_kind with
        | agent => rfl
        | department => simp [target] at kind
      · simp [ToAdmit,absent]
  · next registry present =>
    have spec := expand_departments_spec decision registry.members_of w.board.selected_agents
    refine Runs.pure ⟨rfl,fun a member => ?_,fun member => ?_⟩
    · obtain ⟨call,inCalls,⟨kind,same⟩ | ⟨kind,m,inDept,same⟩⟩ := spec.expanded a member
      · exact ⟨call,inCalls,.inl ⟨kind,same⟩⟩
      · exact ⟨call,inCalls,.inr ⟨kind,registry,present,m,inDept,same⟩⟩
    · rw [spec.to_admit member]
      simp [ToAdmit,present]

/-- The command that asks to add one agent. -/
def admissionCommand (member : String) : Fields :=
  [("command_type",.str "AddAgentToLoop"),("payload",.dict [("agent_id",.str member)])]

/-- Admitting members queues a command for each of them, unless its key is held. -/
theorem admitMembers_spec (usual : Usual events) {decision : OrchestratorDecision} {expansion : Expansion}
    (targets : expansion.to_admit ≠ [] → dept_aliases decision ≠ [])
    (silent : Noisy events ∨ dept_aliases decision = []) :
    Runs (Obeys (roundRules events)) (admitMembers ctx decision expansion) w (fun _ w' =>
      Frame w.board w'.board ∧
      Grew (fun raw => ∃ member ∈ expansion.to_admit, raw = admissionCommand member) w.board w'.board ∧
      ∀ member ∈ expansion.to_admit, ∀ stamp cmd,
        to_runtime_command stamp (admissionCommand member) w.board.session_id = .ok cmd →
          Held w'.board cmd.idempotency_key) := by
  unfold admitMembers
  refine Runs.bind (M := fun _ (w' : World) => w'.board = w.board) ?_ fun _ w₁ _ refused => ?_
  · exact Runs.each rfl fun refused _ w' _ board =>
      (emit_spec fun _ => usual.emits _ _ (by decide)).mono fun _ _ _ same => same.trans board
  · refine Runs.ite (fun target => ?_) fun noTarget => ?_
    · refine Runs.bind (M := fun _ (w' : World) => Frame w.board w'.board ∧
        Grew (fun raw => ∃ member ∈ expansion.to_admit, raw = admissionCommand member) w.board w'.board ∧
        ∀ member ∈ expansion.to_admit, ∀ stamp cmd,
          to_runtime_command stamp (admissionCommand member) w.board.session_id = .ok cmd →
            Held w'.board cmd.idempotency_key) ?_ ?_
      · refine (Runs.each_left (I := fun rest (w' : World) => Frame w.board w'.board ∧
          Grew (fun raw => ∃ member ∈ expansion.to_admit, raw = admissionCommand member) w.board w'.board ∧
          (∀ member ∈ rest, member ∈ expansion.to_admit) ∧
          ∀ member ∈ expansion.to_admit, member ∈ rest ∨ ∀ stamp cmd,
            to_runtime_command stamp (admissionCommand member) w.board.session_id = .ok cmd →
              Held w'.board cmd.idempotency_key) ?_ ?_).mono ?_
        · exact ⟨by rw [refused]; exact {},Grew.refl _ (by rw [refused]),fun _ => id,fun _ => .inl⟩
        · rintro member rest w₂ - ⟨frame,grew,subset,held⟩
          refine Runs.bind (enqueue_spec _) fun _ w₃ moved ⟨more,enqueued,board⟩ => Runs.pure ?_
          have frame' := frame_of_obeys moved
          have inAdmit := subset member (List.mem_cons_self ..)
          have step : Grew (fun raw => ∃ member ∈ expansion.to_admit, raw = admissionCommand member) w₂.board w₃.board :=
            (enqueued_grew enqueued board).mono fun raw offered =>
              ⟨member,inAdmit,by simpa [admission,admissionCommand] using offered⟩
          refine ⟨Trans.trans frame frame',grew.trans step frame.session_id,
            fun m inRest => subset m (List.mem_cons_of_mem _ inRest),fun m inExpansion => ?_⟩
          rcases held m inExpansion with left | before
          · rcases List.mem_cons.mp left with rfl | later
            · refine .inr fun stamp cmd translated => ?_
              rw [← frame.session_id] at translated
              exact enqueued_held enqueued board (List.mem_singleton_self _) translated
            · exact .inl later
          · exact .inr fun stamp cmd translated => held_frame frame' (before stamp cmd translated)
        · rintro _ w' - ⟨frame,grew,-,held⟩
          exact ⟨frame,grew,fun member inAdmit => (held member inAdmit).resolve_left (by simp)⟩
      · rintro _ w' - ⟨frame,grew,held⟩
        refine (emit_spec fun _ => silent.resolve_right target _ _).mono fun _ w'' _ board => ?_
        rw [board]
        exact ⟨frame,grew,held⟩
    · have none : expansion.to_admit = [] := by
        by_contra some
        exact noTarget (targets some)
      exact Runs.pure ⟨by rw [refused]; exact {},Grew.refl _ (by rw [refused]),by simp [none]⟩

/-! ### A worker's turn -/

theorem mem_done {s : TaskLoopState} {agent_id : String} : agent_id ∈ done_this_round s ↔ ¬ NoTurn s agent_id := by
  simp [done_this_round,NoTurn,and_assoc]

theorem store_slice_spec (usual : Usual events) (assignment : AgentAssignment) (state : TaskLoopState) :
    Runs (Obeys (roundRules events)) (store_slice ctx assignment state) w (fun _ w' => w'.board = w.board) := by
  unfold store_slice
  refine Runs.ite (fun _ => ?_) fun _ => Runs.pure rfl
  exact Runs.bind (M := fun _ (w' : World) => w'.board = w.board)
    (Runs.update (obeys_noted (usual.asks _ rfl)) rfl) fun _ w₁ _ same => Runs.bind_read (Runs.lift fun _ _ => same)

/-- Only artifacts were added. -/
def ArtifactsOnly (s t : TaskLoopState) : Prop :=
  t = { s with artifacts := t.artifacts } ∧ ∀ k ∈ s.artifacts.keys, k ∈ t.artifacts.keys

theorem artifactsOnly_add {s t : TaskLoopState} (only : ArtifactsOnly s t) (id : String) (payload : Fields) :
    ArtifactsOnly s (t.add_artifact id payload) := by
  refine ⟨?_,fun k member => Dicts.Dict.mem_keys_put.mpr (.inr (only.2 k member))⟩
  rw [only.1]
  rfl

theorem artifactsOnly_noTurn {s t : TaskLoopState} (only : ArtifactsOnly s t) (agent_id : String) :
    NoTurn t agent_id ↔ NoTurn s agent_id := by
  rw [only.1]
  rfl

theorem artifactsOnly_settled {s t : TaskLoopState} (only : ArtifactsOnly s t) (settled : Settled s) : Settled t := by
  rw [only.1]
  exact settled

/-- The artifacts of a worker are merged one after the other. -/
theorem mergeArtifacts_spec (agent_id : String) (artifacts : List ArtifactEnvelope) :
    Runs (Obeys (roundRules events)) (each (merge agent_id) artifacts) w
      (fun _ w' => ArtifactsOnly w.board w'.board ∧ ∀ art ∈ artifacts, art.artifact_id ∈ w'.board.artifacts.keys) := by
  refine (Runs.each_left (I := fun rest (w' : World) => ArtifactsOnly w.board w'.board ∧
    ∀ art ∈ artifacts, art ∈ rest ∨ art.artifact_id ∈ w'.board.artifacts.keys) ?_ ?_).mono ?_
  · exact ⟨⟨rfl,fun _ => id⟩,fun _ => .inl⟩
  · rintro art rest w₁ - ⟨only,there⟩
    refine Runs.update (obeys_wrote RoundMove.worker) ⟨artifactsOnly_add only _ _,fun other member => ?_⟩
    rcases there other member with left | before
    · rcases List.mem_cons.mp left with rfl | later
      · exact .inr (Dicts.Dict.mem_keys_put.mpr (.inl rfl))
      · exact .inl later
    · exact .inr (Dicts.Dict.mem_keys_put.mpr (.inr before))
  · rintro _ w' - ⟨only,there⟩
    exact ⟨only,fun art member => (there art member).resolve_left (by simp)⟩

/-- The state after a turn was recorded. -/
theorem noTurn_append {s : TaskLoopState} {turn : AgentTurn} (round : turn.round_no = s.round_no) (agent_id : String) :
    ¬ NoTurn { s with turns := s.turns ++ [turn] } agent_id ↔ agent_id = turn.agent_id ∨ ¬ NoTurn s agent_id := by
  simp only [NoTurn,List.mem_append,List.mem_singleton,not_forall,not_not]
  constructor
  · rintro ⟨t,early | rfl,inRound,same⟩
    · exact .inr ⟨t,early,inRound,same⟩
    · exact .inl same.symm
  · rintro (rfl | ⟨t,early,inRound,same⟩)
    · exact ⟨turn,.inr rfl,round,rfl⟩
    · exact ⟨t,.inl early,inRound,same⟩

/-- A turn of an agent that has none yet in the round. -/
theorem worker_turn_spec (usual : Usual events) {a : AgentAssignment} (new : NoTurn w.board a.agent_id)
    (granted : ∀ spec, events (.asked (.delegate a.agent_id spec (policyOf a)))) (settled : Settled w.board) :
    Runs (Obeys (roundRules events)) (worker_turn ctx a) w (fun _ w' =>
      w'.board.pending_commands = w.board.pending_commands ∧
      ∀ x, ¬ NoTurn w'.board x ↔ x = a.agent_id ∨ ¬ NoTurn w.board x) := by
  unfold worker_turn
  refine runs_board (Runs.bind (store_slice_spec usual a w.board) fun slice w₁ _ same => ?_)
  refine runs_ask (usual.asks _ rfl) fun packet _ => Runs.ite (fun _ => Runs.raise) fun _ => ?_
  refine runs_post (RoundMove.post (Posted.packet packet)) (runs_ask ?_ fun result answered => ?_)
  · simp only [board_wrote,board_noted,same]
    exact ⟨new,granted _⟩
  · have packetKept : ArtifactsOnly w.board (w₁.board.add_artifact (next_id "context_packet" w₁.board)
        (ofKind "context_packet" (packetFields packet))) := by
      rw [same]
      exact artifactsOnly_add ⟨rfl,fun _ => id⟩ _ _
    refine Runs.bind (mergeArtifacts_spec a.agent_id result.artifacts) fun _ w₂ _ ⟨only,there⟩ => ?_
    simp only [board_wrote,board_noted] at only there
    refine runs_post (RoundMove.post (Posted.result a.agent_id result)) ?_
    have packetThere : next_id "context_packet" w₁.board ∈ w₂.board.artifacts.keys :=
      only.2 _ (Dicts.Dict.mem_keys_put.mpr (.inl rfl))
    have kept : ArtifactsOnly w.board w₂.board := by
      refine ⟨?_,fun k member => only.2 k (packetKept.2 k member)⟩
      rw [only.1,packetKept.1]
    have posted := artifactsOnly_add kept (next_id "delegation_result" w₂.board)
      (ofKind "delegation_result" (resultFields a.agent_id result))
    refine runs_write (RoundMove.turn rfl ?_ ?_ ?_) ?_
    · exact (artifactsOnly_noTurn posted _).mpr new
    · exact Dicts.Dict.mem_keys_put.mpr (.inr packetThere)
    · intro id member
      rcases List.mem_append.mp member with worker | own
      · obtain ⟨art,inResult,rfl⟩ := List.mem_map.mp worker
        exact Dicts.Dict.mem_keys_put.mpr (.inr (there art inResult))
      · rw [List.mem_singleton.mp own]
        exact Dicts.Dict.mem_keys_put.mpr (.inl rfl)
    · refine runs_emit (fun _ => usual.emits _ _ (by decide)) fun w₃ _ board => ?_
      simp only [board_wrote] at board
      refine (save_spec (fun _ _ => usual.asks _ rfl) ?_).mono fun _ w₄ _ board' => ?_
      · have inOrder := artifactsOnly_settled posted settled
        rw [board]
        exact inOrder
      · rw [board',board]
        refine ⟨by rw [posted.1],fun x => ?_⟩
        rw [← artifactsOnly_noTurn posted x]
        exact noTurn_append rfl x

/-- Every call whose agent has no turn in the round runs. -/
theorem runCalls_spec (usual : Usual events) {calls : List AgentAssignment}
    (granted : ∀ a ∈ calls, ∀ spec, events (.asked (.delegate a.agent_id spec (policyOf a))))
    (settled : Settled w.board) :
    Runs (Obeys (roundRules events)) (fold (runCall ctx) (done_this_round w.board) calls) w (fun _ w' =>
      w'.board.pending_commands = w.board.pending_commands) := by
  refine (Runs.fold (I := fun done (w' : World) => w'.board.pending_commands = w.board.pending_commands ∧
    ∀ x, x ∈ done ↔ ¬ NoTurn w'.board x) ⟨rfl,fun _ => mem_done⟩ ?_).mono fun _ _ _ kept => kept.1
  rintro a member done w₁ moved ⟨queue,known⟩
  unfold runCall
  refine Runs.ite (fun _ => Runs.pure ⟨queue,known⟩) fun absent => ?_
  have new : NoTurn w₁.board a.agent_id := by
    by_contra turn
    exact absent ((known _).mpr turn)
  refine Runs.bind (worker_turn_spec usual new (granted a member) ((frame_of_obeys moved).settled settled))
    fun _ w₂ _ ⟨queue',turns⟩ => Runs.pure ⟨queue'.trans queue,fun x => ?_⟩
  rw [List.mem_cons,turns x,known x]

/-- Every call that the decision can make is granted. -/
def Granted (ctx : SupervisorContext) (events : Event → Prop) (decision : OrchestratorDecision) : Prop :=
  ∀ a, CallOf ctx decision a → ∀ spec, events (.asked (.delegate a.agent_id spec (policyOf a)))

/-- Members are admitted only for departments that are called. -/
theorem departments_called {decision : OrchestratorDecision} {board : TaskLoopState} {expansion : Expansion}
    (admits : ∀ member, member ∈ expansion.to_admit ↔ ToAdmit ctx decision board member) (some : expansion.to_admit ≠ []) :
    dept_aliases decision ≠ [] := by
  obtain ⟨member,inAdmit⟩ := List.exists_mem_of_ne_nil _ some
  obtain ⟨-,-,call,inCalls,kind,-⟩ := (admits member).mp inAdmit
  refine List.ne_nil_of_mem (List.mem_map.mpr ⟨call,List.mem_filter.mpr ⟨inCalls,?_⟩,rfl⟩)
  simp [kind]

theorem run_round_spec (usual : Usual events) {decision : OrchestratorDecision} (granted : Granted ctx events decision)
    (silent : Noisy events ∨ dept_aliases decision = []) (settled : Settled w.board) :
    Runs (Obeys (roundRules events)) (run_round ctx decision) w (fun _ w' =>
      Grew (fun raw => ∃ member, ToAdmit ctx decision w.board member ∧ raw = admissionCommand member) w.board w'.board ∧
      ∀ member, ToAdmit ctx decision w.board member → ∀ stamp cmd,
        to_runtime_command stamp (admissionCommand member) w.board.session_id = .ok cmd →
          Held w'.board cmd.idempotency_key) := by
  unfold run_round
  refine runs_board (Runs.bind (splitCalls_spec usual decision) fun expansion w₁ _ ⟨same,calls,admits⟩ => ?_)
  refine Runs.bind (admitMembers_spec usual (departments_called admits) silent) fun _ w₂ _ ⟨frame,grew,held⟩ => ?_
  rw [same] at frame grew held
  refine Runs.bind_lift fun _ checked => runs_board ?_
  refine Runs.bind (runCalls_spec usual (fun a member => granted a (calls a member)) (frame.settled settled))
    fun _ w₃ moved queue => ?_
  refine Runs.update (obeys_wrote (RoundMove.status (by decide))) ⟨?_,fun member inAdmit stamp cmd translated => ?_⟩
  · refine Grew.trans (grew.mono fun raw ⟨member,inAdmit,same⟩ => ⟨member,(admits member).mp inAdmit,same⟩)
      (Grew.refl _ queue) frame.session_id
  · exact held_frame (frame_of_obeys moved) (held member ((admits member).mpr inAdmit) stamp cmd translated)

/-! ### Tools and acceptance -/

theorem run_tool_spec (usual : Usual events) (decision : OrchestratorDecision) :
    Runs (Obeys (roundRules events)) (run_tool ctx decision) w (fun _ w' =>
      w'.board.pending_commands = w.board.pending_commands) := by
  unfold run_tool
  refine Runs.bind (M := fun _ (w' : World) => w'.board.pending_commands = w.board.pending_commands) ?_
    fun _ w' _ queue => Runs.update (obeys_wrote (RoundMove.status (by decide))) queue
  refine Runs.each rfl fun req _ w₁ _ queue => ?_
  unfold runRequest
  refine Runs.bind_lift fun args _ => runs_ask (usual.asks _ rfl) fun envelope _ => runs_board ?_
  refine runs_write RoundMove.envelope (runs_write (RoundMove.post (Posted.tool _ envelope)) ?_)
  exact (emit_spec fun _ => usual.emits _ _ (by decide)).mono fun _ _ _ board => by rw [board]; exact queue

/-- The Blackboard after some reported rows. -/
def judgeRows (state : TaskLoopState) (rows : List Fields) : Except PyError TaskLoopState := rows.foldlM judge_row state

theorem judgeRows_cons (s : TaskLoopState) (row : Fields) (rows : List Fields) :
    judgeRows s (row :: rows) = (judge_row s row).bind fun t => judgeRows t rows := List.foldlM_cons ..

theorem judgeRows_snoc {s t u : TaskLoopState} {rows : List Fields} {row : Fields} (judged : judgeRows s rows = .ok t)
    (next : judge_row t row = .ok u) : judgeRows s (rows ++ [row]) = .ok u := by
  unfold judgeRows at judged ⊢
  rw [List.foldlM_append,judged]
  simp [bind,Except.bind,next,pure,Except.pure]

/-- Judged rows change nothing but the checks. -/
theorem judgeRows_only {s t : TaskLoopState} {rows : List Fields} (judge : judgeRows s rows = .ok t) :
    t = { s with acceptance_checks := t.acceptance_checks } := by
  induction rows generalizing s with
  | nil => cases judge; rfl
  | cons row rest ih =>
    rw [judgeRows_cons] at judge
    rcases first : judge_row s row with error | s'
    · rw [first] at judge; cases judge
    · rw [first] at judge
      rw [ih judge]
      rcases judge_row_ok first with rfl | ⟨id,claimed,evidence,rfl⟩
      · rfl
      · rfl

/-- Judging needs a loop that goes on, and it goes on afterwards. -/
theorem judge_acceptance_spec {decision : OrchestratorDecision} (going : w.board.is_terminal = false) :
    Runs (Obeys (roundRules events)) (judge_acceptance decision) w (fun _ w' => ∃ t,
      judgeRows w.board decision.acceptance_status = .ok t ∧ w'.board = { t with status := .REVIEWING_AC }) := by
  unfold judge_acceptance
  refine Runs.bind (M := fun _ (w' : World) => judgeRows w.board decision.acceptance_status = .ok w'.board) ?_
    fun _ w' _ judged => Runs.update (obeys_wrote (RoundMove.status (by decide))) ⟨w'.board,judged,rfl⟩
  refine Runs.fold_done (I := fun done _ (w' : World) => judgeRows w.board done = .ok w'.board) rfl ?_
  rintro done row rest - _ w₁ moved judged
  refine runs_board (Runs.bind_lift fun t judge => ?_)
  exact Runs.update (obeys_wrote (RoundMove.judge ((frame_of_obeys moved).going going) judge))
    (judgeRows_snoc judged judge)

/-! ### Saving and ending -/

/-- With a database, the last state saved is the Blackboard. -/
def LastSaved (ctx : SupervisorContext) (w : World) : Prop :=
  ctx.checkpoint.isSome → (checkpoints w.journal).getLast? = some w.board

theorem save_last {rules : Rules TaskLoopState Event} (allowed : ∀ s document, rules.allows s (.asked (.save document)))
    (settled : rules.saves w.board) :
    Runs (Obeys rules) (save ctx) w (fun _ w' => w'.board = w.board ∧ LastSaved ctx w') := by
  refine (save_spec allowed settled).both ?_ |>.mono fun _ w' _ both => ⟨both.1,both.2⟩
  unfold save
  cases database : ctx.checkpoint with
  | none => exact Runs.pure fun some => by simp [database] at some
  | some _ =>
    refine runs_board (Runs.bind_lift fun document _ => runs_ask (allowed _ _) fun _ _ => ?_)
    refine Runs.update ⟨[.saved w.board],rfl,⟨⟨rfl,settled⟩,trivial⟩,rfl⟩ fun _ => ?_
    simp [World.noted,checkpoints]

theorem emit_last {rules : Rules TaskLoopState Event} {topic : String} {payload : Fields}
    (allowed : ∀ s, rules.allows s (.emitted topic payload)) (last : LastSaved ctx w) :
    Runs (Obeys rules) (emit ctx topic payload) w (fun _ w' => w'.board = w.board ∧ LastSaved ctx w') := by
  refine (emit_journal allowed).mono fun _ w' _ ⟨board,journal⟩ => ⟨board,fun database => ?_⟩
  rw [journal,checkpoints_append,board]
  simpa [checkpoints] using last database

theorem declared_status {status : TaskLoopStatus} (ends : status ∈ TERMINAL) : Declared ("loop." ++ status.value) := by
  cases status <;> first | exact absurd ends (by decide) | decide

theorem terminate_spec (usual : Usual events) {status : TaskLoopStatus} {reason : String} (ends : status ∈ TERMINAL)
    (earned : status = .FINISHED → w.board.all_accepted = true) (settled : Settled w.board) :
    Runs (Obeys (loopRules ctx events)) (terminate ctx status reason) w (fun _ w' =>
      w'.board = { w.board with status, reason } ∧ LastSaved ctx w') := by
  unfold terminate
  refine runs_write (LoopMove.terminate ends earned) (runs_board (runs_emit ?_ fun w₁ _ board => ?_))
  · exact fun _ => usual.emits _ _ (declared_status ends)
  refine (save_last (fun _ _ => usual.asks _ rfl) ?_).mono fun _ w₂ _ ⟨board',last⟩ => ⟨board'.trans board,last⟩
  rw [board]
  exact settled

/-! ### Applying commands -/

/-- The command adds an agent of the catalog, it may be applied at a checkpoint, and
    its key is new. -/
structure Applicable (ctx : SupervisorContext) (catalog : List String) (s : TaskLoopState) (cmd : RuntimeCommand) :
    Prop where
  new : cmd.idempotency_key ∉ s.applied_command_keys
  issuer : cmd.issued_by.type = .agent
  type : cmd.command_type = "AddAgentToLoop"
  known : ∃ spec, ctx.command_registry.get cmd.command_type = .ok spec ∧ spec.apply_at = .next_checkpoint
  listed : agentOf cmd ∈ catalog

/-- Applying the command publishes nothing that is not declared: its type is
    unknown, or it adds an agent outside the catalog or in the roster. -/
def Quiet (ctx : SupervisorContext) (catalog selected : List String) (cmd : RuntimeCommand) : Prop :=
  match ctx.command_registry.get cmd.command_type with
  | .error _ => True
  | .ok spec => cmd.issued_by.type = .agent → spec.apply_at = .next_checkpoint ∧ cmd.command_type = "AddAgentToLoop" ∧
      (agentOf cmd ∈ catalog → agentOf cmd ∈ selected)

/-- What applying one queued command does: nothing, or it records an honoured one;
    an applicable command brings its agent into the roster. -/
structure AppliedOne (ctx : SupervisorContext) (catalog : List String) (s t : TaskLoopState) (raw : Fields) : Prop where
  outcome : t = s ∨ ∃ cmd, Honoured ctx s cmd ∧ cmd.idempotency_key = raw.textOf "idempotency_key" ∧
    t = recordCommand s cmd
  honours : ∀ cmd, (∀ stamp, RuntimeCommand.from_dict stamp raw = .ok cmd) → Applicable ctx catalog s cmd →
    agentOf cmd ∈ t.selected_agents

theorem mem_recordCommand (s : TaskLoopState) (cmd : RuntimeCommand) :
    agentOf cmd ∈ (recordCommand s cmd).selected_agents := by
  simp only [recordCommand]
  split
  · next present => exact present
  · exact List.mem_append_right _ (List.mem_singleton_self _)

/-- A command that is read has the key and the payload of its dictionary. -/
theorem from_dict_spec {stamp : Stamp} {raw : Fields} {cmd : RuntimeCommand}
    (read : RuntimeCommand.from_dict stamp raw = .ok cmd) :
    cmd.idempotency_key = raw.textOf "idempotency_key" ∧
      ((raw.get "payload").orElse (.dict [])).toDict = .ok cmd.payload := by
  unfold RuntimeCommand.from_dict at read
  simp only [bind,Except.bind] at read
  split at read
  · cases read
  · split at read
    · cases read
    · next payload isPayload =>
      split at read
      · cases read
      · obtain ⟨-,-,-,key,same⟩ := make_fields read
        exact ⟨key,by rw [isPayload,same]⟩

private theorem appliedOne_ignored {catalog : List String} {s : TaskLoopState} {raw : Fields} {stamp : Stamp}
    {cmd : RuntimeCommand} (read : RuntimeCommand.from_dict stamp raw = .ok cmd)
    (not : ¬ Applicable ctx catalog s cmd) : AppliedOne ctx catalog s s raw := by
  refine ⟨.inl rfl,fun cmd' reads applicable => absurd ?_ not⟩
  have same := (reads stamp).symm.trans read
  cases same
  exact applicable

private theorem appliedOne_recorded {catalog : List String} {s : TaskLoopState} {raw : Fields} {stamp : Stamp}
    {cmd : RuntimeCommand} (read : RuntimeCommand.from_dict stamp raw = .ok cmd) (honoured : Honoured ctx s cmd) :
    AppliedOne ctx catalog s (recordCommand s cmd) raw := by
  refine ⟨.inr ⟨cmd,honoured,(from_dict_spec read).1,rfl⟩,fun cmd' reads applicable => ?_⟩
  have same := (reads stamp).symm.trans read
  cases same
  exact mem_recordCommand s cmd

/-- The commands that a queued one can be read as. -/
def ReadsAs (raw : Fields) (cmd : RuntimeCommand) : Prop := ∃ stamp, RuntimeCommand.from_dict stamp raw = .ok cmd

theorem applyOne_spec (usual : Usual events) {catalog : List String} (listed : ctx.catalog = .ok catalog) {raw : Fields}
    (queued : raw ∈ w.board.pending_commands)
    (silent : Noisy events ∨ ∀ cmd, ReadsAs raw cmd → Quiet ctx catalog w.board.selected_agents cmd) (applied : Nat) :
    Runs (Obeys (loopRules ctx events)) (applyOne ctx ctx.command_registry catalog applied raw) w (fun applied' w' =>
      AppliedOne ctx catalog w.board w'.board raw ∧
      applied' + w.board.selected_agents.length = applied + w'.board.selected_agents.length) := by
  unfold applyOne
  refine Runs.bind drawStamp_spec fun stamp w₁ _ same => Runs.bind_lift fun cmd read =>
    runs_board ?_
  rw [← same] at queued silent ⊢
  have quiet : Noisy events ∨ Quiet ctx catalog w₁.board.selected_agents cmd :=
    silent.imp_right fun quiet => quiet cmd ⟨stamp,read⟩
  have ignored : ∀ (topic : String) (payload : Fields), (Declared topic ∨ Noisy events) →
      ¬ Applicable ctx catalog w₁.board cmd →
      Runs (Obeys (loopRules ctx events)) (do emit ctx topic payload; pure applied) w₁ (fun applied' w' =>
        AppliedOne ctx catalog w₁.board w'.board raw ∧
        applied' + w₁.board.selected_agents.length = applied + w'.board.selected_agents.length) := by
    intro topic payload declared not
    refine runs_emit (fun _ => ?_) fun w₂ _ board => Runs.pure ?_
    · exact declared.elim (usual.emits topic payload) fun noisy => noisy topic payload
    · rw [board]
      exact ⟨appliedOne_ignored read not,rfl⟩
  refine Runs.ite (fun old => Runs.pure ⟨appliedOne_ignored read fun a => a.new old,rfl⟩) fun new => ?_
  split
  · next error unknown =>
    refine ignored _ _ (.inl (by decide)) fun a => ?_
    obtain ⟨spec,known,-⟩ := a.known
    rw [unknown] at known
    cases known
  · next spec known =>
    simp only [Quiet,known] at quiet
    refine Runs.ite (fun other => ignored _ _ (.inl (by decide)) fun a => other a.issuer) fun issuer => ?_
    have quiet := quiet.imp_right fun quiet => quiet (not_not.mp issuer)
    refine Runs.ite (fun late => ignored _ _ ?_ fun a => ?_) fun timely => ?_
    · exact .inr (quiet.resolve_right fun quiet => late quiet.1)
    · obtain ⟨spec',known',timely⟩ := a.known
      rw [known] at known'
      cases known'
      exact late timely
    · refine Runs.ite (fun other => ignored _ _ ?_ fun a => other a.type) fun type => ?_
      · exact .inr (quiet.resolve_right fun quiet => other quiet.2.1)
      refine Runs.ite (fun absent => ignored _ _ (.inl (by decide)) fun a => absent a.listed) fun present => ?_
      have honoured : Honoured ctx w₁.board cmd := by
        refine ⟨⟨raw,queued,stamp,read⟩,new,not_not.mp issuer,not_not.mp type,⟨spec,known,not_not.mp timely⟩,
          catalog,listed,not_not.mp present⟩
      refine Runs.ite (fun inside => ?_) fun outside => ?_
      · have state : { w₁.board with applied_command_keys := w₁.board.applied_command_keys ++ [cmd.idempotency_key] } =
            recordCommand w₁.board cmd := by
          rw [recordCommand,if_pos (show agentOf cmd ∈ w₁.board.selected_agents from inside)]
        refine runs_write ?_ (Runs.pure ?_)
        · rw [state]; exact LoopMove.record honoured
        · rw [board_wrote,state]
          refine ⟨appliedOne_recorded read honoured,?_⟩
          rw [← state]
      · have state : { w₁.board with applied_command_keys := w₁.board.applied_command_keys ++ [cmd.idempotency_key],
                                     selected_agents := w₁.board.selected_agents ++ [agentOf cmd] } =
            recordCommand w₁.board cmd := by
          rw [recordCommand,if_neg (show agentOf cmd ∉ w₁.board.selected_agents from outside)]
        refine runs_write ?_ (runs_emit (fun _ => ?_) fun w₂ _ board => Runs.pure ?_)
        · exact (show (loopRules ctx events).move _ _ _ from state ▸ LoopMove.record honoured)
        · exact quiet.resolve_right (fun quiet => outside (quiet.2.2 (not_not.mp present))) _ _
        · rw [board,board_wrote]
          refine ⟨?_,?_⟩
          · exact (show AppliedOne _ _ _ _ _ from state ▸ appliedOne_recorded read honoured)
          · simp only [List.length_append,List.length_singleton]; omega

/-- The state while the queued commands are applied, with those done so far. -/
structure Applying (ctx : SupervisorContext) (catalog : List String) (s t : TaskLoopState) (done : List Fields) :
    Prop where
  same : t = { s with selected_agents := t.selected_agents, applied_command_keys := t.applied_command_keys }
  selected : s.selected_agents <+: t.selected_agents
  applied : s.applied_command_keys <+: t.applied_command_keys
  keys : ∀ key ∈ t.applied_command_keys, key ∈ s.applied_command_keys ∨ key ∈ queued_keys done
  honours : (queued_keys s.pending_commands).Nodup → ∀ raw ∈ done, ∀ cmd,
    (∀ stamp, RuntimeCommand.from_dict stamp raw = .ok cmd) → Applicable ctx catalog s cmd →
      agentOf cmd ∈ t.selected_agents

theorem recordCommand_prefix (s : TaskLoopState) (cmd : RuntimeCommand) :
    s.selected_agents <+: (recordCommand s cmd).selected_agents := by
  simp only [recordCommand]
  split
  · exact List.prefix_rfl
  · exact List.prefix_append ..

theorem Applying.step {catalog : List String} {s t t' : TaskLoopState} {done rest : List Fields} {raw : Fields}
    (applying : Applying ctx catalog s t done) (one : AppliedOne ctx catalog t t' raw)
    (split : s.pending_commands = done ++ raw :: rest) : Applying ctx catalog s t' (done ++ [raw]) := by
  have grows : t.selected_agents <+: t'.selected_agents := by
    rcases one.outcome with rfl | ⟨cmd,-,-,rfl⟩
    · exact List.prefix_rfl
    · exact recordCommand_prefix t cmd
  refine ⟨?_,applying.selected.trans grows,?_,fun key present => ?_,fun distinct raw' member cmd reads applicable => ?_⟩
  · rcases one.outcome with rfl | ⟨cmd,-,-,rfl⟩
    · exact applying.same
    · rw [applying.same]; rfl
  · rcases one.outcome with rfl | ⟨cmd,-,-,rfl⟩
    · exact applying.applied
    · exact applying.applied.trans (List.prefix_append ..)
  · rw [queued_keys,List.map_append,List.mem_append]
    rcases one.outcome with rfl | ⟨cmd,-,key,rfl⟩
    · exact (applying.keys _ present).imp_right .inl
    · rcases List.mem_append.mp present with before | new
      · exact (applying.keys _ before).imp_right .inl
      · rw [List.mem_singleton.mp new,key]
        exact .inr (.inr (List.mem_singleton_self _))
  · rcases List.mem_append.mp member with early | last
    · exact grows.subset (applying.honours distinct raw' early cmd reads applicable)
    · rw [List.mem_singleton.mp last] at reads
      refine one.honours cmd reads { applicable with new := fun old => ?_ }
      rcases applying.keys _ old with before | during
      · exact applicable.new before
      · rw [split,queued_keys,List.map_append,List.map_cons] at distinct
        have key := (from_dict_spec (reads ⟨"id","time",by decide,by decide⟩)).1
        rw [key] at during
        exact (List.nodup_append.mp distinct).2.2 _ during _ (List.mem_cons_self ..) rfl

theorem Quiet.mono {catalog selected selected' : List String} {cmd : RuntimeCommand}
    (quiet : Quiet ctx catalog selected cmd) (more : ∀ a ∈ selected, a ∈ selected') : Quiet ctx catalog selected' cmd := by
  unfold Quiet at quiet ⊢
  split
  · trivial
  · next spec known =>
    rw [known] at quiet
    exact fun issuer => ⟨(quiet issuer).1,(quiet issuer).2.1,fun listed => more _ ((quiet issuer).2.2 listed)⟩

/-- Every queued command is quiet. -/
def QuietQueue (ctx : SupervisorContext) (catalog : List String) (s : TaskLoopState) : Prop :=
  ∀ raw ∈ s.pending_commands, ∀ cmd, ReadsAs raw cmd → Quiet ctx catalog s.selected_agents cmd

/-- Applying the queue leaves it empty, and only the roster and the applied keys grow. -/
theorem apply_pending_spec (usual : Usual events) {catalog : List String} (listed : ctx.catalog = .ok catalog)
    (silent : Noisy events ∨ QuietQueue ctx catalog w.board) :
    Runs (Obeys (loopRules ctx events)) (apply_pending_commands ctx ctx.command_registry catalog) w (fun applied w' =>
      ∃ t, Applying ctx catalog w.board t w.board.pending_commands ∧ w'.board = { t with pending_commands := [] } ∧
        applied + w.board.selected_agents.length = t.selected_agents.length) := by
  unfold apply_pending_commands
  refine runs_board (Runs.bind (Runs.fold_done (I := fun done (applied : Nat) (w' : World) =>
    Applying ctx catalog w.board w'.board done ∧
      applied + w.board.selected_agents.length = w'.board.selected_agents.length) ?_ ?_) ?_)
  · exact ⟨⟨rfl,List.prefix_rfl,List.prefix_rfl,fun _ => .inl,by simp⟩,Nat.zero_add _⟩
  · rintro done raw rest split applied w₁ - ⟨applying,count⟩
    have queued : raw ∈ w₁.board.pending_commands := by
      rw [applying.same,split]
      exact List.mem_append_right _ (List.mem_cons_self ..)
    have quiet : Noisy events ∨ ∀ cmd, ReadsAs raw cmd → Quiet ctx catalog w₁.board.selected_agents cmd := by
      refine silent.imp_right fun quiet cmd reads => (quiet raw ?_ cmd reads).mono fun _ old => applying.selected.subset old
      rw [split]
      exact List.mem_append_right _ (List.mem_cons_self ..)
    refine (applyOne_spec usual listed queued quiet applied).mono fun applied' w₂ _ ⟨one,count'⟩ =>
      ⟨applying.step one split,?_⟩
    omega
  · rintro applied w₁ - ⟨applying,count⟩
    exact runs_write LoopMove.clear (Runs.pure ⟨w₁.board,applying,rfl,count⟩)

/-! ### The end of a round -/

/-- What the checkpoint at the end of a round does to the Blackboard. -/
structure Closed (ctx : SupervisorContext) (s t : TaskLoopState) : Prop where
  same : t = { s with selected_agents := t.selected_agents, applied_command_keys := t.applied_command_keys,
                      pending_commands := [], round_no := s.round_no + 1 }
  selected : s.selected_agents <+: t.selected_agents
  honours : ∀ catalog, ctx.catalog = .ok catalog → (queued_keys s.pending_commands).Nodup →
    ∀ raw ∈ s.pending_commands, ∀ cmd, (∀ stamp, RuntimeCommand.from_dict stamp raw = .ok cmd) →
      Applicable ctx catalog s cmd → agentOf cmd ∈ t.selected_agents

/-- The checkpoint of a round publishes nothing that is not declared: its queue is
    quiet, and when there is one the rounds are not nearly spent. -/
structure QuietEnd (ctx : SupervisorContext) (s : TaskLoopState) : Prop where
  queue : ∀ catalog, ctx.catalog = .ok catalog → QuietQueue ctx catalog s
  rounds : s.pending_commands ≠ [] → s.round_no + 1 < s.max_rounds - 1

theorem closeRound_spec (usual : Usual events) (left : w.board.round_no < w.board.max_rounds)
    (silent : Noisy events ∨ QuietEnd ctx w.board) :
    Runs (Obeys (loopRules ctx events)) (closeRound ctx) w (fun applied w' =>
      Closed ctx w.board w'.board ∧ LastSaved ctx w' ∧
        applied + w.board.selected_agents.length = w'.board.selected_agents.length) := by
  unfold closeRound
  refine runs_board (Runs.bind_lift fun catalog listed => Runs.bind (apply_pending_spec usual listed
    (silent.imp_right fun quiet => quiet.queue catalog listed)) ?_)
  rintro applied w₁ - ⟨t,applying,board,count⟩
  have closed : Closed ctx w.board { w₁.board with round_no := w₁.board.round_no + 1 } := by
    refine ⟨?_,by rw [board]; exact applying.selected,fun catalog' listed' distinct raw queued cmd reads applicable => ?_⟩
    · rw [board,applying.same]
    · rw [listed] at listed'
      cases listed'
      rw [board]
      exact applying.honours distinct raw queued cmd reads applicable
  have counted : applied + w.board.selected_agents.length = w₁.board.selected_agents.length := by rw [board]; exact count
  refine runs_write (LoopMove.advance ?_) (Runs.bind (save_last (fun _ _ => usual.asks _ rfl) ?_) ?_)
  · rw [board,applying.same]
    exact left
  · exact settled_nil (by rw [board_wrote,board])
  · rintro _ w₂ - ⟨saved,last⟩
    refine runs_board (Runs.ite (fun starved => ?_) fun _ => Runs.pure ?_)
    · refine Runs.bind (emit_last (fun _ => ?_) last) fun _ w₃ _ ⟨same,last'⟩ => Runs.pure ?_
      · refine silent.resolve_right (fun quiet => ?_) _ _
        have late := starved.2.1
        rw [saved] at late
        have rounds := quiet.rounds (List.ne_nil_of_length_pos starved.1)
        rw [board,applying.same] at late
        simp only [board_wrote] at late
        omega
      · rw [same,saved]
        exact ⟨closed,last',counted⟩
    · rw [saved]
      exact ⟨closed,last,counted⟩

/-- Carrying out the decision does not end the loop. -/
def GoesOn (s : TaskLoopState) (decision : OrchestratorDecision) : Prop :=
  match decision.decision with
  | .blocked => False
  | .failed => False
  | .finished => ∀ t, judgeRows s decision.acceptance_status = .ok t → t.all_accepted = false
  | .continue => True
  | .need_tool => True

/-- A decision that was carried out in a round that goes on. -/
structure Carried (ctx : SupervisorContext) (decision : OrchestratorDecision) (s t : TaskLoopState) : Prop where
  frame : Frame s t
  grew : Grew (fun raw => decision.decision = .continue ∧ ∃ member, ToAdmit ctx decision s member ∧
    raw = admissionCommand member) s t
  held : decision.decision = .continue → ∀ member, ToAdmit ctx decision s member → ∀ stamp cmd,
    to_runtime_command stamp (admissionCommand member) s.session_id = .ok cmd → Held t cmd.idempotency_key
  goes : GoesOn s decision

/-- The loop ended, in the round it was in, and saved. -/
structure Ended (ctx : SupervisorContext) (s : TaskLoopState) (w : World) : Prop where
  terminal : w.board.is_terminal = true
  round_no : w.board.round_no = s.round_no
  max_rounds : w.board.max_rounds = s.max_rounds
  last : LastSaved ctx w

theorem ended_of_terminate {s t : TaskLoopState} {w' : World} {status : TaskLoopStatus} {reason : String}
    (ends : status ∈ TERMINAL) (frame : Frame s t) (board : w'.board = { t with status, reason })
    (last : LastSaved ctx w') : Ended ctx s w' where
  terminal := by rw [board]; simpa [TaskLoopState.is_terminal] using ends
  round_no := by rw [board]; exact frame.round_no
  max_rounds := by rw [board]; exact frame.max_rounds
  last

theorem carryOut_spec (usual : Usual events) {decision : OrchestratorDecision} (granted : Granted ctx events decision)
    (silent : Noisy events ∨ (decision.decision = .continue → dept_aliases decision = []))
    (going : w.board.is_terminal = false) (settled : Settled w.board) :
    Runs (Obeys (loopRules ctx events)) (carryOut ctx decision) w (fun goesOn w' =>
      (goesOn = true → Carried ctx decision w.board w'.board) ∧ (goesOn = false → Ended ctx w.board w')) := by
  have ends : ∀ (status : TaskLoopStatus) (reason : String), status ∈ TERMINAL → status ≠ .FINISHED →
      Runs (Obeys (loopRules ctx events)) (do terminate ctx status reason; pure false) w (fun goesOn w' =>
        (goesOn = true → Carried ctx decision w.board w'.board) ∧ (goesOn = false → Ended ctx w.board w')) := by
    intro status reason terminal unfinished
    refine Runs.bind (terminate_spec usual terminal (fun same => absurd same unfinished) settled) ?_
    rintro _ w' - ⟨board,last⟩
    exact Runs.pure ⟨nofun,fun _ => ended_of_terminate terminal {} board last⟩
  unfold carryOut
  split
  · next kind =>
    refine Runs.bind (runs_loop (Runs.mono (judge_acceptance_spec going) fun _ w' moved judged =>
      And.intro (frame_of_obeys moved) judged)) ?_
    rintro _ w₁ - ⟨frame,t,judged,board⟩
    have queue : w₁.board.pending_commands = w.board.pending_commands := by rw [board,judgeRows_only judged]
    refine runs_board (Runs.ite (fun accepted => ?_) fun denied => ?_)
    · refine runs_write (LoopMove.round RoundMove.output)
        (Runs.bind (terminate_spec usual (by decide) (fun _ => accepted) ?_) ?_)
      · exact frame.settled settled
      · rintro _ w₂ - ⟨board,last⟩
        refine Runs.pure ⟨nofun,fun _ => ended_of_terminate (by decide) ?_ board last⟩
        exact Trans.trans frame (round_frame RoundMove.output)
    · refine runs_write (LoopMove.round RoundMove.reason) (Runs.pure ⟨fun _ => ?_,nofun⟩)
      have onward : Frame w.board { w₁.board with reason := "finish denied: acceptance criteria incomplete" } :=
        Trans.trans frame (round_frame RoundMove.reason)
      refine ⟨onward,Grew.refl _ queue,fun other => ?_,?_⟩
      · rw [kind] at other; cases other
      simp only [GoesOn,kind]
      intro t' judged'
      rw [judged] at judged'
      cases judged'
      rw [board] at denied
      exact Bool.eq_false_iff.mpr denied
  · next kind =>
    refine Runs.bind (runs_loop (Runs.mono (run_tool_spec usual decision) fun _ w' moved queue =>
      And.intro (frame_of_obeys moved) queue)) ?_
    rintro _ w₁ - ⟨frame,queue⟩
    refine Runs.bind (runs_loop (Runs.mono (judge_acceptance_spec (frame.going going)) fun _ w' moved judged =>
      And.intro (frame_of_obeys moved) judged)) ?_
    rintro _ w₂ - ⟨frame',t,judged,board⟩
    have queue' : w₂.board.pending_commands = w₁.board.pending_commands := by rw [board,judgeRows_only judged]
    refine Runs.pure ⟨fun _ => ⟨Trans.trans frame frame',Grew.refl _ (queue'.trans queue),fun other => ?_,?_⟩,nofun⟩
    · rw [kind] at other; cases other
    · simp [GoesOn,kind]
  · next kind =>
    have aliases := silent.imp_right fun targets => targets kind
    refine Runs.bind (runs_loop (Runs.mono (run_round_spec usual granted aliases settled) fun _ w' moved round =>
      And.intro (frame_of_obeys moved) round)) ?_
    rintro _ w₁ - ⟨frame,grew,held⟩
    refine Runs.bind (runs_loop (Runs.mono (judge_acceptance_spec (frame.going going)) fun _ w' moved judged =>
      And.intro (frame_of_obeys moved) judged)) ?_
    rintro _ w₂ - ⟨frame',t,judged,board⟩
    have queue' : w₂.board.pending_commands = w₁.board.pending_commands := by rw [board,judgeRows_only judged]
    refine Runs.pure ⟨fun _ => ⟨Trans.trans frame frame',?_,fun _ member inAdmit stamp cmd translated => ?_,?_⟩,nofun⟩
    · exact (grew.mono fun raw source => ⟨kind,source⟩).trans (Grew.refl _ queue') frame.session_id
    · exact held_frame frame' (held member inAdmit stamp cmd translated)
    · simp [GoesOn,kind]
  · exact ends _ _ (by decide) (by decide)
  · exact ends _ _ (by decide) (by decide)

/-! ### A decision taken -/

/-- Taking the decision in the state publishes nothing that is not declared: a
    decision to go on calls no department; and where the round comes to its
    checkpoint, what is queued by then is quiet and, if there is anything, the rounds
    are not nearly spent. -/
structure Silent (ctx : SupervisorContext) (s : TaskLoopState) (decision : OrchestratorDecision) : Prop where
  targets : decision.decision = .continue → dept_aliases decision = []
  queue : GoesOn s decision → ∀ catalog, ctx.catalog = .ok catalog → QuietQueue ctx catalog s
  commands : GoesOn s decision → ∀ catalog, ctx.catalog = .ok catalog → ∀ cmd,
    Offers s.session_id decision.commands cmd → Unseen s cmd → Quiet ctx catalog s.selected_agents cmd
  rounds : GoesOn s decision →
    (s.pending_commands ≠ [] ∨ ∃ cmd, Offers s.session_id decision.commands cmd ∧ Unseen s cmd) →
      s.round_no + 1 < s.max_rounds - 1

theorem judge_row_queue {s t : TaskLoopState} {row : Fields} (pending : List Fields) (judge : judge_row s row = .ok t) :
    judge_row { s with pending_commands := pending } row = .ok { t with pending_commands := pending } := by
  unfold judge_row at judge ⊢
  simp only [TaskLoopState.acceptance_by_id] at judge ⊢
  split at judge
  · cases judge
    rfl
  · rcases read : evidenceOf row with error | evidence
    · rw [read] at judge; cases judge
    · rw [read] at judge
      cases judge
      rfl

theorem judgeRows_queue {s t : TaskLoopState} {rows : List Fields} (pending : List Fields)
    (judge : judgeRows s rows = .ok t) :
    judgeRows { s with pending_commands := pending } rows = .ok { t with pending_commands := pending } := by
  induction rows generalizing s with
  | nil => cases judge; rfl
  | cons row rest ih =>
    rw [judgeRows_cons] at judge ⊢
    rcases first : judge_row s row with error | s'
    · rw [first] at judge; cases judge
    · rw [first] at judge
      rw [judge_row_queue pending first]
      exact ih judge

/-- Whether a decision ends the loop does not depend on the queue. -/
theorem goesOn_queue {s : TaskLoopState} {decision : OrchestratorDecision} {pending : List Fields}
    (goes : GoesOn { s with pending_commands := pending } decision) : GoesOn s decision := by
  unfold GoesOn at goes ⊢
  split
  · next kind => simp [kind] at goes
  · next kind => simp [kind] at goes
  · next kind =>
    simp only [kind] at goes
    intro t judged
    have denied := goes _ (judgeRows_queue pending judged)
    exact denied
  · trivial
  · trivial

theorem reads_as_dict {cmd cmd' : RuntimeCommand} (issued : cmd.issued_by = orchestrator)
    (reads : ReadsAs cmd.as_dict cmd') : cmd' = cmd := by
  obtain ⟨stamp,read⟩ := reads
  rw [from_dict_as_dict stamp cmd (by rw [issued]; decide) (by rw [issued]; decide)] at read
  exact (Except.ok.inj read).symm

theorem noTarget_toAdmit {decision : OrchestratorDecision} {s : TaskLoopState} {member : String}
    (none : dept_aliases decision = []) : ¬ ToAdmit ctx decision s member := by
  rintro ⟨-,-,call,inCalls,kind,-⟩
  refine List.ne_nil_of_mem (a := call.agent_id) (List.mem_map.mpr ⟨call,List.mem_filter.mpr ⟨inCalls,?_⟩,rfl⟩) none
  simp [kind]

/-- A silent decision comes to a quiet checkpoint. -/
theorem Silent.quietEnd {s t : TaskLoopState} {decision : OrchestratorDecision} (silent : Silent ctx s decision)
    {more : List RuntimeCommand} (enqueued : Enqueued s decision.commands more)
    (carried : Carried ctx decision
      { s with pending_commands := s.pending_commands ++ more.map RuntimeCommand.as_dict } t) : QuietEnd ctx t := by
  have goes := goesOn_queue carried.goes
  have queue : t.pending_commands = s.pending_commands ++ more.map RuntimeCommand.as_dict := by
    obtain ⟨admitted,queue,sources⟩ := carried.grew
    have none : admitted = [] := by
      by_contra some
      obtain ⟨cmd,inAdmitted⟩ := List.exists_mem_of_ne_nil _ some
      obtain ⟨-,⟨kind,member,admitted,-⟩,-⟩ := sources cmd inAdmitted
      exact noTarget_toAdmit (silent.targets kind) admitted
    rw [queue,none,List.map_nil,List.append_nil]
  have selected : t.selected_agents = s.selected_agents := carried.frame.selected
  refine ⟨fun catalog listed raw queued cmd reads => ?_,fun some => ?_⟩
  · rw [selected]
    rw [queue] at queued
    rcases List.mem_append.mp queued with early | new
    · exact silent.queue goes catalog listed raw early cmd reads
    · obtain ⟨cmd',inMore,rfl⟩ := List.mem_map.mp new
      have offers := enqueued.source cmd' inMore
      obtain ⟨raw,-,stamp,translated⟩ := offers.translated
      obtain ⟨-,-,-,issuer,-⟩ := to_runtime_command_spec translated
      rw [reads_as_dict issuer reads]
      exact silent.commands goes catalog listed cmd' offers (enqueued.unseen cmd' inMore)
  · have round : t.round_no = s.round_no := carried.frame.round_no
    have rounds : t.max_rounds = s.max_rounds := carried.frame.max_rounds
    rw [round,rounds]
    refine silent.rounds goes ?_
    by_cases none : s.pending_commands = []
    · rw [queue,none,List.nil_append] at some
      obtain ⟨raw,inMore⟩ := List.exists_mem_of_ne_nil _ some
      obtain ⟨cmd,inMore,-⟩ := List.mem_map.mp inMore
      exact .inr ⟨cmd,enqueued.source cmd inMore,enqueued.unseen cmd inMore⟩
    · exact .inl none

/-- A decision from the time it is taken up to its checkpoint. -/
structure Taken (ctx : SupervisorContext) (decision : OrchestratorDecision) (s u : TaskLoopState) : Prop where
  steps : ∃ more t, Enqueued s decision.commands more ∧
    Carried ctx decision { s with pending_commands := s.pending_commands ++ more.map RuntimeCommand.as_dict } t ∧
    Closed ctx t u

theorem takeDecision_spec (usual : Usual events) {decision : OrchestratorDecision}
    (granted : Granted ctx events decision) (silent : Noisy events ∨ Silent ctx w.board decision)
    (going : w.board.is_terminal = false) (settled : Settled w.board)
    (left : w.board.round_no < w.board.max_rounds) (vars : DriveVars) :
    Runs (Obeys (loopRules ctx events)) (takeDecision ctx decision vars) w (fun next w' => match next with
      | none => Ended ctx w.board w'
      | some (vars',applied) => Taken ctx decision w.board w'.board ∧ LastSaved ctx w' ∧
          w.board.selected_agents.length + applied = w'.board.selected_agents.length ∧
          vars'.budget = vars.budget) := by
  unfold takeDecision
  refine runs_note ⟨⟨going,left,settled⟩,usual.accepts decision⟩ ?_
  refine Runs.bind (runs_loop (Runs.mono (enqueue_spec decision) fun _ w' moved queued =>
    And.intro (frame_of_obeys moved) queued)) ?_
  rintro _ w₁ - ⟨frame,more,enqueued,board⟩
  simp only [board_noted] at frame enqueued board
  refine Runs.bind_lift fun signature _ => Runs.bind (carryOut_spec usual granted
    (silent.imp_right Silent.targets) (frame.going going) (frame.settled settled)) ?_
  rintro goesOn w₂ - ⟨carries,ends⟩
  cases goesOn with
  | false =>
    have ended := ends rfl
    refine Runs.pure ⟨ended.terminal,ended.round_no.trans frame.round_no,ended.max_rounds.trans frame.max_rounds,ended.last⟩
  | true =>
    have carried := carries rfl
    have left' : w₂.board.round_no < w₂.board.max_rounds := by
      rw [carried.frame.round_no,frame.round_no,carried.frame.max_rounds,frame.max_rounds]
      exact left
    rw [board] at carried
    refine Runs.bind (closeRound_spec usual left' (silent.imp_right fun silent => silent.quietEnd enqueued carried)) ?_
    rintro applied w₃ - ⟨closed,last,count⟩
    refine Runs.pure ⟨⟨more,w₂.board,enqueued,carried,closed⟩,last,?_,rfl⟩
    have selected : w₂.board.selected_agents = w.board.selected_agents := carried.frame.selected
    rw [← count,selected,Nat.add_comm]

/-! ### The loop -/

/-- The state of a round and the state of the next one. -/
structure Next (s t : TaskLoopState) : Prop where
  left : s.round_no < s.max_rounds
  going : t.is_terminal = false
  settled : Settled t
  round_no : t.round_no = s.round_no + 1
  max_rounds : t.max_rounds = s.max_rounds

theorem taken_next {decision : OrchestratorDecision} {s u : TaskLoopState} (taken : Taken ctx decision s u)
    (left : s.round_no < s.max_rounds) (going : s.is_terminal = false) : Next s u := by
  obtain ⟨more,t,enqueued,carried,closed⟩ := taken.steps
  refine ⟨left,?_,settled_nil (by rw [closed.same]),?_,?_⟩
  · rw [closed.same]
    exact carried.frame.going going
  · rw [closed.same]
    exact congrArg (· + 1) carried.frame.round_no
  · rw [closed.same]
    exact carried.frame.max_rounds

/-- The guard leaves the round as it is, or ends the loop. -/
theorem guardRound_spec (usual : Usual events) (max_decision_repeats : Int) (before : TaskLoopState) (applied : Nat)
    (vars : DriveVars) (settled : Settled w.board) :
    Runs (Obeys (loopRules ctx events)) (guardRound ctx max_decision_repeats before applied vars) w (fun next w' =>
      match next with
      | .inl vars' => vars' = vars ∧ w'.board = w.board
      | .inr () => Ended ctx w.board w') := by
  have blocks : ∀ reason, Runs (Obeys (loopRules ctx events)) (do terminate ctx .BLOCKED reason; pure (.inr ())) w
      (fun (next : DriveVars ⊕ Unit) w' => match next with
        | .inl vars' => vars' = vars ∧ w'.board = w.board
        | .inr () => Ended ctx w.board w') := by
    intro reason
    refine Runs.bind (terminate_spec usual (by decide) nofun settled) ?_
    rintro _ w' - ⟨board,last⟩
    exact Runs.pure (ended_of_terminate (by decide) {} board last)
  unfold guardRound
  refine runs_board (Runs.ite (fun _ => blocks _) fun _ => Runs.ite (fun _ => blocks _) fun _ => Runs.pure ⟨rfl,rfl⟩)

/-- A preorder along the loop: what the loop does with these events moves along it, and
    so does every decision it takes. -/
structure Along (ctx : SupervisorContext) (events : Event → Prop) (R : World → World → Prop) : Prop where
  usual : Usual events
  decides : ∀ view, events (.asked (.decide view))
  obeys : ∀ w w', Obeys (loopRules ctx events) w w' → R w w'
  takes : ∀ w decision vars, Ready w.board → R w ((takeDecision ctx decision vars).run w).2

theorem along_everything : Along ctx everything (Obeys (loopRules ctx everything)) where
  usual := usual_everything
  decides _ := trivial
  obeys _ _ := id
  takes _ _ vars ready :=
    (takeDecision_spec usual_everything (fun _ _ _ => trivial) (.inl noisy_everything) ready.going ready.settled ready.left
      vars).moves

section
variable {R : World → World → Prop} (along : Along ctx events R)
include along

/-- What runs without asking for a decision moves along the preorder. -/
theorem Along.quiet {m : Sup α} {Q : α → World → Prop} (runs : Runs (Obeys (loopRules ctx (Undecided events))) m w Q) :
    Runs R m w (fun a w' => Q a w' ∧ decideCalls w'.journal = decideCalls w.journal) := by
  obtain ⟨obeys,calls⟩ := obeys_undecided runs.moves
  exact ⟨along.obeys _ _ obeys,runs.halts,fun a ok => ⟨runs.post a ok,calls⟩⟩

/-- Taking a decision does not ask for another one. -/
theorem Along.taken (decision : OrchestratorDecision) (ready : Ready w.board) (vars : DriveVars) :
    Runs R (takeDecision ctx decision vars) w (fun next w' => (match next with
      | none => Ended ctx w.board w'
      | some (vars',_) => Taken ctx decision w.board w'.board ∧ vars'.budget = vars.budget) ∧
      decideCalls w'.journal = decideCalls w.journal) := by
  have spec := @takeDecision_spec ctx _ w usual_everything.undecided decision (fun _ _ _ => ⟨trivial,nofun⟩)
    (.inl fun _ _ => ⟨trivial,nofun⟩) ready.going ready.settled ready.left vars
  refine Runs.moving ⟨spec.moves,spec.halts,fun next ok => ⟨?_,(obeys_undecided spec.moves).2⟩⟩
    (along.takes w decision vars ready)
  have post := spec.post next ok
  cases next with
  | none => exact post
  | some kept => exact ⟨post.1,post.2.2.2⟩

variable [IsPreorder World R]

/-- The calls of the orchestrator that the loop may still make: one for each round left,
    and the parse errors that the budget has left, at least one. -/
def callsLeft (budget : Budget) (s : TaskLoopState) : Int :=
  max 0 (s.max_rounds - s.round_no) + (max (budget.parse_errors + 1) budget.max_parse_errors - budget.parse_errors)

/-- The loop has ended within its rounds, and saved. -/
structure Finished (ctx : SupervisorContext) (s : TaskLoopState) (w : World) : Prop where
  terminal : w.board.is_terminal = true
  bound : w.board.round_no ≤ max s.round_no s.max_rounds
  last : LastSaved ctx w

theorem driveRound_spec (max_decision_repeats : Int) (vars : DriveVars) (going : w.board.is_terminal = false)
    (settled : Settled w.board) :
    Runs R (driveRound ctx max_decision_repeats vars) w (fun next w' => match next with
      | .inl vars' => Next w.board w'.board ∧ Asked vars.budget w true vars'.budget w'
      | .inr () => Finished ctx w.board w' ∧
          (decideCalls w'.journal : Int) ≤ decideCalls w.journal + callsLeft vars.budget w.board) := by
  have usual := along.usual.undecided
  unfold driveRound
  refine Runs.bind_read (Runs.ite (fun terminal => ?_) fun _ => Runs.ite (fun _ => ?_) fun more => ?_)
  · rw [going] at terminal
    cases terminal
  · refine Runs.bind (along.quiet (terminate_spec usual (by decide) nofun settled)) ?_
    rintro _ w' - ⟨⟨board,last⟩,calls⟩
    refine Runs.pure ⟨⟨by rw [board]; rfl,by rw [board]; exact le_max_left _ _,last⟩,?_⟩
    unfold callsLeft
    omega
  · have left : w.board.round_no < w.board.max_rounds := not_le.mp more
    have asking := @runs_loop ctx _ _ _ w _ (@o_decide_spec ctx _ w along.usual along.decides vars.budget)
    refine Runs.bind (asking.coarsen (along.obeys w)) ?_
    rintro ⟨_ | decision,budget⟩ w₁ - ⟨same,asked⟩
    · refine Runs.bind (along.quiet (terminate_spec usual (by decide) nofun (by rw [same]; exact settled))) ?_
      rintro _ w' - ⟨⟨board,last⟩,calls⟩
      refine Runs.pure ⟨⟨by rw [board]; rfl,by rw [board,same]; exact le_max_left _ _,last⟩,?_⟩
      have spent := asked.spent
      have calls₁ := asked.calls
      simp only [Option.isSome_none,Bool.false_eq_true,if_false] at calls₁ spent
      unfold callsLeft
      omega
    · have ready : Ready w₁.board := by rw [same]; exact ⟨going,left,settled⟩
      refine Runs.bind (along.taken decision ready _) ?_
      have spent := asked.spent
      have calls₁ := asked.calls
      simp only [Option.isSome_some,if_true] at calls₁ spent
      rintro (_ | ⟨vars',applied⟩) w₂ - ⟨taken,calls⟩
      · refine Runs.pure ⟨⟨taken.terminal,?_,taken.last⟩,?_⟩
        · rw [taken.round_no,same]; exact le_max_left _ _
        · unfold callsLeft
          omega
      · have next : Next w.board w₂.board := by rw [← same]; exact taken_next taken.1 ready.left ready.going
        refine (along.quiet (guardRound_spec usual max_decision_repeats _ applied vars' next.settled)).mono
          fun out w₃ _ ⟨guarded,calls₃⟩ => ?_
        cases out with
        | inl vars'' =>
          obtain ⟨rfl,board⟩ := guarded
          have kept : vars''.budget = budget := taken.2
          refine ⟨by rw [board]; exact next,?_⟩
          rw [kept]
          exact ⟨asked.limit,asked.errors,by simp only [if_true]; omega,asked.within,asked.spent⟩
        | inr _ =>
          refine ⟨⟨guarded.terminal,?_,guarded.last⟩,?_⟩
          · rw [guarded.round_no,next.round_no]
            exact le_trans left (le_max_right _ _)
          · unfold callsLeft
            omega

/-- The state of the loop before a round. -/
structure Driving (budget : Budget) (w : World) (vars : DriveVars) (w' : World) : Prop where
  going : w'.board.is_terminal = false
  settled : Settled w'.board
  max_rounds : w'.board.max_rounds = w.board.max_rounds
  onward : w.board.round_no ≤ w'.board.round_no
  bound : w'.board.round_no ≤ max w.board.round_no w.board.max_rounds
  limit : vars.budget.max_parse_errors = budget.max_parse_errors
  within : vars.budget.parse_errors = budget.parse_errors ∨ vars.budget.parse_errors < budget.max_parse_errors
  errors : budget.parse_errors ≤ vars.budget.parse_errors
  calls : (decideCalls w'.journal : Int) = decideCalls w.journal + (w'.board.round_no - w.board.round_no) +
    (vars.budget.parse_errors - budget.parse_errors)

theorem drive_spec (budget : Budget) (max_decision_repeats : Int) (going : w.board.is_terminal = false)
    (settled : Settled w.board) :
    Runs R (drive ctx budget max_decision_repeats) w (fun r w' => (Finished ctx w.board w' ∧
      (decideCalls w'.journal : Int) ≤ decideCalls w.journal + callsLeft budget w.board) ∧ r = result w'.board) := by
  unfold drive
  refine Runs.bind_read (Runs.bind (M := fun _ w' => Finished ctx w.board w' ∧
    (decideCalls w'.journal : Int) ≤ decideCalls w.journal + callsLeft budget w.board) ?_ fun _ w' _ finished =>
    Runs.bind_read (Runs.pure ⟨finished,rfl⟩))
  refine Runs.loop (I := Driving budget w) (fun _ w' => (w'.board.max_rounds - w'.board.round_no).toNat) ?_ _
    ⟨going,settled,rfl,le_refl _,le_max_left _ _,rfl,.inl rfl,le_refl _,by simp⟩ (Nat.lt_succ_self _)
  rintro vars w₁ - driving
  refine (driveRound_spec along max_decision_repeats vars driving.going driving.settled).mono fun next w₂ _ post => ?_
  obtain ⟨going₁,settled₁,rounds,onward,bound,limit,within,errors,calls⟩ := driving
  cases next with
  | inl vars' =>
    obtain ⟨next,asked⟩ := post
    have left := next.left
    have round := next.round_no
    have calls' := asked.calls
    have within' := asked.within rfl
    have errors' := asked.errors
    simp only [if_true] at calls'
    refine ⟨⟨next.going,next.settled,next.max_rounds.trans rounds,?_,?_,asked.limit.trans limit,?_,?_,?_⟩,?_⟩
    · omega
    · rw [rounds] at left
      rw [round]
      exact le_trans left (le_max_right _ _)
    · omega
    · omega
    · omega
    · rw [round,next.max_rounds]
      omega
  | inr _ =>
    refine ⟨⟨post.1.terminal,le_trans post.1.bound ?_,post.1.last⟩,?_⟩
    · rw [rounds]
      exact max_le bound (le_max_right _ _)
    · have calls' := post.2
      unfold callsLeft at calls' ⊢
      omega

end

/-! ### A run -/

theorem nodup_of_no_duplicates {ids : List String}
    (none : sortedTexts (ids.filter fun a => 1 < ids.count a).dedup = []) : ids.Nodup := by
  rw [List.nodup_iff_count_le_one]
  intro a
  by_contra many
  have twice : 1 < ids.count a := by omega
  have member : a ∈ sortedTexts (ids.filter fun a => 1 < ids.count a).dedup := by
    rw [sortedTexts,(List.perm_insertionSort _ _).mem_iff,List.mem_dedup,List.mem_filter]
    exact ⟨List.count_pos_iff.mp (by omega),by simpa using twice⟩
  rw [none] at member
  cases member

theorem no_unknown {ids catalog : List String} (none : sortedTexts (ids.filter fun a => a ∉ catalog) = []) :
    ∀ a ∈ ids, a ∈ catalog := by
  intro a member
  by_contra absent
  have unknown : a ∈ sortedTexts (ids.filter fun a => a ∉ catalog) := by
    rw [sortedTexts,(List.perm_insertionSort _ _).mem_iff,List.mem_filter]
    exact ⟨member,by simpa using absent⟩
  rw [none] at unknown
  cases unknown

/-- Composing the team of a fresh Blackboard chooses distinct agents. -/
theorem compose_team_spec (usual : Usual events) (task : String) (fresh : w.board.selected_agents = [])
    (settled : Settled w.board) :
    Runs (Obeys (loopRules ctx events)) (compose_team ctx task) w (fun _ w' =>
      w'.board.is_terminal = false ∧ Settled w'.board ∧ w'.board.round_no = w.board.round_no ∧
        w'.board.max_rounds = w.board.max_rounds) := by
  unfold compose_team
  refine Runs.bind_lift fun roles _ => runs_ask (usual.asks _ rfl) fun raw answered =>
    Runs.bind_lift fun plan parsed => ?_
  refine Runs.ite (fun _ => Runs.raise) fun noDuplicates => Runs.bind_lift fun catalog listed => ?_
  refine Runs.ite (fun _ => Runs.raise) fun known => ?_
  have composed : Composed ctx w.board plan.agent_ids := by
    refine ⟨_,task,roles,raw,plan,catalog,answered,parsed,rfl,listed,fun some => no_unknown ?_⟩
    by_contra unknown
    exact known ⟨some,unknown⟩
  refine runs_write (LoopMove.compose fresh (nodup_of_no_duplicates (not_not.mp noDuplicates)) composed) ?_
  refine runs_post (LoopMove.round (RoundMove.post (Posted.plan plan))) ?_
  refine runs_write (LoopMove.round (RoundMove.status (by decide)))
    (runs_emit (fun _ => usual.emits _ _ (by decide)) fun w₁ _ board => ?_)
  refine Runs.pure ?_
  rw [board]
  exact ⟨rfl,settled,rfl,rfl⟩

section
variable {R : World → World → Prop} (along : Along ctx events R) [IsPreorder World R]
include along

theorem beginLoop_spec (task : String) (budget : Budget) (max_decision_repeats : Int)
    (fresh : w.board.selected_agents = []) (settled : Settled w.board) :
    Runs R (beginLoop ctx task budget max_decision_repeats) w (fun r w' => (Finished ctx w.board w' ∧
      (decideCalls w'.journal : Int) ≤ decideCalls w.journal + callsLeft budget w.board) ∧ r = result w'.board) := by
  have usual := along.usual.undecided
  unfold beginLoop
  refine Runs.bind (along.quiet (compose_team_spec usual task fresh settled)) ?_
  rintro _ w₁ - ⟨⟨going,settled₁,round,rounds⟩,calls⟩
  refine Runs.bind (along.quiet (save_spec (fun _ _ => usual.asks _ rfl) settled₁)) ?_
  rintro _ w₂ - ⟨board,calls'⟩
  rw [← board] at going settled₁ round rounds
  refine (drive_spec along budget max_decision_repeats going settled₁).mono fun r w₃ _ ⟨⟨finished,last⟩,same⟩ => ?_
  refine ⟨⟨⟨finished.terminal,by rw [← round,← rounds]; exact finished.bound,finished.last⟩,?_⟩,same⟩
  unfold callsLeft at last ⊢
  omega

/-- A loaded Blackboard is only reported when it is terminal, else the loop goes on. -/
theorem continueLoop_spec (budget : Budget) (max_decision_repeats : Int) (settled : Settled w.board) :
    Runs R (continueLoop ctx budget max_decision_repeats) w (fun r w' => r = result w'.board ∧
      (w.board.is_terminal = true → w' = w) ∧ (w.board.is_terminal = false → Finished ctx w.board w' ∧
        (decideCalls w'.journal : Int) ≤ decideCalls w.journal + callsLeft budget w.board)) := by
  unfold continueLoop
  refine Runs.bind_read (Runs.ite (fun terminal => Runs.pure ⟨rfl,fun _ => rfl,fun going => ?_⟩) fun onward => ?_)
  · rw [going] at terminal
    cases terminal
  · have going : w.board.is_terminal = false := by simpa using onward
    refine (drive_spec along budget max_decision_repeats going settled).mono fun r w' _ ⟨finished,same⟩ =>
      ⟨same,fun terminal => ?_,fun _ => finished⟩
    rw [going] at terminal
    cases terminal

end

end
end HexAgent.Nodes
