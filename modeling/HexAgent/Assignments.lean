import HexAgent.Bookkeeping

/-!
A round of delegations, exactly. When a call names an agent outside the roster the round
stops before anybody is asked. Otherwise every agent that is named, or that a department
names among the roster, and that has no turn yet takes one turn, in the order of the first
mentions, and the Blackboard is saved after each.
-/
namespace HexAgent.Assignments
open HexAgent.Values HexAgent.Json HexAgent.Board HexAgent.Contracts HexAgent.Schemas HexAgent.Roles
open HexAgent.CommandBridge HexAgent.Graph HexAgent.Loop HexAgent.Supervisor HexAgent.Nodes HexAgent.Scripted HexAgent.Bookkeeping
open HexAgent.Events
open Journals Programs

/-! ### First mentions -/

/-- The calls whose agent is not done yet, each agent at its first mention. -/
def fresh (done : List String) : List AgentAssignment → List AgentAssignment
  | [] => []
  | a :: rest => if a.agent_id ∈ done then fresh done rest else a :: fresh (a.agent_id :: done) rest

/-- The first mentions of the agents that are not done, in order. -/
structure FirstMentions (mentions : List AgentAssignment) (done : List String) (due : List AgentAssignment) : Prop where
  order : due.Sublist mentions
  once : (due.map AgentAssignment.agent_id).Nodup
  who : ∀ id, id ∈ due.map AgentAssignment.agent_id ↔ id ∈ mentions.map AgentAssignment.agent_id ∧ id ∉ done
  first : ∀ a ∈ due, (mentions.find? fun b => b.agent_id = a.agent_id) = some a

theorem fresh_first_mentions (mentions : List AgentAssignment) (done : List String) :
    FirstMentions mentions done (fresh done mentions) := by
  induction mentions generalizing done with
  | nil => exact ⟨List.Sublist.slnil,List.nodup_nil,by simp [fresh],by simp [fresh]⟩
  | cons a rest ih =>
    unfold fresh
    by_cases known : a.agent_id ∈ done
    · rw [if_pos known]
      obtain ⟨order,once,who,first⟩ := ih done
      refine ⟨order.cons a,once,fun id => ?_,fun b member => ?_⟩
      · rw [who id,List.map_cons,List.mem_cons]
        constructor
        · rintro ⟨later,new⟩
          exact ⟨.inr later,new⟩
        · rintro ⟨rfl | later,new⟩
          · exact absurd known new
          · exact ⟨later,new⟩
      · have other : a.agent_id ≠ b.agent_id := by
          intro same
          exact ((who b.agent_id).mp (List.mem_map_of_mem member)).2 (same ▸ known)
        rw [List.find?_cons_of_neg (by simpa using other)]
        exact first b member
    · rw [if_neg known]
      obtain ⟨order,once,who,first⟩ := ih (a.agent_id :: done)
      refine ⟨order.cons_cons a,?_,fun id => ?_,fun b member => ?_⟩
      · refine List.nodup_cons.mpr ⟨fun member => ?_,once⟩
        exact ((who _).mp member).2 (List.mem_cons_self ..)
      · rw [List.map_cons,List.mem_cons,who id,List.map_cons,List.mem_cons,List.mem_cons,not_or]
        constructor
        · rintro (rfl | ⟨later,-,new⟩)
          · exact ⟨.inl rfl,known⟩
          · exact ⟨.inr later,new⟩
        · rintro ⟨rfl | later,new⟩
          · exact .inl rfl
          · by_cases same : id = a.agent_id
            · exact .inl same
            · exact .inr ⟨later,same,new⟩
      · rcases List.mem_cons.mp member with rfl | later
        · simp
        · have other : a.agent_id ≠ b.agent_id := by
            intro same
            exact ((who b.agent_id).mp (List.mem_map_of_mem later)).2 (same ▸ List.mem_cons_self ..)
          rw [List.find?_cons_of_neg (by simpa using other)]
          exact first b later

/-! ### What a decision asks for -/

section
variable (ctx : SupervisorContext)

/-- The members of a department; none without a registry. -/
def membersOf (dept : String) : List String :=
  match ctx.agent_registry with
  | none => []
  | some registry => registry.members_of dept

/-- The agents a call mentions among the roster: the one it names, or the selected members
    of its department. -/
def mentioned (selected : List String) (call : AgentAssignment) : List AgentAssignment :=
  match call.target_kind with
  | .agent => [call]
  | .department => ((membersOf ctx call.agent_id).filter (· ∈ selected)).map (memberCall call)

/-- All mentions of a decision, in order. -/
def mentions (selected : List String) (decision : OrchestratorDecision) : List AgentAssignment :=
  decision.next_agent_calls.flatMap (mentioned ctx selected)

/-- Some agent named directly is not in the roster. -/
def Overreaches (s : TaskLoopState) (decision : OrchestratorDecision) : Prop :=
  ∃ call ∈ decision.next_agent_calls, call.target_kind = .agent ∧ call.agent_id ∉ s.selected_agents

/-- The event for a department that is refused. -/
def rejection (dept : String) : Fields :=
  match ctx.agent_registry with
  | none => [("department",.str dept),("reason",.str "department targeting requires an agent_registry")]
  | some _ => [("department",.str dept),("reason",.str (unresolvedReason dept))]

/-- The departments of a decision that have no members. -/
def unresolved (decision : OrchestratorDecision) : List String :=
  (dept_aliases decision).filter fun dept => membersOf ctx dept = []

/-- The members of the departments of a decision that are not in the roster. -/
def awaited (selected : List String) (decision : OrchestratorDecision) : List String :=
  (dept_aliases decision).flatMap fun dept => (membersOf ctx dept).filter (· ∉ selected)

/-! ### What happens in a round -/

/-- What can be seen of a round: events, packets asked for, delegations, and saves with the
    turns that they hold. -/
inductive Act where
  | told (topic : String) (payload : Fields)
  | briefed (assignment : AgentAssignment) (store_slice : List Fields)
  | delegated (target : String) (spec : DelegationSpec) (policy : DelegationPolicy)
  | saved (turns : List AgentTurn)

def actOf : Entry TaskLoopState Event → Option Act
  | .noted (.emitted topic payload) => some (.told topic payload)
  | .noted (.asked (.write_packet assignment store_slice)) => some (.briefed assignment store_slice)
  | .noted (.asked (.delegate target spec policy)) => some (.delegated target spec policy)
  | .saved s => some (.saved s.turns)
  | _ => none

def actsOf (journal : Journal) : List Act := journal.filterMap actOf

/-- What is said of the departments before anybody is asked. -/
def opening (selected : List String) (decision : OrchestratorDecision) : List Act :=
  (unresolved ctx decision).map (fun dept => .told "command.rejected" (rejection ctx dept)) ++
    if dept_aliases decision = [] then []
    else [.told "loop.department_expanded" [("departments",ofTexts (dept_aliases decision)),
      ("expanded",ofTexts ((mentions ctx selected decision).map AgentAssignment.agent_id)),
      ("admitted",ofTexts (awaited ctx selected decision))]]

/-- One turn of every agent, in order: the packet, the delegation with the packet's
    objective and the capabilities of the assignment, the turn, and the save. -/
inductive TakeTurns (round_no : Int) : List AgentTurn → List AgentAssignment → List Act → List AgentTurn → Prop
  | none (turns : List AgentTurn) : TakeTurns round_no turns [] [] turns
  | next {turns final : List AgentTurn} {a : AgentAssignment} {rest : List AgentAssignment} {acts : List Act}
      {s : TaskLoopState} {journal : Journal} {slice : List Fields} {packet : ContextPacket} {turn : AgentTurn}
      (outcome : String) (packed : ctx.env.answer s journal (.write_packet a slice) = .ok packet)
      (whose : turn.agent_id = a.agent_id) (round : turn.round_no = round_no)
      (others : TakeTurns round_no (turns ++ [turn]) rest acts final) :
      TakeTurns round_no turns (a :: rest)
        (.briefed a slice :: .delegated a.agent_id packet.to_spec (policyOf a) ::
          .told "loop.turn" [("agent_id",.str a.agent_id),("outcome",.str outcome)] ::
          ((if ctx.checkpoint.isSome then [.saved (turns ++ [turn])] else []) ++ acts)) final

/-- The broker's packets are for the assigned agent. -/
def Targets : Prop := ∀ s journal a slice packet, ctx.env.answer s journal (.write_packet a slice) = .ok packet →
  packet.target_agent_id = a.agent_id

/-- An exception of the outside: an answer that raises, or a Blackboard that is not JSON. -/
def Outside (error : PyError) : Prop :=
  (∃ s journal op, ctx.env.answer s journal op = .error error) ∨
    ∃ s : TaskLoopState, throughFields (encode_taskloop_state s) = .error error

end

/-- The emitter, where one is wired, declares the topic. -/
def Hears (w : World) (topic : String) : Prop := ∀ wire, w.wire = some wire → (wire.emitter.registry.find topic).isSome

section
variable {ctx : SupervisorContext} {w : World} {E : PyError → Prop}

/-! ### The expansion of a decision -/

theorem expanded_eq {registry : AgentRegistry} (present : ctx.agent_registry = some registry) (selected : List String)
    (decision : OrchestratorDecision) : expand_departments decision registry.members_of selected =
      ⟨mentions ctx selected decision,awaited ctx selected decision,
        (unresolved ctx decision).map fun dept => (dept,unresolvedReason dept)⟩ := by
  have members : ∀ dept, membersOf ctx dept = registry.members_of dept := fun dept => by rw [membersOf,present]
  have grown : ∀ (calls : List AgentAssignment) (acc : Expansion),
      calls.foldl (expandCall registry.members_of selected) acc =
        ⟨acc.expanded ++ calls.flatMap (mentioned ctx selected),
          acc.to_admit ++ ((calls.filter fun a => a.target_kind = .department).map AgentAssignment.agent_id).flatMap
            fun dept => (membersOf ctx dept).filter (· ∉ selected),
          acc.rejected ++ (((calls.filter fun a => a.target_kind = .department).map AgentAssignment.agent_id).filter
            fun dept => membersOf ctx dept = []).map fun dept => (dept,unresolvedReason dept)⟩ := by
    intro calls
    induction calls with
    | nil => simp
    | cons call rest ih =>
      intro acc
      rw [List.foldl_cons,ih]
      cases kind : call.target_kind with
      | agent => simp [expandCall,mentioned,kind]
      | department =>
        by_cases none : registry.members_of call.agent_id = []
        · simp [expandCall,mentioned,kind,none,members]
        · simp [expandCall,mentioned,kind,none,members]
  exact (grown decision.next_agent_calls {}).trans (by simp [mentions,awaited,unresolved,dept_aliases])

/-- Without a registry only the agents that are named are mentioned. -/
theorem mentions_bare (absent : ctx.agent_registry = none) (selected : List String) (decision : OrchestratorDecision) :
    mentions ctx selected decision = decision.next_agent_calls.filter fun a => a.target_kind ≠ .department := by
  unfold mentions
  induction decision.next_agent_calls with
  | nil => rfl
  | cons call rest ih =>
    rw [List.flatMap_cons,ih]
    cases kind : call.target_kind <;> simp [mentioned,membersOf,absent,kind]

theorem unresolved_bare (absent : ctx.agent_registry = none) (decision : OrchestratorDecision) :
    unresolved ctx decision = dept_aliases decision := by
  simp [unresolved,membersOf,absent]

theorem awaited_bare (absent : ctx.agent_registry = none) (selected : List String) (decision : OrchestratorDecision) :
    awaited ctx selected decision = [] := by
  simp [awaited,membersOf,absent]

/-- A mention outside the roster is an agent named directly. -/
theorem overreaches_iff (ctx : SupervisorContext) {s : TaskLoopState} {decision : OrchestratorDecision} :
    Overreaches s decision ↔ ∃ a ∈ mentions ctx s.selected_agents decision, a.agent_id ∉ s.selected_agents := by
  unfold Overreaches mentions
  constructor
  · rintro ⟨call,inCalls,kind,outside⟩
    exact ⟨call,List.mem_flatMap.mpr ⟨call,inCalls,by simp [mentioned,kind]⟩,outside⟩
  · rintro ⟨a,mention,outside⟩
    obtain ⟨call,inCalls,here⟩ := List.mem_flatMap.mp mention
    unfold mentioned at here
    cases kind : call.target_kind with
    | agent =>
      rw [kind] at here
      rw [List.mem_singleton.mp here] at outside
      exact ⟨call,inCalls,kind,outside⟩
    | department =>
      rw [kind] at here
      obtain ⟨member,selected,rfl⟩ := List.mem_map.mp here
      exact absurd (of_decide_eq_true (List.mem_filter.mp selected).2) outside

/-! ### The opening of a round -/

/-- The events were published, and of the Blackboard nothing changed but the queue. -/
structure Said (w : World) (acts : List Act) (w' : World) : Prop where
  acts : actsOf w'.journal = actsOf w.journal ++ acts
  board : ∃ queue, w'.board = { w.board with pending_commands := queue }
  hears : ∀ topic, Hears w topic → Hears w' topic

theorem Said.refl (w : World) : Said w [] w := ⟨by simp,⟨_,rfl⟩,fun _ => id⟩

theorem Said.trans {w w' w'' : World} {first second : List Act} (said : Said w first w') (also : Said w' second w'') :
    Said w (first ++ second) w'' := by
  obtain ⟨acts,⟨queue,board⟩,hears⟩ := said
  obtain ⟨acts',⟨queue',board'⟩,hears'⟩ := also
  exact ⟨by rw [acts',acts,List.append_assoc],⟨queue',by rw [board',board]⟩,fun topic heard => hears' topic (hears topic heard)⟩

theorem actsOf_snoc (journal : Journal) (entry : Entry TaskLoopState Event) :
    actsOf (journal ++ [entry]) = actsOf journal ++ (actOf entry).toList := by
  cases act : actOf entry <;> simp [actsOf,act]

theorem traced_emitter (ctx : SupervisorContext) (wire : Wire) : (wire.traced ctx).1.emitter = wire.emitter := by
  unfold Wire.traced
  split <;> rfl

/-- Publishing an event that the emitter declares. -/
theorem emit_ends {topic : String} (typed : topic ≠ "") (payload : Fields) (heard : Hears w topic) :
    Ends (· ≤ ·) E (emit ctx topic payload) w (fun _ w' => w'.board = w.board ∧ Said w [.told topic payload] w') := by
  unfold emit
  refine Ends.bind_read ?_
  rcases wired : w.wire with _ | wire
  · exact Ends.update (List.prefix_append ..) ⟨rfl,actsOf_snoc ..,⟨_,rfl⟩,fun _ => id⟩
  · have same := traced_emitter ctx wire
    dsimp only
    generalize Wire.traced ctx wire = traced at same ⊢
    obtain ⟨wire',trace⟩ := traced
    dsimp only at same ⊢
    have accepts : (wire'.emitter.emit (ctx.env.event_stamp wire'.drawn) topic ctx.identity.session_id supervisorActor
        trace payload (some ctx.identity.task_id)).isOk :=
      (emit_accepts_iff _ _ _ _ _ _ typed ctx.identity.session_id_nonempty).mpr (by rw [same]; exact heard wire wired)
    refine Ends.bind_update List.prefix_rfl (Ends.bind_lift (fun error refused => ?_) fun sent published => ?_)
    · rw [refused] at accepts
      cases accepts
    · refine Ends.bind_update List.prefix_rfl (Ends.update (List.prefix_append ..) ⟨rfl,actsOf_snoc ..,⟨_,rfl⟩,?_⟩)
      intro other declared wire'' rewired
      cases rewired
      dsimp only
      rw [emit_registry published,same]
      exact declared wire wired

theorem enqueue_ends (member : String) : Ends (· ≤ ·) E (enqueue_commands ctx (admission member)) w (fun _ w' => Said w [] w') := by
  unfold enqueue_commands
  refine Ends.bind_read (Ends.bind (M := fun _ (w' : World) => w'.board = w.board ∧ w'.journal = w.journal ∧ w'.wire = w.wire)
    (Ends.fold_done (I := fun _ _ (w' : World) => w'.board = w.board ∧ w'.journal = w.journal ∧ w'.wire = w.wire)
      ⟨rfl,rfl,rfl⟩ fun done raw rest split queue w' _ same => ?_) fun queue w' _ same => ?_)
  · have payloaded : Payloaded raw := by
      have only : raw ∈ (admission member).commands := by rw [split]; simp
      rw [admission,List.mem_singleton] at only
      rw [only]
      exact ⟨_,rfl⟩
    refine Ends.bind (M := fun _ (w'' : World) => w''.board = w'.board ∧ w''.journal = w'.journal ∧ w''.wire = w'.wire)
      (Ends.bind_read (Ends.bind_update List.prefix_rfl (Ends.pure ⟨rfl,rfl,rfl⟩))) fun stamp w'' _ drawn => ?_
    obtain ⟨queue',queued⟩ := enqueueOne_payloaded stamp w.board.session_id queue payloaded
    refine Ends.lift (fun error failed => ?_) fun _ _ =>
      ⟨drawn.1.trans same.1,drawn.2.1.trans same.2.1,drawn.2.2.trans same.2.2⟩
    rw [queued] at failed
    cases failed
  · obtain ⟨board,journal,wire⟩ := same
    refine Ends.bind_update (List.prefix_append ..) (Ends.pure ⟨?_,⟨_,by rw [board]⟩,fun topic heard => ?_⟩)
    · rw [actsOf_snoc,journal]
      rfl
    · intro wire' wired
      exact heard wire' (wire ▸ wired)

/-- Publishing an event for each item. -/
theorem tell_ends {α : Type} {topic : String} (typed : topic ≠ "") (payload : α → Fields) (items : List α)
    (heard : items ≠ [] → Hears w topic) :
    Ends (· ≤ ·) E (each (fun item => emit ctx topic (payload item)) items) w (fun _ w' =>
      w'.board = w.board ∧ Said w (items.map fun item => .told topic (payload item)) w') := by
  refine Ends.each_done (I := fun done (w' : World) => w'.board = w.board ∧
    Said w (done.map fun item => .told topic (payload item)) w') ⟨rfl,Said.refl w⟩ ?_
  rintro done item rest split w' - ⟨board,said⟩
  have hears := said.hears _ (heard (by rw [split]; simp))
  refine (emit_ends typed (payload item) hears).mono fun _ w'' _ told => ⟨told.1.trans board,?_⟩
  rw [List.map_append]
  exact said.trans told.2

theorem splitCalls_ends {decision : OrchestratorDecision} (heard : dept_aliases decision ≠ [] → Hears w "command.rejected") :
    Ends (· ≤ ·) E (splitCalls ctx decision w.board.selected_agents) w (fun expansion w' =>
      w'.board = w.board ∧ expansion.expanded = mentions ctx w.board.selected_agents decision ∧
      expansion.to_admit = awaited ctx w.board.selected_agents decision ∧ ∃ told,
        Said w told w' ∧ (unresolved ctx decision).map (fun dept => Act.told "command.rejected" (rejection ctx dept)) =
          told ++ expansion.rejected.map fun refused =>
            .told "command.rejected" [("department",.str refused.1),("reason",.str refused.2)]) := by
  unfold splitCalls
  rcases present : ctx.agent_registry with _ | registry
  · refine Ends.bind (tell_ends (by decide) _ _ heard) fun _ w' _ told => Ends.pure ?_
    refine ⟨told.1,(mentions_bare present _ _).symm,(awaited_bare present _ _).symm,_,told.2,?_⟩
    rw [unresolved_bare present]
    simp [rejection,present]
  · refine Ends.pure ?_
    rw [expanded_eq present]
    refine ⟨rfl,rfl,rfl,[],Said.refl w,?_⟩
    simp [rejection,present]

theorem admitMembers_ends {decision : OrchestratorDecision} {expansion : Expansion}
    (refuses : expansion.rejected ≠ [] → dept_aliases decision ≠ [])
    (heard : dept_aliases decision ≠ [] → Hears w "command.rejected" ∧ Hears w "loop.department_expanded") :
    Ends (· ≤ ·) E (admitMembers ctx decision expansion) w (fun _ w' =>
      (expansion.to_admit = [] → w'.board = w.board) ∧
      Said w (expansion.rejected.map (fun refused =>
          Act.told "command.rejected" [("department",.str refused.1),("reason",.str refused.2)]) ++
        if dept_aliases decision = [] then [] else [.told "loop.department_expanded"
          [("departments",ofTexts (dept_aliases decision)),("expanded",ofTexts (expansion.expanded.map AgentAssignment.agent_id)),
            ("admitted",ofTexts expansion.to_admit)]]) w') := by
  unfold admitMembers
  refine Ends.bind (tell_ends (by decide) _ _ fun some => (heard (refuses some)).1) fun _ w₁ _ refused => ?_
  refine Ends.ite (fun target => ?_) fun silent => Ends.pure ?_
  · refine Ends.bind (M := fun _ (w' : World) => (expansion.to_admit = [] → w'.board = w₁.board) ∧ Said w₁ [] w') ?_
      fun _ w₂ _ queued => ?_
    · refine (Ends.each_done (I := fun done (w' : World) => (done = [] → w'.board = w₁.board) ∧ Said w₁ [] w')
        ⟨fun _ => rfl,Said.refl w₁⟩ ?_)
      rintro done member rest - w' - ⟨-,said⟩
      exact Ends.bind (enqueue_ends member) fun _ w'' _ also => Ends.pure ⟨by simp,said.trans also⟩
    · have hears := queued.2.hears _ (refused.2.hears _ (heard target).2)
      refine (emit_ends (by decide) _ hears).mono fun _ w₃ _ told => ⟨fun none => ?_,?_⟩
      · exact told.1.trans ((queued.1 none).trans refused.1)
      · rw [if_neg target]
        exact refused.2.trans (queued.2.trans told.2)
  · rw [if_pos (not_not.mp silent)]
    exact ⟨fun _ => refused.1,by rw [List.append_nil]; exact refused.2⟩

/-! ### The turns -/

/-- Writing leaves no act. -/
theorem wrote_acts (w : World) (cause : Event) (s : TaskLoopState) : actsOf (w.wrote cause s).journal = actsOf w.journal := by
  unfold World.wrote
  rw [actsOf_snoc]
  exact List.append_nil _

theorem asked_ends {op : Op} {k : op.Answer → Sup Unit} {Q : Unit → World → Prop}
    (rest : ∀ answer, ctx.env.answer w.board (w.noted (.asked op)).journal op = .ok answer →
      Ends (· ≤ ·) (Outside ctx) (k answer) (w.noted (.asked op)) Q) : Ends (· ≤ ·) (Outside ctx) (ask ctx op >>= k) w Q := by
  refine Ends.bind (M := fun answer w' => w' = w.noted (.asked op) ∧
    ctx.env.answer w.board (w.noted (.asked op)).journal op = .ok answer) ?_ ?_
  · refine Ends.bind_update (List.prefix_append ..) (Ends.bind_read (Ends.lift (fun error failed => ?_) fun answer answered =>
      ⟨rfl,answered⟩))
    exact .inl ⟨_,_,op,failed⟩
  · rintro answer w' - ⟨rfl,answered⟩
    exact rest answer answered

/-- Saving stores the turns as they are. -/
theorem save_ends : Ends (· ≤ ·) (Outside ctx) (save ctx) w (fun _ w' => w'.board = w.board ∧
    actsOf w'.journal = actsOf w.journal ++ (if ctx.checkpoint.isSome then [.saved w.board.turns] else []) ∧
    w'.wire = w.wire) := by
  unfold save
  rcases ctx.checkpoint with _ | run_id
  · exact Ends.pure ⟨rfl,(List.append_nil _).symm,rfl⟩
  · refine Ends.bind_read (Ends.bind_lift (fun error failed => .inr ⟨_,failed⟩) fun document _ => ?_)
    refine asked_ends fun _ _ => Ends.update (List.prefix_append ..) ⟨rfl,?_,rfl⟩
    rw [actsOf_snoc,show (w.noted (.asked (.save document))).journal = w.journal ++ [.noted (.asked (.save document))] from rfl,
      actsOf_snoc]
    simp [actOf]

/-- Only artifacts were added, and nothing was published. -/
structure Stored (w w' : World) : Prop where
  board : ∃ artifacts, w'.board = { w.board with artifacts := artifacts }
  acts : actsOf w'.journal = actsOf w.journal
  wire : w'.wire = w.wire

theorem Stored.trans {w w' w'' : World} (stored : Stored w w') (also : Stored w' w'') : Stored w w'' := by
  obtain ⟨⟨artifacts,board⟩,acts,wire⟩ := stored
  obtain ⟨⟨artifacts',board'⟩,acts',wire'⟩ := also
  exact ⟨⟨artifacts',by rw [board',board]⟩,acts'.trans acts,wire'.trans wire⟩

theorem stored_artifact (cause : Event) (id : String) (payload : Fields) :
    Stored w (w.wrote cause (w.board.add_artifact id payload)) :=
  ⟨⟨_,rfl⟩,wrote_acts _ _ _,rfl⟩

theorem posted_ends {kind : String} {fields : Fields} : Ends (· ≤ ·) E (post kind fields) w (fun _ w' => Stored w w') :=
  Ends.bind_read (Ends.bind_update (List.prefix_append ..) (Ends.pure (stored_artifact _ _ _)))

theorem merged_ends (agent_id : String) (artifacts : List ArtifactEnvelope) :
    Ends (· ≤ ·) E (each (merge agent_id) artifacts) w (fun _ w' => Stored w w') := by
  refine Ends.each_done (I := fun _ (w' : World) => Stored w w') ⟨⟨_,rfl⟩,rfl,rfl⟩ ?_
  intro done art rest _ w' _ stored
  exact Ends.update (List.prefix_append ..) (stored.trans (stored_artifact _ _ _))

theorem sliced_ends (a : AgentAssignment) (s : TaskLoopState) :
    Ends (· ≤ ·) (Outside ctx) (store_slice ctx a s) w (fun _ w' =>
      w'.board = w.board ∧ actsOf w'.journal = actsOf w.journal ∧ w'.wire = w.wire) := by
  unfold store_slice
  refine Ends.ite (fun _ => ?_) fun _ => Ends.pure ⟨rfl,rfl,rfl⟩
  refine Ends.bind_update (List.prefix_append ..) (Ends.bind_read (Ends.lift (fun error failed => .inl ⟨_,_,_,failed⟩) fun _ _ => ?_))
  exact ⟨rfl,by rw [actsOf_snoc]; exact List.append_nil _,rfl⟩

theorem hears_wired {w' : World} {topic : String} (wired : w'.wire = w.wire) (heard : Hears w topic) : Hears w' topic :=
  fun wire same => heard wire (wired.symm.trans same)

theorem turn_typed : "loop.turn" ≠ "" := by decide

/-- What one turn does: the acts of `TakeTurns`, a turn on the Blackboard, and artifacts. -/
def Turned (ctx : SupervisorContext) (a : AgentAssignment) (w w' : World) : Prop :=
  Hears w' "loop.turn" ∧ ∃ slice s journal packet turn outcome artifacts,
    ctx.env.answer s journal (.write_packet a slice) = .ok packet ∧ turn.agent_id = a.agent_id ∧
    turn.round_no = w.board.round_no ∧
    w'.board = { w.board with artifacts := artifacts, turns := w.board.turns ++ [turn] } ∧
    actsOf w'.journal = actsOf w.journal ++ (.briefed a slice :: .delegated a.agent_id packet.to_spec (policyOf a) ::
      .told "loop.turn" [("agent_id",.str a.agent_id),("outcome",.str outcome)] ::
      if ctx.checkpoint.isSome then [.saved (w.board.turns ++ [turn])] else [])

theorem worker_turn_ends (targets : Targets ctx) (a : AgentAssignment) (heard : Hears w "loop.turn") :
    Ends (· ≤ ·) (Outside ctx) (worker_turn ctx a) w (fun _ w' => Turned ctx a w w') := by
  unfold worker_turn
  refine Ends.bind_read (Ends.bind (sliced_ends a w.board) fun slice w₁ _ sliced => ?_)
  obtain ⟨board₁,acts₁,wire₁⟩ := sliced
  refine asked_ends fun packet packed => Ends.ite (fun astray => absurd (targets _ _ _ _ _ packed) astray) fun _ => ?_
  refine Ends.bind posted_ends fun packet_id w₂ _ posted => asked_ends fun result _ => ?_
  refine Ends.bind (merged_ends a.agent_id result.artifacts) fun _ w₃ _ merged => ?_
  refine Ends.bind posted_ends fun result_id w₄ _ reported => Ends.bind_update (List.prefix_append ..) ?_
  have stored := merged.trans reported
  have turned : w₄.board = { w.board with artifacts := w₄.board.artifacts } := by
    obtain ⟨_,board₂⟩ := posted.board
    obtain ⟨_,board₄⟩ := stored.board
    rw [board₄,board_noted,board₂,board_noted,board₁]
  have acts₄ : actsOf w₄.journal = actsOf w.journal ++
      [.briefed a slice,.delegated a.agent_id (ContextPacket.to_spec packet) (policyOf a)] := by
    rw [stored.acts,World.noted,actsOf_snoc,posted.acts,World.noted,actsOf_snoc,acts₁,List.append_assoc]
    rfl
  have hears : Hears (w₄.wrote .changed { w₄.board with turns := w₄.board.turns ++
      [turnOf w₄.board.round_no a packet_id result result_id] }) "loop.turn" :=
    hears_wired ((stored.wire.trans posted.wire).trans wire₁) heard
  change Ends _ _ _ (w₄.wrote .changed { w₄.board with turns := w₄.board.turns ++
    [turnOf w₄.board.round_no a packet_id result result_id] }) _
  refine Ends.bind (emit_ends turn_typed _ hears) fun _ w₅ _ spoken => save_ends.mono fun _ w₆ _ stored => ?_
  obtain ⟨board₅,told⟩ := spoken
  obtain ⟨board₆,saved,wire₆⟩ := stored
  refine ⟨hears_wired wire₆ (told.hears _ hears),slice,_,_,packet,turnOf w₄.board.round_no a packet_id result result_id,
    (DelegationResult.outcome result).value,w₄.board.artifacts,packed,rfl,?_,?_,?_⟩
  · rw [turned]
    rfl
  · rw [board₆,board₅,board_wrote,turned]
  · rw [saved,told.acts,wrote_acts,acts₄,board₅,board_wrote,turned]
    simp

/-- The calls are run at the first mentions of the agents that are not done. -/
theorem runCalls_ends (targets : Targets ctx) (calls : List AgentAssignment) (done : List String) (w : World)
    (heard : Hears w "loop.turn") : Ends (· ≤ ·) (Outside ctx) (fold (runCall ctx) done calls) w (fun _ w' =>
      ∃ acts artifacts turns, TakeTurns ctx w.board.round_no w.board.turns (fresh done calls) acts turns ∧
        w'.board = { w.board with artifacts := artifacts, turns := turns } ∧ actsOf w'.journal = actsOf w.journal ++ acts) := by
  induction calls generalizing done w with
  | nil => exact Ends.pure ⟨[],_,_,.none _,rfl,(List.append_nil _).symm⟩
  | cons a rest ih =>
    unfold fresh
    by_cases known : a.agent_id ∈ done
    · refine Ends.bind (M := fun next w' => next = done ∧ w' = w) ?_ ?_
      · unfold runCall
        rw [if_pos known]
        exact Ends.pure ⟨rfl,rfl⟩
      · rintro _ _ - ⟨rfl,rfl⟩
        rw [if_pos known]
        exact ih _ _ heard
    · rw [if_neg known]
      refine Ends.bind (M := fun next w' => next = a.agent_id :: done ∧ Turned ctx a w w') ?_ ?_
      · unfold runCall
        rw [if_neg known]
        exact Ends.bind (worker_turn_ends targets a heard) fun _ w' _ turn => Ends.pure ⟨rfl,turn⟩
      · rintro _ w' - ⟨rfl,heard',slice,s,journal,packet,turn,outcome,artifacts,packed,whose,round,board,acts⟩
        refine (ih _ w' heard').mono fun _ w'' _ ⟨later,artifacts',turns,taken,board',acts'⟩ => ?_
        rw [board] at taken
        refine ⟨_,artifacts',turns,.next outcome packed whose round taken,by rw [board',board],?_⟩
        rw [acts',acts]
        simp

theorem check_authority_passes {s : TaskLoopState} {decision : OrchestratorDecision} (within : ¬ Overreaches s decision) :
    check_authority s.selected_agents (mentions ctx s.selected_agents decision) = .ok () := by
  rw [overreaches_iff ctx] at within
  push Not at within
  unfold check_authority
  rw [List.find?_eq_none.mpr fun a member => by simpa using within a member]

theorem check_authority_refuses (ctx : SupervisorContext) {s : TaskLoopState} {decision : OrchestratorDecision} (beyond : Overreaches s decision) :
    ∃ message, check_authority s.selected_agents (mentions ctx s.selected_agents decision) = .error (.PermissionError message) := by
  obtain ⟨a,mention,outside⟩ := (overreaches_iff ctx).mp beyond
  unfold check_authority
  have found : ((mentions ctx s.selected_agents decision).find? fun b => b.agent_id ∉ s.selected_agents).isSome :=
    List.find?_isSome.mpr ⟨a,mention,by simpa using outside⟩
  obtain ⟨b,there⟩ := Option.isSome_iff_exists.mp found
  rw [there]
  exact ⟨_,rfl⟩

theorem dept_of_rejected {decision : OrchestratorDecision} {α : Type} {refused : List α} {told : List Act} {f : α → Act}
    (same : (unresolved ctx decision).map (fun dept => Act.told "command.rejected" (rejection ctx dept)) = told ++ refused.map f)
    (some : refused ≠ []) : dept_aliases decision ≠ [] := by
  rintro none
  rw [unresolved,none] at same
  simp at same
  exact some same.2

/-- A round after its opening. -/
def afterOpening (ctx : SupervisorContext) (selected : List String) (calls : List AgentAssignment) : Sup Unit := do
  lift (check_authority selected calls)
  let state ← currentBoard
  let _ ← fold (runCall ctx) (done_this_round state) calls
  write fun s => { s with status := .IN_DISCUSSION }

/-- What comes before anybody is asked always passes. -/
theorem round_opened {decision : OrchestratorDecision}
    (heard : dept_aliases decision ≠ [] → Hears w "command.rejected" ∧ Hears w "loop.department_expanded") :
    ∃ w', (awaited ctx w.board.selected_agents decision = [] → w'.board = w.board) ∧
      Said w (opening ctx w.board.selected_agents decision) w' ∧ (run_round ctx decision).run w =
        (afterOpening ctx w.board.selected_agents (mentions ctx w.board.selected_agents decision)).run w' := by
  obtain ⟨expansion,w₁,ran₁,-,board,calls,admits,told,said,refused⟩ :=
    (splitCalls_ends (E := fun _ => False) fun target => (heard target).1).returns
  have heard₁ : dept_aliases decision ≠ [] → Hears w₁ "command.rejected" ∧ Hears w₁ "loop.department_expanded" :=
    fun target => ⟨said.hears _ (heard target).1,said.hears _ (heard target).2⟩
  obtain ⟨_,w₂,ran₂,-,idle,also⟩ := (admitMembers_ends (E := fun _ => False) (dept_of_rejected refused) heard₁).returns
  refine ⟨w₂,fun none => (idle (admits.trans none)).trans board,?_,?_⟩
  · have both := said.trans also
    rw [← List.append_assoc,← refused,calls,admits] at both
    exact both
  · unfold run_round
    rw [bind_run_ok (show (currentBoard).run w = (.ok w.board,w) from rfl),bind_run_ok ran₁,bind_run_ok ran₂,calls]
    rfl

/-- The round asked nobody: of the Blackboard nothing changed but the queue, and that only
    for members of a department that are not in the roster. -/
def Unasked (ctx : SupervisorContext) (w : World) (decision : OrchestratorDecision) (w' : World) : Prop :=
  actsOf w'.journal = actsOf w.journal ++ opening ctx w.board.selected_agents decision ∧
  ∃ queue, w'.board = { w.board with pending_commands := queue } ∧
    (awaited ctx w.board.selected_agents decision = [] → queue = w.board.pending_commands)

/-- These agents took their turns, and nothing else changed but artifacts, status and, for
    members that are not in the roster, the queue. -/
def Worked (ctx : SupervisorContext) (w : World) (decision : OrchestratorDecision) (due : List AgentAssignment) (w' : World) :
    Prop :=
  ∃ acts queue artifacts turns, TakeTurns ctx w.board.round_no w.board.turns due acts turns ∧
    actsOf w'.journal = actsOf w.journal ++ opening ctx w.board.selected_agents decision ++ acts ∧
    w'.board = { w.board with pending_commands := queue, artifacts := artifacts, turns := turns, status := .IN_DISCUSSION } ∧
    (awaited ctx w.board.selected_agents decision = [] → queue = w.board.pending_commands)

/-- A decision that overreaches stops the round before anybody is asked. Otherwise each
    agent that is mentioned and has no turn yet takes one, unless the outside raises. -/
theorem round_exact {decision : OrchestratorDecision} (targets : Targets ctx) (heard : Hears w "loop.turn")
    (departments : dept_aliases decision ≠ [] → Hears w "command.rejected" ∧ Hears w "loop.department_expanded") :
    (Overreaches w.board decision → ∃ message w',
      (run_round ctx decision).run w = (.error (.raised (.PermissionError message)),w') ∧ Unasked ctx w decision w') ∧
    (¬ Overreaches w.board decision → ∃ due,
      FirstMentions (mentions ctx w.board.selected_agents decision) (done_this_round w.board) due ∧
      Ends (· ≤ ·) (Outside ctx) (run_round ctx decision) w fun _ w' => Worked ctx w decision due w') := by
  obtain ⟨w₁,idle,⟨spoken,⟨queue,board⟩,hears⟩,run⟩ := round_opened departments
  have queued : awaited ctx w.board.selected_agents decision = [] → queue = w.board.pending_commands := fun none => by
    have kept := congrArg TaskLoopState.pending_commands (idle none)
    rw [board] at kept
    exact kept
  refine ⟨fun beyond => ?_,fun within => ⟨_,fresh_first_mentions _ _,?_⟩⟩
  · obtain ⟨message,refused⟩ := check_authority_refuses ctx beyond
    refine ⟨message,w₁,?_,spoken,queue,board,queued⟩
    rw [run,afterOpening,refused]
    rfl
  · have ends : Ends (· ≤ ·) (Outside ctx) (afterOpening ctx w.board.selected_agents
        (mentions ctx w.board.selected_agents decision)) w₁ fun _ w' => Worked ctx w decision
          (fresh (done_this_round w.board) (mentions ctx w.board.selected_agents decision)) w' := by
      unfold afterOpening
      rw [check_authority_passes within]
      have same : done_this_round w₁.board = done_this_round w.board := by rw [board]; rfl
      refine Ends.bind_lift (fun _ failed => by cases failed) fun _ _ => Ends.bind_read ?_
      refine Ends.bind (runCalls_ends targets _ _ w₁ (hears _ heard)) fun _ w₂ _ ran => ?_
      obtain ⟨acts,artifacts,turns,taken,board₂,acts₂⟩ := ran
      rw [same,board] at taken
      refine Ends.update (List.prefix_append ..) ⟨acts,queue,artifacts,turns,taken,?_,?_,queued⟩
      · rw [actsOf_snoc,acts₂,spoken]
        exact List.append_nil _
      · dsimp only
        rw [board₂,board]
    refine ⟨⟨(run_round ctx decision).onward w,?_,?_⟩,?_⟩
    · rw [run]; exact ends.halts
    · rw [run]; exact ends.post
    · rw [run]; exact ends.raised

end

/-! ### A broker with an objective of its own -/

/-- The crew with a broker that writes another objective into its packets. -/
def rewordedContext : SupervisorContext :=
  { crewContext "" with
    env := { (crewContext "").env with
      answer := fun s journal op => match op with
        | .write_packet a _ => .ok { target_agent_id := a.agent_id, objective := "elsewhere", briefing := "", source_ids := [] }
        | op => (crewContext "").env.answer s journal op } }

theorem reworded_targets : Targets rewordedContext := by
  intro s journal a slice packet packed
  cases packed
  rfl

/-- A round that calls the writer and a department nobody is in. -/
def draftCall : OrchestratorDecision where
  decision := .continue
  next_agent_calls := [{ agent_id := "writer", objective := "draft" },
    { agent_id := "ghosts", objective := "haunt", target_kind := .department }]

def writerBoard : TaskLoopState := { start_state rewordedContext 3 [] with selected_agents := ["writer"] }

/-- What is delegated and what is told. -/
def shownAct : Act → String
  | .told topic _ => topic
  | .briefed assignment _ => "brief " ++ assignment.objective
  | .delegated target spec _ => target ++ ": " ++ spec.objective
  | .saved turns => join "," (turns.map AgentTurn.agent_id)

theorem draft_within : ¬ Overreaches writerBoard draftCall := by
  unfold Overreaches
  decide

theorem writer_drafts : ∃ due,
    FirstMentions (mentions rewordedContext writerBoard.selected_agents draftCall) (done_this_round writerBoard) due ∧
    Ends (· ≤ ·) (Outside rewordedContext) (run_round rewordedContext draftCall) (freshWorld writerBoard none)
      fun _ w' => Worked rewordedContext (freshWorld writerBoard none) draftCall due w' := by
  have bare : ∀ topic, Hears (freshWorld writerBoard none) topic := fun topic wire wired => by cases wired
  exact (round_exact (w := freshWorld writerBoard none) reworded_targets (bare _) fun _ => ⟨bare _,bare _⟩).2 draft_within

/-- The delegation has the objective of the packet, not that of the call; and a department
    without members is named in a second event. -/
theorem packet_objective_delegated : Targets rewordedContext ∧ ¬ Overreaches writerBoard draftCall ∧
    ((run_round rewordedContext draftCall).run (freshWorld writerBoard none)).1 = .ok () ∧
    (actsOf ((run_round rewordedContext draftCall).run (freshWorld writerBoard none)).2.journal).map shownAct =
      ["command.rejected","loop.department_expanded","brief draft","writer: elsewhere","loop.turn","writer"] := by
  refine ⟨reworded_targets,draft_within,?_,?_⟩
  · decide +kernel
  · decide +kernel

end HexAgent.Assignments
