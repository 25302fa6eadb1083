import HexAgent.Scripted

/-!
Observability. A run with an emitter of the shipped event types and the same run
without one end alike as long as every topic they publish is declared; where a
topic is not, the wired run is cut short by an exception. What publishes only
declared topics is a run of silent decisions.
-/
namespace HexAgent.Wiring
open HexAgent.Values HexAgent.Board HexAgent.Commands HexAgent.CommandBridge HexAgent.Contracts HexAgent.Events
open HexAgent.Graph HexAgent.Loop HexAgent.Supervisor HexAgent.Budgets HexAgent.Moves HexAgent.Nodes HexAgent.Restarts
open HexAgent.Scripted Journals Programs

/-! ### Two worlds that differ in the emitter -/

/-- The same Blackboard, journal and draws; only the first world has an emitter, of the
    shipped event types. -/
structure Alike (w v : World) : Prop where
  board : w.board = v.board
  journal : w.journal = v.journal
  draws : w.draws = v.draws
  bare : v.wire = none
  wired : ∃ wire, w.wire = some wire ∧ wire.emitter.registry = load_event_registry

/-- Every topic that was published is declared. -/
def Audible (journal : Journal) : Prop := ∀ topic payload, .noted (.emitted topic payload) ∈ journal → Declared topic

theorem audible_append {journal more : Journal} : Audible (journal ++ more) ↔ Audible journal ∧ Audible more := by
  simp only [Audible,List.mem_append,or_imp,forall_and]

theorem audible_down (w w' : World) (onward : w ≤ w') (audible : Audible w'.journal) : Audible w.journal := by
  obtain ⟨more,journal⟩ := onward
  rw [← journal] at audible
  exact (audible_append.mp audible).1

/-- The program ends alike with the emitter and without it, if it publishes declared topics. -/
abbrev Same {α : Type} (m : Sup α) : Prop := Agrees Alike (fun v => Audible v.journal) m

section
variable {ctx : SupervisorContext} {α β : Type}

theorem Same.bind {m : Sup α} {k : α → Sup β} (first : Same m) (rest : ∀ a, Same (k a)) : Same (m >>= k) :=
  Agrees.bind audible_down first rest

theorem same_pure (a : α) : Same (pure a) := Agrees.pure
theorem same_raise (error : PyError) : Same (raise error : Sup α) := Agrees.raise
theorem same_lift (x : Except PyError α) : Same (lift x) := Agrees.lift
theorem same_board : Same currentBoard := Agrees.read fun _ _ alike => alike.board

theorem same_note (entry : Entry TaskLoopState Event) : Same (note entry) :=
  Agrees.update fun _ _ alike => { alike with journal := by simp only [alike.journal] }

theorem same_write (f : TaskLoopState → TaskLoopState) (cause : Event) : Same (write f cause) :=
  Agrees.update fun _ _ alike => { alike with
    board := by simp only [alike.board]
    journal := by simp only [alike.journal,alike.board] }

theorem same_ask (op : Op) : Same (ask ctx op) :=
  (same_note _).bind fun _ =>
    Same.bind (Agrees.read fun _ _ alike => by rw [alike.board,alike.journal]) fun answer => same_lift answer

theorem same_drawStamp : Same (drawStamp ctx) :=
  Same.bind (Agrees.read fun _ _ alike => alike.draws) fun n =>
    Same.bind (Agrees.update fun _ _ alike => { alike with draws := by simp only [alike.draws] }) fun _ =>
      same_pure _

theorem declared_nonempty {topic : String} (declared : Declared topic) : topic ≠ "" := by
  rintro rfl
  exact absurd declared (by decide)

/-- An emitter of the shipped event types takes every declared topic. -/
theorem emit_declared {emitter : EventEmitter} (shipped : emitter.registry = load_event_registry) {topic : String}
    (declared : Declared topic) {session_id : String} (owned : session_id ≠ "") (stamp : Stamp) (actor : Actor)
    (trace : TraceContext) (payload : Fields) (task_id : Option String) :
    ∃ emitter' event, emitter.emit stamp topic session_id actor trace payload task_id = .ok (emitter',event) ∧
      emitter'.registry = load_event_registry := by
  have accepts := (emit_accepts_iff emitter stamp actor trace payload task_id (declared_nonempty declared) owned).mpr
    (by rw [shipped]; exact declared)
  rcases sent : emitter.emit stamp topic session_id actor trace payload task_id with error | ⟨emitter',event⟩
  · rw [sent] at accepts
    cases accepts
  · exact ⟨emitter',event,rfl,(emit_registry sent).trans shipped⟩

theorem same_emit (topic : String) (payload : Fields) : Same (emit ctx topic payload) := by
  intro w v alike audible
  have bare : (emit ctx topic payload).run v = (note (.noted (.emitted topic payload)) : Sup Unit).run v := by
    unfold emit
    rw [bind_run_ok (read_run ..),alike.bare]
  rw [bare] at audible ⊢
  have declared : Declared topic := audible topic payload (List.mem_append_right _ (List.mem_singleton_self _))
  obtain ⟨wire,wired,shipped⟩ := alike.wired
  have traced : (wire.traced ctx).1.emitter = wire.emitter := by
    unfold Wire.traced
    split <;> rfl
  obtain ⟨emitter,event,sent,shipped'⟩ := @emit_declared (wire.traced ctx).1.emitter
    (by rw [traced]; exact shipped) topic declared _ ctx.identity.session_id_nonempty
    (ctx.env.event_stamp (wire.traced ctx).1.drawn) supervisorActor (wire.traced ctx).2 payload
    (some ctx.identity.task_id)
  have run : (emit ctx topic payload).run w = (.ok (),
      { w with wire := some { (wire.traced ctx).1 with emitter, drawn := (wire.traced ctx).1.drawn + 1,
                                                       delivered := (wire.traced ctx).1.delivered ++ [event] }
               journal := w.journal ++ [.noted (.emitted topic payload)] }) := by
    unfold emit
    rw [bind_run_ok (read_run ..),wired]
    dsimp only
    rw [bind_run_ok (a := ()) rfl,sent]
    rfl
  rw [run]
  exact ⟨rfl,alike.board,congrArg (· ++ [.noted (.emitted topic payload)]) alike.journal,alike.draws,alike.bare,_,rfl,shipped'⟩

/-! ### Every node -/

theorem same_save : Same (save ctx) := by
  unfold save
  split
  · exact same_pure _
  · exact same_board.bind fun state => (same_lift _).bind fun document => (same_ask _).bind fun _ => same_note _

theorem same_post (kind : String) (fields : Fields) : Same (post kind fields) :=
  same_board.bind fun _ => (same_write _ _).bind fun _ => same_pure _

theorem same_each {body : β → Sup Unit} (alike : ∀ item, Same (body item)) (items : List β) : Same (each body items) :=
  Agrees.each audible_down alike items

theorem same_compose_team (task : String) : Same (compose_team ctx task) := by
  unfold compose_team
  refine (same_lift _).bind fun roles => (same_ask _).bind fun raw => (same_lift _).bind fun plan => ?_
  refine Agrees.ite (same_raise _) ((same_lift _).bind fun catalog => Agrees.ite (same_raise _) ?_)
  refine (same_write _ _).bind fun _ => (same_post _ _).bind fun _ => (same_write _ _).bind fun _ => ?_
  exact (same_emit _ _).bind fun _ => same_pure _

theorem same_o_decide (budget : Budget) : Same (o_decide ctx budget) := by
  refine Agrees.loop audible_down (fun budget => ?_) _ _
  unfold askOnce
  refine same_board.bind fun state => (same_lift _).bind fun view => (same_ask _).bind fun raw => ?_
  split
  · exact (same_emit _ _).bind fun _ => Agrees.ite (same_pure _) (same_pure _)
  · exact same_raise _
  · exact (same_emit _ _).bind fun _ => same_pure _

theorem same_enqueue_commands (decision : OrchestratorDecision) : Same (enqueue_commands ctx decision) := by
  unfold enqueue_commands
  refine same_board.bind fun state => Same.bind (Agrees.fold audible_down (fun queue raw => ?_) _ _) fun queue => ?_
  · exact same_drawStamp.bind fun stamp => same_lift _
  · exact (same_write _ _).bind fun _ => same_pure _

theorem same_applyOne (registry : CommandTypeRegistry) (catalog : List String) (applied : Nat) (raw : Fields) :
    Same (applyOne ctx registry catalog applied raw) := by
  have told : ∀ (topic : String) (payload : Fields), Same (do emit ctx topic payload; pure applied) :=
    fun topic payload => (same_emit topic payload).bind fun _ => same_pure _
  unfold applyOne
  refine same_drawStamp.bind fun stamp => (same_lift _).bind fun cmd => same_board.bind fun state => ?_
  refine Agrees.ite (same_pure _) ?_
  split
  · exact told _ _
  · refine Agrees.ite (told _ _) (Agrees.ite (told _ _) (Agrees.ite (told _ _) (Agrees.ite (told _ _) ?_)))
    refine Agrees.ite ((same_write _ _).bind fun _ => same_pure _) ?_
    exact (same_write _ _).bind fun _ => (same_emit _ _).bind fun _ => same_pure _

theorem same_apply_pending_commands (registry : CommandTypeRegistry) (catalog : List String) :
    Same (apply_pending_commands ctx registry catalog) :=
  same_board.bind fun _ => Same.bind (Agrees.fold audible_down (same_applyOne registry catalog) _ _) fun _ =>
    (same_write _ _).bind fun _ => same_pure _

theorem same_splitCalls (decision : OrchestratorDecision) (selected : List String) :
    Same (splitCalls ctx decision selected) := by
  unfold splitCalls
  split
  · exact (same_each (fun dept => same_emit _ _) _).bind fun _ => same_pure _
  · exact same_pure _

theorem same_admitMembers (decision : OrchestratorDecision) (expansion : Expansion) :
    Same (admitMembers ctx decision expansion) := by
  refine (same_each (fun refused => same_emit _ _) _).bind fun _ => Agrees.ite ?_ (same_pure _)
  refine (same_each (fun member => ?_) _).bind fun _ => same_emit _ _
  exact (same_enqueue_commands _).bind fun _ => same_pure _

theorem same_store_slice (assignment : AgentAssignment) (state : TaskLoopState) :
    Same (store_slice ctx assignment state) :=
  Agrees.ite (same_ask _) (same_pure _)

theorem same_worker_turn (assignment : AgentAssignment) : Same (worker_turn ctx assignment) := by
  unfold worker_turn
  refine same_board.bind fun state => (same_store_slice _ _).bind fun slice => (same_ask _).bind fun packet => ?_
  refine Agrees.ite (same_raise _) ((same_post _ _).bind fun packet_id => (same_ask _).bind fun result => ?_)
  refine (same_each (fun art => same_write _ _) _).bind fun _ => (same_post _ _).bind fun result_id => ?_
  exact (same_write _ _).bind fun _ => (same_emit _ _).bind fun _ => same_save

theorem same_run_round (decision : OrchestratorDecision) : Same (run_round ctx decision) := by
  unfold run_round
  refine same_board.bind fun state => (same_splitCalls _ _).bind fun expansion => ?_
  refine (same_admitMembers _ _).bind fun _ => (same_lift _).bind fun _ => same_board.bind fun state => ?_
  refine Same.bind (Agrees.fold audible_down (fun done assignment => ?_) _ _) fun _ => same_write _ _
  exact Agrees.ite (same_pure _) ((same_worker_turn _).bind fun _ => same_pure _)

theorem same_run_tool (decision : OrchestratorDecision) : Same (run_tool ctx decision) := by
  refine (same_each (fun req => ?_) _).bind fun _ => same_write _ _
  unfold runRequest
  refine (same_lift _).bind fun args => (same_ask _).bind fun envelope => same_board.bind fun state => ?_
  exact (same_write _ _).bind fun _ => (same_write _ _).bind fun _ => same_emit _ _

theorem same_judge_acceptance (decision : OrchestratorDecision) : Same (judge_acceptance decision) := by
  refine (same_each (fun row => ?_) _).bind fun _ => same_write _ _
  exact same_board.bind fun state => (same_lift _).bind fun state => same_write _ _

/-! ### The loop -/

theorem same_terminate (status : TaskLoopStatus) (reason : String) : Same (terminate ctx status reason) :=
  (same_write _ _).bind fun _ => same_board.bind fun _ => (same_emit _ _).bind fun _ => same_save

theorem same_carryOut (decision : OrchestratorDecision) : Same (carryOut ctx decision) := by
  unfold carryOut
  split
  · refine (same_judge_acceptance _).bind fun _ => same_board.bind fun state => Agrees.ite ?_ ?_
    · exact (same_write _ _).bind fun _ => (same_terminate _ _).bind fun _ => same_pure _
    · exact (same_write _ _).bind fun _ => same_pure _
  · exact (same_run_tool _).bind fun _ => (same_judge_acceptance _).bind fun _ => same_pure _
  · exact (same_run_round _).bind fun _ => (same_judge_acceptance _).bind fun _ => same_pure _
  · exact (same_terminate _ _).bind fun _ => same_pure _
  · exact (same_terminate _ _).bind fun _ => same_pure _

theorem same_closeRound : Same (closeRound ctx) := by
  unfold closeRound
  refine same_board.bind fun state => (same_lift _).bind fun catalog => (same_apply_pending_commands _ _).bind fun applied => ?_
  refine (same_write _ _).bind fun _ => same_save.bind fun _ => same_board.bind fun state => Agrees.ite ?_ (same_pure _)
  exact (same_emit _ _).bind fun _ => same_pure _

theorem same_guardRound (max_decision_repeats : Int) (before : TaskLoopState) (applied : Nat) (vars : DriveVars) :
    Same (guardRound ctx max_decision_repeats before applied vars) := by
  have blocks : ∀ reason, Same (do terminate ctx .BLOCKED reason; pure (.inr ()) : Sup (DriveVars ⊕ Unit)) :=
    fun reason => (same_terminate _ _).bind fun _ => same_pure _
  exact same_board.bind fun state => Agrees.ite (blocks _) (Agrees.ite (blocks _) (same_pure _))

theorem same_takeDecision (decision : OrchestratorDecision) (vars : DriveVars) : Same (takeDecision ctx decision vars) := by
  unfold takeDecision
  refine (same_note _).bind fun _ => (same_enqueue_commands _).bind fun _ => (same_lift _).bind fun signature => ?_
  refine (same_carryOut _).bind fun goesOn => Agrees.ite ?_ (same_pure _)
  exact same_closeRound.bind fun applied => same_pure _

theorem same_driveRound (max_decision_repeats : Int) (vars : DriveVars) :
    Same (driveRound ctx max_decision_repeats vars) := by
  have ends : ∀ status reason, Same (do terminate ctx status reason; pure (.inr ()) : Sup (DriveVars ⊕ Unit)) :=
    fun status reason => (same_terminate _ _).bind fun _ => same_pure _
  unfold driveRound
  refine same_board.bind fun state => Agrees.ite (same_pure _) (Agrees.ite (ends _ _) ?_)
  refine (same_o_decide _).bind fun (decision,budget) => ?_
  cases decision with
  | none => exact ends _ _
  | some decision =>
    refine (same_takeDecision _ _).bind fun next => ?_
    cases next with
    | none => exact same_pure _
    | some next => exact same_guardRound _ _ _ _

theorem same_drive (budget : Budget) (max_decision_repeats : Int) : Same (drive ctx budget max_decision_repeats) :=
  same_board.bind fun _ => Same.bind (Agrees.loop audible_down (same_driveRound max_decision_repeats) _ _) fun _ =>
    same_board.bind fun _ => same_pure _

theorem same_beginLoop (task : String) (budget : Budget) (max_decision_repeats : Int) :
    Same (beginLoop ctx task budget max_decision_repeats) :=
  (same_compose_team _).bind fun _ => same_save.bind fun _ => same_drive _ _

/-! ### Silent runs -/

/-- Every decision is taken in a state in which it is silent. -/
def SilentFrom (ctx : SupervisorContext) (s : TaskLoopState) (journal : Journal) : Prop :=
  ∀ before decision rest, journal = before ++ .noted (.accepted decision) :: rest → Silent ctx (after s before) decision

theorem silentFrom_append {s : TaskLoopState} {journal more : Journal} (silent : SilentFrom ctx s (journal ++ more)) :
    SilentFrom ctx s journal ∧ SilentFrom ctx (after s journal) more := by
  refine ⟨fun before decision rest split => ?_,fun before decision rest split => ?_⟩
  · exact silent before decision (rest ++ more) (by rw [split]; simp)
  · have here := silent (journal ++ before) decision rest (by rw [split]; simp)
    rwa [after_append] at here

/-- The world moves by a journal that publishes only declared topics, if its decisions
    are silent. -/
def Quietly (ctx : SupervisorContext) (w w' : World) : Prop :=
  ∃ more, w'.journal = w.journal ++ more ∧ w'.board = after w.board more ∧ (SilentFrom ctx w.board more → Audible more)

instance : IsPreorder World (Quietly ctx) where
  refl w := ⟨[],by simp,rfl,fun _ _ _ member => nomatch member⟩
  trans := by
    rintro a b c ⟨first,journal,board,audible⟩ ⟨second,journal',board',audible'⟩
    refine ⟨first ++ second,by rw [journal',journal,List.append_assoc],by rw [after_append,← board,board'],fun silent => ?_⟩
    obtain ⟨early,late⟩ := silentFrom_append silent
    rw [← board] at late
    exact audible_append.mpr ⟨audible early,audible' late⟩

/-- Every event is allowed but for the topics that are not declared. -/
def declaredOnly (event : Event) : Prop := ∀ topic payload, event = .emitted topic payload → Declared topic

theorem usual_declaredOnly : Usual declaredOnly where
  asks _ _ := nofun
  emits topic payload declared := by rintro _ _ ⟨⟩; exact declared
  accepts _ := nofun

theorem obeys_audible {w w' : World} (obeys : Obeys (loopRules ctx declaredOnly) w w') :
    ∃ more, w'.journal = w.journal ++ more ∧ w'.board = after w.board more ∧ Audible more := by
  obtain ⟨more,journal,follows,board⟩ := obeys
  refine ⟨more,journal,board,fun topic payload published => ?_⟩
  obtain ⟨s,allowed⟩ := follows_noted follows published
  exact allowed topic payload rfl

/-- A decision is taken quietly: where it is not silent, nothing is promised. -/
theorem takes_quietly (decision : OrchestratorDecision) (vars : DriveVars) {w : World} (ready : Ready w.board) :
    Quietly ctx w ((takeDecision ctx decision vars).run w).2 := by
  by_cases silent : Silent ctx w.board decision
  · obtain ⟨more,journal,board,audible⟩ := obeys_audible (takeDecision_spec usual_declaredOnly (fun _ _ _ => nofun)
      (.inr silent) ready.going ready.settled ready.left vars).moves
    exact ⟨more,journal,board,fun _ => audible⟩
  · obtain ⟨more,journal,-,board⟩ := (@takeDecision_spec ctx _ w usual_everything decision (fun _ _ _ => trivial)
      (.inl noisy_everything) ready.going ready.settled ready.left vars).moves
    refine ⟨more,journal,board,fun allSilent => absurd ?_ silent⟩
    -- the journal of the decision begins with the mark that it was taken
    have marked : w.noted (.accepted decision) ≤ ((takeDecision ctx decision vars).run w).2 := by
      unfold takeDecision
      exact bind_onward rfl
    obtain ⟨rest,split⟩ := marked
    rw [journal] at split
    have head : more = [] ++ .noted (.accepted decision) :: rest := by
      have same : w.journal ++ .noted (.accepted decision) :: rest = w.journal ++ more := by
        rw [← split]
        simp [World.noted]
      exact (List.append_cancel_left same).symm
    exact allSilent [] decision rest head

theorem along_quietly : Along ctx declaredOnly (Quietly ctx) where
  usual := usual_declaredOnly
  decides _ := nofun
  obeys w w' obeys := by
    obtain ⟨more,journal,board,audible⟩ := obeys_audible obeys
    exact ⟨more,journal,board,fun _ => audible⟩
  takes w decision vars ready := takes_quietly decision vars ready

end

/-- A run whose decisions are all silent, in the states in which they are taken, ends
    with an emitter of the shipped event types exactly as it ends without one. -/
theorem silent_run_same_wired (ctx : SupervisorContext) (task : String) (items : List Criterion)
    (max_rounds max_decision_repeats : Int) (budget : Budget) (emitter : EventEmitter)
    (shipped : emitter.registry = load_event_registry)
    (silent : ∀ checks, criteria items = .ok checks → SilentFrom ctx (start_state ctx max_rounds checks)
      (run_task_loop ctx task items max_rounds max_decision_repeats budget none).2.journal) :
    let bare := run_task_loop ctx task items max_rounds max_decision_repeats budget none
    let wired := run_task_loop ctx task items max_rounds max_decision_repeats budget (some emitter)
    wired.1 = bare.1 ∧ wired.2.board = bare.2.board ∧ wired.2.journal = bare.2.journal := by
  intro bare wired
  rcases read : criteria items with error | checks
  · simp [bare,wired,run_task_loop,read,freshWorld]
  · have quiet := silent checks read
    simp only [bare,wired,run_task_loop,read] at quiet ⊢
    have fresh : Alike (freshWorld (start_state ctx max_rounds checks) (some emitter))
        (freshWorld (start_state ctx max_rounds checks) none) := ⟨rfl,rfl,rfl,rfl,_,rfl,shipped⟩
    obtain ⟨more,journal,-,audible⟩ :=
      (beginLoop_spec along_quietly (w := freshWorld (start_state ctx max_rounds checks) none) task budget
        max_decision_repeats rfl (settled_nil rfl)).moves
    rw [journal] at quiet
    have published : Audible ((beginLoop ctx task budget max_decision_repeats).run
        (freshWorld (start_state ctx max_rounds checks) none)).2.journal := by
      rw [journal]
      exact audible quiet
    obtain ⟨result,alike⟩ := same_beginLoop task budget max_decision_repeats _ _ fresh published
    exact ⟨result,alike.board,alike.journal⟩

/-! ### A run that is cut short, and one that is not -/

/-- The crew's writer, called as a department. -/
def departmentText : String :=
  "\x7b\"decision\":\"continue\",\"next_agent_calls\":[" ++
    "\x7b\"agent_id\":\"authors\",\"objective\":\"draft\",\"target_kind\":\"department\"\x7d]\x7d"

/-- The first run ended with a contract error and the second one returned. -/
def cutShort {ε α β : Type} : Except (Stop PyError) α → Except ε β → Bool
  | .error (.raised (.ControlContractError _)),.ok _ => true
  | _,_ => false

theorem cutShort_iff {ε α β : Type} {wired : Except (Stop PyError) α} {bare : Except ε β} :
    cutShort wired bare = true ↔
      (∃ message, wired = .error (.raised (.ControlContractError message))) ∧ ∃ result, bare = .ok result := by
  unfold cutShort
  split
  · next message result => exact iff_of_true rfl ⟨⟨message,rfl⟩,result,rfl⟩
  · next other =>
    refine iff_of_false Bool.false_ne_true ?_
    rintro ⟨⟨message,cut⟩,result,whole⟩
    exact other message result cut whole

/-- With an emitter the call of a department raises; without one the run returns. -/
theorem department_call_aborts_wired :
    (∃ message, (run_task_loop (crewContext departmentText) "write" [] 1 3 {} (some {})).1 =
      .error (.raised (.ControlContractError message))) ∧
    ∃ result, (run_task_loop (crewContext departmentText) "write" [] 1 3 {} none).1 = .ok result := by
  have ends : cutShort (run_task_loop (crewContext departmentText) "write" [] 1 3 {} (some {})).1
      (run_task_loop (crewContext departmentText) "write" [] 1 3 {} none).1 = true := by decide +kernel
  exact cutShort_iff.mp ends

/-- A decision that issues no command and calls no department is silent while nothing
    is queued. -/
theorem silent_of_idle {ctx : SupervisorContext} {s : TaskLoopState} {decision : OrchestratorDecision}
    (empty : s.pending_commands = []) (commands : decision.commands = []) (targets : dept_aliases decision = []) :
    Silent ctx s decision := by
  have none : ∀ cmd, ¬ Offers s.session_id decision.commands cmd := by
    rintro cmd offers
    obtain ⟨raw,member,-⟩ := offers.translated
    rw [commands] at member
    cases member
  refine ⟨fun _ => targets,fun _ catalog _ raw queued => ?_,fun _ catalog _ cmd offers => absurd offers (none cmd),?_⟩
  · rw [empty] at queued
    cases queued
  · rintro - (some | ⟨cmd,offers,-⟩)
    · exact absurd empty some
    · exact absurd offers (none cmd)

theorem silentFrom_of_idle (ctx : SupervisorContext) (process : Process TaskLoopState Event)
    (empty : ∀ s ∈ process.states, s.pending_commands = [])
    (idle : ∀ decision ∈ process.journal.filterMap acceptedAt, decision.commands = [] ∧ dept_aliases decision = []) :
    SilentFrom ctx process.start process.journal := by
  intro before decision rest split
  have taken : decision ∈ process.journal.filterMap acceptedAt := by
    refine List.mem_filterMap.mpr ⟨.noted (.accepted decision),?_,rfl⟩
    rw [split]
    exact List.mem_append_right _ (List.mem_cons_self ..)
  have reached : after process.start before ∈ process.states := by
    rw [Process.states,split]
    exact after_prefix_mem_states process.start before _
  exact silent_of_idle (empty _ reached) (idle decision taken).1 (idle decision taken).2

theorem review_same_wired :
    let bare := run_task_loop reviewContext "review" (reviewCriteria.map .item) 3 3 {} none
    let wired := run_task_loop reviewContext "review" (reviewCriteria.map .item) 3 3 {} (some {})
    wired.1 = bare.1 ∧ wired.2.board = bare.2.board ∧ wired.2.journal = bare.2.journal := by
  have idle : (∀ s ∈ reviewProcess.states, s.pending_commands = []) ∧
      ∀ decision ∈ reviewProcess.journal.filterMap acceptedAt, decision.commands = [] ∧ dept_aliases decision = [] := by
    decide +kernel
  have quiet := silentFrom_of_idle reviewContext reviewProcess idle.1 idle.2
  simp only [reviewProcess] at quiet
  have checked : criteria (reviewCriteria.map .item) = .ok [{ id := "C1", text := "reviewed" }] := rfl
  refine silent_run_same_wired reviewContext "review" (reviewCriteria.map .item) 3 3 {} {} rfl fun checks read => ?_
  rw [checked] at read
  cases read
  exact quiet

end HexAgent.Wiring
