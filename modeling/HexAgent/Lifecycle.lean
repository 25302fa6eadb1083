import HexAgent.RunBounds

/-!
The life of the task of a run. Until the last node the session is open with the task that it was
created with, whatever processes the run went through; the last node closes it, tells so once, and
nothing reaches the kernel afterwards.
-/
namespace HexAgent.Lifecycle
open HexAgent.Values HexAgent.Json HexAgent.Schemas HexAgent.Budgets HexAgent.Sessions HexAgent.GraphState
open HexAgent.AgentGraph HexAgent.Ledgers HexAgent.AgentRuns HexAgent.RunBounds

/-! ### Ledgers that close -/

/-- The task is open, and no event says otherwise. -/
structure Going (l : Ledger) : Prop where
  running : l.status = "running"
  untold : l.log.countP Deed.closing = 0

/-- The task was closed: one event says so, and one more ends the log. -/
structure Over (l : Ledger) : Prop where
  status : l.status = "completed" ∨ l.status = "failed"
  told : ∃ before payload payload', l.log = before ++ [closes l.status payload,.published "graph.completed" payload'] ∧
    before.countP Deed.closing = 0

structure Lives (l : Ledger) : Prop where
  going : l.next ≠ none → Going l
  ended : l.next = none → Over l

section
variable {interp : Interpreter} {l l' start : Ledger} {trail : List (NodeName × Ledger)}

/-- A move to another node that tells nothing of the task. -/
theorem Going.on (going : Going l) {node : NodeName} (next : l'.next = some node) (status : l'.status = l.status)
    {deeds : List Deed} (log : l'.log = l.log ++ deeds) (quiet : deeds.countP Deed.closing = 0) : Lives l' := by
  refine ⟨fun _ => ⟨status.trans going.running,?_⟩,fun ended => ?_⟩
  · rw [log,List.countP_append,going.untold,quiet]
  · rw [next] at ended
    cases ended

/-- Only the last two nodes end a run. -/
theorem moves_lives (going : Going l) (moved : Moves interp l l') :
    Lives l' ∧ (l'.next = none → l.next = some .finish ∨ l.next = some .fail) := by
  have done {status : String} {payload payload' : Fields} (either : status = "completed" ∨ status = "failed") :
      Lives { l with
        next := none, status
        log := l.log ++ [closes status payload,.published "graph.completed" payload'] } :=
    ⟨fun wrong => absurd rfl wrong,fun _ => ⟨either,l.log,payload,payload',rfl,going.untold⟩⟩
  cases moved with
  | spent payload next past => exact ⟨going.on rfl rfl rfl rfl,nofun⟩
  | admitted next left => exact ⟨going.on rfl rfl (List.append_nil _).symm rfl,nofun⟩
  | gaveUp args payload content message stage candidate next read past => exact ⟨going.on rfl rfl rfl rfl,nofun⟩
  | retried args payload content message stage candidate next read left => exact ⟨going.on rfl rfl rfl rfl,nofun⟩
  | acted args payload action content more next read talk => exact ⟨going.on rfl rfl rfl rfl,nofun⟩
  | repeated payload key next keyed past => exact ⟨going.on rfl rfl rfl rfl,nofun⟩
  | executed key text next keyed left => exact ⟨going.on rfl rfl rfl rfl,nofun⟩
  | undelegated next => exact ⟨going.on rfl rfl (List.append_nil _).symm rfl,nofun⟩
  | delegated text next => exact ⟨going.on rfl rfl (List.append_nil _).symm rfl,nofun⟩
  | blocked payload text next good => exact ⟨going.on rfl rfl rfl rfl,nofun⟩
  | finished payload payload' next =>
    refine ⟨done ?_,fun _ => .inl next⟩
    split
    · exact .inr rfl
    · exact .inl rfl
  | failed payload payload' next => exact ⟨done (.inr rfl),fun _ => .inr next⟩

theorem run_lives (lives : Lives start) (run : Run interp start trail l) : Lives l := by
  induction run with
  | start => exact lives
  | move run next moved ih => exact (moves_lives (ih.going (by rw [next]; simp)) moved).1

end

/-! ### The session of a run -/

section
variable {ω : Type} {start p : Position ω} {task : TaskEnvelope} {messages : List Message} {budget : Budget}
  {model : Option String} {resumable : Prop} {trail : List (NodeName × AgentState)}

/-- The session is open with its task, and restoring it from the state changes nothing. -/
structure Working (p : Position ω) (task : TaskEnvelope) : Prop where
  active : p.desk.session.is_active = true
  assigned : p.desk.session.state.get "current_task" = some (.task task)
  owned : p.desk.session.identity.task_id = task.task_id
  kept : p.desk._restore_session p.state = .ok p.desk
  running : p.state.status = "running"
  untold : p.desk.log.countP Deed.closing = 0

/-- The last node closed the session; the last but one deed of the run tells so, and the outcome has the status of the
    graph. -/
structure Ended (trail : List (NodeName × AgentState)) (p : Position ω) (task : TaskEnvelope) : Prop where
  closed : p.desk.session._closed = true
  last : ∃ before node, trail = before ++ [(node,p.state)] ∧ (node = .finish ∨ node = .fail)
  told : ∃ before payload payload', p.desk.log = before ++ [closes p.state.status payload,
    .published "graph.completed" payload'] ∧ before.countP Deed.closing = 0 ∧ payload.get "task_id" = .str task.task_id
  outcome : ∃ result, p.state.outcome =
    some [("task_id",.str task.task_id),("status",.str p.state.status),("result",result)]
  status : p.state.status = "completed" ∨ p.state.status = "failed"

/-- What a run visited last. -/
theorem reaches_last (going : start.next ≠ none) (reached : Reaches resumable start trail p) (ended : p.next = none) :
    ∃ before node p', Reaches resumable start before p' ∧ p'.next = some node ∧ visit node p' = .ok p ∧
      trail = before ++ [(node,p.state)] := by
  cases reached with
  | start => exact (going ended).elim
  | visit reached next moved => exact ⟨_,_,_,reached,next,moved,rfl⟩
  | resume services world allowed reached next running reader restored =>
    exact absurd (next.symm.trans ended) (by simp)

theorem begins_lives (begins : Begins start task messages budget model) : Lives (ledger start budget) := by
  have made := begins.state
  unfold new_agent_state at made
  rw [begins.assigned] at made
  have running : start.state.status = "running" := by rw [← Except.ok.inj made]
  refine ⟨fun _ => ⟨running,?_⟩,fun ended => ?_⟩
  · rw [show (ledger start budget).log = [] from begins.idle]
    rfl
  · exact absurd (begins.next.symm.trans ended) (by simp)

theorem appended_two {α : Type} {before other : List α} {a b c d : α} (same : before ++ [a,b] = other ++ [c,d]) :
    before = other ∧ a = c := by
  obtain ⟨first,second⟩ := List.append_inj' same rfl
  exact ⟨first,(List.cons.inj second).1⟩

/-- The session of a run works with the task that it was created with up to the last node, in whatever process, and
    that node closes it, once. -/
theorem closed_by_last_node (begins : Begins start task messages budget model)
    (reached : Reaches resumable start trail p) :
    (p.next ≠ none → Working p task) ∧ (p.next = none → Ended trail p task) := by
  obtain ⟨kept,ledgers,run,stands,-,-⟩ := reaches_run begins reached
  have lives := run_lives (begins_lives begins) run
  refine ⟨fun going => ?_,fun ended => ?_⟩
  · have opened := stands.opened going
    obtain ⟨running,untold⟩ := lives.going going
    exact ⟨opened.active,opened.assigned,stands.owned,opened.restored,running,untold⟩
  · obtain ⟨closed,⟨before,payload,payload',log,owned⟩,outcome⟩ := stands.closed ended
    obtain ⟨status,before',other,other',log',untold⟩ := lives.ended ended
    have same : p.desk.log = before' ++ [closes p.state.status other,.published "graph.completed" other'] := log'
    obtain ⟨rfl,-⟩ := appended_two (log.symm.trans same)
    refine ⟨closed,?_,⟨before,payload,payload',log,untold,owned⟩,outcome,status⟩
    obtain ⟨earlier,node,p',reached',next,moved,rfl⟩ := reaches_last (by rw [begins.next]; simp) reached ended
    obtain ⟨kept',ledgers',run',stands',-,-⟩ := reaches_run begins reached'
    obtain ⟨_,moves,-,-⟩ := visit_moves stands' next moved
    have going := (run_lives (begins_lives begins) run').going (by rw [show (ledger p' kept').next = _ from next]; simp)
    have last := (moves_lives going moves).2 ended
    refine ⟨earlier,node,rfl,?_⟩
    rcases last with last | last
    · exact .inl (Option.some.inj (next.symm.trans last))
    · exact .inr (Option.some.inj (next.symm.trans last))

end

/-! ### A run in two processes -/

/-- The session of the errand in a new process. -/
def errandAgain : KernelSession :=
  { errandSession with allowed_capabilities := (sortedNames errandSession.allowed_capabilities).toFinset }

theorem errand_restored (texts : List String) (budget : Budget) :
    _restore_persisted_session (errandState budget) (speaking texts) 0 = .ok errandAgain := by
  have within : (sortedNames errandSession.allowed_capabilities).toFinset ⊆ (speaking texts).available := by
    rw [sortedNames,Finset.sort_toFinset]
    exact Finset.Subset.refl _
  have assigned : errandSession.state.get "current_task" = some (.task errand) := rfl
  have stored : (errandState budget).session_state = encode_session_state errandSession.state := rfl
  unfold _restore_persisted_session
  rw [stored,if_neg (encoded_ne_nil assigned)]
  show (decode_session_state "u" (encode_session_state errandSession.state)).bind _ = _
  rw [session_back assigned (by decide)]
  exact if_pos within

def greetFinal : String := "\x7b\"action\":\"final\",\"message\":\"hi\"\x7d"

/-- The process of the errand is replaced before its first node. -/
theorem errand_closed_once : ∃ (trail : List (NodeName × AgentState)) (p : Position Nat),
    Reaches True (errandStart [] greetBudget) trail p ∧ Ended trail p errand ∧ p.state.status = "completed" := by
  have again : Reaches True (errandStart [] greetBudget) [] _ :=
    .resume (speaking [greetTool,"",greetFinal]) 0 trivial .start rfl rfl rfl (errand_restored _ greetBudget)
  have run : seen (fun _ p => (p.next,p.state.status)) 12
      ⟨some .guard,errandState greetBudget,⟨speaking [greetTool,"",greetFinal],errandAgain,0,[]⟩⟩ =
        .ok (none,"completed") := by
    decide +kernel
  obtain ⟨trail,p,reached,seen⟩ := seen_reaches again run
  obtain ⟨ended,status⟩ := Prod.mk.inj seen
  exact ⟨_,p,reached,(closed_by_last_node (errand_begins _ _) reached).2 ended,status⟩

end HexAgent.Lifecycle
