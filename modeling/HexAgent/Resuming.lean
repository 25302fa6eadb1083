import HexAgent.Lifecycle

/-!
Running a task and resuming it. Each call drives the graph from the state that was saved last; it
may die at any moment, within a node too, and what the node did by then is lost from the state. All
that is ever saved is what one process would have saved that never died and got the same replies
from outside, and every call that returns an outcome returns the same one.
-/
namespace HexAgent.Resuming
open HexAgent.Values HexAgent.Json HexAgent.JsonGate HexAgent.Commands HexAgent.Schemas HexAgent.Budgets
open HexAgent.Sessions HexAgent.EventLog HexAgent.GraphState HexAgent.AgentGraph HexAgent.AgentRuns

/-! ### The facade -/

section
variable {ω : Type}

/-- What a call returns of a state. -/
def _outcome (state : AgentState) : Fields :=
  match state.outcome with
  | some outcome => outcome
  | none => [("task_id",.str state.task_id),("status",.str state.status),("result",ofOption state.final)]

/-- A checkpoint as it is saved after each node: the state, and the node that is next. -/
structure Saved where
  next : Option NodeName
  state : AgentState

/-- What `resume` finds: nothing is left to do, or it goes on with a session. -/
inductive Pickup where
  | done (outcome : Fields)
  | go (session : KernelSession)

/-- What is returned when nothing is left to do. -/
def Pickup.outcome : Pickup → Option Fields
  | .done outcome => some outcome
  | .go _ => none

/-- The session is restored first, even where nothing is left to do. -/
def resume (saved : Saved) (services : Services ω) (world : ω) : Except PyError Pickup := do
  let session ← _restore_persisted_session saved.state services world
  if saved.state.status ≠ "running" ∨ saved.next = none then .ok (.done (_outcome saved.state))
  else
    let _ ← budget_from_state saved.state
    .ok (.go session)

/-- The calls of `run` and `resume` for one run, with the outcomes that were returned, the nodes that were visited and
    the state saved after each, and the position of the process that is alive or died last. -/
inductive Calls (start : Position ω) : List Fields → List (NodeName × AgentState) → Position ω → Prop
  /-- `run` begins. -/
  | begun : Calls start [] [] start
  /-- The process visits a node, and its state is saved. -/
  | visit {outcomes : List Fields} {trail : List (NodeName × AgentState)} {node : NodeName} {p p' : Position ω}
      (calls : Calls start outcomes trail p) (next : p.next = some node) (moved : visit node p = .ok p') :
      Calls start outcomes (trail ++ [(node,p'.state)]) p'
  /-- The process reached the end, and its call returns. -/
  | returned {outcomes : List Fields} {trail : List (NodeName × AgentState)} {p : Position ω}
      (calls : Calls start outcomes trail p) (ended : p.next = none) : Calls start (outcomes ++ [_outcome p.state]) trail p
  /-- The process died, or returned; a new one is told that nothing is left to do. -/
  | idle {outcomes : List Fields} {trail : List (NodeName × AgentState)} {p : Position ω} {outcome : Fields}
      (services : Services ω) (world : ω) (calls : Calls start outcomes trail p)
      (resumed : resume ⟨p.next,p.state⟩ services world = .ok (.done outcome)) : Calls start (outcomes ++ [outcome]) trail p
  /-- The process died; a new one goes on with the session of the saved state, in a world that the nodes that were
      not finished may have changed. -/
  | again {outcomes : List Fields} {trail : List (NodeName × AgentState)} {p : Position ω} {session : KernelSession}
      (services : Services ω) (world : ω) (calls : Calls start outcomes trail p)
      (resumed : resume ⟨p.next,p.state⟩ services world = .ok (.go session))
      (reader : services.interp = p.desk.services.interp)
      (configured : services.delegation_service.isSome = p.desk.services.delegation_service.isSome) :
      Calls start outcomes trail { p with desk := { services, session, world, log := p.desk.log } }

/-! ### One process -/

/-- A reply from outside: of the kernel, or of the delegation service. -/
inductive Reply where
  | kernel (result : Fields)
  | delegation (answer : Except PyError DelegationResult)

/-- The services of a process that gets these replies, one after another, whatever it asks. -/
def replaying (interp : Interpreter) (configured : Bool) : Services (List Reply) where
  interp
  available := ∅
  uuid := fun _ => ""
  kernel := fun _ _ _ replies => match replies with
    | .kernel result :: rest => (.ok result,rest)
    | replies => (.error (.RuntimeError "no reply"),replies)
  delegation_service := if configured then some fun _ _ _ _ replies => match replies with
    | .delegation answer :: rest => (answer,rest)
    | replies => (.error (.RuntimeError "no reply"),replies) else none

/-- The process with the session and the deeds of another, and replies to come. -/
def replay (desk : Desk ω) (replies : List Reply) : Desk (List Reply) :=
  ⟨replaying desk.services.interp desk.services.delegation_service.isSome,desk.session,replies,desk.log⟩

def alone (p : Position ω) (replies : List Reply) : Position (List Reply) := ⟨p.next,p.state,replay p.desk replies⟩

variable {state : AgentState} {desk : Desk ω} {task : TaskEnvelope} {budget : Budget}

theorem Open.replayed (opened : Open state desk task) (replies : List Reply) : Open state (replay desk replies) task :=
  ⟨opened.stored,opened.assigned,opened.named,opened.unclosed⟩

/-- A node does the same in a process that gets the replies that it got. -/
def Echoes (node : NodeName) (state : AgentState) (desk : Desk ω) (out : AgentState × Desk ω) : Prop :=
  ∃ replies, ∀ more, nodeOf node state (replay desk (replies ++ more)) = .ok (out.1,replay out.2 more)

section
variable (counted : state.budget = budget_to_dict budget) (opened : Open state desk task)
include counted opened

theorem guard_echoes {out : AgentState × Desk ω} (ran : guard_node state desk = .ok out) : Echoes .guard state desk out := by
  refine ⟨[],fun more => ?_⟩
  have same := Except.ok.inj ((guard_eq counted opened).symm.trans ran)
  show guard_node state (replay desk more) = _
  rw [guard_eq counted (Open.replayed opened more),← same]
  split <;> rfl

theorem agent_echoes {out : AgentState × Desk ω} (ran : agent_node state desk = .ok out) : Echoes .agent state desk out := by
  obtain ⟨response,world,content,answers,told,taken⟩ := (agent_ok_iff counted opened).mp ran
  refine ⟨[.kernel response],fun more => ?_⟩
  refine (agent_ok_iff counted (Open.replayed opened _)).mpr ⟨response,more,content,rfl,told,?_⟩
  cases taken with
  | action action parsed => exact .action action parsed
  | gaveUp message stage candidate parsed past => exact .gaveUp message stage candidate parsed past
  | retried message stage candidate parsed left => exact .retried message stage candidate parsed left

theorem tool_echoes {out : AgentState × Desk ω} (ran : tool_node state desk = .ok out) : Echoes .tool state desk out := by
  obtain ⟨key,keyed,worked⟩ := (tool_ok_iff counted opened).mp ran
  cases worked with
  | repeated past =>
    exact ⟨[],fun more => (tool_ok_iff counted (Open.replayed opened _)).mpr ⟨key,keyed,.repeated past⟩⟩
  | executed left result world text answers written =>
    exact ⟨[.kernel result],fun more =>
      (tool_ok_iff counted (Open.replayed opened _)).mpr ⟨key,keyed,.executed left result more text rfl written⟩⟩

end

/-- Replies to come for an answer of the delegation service. -/
theorem consulted_echoes {service : DelegationService ω} {target : String} {spec : DelegationSpec} {policy : Fields}
    (there : desk.services.delegation_service = some service) {out : AgentState × Desk ω}
    (answered : Consulted (attempted service desk target spec policy) state desk out) :
    ∃ replies, ∀ more, ∃ service', (replay desk (replies ++ more)).services.delegation_service = some service' ∧
      Consulted (attempted service' (replay desk (replies ++ more)) target spec policy) state (replay desk (replies ++ more))
        (out.1,replay out.2 more) := by
  have configured : desk.services.delegation_service.isSome = true := by rw [there]; rfl
  have offered : ∀ replies, ∃ service', (replay desk replies).services.delegation_service = some service' ∧
      service' = fun _ _ _ _ replies => match replies with
        | .delegation answer :: rest => (answer,rest)
        | replies => (.error (.RuntimeError "no reply"),replies) := by
    intro replies
    exact ⟨_,if_pos configured,rfl⟩
  rcases limits : DelegationPolicy.from_dict policy with exc | limit
  · -- a policy that is none never reaches the service
    have nothing : ∀ {ω : Type} (service : DelegationService ω) (desk : Desk ω),
        attempted service desk target spec policy = (.error exc,desk.world) := by
      intro ω service desk
      rw [attempted,limits]
    rw [nothing] at answered
    refine ⟨[],fun more => ?_⟩
    obtain ⟨service',there',-⟩ := offered more
    refine ⟨service',there',?_⟩
    rw [nothing]
    cases answered with
    | failed _ _ _ _ text described => exact .failed exc more state (replay desk more) text described
  · have passed : ∀ {ω : Type} (service : DelegationService ω) (desk : Desk ω),
        attempted service desk target spec policy = service desk.session target spec limit desk.world := by
      intro ω service desk
      rw [attempted,limits]
    rw [passed] at answered
    rcases reply : service desk.session target spec limit desk.world with ⟨answer,world⟩
    rw [reply] at answered
    refine ⟨[.delegation answer],fun more => ?_⟩
    obtain ⟨service',there',same⟩ := offered (.delegation answer :: more)
    refine ⟨service',there',?_⟩
    rw [passed,same]
    cases answered with
    | failed exc _ _ _ text described =>
      exact .failed exc more state (replay desk (.delegation (.error exc) :: more)) text described
    | observed result _ _ _ text written =>
      exact .observed result more state (replay desk (.delegation (.ok result) :: more)) text written

theorem delegation_echoes (opened : Open state desk task) {out : AgentState × Desk ω}
    (ran : delegation_node state desk = .ok out) : Echoes .delegate state desk out := by
  have handed := (delegation_ok_iff opened).mp ran
  have present : ∀ service, desk.services.delegation_service = some service → ∀ replies,
      ∃ service', (replay desk replies).services.delegation_service = some service' := by
    intro service there replies
    exact ⟨_,if_pos (by rw [there]; rfl)⟩
  have node : ∀ replies out', Handed state (replay desk replies) out' → nodeOf .delegate state (replay desk replies) = .ok out' :=
    fun replies out' handed => (delegation_ok_iff (Open.replayed opened replies)).mpr handed
  cases handed with
  | unconfigured absent =>
    refine ⟨[],fun more => node more _ (.unconfigured ?_)⟩
    show (if desk.services.delegation_service.isSome = true then _ else none) = none
    rw [absent]
    rfl
  | malformed service there bad =>
    refine ⟨[],fun more => ?_⟩
    obtain ⟨service',there'⟩ := present service there more
    exact node more _ (.malformed service' there' bad)
  | aimless service spec_raw policy_raw spec there someone given limits converted empty =>
    refine ⟨[],fun more => ?_⟩
    obtain ⟨service',there'⟩ := present service there more
    exact node more _ (.aimless service' spec_raw policy_raw spec there' someone given limits converted empty)
  | sent service spec_raw policy_raw spec there someone given limits converted some answered =>
    obtain ⟨replies,each⟩ := consulted_echoes there answered
    refine ⟨replies,fun more => ?_⟩
    obtain ⟨service',there',answered'⟩ := each more
    exact node _ _ (.sent service' spec_raw policy_raw spec there' someone given limits converted some answered')

section
variable (counted : state.budget = budget_to_dict budget) (opened : Open state desk task)
include counted opened

theorem finish_echoes {out : AgentState × Desk ω} (ran : finish_node state desk = .ok out) : Echoes .finish state desk out := by
  refine ⟨[],fun more => ?_⟩
  have opened' := Open.replayed opened more
  show finish_node state (replay desk more) = _
  by_cases wrong : errored (state.last_action.getD [])
  · have same := Except.ok.inj ((finish_errored counted opened wrong).symm.trans ran)
    rw [finish_errored counted opened' wrong,← same]
    rfl
  · rcases gate : check_finish desk.session.state ((state.last_action.getD []).get "finish_reason") with _ | reason
    · have same := Except.ok.inj ((finish_completed counted opened wrong gate).symm.trans ran)
      rw [finish_completed counted opened' wrong gate,← same]
      rfl
    · have same := Except.ok.inj ((finish_blocked counted opened wrong gate).symm.trans ran)
      rw [finish_blocked counted opened' wrong gate,← same]
      rfl

theorem fail_echoes {out : AgentState × Desk ω} (ran : fail_node state desk = .ok out) : Echoes .fail state desk out := by
  refine ⟨[],fun more => ?_⟩
  have same := Except.ok.inj ((fail_eq counted opened).symm.trans ran)
  show fail_node state (replay desk more) = _
  rw [fail_eq counted (Open.replayed opened more),← same]
  rfl

theorem node_echoes (node : NodeName) {out : AgentState × Desk ω} (ran : nodeOf node state desk = .ok out) :
    Echoes node state desk out := by
  cases node with
  | guard => exact guard_echoes counted opened ran
  | agent => exact agent_echoes counted opened ran
  | tool => exact tool_echoes counted opened ran
  | delegate => exact delegation_echoes opened ran
  | finish => exact finish_echoes counted opened ran
  | fail => exact fail_echoes counted opened ran

end

/-! ### Calls -/

variable {start p p' : Position ω} {messages : List Message} {model : Option String} {outcomes : List Fields}
  {trail : List (NodeName × AgentState)}

/-- A visit is made again by a process that gets the replies that it got. -/
theorem visit_echoes (stands : Stands p budget task) {node : NodeName} (here : p.next = some node)
    (moved : visit node p = .ok p') : ∃ replies, ∀ more, visit node (alone p (replies ++ more)) = .ok (alone p' more) := by
  obtain ⟨ran,edge⟩ := visit_ok_iff.mp moved
  obtain ⟨replies,each⟩ := node_echoes stands.counted (stands.opened (by rw [here]; simp)) node ran
  exact ⟨replies,fun more => visit_ok_iff.mpr ⟨each more,edge⟩⟩

/-- A process that goes on found a running state with a node to visit. -/
theorem resumed_go {services : Services ω} {world : ω} {session : KernelSession}
    (resumed : resume ⟨p.next,p.state⟩ services world = .ok (.go session)) : ∃ node, p.next = some node ∧
      p.state.status = "running" ∧ _restore_persisted_session p.state services world = .ok session := by
  obtain ⟨session',restored,found⟩ := Conversions.bind_ok_iff.mp resumed
  split_ifs at found with gone
  · cases found
  · obtain ⟨running,going⟩ := not_or.mp gone
    obtain ⟨node,next⟩ := Option.ne_none_iff_exists'.mp going
    obtain ⟨budget,-,same⟩ := Conversions.bind_ok_iff.mp found
    cases same
    exact ⟨node,next,not_not.mp running,restored⟩

/-- A process that returns at once found a state that is not running, or no node to visit. -/
theorem resumed_done {services : Services ω} {world : ω} {outcome : Fields}
    (resumed : resume ⟨p.next,p.state⟩ services world = .ok (.done outcome)) :
    (p.state.status ≠ "running" ∨ p.next = none) ∧ outcome = _outcome p.state := by
  obtain ⟨session,-,found⟩ := Conversions.bind_ok_iff.mp resumed
  split_ifs at found with gone
  · cases found
    exact ⟨gone,rfl⟩
  · obtain ⟨budget,-,same⟩ := Conversions.bind_ok_iff.mp found
    cases same

/-- What the calls of one run come to is a run with resumptions. -/
theorem calls_reach (calls : Calls start outcomes trail p) : Reaches True start trail p := by
  induction calls with
  | begun => exact .start
  | visit calls next moved ih => exact ih.visit next moved
  | returned calls ended ih => exact ih
  | idle services world calls resumed ih => exact ih
  | again services world calls resumed reader configured ih =>
    obtain ⟨node,next,running,restored⟩ := resumed_go resumed
    exact .resume services world trivial ih next running reader restored

/-- What no node changes: whose session it is, what the session may do, and the session itself before the end. -/
structure Framed (state : AgentState) (session : KernelSession) (out : AgentState × Desk ω) : Prop where
  identity : out.1.session_identity = state.session_identity
  allowed : out.1.allowed_capabilities = state.allowed_capabilities
  session : out.2.session = session ∨ out.1.route = "end"

theorem node_framed (stands : Stands p budget task) (node : NodeName) (here : p.next = some node) {out : AgentState × Desk ω}
    (ran : nodeOf node p.state p.desk = .ok out) : Framed p.state p.desk.session out := by
  have opened := stands.opened (by rw [here]; simp)
  cases node with
  | guard =>
    have same := Except.ok.inj ((guard_eq stands.counted opened).symm.trans ran)
    rw [← same]
    split
    · exact ⟨rfl,rfl,.inl rfl⟩
    · exact ⟨rfl,rfl,.inl rfl⟩
  | agent =>
    obtain ⟨response,world,content,answers,told,taken⟩ := (agent_ok_iff stands.counted opened).mp ran
    cases taken with
    | action action parsed => exact ⟨rfl,rfl,.inl rfl⟩
    | gaveUp message stage candidate parsed past => exact ⟨rfl,rfl,.inl rfl⟩
    | retried message stage candidate parsed left => exact ⟨rfl,rfl,.inl rfl⟩
  | tool =>
    obtain ⟨key,keyed,worked⟩ := (tool_ok_iff stands.counted opened).mp ran
    cases worked with
    | repeated past => exact ⟨rfl,rfl,.inl rfl⟩
    | executed left result world text answers written => exact ⟨rfl,rfl,.inl rfl⟩
  | delegate =>
    cases (delegation_ok_iff opened).mp ran with
    | unconfigured absent => exact ⟨rfl,rfl,.inl rfl⟩
    | malformed service there bad => exact ⟨rfl,rfl,.inl rfl⟩
    | aimless service spec_raw policy_raw spec there someone given limits converted empty => exact ⟨rfl,rfl,.inl rfl⟩
    | sent service spec_raw policy_raw spec there someone given limits converted some answered =>
      generalize attempted service p.desk _ spec policy_raw = answer at answered
      cases answered with
      | failed exc world => exact ⟨rfl,rfl,.inl rfl⟩
      | observed result world _ _ text written => exact ⟨rfl,rfl,.inl rfl⟩
  | finish =>
    by_cases wrong : errored (p.state.last_action.getD [])
    · rw [← Except.ok.inj ((finish_errored stands.counted opened wrong).symm.trans ran)]
      exact ⟨rfl,rfl,.inr rfl⟩
    · rcases gate : check_finish p.desk.session.state ((p.state.last_action.getD []).get "finish_reason") with _ | reason
      · rw [← Except.ok.inj ((finish_completed stands.counted opened wrong gate).symm.trans ran)]
        exact ⟨rfl,rfl,.inr rfl⟩
      · rw [← Except.ok.inj ((finish_blocked stands.counted opened wrong gate).symm.trans ran)]
        exact ⟨rfl,rfl,.inl rfl⟩
  | fail =>
    rw [← Except.ok.inj ((fail_eq stands.counted opened).symm.trans ran)]
    exact ⟨rfl,rfl,.inr rfl⟩

/-- A run whose session is still the one that it began with. -/
structure Owned (start p : Position ω) : Prop where
  identity : p.state.session_identity = start.desk.session.identity
  allowed : p.state.allowed_capabilities = sortedNames start.desk.session.allowed_capabilities
  session : p.next ≠ none → p.desk.session = start.desk.session

theorem visit_owned (owned : Owned start p) (stands : Stands p budget task) {node : NodeName} (here : p.next = some node)
    (moved : visit node p = .ok p') : Owned start p' := by
  obtain ⟨ran,edge⟩ := visit_ok_iff.mp moved
  obtain ⟨identity,allowed,session⟩ := node_framed stands node here ran
  refine ⟨identity.trans owned.identity,allowed.trans owned.allowed,fun going => ?_⟩
  rcases session with same | gone
  · exact same.trans (owned.session (by rw [here]; simp))
  · -- no edge goes on from the end
    have ended : edgeFrom node p'.state ≠ .ok p'.next := by
      obtain ⟨next,there⟩ := Option.ne_none_iff_exists'.mp going
      have route : _route p'.state = "end" := by
        unfold _route
        rw [show p'.state.route = "end" from gone]
        rfl
      rw [there]
      unfold edgeFrom
      rw [route]
      cases node <;> simp [edgesOf,Dicts.get]
    exact absurd edge ended

theorem begins_owned (begins : Begins start task messages budget model) : Owned start start := by
  have made := begins.state
  unfold new_agent_state at made
  rw [begins.assigned] at made
  rw [show start = ⟨start.next,start.state,start.desk⟩ from rfl,← Except.ok.inj made]
  exact ⟨rfl,rfl,fun _ => rfl⟩

/-- A new process restores the session as it was. -/
theorem resumed_session (owned : Owned start p) (agent : start.desk.session.identity.agent_id ≠ "")
    (stands : Stands p budget task) {node : NodeName} (here : p.next = some node) {services : Services ω} {world : ω}
    {session : KernelSession} (restored : _restore_persisted_session p.state services world = .ok session) :
    session = p.desk.session := by
  have opened := stands.opened (by rw [here]; simp)
  have same := owned.session (by rw [here]; simp)
  have some : encode_session_state p.desk.session.state ≠ [] := encoded_ne_nil opened.assigned
  have holds : holdsTask p.desk.session.state = true := by
    unfold holdsTask
    rw [opened.assigned]
  have named : orText start.desk.session.identity.agent_id "agent:root" = start.desk.session.identity.agent_id := if_neg agent
  unfold _restore_persisted_session at restored
  rw [opened.stored,if_neg some] at restored
  obtain ⟨state,back,made⟩ := Conversions.bind_ok_iff.mp restored
  rw [session_back opened.assigned opened.named] at back
  cases back
  rw [owned.identity,owned.allowed,named,sortedNames,Finset.sort_toFinset] at made
  rw [← same] at made
  have unclosed : (!true) = p.desk.session._closed := opened.unclosed.symm
  unfold restore at made
  split_ifs at made
  rw [← Except.ok.inj made,holds,unclosed]

/-- Whatever calls were made and wherever they died, the states that were saved are those of one process that never
    died and got the same replies; and the calls that returned an outcome returned the one of the state at the end. -/
theorem calls_linear (begins : Begins start task messages budget model) (agent : start.desk.session.identity.agent_id ≠ "")
    (calls : Calls start outcomes trail p) :
    (∃ replies, Reaches False (alone start replies) trail (alone p [])) ∧
      ∀ outcome ∈ outcomes, p.next = none ∧ outcome = _outcome p.state := by
  have along : Owned start p ∧ (∃ replies, ∀ more, Reaches False (alone start (replies ++ more)) trail (alone p more)) ∧
      ∀ outcome ∈ outcomes, p.next = none ∧ outcome = _outcome p.state := by
    induction calls with
    | begun => exact ⟨begins_owned begins,⟨[],fun more => .start⟩,by simp⟩
    | @visit outcomes trail node p p' calls next moved ih =>
      obtain ⟨owned,⟨replies,linear⟩,told⟩ := ih
      obtain ⟨budget',-,-,stands,-,-⟩ := reaches_run begins (calls_reach calls)
      obtain ⟨replies',each⟩ := visit_echoes stands next moved
      refine ⟨visit_owned owned stands next moved,⟨replies ++ replies',fun more => ?_⟩,fun outcome member => ?_⟩
      · have before := linear (replies' ++ more)
        rw [← List.append_assoc] at before
        exact before.visit next (each more)
      · rw [(told outcome member).1] at next
        cases next
    | @returned outcomes trail p calls ended ih =>
      obtain ⟨owned,linear,told⟩ := ih
      refine ⟨owned,linear,List.forall_mem_append.mpr ⟨told,List.forall_mem_singleton.mpr ⟨ended,rfl⟩⟩⟩
    | @idle outcomes trail p outcome services world calls resumed ih =>
      obtain ⟨owned,linear,told⟩ := ih
      obtain ⟨budget',ledgers,run,-,-,-⟩ := reaches_run begins (calls_reach calls)
      obtain ⟨gone,same⟩ := resumed_done resumed
      have ended : p.next = none := by
        by_contra going
        exact gone.elim (fun other => other ((Lifecycle.run_lives (Lifecycle.begins_lives begins) run).going going).running) going
      exact ⟨owned,linear,List.forall_mem_append.mpr ⟨told,List.forall_mem_singleton.mpr ⟨ended,same⟩⟩⟩
    | @again outcomes trail p session services world calls resumed reader configured ih =>
      obtain ⟨owned,⟨replies,linear⟩,told⟩ := ih
      obtain ⟨node,next,running,restored⟩ := resumed_go resumed
      obtain ⟨budget',-,-,stands,-,-⟩ := reaches_run begins (calls_reach calls)
      have same := resumed_session owned agent stands next restored
      subst same
      refine ⟨⟨owned.identity,owned.allowed,owned.session⟩,⟨replies,fun more => ?_⟩,told⟩
      have before := linear more
      unfold alone replay at before ⊢
      rw [reader,configured]
      exact before
  obtain ⟨-,⟨replies,linear⟩,told⟩ := along
  refine ⟨⟨replies,?_⟩,told⟩
  have whole := linear []
  rwa [List.append_nil] at whole

/-- A process that runs nodes. -/
theorem Calls.driven (calls : Calls start outcomes trail p) {n : Nat} {more : List (NodeName × AgentState)} {last : Position ω}
    (driven : drive n p = .ok (more,last)) : Calls start outcomes (trail ++ more) last := by
  induction n generalizing p trail more with
  | zero =>
    cases driven
    rw [List.append_nil]
    exact calls
  | succ n ih =>
    rw [drive] at driven
    rcases next : p.next with _ | node
    · rw [next] at driven
      cases driven
      rw [List.append_nil]
      exact calls
    · rw [next] at driven
      obtain ⟨p',moved,rest⟩ := Conversions.bind_ok_iff.mp driven
      obtain ⟨⟨further,final⟩,driven',done⟩ := Conversions.bind_ok_iff.mp rest
      cases done
      have onward := ih (calls.visit next moved) driven'
      rw [List.append_assoc] at onward
      exact onward

end

open RunBounds Lifecycle in
/-- A process that dies before its first node, one that goes on to the end, and one that finds nothing left to do. -/
theorem errand_called_twice : ∃ (outcomes : List Fields) (trail : List (NodeName × AgentState)) (p : Position Nat),
    outcomes.length = 2 ∧ p.next = none ∧ (∃ replies, Reaches False (alone (errandStart [] greetBudget) replies) trail (alone p [])) ∧
      ∀ outcome ∈ outcomes, outcome = _outcome p.state := by
  have resumed : resume ⟨some .guard,errandState greetBudget⟩ (speaking [greetTool,"",greetFinal]) 0 = .ok (.go errandAgain) := by
    have restored := errand_restored [greetTool,"",greetFinal] greetBudget
    refine Conversions.bind_ok_iff.mpr ⟨errandAgain,restored,?_⟩
    rw [if_neg (by decide)]
    rfl
  have again : Calls (errandStart [] greetBudget) [] [] _ :=
    .again (speaking [greetTool,"",greetFinal]) 0 .begun resumed rfl rfl
  have run : seen (fun _ p => (p.next,((resume ⟨p.next,p.state⟩ (speaking []) 0).toOption.bind Pickup.outcome).isSome)) 12
      ⟨some .guard,errandState greetBudget,⟨speaking [greetTool,"",greetFinal],errandAgain,0,[]⟩⟩ = .ok (none,true) := by
    decide +kernel
  unfold seen at run
  rcases driven : drive 12 ⟨some .guard,errandState greetBudget,⟨speaking [greetTool,"",greetFinal],errandAgain,0,[]⟩⟩
    with error | ⟨trail,last⟩
  · rw [driven] at run
    cases run
  · rw [driven] at run
    obtain ⟨ended,idle⟩ := Prod.mk.inj (Except.ok.inj run)
    obtain ⟨outcome,resumed'⟩ : ∃ outcome, resume ⟨last.next,last.state⟩ (speaking []) 0 = .ok (.done outcome) := by
      rcases resumed' : resume ⟨last.next,last.state⟩ (speaking []) 0 with exc | (outcome | session)
      · rw [resumed'] at idle
        cases idle
      · exact ⟨outcome,rfl⟩
      · rw [resumed'] at idle
        cases idle
    have calls := ((again.driven driven).returned ended).idle (speaking []) 0 resumed'
    obtain ⟨linear,told⟩ := calls_linear (errand_begins _ _) (by decide) calls
    exact ⟨_,_,last,rfl,ended,linear,fun outcome member => (told outcome member).2⟩

end HexAgent.Resuming
