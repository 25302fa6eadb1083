import HexAgent.Conversions
import HexAgent.Ledgers

/-!
Runs of an agent and their ledgers. As long as a run goes on its session is open and passes through
the state of the graph unchanged, so every visit of a node is a move of the ledger.
-/
namespace HexAgent.AgentRuns
open HexAgent.Values HexAgent.Json HexAgent.JsonGate HexAgent.Commands HexAgent.Schemas HexAgent.Budgets
open HexAgent.Conversions (bind_ok_iff)
open HexAgent.Sessions HexAgent.EventLog HexAgent.GraphState HexAgent.AgentGraph HexAgent.Ledgers Dicts

/-! ### The session between two nodes -/

section
variable {ω : Type}

/-- The session is open, and the state holds it. -/
structure Open (state : AgentState) (desk : Desk ω) (task : TaskEnvelope) : Prop where
  stored : state.session_state = encode_session_state desk.session.state
  assigned : desk.session.state.get "current_task" = some (.task task)
  named : task.task_id ≠ ""
  unclosed : desk.session._closed = false

variable {state : AgentState} {desk : Desk ω} {task : TaskEnvelope} {budget : Budget}

theorem Open.active (opened : Open state desk task) : desk.session.is_active = true := by
  unfold KernelSession.is_active
  rw [opened.unclosed,opened.assigned]

/-- Restoring an open session changes nothing. -/
theorem Open.restored (opened : Open state desk task) : desk._restore_session state = .ok desk := by
  have some : encode_session_state desk.session.state ≠ [] := encoded_ne_nil opened.assigned
  unfold Desk._restore_session
  rw [opened.stored,if_neg some]
  show (decode_session_state _ (encode_session_state desk.session.state)).bind _ = _
  rw [session_back opened.assigned opened.named]
  rfl

/-- The process after an event of the run. -/
def noted (desk : Desk ω) (budget : Budget) (topic : String) (payload : Fields) : Desk ω :=
  desk.publish topic (merge (merge desk.session.call_context.event_fields [("step",.int budget.steps)]) payload)

/-- The process after a call of the kernel. -/
def rang (desk : Desk ω) (node : NodeName) (name : String) (args : Fields) (world : ω) : Desk ω :=
  { desk with world, log := desk.log ++ [.called node name args] }

/-- What the kernel answers to an open session. -/
def Answers (desk : Desk ω) (name : String) (args result : Fields) (world : ω) : Prop :=
  desk.services.kernel name args desk.session.call_context desk.world = (.ok result,world)

theorem execute_ok_iff (active : desk.session.is_active = true) {node : NodeName} {name : String} {args : Fields}
    {out : Fields × Desk ω} :
    desk.execute_tool node name args = .ok out ↔
      ∃ result world, Answers desk name args result world ∧ out = (result,rang desk node name args world) := by
  unfold Desk.execute_tool Answers
  rw [if_pos active]
  rcases ran : desk.services.kernel name args desk.session.call_context desk.world with ⟨exc | result,world⟩
  · simp
  · constructor
    · rintro ⟨⟩
      exact ⟨result,world,rfl,rfl⟩
    · rintro ⟨_,_,same,rfl⟩
      cases same
      rfl

section
variable (counted : state.budget = budget_to_dict budget)
include counted

theorem budgeted : budget_from_state state = .ok budget := by
  rw [budget_from_state,counted]
  exact budget_back budget

theorem emitted (desk : Desk ω) (topic : String) (payload : Fields) :
    desk._emit topic state payload = .ok (noted desk budget topic payload) := by
  unfold Desk._emit
  rw [budgeted counted]
  rfl

/-! ### The nodes on an open session -/

theorem guard_eq (opened : Open state desk task) :
    guard_node state desk = .ok (if budget.max_steps ≤ budget.steps then
      ({ state with
        route := "fail", error := some "step budget exceeded", session_state := encode_session_state desk.session.state },
        noted desk budget "graph.budget_blocked" [("reason",.str "step budget exceeded")])
    else ({ state with route := "agent", session_state := encode_session_state desk.session.state },desk)) := by
  unfold guard_node
  rw [opened.restored]
  show (budget_from_state state).bind _ = _
  rw [budgeted counted]
  show (if _ then _ else _) = _
  split
  · rw [emitted counted]
    rfl
  · rfl

theorem misread_eq (messages : List Message) (message stage : String) :
    misread state desk messages message stage = .ok
      ((if budget.record_parse_error.parse_exceeded then
        { state with
          messages, budget := budget_to_dict budget.record_parse_error, route := "fail"
          error := some "too many parse errors", session_state := encode_session_state desk.session.state }
      else
        { state with
          messages := messages ++ [⟨"user",build_retry_message stage⟩]
          budget := budget_to_dict budget.record_parse_error, route := "guard"
          session_state := encode_session_state desk.session.state }),
        noted desk budget "graph.parse_error" [("error",.str message),("stage",.str stage)]) := by
  unfold misread
  rw [budgeted counted]
  show (desk._emit _ state _).bind _ = _
  rw [emitted counted]
  show (if _ then _ else _) = _
  split <;> rfl

/-- What the agent says to an unknown action. -/
def unknownAction : Message := ⟨"user","Unknown 'action'. Use 'tool' or 'final'."⟩

theorem decided_eq (messages : List Message) (action : Fields) :
    decided state desk messages action = .ok
      ({ state with
        messages := messages ++ (if routeOf (action.textOf "action") = none then [unknownAction] else [])
        budget := budget_to_dict budget.record_step, last_action := some action
        session_state := encode_session_state desk.session.state
        route := (routeOf (action.textOf "action")).getD "guard" },
        noted desk budget "graph.step" [("action",.str (action.textOf "action")),("next_step",.int (budget.steps + 1))]) := by
  unfold decided
  rw [budgeted counted]
  show (desk._emit _ state _).bind _ = _
  rw [emitted counted]
  rcases found : routeOf (action.textOf "action") with _ | route
  · simp only [Except.bind]
    rfl
  · simp only [Except.bind,reduceCtorEq,if_false,List.append_nil,Option.getD_some]
    rfl

/-- The state after an action was parsed. -/
def afterAction (state : AgentState) (desk : Desk ω) (budget : Budget) (content : String) (action : Fields) : AgentState :=
  { state with
    messages := state.messages ++ [⟨"assistant",content⟩] ++
      (if routeOf (action.textOf "action") = none then [unknownAction] else [])
    budget := budget_to_dict budget.record_step, last_action := some action
    session_state := encode_session_state desk.session.state
    route := (routeOf (action.textOf "action")).getD "guard" }

/-- The state after one output too many that is no action. -/
def givenUp (state : AgentState) (desk : Desk ω) (budget : Budget) (content : String) : AgentState :=
  { state with
    messages := state.messages ++ [⟨"assistant",content⟩], budget := budget_to_dict budget.record_parse_error
    route := "fail", error := some "too many parse errors", session_state := encode_session_state desk.session.state }

/-- The state after another output that is no action. -/
def retrying (state : AgentState) (desk : Desk ω) (budget : Budget) (content stage : String) : AgentState :=
  { state with
    messages := state.messages ++ [⟨"assistant",content⟩] ++ [⟨"user",build_retry_message stage⟩]
    budget := budget_to_dict budget.record_parse_error, route := "guard"
    session_state := encode_session_state desk.session.state }

/-- What the agent makes of an output of the model. -/
inductive Taken (state : AgentState) (desk asked : Desk ω) (budget : Budget) (content : String) :
    AgentState × Desk ω → Prop
  | action (action : Fields) (parsed : parse_action desk.services.interp content = .ok action) :
      Taken state desk asked budget content (afterAction state desk budget content action,
        noted asked budget "graph.step" [("action",.str (action.textOf "action")),("next_step",.int (budget.steps + 1))])
  | gaveUp (message stage candidate : String)
      (parsed : parse_action desk.services.interp content = .error (.JsonGateError message stage candidate))
      (past : budget.record_parse_error.parse_exceeded = true) :
      Taken state desk asked budget content (givenUp state desk budget content,
        noted asked budget "graph.parse_error" [("error",.str message),("stage",.str stage)])
  | retried (message stage candidate : String)
      (parsed : parse_action desk.services.interp content = .error (.JsonGateError message stage candidate))
      (left : budget.record_parse_error.parse_exceeded = false) :
      Taken state desk asked budget content (retrying state desk budget content stage,
        noted asked budget "graph.parse_error" [("error",.str message),("stage",.str stage)])

/-- The outputs that the agent can take: the reader raises nothing but its own error. -/
theorem taken_ok_iff (desk asked : Desk ω) (services : asked.services = desk.services) (session : asked.session = desk.session)
    {content : String} {out : AgentState × Desk ω} :
    understood state asked content = .ok out ↔ Taken state desk asked budget content out := by
  unfold understood
  rw [services]
  constructor
  · intro done
    split at done
    · next action parsed =>
      rw [decided_eq counted,session] at done
      cases done
      exact .action action parsed
    · next message stage candidate parsed =>
      rw [misread_eq counted,session] at done
      cases done
      split
      · next past => exact .gaveUp message stage candidate parsed past
      · next left => exact .retried message stage candidate parsed (Bool.eq_false_iff.mpr left)
    · cases done
  · rintro (⟨action,parsed⟩ | ⟨message,stage,candidate,parsed,past⟩ | ⟨message,stage,candidate,parsed,left⟩)
    · rw [parsed]
      show decided state asked _ action = _
      rw [decided_eq counted,session]
      rfl
    · rw [parsed]
      show misread state asked _ message stage = _
      rw [misread_eq counted,session,if_pos past]
      rfl
    · rw [parsed]
      show misread state asked _ message stage = _
      rw [misread_eq counted,session,if_neg (Bool.eq_false_iff.mp left)]
      rfl

theorem agent_ok_iff (opened : Open state desk task) {out : AgentState × Desk ω} :
    agent_node state desk = .ok out ↔
      ∃ response world content, Answers desk "llm.chat" (chatArgs state) response world ∧
        contentOf response = .ok content ∧
        Taken state desk (rang desk .agent "llm.chat" (chatArgs state) world) budget content out := by
  unfold agent_node
  rw [opened.restored]
  show (desk.execute_tool .agent "llm.chat" (chatArgs state)).bind (fun answered =>
    (contentOf answered.1).bind fun content => understood state answered.2 content) = _ ↔ _
  have takes : ∀ world content, understood state (rang desk .agent "llm.chat" (chatArgs state) world) content = .ok out ↔
      Taken state desk (rang desk .agent "llm.chat" (chatArgs state) world) budget content out :=
    fun world content => taken_ok_iff counted desk (rang desk .agent "llm.chat" (chatArgs state) world) rfl rfl
  rw [bind_ok_iff]
  constructor
  · rintro ⟨answered,ran,rest⟩
    obtain ⟨response,world,answers,rfl⟩ := (execute_ok_iff opened.active).mp ran
    obtain ⟨content,told,rest⟩ := bind_ok_iff.mp rest
    exact ⟨response,world,content,answers,told,(takes world content).mp rest⟩
  · rintro ⟨response,world,content,answers,told,taken⟩
    refine ⟨_,(execute_ok_iff opened.active).mpr ⟨response,world,answers,rfl⟩,?_⟩
    exact bind_ok_iff.mpr ⟨content,told,(takes world content).mpr taken⟩

/-- What the tool node makes of an action with a key. -/
inductive Worked (state : AgentState) (desk : Desk ω) (budget : Budget) (key : String) : AgentState × Desk ω → Prop
  | repeated (past : (budget.record_tool_call key).same_tool_exceeded key = true) :
      Worked state desk budget key
        ({ state with
          budget := budget_to_dict (budget.record_tool_call key), route := "fail"
          error := some "repeated the same tool call too many times"
          session_state := encode_session_state desk.session.state },
          noted desk budget "graph.budget_blocked" [("reason",.str "repeated the same tool call too many times"),
            ("tool",.str ((state.last_action.getD []).textOf "tool"))])
  | executed (left : (budget.record_tool_call key).same_tool_exceeded key = false) (result : Fields) (world : ω)
      (text : String)
      (answers : Answers desk ((state.last_action.getD []).textOf "tool") (argsOf (state.last_action.getD [])) result world)
      (written : dumpResult result = .ok text) :
      Worked state desk budget key
        ({ state with
          messages := state.messages ++ [⟨"user",text⟩], budget := budget_to_dict (budget.record_tool_call key)
          route := "guard", session_state := encode_session_state desk.session.state },
          rang desk .tool ((state.last_action.getD []).textOf "tool") (argsOf (state.last_action.getD [])) world)

theorem tool_ok_iff (opened : Open state desk task) {out : AgentState × Desk ω} :
    tool_node state desk = .ok out ↔
      ∃ key, tool_key ((state.last_action.getD []).textOf "tool") (.dict (argsOf (state.last_action.getD []))) = .ok key ∧
        Worked state desk budget key out := by
  unfold tool_node
  rw [opened.restored]
  show (budget_from_state state).bind _ = _ ↔ _
  rw [budgeted counted]
  show (tool_key _ _).bind _ = _ ↔ _
  rw [bind_ok_iff]
  refine exists_congr fun key => and_congr_right fun keyed => ?_
  by_cases past : (budget.record_tool_call key).same_tool_exceeded key = true
  · rw [if_pos past]
    show (desk._emit _ state _).bind _ = _ ↔ _
    rw [emitted counted]
    constructor
    · rintro ⟨⟩
      exact .repeated past
    · rintro (- | ⟨left⟩)
      · rfl
      · rw [past] at left
        cases left
  · rw [if_neg past]
    show (desk.execute_tool .tool _ _).bind (fun answered => (dumpResult answered.1).bind _) = _ ↔ _
    rw [bind_ok_iff]
    constructor
    · rintro ⟨answered,ran,rest⟩
      obtain ⟨result,world,answers,rfl⟩ := (execute_ok_iff opened.active).mp ran
      obtain ⟨text,written,rest⟩ := bind_ok_iff.mp rest
      cases rest
      exact .executed (Bool.eq_false_iff.mpr past) result world text answers written
    · rintro (wrong | ⟨left,result,world,text,answers,written⟩)
      · exact absurd wrong past
      · exact ⟨_,(execute_ok_iff opened.active).mpr ⟨result,world,answers,rfl⟩,bind_ok_iff.mpr ⟨text,written,rfl⟩⟩

end

/-! ### Delegation -/

/-- A field of an action; an absent or false one is an empty dictionary. -/
def asked (action : Fields) (key : String) : PyVal := (action.get key).orElse (.dict [])

/-- What the delegation node makes of an answer of the service. -/
inductive Consulted : Except PyError DelegationResult × ω → AgentState → Desk ω → AgentState × Desk ω → Prop
  | failed (exc : PyError) (world : ω) (state : AgentState) (desk : Desk ω) (text : String)
      (described : desk.services.interp.describe exc = .ok text) :
      Consulted (.error exc,world) state desk
        (undelegated state { desk with world } ("delegation failed at the application boundary: " ++ text))
  | observed (result : DelegationResult) (world : ω) (state : AgentState) (desk : Desk ω) (text : String)
      (written : dumpResult result.as_dict = .ok text) :
      Consulted (.ok result,world) state desk ({ state with
        messages := state.messages ++ [⟨"user","DELEGATION_RESULT: " ++ text⟩], active_delegation_id := none
        last_delegation_result := some result.as_dict, route := "guard"
        session_state := encode_session_state desk.session.state },{ desk with world })

theorem consulted_ok_iff {service : DelegationService ω} {target : String} {spec : DelegationSpec} {policy : Fields}
    {out : AgentState × Desk ω} :
    consulted service state desk target spec policy = .ok out ↔
      Consulted (attempted service desk target spec policy) state desk out := by
  unfold consulted
  rcases attempted service desk target spec policy with ⟨exc | result,world⟩
  · show (desk.services.interp.describe exc).bind _ = _ ↔ _
    rw [bind_ok_iff]
    constructor
    · rintro ⟨text,described,done⟩
      cases done
      exact .failed exc world state desk text described
    · rintro (⟨_,_,_,_,text,described⟩ | -)
      exact ⟨text,described,rfl⟩
  · show (dumpResult result.as_dict).bind _ = _ ↔ _
    rw [bind_ok_iff]
    constructor
    · rintro ⟨text,written,done⟩
      cases done
      exact .observed result world state desk text written
    · rintro (- | ⟨_,_,_,_,text,written⟩)
      exact ⟨text,written,rfl⟩

/-- What the delegation node makes of an action. -/
inductive Handed (state : AgentState) (desk : Desk ω) : AgentState × Desk ω → Prop
  | unconfigured (absent : desk.services.delegation_service = none) :
      Handed state desk (undelegated state desk "delegation is not configured")
  | malformed (service : DelegationService ω) (there : desk.services.delegation_service = some service)
      (bad : (state.last_action.getD []).textOf "target" = "" ∨
        ¬ ∃ spec policy, asked (state.last_action.getD []) "spec" = .dict spec ∧
          asked (state.last_action.getD []) "policy" = .dict policy) :
      Handed state desk
        (undelegated state desk "delegate action requires target, object spec, and optional object policy")
  | aimless (service : DelegationService ω) (spec_raw policy_raw : Fields) (spec : DelegationSpec)
      (there : desk.services.delegation_service = some service)
      (someone : (state.last_action.getD []).textOf "target" ≠ "")
      (given : asked (state.last_action.getD []) "spec" = .dict spec_raw)
      (limits : asked (state.last_action.getD []) "policy" = .dict policy_raw)
      (converted : DelegationSpec.from_dict spec_raw = .ok spec) (empty : spec.objective = "") :
      Handed state desk (undelegated state desk "delegation objective must not be empty")
  | sent (service : DelegationService ω) (spec_raw policy_raw : Fields) (spec : DelegationSpec)
      (there : desk.services.delegation_service = some service)
      (someone : (state.last_action.getD []).textOf "target" ≠ "")
      (given : asked (state.last_action.getD []) "spec" = .dict spec_raw)
      (limits : asked (state.last_action.getD []) "policy" = .dict policy_raw)
      (converted : DelegationSpec.from_dict spec_raw = .ok spec) (some : spec.objective ≠ "")
      {out : AgentState × Desk ω}
      (answered : Consulted (attempted service desk ((state.last_action.getD []).textOf "target") spec policy_raw)
        state desk out) : Handed state desk out

theorem delegation_ok_iff (opened : Open state desk task) {out : AgentState × Desk ω} :
    delegation_node state desk = .ok out ↔ Handed state desk out := by
  unfold delegation_node
  rw [opened.restored]
  simp only [bind,Except.bind]
  rcases there : desk.services.delegation_service with _ | service
  · constructor
    · rintro ⟨⟩
      exact .unconfigured there
    · rintro (- | ⟨_,wrong⟩ | ⟨_,_,_,_,wrong⟩ | ⟨_,_,_,_,wrong⟩)
      · rfl
      all_goals exact absurd (there.symm.trans wrong) (by simp)
  · show delegated service state desk = _ ↔ _
    unfold delegated
    by_cases someone : (state.last_action.getD []).textOf "target" = ""
    · rw [if_pos someone]
      constructor
      · rintro ⟨⟩
        exact .malformed service there (.inl someone)
      · rintro (wrong | ⟨_,_⟩ | ⟨_,_,_,_,_,wrong⟩ | ⟨_,_,_,_,_,wrong⟩)
        · exact absurd (there.symm.trans wrong) (by simp)
        · rfl
        all_goals exact absurd someone wrong
    · rw [if_neg someone]
      split
      · next spec_raw policy_raw given limits =>
        show (DelegationSpec.from_dict spec_raw).bind _ = _ ↔ _
        rw [bind_ok_iff]
        constructor
        · rintro ⟨spec,converted,done⟩
          by_cases empty : spec.objective = ""
          · rw [if_pos empty] at done
            cases done
            exact .aimless service spec_raw policy_raw spec there someone given limits converted empty
          · rw [if_neg empty] at done
            exact .sent service spec_raw policy_raw spec there someone given limits converted empty
              (consulted_ok_iff.mp done)
        · rintro (wrong | ⟨_,_,wrong | wrong⟩ | ⟨_,_,_,spec,_,_,given',_,converted,empty⟩ |
            ⟨_,_,_,spec,there',_,given',limits',converted,some,answered⟩)
          · exact absurd (there.symm.trans wrong) (by simp)
          · exact absurd wrong someone
          · exact absurd ⟨spec_raw,policy_raw,given,limits⟩ wrong
          · cases given.symm.trans given'
            exact ⟨spec,converted,if_pos empty⟩
          · cases given.symm.trans given'
            cases limits.symm.trans limits'
            cases there.symm.trans there'
            exact ⟨spec,converted,by rw [if_neg some]; exact consulted_ok_iff.mpr answered⟩
      · next other =>
        constructor
        · rintro ⟨⟩
          exact .malformed service there (.inr fun ⟨spec,policy,given,limits⟩ => other spec policy given limits)
        · rintro (wrong | ⟨_,_⟩ | ⟨_,_,_,_,_,_,given,limits⟩ | ⟨_,_,_,_,_,_,given,limits⟩)
          · exact absurd (there.symm.trans wrong) (by simp)
          · rfl
          all_goals exact absurd limits (other _ _ given)

/-! ### The last nodes -/

/-- The process after the task was closed and the run told so. -/
def concluded (desk : Desk ω) (budget : Budget) (result : PyVal) (status : String) (payload : Fields) : Desk ω :=
  noted ({ desk with session := desk.session.closing result status }.publish
    (if status = "completed" then "task.completed" else "task.failed")
    (merge desk.session.call_context.event_fields [("status",.str status)])) budget "graph.completed" payload

/-- The state after the task was closed. -/
def overState (state : AgentState) (desk : Desk ω) (result : PyVal) (status : String) (final : Option String) : AgentState :=
  { state with
    final, outcome := some (desk.session.outcome result status), status, route := "end"
    session_state := encode_session_state (desk.session.closing result status).state }

theorem complete_eq (active : desk.session.is_active = true) (result : PyVal) (status : String) :
    desk.complete_task result status = .ok (desk.session.outcome result status,
      { desk with session := desk.session.closing result status }.publish
        (if status = "completed" then "task.completed" else "task.failed")
        (merge desk.session.call_context.event_fields [("status",.str status)])) := by
  unfold Desk.complete_task
  rw [if_pos active]

section
variable (counted : state.budget = budget_to_dict budget)
include counted

/-- What the last message of an action that failed says. -/
def failure (action : Fields) : String := orText (action.textOf "message") "agent finished with an error"

theorem finish_errored (opened : Open state desk task) (wrong : errored (state.last_action.getD [])) :
    finish_node state desk = .ok
      (overState state desk (.dict [("reason",.str (failure (state.last_action.getD [])))]) "failed"
        (some (failure (state.last_action.getD []))),
        concluded desk budget (.dict [("reason",.str (failure (state.last_action.getD [])))]) "failed"
          [("status",.str "failed"),("reason",.str (failure (state.last_action.getD [])))]) := by
  unfold finish_node
  rw [opened.restored]
  show (if errored (state.last_action.getD []) then _ else _) = _
  rw [if_pos wrong]
  show (desk.complete_task (.dict [("reason",.str (failure (state.last_action.getD [])))]) "failed").bind _ = _
  rw [complete_eq opened.active]
  show (Desk._emit _ _ state _).bind _ = _
  rw [emitted counted]
  rfl

theorem finish_blocked (opened : Open state desk task) (sound : ¬ errored (state.last_action.getD [])) {reason : String}
    (gate : check_finish desk.session.state ((state.last_action.getD []).get "finish_reason") = some reason) :
    finish_node state desk = .ok
      ({ state with
        messages := state.messages ++ [⟨"user",reason⟩], route := "guard"
        session_state := encode_session_state desk.session.state },
        noted desk budget "graph.finish_blocked" [("reason",.str reason)]) := by
  unfold finish_node
  rw [opened.restored]
  simp only [bind,Except.bind,if_neg sound,gate]
  show (desk._emit _ state _).bind _ = _
  rw [emitted counted]
  rfl

theorem finish_completed (opened : Open state desk task) (sound : ¬ errored (state.last_action.getD []))
    (gate : check_finish desk.session.state ((state.last_action.getD []).get "finish_reason") = none) :
    finish_node state desk = .ok
      (overState state desk (.str ((state.last_action.getD []).textOf "message")) "completed"
        (some ((state.last_action.getD []).textOf "message")),
        concluded desk budget (.str ((state.last_action.getD []).textOf "message")) "completed" [("status",.str "completed")]) := by
  unfold finish_node
  rw [opened.restored]
  simp only [bind,Except.bind,if_neg sound,gate]
  show (desk.complete_task (.str ((state.last_action.getD []).textOf "message")) "completed").bind _ = _
  rw [complete_eq opened.active]
  show (Desk._emit _ _ state _).bind _ = _
  rw [emitted counted]
  rfl

/-- How a failed run says so. -/
def failing (state : AgentState) (budget : Budget) : PyVal :=
  .dict (merge [("reason",.str (orText (state.error.getD "") "agent run failed"))]
    [("steps",.int budget.steps),("parse_errors",.int budget.parse_errors)])

theorem fail_eq (opened : Open state desk task) :
    fail_node state desk = .ok
      (overState state desk (failing state budget) "failed" state.final,
        concluded desk budget (failing state budget) "failed"
          [("status",.str "failed"),("reason",.str (orText (state.error.getD "") "agent run failed"))]) := by
  unfold fail_node
  rw [opened.restored]
  show (budget_from_state state).bind _ = _
  rw [budgeted counted]
  show (desk.complete_task (failing state budget) "failed").bind _ = _
  rw [complete_eq opened.active]
  show (Desk._emit _ _ state _).bind _ = _
  rw [emitted counted]
  rfl

end

end
/-! ### Visits are moves -/

section
variable {ω : Type} {p p' : Position ω} {budget : Budget} {task : TaskEnvelope}

/-- The ledger of a position with a budget. -/
def ledger (p : Position ω) (budget : Budget) : Ledger :=
  ⟨p.next,budget,p.state.last_action,p.state.messages,p.desk.log,p.state.status⟩

/-- The run is over: it told so last, and its outcome has the status of the graph. -/
structure Closed (p : Position ω) (task : TaskEnvelope) : Prop where
  closed : p.desk.session._closed = true
  told : ∃ before payload payload', p.desk.log = before ++ [closes p.state.status payload,
    .published "graph.completed" payload'] ∧ payload.get "task_id" = .str task.task_id
  outcome : ∃ result, p.state.outcome =
    some [("task_id",.str task.task_id),("status",.str p.state.status),("result",result)]

/-- A position of a run with its budget. -/
structure Stands (p : Position ω) (budget : Budget) (task : TaskEnvelope) : Prop where
  counted : p.state.budget = budget_to_dict budget
  known : p.state.session_identity.task_id = task.task_id
  owned : p.desk.session.identity.task_id = task.task_id
  opened : p.next ≠ none → Open p.state p.desk task
  closed : p.next = none → Closed p task

theorem closing_call_context (session : KernelSession) (result : PyVal) (status : String) :
    (session.closing result status).call_context = session.call_context := rfl

theorem Open.again {state state' : AgentState} {desk desk' : Desk ω} (opened : Open state desk task)
    (session : desk'.session = desk.session) (stored : state'.session_state = encode_session_state desk.session.state) :
    Open state' desk' task := by
  refine ⟨?_,?_,opened.named,?_⟩
  · rw [stored,session]
  · rw [session]; exact opened.assigned
  · rw [session]; exact opened.unclosed

/-- A move to another node keeps the session. -/
theorem Stands.on (stands : Stands p budget task) (opened : Open p.state p.desk task) {node : NodeName} {state : AgentState}
    {desk : Desk ω} {budget' : Budget} (counted : state.budget = budget_to_dict budget')
    (identity : state.session_identity = p.state.session_identity) (session : desk.session = p.desk.session)
    (stored : state.session_state = encode_session_state p.desk.session.state) :
    Stands ⟨some node,state,desk⟩ budget' task := by
  refine ⟨counted,?_,?_,fun _ => opened.again session stored,nofun⟩
  · rw [identity]; exact stands.known
  · rw [session]; exact stands.owned

/-- The end of a run. -/
theorem Stands.off (stands : Stands p budget task) (result : PyVal) (status : String) (payload : Fields)
    (final : Option String) :
    Stands ⟨none,overState p.state p.desk result status final,concluded p.desk budget result status payload⟩ budget task := by
  have event : Fields.get (merge p.desk.session.call_context.event_fields [("status",.str status)]) "task_id" =
      .str task.task_id := by
    rw [← stands.owned]
    rfl
  refine ⟨stands.counted,stands.known,stands.owned,fun going => absurd rfl going,fun _ => ⟨rfl,?_,result,?_⟩⟩
  · exact ⟨p.desk.log,_,_,List.append_assoc ..,event⟩
  · show some (p.desk.session.outcome result status) = _
    rw [KernelSession.outcome,stands.owned]
    rfl

theorem visit_ok_iff {node : NodeName} :
    visit node p = .ok p' ↔ nodeOf node p.state p.desk = .ok (p'.state,p'.desk) ∧ edgeFrom node p'.state = .ok p'.next := by
  show (nodeOf node p.state p.desk).bind (fun out =>
    (edgeFrom node out.1).bind fun next => Except.ok (Position.mk next out.1 out.2)) = _ ↔ _
  rw [bind_ok_iff]
  constructor
  · rintro ⟨⟨state,desk⟩,ran,done⟩
    obtain ⟨next,edge,same⟩ := bind_ok_iff.mp done
    cases same
    exact ⟨ran,edge⟩
  · rintro ⟨ran,edge⟩
    exact ⟨_,ran,bind_ok_iff.mpr ⟨_,edge,rfl⟩⟩

theorem edge_action (action : Fields) (state : AgentState)
    (route : state.route = (routeOf (action.textOf "action")).getD "guard") :
    edgeFrom .agent state = .ok (some (targetOf action)) := by
  unfold edgeFrom _route targetOf
  rw [route]
  unfold routeOf
  split_ifs <;> rfl

theorem guard_moves (stands : Stands p budget task) (here : p.next = some .guard) (moved : visit .guard p = .ok p') :
    Moves p.desk.services.interp (ledger p budget) (ledger p' budget) ∧ Stands p' budget task ∧
      p'.desk.services = p.desk.services := by
  have opened := stands.opened (by rw [here]; simp)
  obtain ⟨ran,edge⟩ := visit_ok_iff.mp moved
  have done : guard_node p.state p.desk = .ok (p'.state,p'.desk) := ran
  rw [guard_eq stands.counted opened] at done
  obtain ⟨next,state,desk⟩ := p'
  split at done
  · next past =>
    cases done
    cases edge
    exact ⟨.spent _ here past,stands.on opened stands.counted rfl rfl rfl,rfl⟩
  · next within =>
    cases done
    cases edge
    exact ⟨.admitted here (not_le.mp within),stands.on opened stands.counted rfl rfl rfl,rfl⟩

theorem agent_moves (stands : Stands p budget task) (here : p.next = some .agent) (moved : visit .agent p = .ok p') :
    ∃ budget', Moves p.desk.services.interp (ledger p budget) (ledger p' budget') ∧ Stands p' budget' task ∧
      p'.desk.services = p.desk.services := by
  have opened := stands.opened (by rw [here]; simp)
  obtain ⟨ran,edge⟩ := visit_ok_iff.mp moved
  obtain ⟨response,world,content,answers,told,taken⟩ := (agent_ok_iff stands.counted opened).mp ran
  obtain ⟨next,state,desk⟩ := p'
  rcases taken with ⟨action,parsed⟩ | ⟨message,stage,candidate,parsed,past⟩ | ⟨message,stage,candidate,parsed,left⟩
  · obtain rfl : some (targetOf action) = next := Except.ok.inj ((edge_action action _ rfl).symm.trans edge)
    refine ⟨budget.record_step,?_,stands.on opened rfl rfl rfl rfl,rfl⟩
    have asked : Moves p.desk.services.interp (ledger p budget) _ := .acted (chatArgs p.state)
      (merge (merge p.desk.session.call_context.event_fields [("step",.int budget.steps)])
        [("action",.str (action.textOf "action")),("next_step",.int (budget.steps + 1))])
      action content (if routeOf (action.textOf "action") = none then [unknownAction] else []) here parsed (by
        intro message inside
        split at inside
        · rw [List.mem_singleton.mp inside]
          rfl
        · cases inside)
    simpa [ledger,noted,rang,Desk.publish,afterAction,asks] using asked
  · cases edge
    refine ⟨budget.record_parse_error,?_,stands.on opened rfl rfl rfl rfl,rfl⟩
    have asked : Moves p.desk.services.interp (ledger p budget) _ := .gaveUp (chatArgs p.state)
      (merge (merge p.desk.session.call_context.event_fields [("step",.int budget.steps)])
        [("error",.str message),("stage",.str stage)]) content message stage candidate here parsed past
    simpa [ledger,noted,rang,Desk.publish,givenUp,asks] using asked
  · cases edge
    refine ⟨budget.record_parse_error,?_,stands.on opened rfl rfl rfl rfl,rfl⟩
    have asked : Moves p.desk.services.interp (ledger p budget) _ := .retried (chatArgs p.state)
      (merge (merge p.desk.session.call_context.event_fields [("step",.int budget.steps)])
        [("error",.str message),("stage",.str stage)]) content message stage candidate here parsed left
    simpa [ledger,noted,rang,Desk.publish,retrying,asks] using asked

theorem tool_moves (stands : Stands p budget task) (here : p.next = some .tool) (moved : visit .tool p = .ok p') :
    ∃ budget', Moves p.desk.services.interp (ledger p budget) (ledger p' budget') ∧ Stands p' budget' task ∧
      p'.desk.services = p.desk.services := by
  have opened := stands.opened (by rw [here]; simp)
  obtain ⟨ran,edge⟩ := visit_ok_iff.mp moved
  obtain ⟨key,keyed,worked⟩ := (tool_ok_iff stands.counted opened).mp ran
  obtain ⟨next,state,desk⟩ := p'
  rcases worked with ⟨past⟩ | ⟨left,result,world,text,answers,written⟩
  · cases edge
    exact ⟨budget.record_tool_call key,.repeated _ key here keyed past,stands.on opened rfl rfl rfl rfl,rfl⟩
  · cases edge
    exact ⟨budget.record_tool_call key,.executed key text here keyed left,stands.on opened rfl rfl rfl rfl,rfl⟩

theorem delegate_moves (stands : Stands p budget task) (here : p.next = some .delegate)
    (moved : visit .delegate p = .ok p') :
    Moves p.desk.services.interp (ledger p budget) (ledger p' budget) ∧ Stands p' budget task ∧
      p'.desk.services = p.desk.services := by
  have opened := stands.opened (by rw [here]; simp)
  obtain ⟨ran,edge⟩ := visit_ok_iff.mp moved
  have handed := (delegation_ok_iff opened).mp ran
  obtain ⟨next,state,desk⟩ := p'
  rcases handed with - | - | - | ⟨_,_,_,_,_,_,_,_,_,_,answered⟩
  · cases edge
    exact ⟨.undelegated here,stands.on opened stands.counted rfl rfl rfl,rfl⟩
  · cases edge
    exact ⟨.undelegated here,stands.on opened stands.counted rfl rfl rfl,rfl⟩
  · cases edge
    exact ⟨.undelegated here,stands.on opened stands.counted rfl rfl rfl,rfl⟩
  · rcases out : attempted _ p.desk _ _ _ with ⟨exc | result,world⟩
    · rw [out] at answered
      cases answered
      cases edge
      exact ⟨.undelegated here,stands.on opened stands.counted rfl rfl rfl,rfl⟩
    · rw [out] at answered
      cases answered
      cases edge
      exact ⟨.delegated _ here,stands.on opened stands.counted rfl rfl rfl,rfl⟩

theorem finish_moves (stands : Stands p budget task) (here : p.next = some .finish)
    (moved : visit .finish p = .ok p') :
    Moves p.desk.services.interp (ledger p budget) (ledger p' budget) ∧ Stands p' budget task ∧
      p'.desk.services = p.desk.services := by
  have opened := stands.opened (by rw [here]; simp)
  obtain ⟨ran,edge⟩ := visit_ok_iff.mp moved
  have done : finish_node p.state p.desk = .ok (p'.state,p'.desk) := ran
  obtain ⟨next,state,desk⟩ := p'
  by_cases wrong : errored (p.state.last_action.getD [])
  · rw [finish_errored stands.counted opened wrong] at done
    cases done
    cases edge
    refine ⟨?_,stands.off _ _ _ _,rfl⟩
    have ended : Moves p.desk.services.interp (ledger p budget) _ := .finished
      (merge p.desk.session.call_context.event_fields [("status",.str "failed")])
      (merge (merge p.desk.session.call_context.event_fields [("step",.int budget.steps)]) [("status",.str "failed"),
        ("reason",.str (failure (p.state.last_action.getD [])))]) here
    have wrong' : errored ((ledger p budget).action.getD []) := wrong
    rw [if_pos wrong'] at ended
    simpa [ledger,concluded,overState,noted,Desk.publish,closes,closing_call_context] using ended
  · rcases gate : check_finish p.desk.session.state ((p.state.last_action.getD []).get "finish_reason") with _ | reason
    · rw [finish_completed stands.counted opened wrong gate] at done
      cases done
      cases edge
      refine ⟨?_,stands.off _ _ _ _,rfl⟩
      have ended : Moves p.desk.services.interp (ledger p budget) _ := .finished
        (merge p.desk.session.call_context.event_fields [("status",.str "completed")])
        (merge (merge p.desk.session.call_context.event_fields [("step",.int budget.steps)]) [("status",.str "completed")])
        here
      have wrong' : ¬ errored ((ledger p budget).action.getD []) := wrong
      rw [if_neg wrong'] at ended
      simpa [ledger,concluded,overState,noted,Desk.publish,closes,closing_call_context] using ended
    · rw [finish_blocked stands.counted opened wrong gate] at done
      cases done
      cases edge
      exact ⟨.blocked _ reason here wrong,stands.on opened stands.counted rfl rfl rfl,rfl⟩

theorem fail_moves (stands : Stands p budget task) (here : p.next = some .fail) (moved : visit .fail p = .ok p') :
    Moves p.desk.services.interp (ledger p budget) (ledger p' budget) ∧ Stands p' budget task ∧
      p'.desk.services = p.desk.services := by
  have opened := stands.opened (by rw [here]; simp)
  obtain ⟨ran,edge⟩ := visit_ok_iff.mp moved
  have done : fail_node p.state p.desk = .ok (p'.state,p'.desk) := ran
  obtain ⟨next,state,desk⟩ := p'
  rw [fail_eq stands.counted opened] at done
  cases done
  cases edge
  refine ⟨?_,stands.off _ _ _ _,rfl⟩
  have ended : Moves p.desk.services.interp (ledger p budget) _ := .failed
    (merge p.desk.session.call_context.event_fields [("status",.str "failed")])
    (merge (merge p.desk.session.call_context.event_fields [("step",.int budget.steps)]) [("status",.str "failed"),
      ("reason",.str (orText (p.state.error.getD "") "agent run failed"))]) here
  simpa [ledger,concluded,overState,noted,Desk.publish,closes,closing_call_context] using ended

theorem visit_moves {node : NodeName} (stands : Stands p budget task) (here : p.next = some node)
    (moved : visit node p = .ok p') :
    ∃ budget', Moves p.desk.services.interp (ledger p budget) (ledger p' budget') ∧ Stands p' budget' task ∧
      p'.desk.services = p.desk.services := by
  cases node with
  | guard => exact ⟨budget,guard_moves stands here moved⟩
  | agent => exact agent_moves stands here moved
  | tool => exact tool_moves stands here moved
  | delegate => exact ⟨budget,delegate_moves stands here moved⟩
  | finish => exact ⟨budget,finish_moves stands here moved⟩
  | fail => exact ⟨budget,fail_moves stands here moved⟩

/-! ### Runs -/

/-- A new process goes on with the same open session. -/
theorem Stands.resumed (stands : Stands p budget task) {node : NodeName} (here : p.next = some node) (services : Services ω)
    (world : ω) {session : KernelSession} (restored : _restore_persisted_session p.state services world = .ok session) :
    Stands { p with desk := { services, session, world, log := p.desk.log } } budget task := by
  have opened := stands.opened (by rw [here]; simp)
  have some : encode_session_state p.desk.session.state ≠ [] := encoded_ne_nil opened.assigned
  unfold _restore_persisted_session at restored
  rw [opened.stored,if_neg some] at restored
  obtain ⟨state,back,made⟩ := bind_ok_iff.mp restored
  rw [session_back opened.assigned opened.named] at back
  cases back
  by_cases within : p.state.allowed_capabilities.toFinset ⊆ services.available
  · have same := Except.ok.inj ((if_pos within).symm.trans made)
    rw [← same]
    refine ⟨stands.counted,stands.known,stands.known,fun _ => ⟨opened.stored,opened.assigned,opened.named,?_⟩,?_⟩
    · show (!holdsTask p.desk.session.state) = false
      unfold holdsTask
      rw [opened.assigned]
      rfl
    · intro done
      rw [show p.next = none from done] at here
      cases here
  · cases (if_neg within).symm.trans made

/-- What the ledger has of a state. -/
structure Pictures (l : Ledger) (state : AgentState) : Prop where
  budget : state.budget = budget_to_dict l.budget
  action : l.action = state.last_action
  messages : l.messages = state.messages
  status : l.status = state.status

variable {start : Position ω} {messages : List Message} {model : Option String} {resumable : Prop}
  {trail : List (NodeName × AgentState)}

theorem begins_stands (begins : Begins start task messages budget model) : Stands start budget task := by
  have made := begins.state
  unfold new_agent_state at made
  rw [begins.assigned] at made
  have state : start.state.budget = budget_to_dict budget ∧ start.state.session_identity = start.desk.session.identity ∧
      start.state.session_state = encode_session_state start.desk.session.state := by
    rw [← Except.ok.inj made]
    exact ⟨rfl,rfl,rfl⟩
  refine ⟨state.1,?_,begins.owned,fun _ => ⟨state.2.2,begins.assigned,begins.named,begins.unclosed⟩,?_⟩
  · rw [state.2.1]
    exact begins.owned
  · intro done
    rw [begins.next] at done
    cases done

/-- Every run has its ledgers. -/
theorem reaches_run (begins : Begins start task messages budget model) {p : Position ω}
    (reached : Reaches resumable start trail p) :
    ∃ budget' ledgers, Run start.desk.services.interp (ledger start budget) ledgers (ledger p budget') ∧
      Stands p budget' task ∧ p.desk.services.interp = start.desk.services.interp ∧
      List.Forall₂ (fun entry noted => entry.1 = noted.1 ∧ Pictures noted.2 entry.2) trail ledgers := by
  induction reached with
  | start => exact ⟨budget,[],.start,begins_stands begins,rfl,.nil⟩
  | visit reached next moved ih =>
    obtain ⟨budget',ledgers,run,stands,reader,pictures⟩ := ih
    obtain ⟨budget'',moves,stands',services⟩ := visit_moves stands next moved
    rw [reader] at moves
    refine ⟨budget'',_,run.move next moves,stands',by rw [services,reader],?_⟩
    exact List.rel_append pictures (.cons ⟨rfl,stands'.counted,rfl,rfl,rfl⟩ .nil)
  | resume services world allowed reached next running reader restored ih =>
    obtain ⟨budget',ledgers,run,stands,reader',pictures⟩ := ih
    exact ⟨budget',ledgers,run,stands.resumed next services world restored,reader.trans reader',pictures⟩

/-! ### Driving a run -/

/-- Run up to this many nodes. -/
def drive : Nat → Position ω → Except PyError (List (NodeName × AgentState) × Position ω)
  | 0,p => .ok ([],p)
  | n+1,p =>
    match p.next with
    | none => .ok ([],p)
    | some node => do
      let p' ← visit node p
      let (trail,last) ← drive n p'
      .ok ((node,p'.state) :: trail,last)

theorem drive_reaches {n : Nat} {p : Position ω} {more : List (NodeName × AgentState)} {last : Position ω}
    (reached : Reaches resumable start trail p) (driven : drive n p = .ok (more,last)) :
    Reaches resumable start (trail ++ more) last := by
  induction n generalizing p trail more with
  | zero =>
    cases driven
    rw [List.append_nil]
    exact reached
  | succ n ih =>
    rw [drive] at driven
    rcases next : p.next with _ | node
    · rw [next] at driven
      cases driven
      rw [List.append_nil]
      exact reached
    · rw [next] at driven
      obtain ⟨p',moved,rest⟩ := bind_ok_iff.mp driven
      obtain ⟨⟨further,final⟩,driven',done⟩ := bind_ok_iff.mp rest
      cases done
      have onward := ih (reached.visit next moved) driven'
      rw [List.append_assoc] at onward
      exact onward

/-- No node raises. -/
def Unraised (start : Position ω) : Prop :=
  ∀ trail p node, Reaches False start trail p → p.next = some node → ∃ p', visit node p = .ok p'

/-- A run of a bounded length in which no node raises comes to its end. -/
theorem reaches_end {n : Nat} (bounded : ∀ trail p, Reaches False start trail p → trail.length ≤ n)
    (smooth : Unraised start) : ∃ trail p, Reaches False start trail p ∧ p.next = none := by
  by_contra going
  have longer : ∀ k, ∃ trail p, Reaches False start trail p ∧ trail.length = k := by
    intro k
    induction k with
    | zero => exact ⟨[],start,.start,rfl⟩
    | succ k ih =>
      obtain ⟨trail,p,reached,length⟩ := ih
      rcases next : p.next with _ | node
      · exact (going ⟨trail,p,reached,next⟩).elim
      · obtain ⟨p',moved⟩ := smooth trail p node reached next
        exact ⟨_,p',reached.visit next moved,by rw [List.length_append,length]; rfl⟩
  obtain ⟨trail,p,reached,length⟩ := longer (n + 1)
  have := bounded trail p reached
  omega

end
end HexAgent.AgentRuns
