import HexAgent.Bookkeeping
import HexAgent.Lifecycle

/-!
Whether a run of an agent raises. A node reads an action that may hold anything under any name, and what
the kernel and the delegation service return; some of it is converted outside of any guard. A visit
returns exactly when that can be converted, and then its route has an edge; so a run comes to its end
with a status exactly when every position on its way is such.
-/
namespace HexAgent.Completion
open HexAgent.Values HexAgent.Json HexAgent.JsonGate HexAgent.Schemas HexAgent.Budgets HexAgent.EventLog
open HexAgent.Conversions (bind_ok_iff DictLike dictLike_iff)
open HexAgent.Bookkeeping (Chokes Foreign Sequence parse_object_raises_iff)
open HexAgent.Kernel (CapabilityResult)
open HexAgent.GraphState HexAgent.AgentGraph HexAgent.Ledgers HexAgent.AgentRuns HexAgent.RunBounds

/-! ### What can be written -/

/-- A result is written unless it holds an integer that is too long. -/
theorem dumpResult_iff {result : Fields} : (∃ text, dumpResult result = .ok text) ↔ shortFields result = true := by
  rw [dumpResult,writeJson_iff,shortInts]
  exact ⟨And.right,fun short => ⟨fun o _ => ⟨_,rfl⟩,short⟩⟩

/-! ### What a node takes in -/

section
variable {ω : Type}

/-- The kernel returns an envelope, whatever is called. -/
def Enveloped (services : Services ω) : Prop :=
  ∀ name args context world, ∃ (envelope : CapabilityResult) (world' : ω),
    services.kernel name args context world = (.ok envelope.as_dict,world')

/-- What the model says has a text, and no reading of it raises an exception of its own. -/
def Readable (p : Position ω) : Prop :=
  ∀ response world, Answers p.desk "llm.chat" (chatArgs p.state) response world →
    ∃ content, contentOf response = .ok content ∧ ¬ Chokes p.desk.services.interp content

/-- The result of a call that is made can be written. -/
def Reportable (p : Position ω) : Prop :=
  ∀ budget key result world, budget_from_state p.state = .ok budget →
    tool_key ((p.state.last_action.getD []).textOf "tool") (.dict (argsOf (p.state.last_action.getD []))) = .ok key →
    (budget.record_tool_call key).same_tool_exceeded key = false →
    Answers p.desk ((p.state.last_action.getD []).textOf "tool") (argsOf (p.state.last_action.getD [])) result world →
    shortFields result = true

/-- The fields of a specification can be converted. -/
structure Specifies (spec : Fields) : Prop where
  input_context : DictLike (spec.get "input_context")
  expected_output_schema : DictLike (spec.get "expected_output_schema")
  constraints : Sequence (spec.get "constraints")

/-- A result can be written, an exception has a text. -/
def Tellable (interp : Interpreter) : Except PyError DelegationResult → Prop
  | .ok result => shortFields result.as_dict = true
  | .error exc => HasText interp.describe exc

/-- Where the action has a target, a specification and a policy, the specification can be converted, and of the service
    the result can be written or the exception has a text; so has that of a policy that cannot be converted. -/
def Delegable (p : Position ω) : Prop :=
  ∀ service spec policy, p.desk.services.delegation_service = some service →
    (p.state.last_action.getD []).textOf "target" ≠ "" →
    asked (p.state.last_action.getD []) "spec" = .dict spec → asked (p.state.last_action.getD []) "policy" = .dict policy →
    Specifies spec ∧ ∀ order, DelegationSpec.from_dict spec = .ok order → order.objective ≠ "" →
      (∀ exc, DelegationPolicy.from_dict policy = .error exc → HasText p.desk.services.interp.describe exc) ∧
      ∀ limits answer world, DelegationPolicy.from_dict policy = .ok limits →
        service p.desk.session ((p.state.last_action.getD []).textOf "target") order limits p.desk.world =
          (answer,world) →
        Tellable p.desk.services.interp answer

/-- What the node takes in at a position can be read, converted and written. -/
def Digestible (p : Position ω) : NodeName → Prop
  | .agent => Readable p
  | .tool => Reportable p
  | .delegate => Delegable p
  | .guard | .finish | .fail => True

/-! ### The agent -/

theorem action_raises_iff {interp : Interpreter} {text : String} :
    (∃ error, parse_action interp text = .error error ∧ Foreign error) ↔ Chokes interp text := by
  rw [← parse_object_raises_iff]
  unfold parse_action
  rcases parse_json_object interp text with error | obj
  · simp [bind,Except.bind]
  · constructor
    · rintro ⟨error,raised,foreign⟩
      dsimp only [bind,Except.bind] at raised
      split at raised
      · cases raised
      · cases raised
        exact (foreign _ _ _ rfl).elim
    · rintro ⟨error,raised,-⟩
      cases raised

/-- The agent takes every text that no reading of it raises on. -/
theorem taken_iff {state : AgentState} {desk rung : Desk ω} {budget : Budget} {content : String} :
    (∃ out, Taken state desk rung budget content out) ↔ ¬ Chokes desk.services.interp content := by
  rw [← action_raises_iff]
  constructor
  · rintro ⟨out,taken⟩ ⟨error,raised,foreign⟩
    rcases taken with ⟨action,parsed⟩ | ⟨message,stage,candidate,parsed,-⟩ | ⟨message,stage,candidate,parsed,-⟩
    · cases parsed.symm.trans raised
    · cases parsed.symm.trans raised
      exact foreign _ _ _ rfl
    · cases parsed.symm.trans raised
      exact foreign _ _ _ rfl
  · intro smooth
    rcases parsed : parse_action desk.services.interp content with error | action
    · by_cases gate : ∃ message stage candidate, error = .JsonGateError message stage candidate
      · obtain ⟨message,stage,candidate,rfl⟩ := gate
        by_cases past : budget.record_parse_error.parse_exceeded = true
        · exact ⟨_,.gaveUp message stage candidate parsed past⟩
        · exact ⟨_,.retried message stage candidate parsed (Bool.eq_false_iff.mpr past)⟩
      · refine (smooth ⟨error,parsed,fun message stage candidate same => gate ?_⟩).elim
        exact ⟨message,stage,candidate,same⟩
    · exact ⟨_,.action action parsed⟩

/-! ### Delegation -/

theorem sequence_iff (v : PyVal) : Sequence v ↔ ∃ items, (v.orElse (.tuple [])).iter = .ok items := by
  unfold Sequence PyVal.orElse
  rcases truth : v.truthy with _ | _
  · rw [if_neg Bool.false_ne_true]
    exact ⟨fun _ => ⟨[],rfl⟩,fun _ wrong => absurd wrong Bool.false_ne_true⟩
  · rw [if_pos rfl]
    rcases v.iter with error | items
    · simp [Except.isOk,Except.toBool]
    · simp [Except.isOk,Except.toBool]

theorem specifies_iff {spec : Fields} : (∃ order, DelegationSpec.from_dict spec = .ok order) ↔ Specifies spec := by
  unfold DelegationSpec.from_dict
  constructor
  · rintro ⟨order,done⟩
    obtain ⟨context,first,rest⟩ := bind_ok_iff.mp done
    obtain ⟨schema,second,rest⟩ := bind_ok_iff.mp rest
    obtain ⟨constraints,third,-⟩ := bind_ok_iff.mp rest
    exact ⟨(dictLike_iff _).mpr ⟨context,first⟩,(dictLike_iff _).mpr ⟨schema,second⟩,(sequence_iff _).mpr ⟨constraints,third⟩⟩
  · rintro ⟨first,second,third⟩
    obtain ⟨context,first⟩ := (dictLike_iff _).mp first
    obtain ⟨schema,second⟩ := (dictLike_iff _).mp second
    obtain ⟨constraints,third⟩ := (sequence_iff _).mp third
    refine ⟨_,bind_ok_iff.mpr ⟨context,first,bind_ok_iff.mpr ⟨schema,second,bind_ok_iff.mpr ⟨constraints,third,rfl⟩⟩⟩⟩

theorem consulted_iff {answer : Except PyError DelegationResult} {world : ω} {state : AgentState} {desk : Desk ω} :
    (∃ out, Consulted (answer,world) state desk out) ↔ Tellable desk.services.interp answer := by
  rcases answer with exc | result
  · constructor
    · rintro ⟨out,consulted⟩
      cases consulted with
      | failed _ _ _ _ text described => exact ⟨text,described⟩
    · rintro ⟨text,described⟩
      exact ⟨_,.failed exc world state desk text described⟩
  · rw [Tellable,← dumpResult_iff]
    constructor
    · rintro ⟨out,consulted⟩
      cases consulted with
      | observed _ _ _ _ text written => exact ⟨text,written⟩
    · rintro ⟨text,written⟩
      exact ⟨_,.observed result world state desk text written⟩

/-- What comes of the policy and of the service with it can be told. -/
theorem attempted_tellable_iff {interp : Interpreter} {service : DelegationService ω} {desk : Desk ω} {target : String}
    {order : DelegationSpec} {policy : Fields} :
    Tellable interp (attempted service desk target order policy).1 ↔
      (∀ exc, DelegationPolicy.from_dict policy = .error exc → HasText interp.describe exc) ∧
      ∀ limits answer world, DelegationPolicy.from_dict policy = .ok limits →
        service desk.session target order limits desk.world = (answer,world) → Tellable interp answer := by
  unfold attempted
  rcases DelegationPolicy.from_dict policy with error | limits
  · simp [Tellable]
  · simp only [reduceCtorEq,false_implies,implies_true,true_and]
    constructor
    · rintro told limits' answer world ⟨⟩ returned
      rwa [returned] at told
    · exact fun told => told limits _ _ rfl rfl

theorem handed_iff {p : Position ω} : (∃ out, Handed p.state p.desk out) ↔ Delegable p := by
  constructor
  · rintro ⟨out,handed⟩ service spec policy there someone given limited
    rcases handed with absent | ⟨_,_,bad | bad⟩ | ⟨_,_,_,order,_,_,given',_,converted,empty⟩ |
      ⟨_,_,_,order,there',_,given',limited',converted,some,answered⟩
    · cases there.symm.trans absent
    · exact absurd bad someone
    · exact absurd ⟨spec,policy,given,limited⟩ bad
    · cases given.symm.trans given'
      refine ⟨specifies_iff.mp ⟨order,converted⟩,fun order' converted' some => ?_⟩
      cases converted.symm.trans converted'
      exact absurd empty some
    · cases given.symm.trans given'
      cases limited.symm.trans limited'
      cases there.symm.trans there'
      refine ⟨specifies_iff.mp ⟨order,converted⟩,fun order' converted' _ => ?_⟩
      cases converted.symm.trans converted'
      exact attempted_tellable_iff.mp (consulted_iff.mp ⟨_,answered⟩)
  · intro delegable
    rcases there : p.desk.services.delegation_service with _ | service
    · exact ⟨_,.unconfigured there⟩
    · by_cases someone : (p.state.last_action.getD []).textOf "target" = ""
      · exact ⟨_,.malformed service there (.inl someone)⟩
      · by_cases given : ∃ spec policy, asked (p.state.last_action.getD []) "spec" = .dict spec ∧
            asked (p.state.last_action.getD []) "policy" = .dict policy
        · obtain ⟨spec,policy,given,limited⟩ := given
          obtain ⟨specifies,told⟩ := delegable service spec policy there someone given limited
          obtain ⟨order,converted⟩ := specifies_iff.mpr specifies
          by_cases empty : order.objective = ""
          · exact ⟨_,.aimless service spec policy order there someone given limited converted empty⟩
          · obtain ⟨out,answered⟩ : ∃ out, Consulted (attempted service p.desk
                ((p.state.last_action.getD []).textOf "target") order policy) p.state p.desk out := by
              exact consulted_iff.mpr (attempted_tellable_iff.mpr (told order converted empty))
            exact ⟨out,.sent service spec policy order there someone given limited converted empty answered⟩
        · exact ⟨_,.malformed service there (.inr given)⟩

/-! ### Visits -/

variable {p p' : Position ω} {budget : Budget} {task : TaskEnvelope} {node : NodeName}

/-- A node that returns is left by an edge, if every update of it has a route. -/
theorem visit_returns (routed : ∀ state desk, nodeOf node p.state p.desk = .ok (state,desk) →
    ∃ next, edgeFrom node state = .ok next) :
    (∃ p', visit node p = .ok p') ↔ ∃ out, nodeOf node p.state p.desk = .ok out := by
  constructor
  · rintro ⟨p',moved⟩
    exact ⟨_,(visit_ok_iff.mp moved).1⟩
  · rintro ⟨⟨state,desk⟩,ran⟩
    obtain ⟨next,edge⟩ := routed state desk ran
    exact ⟨⟨next,state,desk⟩,visit_ok_iff.mpr ⟨ran,edge⟩⟩

theorem guard_returns (stands : Stands p budget task) (here : p.next = some .guard) : ∃ p', visit .guard p = .ok p' := by
  have opened := stands.opened (by rw [here]; simp)
  have ran : nodeOf .guard p.state p.desk = _ := guard_eq stands.counted opened
  refine (visit_returns fun state desk done => ?_).mpr ⟨_,ran⟩
  rw [ran] at done
  split at done <;> cases done <;> exact ⟨_,rfl⟩

theorem agent_returns_iff (stands : Stands p budget task) (enveloped : Enveloped p.desk.services)
    (here : p.next = some .agent) : (∃ p', visit .agent p = .ok p') ↔ Readable p := by
  have opened := stands.opened (by rw [here]; simp)
  have ran : ∀ out, nodeOf .agent p.state p.desk = .ok out ↔ _ := fun out => agent_ok_iff stands.counted opened
  rw [visit_returns]
  · constructor
    · rintro ⟨out,done⟩ response world answers
      obtain ⟨response',world',content,answers',told,taken⟩ := (ran out).mp done
      cases answers.symm.trans answers'
      exact ⟨content,told,taken_iff.mp ⟨out,taken⟩⟩
    · intro readable
      obtain ⟨envelope,world,answers⟩ := enveloped "llm.chat" (chatArgs p.state) p.desk.session.call_context p.desk.world
      obtain ⟨content,told,smooth⟩ := readable _ world answers
      obtain ⟨out,taken⟩ := taken_iff.mpr smooth
      exact ⟨out,(ran out).mpr ⟨_,world,content,answers,told,taken⟩⟩
  · intro state desk done
    obtain ⟨response,world,content,answers,told,taken⟩ := (ran _).mp done
    rcases taken with ⟨action,parsed⟩ | - | -
    · exact ⟨_,edge_action action _ rfl⟩
    · exact ⟨_,rfl⟩
    · exact ⟨_,rfl⟩

theorem tool_returns_iff (stands : Stands p budget task) (neat : Neat (ledger p budget))
    (enveloped : Enveloped p.desk.services) (here : p.next = some .tool) :
    (∃ p', visit .tool p = .ok p') ↔ Reportable p := by
  have opened := stands.opened (by rw [here]; simp)
  have ran : ∀ out, nodeOf .tool p.state p.desk = .ok out ↔ _ := fun out => tool_ok_iff stands.counted opened
  rw [visit_returns]
  · constructor
    · rintro ⟨out,done⟩ kept key result world spent keyed left answers
      obtain ⟨key',keyed',worked⟩ := (ran out).mp done
      cases (budgeted stands.counted).symm.trans spent
      cases keyed.symm.trans keyed'
      rcases worked with ⟨past⟩ | ⟨-,result',world',text,answers',written⟩
      · exact absurd (past.symm.trans left) (by simp)
      · cases answers.symm.trans answers'
        exact dumpResult_iff.mp ⟨text,written⟩
    · intro reportable
      have tidy : Rendering.Tidy (.dict (argsOf (p.state.last_action.getD []))) := by
        rcases there : p.state.last_action with _ | action
        · exact ⟨List.nodup_nil,trivial⟩
        · exact args_tidy (neat.action action there)
      let call : ToolKeys.Call := ⟨(p.state.last_action.getD []).textOf "tool",argsOf (p.state.last_action.getD [])⟩
      obtain ⟨key,keyed⟩ : ∃ key, call.key = .ok key := ⟨_,tidy_key tidy⟩
      by_cases past : (budget.record_tool_call key).same_tool_exceeded key = true
      · exact ⟨_,(ran _).mpr ⟨key,keyed,.repeated past⟩⟩
      · have left := Bool.eq_false_iff.mpr past
        obtain ⟨envelope,world,answers⟩ :=
          enveloped call.tool call.args p.desk.session.call_context p.desk.world
        obtain ⟨text,written⟩ := dumpResult_iff.mpr
          (reportable budget key _ world (budgeted stands.counted) keyed left answers)
        exact ⟨_,(ran _).mpr ⟨key,keyed,.executed left _ world text answers written⟩⟩
  · intro state desk done
    obtain ⟨key,keyed,worked⟩ := (ran _).mp done
    rcases worked with - | - <;> exact ⟨_,rfl⟩

theorem delegate_returns_iff (stands : Stands p budget task) (here : p.next = some .delegate) :
    (∃ p', visit .delegate p = .ok p') ↔ Delegable p := by
  have opened := stands.opened (by rw [here]; simp)
  have ran : ∀ out, nodeOf .delegate p.state p.desk = .ok out ↔ _ := fun out => delegation_ok_iff opened
  rw [visit_returns,← handed_iff]
  · exact exists_congr ran
  · intro state desk done
    rcases (ran _).mp done with - | - | - | ⟨_,_,_,_,_,_,_,_,_,_,answered⟩
    · exact ⟨_,rfl⟩
    · exact ⟨_,rfl⟩
    · exact ⟨_,rfl⟩
    · rcases out : attempted _ p.desk _ _ _ with ⟨exc | result,world⟩
      · rw [out] at answered
        cases answered
        exact ⟨_,rfl⟩
      · rw [out] at answered
        cases answered
        exact ⟨_,rfl⟩

theorem finish_returns (stands : Stands p budget task) (here : p.next = some .finish) :
    ∃ p', visit .finish p = .ok p' := by
  have opened := stands.opened (by rw [here]; simp)
  by_cases wrong : errored (p.state.last_action.getD [])
  · have ran : nodeOf .finish p.state p.desk = _ := finish_errored stands.counted opened wrong
    exact ⟨⟨none,_,_⟩,visit_ok_iff.mpr ⟨ran,rfl⟩⟩
  · rcases gate : check_finish p.desk.session.state ((p.state.last_action.getD []).get "finish_reason") with _ | reason
    · have ran : nodeOf .finish p.state p.desk = _ := finish_completed stands.counted opened wrong gate
      exact ⟨⟨none,_,_⟩,visit_ok_iff.mpr ⟨ran,rfl⟩⟩
    · have ran : nodeOf .finish p.state p.desk = _ := finish_blocked stands.counted opened wrong gate
      exact ⟨⟨some .guard,_,_⟩,visit_ok_iff.mpr ⟨ran,rfl⟩⟩

theorem fail_returns (stands : Stands p budget task) (here : p.next = some .fail) : ∃ p', visit .fail p = .ok p' := by
  have opened := stands.opened (by rw [here]; simp)
  have ran : nodeOf .fail p.state p.desk = _ := fail_eq stands.counted opened
  exact ⟨⟨none,_,_⟩,visit_ok_iff.mpr ⟨ran,rfl⟩⟩

/-- A visit returns, and its route has an edge, exactly when the node can take in what it gets. -/
theorem visit_returns_iff (stands : Stands p budget task) (neat : Neat (ledger p budget))
    (enveloped : Enveloped p.desk.services) (here : p.next = some node) :
    (∃ p', visit node p = .ok p') ↔ Digestible p node := by
  cases node with
  | guard => exact iff_of_true (guard_returns stands here) trivial
  | agent => exact agent_returns_iff stands enveloped here
  | tool => exact tool_returns_iff stands neat enveloped here
  | delegate => exact delegate_returns_iff stands here
  | finish => exact iff_of_true (finish_returns stands here) trivial
  | fail => exact iff_of_true (fail_returns stands here) trivial

/-! ### Runs -/

variable {start : Position ω} {messages : List Message} {model : Option String} {trail : List (NodeName × AgentState)}

/-- A run that is not interrupted stays in its process. -/
theorem reaches_services (begins : Begins start task messages budget model) (reached : Reaches False start trail p) :
    p.desk.services = start.desk.services := by
  induction reached with
  | start => rfl
  | visit reached next moved ih =>
    obtain ⟨kept,ledgers,run,stands,-,-⟩ := reaches_run begins reached
    obtain ⟨-,-,-,same⟩ := visit_moves stands next moved
    rw [same,ih]
  | resume services world allowed reached next running reader restored ih => exact allowed.elim

theorem unraised_iff (begins : Begins start task messages budget model) (enveloped : Enveloped start.desk.services) :
    Unraised start ↔
      ∀ trail p node, Reaches False start trail p → p.next = some node → Digestible p node := by
  refine forall_congr' fun trail => forall_congr' fun p => forall_congr' fun node => forall_congr' fun reached =>
    forall_congr' fun here => ?_
  obtain ⟨kept,ledgers,run,stands,-,-⟩ := reaches_run begins reached
  have neat : Neat (ledger p kept) := run_neat (begins_neat begins) run
  exact visit_returns_iff stands neat (by rw [reaches_services begins reached]; exact enveloped) here

/-- No run visits more nodes than the budget has left. -/
theorem run_bounded (begins : Begins start task messages budget model) (reached : Reaches False start trail p) :
    trail.length ≤ potential (ledger start budget) := by
  obtain ⟨kept,ledgers,run,-,-,pictures⟩ := reaches_run begins reached
  have length := run_length (fun here => absurd (begins.next.symm.trans here) (by simp)) run
  rw [pictures.length_eq]
  omega

/-- A run raises nowhere and ends as completed or failed exactly when at each of its positions the node that is next can
    take in what the model, the kernel or the delegation service give it. -/
theorem run_ends_iff (begins : Begins start task messages budget model) (enveloped : Enveloped start.desk.services) :
    (Unraised start ∧ ∃ trail p, Reaches False start trail p ∧ p.next = none ∧
      (p.state.status = "completed" ∨ p.state.status = "failed")) ↔
      ∀ trail p node, Reaches False start trail p → p.next = some node → Digestible p node := by
  rw [← unraised_iff begins enveloped]
  refine ⟨And.left,fun smooth => ⟨smooth,?_⟩⟩
  obtain ⟨trail,p,reached,ended⟩ := reaches_end (fun _ _ reached => run_bounded begins reached) smooth
  exact ⟨trail,p,reached,ended,((Lifecycle.closed_by_last_node begins reached).2 ended).status⟩

/-- What is run to its end raises nowhere. -/
theorem drive_unraised {n : Nat} {last : Position ω} (driven : drive n start = .ok (trail,last)) (ended : last.next = none) :
    Unraised start := by
  have onward : ∀ trail p, Reaches False start trail p → ∃ m more, drive m p = .ok (more,last) := by
    intro trail' p reached
    induction reached with
    | start => exact ⟨n,trail,driven⟩
    | visit reached next moved ih =>
      obtain ⟨m,more,driven⟩ := ih
      cases m with
      | zero =>
        cases driven
        cases next.symm.trans ended
      | succ m =>
        rw [drive,next] at driven
        obtain ⟨p',moved',rest⟩ := bind_ok_iff.mp driven
        cases moved.symm.trans moved'
        obtain ⟨⟨further,final⟩,driven',done⟩ := bind_ok_iff.mp rest
        cases done
        exact ⟨m,further,driven'⟩
    | resume services world allowed reached next running reader restored ih => exact allowed.elim
  intro trail' p node reached next
  obtain ⟨m,more,driven⟩ := onward trail' p reached
  cases m with
  | zero =>
    cases driven
    cases next.symm.trans ended
  | succ m =>
    rw [drive,next] at driven
    obtain ⟨p',moved,-⟩ := bind_ok_iff.mp driven
    exact ⟨p',moved⟩

end

/-! ### A specification that cannot be converted -/

/-- A process with a delegation service that knows nobody, in which the model says these texts in turn. -/
def assisted (texts : List String) : Services Nat where
  interp := { recursion_limit := 100, float := fun text => ⟨text,true,none⟩ }
  available := {"llm.chat"}
  uuid _ := "u"
  kernel name _ _ turn :=
    let envelope : CapabilityResult := { ok := true, capability := name, data := [("content",.str (texts.getD turn ""))] }
    (.ok envelope.as_dict,turn + 1)
  delegation_service := some fun _ target _ _ turn => (.error (.LookupError ("Unknown target: " ++ target)),turn)

theorem assisted_enveloped (texts : List String) : Enveloped (assisted texts) := fun _ _ _ turn => ⟨_,turn + 1,rfl⟩

/-- A new run for the errand, with assistance. -/
def assistedStart (texts : List String) : Position Nat :=
  ⟨some .guard,errandState greetBudget,{ services := assisted texts, session := errandSession, world := 0 }⟩

theorem assisted_begins (texts : List String) : Begins (assistedStart texts) errand [] greetBudget none where
  next := rfl
  state := rfl
  assigned := rfl
  unclosed := rfl
  named := by decide
  owned := rfl
  idle := rfl

def numberContext : String :=
  "\x7b\"action\":\"delegate\",\"target\":\"writer\",\"spec\":\x7b\"objective\":\"write\",\"input_context\":5\x7d\x7d"

/-- What a visit of the delegation node raises. -/
def complaint (p : Position Nat) : Option PyError :=
  match visit .delegate p with
  | .ok _ => none
  | .error exc => some exc

/-- The context of a specification is no dictionary: the run is over without a status. -/
theorem number_context_raises : ∃ (start : Position Nat) (trail : List (NodeName × AgentState)) (p : Position Nat),
    Begins start errand [] greetBudget none ∧ Enveloped start.desk.services ∧ Reaches False start trail p ∧
      p.next = some .delegate ∧ p.state.status = "running" ∧
      visit .delegate p = .error (.TypeError "'int' object is not iterable") := by
  have run : seen (fun _ p => (p.next,p.state.status,complaint p)) 2 (assistedStart [numberContext]) =
      .ok (some .delegate,"running",some (.TypeError "'int' object is not iterable")) := by
    decide +kernel
  obtain ⟨trail,p,reached,seen⟩ := seen_reaches .start run
  obtain ⟨next,rest⟩ := Prod.mk.inj seen
  obtain ⟨running,raised⟩ := Prod.mk.inj rest
  refine ⟨_,_,p,assisted_begins _,assisted_enveloped _,reached,next,running,?_⟩
  unfold complaint at raised
  split at raised
  · cases raised
  · next exc same =>
    cases raised
    exact same

def oddDelegation : String :=
  "\x7b\"action\":\"delegate\",\"target\":[0],\"spec\":\x7b\"objective\":null,\"constraints\":\"ab\"\x7d,\"policy\":\"\"\x7d"

/-- A target that is a list and an objective that is null have texts, and the service refuses them: the run fails, and
    raises nowhere. -/
theorem odd_delegation_digested : ∃ (trail : List (NodeName × AgentState)) (p : Position Nat),
    Reaches False (assistedStart [oddDelegation]) trail p ∧ p.next = none ∧ p.state.status = "failed" ∧
      ∀ trail p node, Reaches False (assistedStart [oddDelegation]) trail p → p.next = some node → Digestible p node := by
  have run : seen (fun _ p => (p.next,p.state.status)) 8 (assistedStart [oddDelegation]) = .ok (none,"failed") := by
    decide +kernel
  unfold seen at run
  rcases driven : drive 8 (assistedStart [oddDelegation]) with error | ⟨trail,last⟩
  · rw [driven] at run
    cases run
  · rw [driven] at run
    obtain ⟨ended,failed⟩ := Prod.mk.inj (Except.ok.inj run)
    have reached : Reaches False (assistedStart [oddDelegation]) ([] ++ trail) last := drive_reaches .start driven
    refine ⟨_,last,reached,ended,failed,?_⟩
    exact (run_ends_iff (assisted_begins _) (assisted_enveloped _)).mp
      ⟨drive_unraised driven ended,_,last,reached,ended,.inr failed⟩

end HexAgent.Completion
