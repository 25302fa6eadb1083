import HexAgent.AgentGraph
import HexAgent.ToolKeys
import Mathlib.Data.Int.Order.Basic

/-!
What a run of an agent keeps account of: where it is, its budget, its last action, its messages and
what it did outside. A ledger moves by one of few rules, whatever the model writes and whatever the
tools and the delegation service do; the bounds of a run are facts of these rules.
-/
namespace HexAgent.Ledgers
open HexAgent.Values HexAgent.Json HexAgent.JsonGate HexAgent.Budgets HexAgent.GraphState HexAgent.AgentGraph
open HexAgent.ToolKeys (calls_record)

structure Ledger where
  next : Option NodeName
  budget : Budget
  action : Option Fields
  messages : List Message
  log : List Deed
  status : String

/-- The call of the model. -/
def asks (args : Fields) : Deed := .called .agent "llm.chat" args

/-- The event that closes a task. -/
def closes (status : String) (payload : Fields) : Deed :=
  .published (if status = "completed" then "task.completed" else "task.failed") payload

/-- The node of a route from the agent. -/
def targetOf (action : Fields) : NodeName :=
  match routeOf (Fields.textOf action "action") with
  | some "tool" => .tool
  | some "delegate" => .delegate
  | some "finish" => .finish
  | _ => .guard

section
variable (interp : Interpreter)

/-- How a ledger moves. -/
inductive Moves (l : Ledger) : Ledger → Prop
  | spent (payload : Fields) (next : l.next = some .guard) (past : l.budget.max_steps ≤ l.budget.steps) :
      Moves l { l with next := some .fail, log := l.log ++ [.published "graph.budget_blocked" payload] }
  | admitted (next : l.next = some .guard) (left : l.budget.steps < l.budget.max_steps) :
      Moves l { l with next := some .agent }
  | gaveUp (args payload : Fields) (content message stage candidate : String) (next : l.next = some .agent)
      (read : parse_action interp content = .error (.JsonGateError message stage candidate))
      (past : l.budget.record_parse_error.parse_exceeded = true) :
      Moves l { l with
        next := some .fail, budget := l.budget.record_parse_error, messages := l.messages ++ [⟨"assistant",content⟩]
        log := l.log ++ [asks args,.published "graph.parse_error" payload] }
  | retried (args payload : Fields) (content message stage candidate : String) (next : l.next = some .agent)
      (read : parse_action interp content = .error (.JsonGateError message stage candidate))
      (left : l.budget.record_parse_error.parse_exceeded = false) :
      Moves l { l with
        next := some .guard, budget := l.budget.record_parse_error
        messages := l.messages ++ [⟨"assistant",content⟩,⟨"user",build_retry_message stage⟩]
        log := l.log ++ [asks args,.published "graph.parse_error" payload] }
  | acted (args payload action : Fields) (content : String) (more : List Message) (next : l.next = some .agent)
      (read : parse_action interp content = .ok action) (talk : ∀ message ∈ more, message.role = "user") :
      Moves l { l with
        next := some (targetOf action), budget := l.budget.record_step, action := some action
        messages := l.messages ++ ⟨"assistant",content⟩ :: more
        log := l.log ++ [asks args,.published "graph.step" payload] }
  | repeated (payload : Fields) (key : String) (next : l.next = some .tool)
      (keyed : tool_key (Fields.textOf (l.action.getD []) "tool") (.dict (argsOf (l.action.getD []))) = .ok key)
      (past : (l.budget.record_tool_call key).same_tool_exceeded key = true) :
      Moves l { l with
        next := some .fail, budget := l.budget.record_tool_call key
        log := l.log ++ [.published "graph.budget_blocked" payload] }
  | executed (key text : String) (next : l.next = some .tool)
      (keyed : tool_key (Fields.textOf (l.action.getD []) "tool") (.dict (argsOf (l.action.getD []))) = .ok key)
      (left : (l.budget.record_tool_call key).same_tool_exceeded key = false) :
      Moves l { l with
        next := some .guard, budget := l.budget.record_tool_call key, messages := l.messages ++ [⟨"user",text⟩]
        log := l.log ++ [.called .tool (Fields.textOf (l.action.getD []) "tool") (argsOf (l.action.getD []))] }
  | undelegated (next : l.next = some .delegate) : Moves l { l with next := some .fail }
  | delegated (text : String) (next : l.next = some .delegate) :
      Moves l { l with next := some .guard, messages := l.messages ++ [⟨"user",text⟩] }
  | blocked (payload : Fields) (text : String) (next : l.next = some .finish) (sound : ¬ errored (l.action.getD [])) :
      Moves l { l with
        next := some .guard, messages := l.messages ++ [⟨"user",text⟩]
        log := l.log ++ [.published "graph.finish_blocked" payload] }
  | finished (payload payload' : Fields) (next : l.next = some .finish) :
      Moves l { l with
        next := none, status := if errored (l.action.getD []) then "failed" else "completed"
        log := l.log ++ [closes (if errored (l.action.getD []) then "failed" else "completed") payload,
          .published "graph.completed" payload'] }
  | failed (payload payload' : Fields) (next : l.next = some .fail) :
      Moves l { l with
        next := none, status := "failed", log := l.log ++ [closes "failed" payload,.published "graph.completed" payload'] }

/-- The moves from a start, with the nodes at which they were made and the ledgers after each. -/
inductive Run (start : Ledger) : List (NodeName × Ledger) → Ledger → Prop
  | start : Run start [] start
  | move {trail : List (NodeName × Ledger)} {node : NodeName} {l l' : Ledger} (run : Run start trail l)
      (next : l.next = some node) (moved : Moves interp l l') : Run start (trail ++ [(node,l')]) l'

end

/-! ### The length of a run -/

/-- The actions and the unread outputs that a budget still allows. -/
def stepsLeft (budget : Budget) : Nat := (budget.max_steps - budget.steps).toNat
def errorsLeft (budget : Budget) : Nat := (max 1 budget.max_parse_errors - budget.parse_errors).toNat

/-- The most nodes that a run can still visit. -/
def potential (l : Ledger) : Nat :=
  match l.next with
  | none => 0
  | some .fail => 1
  | some .guard => 3 * stepsLeft l.budget + 2 * errorsLeft l.budget + 2
  | some .agent => 3 * stepsLeft l.budget + 2 * errorsLeft l.budget + 1
  | some _ => 3 * stepsLeft l.budget + 2 * errorsLeft l.budget + 3

/-- The agent is only visited with a step left, and a run with too many unread outputs is at its end. -/
structure Sound (l : Ledger) : Prop where
  step : l.next = some .agent → l.budget.steps < l.budget.max_steps
  error : l.next ≠ none → l.next ≠ some .fail → l.budget.parse_errors < max 1 l.budget.max_parse_errors

theorem targetOf_cases (action : Fields) :
    targetOf action = .tool ∨ targetOf action = .delegate ∨ targetOf action = .finish ∨ targetOf action = .guard := by
  unfold targetOf
  split <;> simp

section
variable {interp : Interpreter} {l l' start : Ledger} {trail : List (NodeName × Ledger)}

/-- Every move uses up a node. -/
theorem moves_less (step : l.next = some .agent → l.budget.steps < l.budget.max_steps) (moved : Moves interp l l') :
    (l'.next = some .agent → l'.budget.steps < l'.budget.max_steps) ∧ potential l' < potential l := by
  cases moved with
  | spent payload next past =>
    refine ⟨fun here => absurd here (by simp),?_⟩
    simp only [potential,next]
    omega
  | admitted next left =>
    refine ⟨fun _ => left,?_⟩
    simp only [potential,next]
    omega
  | gaveUp args payload content message stage candidate next read past =>
    have left := step next
    refine ⟨fun here => absurd here (by simp),?_⟩
    simp only [potential,next,stepsLeft]
    omega
  | retried args payload content message stage candidate next read left =>
    have within : ¬ l.budget.max_parse_errors ≤ l.budget.parse_errors + 1 := of_decide_eq_false left
    refine ⟨fun here => absurd here (by simp),?_⟩
    simp only [potential,next,stepsLeft,errorsLeft,Budget.record_parse_error]
    omega
  | acted args payload action content more next read talk =>
    have left := step next
    rcases targetOf_cases action with target | target | target | target
    all_goals
      refine ⟨fun here => absurd here (by simp [target]),?_⟩
      simp only [potential,next,target,stepsLeft,errorsLeft,Budget.record_step]
      omega
  | repeated payload key next keyed past =>
    refine ⟨fun here => absurd here (by simp),?_⟩
    simp only [potential,next]
    omega
  | executed key text next keyed left =>
    refine ⟨fun here => absurd here (by simp),?_⟩
    simp only [potential,next,stepsLeft,errorsLeft,Budget.record_tool_call]
    omega
  | undelegated next =>
    refine ⟨fun here => absurd here (by simp),?_⟩
    simp only [potential,next]
    omega
  | delegated text next =>
    refine ⟨fun here => absurd here (by simp),?_⟩
    simp only [potential,next]
    omega
  | blocked payload text next good =>
    refine ⟨fun here => absurd here (by simp),?_⟩
    simp only [potential,next]
    omega
  | finished payload payload' next =>
    refine ⟨fun here => absurd here (by simp),?_⟩
    simp only [potential,next]
    omega
  | failed payload payload' next =>
    refine ⟨fun here => absurd here (by simp),?_⟩
    simp only [potential,next]
    omega

theorem moves_sound (sound : Sound l) (moved : Moves interp l l') : Sound l' := by
  refine ⟨(moves_less sound.step moved).1,?_⟩
  cases moved with
  | spent payload next past => exact fun _ failing => absurd rfl failing
  | admitted next left => exact fun _ _ => sound.error (by simp [next]) (by simp [next])
  | gaveUp args payload content message stage candidate next read past => exact fun _ failing => absurd rfl failing
  | retried args payload content message stage candidate next read left =>
    have within : ¬ l.budget.max_parse_errors ≤ l.budget.parse_errors + 1 := of_decide_eq_false left
    intro _ _
    simp only [Budget.record_parse_error]
    omega
  | acted args payload action content more next read talk =>
    exact fun _ _ => sound.error (by simp [next]) (by simp [next])
  | repeated payload key next keyed past => exact fun _ failing => absurd rfl failing
  | executed key text next keyed left => exact fun _ _ => sound.error (by simp [next]) (by simp [next])
  | undelegated next => exact fun _ failing => absurd rfl failing
  | delegated text next => exact fun _ _ => sound.error (by simp [next]) (by simp [next])
  | blocked payload text next good => exact fun _ _ => sound.error (by simp [next]) (by simp [next])
  | finished payload payload' next => exact fun going => absurd rfl going
  | failed payload payload' next => exact fun going => absurd rfl going

theorem run_sound (sound : Sound start) (run : Run interp start trail l) : Sound l := by
  induction run with
  | start => exact sound
  | move run next moved ih => exact moves_sound ih moved

/-- A run visits no more nodes than its start allows, whatever is used up there. -/
theorem run_length (step : start.next = some .agent → start.budget.steps < start.budget.max_steps)
    (run : Run interp start trail l) : trail.length + potential l ≤ potential start := by
  have length : (l.next = some .agent → l.budget.steps < l.budget.max_steps) ∧
      trail.length + potential l ≤ potential start := by
    induction run with
    | start => exact ⟨step,by simp⟩
    | move run next moved ih =>
      obtain ⟨before,bound⟩ := ih
      obtain ⟨after,less⟩ := moves_less before moved
      refine ⟨after,?_⟩
      rw [List.length_append,List.length_singleton]
      omega
  exact length.2

end

/-! ### What a run did -/

/-- The calls of the model by the agent. -/
def Deed.asked : Deed → Bool
  | .called .agent _ _ => true
  | _ => false

/-- The calls by the tool node. -/
def Deed.worked : Deed → Bool
  | .called .tool _ _ => true
  | _ => false

/-- The calls by the tool node that have a key. -/
def Deed.keyed (key : String) : Deed → Bool
  | .called .tool name args => decide (tool_key name (.dict args) = .ok key)
  | _ => false

/-- The events that close a task. -/
def Deed.closing : Deed → Bool
  | .published topic _ => decide (topic = "task.completed" ∨ topic = "task.failed")
  | _ => false

/-- A budget of which nothing is used up. -/
structure Fresh (budget : Budget) : Prop where
  steps : budget.steps = 0
  parse_errors : budget.parse_errors = 0
  tool_calls : budget.tool_calls = []

/-- What a run did is within its budget. -/
structure Accounted (fresh : Budget) (l : Ledger) : Prop where
  max_steps : l.budget.max_steps = fresh.max_steps
  max_parse_errors : l.budget.max_parse_errors = fresh.max_parse_errors
  max_same_tool_calls : l.budget.max_same_tool_calls = fresh.max_same_tool_calls
  steps : l.budget.steps ≤ fresh.max_steps
  errors : l.budget.parse_errors ≤ max 1 fresh.max_parse_errors
  asked : (l.log.countP Deed.asked : Int) = l.budget.steps + l.budget.parse_errors
  worked : (l.log.countP Deed.worked : Int) + (if l.next = some .tool then 1 else 0) ≤ l.budget.steps
  called : ∀ key, (l.log.countP (Deed.keyed key) : Int) ≤ l.budget.calls key
  repeats : ∀ key, (l.log.countP (Deed.keyed key) : Int) ≤ fresh.max_same_tool_calls

section
variable {interp : Interpreter} {fresh : Budget} {l l' start : Ledger} {trail : List (NodeName × Ledger)}

/-- Events are no calls. -/
theorem published_uncounted {P : Deed → Bool} (uncounted : ∀ topic payload, P (.published topic payload) = false)
    {deeds : List Deed} (quiet : ∀ deed ∈ deeds, ∃ topic payload, deed = .published topic payload) (log : List Deed) :
    (log ++ deeds).countP P = log.countP P := by
  have none : deeds.countP P = 0 := by
    refine List.countP_eq_zero.mpr fun deed inside => ?_
    obtain ⟨topic,payload,rfl⟩ := quiet deed inside
    rw [uncounted]
    exact Bool.false_ne_true
  rw [List.countP_append,none,Nat.add_zero]

/-- A move that calls nothing, away from the tools, and keeps the budget. -/
theorem Accounted.still (accounted : Accounted fresh l) (budget : l'.budget = l.budget) (away : l'.next ≠ some .tool)
    {deeds : List Deed} (log : l'.log = l.log ++ deeds)
    (quiet : ∀ deed ∈ deeds, ∃ topic payload, deed = .published topic payload) : Accounted fresh l' := by
  have before := accounted.worked
  constructor
  · rw [budget]; exact accounted.max_steps
  · rw [budget]; exact accounted.max_parse_errors
  · rw [budget]; exact accounted.max_same_tool_calls
  · rw [budget]; exact accounted.steps
  · rw [budget]; exact accounted.errors
  · rw [budget,log,published_uncounted (fun _ _ => rfl) quiet]; exact accounted.asked
  · rw [budget,log,published_uncounted (fun _ _ => rfl) quiet,if_neg away]
    split at before <;> omega
  · intro key
    rw [budget,log,published_uncounted (fun _ _ => rfl) quiet]
    exact accounted.called key
  · intro key
    rw [log,published_uncounted (fun _ _ => rfl) quiet]
    exact accounted.repeats key

theorem asks_asked (args payload : Fields) (topic : String) :
    [asks args,.published topic payload].countP Deed.asked = 1 := rfl

theorem asks_worked (args payload : Fields) (topic : String) :
    [asks args,.published topic payload].countP Deed.worked = 0 := rfl

theorem asks_keyed (args payload : Fields) (topic key : String) :
    [asks args,.published topic payload].countP (Deed.keyed key) = 0 := rfl

/-- The agent asks the model, and its output costs a parse error. -/
theorem Accounted.unread (accounted : Accounted fresh l) (left : l.budget.parse_errors < max 1 l.budget.max_parse_errors)
    (budget : l'.budget = l.budget.record_parse_error) (away : l'.next ≠ some .tool) {args payload : Fields}
    {topic : String} (log : l'.log = l.log ++ [asks args,.published topic payload]) : Accounted fresh l' := by
  have before := accounted.worked
  have errors := accounted.max_parse_errors
  constructor
  · rw [budget]; exact accounted.max_steps
  · rw [budget]; exact errors
  · rw [budget]; exact accounted.max_same_tool_calls
  · rw [budget]; exact accounted.steps
  · rw [budget,Budget.record_parse_error,← errors]
    exact left
  · have asked := accounted.asked
    rw [budget,log,List.countP_append,asks_asked,Budget.record_parse_error]
    push_cast
    omega
  · rw [budget,log,List.countP_append,asks_worked,if_neg away,Budget.record_parse_error]
    split at before <;> push_cast <;> omega
  · intro key
    rw [budget,log,List.countP_append,asks_keyed,Nat.add_zero]
    exact accounted.called key
  · intro key
    rw [log,List.countP_append,asks_keyed,Nat.add_zero]
    exact accounted.repeats key

/-- The agent asks the model, and its output is a step. -/
theorem Accounted.step (accounted : Accounted fresh l) (left : l.budget.steps < l.budget.max_steps)
    (budget : l'.budget = l.budget.record_step) {args payload : Fields} {topic : String}
    (log : l'.log = l.log ++ [asks args,.published topic payload]) : Accounted fresh l' := by
  have before := accounted.worked
  have steps := accounted.max_steps
  constructor
  · rw [budget]; exact steps
  · rw [budget]; exact accounted.max_parse_errors
  · rw [budget]; exact accounted.max_same_tool_calls
  · rw [budget,Budget.record_step,← steps]
    exact left
  · rw [budget]; exact accounted.errors
  · have asked := accounted.asked
    rw [budget,log,List.countP_append,asks_asked,Budget.record_step]
    push_cast
    omega
  · rw [budget,log,List.countP_append,asks_worked,Budget.record_step]
    split at before <;> split <;> push_cast <;> omega
  · intro key
    rw [budget,log,List.countP_append,asks_keyed,Nat.add_zero]
    exact accounted.called key
  · intro key
    rw [log,List.countP_append,asks_keyed,Nat.add_zero]
    exact accounted.repeats key

theorem calls_mono (budget : Budget) (key asked : String) :
    budget.calls asked ≤ (budget.record_tool_call key).calls asked := by
  rw [calls_record]
  split <;> omega

/-- A tool is refused. -/
theorem Accounted.refused (accounted : Accounted fresh l) {key : String}
    (budget : l'.budget = l.budget.record_tool_call key) (away : l'.next ≠ some .tool) {payload : Fields} {topic : String}
    (log : l'.log = l.log ++ [.published topic payload]) : Accounted fresh l' := by
  have before := accounted.worked
  constructor
  · rw [budget]; exact accounted.max_steps
  · rw [budget]; exact accounted.max_parse_errors
  · rw [budget]; exact accounted.max_same_tool_calls
  · rw [budget]; exact accounted.steps
  · rw [budget]; exact accounted.errors
  · rw [budget,log,published_uncounted (fun _ _ => rfl) (by simp)]; exact accounted.asked
  · rw [budget,log,published_uncounted (fun _ _ => rfl) (by simp),if_neg away]
    simp only [Budget.record_tool_call]
    split at before <;> omega
  · intro asked
    rw [budget,log,published_uncounted (fun _ _ => rfl) (by simp)]
    exact (accounted.called asked).trans (calls_mono ..)
  · intro asked
    rw [log,published_uncounted (fun _ _ => rfl) (by simp)]
    exact accounted.repeats asked

/-- A tool is called at the tool node. -/
theorem Accounted.call (accounted : Accounted fresh l) (here : l.next = some .tool) {key name : String} {args : Fields}
    (keyed : tool_key name (.dict args) = .ok key)
    (left : (l.budget.record_tool_call key).same_tool_exceeded key = false)
    (budget : l'.budget = l.budget.record_tool_call key) (away : l'.next ≠ some .tool)
    (log : l'.log = l.log ++ [.called .tool name args]) : Accounted fresh l' := by
  have before := accounted.worked
  rw [if_pos here] at before
  have one (asked : String) : [Deed.called .tool name args].countP (Deed.keyed asked) = if asked = key then 1 else 0 := by
    simp [Deed.keyed,keyed,eq_comm]
  constructor
  · rw [budget]; exact accounted.max_steps
  · rw [budget]; exact accounted.max_parse_errors
  · rw [budget]; exact accounted.max_same_tool_calls
  · rw [budget]; exact accounted.steps
  · rw [budget]; exact accounted.errors
  · rw [budget,log,List.countP_append]
    simpa [Budget.record_tool_call,Deed.asked] using accounted.asked
  · rw [budget,log,List.countP_append,if_neg away]
    simp only [Budget.record_tool_call,Deed.worked,List.countP_cons,List.countP_nil]
    push_cast
    omega
  · intro asked
    have called := accounted.called asked
    rw [budget,log,List.countP_append,one,calls_record]
    split <;> push_cast <;> omega
  · intro asked
    have called := accounted.called asked
    have repeats := accounted.repeats asked
    rw [log,List.countP_append,one]
    split
    · next same =>
      have within : ¬ l.budget.max_same_tool_calls < (l.budget.record_tool_call key).calls key := of_decide_eq_false left
      rw [calls_record,if_pos rfl,accounted.max_same_tool_calls] at within
      rw [same] at called ⊢
      push_cast
      omega
    · simpa using repeats

theorem moves_accounted (sound : Sound l) (accounted : Accounted fresh l) (moved : Moves interp l l') :
    Accounted fresh l' := by
  cases moved with
  | spent payload next past => exact accounted.still rfl (by simp) rfl (by simp)
  | admitted next left => exact accounted.still rfl (by simp) (List.append_nil _).symm (by simp)
  | gaveUp args payload content message stage candidate next read past =>
    exact accounted.unread (sound.error (by simp [next]) (by simp [next])) rfl (by simp) rfl
  | retried args payload content message stage candidate next read left =>
    exact accounted.unread (sound.error (by simp [next]) (by simp [next])) rfl (by simp) rfl
  | acted args payload action content more next read talk => exact accounted.step (sound.step next) rfl rfl
  | repeated payload key next keyed past => exact accounted.refused rfl (by simp) rfl
  | executed key text next keyed left => exact accounted.call next keyed left rfl (by simp) rfl
  | undelegated next => exact accounted.still rfl (by simp) (List.append_nil _).symm (by simp)
  | delegated text next => exact accounted.still rfl (by simp) (List.append_nil _).symm (by simp)
  | blocked payload text next good => exact accounted.still rfl (by simp) rfl (by simp)
  | finished payload payload' next => exact accounted.still rfl (by simp) rfl (by simp [closes])
  | failed payload payload' next => exact accounted.still rfl (by simp) rfl (by simp [closes])

theorem run_accounted (sound : Sound start) (accounted : Accounted fresh start) (run : Run interp start trail l) :
    Accounted fresh l := by
  induction run with
  | start => exact accounted
  | move run next moved ih => exact moves_accounted (run_sound sound run) ih moved

end
end HexAgent.Ledgers
