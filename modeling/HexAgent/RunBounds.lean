import HexAgent.AgentRuns
import HexAgent.Parsed

/-!
How much a run of an agent can do. The budget bounds the calls of the model, the steps and the repeats
of a tool call, also when the run is interrupted and resumed; and a run in which no node raises is at
its end before the recursion limit of the graph.
-/
namespace HexAgent.RunBounds
open HexAgent.Values HexAgent.Json HexAgent.JsonGate HexAgent.Schemas HexAgent.Budgets HexAgent.Sessions
open HexAgent.Rendering HexAgent.Writing HexAgent.Parsed HexAgent.GraphState HexAgent.AgentGraph HexAgent.Ledgers
open HexAgent.AgentRuns
open HexAgent.ToolKeys (Call Same repeats)

/-- The most nodes that `_config` allows a run. -/
def recursion_limit (budget : Budget) : Int := max 100 (budget.max_steps * 4 + budget.max_parse_errors * 3 + 20)

/-- The most nodes that `run_agent` and a delegated run allow. -/
def compat_limit (max_steps : Int) : Int := max 100 (max_steps * 4 + 20)

/-! ### Repeats -/

def callOf : Deed → Option Call
  | .called .tool name args => some ⟨name,args⟩
  | _ => none

/-- The calls by the tool node. -/
def toolCalls (log : List Deed) : List Call := log.filterMap callOf

/-- What a run takes from the model is tidy. -/
structure Neat (l : Ledger) : Prop where
  action : ∀ action, l.action = some action → Tidy (.dict action)
  calls : ∀ call ∈ toolCalls l.log, Tidy (.dict call.args)

theorem args_tidy {action : Fields} (tidy : Tidy (.dict action)) : Tidy (.dict (argsOf action)) := by
  have empty : Tidy (.dict []) := ⟨List.nodup_nil,trivial⟩
  have given : Tidy ((action.get "args").orElse (.dict [])) := by
    unfold PyVal.orElse
    split
    · exact get_tidy tidy.2 "args"
    · exact empty
  unfold argsOf
  split
  · next args same =>
    rw [same] at given
    exact given
  · exact empty

section
variable {interp : Interpreter} {fresh : Budget} {l l' start : Ledger} {trail : List (NodeName × Ledger)}

theorem toolCalls_quiet (log : List Deed) {deeds : List Deed} (quiet : toolCalls deeds = []) :
    toolCalls (log ++ deeds) = toolCalls log := by
  unfold toolCalls at quiet ⊢
  rw [List.filterMap_append,quiet,List.append_nil]

/-- A move that calls no tool and keeps the action. -/
theorem Neat.still (neat : Neat l) (action : l'.action = l.action) {deeds : List Deed} (log : l'.log = l.log ++ deeds)
    (quiet : toolCalls deeds = []) : Neat l' := by
  constructor
  · rw [action]
    exact neat.action
  · rw [log,toolCalls_quiet _ quiet]
    exact neat.calls

theorem moves_neat (neat : Neat l) (moved : Moves interp l l') : Neat l' := by
  cases moved with
  | spent payload next past => exact neat.still rfl rfl rfl
  | admitted next left => exact neat.still rfl (List.append_nil _).symm rfl
  | gaveUp args payload content message stage candidate next read past => exact neat.still rfl rfl rfl
  | retried args payload content message stage candidate next read left => exact neat.still rfl rfl rfl
  | acted args payload action content more next read talk =>
    refine ⟨?_,?_⟩
    · rintro _ ⟨⟩
      exact action_tidy read
    · rw [toolCalls_quiet _ rfl]
      exact neat.calls
  | repeated payload key next keyed past => exact neat.still rfl rfl rfl
  | executed key text next keyed left =>
    refine ⟨neat.action,fun call inside => ?_⟩
    rw [toolCalls,List.filterMap_append] at inside
    rcases List.mem_append.mp inside with before | here
    · exact neat.calls call before
    · obtain rfl : call = ⟨_,argsOf (l.action.getD [])⟩ := List.mem_singleton.mp here
      rcases there : l.action with _ | action
      · exact ⟨List.nodup_nil,trivial⟩
      · exact args_tidy (neat.action action there)
  | undelegated next => exact neat.still rfl (List.append_nil _).symm rfl
  | delegated text next => exact neat.still rfl (List.append_nil _).symm rfl
  | blocked payload text next good => exact neat.still rfl rfl rfl
  | finished payload payload' next => exact neat.still rfl rfl rfl
  | failed payload payload' next => exact neat.still rfl rfl rfl

theorem run_neat (neat : Neat start) (run : Run interp start trail l) : Neat l := by
  induction run with
  | start => exact neat
  | move run next moved ih => exact moves_neat ih moved

theorem tidy_key {call : Call} (tidy : Tidy (.dict call.args)) :
    call.key = .ok (call.tool ++ ":" ++ String.ofList (write (canon (.dict call.args)))) := by
  unfold ToolKeys.Call.key tool_key
  rw [dumps_write _ tidy]
  rfl

/-- Tidy calls that are the same have one key. -/
theorem same_key {call other : Call} (tidy : Tidy (.dict call.args)) (tidy' : Tidy (.dict other.args))
    {asked : Call} (same : Same call asked) (same' : Same other asked) : call.key = other.key := by
  rw [tidy_key tidy,tidy_key tidy',canon_of_alike _ _ tidy same.2,canon_of_alike _ _ tidy' same'.2,same.1,same'.1]

/-- No call is executed more often than the budget allows the same one. -/
theorem repeats_bounded (neat : Neat l) (accounted : Accounted fresh l) (allowed : 0 ≤ fresh.max_same_tool_calls)
    (asked : Call) : (repeats asked (toolCalls l.log) : Int) ≤ fresh.max_same_tool_calls := by
  classical
  by_cases made : ∃ call ∈ toolCalls l.log, Same call asked
  · obtain ⟨call,inside,same⟩ := made
    obtain ⟨key,keyed⟩ : ∃ key, call.key = .ok key := ⟨_,tidy_key (neat.calls call inside)⟩
    refine le_trans (Int.ofNat_le.mpr ?_) (accounted.repeats key)
    unfold repeats toolCalls
    rw [List.countP_filterMap]
    refine List.countP_mono_left fun deed member counted => ?_
    rcases found : callOf deed with _ | other
    · rw [found] at counted
      cases counted
    · rw [found] at counted
      have same' : Same other asked := of_decide_eq_true counted
      have key' := same_key (neat.calls other (List.mem_filterMap.mpr ⟨deed,member,found⟩)) (neat.calls call inside)
        same' same
      rw [keyed] at key'
      unfold callOf at found
      split at found
      · cases found
        exact decide_eq_true key'
      · cases found
  · have none : repeats asked (toolCalls l.log) = 0 := by
      refine List.countP_eq_zero.mpr fun call inside same => made ⟨call,inside,of_decide_eq_true same⟩
    rw [none]
    exact allowed

/-! ### A fresh start -/

theorem fresh_sound (next : start.next = some .guard) (fresh : Fresh start.budget) : Sound start := by
  refine ⟨fun here => ?_,fun _ _ => ?_⟩
  · rw [next] at here
    cases here
  · rw [fresh.parse_errors]
    omega

theorem fresh_accounted (next : start.next = some .guard) (fresh : Fresh start.budget) (idle : start.log = [])
    (steps : 0 ≤ start.budget.max_steps) (repeats : 0 ≤ start.budget.max_same_tool_calls) :
    Accounted start.budget start := by
  have uncalled : ∀ key, start.budget.calls key = 0 := by
    intro key
    rw [Budget.calls,fresh.tool_calls]
    rfl
  refine ⟨rfl,rfl,rfl,?_,?_,?_,?_,?_,?_⟩
  · rw [fresh.steps]
    exact steps
  · rw [fresh.parse_errors]
    omega
  · rw [idle,fresh.steps,fresh.parse_errors]
    rfl
  · rw [idle,fresh.steps,next]
    simp
  · intro key
    rw [idle,uncalled]
    rfl
  · intro key
    rw [idle]
    exact repeats

theorem fresh_potential (next : start.next = some .guard) (fresh : Fresh start.budget) (steps : 0 ≤ start.budget.max_steps) :
    (potential start : Int) = 3 * start.budget.max_steps + 2 * max 1 start.budget.max_parse_errors + 2 := by
  simp only [potential,next,stepsLeft,errorsLeft,fresh.steps,fresh.parse_errors]
  omega

theorem potential_pos (going : l.next ≠ none) : 1 ≤ potential l := by
  unfold potential
  split
  · next ended => exact (going ended).elim
  all_goals omega

end

/-! ### Runs -/

section
variable {ω : Type} {start p : Position ω} {task : TaskEnvelope} {messages : List Message} {budget : Budget}
  {model : Option String} {resumable : Prop} {trail : List (NodeName × AgentState)}

/-- What a run did and where it is are within its budget. -/
structure Within (budget : Budget) (trail : List (NodeName × AgentState)) (p : Position ω) : Prop where
  asked : (p.desk.log.countP Deed.asked : Int) ≤ budget.max_steps + max 1 budget.max_parse_errors
  worked : ((toolCalls p.desk.log).length : Int) ≤ budget.max_steps
  steps : ∃ kept, budget_from_state p.state = .ok kept ∧ kept.steps ≤ budget.max_steps
  repeats : ∀ call, (repeats call (toolCalls p.desk.log) : Int) ≤ budget.max_same_tool_calls
  nodes : (trail.length : Int) ≤ 3 * budget.max_steps + 2 * max 1 budget.max_parse_errors + 2
  onward : p.next ≠ none →
    (trail.length : Int) + 1 ≤ 3 * budget.max_steps + 2 * max 1 budget.max_parse_errors + 2

theorem toolCalls_length (log : List Deed) : (toolCalls log).length = log.countP Deed.worked := by
  induction log with
  | nil => rfl
  | cons deed rest ih =>
    unfold toolCalls at ih ⊢
    rw [List.filterMap_cons,List.countP_cons,← ih]
    rcases deed with ⟨node | node,name,args⟩ | ⟨topic,payload⟩ <;> rfl

theorem begins_neat (begins : Begins start task messages budget model) : Neat (ledger start budget) := by
  have made := begins.state
  unfold new_agent_state at made
  rw [begins.assigned] at made
  have unused : start.state.last_action = none := by rw [← Except.ok.inj made]
  refine ⟨fun action there => ?_,fun call inside => ?_⟩
  · exact absurd (unused.symm.trans there) (by simp)
  · rw [show (ledger start budget).log = [] from begins.idle] at inside
    cases inside

theorem reaches_within (begins : Begins start task messages budget model) (fresh : Fresh budget)
    (steps : 0 ≤ budget.max_steps) (same : 0 ≤ budget.max_same_tool_calls) (reached : Reaches resumable start trail p) :
    Within budget trail p := by
  obtain ⟨kept,ledgers,run,stands,-,pictures⟩ := reaches_run begins reached
  have sound : Sound (ledger start budget) := fresh_sound begins.next fresh
  have accounted := run_accounted sound (fresh_accounted begins.next fresh begins.idle steps same) run
  have neat := run_neat (begins_neat begins) run
  have length := run_length sound.step run
  have potential : (Ledgers.potential (ledger start budget) : Int) = _ := fresh_potential begins.next fresh steps
  have nodes : (trail.length : Int) + (Ledgers.potential (ledger p kept) : Int) ≤
      3 * budget.max_steps + 2 * max 1 budget.max_parse_errors + 2 := by
    rw [pictures.length_eq]
    refine le_trans ?_ potential.le
    exact_mod_cast length
  refine ⟨?_,?_,⟨kept,budgeted stands.counted,accounted.steps⟩,repeats_bounded neat accounted same,?_,fun going => ?_⟩
  · exact accounted.asked.le.trans (Int.add_le_add accounted.steps accounted.errors)
  · have worked : (p.desk.log.countP Deed.worked : Int) + (if p.next = some .tool then 1 else 0) ≤ kept.steps :=
      accounted.worked
    have within : kept.steps ≤ budget.max_steps := accounted.steps
    rw [toolCalls_length]
    split at worked <;> omega
  · omega
  · have more := potential_pos (l := ledger p kept) going
    omega

/-- A run needs no more nodes than the limit: it is at its end within it, or has another node left. -/
def Fits (limit : Int) (trail : List (NodeName × AgentState)) (p : Position ω) : Prop :=
  if p.next = none then (trail.length : Int) ≤ limit else (trail.length : Int) < limit

theorem Within.fits (within : Within budget trail p) {limit : Int}
    (cover : 3 * budget.max_steps + 2 * max 1 budget.max_parse_errors + 2 ≤ limit) : Fits limit trail p := by
  unfold Fits
  split
  · exact within.nodes.trans cover
  · next going => exact (Int.lt_iff_add_one_le.mpr (within.onward going)).trans_le cover

theorem limit_covers {budget : Budget} (steps : 0 ≤ budget.max_steps) (errors : 0 ≤ budget.max_parse_errors) :
    3 * budget.max_steps + 2 * max 1 budget.max_parse_errors + 2 ≤ recursion_limit budget ∧
      (budget.max_parse_errors = 3 →
        3 * budget.max_steps + 2 * max 1 budget.max_parse_errors + 2 ≤ compat_limit budget.max_steps) := by
  unfold recursion_limit compat_limit
  omega

/-- The budget bounds the calls of the model by the agent, the calls of tools, the steps and the repeats of a call in
    every run, interrupted or not. A run in which no node raises comes to its end, and neither there nor before did it
    visit more nodes than the recursion limits allow. -/
theorem run_within_budget (begins : Begins start task messages budget model) (fresh : Fresh budget)
    (steps : 0 ≤ budget.max_steps) (errors : 0 ≤ budget.max_parse_errors) (same : 0 ≤ budget.max_same_tool_calls) :
    (∀ resumable trail p, Reaches resumable start trail p →
      (p.desk.log.countP Deed.asked : Int) ≤ budget.max_steps + max 1 budget.max_parse_errors ∧
      ((toolCalls p.desk.log).length : Int) ≤ budget.max_steps ∧
      (∃ kept, budget_from_state p.state = .ok kept ∧ kept.steps ≤ budget.max_steps) ∧
      (∀ call, (repeats call (toolCalls p.desk.log) : Int) ≤ budget.max_same_tool_calls) ∧
      Fits (recursion_limit budget) trail p ∧
      (budget.max_parse_errors = 3 → Fits (compat_limit budget.max_steps) trail p)) ∧
      (Unraised start → ∃ trail p, Reaches False start trail p ∧ p.next = none) := by
  have within : ∀ resumable trail p, Reaches resumable start trail p → Within budget trail p :=
    fun _ _ _ reached => reaches_within begins fresh steps same reached
  obtain ⟨covered,covered'⟩ := limit_covers steps errors
  refine ⟨fun resumable trail p reached => ?_,fun smooth => ?_⟩
  · have bounds := within resumable trail p reached
    exact ⟨bounds.asked,bounds.worked,bounds.steps,bounds.repeats,bounds.fits covered,
      fun usual => bounds.fits (covered' usual)⟩
  · refine reaches_end (n := (3 * budget.max_steps + 2 * max 1 budget.max_parse_errors + 2).toNat) ?_ smooth
    intro trail p reached
    have nodes := (within False trail p reached).nodes
    omega

end

/-! ### A run that calls the model as a tool -/

/-- A process in which the model says these texts in turn. -/
def speaking (texts : List String) : Services Nat where
  interp := { recursion_limit := 100, float := fun text => ⟨text,true,none⟩ }
  available := {"llm.chat"}
  uuid _ := "u"
  kernel _ _ _ turn := (.ok [("ok",.bool true),("data",.dict [("content",.str (texts.getD turn ""))])],turn + 1)
  delegation_service := none

def errand : TaskEnvelope := { user_request := "greet", task_id := "task" }

theorem errand_identified : "session" ≠ "" := by decide

def errandIdentity : SessionIdentity where
  session_id := "session"
  run_id := "run"
  task_id := "task"
  agent_id := "agent:root"
  session_id_nonempty := errand_identified

def errandSession : KernelSession where
  identity := errandIdentity
  state := [("current_task",.task errand)]
  allowed_capabilities := {"llm.chat"}

/-- The state of a new run for the errand. -/
def errandState (budget : Budget) (messages : List Message := []) : AgentState where
  schema_version := 2
  run_id := "run"
  task_id := "task"
  task := "greet"
  context := []
  messages
  budget := budget_to_dict budget
  session_identity := errandSession.identity
  allowed_capabilities := sortedNames errandSession.allowed_capabilities
  session_state := encode_session_state errandSession.state
  model := none
  last_action := none
  route := "guard"
  final := none
  outcome := none
  status := "running"
  error := none
  active_delegation_id := none
  last_delegation_result := none

/-- A new run for the errand. -/
def errandStart (texts : List String) (budget : Budget) (messages : List Message := []) : Position Nat :=
  ⟨some .guard,errandState budget messages,{ services := speaking texts, session := errandSession, world := 0 }⟩

theorem errand_begins (texts : List String) (budget : Budget) (messages : List Message := []) :
    Begins (errandStart texts budget messages) errand messages budget none where
  next := rfl
  state := rfl
  assigned := rfl
  unclosed := rfl
  named := by decide
  owned := rfl
  idle := rfl

/-- What of a run is compared. -/
def seen {α : Type} (look : List (NodeName × AgentState) → Position Nat → α) (n : Nat) (start : Position Nat) :
    Except PyError α :=
  (drive n start).map fun out => look out.1 out.2

theorem seen_reaches {α : Type} {look : List (NodeName × AgentState) → Position Nat → α} {n : Nat} {v : α}
    {resumable : Prop} {start p : Position Nat} {before : List (NodeName × AgentState)}
    (reached : Reaches resumable start before p) (run : seen look n p = .ok v) :
    ∃ trail p, Reaches resumable start (before ++ trail) p ∧ look trail p = v := by
  unfold seen at run
  rcases driven : drive n p with error | ⟨trail,last⟩
  · rw [driven] at run
    cases run
  · rw [driven] at run
    exact ⟨trail,last,drive_reaches reached driven,Except.ok.inj run⟩

/-- The calls that reach the model, from whatever node. -/
def Deed.chats : Deed → Bool
  | .called _ name _ => name = "llm.chat"
  | .published _ _ => false

def chatTool : String := "\x7b\"action\":\"tool\",\"tool\":\"llm.chat\"\x7d"

/-- The tool node calls the model too when an action names it: two steps and no parse error come to four calls. -/
theorem chat_tools_uncounted : ∃ (budget : Budget) (start : Position Nat) (trail : List (NodeName × AgentState))
    (p : Position Nat), Fresh budget ∧ Begins start errand [] budget none ∧ Reaches False start trail p ∧
      p.next = none ∧ budget.max_steps + max 1 budget.max_parse_errors < p.desk.log.countP Deed.chats := by
  have run : seen (fun _ p => (p.next,p.desk.log.countP Deed.chats)) 9
      (errandStart [chatTool,"",chatTool,""] { max_steps := 2, max_parse_errors := 1 }) = .ok (none,4) := by
    decide +kernel
  obtain ⟨trail,p,reached,seen⟩ := seen_reaches .start run
  obtain ⟨ended,calls⟩ := Prod.mk.inj seen
  refine ⟨_,_,_,p,⟨rfl,rfl,rfl⟩,errand_begins _ _,reached,ended,?_⟩
  rw [calls]
  decide

def greetTool : String := "\x7b\"action\":\"tool\",\"tool\":\"greet\",\"args\":\x7b\"who\":\"you\"\x7d\x7d"

def greetBudget : Budget := { max_steps := 2, max_parse_errors := 2, max_same_tool_calls := 1 }

/-- An output that is no action, and the same tool once more than allowed. -/
theorem greetings_within_budget : ∃ (trail : List (NodeName × AgentState)) (p : Position Nat), p.next = none ∧
    (p.desk.log.countP Deed.asked : Int) ≤ 4 ∧ Fits 100 trail p ∧ (toolCalls p.desk.log).length = 1 := by
  have run : seen (fun _ p => (p.next,(toolCalls p.desk.log).length)) 12
      (errandStart ["hello",greetTool,"",greetTool] greetBudget) = .ok (none,1) := by
    decide +kernel
  obtain ⟨trail,p,reached,seen⟩ := seen_reaches .start run
  obtain ⟨ended,calls⟩ := Prod.mk.inj seen
  obtain ⟨bounds,-⟩ := run_within_budget (errand_begins _ greetBudget) ⟨rfl,rfl,rfl⟩ (by decide) (by decide) (by decide)
  obtain ⟨asked,-,-,-,fits,-⟩ := bounds False _ p reached
  exact ⟨_,p,ended,asked.trans (by decide),fits,calls⟩

end HexAgent.RunBounds
