import HexAgent.Lifecycle
import HexAgent.Notifications

/-!
The agent that runs a delegated task: it streams the graph over the child session and, whenever the
count of steps has grown, reports the last action as progress. The manager checks each report and
stores it, so the records of the delegation are the actions of the child, one for each step.
-/
namespace HexAgent.ChildRuns
open HexAgent.Values HexAgent.Json HexAgent.JsonGate HexAgent.Commands HexAgent.Schemas HexAgent.Budgets HexAgent.Kernel
open HexAgent.DelegationStore HexAgent.Sessions HexAgent.Delegation HexAgent.Rendering HexAgent.Parsed HexAgent.GraphState
open HexAgent.AgentGraph HexAgent.Ledgers HexAgent.AgentRuns HexAgent.RunBounds HexAgent.Lifecycle Programs
open HexAgent.Conclusions (stored_ok started_run started_refused opened_progress visitor lobby surveying surveyor)
open HexAgent.Conversions (bind_ok_iff)
open HexAgent.Notifications (append_next)

/-! ### The agent -/

/-- The system prompt of a child. -/
def COMPAT_SYSTEM_PROMPT : String :=
  "You are a tool-using agent. Respond with exactly ONE JSON object, no markdown, no prose:\n" ++
  "  \x7b\"action\": \"tool\", \"tool\": \"<name>\", \"args\": \x7b...\x7d\x7d  to call a tool, or\n" ++
  "  \x7b\"action\": \"final\", \"message\": \"<answer>\"\x7d  to finish.\n" ++
  "Use only tools that exist. After enough evidence, return a final answer."

/-- The first messages of a child. -/
def opening (request : DelegationRequest) : List Message :=
  [⟨"system",COMPAT_SYSTEM_PROMPT⟩,⟨"user",request.spec.objective⟩]

/-- The budget of a child. -/
def allowance (request : DelegationRequest) : Budget := { max_steps := request.policy.max_steps }

/-- What the agent keeps while it streams. -/
structure Feed where
  emitted_step : Int := 0
  artifacts : List ArtifactEnvelope := []

/-- What an artifact says of a step. -/
def stepPayload (step : Int) (action : Fields) (status : String) : Fields :=
  [("step",.int step),("action",.dict action),("status",.str status)]

section
variable {σ ω : Type} (manager : DelegationManager σ) (request : DelegationRequest) (child : KernelSession)

/-- The graph over the child session, without a service for further delegations, and its input. -/
def launch (services : Services ω) (world : ω) : Except PyError (Position ω) := do
  let state ← new_agent_state child (opening request) (allowance request) none
  .ok ⟨some .guard,state,{ services := { services with delegation_service := none }, session := child, world }⟩

/-- One streamed state: a new step is reported with the last action. -/
def observe (values : AgentState) (feed : Feed) : Act σ Feed := do
  let budget ← lift (budget_from_state values)
  if budget.steps ≤ feed.emitted_step then pure feed
  else do
    let artifact_id ← onShared (draw manager.kernel)
    let artifact : ArtifactEnvelope :=
      { artifact_id, kind := "agent_step", payload := stepPayload budget.steps (values.last_action.getD []) values.status }
    let event_id ← onShared (draw manager.kernel)
    progress_sink manager request child
      { delegation_id := request.delegation_id, sequence := feed.artifacts.length + 1, event_id, artifact }
    pure ⟨budget.steps,feed.artifacts ++ [artifact]⟩

/-- The result of the agent, from the last state. -/
def resultOf (final : AgentState) (artifacts : List ArtifactEnvelope) : Except PyError DelegationResult := do
  let status := orText final.status "failed"
  let budget ← budget_from_state final
  .ok {
    delegation_id := request.delegation_id
    parent_task_id := request.parent_task_id
    outcome := if status = "completed" then .success else .failed
    artifacts
    summary := [("target",.str request.target),("child_session_id",.str child.identity.session_id),
      ("steps",.int budget.steps),("final",ofOption final.final)]
    error := if status ≠ "completed" then final.error else none }

/-- What happens while a node runs: it may do anything but report progress of this delegation. -/
structure Meanwhile (w w' : Realm σ) : Prop where
  onward : w ≤ w'
  known : w.store.Started request.delegation_id → w'.store.Started request.delegation_id
  records : w'.store.progress request.delegation_id = w.store.progress request.delegation_id

/-- What the agent streamed of a run: the state after the input and after each node, each observed before the next
    node runs. -/
inductive Streams (start : Position ω) (w₀ : Realm σ) : List (NodeName × AgentState) → Position ω → Feed → Realm σ → Prop
  | input {feed : Feed} {w : Realm σ} (ran : (observe manager request child start.state {}).run w₀ = (.ok feed,w)) :
      Streams start w₀ [] start feed w
  | node {trail : List (NodeName × AgentState)} {node : NodeName} {p p' : Position ω} {feed feed' : Feed}
      {w w' w'' : Realm σ} (streamed : Streams start w₀ trail p feed w) (next : p.next = some node)
      (moved : visit node p = .ok p') (during : Meanwhile request w w')
      (ran : (observe manager request child p'.state feed).run w' = (.ok feed',w'')) :
      Streams start w₀ (trail ++ [(node,p'.state)]) p' feed' w''

end

/-! ### The actions of a run -/

/-- The actions among the outputs of the model. -/
def accepted (interp : Interpreter) (messages : List Message) : List Fields :=
  messages.filterMap fun message => if message.role = "assistant" then (parse_action interp message.content).toOption else none

section
variable {interp : Interpreter} {l l' : Ledger}

theorem accepted_append (messages more : List Message) :
    accepted interp (messages ++ more) = accepted interp messages ++ accepted interp more := List.filterMap_append ..

theorem accepted_talk {more : List Message} (talk : ∀ message ∈ more, message.role = "user") :
    accepted interp more = [] := by
  refine List.filterMap_eq_nil_iff.mpr fun message inside => if_neg ?_
  rw [talk message inside]
  decide

theorem accepted_user (messages : List Message) (text : String) :
    accepted interp (messages ++ [⟨"user",text⟩]) = accepted interp messages := by
  have told : accepted interp [⟨"user",text⟩] = [] := by
    refine accepted_talk fun message inside => ?_
    rw [List.mem_singleton.mp inside]
  rw [accepted_append,told,List.append_nil]

theorem accepted_refused {content message stage candidate : String}
    (read : parse_action interp content = .error (.JsonGateError message stage candidate)) :
    accepted interp [⟨"assistant",content⟩] = [] := by
  simp [accepted,read,Except.toOption]

/-- A step of a ledger: one more action. -/
structure Steps (interp : Interpreter) (l l' : Ledger) (action : Fields) : Prop where
  counted : l'.budget.steps = l.budget.steps + 1
  accepted : accepted interp l'.messages = ChildRuns.accepted interp l.messages ++ [action]
  last : l'.action = some action
  running : l'.status = l.status
  tidy : Tidy (.dict action)
  left : l.budget.steps < l.budget.max_steps
  going : l'.next ≠ none

/-- A move is a step, or the count and the actions stay. -/
theorem moves_steps (sound : Sound l) (moved : Moves interp l l') :
    l'.budget.steps = l.budget.steps ∧ accepted interp l'.messages = accepted interp l.messages ∨
      ∃ action, Steps interp l l' action := by
  cases moved with
  | spent payload next past => exact .inl ⟨rfl,rfl⟩
  | admitted next left => exact .inl ⟨rfl,rfl⟩
  | gaveUp args payload content message stage candidate next read past =>
    exact .inl ⟨rfl,by rw [accepted_append,accepted_refused read,List.append_nil]⟩
  | retried args payload content message stage candidate next read left =>
    refine .inl ⟨rfl,?_⟩
    have split : l.messages ++ [⟨"assistant",content⟩,⟨"user",build_retry_message stage⟩] =
        (l.messages ++ [⟨"assistant",content⟩]) ++ [⟨"user",build_retry_message stage⟩] := by simp
    rw [split,accepted_user,accepted_append,accepted_refused read,List.append_nil]
  | acted args payload action content more next read talk =>
    refine .inr ⟨action,rfl,?_,rfl,rfl,action_tidy read,sound.step next,nofun⟩
    have one : accepted interp [⟨"assistant",content⟩] = [action] := by
      simp [accepted,read,Except.toOption]
    rw [accepted_append,← List.singleton_append,accepted_append,one,accepted_talk talk]
    rfl
  | repeated payload key next keyed past => exact .inl ⟨rfl,rfl⟩
  | executed key text next keyed left => exact .inl ⟨rfl,accepted_user ..⟩
  | undelegated next => exact .inl ⟨rfl,rfl⟩
  | delegated text next => exact .inl ⟨rfl,accepted_user ..⟩
  | blocked payload text next good => exact .inl ⟨rfl,accepted_user ..⟩
  | finished payload payload' next => exact .inl ⟨rfl,rfl⟩
  | failed payload payload' next => exact .inl ⟨rfl,rfl⟩

variable {start : Ledger} {trail : List (NodeName × Ledger)}

/-- The count of steps is that of the actions. -/
theorem run_counts (sound : Sound start) (zero : start.budget.steps = (accepted interp start.messages).length)
    (run : Run interp start trail l) : l.budget.steps = (accepted interp l.messages).length := by
  induction run with
  | start => exact zero
  | move run next moved ih =>
    rcases moves_steps (run_sound sound run) moved with ⟨counted,same⟩ | ⟨action,steps⟩
    · rw [counted,same]
      exact ih
    · rw [steps.counted,steps.accepted,List.length_append,ih]
      rfl

end

/-! ### One observation -/

mutual
theorem tidy_objects : ∀ v : PyVal, Tidy v → PyVal.objects v = []
  | .list items,tidy => allTidy_objects items tidy
  | .dict fields,tidy => fieldsTidy_objects fields tidy.2
  | .null,_ | .bool _,_ | .int _,_ | .float _,_ | .str _,_ => rfl
  | .tuple _,tidy | .object _,tidy => tidy.elim
theorem allTidy_objects : ∀ items : List PyVal, AllTidy items → objectsOf items = []
  | [],_ => rfl
  | v :: rest,tidy => by
    rw [objectsOf,tidy_objects v tidy.1,allTidy_objects rest tidy.2]
    rfl
theorem fieldsTidy_objects : ∀ fields : Fields, FieldsTidy fields → objectsIn fields = []
  | [],_ => rfl
  | (k,v) :: rest,tidy => by
    rw [objectsIn,tidy_objects v tidy.1,fieldsTidy_objects rest tidy.2]
    rfl
end

section
variable {σ ω : Type} {manager : DelegationManager σ} {request : DelegationRequest} {child : KernelSession}
  {values : AgentState} {feed : Feed} {kept : Budget} {w w' : Realm σ}

theorem observe_still (counted : values.budget = budget_to_dict kept) (done : kept.steps ≤ feed.emitted_step) :
    (observe manager request child values feed).run w = (.ok feed,w) := by
  unfold observe
  rw [budgeted counted,lift_ok,bind_run_ok (pure_run kept w),if_pos done]
  rfl

/-- The record of a step. -/
def stepRecord (request : DelegationRequest) (artifact_id event_id : String) (step : Int) (action : Fields) :
    DelegationProgress where
  delegation_id := request.delegation_id
  sequence := step
  event_id
  artifact := { artifact_id, kind := "agent_step", payload := stepPayload step action "running" }

theorem record_objects (artifact_id event_id : String) (step : Int) {action : Fields} (tidy : Tidy (.dict action)) :
    objectsIn (progressFields child (stepRecord request artifact_id event_id step action)) = [] := by
  refine objectsIn_merge (event_fields_objects child) ?_
  have plain : objectsIn action = [] := fieldsTidy_objects action tidy.2
  simp [objectsIn,PyVal.objects,ArtifactEnvelope.as_dict,stepRecord,stepPayload,plain]

/-- The next record of a delegation is stored and published. -/
theorem sink_stores {record : DelegationProgress} {items : List DelegationProgress}
    (mine : record.delegation_id = request.delegation_id) (few : record.sequence ≤ request.policy.max_steps)
    (there : w.store.recorded.get record.delegation_id = some items)
    (new : ∀ item ∈ items, item.event_id ≠ record.event_id) (next : record.sequence = items.length + 1)
    (plain : objectsIn (progressFields child record) = []) :
    (progress_sink manager request child record).run w = (.ok (),{ w with
      store := w.store.recording record items there next new
      shared := w.shared.published "delegation.progress" (progressFields child record) }) := by
  unfold progress_sink
  rw [if_neg (not_not.mpr mine),if_neg (not_lt.mpr few),bind_run_ok (stored_ok (append_next there new next))]
  exact plain_published plain

/-- The first step after the ones that were reported is reported, and its record stored. -/
theorem observe_step {action : Fields} (counted : values.budget = budget_to_dict kept)
    (last : values.last_action = some action) (running : values.status = "running") (tidy : Tidy (.dict action))
    (known : w.store.Started request.delegation_id)
    (all : feed.artifacts.length = (w.store.progress request.delegation_id).length)
    (emitted : feed.emitted_step = feed.artifacts.length) (next : kept.steps = feed.emitted_step + 1)
    (few : kept.steps ≤ request.policy.max_steps)
    (new : ∀ item ∈ w.store.progress request.delegation_id, item.event_id ≠ manager.kernel.host.hex (w.shared.draws + 1)) :
    ∃ record w', record = stepRecord request (manager.kernel.host.hex w.shared.draws)
        (manager.kernel.host.hex (w.shared.draws + 1)) kept.steps action ∧
      (observe manager request child values feed).run w = (.ok ⟨kept.steps,feed.artifacts ++ [record.artifact]⟩,w') ∧
      w'.store.Started request.delegation_id ∧ w'.shared.draws = w.shared.draws + 2 ∧
      w'.store.progress request.delegation_id = w.store.progress request.delegation_id ++ [record] := by
  obtain ⟨items,there⟩ : ∃ items, w.store.recorded.get request.delegation_id = some items :=
    Dicts.Dict.get_of_mem_keys (by rw [w.store.opened]; exact known)
  have recorded : w.store.progress request.delegation_id = items := by
    rw [InMemoryDelegationStore.progress,there]
    rfl
  rw [recorded] at all new ⊢
  have sequence : (feed.artifacts.length : Int) + 1 = kept.steps := by omega
  have following : kept.steps = items.length + 1 := by omega
  let record := stepRecord request (manager.kernel.host.hex w.shared.draws)
    (manager.kernel.host.hex (w.shared.draws + 1)) kept.steps action
  -- the two identifiers are drawn before the record is sent
  let once : Realm σ := { w with shared := { w.shared with draws := w.shared.draws + 1 } }
  let twice : Realm σ := { w with shared := { w.shared with draws := w.shared.draws + 2 } }
  let after : Realm σ := { twice with
    store := w.store.recording record items there following new
    shared := twice.shared.published "delegation.progress" (progressFields child record) }
  have sunk : (progress_sink manager request child record).run twice = (.ok (),after) :=
    sink_stores rfl few there new following (record_objects _ _ _ tidy)
  refine ⟨record,after,rfl,?_,?_,rfl,?_⟩
  · unfold observe
    rw [budgeted counted,lift_ok,bind_run_ok (pure_run kept w),if_neg (by omega)]
    have first : (onShared (draw manager.kernel)).run w = (.ok (manager.kernel.host.hex w.shared.draws),once) := rfl
    have second : (onShared (draw manager.kernel)).run once = (.ok (manager.kernel.host.hex (w.shared.draws + 1)),twice) := rfl
    rw [bind_run_ok first]
    dsimp only
    rw [bind_run_ok second,last,running,sequence]
    exact bind_run_ok sunk
  · exact known
  · exact (InMemoryDelegationStore.progress_recording there following new _).trans (if_pos rfl)

end

/-! ### The stream -/

/-- What a record tells of its step, and what it tells of the `i`-th action. -/
def told (record : DelegationProgress) : String × Int × ProgressStatus × String × Fields :=
  (record.delegation_id,record.sequence,record.status,record.artifact.kind,record.artifact.payload)
def tale (request : DelegationRequest) (i : Nat) (action : Fields) : String × Int × ProgressStatus × String × Fields :=
  (request.delegation_id,i + 1,.running,"agent_step",stepPayload (i + 1) action "running")

section
variable {σ ω : Type} (manager : DelegationManager σ) (request : DelegationRequest) (child : KernelSession)

/-- The start of the agent: a run over the child session with the allowance of the policy and without a service for
    further delegations, and a delegation that was started and has no record yet. -/
structure Launched (start : Position ω) (task : TaskEnvelope) (w₀ : Realm σ) : Prop where
  begins : Begins start task (opening request) (allowance request) none
  session : start.desk.session = child
  alone : start.desk.services.delegation_service = none
  known : w₀.store.Started request.delegation_id
  unrecorded : w₀.store.progress request.delegation_id = []

/-- What was reported up to a state: one record for each action, in order. -/
structure Fed (interp : Interpreter) (p : Position ω) (feed : Feed) (w : Realm σ) : Prop where
  emitted : feed.emitted_step = (accepted interp p.state.messages).length
  artifacts : feed.artifacts = (w.store.progress request.delegation_id).map DelegationProgress.artifact
  records : (w.store.progress request.delegation_id).map told = (accepted interp p.state.messages).mapIdx (tale request)
  known : w.store.Started request.delegation_id
  drawn : ∀ record ∈ w.store.progress request.delegation_id,
    (∃ n < w.shared.draws, record.event_id = manager.kernel.host.hex n) ∧
      ∃ n < w.shared.draws, record.artifact.artifact_id = manager.kernel.host.hex n
  distinct : ((w.store.progress request.delegation_id).map fun record => record.artifact.artifact_id).Nodup

variable {manager request child} {start p p' : Position ω} {task : TaskEnvelope} {w₀ w w' : Realm σ} {feed : Feed}
  {trail : List (NodeName × AgentState)} {interp : Interpreter}

theorem Fed.length (fed : Fed manager request interp p feed w) :
    (w.store.progress request.delegation_id).length = (accepted interp p.state.messages).length := by
  simpa using congrArg List.length fed.records

theorem Fed.meanwhile (fed : Fed manager request interp p feed w) (during : Meanwhile request w w') :
    Fed manager request interp p feed w' := by
  have drawn := fed.drawn
  have later : w.shared.draws ≤ w'.shared.draws := during.onward.1.2
  refine ⟨fed.emitted,?_,?_,during.known fed.known,?_,?_⟩
  · rw [during.records]
    exact fed.artifacts
  · rw [during.records]
    exact fed.records
  · rw [during.records]
    intro record inside
    obtain ⟨⟨m,less,event⟩,n,less',artifact⟩ := drawn record inside
    exact ⟨⟨m,less.trans_le later,event⟩,n,less'.trans_le later,artifact⟩
  · rw [during.records]
    exact fed.distinct

/-- A state with the same actions. -/
theorem Fed.still (fed : Fed manager request interp p feed w)
    (same : accepted interp p'.state.messages = accepted interp p.state.messages) :
    Fed manager request interp p' feed w := by
  refine ⟨?_,fed.artifacts,?_,fed.known,fed.drawn,fed.distinct⟩
  · rw [same]
    exact fed.emitted
  · rw [same]
    exact fed.records

/-- A state with one more action, which was reported. -/
theorem Fed.step (fed : Fed manager request interp p feed w) {action : Fields} {record : DelegationProgress}
    (more : accepted interp p'.state.messages = accepted interp p.state.messages ++ [action])
    (made : record = stepRecord request (manager.kernel.host.hex w.shared.draws)
      (manager.kernel.host.hex (w.shared.draws + 1)) ((accepted interp p.state.messages).length + 1) action)
    (known : w'.store.Started request.delegation_id) (draws : w'.shared.draws = w.shared.draws + 2)
    (grown : w'.store.progress request.delegation_id = w.store.progress request.delegation_id ++ [record]) :
    Fed manager request interp p' ⟨(accepted interp p.state.messages).length + 1,feed.artifacts ++ [record.artifact]⟩ w' := by
  refine ⟨?_,?_,?_,known,?_,?_⟩
  · rw [more,List.length_append]
    rfl
  · rw [grown,List.map_append,fed.artifacts]
    rfl
  · rw [grown,more,List.map_append,List.mapIdx_append,fed.records,made]
    simp [told,tale,stepRecord]
  · rw [grown]
    intro other inside
    rcases List.mem_append.mp inside with before | here
    · obtain ⟨⟨m,less,event⟩,n,less',artifact⟩ := fed.drawn other before
      exact ⟨⟨m,by omega,event⟩,n,by omega,artifact⟩
    · rw [List.mem_singleton.mp here,made]
      exact ⟨⟨w.shared.draws + 1,by omega,rfl⟩,w.shared.draws,by omega,rfl⟩
  · rw [grown,List.map_append,made]
    refine fed.distinct.append (List.nodup_singleton _) ?_
    intro id before here
    obtain ⟨other,inside,rfl⟩ := List.mem_map.mp before
    obtain ⟨-,n,less,artifact⟩ := fed.drawn other inside
    have same : manager.kernel.host.hex n = manager.kernel.host.hex w.shared.draws := by
      rw [← artifact]
      exact List.mem_singleton.mp here
    have := manager.kernel.host.hex_injective _ _ same
    omega

theorem streams_reaches {resumable : Prop} (streamed : Streams manager request child start w₀ trail p feed w) :
    Reaches resumable start trail p := by
  induction streamed with
  | input ran => exact .start
  | node streamed next moved during ran ih => exact ih.visit next moved

/-- What a reached position says of its ledger. -/
structure Tracked (start : Position ω) (request : DelegationRequest) (task : TaskEnvelope) (p : Position ω)
    (kept : Budget) : Prop where
  stands : Stands p kept task
  reader : p.desk.services.interp = start.desk.services.interp
  sound : Sound (ledger p kept)
  accounted : Accounted (allowance request) (ledger p kept)
  lives : Lives (ledger p kept)
  counted : kept.steps = (accepted start.desk.services.interp p.state.messages).length

/-- Whatever the policy, repeats and unread outputs have their usual limits. -/
theorem allowance_usual (request : DelegationRequest) :
    0 ≤ (allowance request).max_same_tool_calls ∧ 0 ≤ (allowance request).max_parse_errors := by
  have usual : (0 : Int) ≤ 3 := by decide
  exact ⟨usual,usual⟩

theorem launched_accepts (launched : Launched request child start task w₀) :
    accepted interp start.state.messages = [] := by
  have made := launched.begins.state
  unfold new_agent_state at made
  rw [launched.begins.assigned] at made
  rw [← Except.ok.inj made]
  rfl

theorem tracked (launched : Launched request child start task w₀) (allowed : 0 ≤ request.policy.max_steps)
    (reached : Reaches False start trail p) : ∃ kept, Tracked start request task p kept := by
  obtain ⟨kept,ledgers,run,stands,reader,-⟩ := reaches_run launched.begins reached
  have sound : Sound (ledger start (allowance request)) := fresh_sound launched.begins.next ⟨rfl,rfl,rfl⟩
  have accounted : Accounted (ledger start (allowance request)).budget (ledger start (allowance request)) :=
    fresh_accounted launched.begins.next ⟨rfl,rfl,rfl⟩ launched.begins.idle allowed (allowance_usual request).1
  refine ⟨kept,stands,reader,run_sound sound run,run_accounted sound accounted run,
    run_lives (begins_lives launched.begins) run,run_counts sound ?_ run⟩
  show (0 : Int) = (accepted _ start.state.messages).length
  rw [launched_accepts launched]
  rfl

/-- Every state after a node is observed without an exception. -/
theorem observed (launched : Launched request child start task w₀) (allowed : 0 ≤ request.policy.max_steps)
    (reached : Reaches False start trail p) (fed : Fed manager request start.desk.services.interp p feed w) {node : NodeName}
    (next : p.next = some node) (moved : visit node p = .ok p') :
    ∃ feed' w', (observe manager request child p'.state feed).run w = (.ok feed',w') ∧
      Fed manager request start.desk.services.interp p' feed' w' := by
  obtain ⟨kept,tracked⟩ := tracked launched allowed reached
  obtain ⟨kept',moves,stands',-⟩ := visit_moves tracked.stands next moved
  rw [tracked.reader] at moves
  have emitted : feed.emitted_step = kept.steps := fed.emitted.trans tracked.counted.symm
  rcases moves_steps tracked.sound moves with ⟨counted,same⟩ | ⟨action,steps⟩
  · have counted : kept'.steps = kept.steps := counted
    exact ⟨feed,w,observe_still stands'.counted (by omega),fed.still same⟩
  · have counted : kept'.steps = kept.steps + 1 := steps.counted
    have running : p'.state.status = "running" :=
      steps.running.trans (tracked.lives.going (by rw [show (ledger p kept).next = _ from next]; simp)).running
    have few : kept'.steps ≤ request.policy.max_steps := (moves_accounted tracked.sound tracked.accounted moves).steps
    have length : feed.artifacts.length = (w.store.progress request.delegation_id).length := by
      rw [fed.artifacts,List.length_map]
    have all : feed.emitted_step = feed.artifacts.length := by
      rw [fed.emitted,length,fed.length]
    have new : ∀ item ∈ w.store.progress request.delegation_id,
        item.event_id ≠ manager.kernel.host.hex (w.shared.draws + 1) := by
      intro item inside same
      obtain ⟨⟨n,less,event⟩,-⟩ := fed.drawn item inside
      have := manager.kernel.host.hex_injective _ _ (event.symm.trans same)
      omega
    obtain ⟨record,w',made,ran,known,draws,grown⟩ := observe_step stands'.counted steps.last running steps.tidy fed.known
      length all (by omega) few new
    have steps' : kept'.steps = (accepted start.desk.services.interp p.state.messages).length + 1 := by
      rw [counted,tracked.counted]
    rw [steps'] at made ran
    exact ⟨_,w',ran,fed.step steps.accepted made known draws grown⟩

theorem input_observed (launched : Launched request child start task w₀) :
    (observe manager request child start.state {}).run w₀ = (.ok {},w₀) ∧
      Fed manager request start.desk.services.interp start {} w₀ := by
  have counted := (begins_stands launched.begins).counted
  refine ⟨observe_still counted (le_refl _),?_,?_,?_,launched.known,?_,?_⟩
  · rw [launched_accepts launched]
    rfl
  · rw [launched.unrecorded]
    rfl
  · rw [launched.unrecorded,launched_accepts launched]
    rfl
  · rw [launched.unrecorded]
    exact fun record inside => by cases inside
  · rw [launched.unrecorded]
    exact List.nodup_nil

theorem streams_fed (launched : Launched request child start task w₀) (allowed : 0 ≤ request.policy.max_steps)
    (streamed : Streams manager request child start w₀ trail p feed w) :
    Fed manager request start.desk.services.interp p feed w := by
  induction streamed with
  | input ran =>
    obtain ⟨observed,fed⟩ : (observe manager request child start.state {}).run w₀ = _ ∧ _ := input_observed launched
    cases observed.symm.trans ran
    exact fed
  | node streamed next moved during ran ih =>
    obtain ⟨feed',w',observed,fed⟩ := observed launched allowed (streams_reaches streamed) (ih.meanwhile during) next moved
    cases observed.symm.trans ran
    exact fed

/-- Every run in which no node raises is streamed: no observation stops it. -/
theorem reaches_streams (launched : Launched request child start task w₀) (allowed : 0 ≤ request.policy.max_steps)
    (reached : Reaches False start trail p) : ∃ feed w, Streams manager request child start w₀ trail p feed w := by
  induction reached with
  | start => exact ⟨_,_,.input (input_observed launched).1⟩
  | visit reached next moved ih =>
    obtain ⟨feed,w,streamed⟩ := ih
    obtain ⟨feed',w',ran,-⟩ := observed launched allowed reached (streams_fed launched allowed streamed) next moved
    exact ⟨feed',w',streamed.node next moved ⟨le_refl w,id,rfl⟩ ran⟩
  | resume services world resumable reached next running reader restored ih => exact resumable.elim

theorem launched_within (launched : Launched request child start task w₀) (allowed : 0 ≤ request.policy.max_steps)
    (reached : Reaches False start trail p) : Within (allowance request) trail p := by
  exact reaches_within launched.begins ⟨rfl,rfl,rfl⟩ allowed (allowance_usual request).1 reached

/-- The agent needs no more nodes than it configures. -/
theorem streams_fit (launched : Launched request child start task w₀) (allowed : 0 ≤ request.policy.max_steps)
    (streamed : Streams manager request child start w₀ trail p feed w) :
    Fits (compat_limit request.policy.max_steps) trail p := by
  exact (launched_within launched allowed (streams_reaches streamed)).fits
    ((limit_covers allowed (allowance_usual request).2).2 rfl)

theorem streams_end (launched : Launched request child start task w₀) (allowed : 0 ≤ request.policy.max_steps)
    (smooth : Unraised start) :
    ∃ trail p feed w, Streams manager request child start w₀ trail p feed w ∧ p.next = none := by
  have bounded : ∀ trail p, Reaches False start trail p →
      trail.length ≤ (3 * (allowance request).max_steps + 2 * max 1 (allowance request).max_parse_errors + 2).toNat := by
    intro trail p reached
    have nodes := (launched_within launched allowed reached).nodes
    omega
  obtain ⟨trail,p,reached,ended⟩ := reaches_end bounded smooth
  obtain ⟨feed,w,streamed⟩ := reaches_streams launched allowed reached
  exact ⟨trail,p,feed,w,streamed,ended⟩

/-- A result with the artifacts of the records is merged as it is. -/
theorem merged_own {progress : List DelegationProgress} {result : DelegationResult}
    (mine : result.delegation_id = request.delegation_id) (asked : result.parent_task_id = request.parent_task_id)
    (same : result.artifacts = progress.map DelegationProgress.artifact) : merged request progress result = .ok result := by
  have none : result.artifacts.filter (fun artifact => artifact.artifact_id ∉
      result.artifacts.map ArtifactEnvelope.artifact_id) = [] := by
    refine List.filter_eq_nil_iff.mpr fun artifact inside wrong => ?_
    exact of_decide_eq_true wrong (List.mem_map_of_mem inside)
  unfold merged
  rw [if_neg (not_not.mpr mine),if_neg (not_not.mpr asked)]
  simp only [← same,none,List.append_nil]

/-- The records of a delegation: one for each action, in order, as many as the child counts steps, no more than its
    policy allows, and with artifacts of their own. -/
structure Reported (request : DelegationRequest) (interp : Interpreter) (p : Position ω) (feed : Feed) (w : Realm σ) :
    Prop where
  records : (w.store.progress request.delegation_id).map told = (accepted interp p.state.messages).mapIdx (tale request)
  steps : ∃ kept, budget_from_state p.state = .ok kept ∧
    kept.steps = (w.store.progress request.delegation_id).length ∧ kept.steps ≤ request.policy.max_steps
  artifacts : feed.artifacts = (w.store.progress request.delegation_id).map DelegationProgress.artifact
  distinct : ((w.store.progress request.delegation_id).map fun record => record.artifact.artifact_id).Nodup

/-- What the manager starts and assigns, the agent launches on an open session of its own. -/
theorem manager_launches {parent_session child_session : Nat} {parent : KernelSession} {handler : DelegationPort σ}
    {before w₁ : Realm σ} {services : Services ω} {world : ω}
    (announced : (started manager parent request).run (Conclusions.Realm.drew before) = (.ok (),w₁))
    (assignment : (assigned manager parent_session request).run w₁ = (.ok (handler,child_session),w₀))
    (created : w₀.sessions[child_session]? = some child) (launched : launch request child services world = .ok start) :
    ∃ task, Launched request child start task w₀ := by
  have new : request.delegation_id ∉ before.store.requests.keys := by
    intro there
    have there' : request.delegation_id ∈ (Conclusions.Realm.drew before).store.requests.keys := there
    obtain ⟨exc,refused⟩ := started_refused there'
    cases refused.symm.trans announced
  cases (started_run new).symm.trans announced
  have unrecorded : (Conclusions.Realm.opened before parent request new).store.progress request.delegation_id = [] :=
    opened_progress new
  rcases assigned_cases parent_session with ⟨exc,raised⟩ | ⟨handler',creator,-,-,-,ran⟩
  · cases raised.symm.trans assignment
  · cases ran.symm.trans assignment
    have last := created
    rw [Realm.enrolled,List.getElem?_concat_length] at last
    cases last
    unfold launch at launched
    obtain ⟨state,made,done⟩ := bind_ok_iff.mp launched
    cases done
    let task_id := manager.kernel.host.hex (Conclusions.Realm.opened before parent request new).shared.draws
    refine ⟨childTask creator.identity task_id request.delegation_id request.spec.objective request.spec.input_context,
      ⟨rfl,made,?_,rfl,?_,rfl,rfl⟩,rfl,rfl,?_,?_⟩
    · exact (Dicts.get_put_other (by decide) _ _).trans (Dicts.get_put_self ..)
    · exact manager.kernel.host.hex_nonempty _
    · exact Dicts.Dict.mem_keys_put.mpr (.inl rfl)
    · exact unrecorded

/-- Under a policy in force the agent reports every action of the child once, in order, no report is refused, and the
    nodes of the run are within the limit that it configures. A run in which no node raises comes to its end; there the
    result keeps its artifacts when the manager merges the records into it: they are those of the records. -/
theorem one_record_for_each_action {parent_session child_session : Nat} {parent : KernelSession} {policy : DelegationPolicy}
    {handler : DelegationPort σ} {before w₁ : Realm σ} {services : Services ω} {world : ω}
    (validated : manager.policy.validate parent policy = .ok request.policy)
    (announced : (started manager parent request).run (Conclusions.Realm.drew before) = (.ok (),w₁))
    (assignment : (assigned manager parent_session request).run w₁ = (.ok (handler,child_session),w₀))
    (created : w₀.sessions[child_session]? = some child) (launched : launch request child services world = .ok start) :
    (∃ feed w, (observe manager request child start.state {}).run w₀ = (.ok feed,w)) ∧
    (∀ trail p feed w, Streams manager request child start w₀ trail p feed w →
      Reported request start.desk.services.interp p feed w ∧ Fits (compat_limit request.policy.max_steps) trail p ∧
      (∀ node p' w', p.next = some node → visit node p = .ok p' → Meanwhile request w w' →
        ∃ feed' w'', (observe manager request child p'.state feed).run w' = (.ok feed',w'')) ∧
      (p.next = none → ∃ result, resultOf request child p.state feed.artifacts = .ok result ∧
        merged request (w.store.progress request.delegation_id) result = .ok result ∧
        result.artifacts = (w.store.progress request.delegation_id).map DelegationProgress.artifact)) ∧
    (Unraised start → ∃ trail p feed w, Streams manager request child start w₀ trail p feed w ∧ p.next = none) := by
  obtain ⟨task,launched⟩ := manager_launches announced assignment created launched
  obtain ⟨⟨least,-⟩,-,-,-,active⟩ := validate_ok_iff.mp validated
  have allowed : 0 ≤ request.policy.max_steps := by
    rw [active]
    exact le_trans (by decide) least
  refine ⟨⟨_,_,(input_observed launched).1⟩,fun trail p feed w streamed => ?_,streams_end launched allowed⟩
  have fed := streams_fed launched allowed streamed
  obtain ⟨kept,tracked⟩ := tracked launched allowed (streams_reaches streamed)
  have counted := budgeted tracked.stands.counted
  refine ⟨⟨fed.records,⟨kept,counted,?_,tracked.accounted.steps⟩,fed.artifacts,fed.distinct⟩,
    streams_fit launched allowed streamed,?_,fun ended => ?_⟩
  · rw [tracked.counted,fed.length]
  · intro node p' w' next moved during
    obtain ⟨feed',w'',ran,-⟩ := observed launched allowed (streams_reaches streamed) (fed.meanwhile during) next moved
    exact ⟨feed',w'',ran⟩
  · exact ⟨_,bind_ok_iff.mpr ⟨kept,counted,rfl⟩,merged_own rfl rfl fed.artifacts,fed.artifacts⟩

end
/-! ### A delegated errand -/

section
variable {σ ω : Type} (manager : DelegationManager σ) (request : DelegationRequest) (child : KernelSession)

/-- Stream up to this many nodes while nothing else happens. -/
def stream : Nat → List (NodeName × AgentState) → Position ω → Feed → Realm σ →
    Option (List (NodeName × AgentState) × Position ω × Feed × Realm σ)
  | 0,trail,p,feed,w => some (trail,p,feed,w)
  | n+1,trail,p,feed,w =>
    match p.next with
    | none => some (trail,p,feed,w)
    | some node =>
      match visit node p with
      | .error _ => none
      | .ok p' =>
        match (observe manager request child p'.state feed).run w with
        | (.ok feed',w') => stream n (trail ++ [(node,p'.state)]) p' feed' w'
        | (.error _,_) => none

variable {manager request child} {start p last : Position ω} {w₀ w w' : Realm σ} {feed feed' : Feed}
  {trail more : List (NodeName × AgentState)}

theorem stream_streams {n : Nat} (streamed : Streams manager request child start w₀ trail p feed w)
    (ran : stream manager request child n trail p feed w = some (more,last,feed',w')) :
    Streams manager request child start w₀ more last feed' w' := by
  induction n generalizing trail p feed w with
  | zero =>
    cases ran
    exact streamed
  | succ n ih =>
    rw [stream] at ran
    rcases next : p.next with _ | node
    · rw [next] at ran
      cases ran
      exact streamed
    · rw [next] at ran
      rcases moved : visit node p with exc | p'
      · simp only [moved] at ran
        cases ran
      · simp only [moved] at ran
        rcases observed : (observe manager request child p'.state feed).run w with ⟨stop | further,later⟩
        · simp only [observed] at ran
          cases ran
        · simp only [observed] at ran
          exact ih (streamed.node next moved ⟨le_refl w,id,rfl⟩ observed) ran

end

def errandPolicy : DelegationPolicy := { max_steps := 2 }

def errandRequest : DelegationRequest where
  delegation_id := "delegation"
  parent_session_id := "visitor"
  parent_task_id := "t0"
  target := "agent:survey"
  spec := { objective := "greet" }
  policy := { errandPolicy with allowed_capabilities := visitor.allowed_capabilities }

theorem errand_new : errandRequest.delegation_id ∉ lobby.store.requests.keys := by decide

/-- The lobby with the delegation of the errand. -/
def errandOpened : Realm Unit := Conclusions.Realm.opened lobby visitor errandRequest errand_new

def errandChild : KernelSession := assignedChild surveying.kernel errandOpened visitor errandRequest

def errandRealm : Realm Unit := errandOpened.enrolled errandChild 2

/-- A run of the errand up to so many nodes, and what is looked at. -/
def errandSeen {α : Type} (texts : List String) (look : Position Nat → Realm Unit → α) (n : Nat) : Option α :=
  (launch errandRequest errandChild (speaking texts) 0).toOption.bind fun start =>
    (stream surveying errandRequest errandChild n [] start {} errandRealm).map fun out => look out.2.1 out.2.2.2

/-- A tool and then a final action: two steps, two records. -/
theorem errand_reported : ∃ (start p : Position Nat) (feed : Feed) (w : Realm Unit),
    launch errandRequest errandChild (speaking [greetTool,"",greetFinal]) 0 = .ok start ∧ p.next = none ∧
    Reported errandRequest start.desk.services.interp p feed w ∧
    (w.store.progress "delegation").map DelegationProgress.sequence = [1,2] := by
  have run : errandSeen [greetTool,"",greetFinal]
      (fun p w => (p.next,(w.store.progress "delegation").map DelegationProgress.sequence)) 12 = some (none,[1,2]) := by
    decide +kernel
  obtain ⟨start,made,ran⟩ := Option.bind_eq_some_iff.mp run
  obtain ⟨⟨trail,p,feed,w⟩,ran,seen⟩ := Option.map_eq_some_iff.mp ran
  obtain ⟨ended,numbers⟩ := Prod.mk.inj seen
  have launched : launch errandRequest errandChild (speaking [greetTool,"",greetFinal]) 0 = .ok start := by
    rcases outcome : launch errandRequest errandChild (speaking [greetTool,"",greetFinal]) 0 with exc | begun
    · rw [outcome] at made
      cases made
    · rw [outcome] at made
      cases made
      rfl
  have validated : surveying.policy.validate visitor errandPolicy = .ok errandRequest.policy := by decide
  have announced : (started surveying visitor errandRequest).run (Conclusions.Realm.drew lobby) = (.ok (),errandOpened) :=
    started_run errand_new
  have assignment : (assigned surveying 0 errandRequest).run errandOpened = (.ok (surveyor,1),errandRealm) :=
    assigned_run rfl rfl rfl (Finset.Subset.refl _)
  have created : errandRealm.sessions[1]? = some errandChild := rfl
  obtain ⟨-,reports,-⟩ := one_record_for_each_action validated announced assignment created launched
  obtain ⟨task,begun⟩ := manager_launches announced assignment created launched
  have streamed : Streams surveying errandRequest errandChild start errandRealm trail p feed w :=
    stream_streams (.input (input_observed begun).1) ran
  exact ⟨start,p,feed,w,launched,ended,(reports trail p feed w streamed).1,numbers⟩

end HexAgent.ChildRuns
