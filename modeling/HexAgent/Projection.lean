import HexAgent.Lifecycle

/-!
The projection of a run for the user interface: the JSON checkpoint of its state, and the status that
the interface shows for it. The graph and the interface decide apart whether a run failed, one from
the action it parsed last, the other from the messages.
-/
namespace HexAgent.Projection
open HexAgent.Values HexAgent.Json HexAgent.JsonGate HexAgent.Schemas HexAgent.Budgets HexAgent.Sessions
open HexAgent.GraphState HexAgent.AgentGraph HexAgent.Ledgers HexAgent.AgentRuns HexAgent.RunBounds HexAgent.Lifecycle
open HexAgent.Documents (Refusal)
open HexAgent.Board (throughFields_cons throughItems_stable)
open HexAgent.Conversions (bind_ok_iff)
open HexAgent.Events (lower)

/-! ### The checkpoint -/

structure Checkpoint where
  run_id : String
  task : String
  messages : List Message
  budget : Fields
  state : StateStore
  step : Int
  status : String
  backend : String
  schema_version : Int := 2

/-- What is kept under a key, with a task as its instance. -/
def StateItem.toVal : StateItem → PyVal
  | .task task => .object ⟨"TaskEnvelope",task.user_request,true⟩
  | .value v => v

/-- A session state with its task as primitives. -/
def _encode_state (state : StateStore) : Fields := (encode_session_state state).map fun entry => (entry.1,StateItem.toVal entry.2)

def Checkpoint.to_json (checkpoint : Checkpoint) : Fields :=
  [("run_id",.str checkpoint.run_id),("task",.str checkpoint.task),
    ("messages",.list (checkpoint.messages.map fun message => .dict message.as_dict)),
    ("budget",.dict checkpoint.budget),("state",.dict (_encode_state checkpoint.state)),("step",.int checkpoint.step),
    ("status",.str checkpoint.status),("backend",.str checkpoint.backend),
    ("schema_version",.int checkpoint.schema_version)]

def Checkpoint.from_graph_state (hex : String) (state : AgentState) : Except PyError Checkpoint := do
  let raw := if state.session_state = [] then state.kernel_state else state.session_state
  let decoded ← decode_session_state hex raw
  let step ← (state.budget.getD "steps" (.int 0)).toInt
  .ok {
    run_id := state.run_id
    task := state.task
    messages := state.messages
    budget := state.budget
    state := decoded
    step
    status := orText state.status "running"
    backend := "langgraph" }

/-- The JSON of a checkpoint as it is read again. -/
def projection (hex : String) (state : AgentState) : Except PyError Fields := do
  let checkpoint ← Checkpoint.from_graph_state hex state
  throughFields checkpoint.to_json

/-! ### The status shown -/

section
variable (interp : Interpreter)

/-- The final action that was read, if it is one; a text that is no JSON is passed over. -/
def finalIn : Except PyError PyVal → Except PyError (Option Fields)
  | .ok (.dict action) => .ok (if Fields.get action "action" = .str "final" then some action else none)
  | .ok _ => .ok none
  | .error (.JSONDecodeError _) => .ok none
  | .error exc => .error exc

/-- `json.loads` of a content; what is no text is passed over. -/
def loaded : PyVal → Except PyError (Option Fields)
  | .str content => finalIn (loads interp content.toList)
  | _ => .ok none

/-- The final action that a raw message is, if it is one. -/
def finalOf : PyVal → Except PyError (Option Fields)
  | .dict raw =>
    if Fields.get raw "role" = .str "assistant" then loaded interp ((Fields.get raw "content").orElse (.str ""))
    else .ok none
  | _ => .ok none

/-- The first final action among raw messages. -/
def firstFinal : List PyVal → Except PyError (Option Fields)
  | [] => .ok none
  | raw :: rest => do
    match ← finalOf interp raw with
    | some action => .ok (some action)
    | none => firstFinal rest

/-- The newest final action of a checkpoint. -/
def _final_action (checkpoint : Fields) : Except PyError (Option Fields) := do
  let messages ← ((checkpoint.get "messages").orElse (.list [])).iter
  firstFinal interp messages.reverse

/-- The interface takes an action for a failure. -/
def Failing (action : Fields) : Prop := lower ((action.get "finish_reason").orElse (.str "")).text ∈ ["error","failed"]

instance : DecidablePred Failing := fun action =>
  inferInstanceAs (Decidable (lower ((action.get "finish_reason").orElse (.str "")).text ∈ ["error","failed"]))

def _effective_status (checkpoint : Fields) (status : String) : Except PyError String := do
  match ← _final_action interp checkpoint with
  | some action => .ok (if action ≠ [] ∧ Failing action then "failed" else status)
  | none => .ok status

/-! ### What the messages say -/

/-- The text of a message is JSON of a final action, without a fence or a repair. -/
def Final (message : Message) (action : Fields) : Prop :=
  message.role = "assistant" ∧ loads interp message.content.toList = .ok (.dict action) ∧ action.get "action" = .str "final"

/-- The text of a message makes the reader raise something else than its refusal. -/
def Breaks (message : Message) : Prop :=
  message.role = "assistant" ∧ ∃ exc, loads interp message.content.toList = .error exc ∧ ¬ Refusal exc

/-- The newest final action among the messages is a failure, for the interface. -/
def Misled (messages : List Message) : Prop := ∃ older message newer action, messages = older ++ message :: newer ∧
  Final interp message action ∧ Failing action ∧ ∀ later ∈ newer, ¬ ∃ action, Final interp later action

/-- Every message that breaks the reader is older than a final action. -/
def Legible (messages : List Message) : Prop := ∀ older message newer, messages = older ++ message :: newer →
  Breaks interp message → ∃ later ∈ newer, ∃ action, Final interp later action

variable {interp} {message : Message} {messages : List Message} {action other : Fields}

theorem Final.same (final : Final interp message action) (final' : Final interp message other) : action = other :=
  PyVal.dict.inj (Except.ok.inj (final.2.1.symm.trans final'.2.1))

theorem Final.some (final : Final interp message action) : action ≠ [] := by
  rintro rfl
  cases final.2.2

/-- How the interface reads a message. -/
theorem finalOf_message : finalOf interp (.dict message.as_dict) =
    if message.role = "assistant" then finalIn (loads interp message.content.toList) else .ok none := by
  have content : (Fields.get message.as_dict "content").orElse (.str "") = .str message.content := by
    show (PyVal.str message.content).orElse (.str "") = _
    unfold PyVal.orElse
    split
    · rfl
    · next empty => simpa [PyVal.truthy] using empty
  by_cases role : message.role = "assistant"
  · have role' : Fields.get message.as_dict "role" = .str "assistant" := congrArg PyVal.str role
    rw [finalOf,if_pos role',if_pos role,content,loaded]
  · have role' : Fields.get message.as_dict "role" ≠ .str "assistant" := fun same => role (PyVal.str.inj same)
    rw [finalOf,if_neg role',if_neg role]

theorem finalIn_some_iff {read : Except PyError PyVal} :
    finalIn read = .ok (some action) ↔ read = .ok (.dict action) ∧ action.get "action" = .str "final" := by
  constructor
  · intro found
    unfold finalIn at found
    split at found
    · split at found
      · next final =>
        cases found
        exact ⟨rfl,final⟩
      · cases found
    all_goals cases found
  · rintro ⟨rfl,final⟩
    exact congrArg Except.ok (if_pos final)

theorem finalIn_error_iff {read : Except PyError PyVal} :
    (∃ exc, finalIn read = .error exc) ↔ ∃ exc, read = .error exc ∧ ¬ Refusal exc := by
  unfold finalIn
  constructor
  · rintro ⟨exc,found⟩
    split at found
    · cases found
    · cases found
    · cases found
    · next exc' other =>
      refine ⟨exc',rfl,?_⟩
      rintro ⟨text,same⟩
      exact other text same
  · rintro ⟨exc,rfl,other⟩
    refine ⟨exc,?_⟩
    split
    · next same => cases same
    · next same => cases same
    · next same =>
      cases same
      exact (other ⟨_,rfl⟩).elim
    · next same =>
      cases same
      rfl

theorem finalOf_some_iff : finalOf interp (.dict message.as_dict) = .ok (some action) ↔ Final interp message action := by
  rw [finalOf_message]
  by_cases role : message.role = "assistant"
  · rw [if_pos role,finalIn_some_iff]
    exact (and_iff_right role).symm
  · rw [if_neg role]
    constructor
    · rintro ⟨⟩
    · rintro ⟨role',-⟩
      exact (role role').elim

theorem finalOf_error_iff : (∃ exc, finalOf interp (.dict message.as_dict) = .error exc) ↔ Breaks interp message := by
  rw [finalOf_message]
  by_cases role : message.role = "assistant"
  · rw [if_pos role,finalIn_error_iff]
    exact (and_iff_right role).symm
  · rw [if_neg role]
    constructor
    · rintro ⟨exc,⟨⟩⟩
    · rintro ⟨role',-⟩
      exact (role role').elim

theorem legible_nil : Legible interp [] := by
  intro older message newer split
  exact absurd (congrArg List.length split) (by simp)

theorem legible_snoc : Legible interp (messages ++ [message]) ↔
    (∃ action, Final interp message action) ∨ ¬ Breaks interp message ∧ Legible interp messages := by
  constructor
  · intro legible
    by_cases final : ∃ action, Final interp message action
    · exact .inl final
    · refine .inr ⟨fun breaks => ?_,fun older earlier newer split breaks => ?_⟩
      · obtain ⟨later,inside,-⟩ := legible messages message [] rfl breaks
        cases inside
      · obtain ⟨later,inside,found⟩ := legible older earlier (newer ++ [message]) (by rw [split]; simp) breaks
        rcases List.mem_append.mp inside with inside | last
        · exact ⟨later,inside,found⟩
        · rw [List.mem_singleton.mp last] at found
          exact (final found).elim
  · rintro either older earlier newer split breaks
    rcases List.eq_nil_or_concat newer with rfl | ⟨more,last,rfl⟩
    · obtain ⟨rfl,same⟩ := List.append_inj' split rfl
      obtain rfl := List.singleton_inj.mp same
      rcases either with ⟨action,final⟩ | ⟨sound,-⟩
      · obtain ⟨-,exc,read,-⟩ := breaks
        cases final.2.1.symm.trans read
      · exact (sound breaks).elim
    · have split' : messages ++ [message] = (older ++ earlier :: more) ++ [last] := by
        rw [split]
        simp
      obtain ⟨rfl,same⟩ := List.append_inj' split' rfl
      obtain rfl := List.singleton_inj.mp same
      rcases either with final | ⟨-,legible⟩
      · exact ⟨message,by simp,final⟩
      · obtain ⟨later,inside,found⟩ := legible older earlier more rfl breaks
        exact ⟨later,by simp [inside],found⟩

theorem misled_nil : ¬ Misled interp [] := by
  rintro ⟨older,message,newer,action,split,-⟩
  exact absurd (congrArg List.length split) (by simp)

theorem misled_snoc : Misled interp (messages ++ [message]) ↔
    (∃ action, Final interp message action ∧ Failing action) ∨
      (¬ ∃ action, Final interp message action) ∧ Misled interp messages := by
  constructor
  · rintro ⟨older,earlier,newer,action,split,final,failing,none⟩
    rcases List.eq_nil_or_concat newer with rfl | ⟨more,last,rfl⟩
    · obtain ⟨-,same⟩ := List.append_inj' split rfl
      obtain rfl := List.singleton_inj.mp same
      exact .inl ⟨action,final,failing⟩
    · have split' : messages ++ [message] = (older ++ earlier :: more) ++ [last] := by
        rw [split]
        simp
      obtain ⟨rfl,same⟩ := List.append_inj' split' rfl
      obtain rfl := List.singleton_inj.mp same
      exact .inr ⟨none message (by simp),older,earlier,more,action,rfl,final,failing,
        fun later inside => none later (by simp [inside])⟩
  · rintro (⟨action,final,failing⟩ | ⟨none,older,earlier,newer,action,rfl,final,failing,none'⟩)
    · exact ⟨messages,message,[],action,rfl,final,failing,nofun⟩
    · refine ⟨older,earlier,newer ++ [message],action,by simp,final,failing,fun later inside => ?_⟩
      rcases List.mem_append.mp inside with inside | last
      · exact none' later inside
      · rw [List.mem_singleton.mp last]
        exact none

/-- The raw messages of a checkpoint. -/
def raws (messages : List Message) : List PyVal := messages.map fun message => .dict message.as_dict

theorem raws_snoc : (raws (messages ++ [message])).reverse = .dict message.as_dict :: (raws messages).reverse := by
  simp [raws]

/-- The search stops at the newest final action, unless it breaks before. -/
theorem firstFinal_raws (messages : List Message) :
    (Legible interp messages → ∃ found, firstFinal interp (raws messages).reverse = .ok found ∧
      (Misled interp messages ↔ ∃ action, found = some action ∧ action ≠ [] ∧ Failing action)) ∧
    (¬ Legible interp messages → ∃ exc, firstFinal interp (raws messages).reverse = .error exc) := by
  induction messages using List.reverseRecOn with
  | nil => exact ⟨fun _ => ⟨none,rfl,by simp [misled_nil]⟩,fun illegible => (illegible legible_nil).elim⟩
  | append_singleton messages message ih =>
    obtain ⟨legibly,illegibly⟩ := ih
    rw [raws_snoc,legible_snoc,misled_snoc]
    rcases read : finalOf interp (.dict message.as_dict) with exc | action | action
    · have breaks : Breaks interp message := finalOf_error_iff.mp ⟨exc,read⟩
      have none : ¬ ∃ action, Final interp message action := by
        rintro ⟨action,final⟩
        rw [finalOf_some_iff.mpr final] at read
        cases read
      refine ⟨?_,fun _ => ⟨exc,?_⟩⟩
      · rintro (final | ⟨sound,-⟩)
        · exact (none final).elim
        · exact (sound breaks).elim
      · rw [firstFinal,read]
        rfl
    · have sound : ¬ Breaks interp message := by
        intro breaks
        obtain ⟨exc,wrong⟩ := finalOf_error_iff.mpr breaks
        rw [wrong] at read
        cases read
      have none : ¬ ∃ action, Final interp message action := by
        rintro ⟨action,final⟩
        rw [finalOf_some_iff.mpr final] at read
        cases read
      have onward : firstFinal interp (.dict message.as_dict :: (raws messages).reverse) =
          firstFinal interp (raws messages).reverse := by
        rw [firstFinal,read]
        rfl
      have unfinal : ¬ ∃ action, Final interp message action ∧ Failing action :=
        fun ⟨action,final,_⟩ => none ⟨action,final⟩
      rw [onward]
      simp only [none,unfinal,sound,false_or,not_false_eq_true,true_and]
      exact ⟨legibly,illegibly⟩
    · have final : Final interp message action := finalOf_some_iff.mp read
      refine ⟨fun _ => ⟨some action,?_,?_⟩,fun illegible => (illegible (.inl ⟨action,final⟩)).elim⟩
      · rw [firstFinal,read]
        rfl
      · constructor
        · rintro (⟨other,final',failing⟩ | ⟨none,-⟩)
          · rw [← final.same final'] at failing
            exact ⟨action,rfl,final.some,failing⟩
          · exact (none ⟨action,final⟩).elim
        · rintro ⟨_,⟨⟩,-,failing⟩
          exact .inl ⟨action,final,failing⟩

/-- The status that the interface shows for a checkpoint with these messages. -/
theorem shown_iff {checkpoint : Fields} (given : checkpoint.get "messages" = .list (raws messages)) (status : String) :
    _effective_status interp checkpoint status = .ok status ↔
      Legible interp messages ∧ (status = "failed" ∨ ¬ Misled interp messages) := by
  obtain ⟨legibly,illegibly⟩ : (Legible interp messages → _) ∧ (¬ Legible interp messages → _) := firstFinal_raws messages
  have search : _final_action interp checkpoint = firstFinal interp (raws messages).reverse := by
    have listed : ((PyVal.list (raws messages)).orElse (.list [])).iter = .ok (raws messages) := by
      unfold PyVal.orElse
      split
      · rfl
      · next empty =>
        have none : raws messages = [] := by simpa [PyVal.truthy] using empty
        rw [none]
        rfl
    unfold _final_action
    rw [given,listed]
    rfl
  unfold _effective_status
  rw [search]
  by_cases legible : Legible interp messages
  · obtain ⟨found,stopped,misled⟩ := legibly legible
    rw [stopped,misled]
    rcases found with _ | action
    · simp [legible,bind,Except.bind]
    · by_cases failing : action ≠ [] ∧ Failing action
      · simp [legible,bind,Except.bind,failing,eq_comm]
      · simp [legible,bind,Except.bind,failing]
  · obtain ⟨exc,broken⟩ := illegibly legible
    rw [broken]
    simp [legible,bind,Except.bind]

/-! ### The JSON of a checkpoint -/

theorem through_get {fields doc : Fields} (through : throughFields fields = .ok doc) (key : String) :
    throughJson (fields.get key) = .ok (doc.get key) := by
  induction fields generalizing doc with
  | nil =>
    cases through
    rfl
  | cons field rest ih =>
    obtain ⟨k,v⟩ := field
    obtain ⟨v',rest',read,remaining,rfl⟩ := throughFields_cons.mp through
    by_cases same : k = key
    · simpa [Fields.get,Fields.getD,Dicts.get,same] using read
    · simpa [Fields.get,Fields.getD,Dicts.get,same] using ih remaining

theorem through_raws (messages : List Message) : throughJson (.list (raws messages)) = .ok (.list (raws messages)) := by
  rw [throughJson,throughItems_stable]
  · rfl
  · intro v inside
    obtain ⟨message,-,rfl⟩ := List.mem_map.mp inside
    rfl

/-- The checkpoint has the messages of the state and its status. -/
theorem projection_get {hex : String} {state : AgentState} {checkpoint : Fields}
    (projected : projection hex state = .ok checkpoint) :
    checkpoint.get "messages" = .list (raws state.messages) ∧
      checkpoint.get "status" = .str (orText state.status "running") := by
  obtain ⟨made,built,through⟩ := bind_ok_iff.mp projected
  obtain ⟨decoded,-,rest⟩ := bind_ok_iff.mp built
  obtain ⟨step,-,same⟩ := bind_ok_iff.mp rest
  have messages := through_get through "messages"
  have status := through_get through "status"
  rw [← Except.ok.inj same] at messages status
  exact ⟨(Except.ok.inj ((through_raws state.messages).symm.trans messages)).symm,(Except.ok.inj status).symm⟩

end

/-! ### Runs -/

section
variable {ω : Type} {start p : Position ω} {task : TaskEnvelope} {messages : List Message} {budget : Budget}
  {model : Option String} {resumable : Prop} {trail : List (NodeName × AgentState)}

/-- The status of a run that is over says which node was its last one, and with which action. -/
theorem ended_status (begins : Begins start task messages budget model) (reached : Reaches resumable start trail p)
    (ended : p.next = none) :
    ∃ before node, trail = before ++ [(node,p.state)] ∧
      p.state.status = if node = .fail ∨ errored (p.state.last_action.getD []) then "failed" else "completed" := by
  obtain ⟨earlier,node,p',reached',next,moved,rfl⟩ := reaches_last (by rw [begins.next]; simp) reached ended
  obtain ⟨kept,ledgers,run,stands,-,-⟩ := reaches_run begins reached'
  obtain ⟨kept',moves,-,-⟩ := visit_moves stands next moved
  refine ⟨earlier,node,rfl,?_⟩
  have going := (run_lives (begins_lives begins) run).going (by rw [show (ledger p' kept).next = _ from next]; simp)
  generalize before : ledger p' kept = l at moves going
  generalize after : ledger p kept' = l' at moves
  have node' : l.next = some node := by rw [← before]; exact next
  have ended' : l'.next = none := by rw [← after]; exact ended
  have status : p.state.status = l'.status := by rw [← after]; rfl
  have action : p.state.last_action = l'.action := by rw [← after]; rfl
  rw [status,action]
  cases moves with
  | finished payload payload' next =>
    obtain rfl : node = .finish := Option.some.inj (node'.symm.trans next)
    simp
  | failed payload payload' next =>
    obtain rfl : node = .fail := Option.some.inj (node'.symm.trans next)
    simp
  | _ => cases ended'

/-- The interface shows the status of a run exactly when its messages are legible, and either the run failed, through the
    node for failures or with a final action that the graph takes for an error, or the newest final action among the
    messages is no failure for the interface. -/
theorem shown_as_recorded_iff (begins : Begins start task messages budget model) (reached : Reaches resumable start trail p)
    (ended : p.next = none) (ui : Interpreter) (hex : String) (checkpoint : Fields)
    (projected : projection hex p.state = .ok checkpoint) :
    ∃ before node status, trail = before ++ [(node,p.state)] ∧ checkpoint.get "status" = .str status ∧
      (_effective_status ui checkpoint status = .ok p.state.status ↔
        Legible ui p.state.messages ∧
          (node = .fail ∨ errored (p.state.last_action.getD []) ∨ ¬ Misled ui p.state.messages)) := by
  obtain ⟨before,node,last,recorded⟩ := ended_status begins reached ended
  obtain ⟨listed,status⟩ := projection_get projected
  have named : orText p.state.status "running" = p.state.status := by
    rw [recorded]
    split <;> rfl
  refine ⟨before,node,p.state.status,last,by rw [status,named],?_⟩
  rw [shown_iff listed,recorded]
  split
  · next failed => simp [← or_assoc,failed]
  · next sound =>
    rw [not_or] at sound
    simp [sound]

end

/-! ### Two runs of the errand -/

/-- The reader of the interface. -/
def reader : Interpreter := { recursion_limit := 100, float := fun text => ⟨text,true,none⟩ }

/-- The status in the checkpoint of a run, and the one shown for it. -/
def display (p : Position Nat) : Except PyError (PyVal × String) := do
  let checkpoint ← projection "u" p.state
  let shown ← _effective_status reader checkpoint p.state.status
  .ok (checkpoint.get "status",shown)

theorem display_ok {p : Position Nat} {kept : PyVal} {shown : String} (displayed : display p = .ok (kept,shown)) :
    ∃ checkpoint, projection "u" p.state = .ok checkpoint ∧ checkpoint.get "status" = kept ∧
      _effective_status reader checkpoint p.state.status = .ok shown := by
  obtain ⟨checkpoint,projected,rest⟩ := bind_ok_iff.mp displayed
  obtain ⟨shown',effective,same⟩ := bind_ok_iff.mp rest
  obtain ⟨rfl,rfl⟩ := Prod.mk.inj (Except.ok.inj same)
  exact ⟨checkpoint,projected,rfl,effective⟩

def failedFinal : String := "\x7b\"action\":\"final\",\"message\":\"no\",\"finish_reason\":\"failed\"\x7d"

/-- A final action with the reason of a failure that the graph does not know completes, and is shown as failed. -/
theorem completed_shown_failed : ∃ (budget : Budget) (start : Position Nat) (trail : List (NodeName × AgentState))
    (p : Position Nat) (checkpoint : Fields), Begins start errand [] budget none ∧ Reaches False start trail p ∧
      p.next = none ∧ projection "u" p.state = .ok checkpoint ∧ checkpoint.get "status" = .str "completed" ∧
      p.state.status = "completed" ∧ _effective_status reader checkpoint "completed" = .ok "failed" := by
  have run : seen (fun _ p => (p.next,p.state.status,display p)) 12 (errandStart [failedFinal] greetBudget) =
      .ok (none,"completed",.ok (.str "completed","failed")) := by
    decide +kernel
  obtain ⟨trail,p,reached,seen⟩ := seen_reaches .start run
  obtain ⟨ended,rest⟩ := Prod.mk.inj seen
  obtain ⟨status,displayed⟩ := Prod.mk.inj rest
  obtain ⟨checkpoint,projected,kept,shown⟩ := display_ok displayed
  rw [status] at shown
  exact ⟨_,_,_,p,checkpoint,errand_begins _ greetBudget,reached,ended,projected,kept,status,shown⟩

/-- A final action without a reason is shown as it was recorded. -/
theorem greeting_shown : ∃ (trail : List (NodeName × AgentState)) (p : Position Nat),
    Reaches False (errandStart [greetTool,"",greetFinal] greetBudget) trail p ∧ p.next = none ∧
      p.state.status = "completed" ∧ Legible reader p.state.messages := by
  have run : seen (fun _ p => (p.next,p.state.status,display p)) 12
      (errandStart [greetTool,"",greetFinal] greetBudget) =
        .ok (none,"completed",.ok (.str "completed","completed")) := by
    decide +kernel
  obtain ⟨trail,p,reached,seen⟩ : ∃ trail p, Reaches False (errandStart _ greetBudget) ([] ++ trail) p ∧ _ :=
    seen_reaches .start run
  obtain ⟨ended,rest⟩ := Prod.mk.inj seen
  obtain ⟨status,displayed⟩ := Prod.mk.inj rest
  obtain ⟨checkpoint,projected,kept,shown⟩ := display_ok displayed
  obtain ⟨before,node,status',-,kept',agrees⟩ :=
    shown_as_recorded_iff (errand_begins _ greetBudget) reached ended reader "u" checkpoint projected
  obtain rfl : status' = "completed" := PyVal.str.inj (kept'.symm.trans kept)
  rw [status] at shown
  exact ⟨_,p,reached,ended,status,(agrees.mp (by rw [shown,status])).1⟩

end HexAgent.Projection
