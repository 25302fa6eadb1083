import HexAgent.Json

/-!
The Blackboard of one multi-agent run: the state of the task loop, its helpers,
and the document in which it is saved and from which it is loaded. A saved
document always loads (`decode_saved`): the loaded state is the saved one up to
what JSON does to the payloads, and an empty final output is lost (`Reloaded`).
-/
namespace HexAgent.Board
open HexAgent.Values HexAgent.Json Dicts

inductive TaskLoopStatus where
  | CREATED
  | TEAM_SELECTED
  | IN_DISCUSSION
  | WAITING_TOOL
  | REVIEWING_AC
  | FINISHED
  | BLOCKED
  | FAILED
  deriving DecidableEq, Repr

def TaskLoopStatus.value : TaskLoopStatus → String
  | .CREATED => "created"
  | .TEAM_SELECTED => "team_selected"
  | .IN_DISCUSSION => "in_discussion"
  | .WAITING_TOOL => "waiting_tool"
  | .REVIEWING_AC => "reviewing_ac"
  | .FINISHED => "finished"
  | .BLOCKED => "blocked"
  | .FAILED => "failed"

def TaskLoopStatus.ofValue (s : String) : Option TaskLoopStatus :=
  [TaskLoopStatus.CREATED,.TEAM_SELECTED,.IN_DISCUSSION,.WAITING_TOOL,.REVIEWING_AC,.FINISHED,.BLOCKED,.FAILED].find?
    fun status => status.value = s

theorem TaskLoopStatus.ofValue_value (status : TaskLoopStatus) : TaskLoopStatus.ofValue status.value = some status := by
  cases status <;> decide

def TERMINAL : List TaskLoopStatus := [.FINISHED,.BLOCKED,.FAILED]

/-! ### Acceptance checks and turns -/

inductive CheckStatus where
  | pending
  | passed
  | failed
  deriving DecidableEq, Repr

def CheckStatus.value : CheckStatus → String
  | .pending => "pending"
  | .passed => "passed"
  | .failed => "failed"

def CheckStatus.ofValue (s : String) : Option CheckStatus :=
  [CheckStatus.pending,.passed,.failed].find? fun status => status.value = s

theorem CheckStatus.ofValue_value (status : CheckStatus) : CheckStatus.ofValue status.value = some status := by
  cases status <;> decide

structure AcceptanceCheck where
  id : String
  text : String
  status : CheckStatus := .pending
  evidence_ids : List String := []
  deriving DecidableEq, Repr

def AcceptanceCheck.is_satisfied (check : AcceptanceCheck) : Bool :=
  check.status = .passed && !check.evidence_ids.isEmpty

/-- A list of texts as a value. -/
def ofTexts (texts : List String) : PyVal := .list (texts.map .str)

def AcceptanceCheck.as_dict (check : AcceptanceCheck) : Fields :=
  [("id",.str check.id),("text",.str check.text),("status",.str check.status.value),
    ("evidence_ids",ofTexts check.evidence_ids)]

/-- `list(v or [])` of a stored list of texts; the loop stores no other items there. -/
def toTexts (v : PyVal) : Except PyError (List String) := do
  let items ← (v.orElse (.list [])).iter
  items.mapM fun
    | .str s => .ok s
    | item => .error (.TypeError ("expected str, got " ++ item.cls))

/-- A stored row; subscripting anything but a dictionary raises. -/
def toRow : PyVal → Except PyError Fields
  | .dict fields => .ok fields
  | v => .error (.TypeError ("'" ++ v.cls ++ "' object is not subscriptable"))

def AcceptanceCheck.from_dict (v : PyVal) : Except PyError AcceptanceCheck := do
  let d ← toRow v
  let id ← d.item "id"
  let evidence_ids ← toTexts (d.get "evidence_ids")
  match CheckStatus.ofValue (d.getD "status" (.str "pending")).text with
  | some status => .ok { id := id.text, text := d.textOf "text", status, evidence_ids }
  | none => .error (.ValueError "unknown acceptance status")

structure AgentTurn where
  round_no : Int
  agent_id : String
  packet_id : String
  output_summary : String := ""
  artifact_ids : List String := []
  deriving DecidableEq, Repr

def AgentTurn.as_dict (turn : AgentTurn) : Fields :=
  [("round_no",.int turn.round_no),("agent_id",.str turn.agent_id),("packet_id",.str turn.packet_id),
    ("output_summary",.str turn.output_summary),("artifact_ids",ofTexts turn.artifact_ids)]

def AgentTurn.from_dict (v : PyVal) : Except PyError AgentTurn := do
  let d ← toRow v
  let round_no ← (← d.item "round_no").toInt
  let agent_id ← d.item "agent_id"
  let artifact_ids ← toTexts (d.get "artifact_ids")
  .ok { round_no, agent_id := agent_id.text, packet_id := d.textOf "packet_id",
        output_summary := d.textOf "output_summary", artifact_ids }

/-! ### The state -/

structure TaskLoopState where
  session_id : String
  task_id : String
  status : TaskLoopStatus := .CREATED
  selected_agents : List String := []
  acceptance_checks : List AcceptanceCheck := []
  round_no : Int := 0
  max_rounds : Int := 5
  turns : List AgentTurn := []
  artifacts : Dict String Fields := ∅
  tool_results : Dict String Fields := ∅
  final_output : Option Fields := none
  reason : String := ""
  pending_commands : List Fields := []
  applied_command_keys : List String := []
  deriving DecidableEq

def TaskLoopState.add_artifact (state : TaskLoopState) (artifact_id : String) (payload : Fields) : TaskLoopState :=
  { state with artifacts := state.artifacts.put artifact_id payload }

def TaskLoopState.acceptance_by_id (state : TaskLoopState) (check_id : String) : Option AcceptanceCheck :=
  state.acceptance_checks.find? fun check => check.id = check_id

def TaskLoopState.all_accepted (state : TaskLoopState) : Bool :=
  !state.acceptance_checks.isEmpty && state.acceptance_checks.all AcceptanceCheck.is_satisfied

def TaskLoopState.is_terminal (state : TaskLoopState) : Bool := state.status ∈ TERMINAL

/-- The progress of acceptance, as the loop compares it. -/
def TaskLoopState.acceptance_snapshot (state : TaskLoopState) : List (String × CheckStatus × Nat) :=
  state.acceptance_checks.map fun check => (check.id,check.status,check.evidence_ids.length)

/-! ### The saved document -/

/-- A table of payloads as a value. -/
def ofTable (table : Dict String Fields) : PyVal := .dict (table.pairs.map fun entry => (entry.1,.dict entry.2))

/-- `{k: dict(v) for k, v in (v or {}).items()}`. -/
def toTable (v : PyVal) : Except PyError (Dict String Fields) :=
  match v.orElse (.dict []) with
  | .dict fields => do
    let pairs ← fields.mapM fun (key,value) => do .ok (key,← value.toDict)
    .ok (Dict.ofPairs pairs)
  | v => .error (.AttributeError ("'" ++ v.cls ++ "' object has no attribute 'items'"))

/-- `dict(fields) if fields else None`. -/
def ofOutput : Option Fields → PyVal
  | some (field :: rest) => .dict (field :: rest)
  | _ => .null

/-- `dict(v) if v else None`. -/
def toOutput (v : PyVal) : Except PyError (Option Fields) := if v.truthy then v.toDict.map some else .ok none

def encode_taskloop_state (state : TaskLoopState) : Fields :=
  [("session_id",.str state.session_id),("task_id",.str state.task_id),("status",.str state.status.value),
    ("selected_agents",ofTexts state.selected_agents),
    ("acceptance_checks",.list (state.acceptance_checks.map fun check => .dict check.as_dict)),
    ("round_no",.int state.round_no),("max_rounds",.int state.max_rounds),
    ("turns",.list (state.turns.map fun turn => .dict turn.as_dict)),("artifacts",ofTable state.artifacts),
    ("tool_results",ofTable state.tool_results),("final_output",ofOutput state.final_output),
    ("reason",.str state.reason),("pending_commands",.list (state.pending_commands.map .dict)),
    ("applied_command_keys",ofTexts state.applied_command_keys)]

/-- The state of a document. A status outside `TaskLoopStatus` is refused here;
    the source refuses it when it first asks `is_terminal`. -/
def decode_taskloop_state (data : Fields) : Except PyError TaskLoopState := do
  let session_id ← data.item "session_id"
  let task_id ← data.item "task_id"
  let text := (data.getD "status" (.str "created")).text
  let status ← match TaskLoopStatus.ofValue text with
    | some status => Except.ok status
    | none => .error (.ValueError (reprText text ++ " is not a valid TaskLoopStatus"))
  let selected_agents ← toTexts (data.get "selected_agents")
  let checks ← ((data.get "acceptance_checks").orElse (.list [])).iter
  let acceptance_checks ← checks.mapM AcceptanceCheck.from_dict
  let round_no ← (data.getD "round_no" (.int 0)).toInt
  let max_rounds ← (data.getD "max_rounds" (.int 5)).toInt
  let rows ← ((data.get "turns").orElse (.list [])).iter
  let turns ← rows.mapM AgentTurn.from_dict
  let artifacts ← toTable (data.get "artifacts")
  let tool_results ← toTable (data.get "tool_results")
  let final_output ← toOutput (data.get "final_output")
  let queue ← ((data.get "pending_commands").orElse (.list [])).iter
  let pending_commands ← queue.mapM PyVal.toDict
  let applied_command_keys ← toTexts (data.get "applied_command_keys")
  .ok { session_id := session_id.text, task_id := task_id.text, status, selected_agents, acceptance_checks, round_no,
        max_rounds, turns, artifacts, tool_results, final_output, reason := data.textOf "reason", pending_commands,
        applied_command_keys }

/-! ### Loading what was saved -/

section
variable {α β : Type}

private theorem mapM_map_ok {f : β → Except PyError α} {g : α → β} {items : List α} (back : ∀ a ∈ items, f (g a) = .ok a) :
    (items.map g).mapM f = .ok items := by
  induction items with
  | nil => rfl
  | cons a rest ih =>
    rw [List.map_cons,List.mapM_cons,back a (List.mem_cons_self ..),ih fun b member => back b (List.mem_cons_of_mem _ member)]
    rfl

theorem throughItems_stable {items : List PyVal} (stable : ∀ v ∈ items, throughJson v = .ok v) :
    throughItems items = .ok items := by
  induction items with
  | nil => rfl
  | cons v rest ih =>
    rw [throughItems,stable v (List.mem_cons_self ..),ih fun u member => stable u (List.mem_cons_of_mem _ member)]
    rfl

@[simp] theorem throughJson_ofTexts (texts : List String) : throughJson (ofTexts texts) = .ok (ofTexts texts) := by
  unfold ofTexts throughJson
  rw [throughItems_stable]
  · rfl
  · intro v member
    obtain ⟨s,-,rfl⟩ := List.mem_map.mp member
    rfl

@[simp] theorem toTexts_ofTexts (texts : List String) : toTexts (ofTexts texts) = .ok texts := by
  have items : ((ofTexts texts).orElse (.list [])).iter = .ok (texts.map .str) := by
    cases texts with
    | nil => rfl
    | cons s rest => rfl
  unfold toTexts
  rw [items]
  exact mapM_map_ok fun s _ => rfl

theorem check_from_dict_as_dict (check : AcceptanceCheck) : AcceptanceCheck.from_dict (.dict check.as_dict) = .ok check := by
  have evidence : toTexts (Fields.get check.as_dict "evidence_ids") = .ok check.evidence_ids :=
    toTexts_ofTexts check.evidence_ids
  have status : CheckStatus.ofValue (Fields.getD check.as_dict "status" (.str "pending")).text = some check.status :=
    CheckStatus.ofValue_value check.status
  have id : Fields.item check.as_dict "id" = .ok (.str check.id) := rfl
  simp only [AcceptanceCheck.from_dict,toRow,id,evidence,status,bind,Except.bind]
  rfl

theorem turn_from_dict_as_dict (turn : AgentTurn) : AgentTurn.from_dict (.dict turn.as_dict) = .ok turn := by
  have artifacts : toTexts (Fields.get turn.as_dict "artifact_ids") = .ok turn.artifact_ids :=
    toTexts_ofTexts turn.artifact_ids
  have round : Fields.item turn.as_dict "round_no" = .ok (.int turn.round_no) := rfl
  have agent : Fields.item turn.as_dict "agent_id" = .ok (.str turn.agent_id) := rfl
  simp only [AgentTurn.from_dict,toRow,round,agent,artifacts,toInt_int,bind,Except.bind]
  rfl

theorem throughJson_check (check : AcceptanceCheck) : throughJson (.dict check.as_dict) = .ok (.dict check.as_dict) := by
  simp [throughJson,throughFields,AcceptanceCheck.as_dict,bind,Except.bind,Except.map]

theorem throughJson_turn (turn : AgentTurn) : throughJson (.dict turn.as_dict) = .ok (.dict turn.as_dict) := by
  simp [throughJson,throughFields,AgentTurn.as_dict,bind,Except.bind,Except.map]

end

/-- Fields as they are read back after they were written. -/
def Rewritten (before after : Fields) : Prop := throughFields before = .ok after

/-- Two tables with the same keys, the payloads of the second read back from
    those of the first. -/
def RewrittenTable (before after : Dict String Fields) : Prop :=
  List.Forall₂ (fun a b => a.1 = b.1 ∧ Rewritten a.2 b.2) before.pairs after.pairs

private theorem forall₂_keys {pairs pairs' : List (String × Fields)}
    (related : List.Forall₂ (fun a b => a.1 = b.1 ∧ Rewritten a.2 b.2) pairs pairs') :
    pairs'.map Prod.fst = pairs.map Prod.fst := by
  induction related with
  | nil => rfl
  | cons same _ ih => rw [List.map_cons,List.map_cons,ih,same.1]

theorem RewrittenTable.keys {before after : Dict String Fields} (table : RewrittenTable before after) :
    after.keys = before.keys := by
  unfold RewrittenTable at table
  unfold Dict.keys
  exact forall₂_keys table

private theorem forall₂_get {pairs pairs' : List (String × Fields)} {key : String} {before : Fields}
    (related : List.Forall₂ (fun a b => a.1 = b.1 ∧ Rewritten a.2 b.2) pairs pairs')
    (there : Dicts.get key pairs = some before) : ∃ after, Dicts.get key pairs' = some after ∧ Rewritten before after := by
  induction related with
  | nil => cases there
  | @cons a b _ _ same _ ih =>
    obtain ⟨named,rewritten⟩ := same
    unfold Dicts.get at there ⊢
    rw [← named]
    split at there
    · next here =>
      cases there
      exact ⟨b.2,if_pos here,rewritten⟩
    · next other =>
      rw [if_neg other]
      exact ih there

/-- Every payload of a rewritten table is there, rewritten. -/
theorem RewrittenTable.get {before after : Dict String Fields} (table : RewrittenTable before after) {key : String}
    {payload : Fields} (there : before.get key = some payload) :
    ∃ payload', after.get key = some payload' ∧ Rewritten payload payload' := forall₂_get table there

/-- What a loaded state keeps of the saved one. -/
structure Reloaded (s t : TaskLoopState) : Prop where
  same : t = { s with artifacts := t.artifacts, tool_results := t.tool_results, final_output := t.final_output,
                      pending_commands := t.pending_commands }
  artifacts : RewrittenTable s.artifacts t.artifacts
  tool_results : RewrittenTable s.tool_results t.tool_results
  pending : List.Forall₂ Rewritten s.pending_commands t.pending_commands

private theorem throughFields_table {pairs : List (String × Fields)} {fields : Fields}
    (through : throughFields (pairs.map fun entry => (entry.1,PyVal.dict entry.2)) = .ok fields) :
    ∃ pairs' : List (String × Fields), fields = pairs'.map (fun entry => (entry.1,PyVal.dict entry.2)) ∧
      List.Forall₂ (fun a b => a.1 = b.1 ∧ Rewritten a.2 b.2) pairs pairs' := by
  induction pairs generalizing fields with
  | nil => exact ⟨[],by cases through; rfl,.nil⟩
  | cons entry rest ih =>
    obtain ⟨key,payload⟩ := entry
    rw [List.map_cons,throughFields,throughJson] at through
    rcases payloadRead : throughFields payload with error | payload'
    · rw [payloadRead] at through; cases through
    · rw [payloadRead] at through
      rcases restRead : throughFields (rest.map fun entry => (entry.1,PyVal.dict entry.2)) with error | fields'
      · rw [restRead] at through; cases through
      · rw [restRead] at through
        cases through
        obtain ⟨pairs',rfl,related⟩ := ih restRead
        exact ⟨(key,payload') :: pairs',rfl,.cons ⟨rfl,payloadRead⟩ related⟩

theorem throughJson_ofTable {table : Dict String Fields} {v : PyVal} (through : throughJson (ofTable table) = .ok v) :
    ∃ table', v = ofTable table' ∧ RewrittenTable table table' := by
  unfold ofTable at through
  rw [throughJson] at through
  rcases fieldsRead : throughFields (table.pairs.map fun entry => (entry.1,PyVal.dict entry.2)) with error | fields
  · rw [fieldsRead] at through; cases through
  · rw [fieldsRead] at through
    cases through
    obtain ⟨pairs',rfl,related⟩ := throughFields_table fieldsRead
    exact ⟨⟨pairs',by rw [forall₂_keys related]; exact table.nodup⟩,rfl,related⟩

@[simp] theorem toTable_ofTable (table : Dict String Fields) : toTable (ofTable table) = .ok table := by
  have fields : (ofTable table).orElse (.dict []) = ofTable table := by
    unfold PyVal.orElse ofTable
    split
    · rfl
    · next empty =>
      have isEmpty : table.pairs = [] := by simpa using empty
      rw [isEmpty]; rfl
  have read : (table.pairs.map fun entry => (entry.1,PyVal.dict entry.2)).mapM
      (fun field : String × PyVal => do Except.ok (field.1,← field.2.toDict)) = Except.ok table.pairs :=
    mapM_map_ok fun entry _ => rfl
  unfold toTable
  rw [fields]
  exact (congrArg (fun pairs => pairs >>= fun pairs => Except.ok (Dict.ofPairs pairs)) read).trans
    (congrArg Except.ok (Dict.ofPairs_pairs table))

private theorem throughItems_commands {commands : List Fields} {items : List PyVal}
    (through : throughItems (commands.map .dict) = .ok items) :
    ∃ commands' : List Fields, items = commands'.map .dict ∧ List.Forall₂ Rewritten commands commands' := by
  induction commands generalizing items with
  | nil => exact ⟨[],by cases through; rfl,.nil⟩
  | cons command rest ih =>
    rw [List.map_cons,throughItems,throughJson] at through
    rcases commandRead : throughFields command with error | command'
    · rw [commandRead] at through; cases through
    · rw [commandRead] at through
      rcases restRead : throughItems (rest.map .dict) with error | items'
      · rw [restRead] at through; cases through
      · rw [restRead] at through
        cases through
        obtain ⟨commands',rfl,related⟩ := ih restRead
        exact ⟨command' :: commands',rfl,.cons commandRead related⟩

theorem throughFields_cons {key : String} {v : PyVal} {rest doc : Fields} :
    throughFields ((key,v) :: rest) = .ok doc ↔
      ∃ v' rest', throughJson v = .ok v' ∧ throughFields rest = .ok rest' ∧ (key,v') :: rest' = doc := by
  rw [throughFields]
  rcases throughJson v with error | v'
  · simp [bind,Except.bind]
  · rcases throughFields rest with error | rest'
    · simp [bind,Except.bind]
    · simp [bind,Except.bind]

private theorem output_decodes {output v : PyVal} {fields : Option Fields} (stored : output = ofOutput fields)
    (through : throughJson output = .ok v) :
    ∃ fields', toOutput v = .ok fields' := by
  subst stored
  unfold toOutput
  rcases fields with _ | _ | ⟨field,rest⟩
  · cases through; exact ⟨none,rfl⟩
  · cases through; exact ⟨none,rfl⟩
  · rw [ofOutput,throughJson] at through
    rcases read : throughFields (field :: rest) with error | fields'
    · rw [read] at through; cases through
    · rw [read] at through
      cases through
      by_cases empty : fields' = []
      · exact ⟨none,by rw [empty]; rfl⟩
      · exact ⟨some fields',by rw [if_pos (by simpa using empty)]; rfl⟩

private theorem list_iter (items : List PyVal) : ((PyVal.list items).orElse (.list [])).iter = .ok items := by
  cases items with
  | nil => rfl
  | cons item rest => rfl

private theorem queue_decodes {commands : List Fields} {v : PyVal}
    (through : throughJson (.list (commands.map .dict)) = .ok v) :
    ∃ commands' : List Fields, v = .list (commands'.map .dict) ∧ List.Forall₂ Rewritten commands commands' := by
  rw [throughJson] at through
  rcases read : throughItems (commands.map .dict) with error | items
  · rw [read] at through; cases through
  · rw [read] at through
    cases through
    obtain ⟨commands',rfl,related⟩ := throughItems_commands read
    exact ⟨commands',rfl,related⟩

/-- A document that was saved loads, as the saved state up to its payloads; its final output
    is the stored one. -/
theorem decode_written {s : TaskLoopState} {doc : Fields} (saved : throughFields (encode_taskloop_state s) = .ok doc) :
    ∃ t, decode_taskloop_state doc = .ok t ∧ Reloaded s t ∧
      ∃ v, throughJson (ofOutput s.final_output) = .ok v ∧ toOutput v = .ok t.final_output := by
  unfold encode_taskloop_state at saved
  have checkRows : throughJson (.list (s.acceptance_checks.map fun check => .dict check.as_dict)) =
      .ok (.list (s.acceptance_checks.map fun check => .dict check.as_dict)) := by
    rw [throughJson,throughItems_stable]
    · rfl
    · intro v member
      obtain ⟨check,-,rfl⟩ := List.mem_map.mp member
      exact throughJson_check check
  have turnRows : throughJson (.list (s.turns.map fun turn => .dict turn.as_dict)) =
      .ok (.list (s.turns.map fun turn => .dict turn.as_dict)) := by
    rw [throughJson,throughItems_stable]
    · rfl
    · intro v member
      obtain ⟨turn,-,rfl⟩ := List.mem_map.mp member
      exact throughJson_turn turn
  have strRow : ∀ text : String, throughJson (.str text) = .ok (.str text) := fun _ => rfl
  have intRow : ∀ i : Int, throughJson (.int i) = .ok (.int i) := fun _ => rfl
  have noRow : throughFields [] = .ok [] := rfl
  simp only [throughFields_cons,strRow,intRow,noRow,checkRows,turnRows,throughJson_ofTexts,Except.ok.injEq,
    exists_and_left,exists_eq_left',↓existsAndEq,and_true,true_and] at saved
  obtain ⟨artifacts,tools,output,queue,⟨artifactsRead,toolsRead,outputRead,queueRead⟩,rfl⟩ := saved
  obtain ⟨artifacts,rfl,sameArtifacts⟩ := throughJson_ofTable artifactsRead
  obtain ⟨tools,rfl,sameTools⟩ := throughJson_ofTable toolsRead
  obtain ⟨final_output,outputDecodes⟩ := output_decodes rfl outputRead
  obtain ⟨commands,rfl,sameQueue⟩ := queue_decodes queueRead
  have checks : ((PyVal.list (s.acceptance_checks.map fun check => .dict check.as_dict)).orElse (.list [])).iter =
      .ok (s.acceptance_checks.map fun check => .dict check.as_dict) := list_iter _
  have turns : ((PyVal.list (s.turns.map fun turn => .dict turn.as_dict)).orElse (.list [])).iter =
      .ok (s.turns.map fun turn => .dict turn.as_dict) := list_iter _
  have queue : ((PyVal.list (commands.map .dict)).orElse (.list [])).iter = .ok (commands.map .dict) := list_iter _
  have checksDecode : (s.acceptance_checks.map fun check => PyVal.dict check.as_dict).mapM AcceptanceCheck.from_dict =
      .ok s.acceptance_checks := mapM_map_ok fun check _ => check_from_dict_as_dict check
  have turnsDecode : (s.turns.map fun turn => PyVal.dict turn.as_dict).mapM AgentTurn.from_dict = .ok s.turns :=
    mapM_map_ok fun turn _ => turn_from_dict_as_dict turn
  have queueDecodes : (commands.map PyVal.dict).mapM PyVal.toDict = .ok commands := mapM_map_ok fun fields _ => rfl
  refine ⟨{ s with artifacts, tool_results := tools, final_output, pending_commands := commands },?_,
    ⟨rfl,sameArtifacts,sameTools,sameQueue⟩,output,outputRead,outputDecodes⟩
  simp [decode_taskloop_state,Fields.item,Fields.get,Fields.getD,Fields.textOf,Dicts.get,bind,Except.bind,
    TaskLoopStatus.ofValue_value,checks,turns,queue,checksDecode,turnsDecode,queueDecodes,outputDecodes]

/-- A document that was saved loads, as the saved state up to its payloads. -/
theorem decode_saved {s : TaskLoopState} {doc : Fields} (saved : throughFields (encode_taskloop_state s) = .ok doc) :
    ∃ t, decode_taskloop_state doc = .ok t ∧ Reloaded s t := by
  obtain ⟨t,loaded,reloaded,-⟩ := decode_written saved
  exact ⟨t,loaded,reloaded⟩

end HexAgent.Board
