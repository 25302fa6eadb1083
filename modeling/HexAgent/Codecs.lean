import HexAgent.Events

/-!
The records of the control plane and their dictionaries. Every record is checked when it is
made, so one that is read is valid, and a record is read back from its dictionary as it was.
-/
namespace HexAgent.Codecs
open HexAgent.Values HexAgent.Commands HexAgent.Events

/-! ### Checks -/

/-- The kind with this value; a record names the field and the values that it allows. -/
def oneOf {α : Type} (value : α → String) (kinds : List α) (field allowed s : String) : Except PyError α :=
  match kinds.find? fun kind => value kind = s with
  | some kind => .ok kind
  | none => .error (.ControlContractError (field ++ " must be one of " ++ allowed ++ ", got " ++ reprText s ++ "."))

/-- A required text is not empty. -/
def required (exc : PyError) (s : String) : Except PyError { s : String // s ≠ "" } :=
  if filled : s ≠ "" then .ok ⟨s,filled⟩ else .error exc

/-- A number has its least value. -/
def atLeast (exc : PyError) (least i : Int) : Except PyError { i : Int // least ≤ i } :=
  if enough : least ≤ i then .ok ⟨i,enough⟩ else .error exc

theorem required_ok {exc : PyError} {s : String} (filled : s ≠ "") : required exc s = .ok ⟨s,filled⟩ :=
  dif_pos filled

theorem atLeast_ok {exc : PyError} {least i : Int} (enough : least ≤ i) : atLeast exc least i = .ok ⟨i,enough⟩ :=
    dif_pos enough

/-- An optional text that is absent or not empty. -/
def Tidy (text : Option String) : Prop := text ≠ some ""

/-! ### The parts of an event -/

def ActorType.read (s : String) : Except PyError ActorType :=
  oneOf ActorType.value [.human,.agent,.tool,.system,.runtime] "Actor.type"
    "['agent', 'human', 'runtime', 'system', 'tool']" s

def Actor.make (type id : String) : Except PyError Actor := do
  let type ← ActorType.read type
  let id ← required (.ControlContractError "Actor.id must be non-empty.") id
  .ok ⟨type,id.1,id.2⟩

def Actor.from_dict : PyVal → Except PyError Actor
  | .dict d => Actor.make (Fields.textOf d "type") (Fields.textOf d "id")
  | v => .error (noGet v)

def TraceContext.make (trace_id span_id : String) (parent_span_id : Option String) : Except PyError TraceContext := do
  let trace_id ← required (.ControlContractError "TraceContext.trace_id must be non-empty.") trace_id
  let span_id ← required (.ControlContractError "TraceContext.span_id must be non-empty.") span_id
  .ok ⟨trace_id.1,span_id.1,parent_span_id,trace_id.2,span_id.2⟩

def TraceContext.from_dict : PyVal → Except PyError TraceContext
  | .dict d => TraceContext.make (Fields.textOf d "trace_id") (Fields.textOf d "span_id")
    (textIfGiven d "parent_span_id")
  | v => .error (noGet v)

def Visibility.read (s : String) : Except PyError Visibility :=
  oneOf Visibility.value [.public,.ui_safe,.internal,.secret,.restricted] "RedactionInfo.level"
    "['internal', 'public', 'restricted', 'secret', 'ui_safe']" s

def RedactionInfo.make (level : String) (has_secret : Bool) (redacted_fields : List String) :
    Except PyError RedactionInfo := do
  let level ← Visibility.read level
  .ok ⟨level,has_secret,redacted_fields⟩

/-- `bool(d.get(key, False))`. -/
def flagOf (d : Fields) (key : String) : Bool := (d.getD key (.bool false)).truthy

/-- `tuple(str(x) for x in (d.get(key) or ()))`. -/
def textsOf (d : Fields) (key : String) : Except PyError (List String) := do
  let items ← ((d.get key).orElse (.tuple [])).iter
  .ok (items.map PyVal.text)

def RedactionInfo.from_dict : PyVal → Except PyError RedactionInfo
  | .dict d => do
    let redacted_fields ← textsOf d "redacted_fields"
    RedactionInfo.make (Fields.getD d "level" (.str "ui_safe")).text (flagOf d "has_secret") redacted_fields
  | v => .error (noGet v)

/-! ### Events -/

def RuntimeEvent.make (event_type session_id : String) (actor : Actor) (trace : TraceContext)
    (redaction : RedactionInfo) (event_id created_at : String) (schema_version seq : Int) (round_no : Option Int)
    (workflow_id task_id : Option String) (source : String) (payload : Fields) (ui_payload : Option Fields) :
    Except PyError RuntimeEvent := do
  let event_id ← required (emptyField "RuntimeEvent" "event_id") event_id
  let event_type ← required (emptyField "RuntimeEvent" "event_type") event_type
  let session_id ← required (emptyField "RuntimeEvent" "session_id") session_id
  let created_at ← required (emptyField "RuntimeEvent" "created_at") created_at
  let source ← required (emptyField "RuntimeEvent" "source") source
  let schema_version ← atLeast (.ControlContractError "RuntimeEvent.schema_version must be >= 1.") 1 schema_version
  let seq ← atLeast (.ControlContractError "RuntimeEvent.seq must be >= 0.") 0 seq
  .ok ⟨event_type.1,session_id.1,actor,trace,redaction,event_id.1,created_at.1,schema_version.1,seq.1,round_no,
    workflow_id,task_id,source.1,payload,ui_payload,event_id.2,event_type.2,session_id.2,created_at.2,source.2,
    schema_version.2,seq.2⟩

/-- `f(d[key]) if d.get(key) is not None else None`. -/
def ifPresent {α : Type} (f : PyVal → Except PyError α) (d : Fields) (key : String) : Except PyError (Option α) :=
  match d.get key with
  | .null => .ok none
  | v => (f v).map some

def RuntimeEvent.from_dict (d : Fields) : Except PyError RuntimeEvent := do
  let actor ← Actor.from_dict ((d.get "actor").orElse (.dict []))
  let trace ← TraceContext.from_dict ((d.get "trace").orElse (.dict []))
  let redaction ← RedactionInfo.from_dict ((d.get "redaction").orElse (.dict []))
  let schema_version ← (d.getD "schema_version" (.int 1)).toInt
  let seq ← (d.getD "seq" (.int 0)).toInt
  let round_no ← ifPresent PyVal.toInt d "round_no"
  let payload ← ((d.get "payload").orElse (.dict [])).toDict
  let ui_payload ← ifPresent PyVal.toDict d "ui_payload"
  RuntimeEvent.make (d.textOf "event_type") (d.textOf "session_id") actor trace redaction (d.textOf "event_id")
    (d.textOf "created_at") schema_version seq round_no (textIfGiven d "workflow_id") (textIfGiven d "task_id")
    (d.getD "source" (.str "runtime")).text payload ui_payload

section
variable {actor : Actor} {trace : TraceContext} {info : RedactionInfo} {event : RuntimeEvent}

theorem actor_read (type : ActorType) : ActorType.read type.value = .ok type := by
  cases type <;> rfl

theorem visibility_read (level : Visibility) : Visibility.read level.value = .ok level := by
  cases level <;> rfl

theorem actor_back (actor : Actor) : Actor.from_dict (.dict actor.as_dict) = .ok actor := by
  show Actor.make actor.type.value actor.id = _
  unfold Actor.make
  rw [actor_read,required_ok actor.id_nonempty]
  rfl

theorem trace_back (tidy : Tidy trace.parent_span_id) : TraceContext.from_dict (.dict trace.as_dict) = .ok trace := by
  have parent := textIfGiven_ofOption tidy trace.as_dict "parent_span_id" rfl
  show TraceContext.make trace.trace_id trace.span_id (textIfGiven trace.as_dict "parent_span_id") = _
  unfold TraceContext.make
  rw [parent,required_ok trace.trace_id_nonempty,required_ok trace.span_id_nonempty]
  rfl

/-- A list of texts is read back. -/
theorem textsOf_back {d : Fields} {key : String} {texts : List String} (stored : d.get key = .list (texts.map .str)) :
    textsOf d key = .ok texts := by
  unfold textsOf
  rw [stored]
  cases texts with
  | nil => rfl
  | cons first rest =>
    show Except.ok (((first :: rest).map PyVal.str).map PyVal.text) = _
    rw [List.map_map]
    exact congrArg Except.ok (List.map_id _)

theorem redaction_back (info : RedactionInfo) : RedactionInfo.from_dict (.dict info.as_dict) = .ok info := by
  have fields : textsOf info.as_dict "redacted_fields" = .ok info.redacted_fields := textsOf_back rfl
  calc RedactionInfo.from_dict (.dict info.as_dict)
      = (textsOf info.as_dict "redacted_fields").bind fun redacted_fields =>
          (Visibility.read info.level.value).bind fun level => .ok ⟨level,info.has_secret,redacted_fields⟩ := rfl
    _ = .ok info := by rw [fields,visibility_read]; rfl

/-- A round number is read back: zero is not taken for an absent one. -/
theorem round_back (event : RuntimeEvent) : ifPresent PyVal.toInt event.as_dict "round_no" = .ok event.round_no := by
  unfold ifPresent
  cases given : event.round_no with
  | none => simp [RuntimeEvent.as_dict,Fields.get,Fields.getD,Dicts.get,given]
  | some n => simp [RuntimeEvent.as_dict,Fields.get,Fields.getD,Dicts.get,given,Except.map]

/-- The payload for the UI is read back: an empty one is not taken for an absent one. -/
theorem ui_payload_back (event : RuntimeEvent) :
    ifPresent PyVal.toDict event.as_dict "ui_payload" = .ok event.ui_payload := by
  unfold ifPresent
  cases given : event.ui_payload with
  | none => simp [RuntimeEvent.as_dict,Fields.get,Fields.getD,Dicts.get,given]
  | some fields => simp [RuntimeEvent.as_dict,Fields.get,Fields.getD,Dicts.get,given,Except.map]

theorem event_make (event : RuntimeEvent) :
    RuntimeEvent.make event.event_type event.session_id event.actor event.trace event.redaction event.event_id
      event.created_at event.schema_version event.seq event.round_no event.workflow_id event.task_id event.source
      event.payload event.ui_payload = .ok event := by
  unfold RuntimeEvent.make
  rw [required_ok event.event_id_nonempty,required_ok event.event_type_nonempty,required_ok event.session_id_nonempty,
    required_ok event.created_at_nonempty,required_ok event.source_nonempty,atLeast_ok event.schema_version_positive,
    atLeast_ok event.seq_nonneg]
  rfl

/-- The optional texts of the event are absent or not empty. -/
structure RuntimeEvent.Clear (event : RuntimeEvent) : Prop where
  parent : Tidy event.trace.parent_span_id
  workflow : Tidy event.workflow_id
  task : Tidy event.task_id

/-- An event is read back from its dictionary. -/
theorem event_back (clear : RuntimeEvent.Clear event) : RuntimeEvent.from_dict event.as_dict = .ok event := by
  have actor := actor_back event.actor
  have trace := trace_back clear.parent
  have redaction := redaction_back event.redaction
  have payload : ((PyVal.dict event.payload).orElse (.dict [])).toDict = .ok event.payload :=
    toDict_orElse_dict event.payload
  have workflow := textIfGiven_ofOption clear.workflow event.as_dict "workflow_id" rfl
  have task := textIfGiven_ofOption clear.task event.as_dict "task_id" rfl
  calc RuntimeEvent.from_dict event.as_dict
      = (Actor.from_dict (.dict event.actor.as_dict)).bind fun actor =>
          (TraceContext.from_dict (.dict event.trace.as_dict)).bind fun trace =>
            (RedactionInfo.from_dict (.dict event.redaction.as_dict)).bind fun redaction =>
              (ifPresent PyVal.toInt event.as_dict "round_no").bind fun round_no =>
                (((PyVal.dict event.payload).orElse (.dict [])).toDict).bind fun payload =>
                  (ifPresent PyVal.toDict event.as_dict "ui_payload").bind fun ui_payload =>
                    RuntimeEvent.make event.event_type event.session_id actor trace redaction event.event_id
                      event.created_at event.schema_version event.seq round_no (textIfGiven event.as_dict "workflow_id")
                      (textIfGiven event.as_dict "task_id") event.source payload ui_payload := rfl
    _ = RuntimeEvent.make event.event_type event.session_id event.actor event.trace event.redaction event.event_id
          event.created_at event.schema_version event.seq event.round_no event.workflow_id event.task_id event.source
          event.payload event.ui_payload := by
      rw [actor,trace,redaction,round_back,payload,ui_payload_back,workflow,task]
      rfl
    _ = .ok event := event_make event

end

/-! ### Checkpoints -/

inductive CheckpointStatus where
  | waiting
  | approved
  | rejected
  | expired
  | auto_approved
  deriving DecidableEq, Repr

def CheckpointStatus.value : CheckpointStatus → String
  | .waiting => "waiting"
  | .approved => "approved"
  | .rejected => "rejected"
  | .expired => "expired"
  | .auto_approved => "auto_approved"

def CheckpointStatus.read (s : String) : Except PyError CheckpointStatus :=
  oneOf CheckpointStatus.value [.waiting,.approved,.rejected,.expired,.auto_approved] "RuntimeCheckpoint.status"
    "['approved', 'auto_approved', 'expired', 'rejected', 'waiting']" s

inductive RiskLevel where
  | low
  | medium
  | high
  | dangerous
  deriving DecidableEq, Repr

def RiskLevel.value : RiskLevel → String
  | .low => "low"
  | .medium => "medium"
  | .high => "high"
  | .dangerous => "dangerous"

def RiskLevel.read (s : String) : Except PyError RiskLevel :=
  oneOf RiskLevel.value [.low,.medium,.high,.dangerous] "RuntimeCheckpoint.risk_level"
    "['dangerous', 'high', 'low', 'medium']" s

/-- A validated checkpoint. -/
structure RuntimeCheckpoint where
  checkpoint_type : String
  session_id : String
  risk_level : RiskLevel
  status : CheckpointStatus
  payload : Fields
  checkpoint_id : String
  created_at : String
  resolved_at : Option String
  checkpoint_id_nonempty : checkpoint_id ≠ ""
  checkpoint_type_nonempty : checkpoint_type ≠ ""
  session_id_nonempty : session_id ≠ ""
  created_at_nonempty : created_at ≠ ""

def RuntimeCheckpoint.make (checkpoint_type session_id risk_level status : String) (payload : Fields)
    (checkpoint_id created_at : String) (resolved_at : Option String) : Except PyError RuntimeCheckpoint := do
  let checkpoint_id ← required (emptyField "RuntimeCheckpoint" "checkpoint_id") checkpoint_id
  let checkpoint_type ← required (emptyField "RuntimeCheckpoint" "checkpoint_type") checkpoint_type
  let session_id ← required (emptyField "RuntimeCheckpoint" "session_id") session_id
  let created_at ← required (emptyField "RuntimeCheckpoint" "created_at") created_at
  let status ← CheckpointStatus.read status
  let risk_level ← RiskLevel.read risk_level
  .ok ⟨checkpoint_type.1,session_id.1,risk_level,status,payload,checkpoint_id.1,created_at.1,resolved_at,
    checkpoint_id.2,checkpoint_type.2,session_id.2,created_at.2⟩

def RuntimeCheckpoint.as_dict (checkpoint : RuntimeCheckpoint) : Fields :=
  [("checkpoint_id",.str checkpoint.checkpoint_id),("session_id",.str checkpoint.session_id),
    ("checkpoint_type",.str checkpoint.checkpoint_type),("status",.str checkpoint.status.value),
    ("risk_level",.str checkpoint.risk_level.value),("payload",.dict checkpoint.payload),
    ("created_at",.str checkpoint.created_at),("resolved_at",ofOption checkpoint.resolved_at)]

/-- A checkpoint from its dictionary; a missing identifier or time is drawn. -/
def RuntimeCheckpoint.from_dict (stamp : Stamp) (d : Fields) : Except PyError RuntimeCheckpoint := do
  let payload ← ((d.get "payload").orElse (.dict [])).toDict
  RuntimeCheckpoint.make (d.textOf "checkpoint_type") (d.textOf "session_id") (d.textOf "risk_level")
    (d.getD "status" (.str "waiting")).text payload (orText (d.textOf "checkpoint_id") stamp.id)
    (orText (d.textOf "created_at") stamp.time) (textIfGiven d "resolved_at")

theorem status_read (status : CheckpointStatus) : CheckpointStatus.read status.value = .ok status := by
  cases status <;> rfl

theorem risk_read (level : RiskLevel) : RiskLevel.read level.value = .ok level := by
  cases level <;> rfl

theorem checkpoint_make (checkpoint : RuntimeCheckpoint) :
    RuntimeCheckpoint.make checkpoint.checkpoint_type checkpoint.session_id checkpoint.risk_level.value
      checkpoint.status.value checkpoint.payload checkpoint.checkpoint_id checkpoint.created_at
      checkpoint.resolved_at = .ok checkpoint := by
  unfold RuntimeCheckpoint.make
  rw [required_ok checkpoint.checkpoint_id_nonempty,required_ok checkpoint.checkpoint_type_nonempty,
    required_ok checkpoint.session_id_nonempty,required_ok checkpoint.created_at_nonempty,status_read,risk_read]
  rfl

/-- A checkpoint is read back from its dictionary. -/
theorem checkpoint_back (stamp : Stamp) {checkpoint : RuntimeCheckpoint} (tidy : Tidy checkpoint.resolved_at) :
    RuntimeCheckpoint.from_dict stamp checkpoint.as_dict = .ok checkpoint := by
  have payload : ((PyVal.dict checkpoint.payload).orElse (.dict [])).toDict = .ok checkpoint.payload :=
    toDict_orElse_dict checkpoint.payload
  have id : orText checkpoint.checkpoint_id stamp.id = checkpoint.checkpoint_id :=
    if_neg checkpoint.checkpoint_id_nonempty
  have time : orText checkpoint.created_at stamp.time = checkpoint.created_at := if_neg checkpoint.created_at_nonempty
  have resolved := textIfGiven_ofOption tidy checkpoint.as_dict "resolved_at" rfl
  calc RuntimeCheckpoint.from_dict stamp checkpoint.as_dict
      = (((PyVal.dict checkpoint.payload).orElse (.dict [])).toDict).bind fun payload =>
          RuntimeCheckpoint.make checkpoint.checkpoint_type checkpoint.session_id checkpoint.risk_level.value
            checkpoint.status.value payload (orText checkpoint.checkpoint_id stamp.id)
            (orText checkpoint.created_at stamp.time) (textIfGiven checkpoint.as_dict "resolved_at") := rfl
    _ = RuntimeCheckpoint.make checkpoint.checkpoint_type checkpoint.session_id checkpoint.risk_level.value
          checkpoint.status.value checkpoint.payload checkpoint.checkpoint_id checkpoint.created_at
          checkpoint.resolved_at := by rw [payload,id,time,resolved]; rfl
    _ = .ok checkpoint := checkpoint_make checkpoint

/-! ### Permissions -/

inductive EffectiveFrom where
  | immediately
  | next_turn
  | next_checkpoint
  deriving DecidableEq, Repr

def EffectiveFrom.value : EffectiveFrom → String
  | .immediately => "immediately"
  | .next_turn => "next_turn"
  | .next_checkpoint => "next_checkpoint"

def EffectiveFrom.read (s : String) : Except PyError EffectiveFrom :=
  oneOf EffectiveFrom.value [.immediately,.next_turn,.next_checkpoint] "Permission.effective_from"
    "['immediately', 'next_checkpoint', 'next_turn']" s

structure Permission where
  allowed_tools : List String := []
  can_write_artifacts : Bool := false
  can_call_other_agents : Bool := false
  can_execute_shell : Bool := false
  can_modify_workflow : Bool := false
  can_modify_permissions : Bool := false
  effective_from : EffectiveFrom := .next_checkpoint

def Permission.as_dict (permission : Permission) : Fields :=
  [("allowed_tools",.list (permission.allowed_tools.map .str)),
    ("can_write_artifacts",.bool permission.can_write_artifacts),
    ("can_call_other_agents",.bool permission.can_call_other_agents),
    ("can_execute_shell",.bool permission.can_execute_shell),
    ("can_modify_workflow",.bool permission.can_modify_workflow),
    ("can_modify_permissions",.bool permission.can_modify_permissions),
    ("effective_from",.str permission.effective_from.value)]

def Permission.from_dict (d : Fields) : Except PyError Permission := do
  let allowed_tools ← textsOf d "allowed_tools"
  let effective_from ← EffectiveFrom.read (d.getD "effective_from" (.str "next_checkpoint")).text
  .ok ⟨allowed_tools,flagOf d "can_write_artifacts",flagOf d "can_call_other_agents",flagOf d "can_execute_shell",
    flagOf d "can_modify_workflow",flagOf d "can_modify_permissions",effective_from⟩

theorem effective_read (boundary : EffectiveFrom) : EffectiveFrom.read boundary.value = .ok boundary := by
  cases boundary <;> rfl

/-- A permission is read back from its dictionary. -/
theorem permission_back (permission : Permission) : Permission.from_dict permission.as_dict = .ok permission := by
  have tools : textsOf permission.as_dict "allowed_tools" = .ok permission.allowed_tools := textsOf_back rfl
  calc Permission.from_dict permission.as_dict
      = (textsOf permission.as_dict "allowed_tools").bind fun allowed_tools =>
          (EffectiveFrom.read permission.effective_from.value).bind fun effective_from =>
            .ok { permission with allowed_tools, effective_from } := rfl
    _ = .ok permission := by rw [tools,effective_read]; rfl

/-! ### The four families -/

/-- Every event, command, checkpoint and permission whose optional texts are absent or not empty is read back from its
    dictionary as it was, in every field. -/
theorem round_trips (stamp : Stamp) :
    (∀ event : RuntimeEvent, RuntimeEvent.Clear event → RuntimeEvent.from_dict event.as_dict = .ok event) ∧
      (∀ c : RuntimeCommand, Tidy c.issued_by.user_id → Tidy c.issued_by.agent_id →
        RuntimeCommand.from_dict stamp c.as_dict = .ok c) ∧
      (∀ checkpoint : RuntimeCheckpoint, Tidy checkpoint.resolved_at →
        RuntimeCheckpoint.from_dict stamp checkpoint.as_dict = .ok checkpoint) ∧
      ∀ permission : Permission, Permission.from_dict permission.as_dict = .ok permission :=
  ⟨fun _ clear => event_back clear,fun c user agent => from_dict_as_dict stamp c user agent,
    fun _ tidy => checkpoint_back stamp tidy,permission_back⟩

theorem coder_named : "coder" ≠ "" := by decide
theorem trace_named : "t1" ≠ "" := by decide
theorem span_named : "p1" ≠ "" := by decide
theorem event_named : "e1" ≠ "" := by decide
theorem turn_named : "loop.turn" ≠ "" := by decide
theorem session_named : "s1" ≠ "" := by decide
theorem year_named : "2024-01-01T00:00:00+00:00" ≠ "" := by decide
theorem source_named : "runtime" ≠ "" := by decide
theorem first_schema : (1 : Int) ≤ 1 := by decide
theorem zero_numbered : (0 : Int) ≤ 0 := by decide

/-- The first event of a round, without a payload for anyone. -/
def roundZero : RuntimeEvent where
  event_type := "loop.turn"
  session_id := "s1"
  actor := ⟨.agent,"coder",coder_named⟩
  trace := ⟨"t1","p1",none,trace_named,span_named⟩
  redaction := { redacted_fields := ["token"] }
  event_id := "e1"
  created_at := "2024-01-01T00:00:00+00:00"
  schema_version := 1
  seq := 0
  round_no := some 0
  workflow_id := none
  task_id := some "a1"
  source := "runtime"
  payload := []
  ui_payload := some []
  event_id_nonempty := event_named
  event_type_nonempty := turn_named
  session_id_nonempty := session_named
  created_at_nonempty := year_named
  source_nonempty := source_named
  schema_version_positive := first_schema
  seq_nonneg := zero_numbered

theorem roundZero_back : RuntimeEvent.from_dict roundZero.as_dict = .ok roundZero :=
  (round_trips ⟨"c1","2024-01-01T00:00:00+00:00",by decide,by decide⟩).1 roundZero
    ⟨by unfold Tidy; decide,by unfold Tidy; decide,by unfold Tidy; decide⟩

end HexAgent.Codecs
