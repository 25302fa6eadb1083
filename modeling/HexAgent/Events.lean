import HexAgent.Commands
import Mathlib.Data.List.Dedup

/-!
The event envelope of the control plane, the registry of event types, the
redaction of payloads, and the emitter that validates, numbers and redacts every
event before it reaches the sinks.
-/
namespace HexAgent.Events
open HexAgent.Values HexAgent.Commands

/-! ### The envelope -/

inductive ActorType where
  | human
  | agent
  | tool
  | system
  | runtime
  deriving DecidableEq, Repr

def ActorType.value : ActorType → String
  | .human => "human"
  | .agent => "agent"
  | .tool => "tool"
  | .system => "system"
  | .runtime => "runtime"

/-- Who or what caused an event. -/
structure Actor where
  type : ActorType
  id : String
  id_nonempty : id ≠ ""

def Actor.as_dict (actor : Actor) : Fields := [("type",.str actor.type.value),("id",.str actor.id)]

structure TraceContext where
  trace_id : String
  span_id : String
  parent_span_id : Option String
  trace_id_nonempty : trace_id ≠ ""
  span_id_nonempty : span_id ≠ ""

def TraceContext.as_dict (trace : TraceContext) : Fields :=
  [("trace_id",.str trace.trace_id),("span_id",.str trace.span_id),("parent_span_id",ofOption trace.parent_span_id)]

/-- A fresh root trace. -/
def TraceContext.new_root (trace span : Stamp) : TraceContext :=
  ⟨trace.id,span.id,none,trace.id_nonempty,span.id_nonempty⟩

inductive Visibility where
  | «public»
  | ui_safe
  | internal
  | secret
  | restricted
  deriving DecidableEq, Repr

def Visibility.value : Visibility → String
  | .public => "public"
  | .ui_safe => "ui_safe"
  | .internal => "internal"
  | .secret => "secret"
  | .restricted => "restricted"

structure RedactionInfo where
  level : Visibility := .ui_safe
  has_secret : Bool := false
  redacted_fields : List String := []

def RedactionInfo.as_dict (info : RedactionInfo) : Fields :=
  [("level",.str info.level.value),("has_secret",.bool info.has_secret),
    ("redacted_fields",.list (info.redacted_fields.map .str))]

/-- A validated event: its required texts are not empty and its numbers are in range. -/
structure RuntimeEvent where
  event_type : String
  session_id : String
  actor : Actor
  trace : TraceContext
  redaction : RedactionInfo
  event_id : String
  created_at : String
  schema_version : Int
  seq : Int
  round_no : Option Int
  workflow_id : Option String
  task_id : Option String
  source : String
  payload : Fields
  ui_payload : Option Fields
  event_id_nonempty : event_id ≠ ""
  event_type_nonempty : event_type ≠ ""
  session_id_nonempty : session_id ≠ ""
  created_at_nonempty : created_at ≠ ""
  source_nonempty : source ≠ ""
  schema_version_positive : 1 ≤ schema_version
  seq_nonneg : 0 ≤ seq

def RuntimeEvent.as_dict (event : RuntimeEvent) : Fields :=
  [("event_id",.str event.event_id),("event_type",.str event.event_type),("schema_version",.int event.schema_version),
    ("session_id",.str event.session_id),("seq",.int event.seq),
    ("round_no",match event.round_no with | some n => .int n | none => .null),
    ("workflow_id",ofOption event.workflow_id),("task_id",ofOption event.task_id),("source",.str event.source),
    ("actor",.dict event.actor.as_dict),("trace",.dict event.trace.as_dict),("payload",.dict event.payload),
    ("ui_payload",match event.ui_payload with | some fields => .dict fields | none => .null),
    ("redaction",.dict event.redaction.as_dict),("created_at",.str event.created_at)]

/-! ### Event types -/

structure EventTypeSpec where
  event_type : String
  visibility : Visibility
  durable : Bool := true
  redact_for_ui : Bool := false
  checkpoint_candidate : Bool := false

/-- The registry of event types, by their names. -/
structure EventTypeRegistry where
  specs : List EventTypeSpec

/-- The declared type of the name, if it is declared. -/
def EventTypeRegistry.find (registry : EventTypeRegistry) (event_type : String) : Option EventTypeSpec :=
  registry.specs.find? fun spec => spec.event_type = event_type

def EventTypeRegistry.get (registry : EventTypeRegistry) (event_type : String) : Except PyError EventTypeSpec :=
  match registry.find event_type with
  | some spec => .ok spec
  | none => .error (.ControlContractError
      ("Unknown event_type: " ++ reprText event_type ++ ". Declare it in runtime_event_types.yaml."))

/-- The event types of `config/runtime_event_types.yaml`. -/
def load_event_registry : EventTypeRegistry where
  specs := [
    ⟨"session.started",.ui_safe,true,false,false⟩,
    ⟨"session.paused",.ui_safe,true,false,false⟩,
    ⟨"session.resumed",.ui_safe,true,false,false⟩,
    ⟨"session.finished",.ui_safe,true,false,false⟩,
    ⟨"session.failed",.ui_safe,true,false,false⟩,
    ⟨"state.updated",.ui_safe,true,false,false⟩,
    ⟨"agent.selected",.ui_safe,true,false,false⟩,
    ⟨"agent.before_run",.ui_safe,true,false,false⟩,
    ⟨"agent.after_run",.ui_safe,true,false,false⟩,
    ⟨"agent.failed",.ui_safe,true,false,false⟩,
    ⟨"agent.aborted",.ui_safe,true,false,false⟩,
    ⟨"agent.token",.ui_safe,false,true,false⟩,
    ⟨"agent.output.raw",.internal,true,true,false⟩,
    ⟨"agent.output.validated",.ui_safe,true,false,false⟩,
    ⟨"agent.invocation.created",.ui_safe,true,false,false⟩,
    ⟨"agent.invocation.completed",.ui_safe,true,false,false⟩,
    ⟨"hook.before_run",.ui_safe,true,true,false⟩,
    ⟨"hook.after_run",.ui_safe,true,true,false⟩,
    ⟨"hook.failed",.ui_safe,true,false,false⟩,
    ⟨"skill.resolved",.ui_safe,true,false,false⟩,
    ⟨"skill.loaded",.ui_safe,true,false,false⟩,
    ⟨"skill.failed",.ui_safe,true,false,false⟩,
    ⟨"rule.resolved",.ui_safe,true,false,false⟩,
    ⟨"rule.applied",.ui_safe,true,false,false⟩,
    ⟨"rule.rejected",.ui_safe,true,false,false⟩,
    ⟨"tool.call_requested",.ui_safe,true,false,true⟩,
    ⟨"tool.before_call",.ui_safe,true,false,true⟩,
    ⟨"tool.after_call",.ui_safe,true,true,false⟩,
    ⟨"tool.failed",.ui_safe,true,false,false⟩,
    ⟨"tool.result.received",.internal,true,true,false⟩,
    ⟨"tool.call_rejected",.ui_safe,true,false,false⟩,
    ⟨"permission.check_requested",.internal,true,false,false⟩,
    ⟨"permission.check_result",.ui_safe,true,false,false⟩,
    ⟨"permission.changed",.ui_safe,true,false,false⟩,
    ⟨"checkpoint.reached",.ui_safe,true,false,false⟩,
    ⟨"approval.requested",.ui_safe,true,false,false⟩,
    ⟨"approval.approved",.ui_safe,true,false,false⟩,
    ⟨"approval.rejected",.ui_safe,true,false,false⟩,
    ⟨"command.received",.ui_safe,true,false,false⟩,
    ⟨"command.accepted",.ui_safe,true,false,false⟩,
    ⟨"command.rejected",.ui_safe,true,false,false⟩,
    ⟨"command.applied",.ui_safe,true,false,false⟩,
    ⟨"artifact.before_write",.ui_safe,true,true,true⟩,
    ⟨"artifact.after_write",.ui_safe,true,false,false⟩,
    ⟨"artifact.write_rejected",.ui_safe,true,false,false⟩,
    ⟨"artifact.overwrite_requested",.ui_safe,true,false,true⟩,
    ⟨"loop.team_composed",.ui_safe,true,false,false⟩,
    ⟨"loop.decision",.ui_safe,true,false,false⟩,
    ⟨"loop.turn",.ui_safe,true,false,false⟩,
    ⟨"loop.tool",.ui_safe,true,false,false⟩,
    ⟨"loop.parse_error",.ui_safe,true,false,false⟩,
    ⟨"loop.finished",.ui_safe,true,false,false⟩,
    ⟨"loop.blocked",.ui_safe,true,false,false⟩,
    ⟨"loop.failed",.ui_safe,true,false,false⟩,
    ⟨"delegation.started",.ui_safe,true,false,false⟩,
    ⟨"delegation.progress",.ui_safe,true,false,false⟩,
    ⟨"delegation.finished",.ui_safe,true,false,false⟩]

/-! ### Redaction -/

/-- The names whose values are masked. -/
def SECRET_KEYS : List String :=
  ["api_key","apikey","authorization","password","passwd","secret","secret_key","client_secret","token",
    "access_token","refresh_token","private_key","set-cookie","cookie"]

/-- `str.lower` of a character, as far as it yields ASCII: the capital letters
    and the Kelvin sign. -/
def lowerChar (c : Char) : Char := if c.toNat = 0x212a then 'k' else c.toLower

def lower (s : String) : String := String.ofList (s.toList.map lowerChar)

def is_secret (secret_keys : List String) (key : String) : Bool := lower key ∈ secret_keys

/-- The path of a member. -/
def childPath (path key : String) : String := if path = "" then key else path ++ "." ++ key

mutual
/-- A value with its secrets masked, and the paths that were masked. Only
    dictionaries and lists are entered. -/
def walk (secret_keys : List String) (path : String) : PyVal → PyVal × List String
  | .dict fields =>
    let (fields,paths) := walkFields secret_keys path fields
    (.dict fields,paths)
  | .list items =>
    let (items,paths) := walkItems secret_keys path 0 items
    (.list items,paths)
  | v => (v,[])
def walkFields (secret_keys : List String) (path : String) : List (String × PyVal) → Fields × List String
  | [] => ([],[])
  | (key,item) :: rest =>
    let (fields,paths) := walkFields secret_keys path rest
    if is_secret secret_keys key then ((key,.str "[REDACTED]") :: fields,childPath path key :: paths)
    else
      let (masked,found) := walk secret_keys (childPath path key) item
      ((key,masked) :: fields,found ++ paths)
def walkItems (secret_keys : List String) (path : String) : Nat → List PyVal → List PyVal × List String
  | _,[] => ([],[])
  | index,item :: rest =>
    let (masked,found) := walk secret_keys (path ++ "[" ++ toString index ++ "]") item
    let (items,paths) := walkItems secret_keys path (index + 1) rest
    (masked :: items,found ++ paths)
end

/-- The masked copy of a payload and the sorted paths of its secrets. -/
def redact (secret_keys : List String) (payload : Fields) : Fields × List String :=
  let (fields,paths) := walkFields secret_keys "" payload
  (fields,sortedTexts paths.dedup)

/-- The event with its `ui_payload` and redaction filled in. -/
def redactEvent (secret_keys : List String) (event : RuntimeEvent) (level : Visibility) : RuntimeEvent :=
  let (ui_payload,fields) := redact secret_keys event.payload
  { event with ui_payload := some ui_payload, redaction := ⟨level,!fields.isEmpty,fields⟩ }

/-! ### The emitter -/

/-- The emitter: its registry, the names it masks, and the last sequence number
    of every session. -/
structure EventEmitter where
  registry : EventTypeRegistry := load_event_registry
  secret_keys : List String := SECRET_KEYS
  counters : List (String × Nat) := []

def EventEmitter.counter (emitter : EventEmitter) (session_id : String) : Nat :=
  (Dicts.get session_id emitter.counters).getD 0

/-- The event with the next sequence number of its session, unless it has one. -/
def EventEmitter.stage (emitter : EventEmitter) (event : RuntimeEvent) : EventEmitter × RuntimeEvent :=
  if event.seq = 0 then
    let next := emitter.counter event.session_id + 1
    ({ emitter with counters := Dicts.put event.session_id next emitter.counters },
      { event with seq := next, seq_nonneg := Int.natCast_nonneg next })
  else (emitter,event)

/-- Validate the type, number the event, redact it; the sinks receive the result. -/
def EventEmitter.emit_event (emitter : EventEmitter) (event : RuntimeEvent) :
    Except PyError (EventEmitter × RuntimeEvent) :=
  match emitter.registry.get event.event_type with
  | .error error => .error error
  | .ok spec =>
    let (emitter,staged) := emitter.stage event
    .ok (emitter,redactEvent emitter.secret_keys staged spec.visibility)

/-- Build an event and emit it. -/
def EventEmitter.emit (emitter : EventEmitter) (stamp : Stamp) (event_type session_id : String) (actor : Actor)
    (trace : TraceContext) (payload : Fields) (task_id : Option String) :
    Except PyError (EventEmitter × RuntimeEvent) :=
  if typed : event_type ≠ "" then
    if owned : session_id ≠ "" then
      emitter.emit_event
        { event_type, session_id, actor, trace, redaction := {}, event_id := stamp.id, created_at := stamp.time,
          schema_version := 1, seq := 0, round_no := none, workflow_id := none, task_id, source := "runtime",
          payload, ui_payload := none, event_id_nonempty := stamp.id_nonempty, event_type_nonempty := typed,
          session_id_nonempty := owned, created_at_nonempty := stamp.time_nonempty, source_nonempty := by decide,
          schema_version_positive := by decide, seq_nonneg := by decide }
    else .error (emptyField "RuntimeEvent" "session_id")
  else .error (emptyField "RuntimeEvent" "event_type")

/-- The emitter accepts an event of a session exactly when its type is declared. -/
theorem emit_accepts_iff (emitter : EventEmitter) (stamp : Stamp) {event_type session_id : String} (actor : Actor)
    (trace : TraceContext) (payload : Fields) (task_id : Option String) (typed : event_type ≠ "")
    (owned : session_id ≠ "") :
    (emitter.emit stamp event_type session_id actor trace payload task_id).isOk ↔
      (emitter.registry.find event_type).isSome := by
  unfold EventEmitter.emit EventEmitter.emit_event EventTypeRegistry.get
  rw [dif_pos typed,dif_pos owned]
  cases emitter.registry.find event_type with
  | none => simp [Except.isOk,Except.toBool]
  | some spec => simp [Except.isOk,Except.toBool]

/-- Emitting leaves the event types of the emitter as they are. -/
theorem emit_registry {emitter emitter' : EventEmitter} {stamp : Stamp} {event_type session_id : String} {actor : Actor}
    {trace : TraceContext} {payload : Fields} {task_id : Option String} {event : RuntimeEvent}
    (sent : emitter.emit stamp event_type session_id actor trace payload task_id = .ok (emitter',event)) :
    emitter'.registry = emitter.registry := by
  unfold EventEmitter.emit EventEmitter.emit_event at sent
  split at sent
  · split at sent
    · split at sent
      · cases sent
      · cases sent
        rfl
    · cases sent
  · cases sent

end HexAgent.Events
