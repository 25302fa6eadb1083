import HexAgent.Supervisor

/-!
The bridge from the orchestrator's command intents to the control plane: it
translates, queues and applies commands, and it alone grows the roster. Commands
are deduplicated by their idempotency keys, against the queue and the keys
already applied.
-/
namespace HexAgent.CommandBridge
open HexAgent.Values HexAgent.Board HexAgent.Commands HexAgent.Contracts HexAgent.Supervisor Journals Programs

def ORCHESTRATOR_ID : String := "orchestrator"

/-- A key from the intent of a command. -/
def derive_idempotency_key (command_type : String) (payload : Fields) : String :=
  let agent_id := strip (payload.textOf "agent_id")
  if agent_id = "" then command_type else command_type ++ ":" ++ agent_id

/-- The type that a raw command names. -/
def typeOf (raw : Fields) : String := strip (raw.textOf "command_type")

/-- The key of a raw command with the given payload: its own, else the derived one. -/
def keyOf (raw payload : Fields) : String :=
  orText (strip (raw.textOf "idempotency_key")) (derive_idempotency_key (typeOf raw) payload)

/-- What the control plane is asked to parse for a raw command. -/
def candidate (raw payload : Fields) (session_id : String) : Fields :=
  [("command_type",.str (typeOf raw)),("session_id",.str session_id),
    ("issued_by",.dict [("type",.str "agent"),("agent_id",.str ORCHESTRATOR_ID)]),
    ("idempotency_key",.str (keyOf raw payload)),("payload",.dict payload)]

/-- The validated command of one command that the orchestrator issued. -/
def to_runtime_command (stamp : Stamp) (raw : Fields) (session_id : String) : Except PyError RuntimeCommand :=
  if typeOf raw = "" then .error (.ControlContractError "O command requires a non-empty 'command_type'.")
  else do
    let payload ← ((raw.get "payload").orElse (.dict [])).toDict
    parse_command stamp (candidate raw payload session_id)

def queued_keys (commands : List Fields) : List String := commands.map fun c => c.textOf "idempotency_key"

/-- The queue while commands are added: the keys seen, the commands, and how many
    are new. -/
structure Queue where
  seen : List String
  pending : List Fields
  added : Nat

/-- Queue one command, unless its key was seen; a command that fails validation is skipped. -/
def enqueueOne (stamp : Stamp) (session_id : String) (queue : Queue) (raw : Fields) : Except PyError Queue :=
  match to_runtime_command stamp raw session_id with
  | .error (.ControlContractError _) => .ok queue
  | .error error => .error error
  | .ok cmd =>
    if cmd.idempotency_key ∈ queue.seen then .ok queue
    else .ok ⟨cmd.idempotency_key :: queue.seen,queue.pending ++ [cmd.as_dict],queue.added + 1⟩

section
variable (ctx : SupervisorContext)

/-- Queue the commands of a decision and return how many are new. A command that
    cannot be translated raises before the queue is written. -/
def enqueue_commands (decision : OrchestratorDecision) : Sup Nat := do
  let state ← currentBoard
  let seen := queued_keys state.pending_commands ++ state.applied_command_keys
  let queue ← fold (fun queue raw => do
    let stamp ← drawStamp ctx
    lift (enqueueOne stamp state.session_id queue raw)) ⟨seen,state.pending_commands,0⟩ decision.commands
  write fun state => { state with pending_commands := queue.pending }
  pure queue.added

def rejected (key reason : String) : Sup Unit :=
  emit ctx "command.rejected" [("idempotency_key",.str key),("reason",.str reason)]

def skipped (key reason : String) : Sup Unit :=
  emit ctx "command.skipped" [("idempotency_key",.str key),("reason",.str reason)]

/-- Apply one queued command; the count grows when the roster does. -/
def applyOne (registry : CommandTypeRegistry) (catalog : List String) (applied : Nat) (raw : Fields) : Sup Nat := do
  let stamp ← drawStamp ctx
  let cmd ← lift (RuntimeCommand.from_dict stamp raw)
  let key := cmd.idempotency_key
  let state ← currentBoard
  if key ∈ state.applied_command_keys then pure applied
  else match registry.get cmd.command_type with
    | .error _ => do
      rejected ctx key ("unknown command_type " ++ reprText cmd.command_type)
      pure applied
    | .ok spec =>
      if cmd.issued_by.type ≠ .agent then do
        rejected ctx key "non-agent issuer; permission path not implemented"
        pure applied
      else if spec.apply_at ≠ .next_checkpoint then do
        skipped ctx key "apply_at is not next_checkpoint"
        pure applied
      else if cmd.command_type ≠ "AddAgentToLoop" then do
        skipped ctx key (cmd.command_type ++ " not supported in v1")
        pure applied
      else
        let agent_id := strip (cmd.payload.textOf "agent_id")
        if agent_id ∉ catalog then do
          rejected ctx key ("agent " ++ reprText agent_id ++ " not in catalog")
          pure applied
        else if agent_id ∈ state.selected_agents then do
          write fun state => { state with applied_command_keys := state.applied_command_keys ++ [key] }
          pure applied
        else do
          write fun state => { state with applied_command_keys := state.applied_command_keys ++ [key],
                                          selected_agents := state.selected_agents ++ [agent_id] }
          emit ctx "loop.agent_added" [("agent_id",.str agent_id),("idempotency_key",.str key)]
          pure (applied + 1)

/-- Apply every queued command, clear the queue, and return how far the roster grew. -/
def apply_pending_commands (registry : CommandTypeRegistry) (catalog : List String) : Sup Nat := do
  let state ← currentBoard
  let applied ← fold (applyOne ctx registry catalog) 0 state.pending_commands
  write fun state => { state with pending_commands := [] }
  pure applied

end

/-! ### What a translated command is -/

/-- The issuer of every command of the orchestrator. -/
def orchestrator : IssuedBy where
  type := .agent
  user_id := none
  agent_id := some ORCHESTRATOR_ID
  human_named := nofun
  agent_named := fun _ => ⟨ORCHESTRATOR_ID,rfl,by decide⟩

theorem derived_key_nonempty {command_type : String} (typed : command_type ≠ "") (payload : Fields) :
    derive_idempotency_key command_type payload ≠ "" := by
  unfold derive_idempotency_key
  simp only
  split
  · exact typed
  · simp [String.append_eq_empty_iff]

theorem keyOf_nonempty {raw : Fields} (typed : typeOf raw ≠ "") (payload : Fields) : keyOf raw payload ≠ "" := by
  unfold keyOf orText
  split
  · exact derived_key_nonempty typed payload
  · next given => exact given

/-- Translating a command with a type and a payload makes it, issued by the orchestrator. -/
theorem to_runtime_command_eq (stamp : Stamp) {raw payload : Fields} (session_id : String) (typed : typeOf raw ≠ "")
    (read : ((raw.get "payload").orElse (.dict [])).toDict = .ok payload) :
    to_runtime_command stamp raw session_id =
      RuntimeCommand.make (typeOf raw) session_id orchestrator (keyOf raw payload) payload stamp.id stamp.time 1 := by
  have keyed : (Fields.get (candidate raw payload session_id) "idempotency_key").truthy = true := by
    simpa [Fields.get,Fields.getD,Dicts.get,candidate] using keyOf_nonempty typed payload
  have parsed : parse_command stamp (candidate raw payload session_id) =
      RuntimeCommand.from_dict stamp (candidate raw payload session_id) := by
    unfold parse_command
    rw [if_neg (by rw [keyed]; decide)]
    rfl
  have issued : IssuedBy.from_dict ((Fields.get (candidate raw payload session_id) "issued_by").orElse (.dict [])) =
      .ok orchestrator := rfl
  have payloadRead : ((Fields.get (candidate raw payload session_id) "payload").orElse (.dict [])).toDict =
      .ok payload := toDict_orElse_dict payload
  have version : (Fields.getD (candidate raw payload session_id) "schema_version" (.int 1)).toInt = .ok 1 := rfl
  unfold to_runtime_command
  rw [if_neg typed,read]
  simp only [bind,Except.bind]
  rw [parsed,RuntimeCommand.from_dict,issued,payloadRead,version]
  rfl

/-- A translated command has the type and the key of the raw one and is issued
    by the orchestrator. -/
theorem to_runtime_command_spec {stamp : Stamp} {raw : Fields} {session_id : String} {cmd : RuntimeCommand}
    (translated : to_runtime_command stamp raw session_id = .ok cmd) :
    ∃ payload, ((raw.get "payload").orElse (.dict [])).toDict = .ok payload ∧ cmd.command_type = typeOf raw ∧
      cmd.issued_by = orchestrator ∧ cmd.idempotency_key = keyOf raw payload ∧ cmd.payload = payload := by
  by_cases typed : typeOf raw = ""
  · rw [to_runtime_command,if_pos typed] at translated
    cases translated
  · rcases read : ((raw.get "payload").orElse (.dict [])).toDict with error | payload
    · rw [to_runtime_command,if_neg typed,read] at translated
      cases translated
    · rw [to_runtime_command_eq stamp session_id typed read] at translated
      obtain ⟨type,-,issuer,key,same⟩ := make_fields translated
      exact ⟨payload,rfl,type,issuer,key,same⟩

/-- Translation raises anything but `ControlContractError` only for a payload
    that is no dictionary. -/
theorem to_runtime_command_fails {stamp : Stamp} {raw : Fields} {session_id : String} {error : PyError}
    (failed : to_runtime_command stamp raw session_id = .error error) :
    (∃ message, error = .ControlContractError message) ∨
      typeOf raw ≠ "" ∧ ((raw.get "payload").orElse (.dict [])).toDict = .error error := by
  by_cases typed : typeOf raw = ""
  · rw [to_runtime_command,if_pos typed] at failed
    exact .inl ⟨_,(Except.error.inj failed).symm⟩
  · rcases read : ((raw.get "payload").orElse (.dict [])).toDict with error' | payload
    · rw [to_runtime_command,if_neg typed,read] at failed
      exact .inr ⟨typed,by cases failed; rfl⟩
    · rw [to_runtime_command_eq stamp session_id typed read] at failed
      exact .inl (make_fails failed)

/-- The stamp does not decide whether a command is translated, nor its key. -/
theorem translation_stable {stamp : Stamp} (stamp' : Stamp) {raw : Fields} {session_id : String} {cmd : RuntimeCommand}
    (translated : to_runtime_command stamp raw session_id = .ok cmd) :
    ∃ cmd', to_runtime_command stamp' raw session_id = .ok cmd' ∧ cmd'.idempotency_key = cmd.idempotency_key := by
  obtain ⟨payload,read,type,-,key,-⟩ := to_runtime_command_spec translated
  have typed : typeOf raw ≠ "" := by rw [← type]; exact cmd.command_type_nonempty
  have owned : session_id ≠ "" := by
    rw [to_runtime_command_eq stamp session_id typed read] at translated
    rw [← (make_fields translated).2.1]
    exact cmd.session_id_nonempty
  obtain ⟨cmd',made⟩ := make_succeeds typed owned (keyOf_nonempty typed payload) orchestrator payload stamp'
  refine ⟨cmd',by rw [to_runtime_command_eq stamp' session_id typed read]; exact made,?_⟩
  rw [key,(make_fields made).2.2.2.1]

/-- Queueing one command either leaves the queue as it is, because the command is
    not translated or its key was seen, or adds the translated command. -/
theorem enqueueOne_ok {stamp : Stamp} {session_id : String} {queue queue' : Queue} {raw : Fields}
    (queued : enqueueOne stamp session_id queue raw = .ok queue') :
    queue' = queue ∧ (∀ stamp' cmd, to_runtime_command stamp' raw session_id = .ok cmd →
      cmd.idempotency_key ∈ queue.seen) ∨
    ∃ cmd, to_runtime_command stamp raw session_id = .ok cmd ∧ cmd.idempotency_key ∉ queue.seen ∧
      queue' = ⟨cmd.idempotency_key :: queue.seen,queue.pending ++ [cmd.as_dict],queue.added + 1⟩ := by
  unfold enqueueOne at queued
  rcases translated : to_runtime_command stamp raw session_id with error | cmd
  · have fails : ∀ stamp' cmd, to_runtime_command stamp' raw session_id = .ok cmd → cmd.idempotency_key ∈ queue.seen := by
      intro stamp' cmd elsewhere
      obtain ⟨cmd',here,-⟩ := translation_stable stamp elsewhere
      rw [translated] at here
      cases here
    rw [translated] at queued
    cases error <;> first | exact .inl ⟨(Except.ok.inj queued).symm,fails⟩ | cases queued
  · rw [translated] at queued
    simp only at queued
    split at queued
    · next seen =>
      refine .inl ⟨(Except.ok.inj queued).symm,fun stamp' cmd' elsewhere => ?_⟩
      obtain ⟨cmd'',here,key⟩ := translation_stable stamp elsewhere
      rw [translated] at here
      cases here
      rw [← key]
      exact seen
    · next unseen => exact .inr ⟨cmd,rfl,unseen,(Except.ok.inj queued).symm⟩

end HexAgent.CommandBridge
