import HexAgent.Values

/-!
Control-plane commands: the issuer, the validated command with its dictionary
form, and the registry of command types.
-/
namespace HexAgent.Commands
open HexAgent.Values

/-- A fresh identifier and the time it was drawn at; neither is empty. -/
structure Stamp where
  id : String
  time : String
  id_nonempty : id ≠ ""
  time_nonempty : time ≠ ""

/-! ### Issuers -/

inductive IssuerType where
  | human
  | agent
  | system
  deriving DecidableEq, Repr

def IssuerType.value : IssuerType → String
  | .human => "human"
  | .agent => "agent"
  | .system => "system"

def IssuerType.ofValue (s : String) : Option IssuerType :=
  [IssuerType.human,.agent,.system].find? fun t => t.value = s

/-- An optional text that is there and not empty. -/
def Given (text : Option String) : Prop := ∃ s, text = some s ∧ s ≠ ""

instance : DecidablePred Given := fun text => match text with
  | none => isFalse (by rintro ⟨_,same,_⟩; cases same)
  | some s => decidable_of_iff (s ≠ "") ⟨fun h => ⟨s,rfl,h⟩,by rintro ⟨_,same,h⟩; cases same; exact h⟩

/-- Who issued a command. A human names a user, an agent an agent. -/
structure IssuedBy where
  type : IssuerType
  user_id : Option String
  agent_id : Option String
  human_named : type = .human → Given user_id
  agent_named : type = .agent → Given agent_id
  deriving DecidableEq

def IssuedBy.make (type : String) (user_id agent_id : Option String) : Except PyError IssuedBy :=
  match IssuerType.ofValue type with
  | none => .error (.ControlContractError
      ("IssuedBy.type must be one of ['agent', 'human', 'system'], got " ++ reprText type ++ "."))
  | some type =>
    if human : type = .human → Given user_id then
      if agent : type = .agent → Given agent_id then .ok ⟨type,user_id,agent_id,human,agent⟩
      else .error (.ControlContractError "IssuedBy(type='agent') requires an agent_id.")
    else .error (.ControlContractError "IssuedBy(type='human') requires a user_id.")

/-- An optional text as a value. -/
def ofOption : Option String → PyVal
  | some s => .str s
  | none => .null

def IssuedBy.as_dict (issuer : IssuedBy) : Fields :=
  [("type",.str issuer.type.value),("user_id",ofOption issuer.user_id),("agent_id",ofOption issuer.agent_id)]

/-- `str(d[key]) if d.get(key) else None`. -/
def textIfGiven (d : Fields) (key : String) : Option String :=
  if (d.get key).truthy then some (d.get key).text else none

/-- `d.get(key)` of a value that is not a dictionary raises. -/
def noGet (v : PyVal) : PyError := .AttributeError ("'" ++ v.cls ++ "' object has no attribute 'get'")

def IssuedBy.from_dict : PyVal → Except PyError IssuedBy
  | .dict d => IssuedBy.make (Fields.textOf d "type") (textIfGiven d "user_id") (textIfGiven d "agent_id")
  | v => .error (noGet v)

/-! ### Commands -/

/-- A validated command: its required texts are not empty. -/
structure RuntimeCommand where
  command_type : String
  session_id : String
  issued_by : IssuedBy
  idempotency_key : String
  payload : Fields
  command_id : String
  created_at : String
  schema_version : Int
  command_id_nonempty : command_id ≠ ""
  command_type_nonempty : command_type ≠ ""
  session_id_nonempty : session_id ≠ ""
  idempotency_key_nonempty : idempotency_key ≠ ""
  created_at_nonempty : created_at ≠ ""
  schema_version_positive : 1 ≤ schema_version
  deriving DecidableEq

/-- The error for a required field that is empty. -/
def emptyField (record name : String) : PyError :=
  .ControlContractError (record ++ "." ++ name ++ " is required and must be non-empty.")

def RuntimeCommand.make (command_type session_id : String) (issued_by : IssuedBy) (idempotency_key : String)
    (payload : Fields) (command_id created_at : String) (schema_version : Int) : Except PyError RuntimeCommand :=
  if h₁ : command_id ≠ "" then
    if h₂ : command_type ≠ "" then
      if h₃ : session_id ≠ "" then
        if h₄ : idempotency_key ≠ "" then
          if h₅ : created_at ≠ "" then
            if h₆ : 1 ≤ schema_version then
              .ok ⟨command_type,session_id,issued_by,idempotency_key,payload,command_id,created_at,schema_version,
                h₁,h₂,h₃,h₄,h₅,h₆⟩
            else .error (.ControlContractError "RuntimeCommand.schema_version must be >= 1.")
          else .error (emptyField "RuntimeCommand" "created_at")
        else .error (emptyField "RuntimeCommand" "idempotency_key")
      else .error (emptyField "RuntimeCommand" "session_id")
    else .error (emptyField "RuntimeCommand" "command_type")
  else .error (emptyField "RuntimeCommand" "command_id")

def RuntimeCommand.as_dict (c : RuntimeCommand) : Fields :=
  [("command_id",.str c.command_id),("command_type",.str c.command_type),("schema_version",.int c.schema_version),
    ("session_id",.str c.session_id),("issued_by",.dict c.issued_by.as_dict),("payload",.dict c.payload),
    ("idempotency_key",.str c.idempotency_key),("created_at",.str c.created_at)]

/-- A command from its dictionary; a missing identifier or time is drawn. -/
def RuntimeCommand.from_dict (stamp : Stamp) (d : Fields) : Except PyError RuntimeCommand := do
  let issued_by ← IssuedBy.from_dict ((d.get "issued_by").orElse (.dict []))
  let payload ← ((d.get "payload").orElse (.dict [])).toDict
  let schema_version ← (d.getD "schema_version" (.int 1)).toInt
  RuntimeCommand.make (d.textOf "command_type") (d.textOf "session_id") issued_by (d.textOf "idempotency_key")
    payload (orText (d.textOf "command_id") stamp.id) (orText (d.textOf "created_at") stamp.time) schema_version

def parse_command (stamp : Stamp) (data : Fields) : Except PyError RuntimeCommand :=
  if ¬ (data.get "idempotency_key").truthy then
    .error (.ControlContractError "Command requires a non-empty 'idempotency_key'.")
  else match data.get "issued_by" with
    | .dict _ => RuntimeCommand.from_dict stamp data
    | _ => .error (.ControlContractError "Command requires an 'issued_by' object.")

theorem ofValue_value (type : IssuerType) : IssuerType.ofValue type.value = some type := by
  cases type <;> decide

theorem issuer_make (issuer : IssuedBy) :
    IssuedBy.make issuer.type.value issuer.user_id issuer.agent_id = .ok issuer := by
  simp only [IssuedBy.make,ofValue_value]
  rw [dif_pos issuer.human_named,dif_pos issuer.agent_named]

theorem command_make (c : RuntimeCommand) :
    RuntimeCommand.make c.command_type c.session_id c.issued_by c.idempotency_key c.payload c.command_id
      c.created_at c.schema_version = .ok c := by
  unfold RuntimeCommand.make
  rw [dif_pos c.command_id_nonempty,dif_pos c.command_type_nonempty,dif_pos c.session_id_nonempty,
    dif_pos c.idempotency_key_nonempty,dif_pos c.created_at_nonempty,dif_pos c.schema_version_positive]

theorem textIfGiven_ofOption {text : Option String} (given : text ≠ some "") (d : Fields) (key : String)
    (stored : d.get key = ofOption text) : textIfGiven d key = text := by
  unfold textIfGiven
  rw [stored]
  cases text with
  | none => rfl
  | some s =>
    have nonempty : s ≠ "" := fun empty => given (by rw [empty])
    simp [ofOption,nonempty]

/-- A command that was made has the fields it was made of. -/
theorem make_fields {command_type session_id idempotency_key command_id created_at : String} {issued_by : IssuedBy}
    {payload : Fields} {schema_version : Int} {c : RuntimeCommand}
    (made : RuntimeCommand.make command_type session_id issued_by idempotency_key payload command_id created_at
      schema_version = .ok c) :
    c.command_type = command_type ∧ c.session_id = session_id ∧ c.issued_by = issued_by ∧
      c.idempotency_key = idempotency_key ∧ c.payload = payload := by
  unfold RuntimeCommand.make at made
  split_ifs at made
  cases made
  exact ⟨rfl,rfl,rfl,rfl,rfl⟩

/-- Making a command of non-empty texts succeeds. -/
theorem make_succeeds {command_type session_id idempotency_key : String} (typed : command_type ≠ "")
    (owned : session_id ≠ "") (keyed : idempotency_key ≠ "") (issued_by : IssuedBy) (payload : Fields) (stamp : Stamp) :
    ∃ c, RuntimeCommand.make command_type session_id issued_by idempotency_key payload stamp.id stamp.time 1 = .ok c := by
  unfold RuntimeCommand.make
  rw [dif_pos stamp.id_nonempty,dif_pos typed,dif_pos owned,dif_pos keyed,dif_pos stamp.time_nonempty,
    dif_pos (by decide)]
  exact ⟨_,rfl⟩

/-- Making a command fails with no other exception than `ControlContractError`. -/
theorem make_fails {command_type session_id idempotency_key command_id created_at : String} {issued_by : IssuedBy}
    {payload : Fields} {schema_version : Int} {error : PyError}
    (failed : RuntimeCommand.make command_type session_id issued_by idempotency_key payload command_id created_at
      schema_version = .error error) : ∃ message, error = .ControlContractError message := by
  unfold RuntimeCommand.make emptyField at failed
  split_ifs at failed <;> exact ⟨_,(Except.error.inj failed).symm⟩

/-- A command is read back from its dictionary, provided that its issuer's
    optional names are absent or not empty. -/
theorem from_dict_as_dict (stamp : Stamp) (c : RuntimeCommand) (user : c.issued_by.user_id ≠ some "")
    (agent : c.issued_by.agent_id ≠ some "") : RuntimeCommand.from_dict stamp c.as_dict = .ok c := by
  have issuer : IssuedBy.from_dict (.dict c.issued_by.as_dict) = .ok c.issued_by := by
    simp only [IssuedBy.from_dict,textIfGiven_ofOption user c.issued_by.as_dict "user_id" rfl,
      textIfGiven_ofOption agent c.issued_by.as_dict "agent_id" rfl]
    exact issuer_make c.issued_by
  have payload : ((PyVal.dict c.payload).orElse (.dict [])).toDict = .ok c.payload := toDict_orElse_dict c.payload
  have id : orText c.command_id stamp.id = c.command_id := if_neg c.command_id_nonempty
  have time : orText c.created_at stamp.time = c.created_at := if_neg c.created_at_nonempty
  calc RuntimeCommand.from_dict stamp c.as_dict
      = (IssuedBy.from_dict (.dict c.issued_by.as_dict)).bind fun issued_by =>
          (((PyVal.dict c.payload).orElse (.dict [])).toDict).bind fun payload =>
            RuntimeCommand.make c.command_type c.session_id issued_by c.idempotency_key payload
              (orText c.command_id stamp.id) (orText c.created_at stamp.time) c.schema_version := rfl
    _ = RuntimeCommand.make c.command_type c.session_id c.issued_by c.idempotency_key c.payload c.command_id
          c.created_at c.schema_version := by rw [issuer,payload,id,time]; rfl
    _ = .ok c := command_make c

/-! ### Command types -/

/-- When a command applies. -/
inductive ApplyAt where
  | next_checkpoint
  | immediate_if_waiting
  | immediate
  deriving DecidableEq, Repr

structure CommandTypeSpec where
  command_type : String
  apply_at : ApplyAt
  requires_permission : Option String
  deriving DecidableEq, Repr

/-- The registry of command types, by their names. -/
structure CommandTypeRegistry where
  specs : List CommandTypeSpec

def CommandTypeRegistry.get (registry : CommandTypeRegistry) (command_type : String) :
    Except PyError CommandTypeSpec :=
  match registry.specs.find? fun spec => spec.command_type = command_type with
  | some spec => .ok spec
  | none => .error (.ControlContractError
      ("Unknown command_type: " ++ reprText command_type ++ ". Declare it in runtime_command_types.yaml."))

/-- The command types of `config/runtime_command_types.yaml`. -/
def load_command_registry : CommandTypeRegistry where
  specs := [
    ⟨"PauseWorkflow",.next_checkpoint,none⟩,
    ⟨"ResumeWorkflow",.next_checkpoint,none⟩,
    ⟨"StopAgentTurn",.immediate,none⟩,
    ⟨"AddAgentToLoop",.next_checkpoint,some "workflow.modify_agents"⟩,
    ⟨"RemoveAgentFromLoop",.next_checkpoint,some "workflow.modify_agents"⟩,
    ⟨"EditAgentInstruction",.next_checkpoint,some "workflow.edit_instruction"⟩,
    ⟨"SetSystemPrompt",.next_checkpoint,some "workflow.edit_instruction"⟩,
    ⟨"InjectHook",.next_checkpoint,some "workflow.modify_hooks"⟩,
    ⟨"AddSkill",.next_checkpoint,some "workflow.modify_skills"⟩,
    ⟨"UpdateAgentPermission",.next_checkpoint,some "workflow.modify_permissions"⟩,
    ⟨"ApproveCheckpoint",.immediate_if_waiting,some "checkpoint.approve"⟩,
    ⟨"RejectCheckpoint",.immediate_if_waiting,some "checkpoint.reject"⟩,
    ⟨"ApproveToolCall",.immediate_if_waiting,some "tool.approve"⟩,
    ⟨"RejectToolCall",.immediate_if_waiting,some "tool.reject"⟩,
    ⟨"RollbackArtifact",.next_checkpoint,some "artifact.rollback"⟩]

theorem shipped_addAgent :
    load_command_registry.get "AddAgentToLoop" =
      .ok ⟨"AddAgentToLoop",.next_checkpoint,some "workflow.modify_agents"⟩ := by
  decide +kernel

end HexAgent.Commands
