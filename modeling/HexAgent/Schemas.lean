import HexAgent.Commands
import Mathlib.Data.Finset.Sort
import Mathlib.Data.String.Basic

/-!
The data contracts of the core: task envelopes, tool requests with the lineage of
the calling session, capability results, and the records of a delegation.
-/
namespace HexAgent.Schemas
open HexAgent.Values HexAgent.Commands

/-! ### Tasks and tool calls -/

structure TaskEnvelope where
  user_request : String
  task_id : String
  context : Fields := []
  metadata : Fields := []
  deriving DecidableEq

def TaskEnvelope.as_dict (task : TaskEnvelope) : Fields :=
  [("task_id",.str task.task_id),("user_request",.str task.user_request),("context",.dict task.context),
    ("metadata",.dict task.metadata)]

/-- A task from its dictionary, in which the request is a text. -/
def TaskEnvelope.from_dict (hex : String) (d : Fields) : Except PyError TaskEnvelope := do
  let context ← ((d.get "context").orElse (.dict [])).toDict
  let metadata ← ((d.get "metadata").orElse (.dict [])).toDict
  .ok { user_request := d.textOf "user_request", task_id := orText (d.textOf "task_id") hex, context, metadata }

/-- The lineage and scope of a calling session; no scope means no check. -/
structure ToolCallContext where
  run_id : Option String := none
  task_id : Option String := none
  session_id : Option String := none
  parent_session_id : Option String := none
  delegation_id : Option String := none
  actor_id : Option String := none
  allowed_capabilities : Option (Finset String) := none
  deriving DecidableEq

def ToolCallContext.event_fields (context : ToolCallContext) : Fields :=
  [("run_id",ofOption context.run_id),("task_id",ofOption context.task_id),("session_id",ofOption context.session_id),
    ("parent_session_id",ofOption context.parent_session_id),("delegation_id",ofOption context.delegation_id),
    ("actor_id",ofOption context.actor_id)]

structure ToolRequest where
  name : String
  args : Fields
  context : Option ToolCallContext
  request_id : String
  deriving DecidableEq

/-! ### Sessions -/

/-- Who a session is; its identifier is drawn and never empty. -/
structure SessionIdentity where
  session_id : String
  run_id : String
  task_id : String
  agent_id : String
  parent_session_id : Option String := none
  delegation_id : Option String := none
  depth : Nat := 0
  session_id_nonempty : session_id ≠ ""

/-! ### Delegation -/

structure DelegationSpec where
  objective : String
  input_context : Fields := []
  expected_output_schema : Fields := []
  constraints : List String := []
  deriving DecidableEq

structure DelegationPolicy where
  max_steps : Int := 20
  max_depth : Int := 3
  allowed_capabilities : Finset String := ∅
  deriving DecidableEq

def DelegationSpec.from_dict (data : Fields) : Except PyError DelegationSpec := do
  let input_context ← ((data.get "input_context").orElse (.dict [])).toDict
  let expected_output_schema ← ((data.get "expected_output_schema").orElse (.dict [])).toDict
  let constraints ← ((data.get "constraints").orElse (.tuple [])).iter
  .ok ⟨data.textOf "objective",input_context,expected_output_schema,constraints.map PyVal.text⟩

def DelegationPolicy.from_dict (data : Fields) : Except PyError DelegationPolicy := do
  let max_steps ← (data.getD "max_steps" (.int 20)).toInt
  let max_depth ← (data.getD "max_depth" (.int 3)).toInt
  let names ← ((data.get "allowed_capabilities").orElse (.tuple [])).iter
  .ok ⟨max_steps,max_depth,(names.map PyVal.text).toFinset⟩

/-- A set of names as a sorted list. -/
def sortedNames (names : Finset String) : List String := names.sort (· ≤ ·)

def DelegationPolicy.as_dict (policy : DelegationPolicy) : Fields :=
  [("max_steps",.int policy.max_steps),("max_depth",.int policy.max_depth),
    ("allowed_capabilities",.list ((sortedNames policy.allowed_capabilities).map .str))]

structure DelegationRequest where
  delegation_id : String
  parent_session_id : String
  parent_task_id : String
  target : String
  spec : DelegationSpec
  policy : DelegationPolicy
  deriving DecidableEq

structure ArtifactEnvelope where
  artifact_id : String
  kind : String
  payload : Fields
  schema_version : Int := 1
  deriving DecidableEq

def ArtifactEnvelope.as_dict (artifact : ArtifactEnvelope) : Fields :=
  [("artifact_id",.str artifact.artifact_id),("kind",.str artifact.kind),
    ("schema_version",.int artifact.schema_version),("payload",.dict artifact.payload)]

inductive ProgressStatus where
  | running
  | waiting
  | blocked
  deriving DecidableEq, Repr

def ProgressStatus.value : ProgressStatus → String
  | .running => "running"
  | .waiting => "waiting"
  | .blocked => "blocked"

structure DelegationProgress where
  delegation_id : String
  sequence : Int
  event_id : String
  artifact : ArtifactEnvelope
  status : ProgressStatus := .running
  deriving DecidableEq

inductive Outcome where
  | success
  | failed
  | rejected
  | timeout
  deriving DecidableEq, Repr

def Outcome.value : Outcome → String
  | .success => "success"
  | .failed => "failed"
  | .rejected => "rejected"
  | .timeout => "timeout"

structure DelegationResult where
  delegation_id : String
  parent_task_id : String
  outcome : Outcome
  artifacts : List ArtifactEnvelope := []
  summary : Fields := []
  error : Option String := none
  deriving DecidableEq

def DelegationResult.as_dict (result : DelegationResult) : Fields :=
  [("delegation_id",.str result.delegation_id),("parent_task_id",.str result.parent_task_id),
    ("outcome",.str result.outcome.value),("artifacts",.list (result.artifacts.map fun artifact => .dict artifact.as_dict)),
    ("summary",.dict result.summary),("error",ofOption result.error)]

end HexAgent.Schemas
