import HexAgent.Budgets
import HexAgent.Programs
import HexAgent.Schemas

/-!
The kernel: the registry of capabilities and the one path on which a tool is
executed, through the middleware, with a balanced pair of events around it.
Middleware, executors and objects of other classes are arbitrary: they may keep
state of their own, return any value and raise.
-/
namespace HexAgent.Kernel
open HexAgent.Values HexAgent.Commands HexAgent.Schemas HexAgent.Budgets Dicts Programs

/-! ### The Python runtime -/

mutual
/-- The objects of other classes inside a value. -/
def PyVal.objects : PyVal → List PyObject
  | .list items => objectsOf items
  | .tuple items => objectsOf items
  | .dict fields => objectsIn fields
  | .object o => [o]
  | _ => []
def objectsOf : List PyVal → List PyObject
  | [] => []
  | item :: rest => PyVal.objects item ++ objectsOf rest
def objectsIn : List (String × PyVal) → List PyObject
  | [] => []
  | (_,v) :: rest => PyVal.objects v ++ objectsIn rest
end

/-- What the runtime does with the objects of other classes and with exceptions, and
    the identifiers that `uuid4` draws, all distinct. Any of it may raise. -/
structure Host where
  truth : PyObject → Except PyError Bool
  str : PyObject → Except PyError Unit
  copy : PyObject → Except PyError Unit
  items : PyObject → Except PyError Fields
  setdefault : PyObject → Except PyError Unit
  describe : Describe
  hex : Nat → String
  hex_injective : ∀ m n, hex m = hex n → m = n
  hex_nonempty : ∀ n, hex n ≠ ""

namespace Host
variable (host : Host)

/-- `bool(v)`. -/
def bool : PyVal → Except PyError Bool
  | .object o => host.truth o
  | v => .ok v.truthy

/-- `a or b`. -/
def or (a b : PyVal) : Except PyError PyVal := do if ← host.bool a then .ok a else .ok b

/-- `str(v)`: the first object inside that has no text decides the exception. -/
def text (v : PyVal) : Except PyError String := do
  (PyVal.objects v).forM host.str
  .ok v.text

/-- `copy.deepcopy(v)`, which is `v` again unless an object inside refuses. -/
def deepcopy (v : PyVal) : Except PyError Unit := (PyVal.objects v).forM host.copy

/-- `dict(v)`. -/
def dict : PyVal → Except PyError Fields
  | .object o => host.items o
  | v => v.toDict

end Host

/-- A host on which the objects of other classes behave: they have a text, can be copied
    and are neither mappings nor take defaults. -/
def plainHost : Host where
  truth o := .ok o.truth
  str _ := .ok ()
  copy _ := .ok ()
  items o := .error (.TypeError ("'" ++ o.cls ++ "' object is not iterable"))
  setdefault o := .error (.AttributeError ("'" ++ o.cls ++ "' object has no attribute 'setdefault'"))
  describe exc := .ok exc.message
  hex n := String.ofList (List.replicate (n + 1) 'a')
  hex_injective m n same := by simpa using congrArg String.length same
  hex_nonempty n := by simp [← String.toList_inj]

/-- `d.setdefault(key, v)`. -/
def Fields.setdefault (fields : Fields) (key : String) (v : PyVal) : Fields :=
  match Dicts.get key fields with
  | some _ => fields
  | none => fields ++ [(key,v)]

/-! ### Capability results -/

def ENVELOPE_KEYS : List String := ["ok","capability","feature","data","error","metadata"]

def is_capability_result (result : Fields) : Bool := ENVELOPE_KEYS.all fun key => (Dicts.get key result).isSome

/-- The envelope that every tool call returns. A tool may put any value in its
    feature and its error. -/
structure CapabilityResult where
  ok : Bool
  capability : String
  feature : PyVal := .null
  data : Fields := []
  error : PyVal := .null
  metadata : Fields := []

def CapabilityResult.as_dict (result : CapabilityResult) : Fields :=
  [("ok",.bool result.ok),("capability",.str result.capability),("feature",result.feature),("data",.dict result.data),
    ("error",result.error),("metadata",.dict result.metadata)]

/-- The error of a raw result: none when it is ok. -/
def rawError (host : Host) (ok : Bool) (result : Fields) : Except PyError PyVal :=
  if ok then .ok .null
  else do
    let text ← host.text (← host.or (result.get "error") (.str "Capability execution failed."))
    .ok (.str text)

/-- The envelope of what a tool returned: an envelope of its own is kept, anything else
    is wrapped; the metadata of the kernel overrides that of the tool. -/
def CapabilityResult.from_raw (host : Host) (capability : String) (feature : Option String) (result metadata : Fields) :
    Except PyError CapabilityResult :=
  if is_capability_result result then do
    let given ← host.dict (← host.or (result.get "metadata") (.dict []))
    let ok ← host.bool (result.get "ok")
    let capability ← host.text (← host.or (result.get "capability") (.str capability))
    let feature := match result.get "feature" with
      | .null => ofOption feature
      | v => v
    let data ← host.dict (← host.or (result.get "data") (.dict []))
    .ok { ok, capability, feature, data, error := result.get "error", metadata := Dicts.merge given metadata }
  else do
    let ok ← host.bool (result.getD "ok" (.bool false))
    let error ← rawError host ok result
    let data := result.filter fun field => field.1 ∉ ["ok","error","metadata"]
    let given ← host.dict (← host.or (result.get "metadata") (.dict []))
    let raw_keys := PyVal.list ((sortedTexts (result.map Prod.fst)).map .str)
    .ok { ok, capability, feature := ofOption feature, data, error,
          metadata := Fields.setdefault (Dicts.merge given metadata) "raw_keys" raw_keys }

/-! ### The registry -/

structure ToolDescriptor where
  kind : String := "tool"
  idempotent : Bool := false
  risk : String := "low"
  deriving DecidableEq, Repr

def DEFAULT_DESCRIPTOR : ToolDescriptor := {}

/-- The concrete behaviour of a tool, over a state of its own. -/
structure Executor (σ : Type) where
  name : String
  execute : ToolRequest → σ → Except PyError PyVal × σ

section
variable {σ : Type}

/-- Keeps the kernel alive when a tool is missing. -/
def NullToolPort : Executor σ where
  name := "null_tool"
  execute request state := (.ok (.dict [("ok",.bool false),("tool",.str request.name),("missing_capability",.bool true),
    ("error",.str ("No tool capability is registered for '" ++ request.name ++ "'."))]),state)

/-- The executor of a name, the feature it belongs to and how it is described. -/
structure ToolResolution (σ : Type) where
  executor : Executor σ
  feature : Option String
  descriptor : ToolDescriptor := DEFAULT_DESCRIPTOR

structure CapabilityRegistry (σ : Type) where
  tools : Dict String (Executor σ) := ∅
  tool_features : Dict String String := ∅
  descriptors : Dict String ToolDescriptor := ∅
  fallback : Option (Executor σ × Option String) := none
  null : Executor σ := NullToolPort

namespace CapabilityRegistry
variable (registry : CapabilityRegistry σ)

def register_tool (name : String) (executor : Executor σ) (feature_name : Option String) (kind : String)
    (idempotent : Bool) (risk : String) : CapabilityRegistry σ :=
  { registry with
    tools := registry.tools.put name executor
    tool_features := match feature_name with
      | some feature => if feature = "" then registry.tool_features else registry.tool_features.put name feature
      | none => registry.tool_features
    descriptors := registry.descriptors.put name ⟨kind,idempotent,risk⟩ }

def set_fallback_tool_executor (executor : Option (Executor σ)) (feature_name : Option String) : CapabilityRegistry σ :=
  { registry with fallback := executor.map fun executor => (executor,feature_name) }

/-- A registered tool wins, then the fallback, then the null tool. -/
def resolve_tool (name : String) : ToolResolution σ :=
  match registry.tools.get name with
  | some executor =>
    ⟨executor,registry.tool_features.get name,(registry.descriptors.get name).getD DEFAULT_DESCRIPTOR⟩
  | none => match registry.fallback with
    | some (executor,feature) => ⟨executor,feature,DEFAULT_DESCRIPTOR⟩
    | none => ⟨registry.null,none,DEFAULT_DESCRIPTOR⟩

def has_tool (name : String) : Bool := name ∈ registry.tools.keys

/-- The names of `list_tools`. -/
def names : List String := sortedTexts registry.tools.keys

theorem mem_names {name : String} : name ∈ registry.names ↔ name ∈ registry.tools.keys := by
  rw [names,sortedTexts,(List.perm_insertionSort _ _).mem_iff]

/-- A registered tool is resolved as it was registered. -/
theorem resolve_registered (name : String) (executor : Executor σ) (feature_name : Option String) (kind : String)
    (idempotent : Bool) (risk : String) :
    ((registry.register_tool name executor feature_name kind idempotent risk).resolve_tool name).executor = executor ∧
      ((registry.register_tool name executor feature_name kind idempotent risk).resolve_tool name).descriptor =
        ⟨kind,idempotent,risk⟩ := by
  simp [resolve_tool,register_tool]

end CapabilityRegistry

/-! ### The world of the kernel -/

/-- What the code outside keeps: its own state, and the budgets of the guards. -/
structure Heap (σ : Type) where
  state : σ
  budgets : Nat → Budget

/-- What a tool call works on: the heap, and the requests that reached an executor. -/
structure Bench (σ : Type) where
  heap : Heap σ
  invoked : List ToolRequest := []

/-- The computations of the tool path. -/
abbrev Tooling (σ : Type) := ExceptT PyError (StateM (Bench σ))

abbrev Handler (σ : Type) := ToolRequest → Tooling σ PyVal
/-- A middleware may do anything with the handler inside it. -/
abbrev Middleware (σ : Type) := ToolRequest → Handler σ → Tooling σ PyVal

theorem tooling_bind {α β : Type} (m : Tooling σ α) (k : α → Tooling σ β) (bench : Bench σ) :
    (m >>= k).run bench = match m.run bench with
      | (.ok a,bench') => (k a).run bench'
      | (.error error,bench') => (.error error,bench') := by
  rw [ExceptT.run_bind]
  show (do let x ← m.run; _) bench = _
  simp only [bind,StateT.bind]
  rcases m.run bench with ⟨error | a,bench'⟩ <;> rfl

theorem tooling_bind_ok {α β : Type} {m : Tooling σ α} {k : α → Tooling σ β} {bench bench' : Bench σ} {a : α}
    (ran : m.run bench = (.ok a,bench')) : (m >>= k).run bench = (k a).run bench' := by
  rw [tooling_bind,ran]

theorem tooling_bind_error {α β : Type} {m : Tooling σ α} {k : α → Tooling σ β} {bench bench' : Bench σ}
    {error : PyError} (ran : m.run bench = (.error error,bench')) : (m >>= k).run bench = (.error error,bench') := by
  rw [tooling_bind,ran]

structure Published where
  topic : String
  payload : Fields

/-- The services that all sessions share: the event bus, the identifiers drawn so far and
    what tools work on. -/
structure Shared (σ : Type) where
  events : List Published := []
  draws : Nat := 0
  bench : Bench σ

/-- Events are only added, and identifiers drawn. -/
instance : Preorder (Shared σ) where
  le w w' := w.events <+: w'.events ∧ w.draws ≤ w'.draws
  le_refl _ := ⟨List.prefix_rfl,Nat.le_refl _⟩
  le_trans _ _ _ first second := ⟨first.1.trans second.1,first.2.trans second.2⟩

/-- The kernel: its registry and its middleware, outermost first. -/
structure AgentKernel (σ : Type) where
  host : Host
  registry : CapabilityRegistry σ
  middlewares : List (Middleware σ) := []

section
variable (kernel : AgentKernel σ)

/-- Draw an identifier. -/
def draw : Prog (Shared σ) PyError String := do
  let n ← read Shared.draws
  update (fun w => { w with draws := w.draws + 1 }) fun _ => ⟨List.prefix_rfl,Nat.le_succ _⟩
  pure (kernel.host.hex n)

/-- Publish a copy of the payload; an observer never breaks the runtime. -/
def publish (topic : String) (payload : Fields) : Prog (Shared σ) PyError Unit := do
  lift (kernel.host.deepcopy (.dict payload))
  update (fun w => { w with events := w.events ++ [⟨topic,payload⟩] }) fun _ => ⟨List.prefix_append ..,Nat.le_refl _⟩

theorem draw_run (w : Shared σ) : (draw kernel).run w = (.ok (kernel.host.hex w.draws),{ w with draws := w.draws + 1 }) := rfl

/-- The world after an event was published. -/
def Shared.published (w : Shared σ) (topic : String) (payload : Fields) : Shared σ :=
  { w with events := w.events ++ [⟨topic,payload⟩] }

theorem publish_run {topic : String} {payload : Fields} {w : Shared σ}
    (copied : kernel.host.deepcopy (.dict payload) = .ok ()) :
    (publish kernel topic payload).run w = (.ok (),w.published topic payload) := by
  unfold publish
  rw [copied]
  rfl

theorem publish_returned {topic : String} {payload : Fields} {w : Shared σ}
    (returns : Returns (publish kernel topic payload) w) : kernel.host.deepcopy (.dict payload) = .ok () := by
  obtain ⟨⟨⟩,copied,-⟩ := returns_bind_lift_iff.mp returns
  exact copied

/-- Run a computation of the tool path and catch its exception. -/
def attempt {α : Type} (m : Tooling σ α) : Prog (Shared σ) PyError (Except PyError α) where
  run w := (.ok (m.run w.bench).1,{ w with bench := (m.run w.bench).2 })
  onward _ := ⟨List.prefix_rfl,Nat.le_refl _⟩

/-! ### Executing a tool -/

/-- Let the executor of a request work, and catch its exception. -/
def invoke (executor : Executor σ) (request : ToolRequest) : Tooling σ (Except PyError PyVal) := do
  let bench ← get
  let (outcome,state) := executor.execute request bench.heap.state
  set ({ heap := { bench.heap with state }, invoked := bench.invoked ++ [request] } : Bench σ)
  pure outcome

/-- What the kernel makes of an exception or of a value that is no dictionary. -/
def rawResult (name : String) : Except PyError PyVal → Except PyError Fields
  | .ok (.dict fields) => .ok fields
  | .ok v => .ok [("ok",.bool false),("tool",.str name),
      ("error",.str ("Tool returned " ++ v.cls ++ ", expected dict.")),("kernel_error",.bool true)]
  | .error exc => (kernel.host.describe exc).map fun text =>
      [("ok",.bool false),("tool",.str name),("error",.str text),("kernel_error",.bool true)]

/-- The metadata that the kernel gives the result of a request. -/
def coreMetadata (lineage : Fields) (request : ToolRequest) (resolution : ToolResolution σ) : Fields :=
  Dicts.merge lineage [("request_id",.str request.request_id),("executor",.str resolution.executor.name),
    ("kind",.str resolution.descriptor.kind),("idempotent",.bool resolution.descriptor.idempotent),
    ("risk",.str resolution.descriptor.risk)]

/-- The envelope of what the executor of a request did. -/
def coreResult (lineage : Fields) (request : ToolRequest) (outcome : Except PyError PyVal) :
    Except PyError CapabilityResult := do
  let resolution := kernel.registry.resolve_tool request.name
  let result ← rawResult kernel request.name outcome
  CapabilityResult.from_raw kernel.host request.name resolution.feature result (coreMetadata lineage request resolution)

/-- The innermost handler. -/
def core (lineage : Fields) : Handler σ := fun request => do
  let outcome ← invoke (kernel.registry.resolve_tool request.name).executor request
  let envelope ← liftExcept (coreResult kernel lineage request outcome)
  pure (.dict envelope.as_dict)

/-- The handler with the middleware around it. -/
def wrapped (middlewares : List (Middleware σ)) (handler : Handler σ) : Handler σ :=
  middlewares.foldr (fun middleware next request => middleware request next) handler

def handlerOf (lineage : Fields) : Handler σ := wrapped kernel.middlewares (core kernel lineage)

/-- The lineage of the calling session; without one all of it is `None`. -/
def lineageOf (context : Option ToolCallContext) : Fields := (context.getD {}).event_fields

/-- The session does not grant the name. -/
def OutOfScope (context : Option ToolCallContext) (name : String) : Prop :=
  ∃ scope, context.bind ToolCallContext.allowed_capabilities = some scope ∧ name ∉ scope

instance (context : Option ToolCallContext) (name : String) : Decidable (OutOfScope context name) :=
  match given : context.bind ToolCallContext.allowed_capabilities with
  | none => isFalse fun ⟨_,same,_⟩ => by rw [given] at same; cases same
  | some scope => decidable_of_iff (name ∉ scope)
      ⟨fun absent => ⟨scope,given,absent⟩,fun ⟨_,same,absent⟩ => by rw [given] at same; cases same; exact absent⟩

/-- The answer to a request outside the scope. -/
def scopeBlock (lineage : Fields) (request : ToolRequest) : Fields :=
  CapabilityResult.as_dict
    { ok := false, capability := request.name, error := .str ("Capability outside session scope: " ++ request.name),
      metadata := Dicts.merge lineage [("request_id",.str request.request_id),("scope_block",.bool true)] }

/-- The answer for an exception that left the middleware. -/
def kernelError (lineage : Fields) (request : ToolRequest) (text : String) : Fields :=
  CapabilityResult.as_dict
    { ok := false, capability := request.name, error := .str text,
      metadata := Dicts.merge lineage [("request_id",.str request.request_id),("kernel_error",.bool true)] }

/-- The answer for a value that is no dictionary. -/
def notDict (request : ToolRequest) (v : PyVal) : Fields :=
  [("ok",.bool false),("capability",.str request.name),("feature",.null),("data",.dict []),
    ("error",.str ("Middleware returned " ++ v.cls ++ ", expected dict.")),("metadata",.dict [])]

/-- The dictionary of what the outermost handler did. -/
def settle (lineage : Fields) (request : ToolRequest) : Except PyError PyVal → Except PyError Fields
  | .ok (.dict fields) => .ok fields
  | .ok v => .ok (notDict request v)
  | .error exc => (kernel.host.describe exc).map (kernelError lineage request)

/-- The lineage and the request as defaults of the metadata. -/
def backfill (lineage : Fields) (request : ToolRequest) (metadata : Fields) : Fields :=
  Fields.setdefault (lineage.foldl (fun metadata field => Fields.setdefault metadata field.1 field.2) metadata)
    "request_id" (.str request.request_id)

/-- The envelope with its metadata filled in, outside of any guard. -/
def complete (lineage : Fields) (request : ToolRequest) (envelope : Fields) : Except PyError Fields :=
  match Dicts.get "metadata" envelope with
  | none => .ok (Dicts.put "metadata" (.dict (backfill lineage request [])) envelope)
  | some (.dict metadata) => .ok (Dicts.put "metadata" (.dict (backfill lineage request metadata)) envelope)
  | some (.object o) => (kernel.host.setdefault o).map fun _ => envelope
  | some v => .error (.AttributeError ("'" ++ v.cls ++ "' object has no attribute 'setdefault'"))

/-- What the first event says of a request. -/
def requestFields (lineage : Fields) (request : ToolRequest) : Fields :=
  Dicts.merge lineage [("tool",.str request.name),("request_id",.str request.request_id),("args",.dict request.args)]

/-- What the last event says of a request. -/
def resultFields (lineage : Fields) (request : ToolRequest) (ok : Bool) (error : PyVal) : Fields :=
  Dicts.merge lineage [("tool",.str request.name),("request_id",.str request.request_id),("ok",.bool ok),("error",error)]

/-- Publish the last event and return the envelope. -/
def conclude (lineage : Fields) (request : ToolRequest) (envelope : Fields) : Prog (Shared σ) PyError Fields := do
  let ok ← lift (kernel.host.bool (envelope.get "ok"))
  publish kernel (if ok then "tool.completed" else "tool.failed")
    (resultFields lineage request ok (envelope.get "error"))
  pure envelope

def execute_tool (tool_name : String) (args : Fields) (context : Option ToolCallContext) :
    Prog (Shared σ) PyError Fields := do
  lift (kernel.host.deepcopy (.dict args))
  let request_id ← draw kernel
  let request : ToolRequest := ⟨tool_name,args,context,request_id⟩
  let lineage := lineageOf context
  publish kernel "tool.requested" (requestFields lineage request)
  if OutOfScope context tool_name then conclude kernel lineage request (scopeBlock lineage request)
  else do
    let outcome ← attempt (handlerOf kernel lineage request)
    let envelope ← lift (settle kernel lineage request outcome)
    let envelope ← lift (complete kernel lineage request envelope)
    conclude kernel lineage request envelope

end
end
end HexAgent.Kernel
