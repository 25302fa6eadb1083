import HexAgent.Kernel

/-!
The built-in middleware: timing, the deny list, the budget of repeated calls, the
retry and the condensing of results. Their callbacks may do anything to the state
outside and to the budgets, and may raise.
-/
namespace HexAgent.Middleware
open HexAgent.Values HexAgent.Commands HexAgent.Schemas HexAgent.Budgets HexAgent.Kernel

/-! ### Condensing -/

/-- `xs[:n]`. -/
def headOf {α : Type} (n : Int) (xs : List α) : List α := xs.take (if 0 ≤ n then n else xs.length + n).toNat

def truncate (text : String) (max_chars : Int) : String :=
  if (text.length : Int) ≤ max_chars then text
  else String.ofList (headOf max_chars text.toList) ++ "... [+" ++ toString (text.length - max_chars) ++ " chars]"

mutual
/-- A tool result made small. -/
def condense (max_chars max_list : Int) : PyVal → PyVal
  | .dict fields => .dict (condenseFields max_chars max_list fields)
  | .list items =>
    let head := headOf max_list (condenseItems max_chars max_list items)
    if max_list < items.length then
      .list (head ++ [.str ("... [+" ++ toString (items.length - max_list) ++ " items]")])
    else .list head
  | .str text => .str (truncate text max_chars)
  | v => v
def condenseItems (max_chars max_list : Int) : List PyVal → List PyVal
  | [] => []
  | item :: rest => condense max_chars max_list item :: condenseItems max_chars max_list rest
def condenseFields (max_chars max_list : Int) : List (String × PyVal) → List (String × PyVal)
  | [] => []
  | (key,v) :: rest => (key,condense max_chars max_list v) :: condenseFields max_chars max_list rest
end

/-! ### The built-in middleware -/

section
variable {σ : Type}

/-- A callback, over the heap. -/
abbrev Callback (σ : Type) := ToolRequest → Heap σ → Except PyError Unit × Heap σ

/-- Run a callback, if there is one. -/
def notify (callback : Option (Callback σ)) (request : ToolRequest) : Tooling σ Unit := do
  match callback with
  | none => pure ()
  | some callback =>
    let bench ← get
    let (outcome,heap) := callback request bench.heap
    set ({ bench with heap } : Bench σ)
    liftExcept outcome

/-- The answer of a guard that does not let a request through. -/
def blocked (request : ToolRequest) (error mark : String) : PyVal :=
  .dict [("ok",.bool false),("capability",.str request.name),("feature",.null),("data",.dict []),("error",.str error),
    ("metadata",.dict [(mark,.bool true)])]

/-- What a sink is told: the tool and whether it was ok. -/
abbrev Sink (σ : Type) := String → PyVal → Heap σ → Heap σ

/-- `(env or {}).get("ok")`, if it can be read. -/
def okOf (host : Host) (env : PyVal) : Option PyVal :=
  match host.bool env,env with
  | .ok true,.dict fields => some (Fields.get fields "ok")
  | .ok false,_ => some .null
  | _,_ => none

/-- Tell the sink of a result; an exception of the sink is swallowed. -/
def tellSink (host : Host) (sink : Option (Sink σ)) (request : ToolRequest) (env : PyVal) : Tooling σ Unit :=
  match sink,okOf host env with
  | some sink,some ok => modify fun bench => { bench with heap := sink request.name ok bench.heap }
  | _,_ => pure ()

def TimingLog (host : Host) (sink : Option (Sink σ)) : Middleware σ := fun request next => do
  let env ← next request
  tellSink host sink request env
  pure env

def PolicyGate (deny : List String) (on_block : Option (Callback σ)) : Middleware σ := fun request next => do
  if request.name ∈ deny then do
    notify on_block request
    pure (blocked request ("Blocked by policy: " ++ request.name) "policy_block")
  else next request

/-- Guard against repeated calls with the budget of that number. -/
def BudgetGuard (budget : Nat) (on_block : Option (Callback σ)) : Middleware σ := fun request next => do
  let key ← liftExcept (tool_key request.name (.dict request.args))
  modify fun bench => { bench with heap := { bench.heap with
    budgets := Function.update bench.heap.budgets budget ((bench.heap.budgets budget).record_tool_call key) } }
  let bench ← get
  if (bench.heap.budgets budget).same_tool_exceeded key then do
    notify on_block request
    pure (blocked request "Same-tool budget exceeded." "budget_block")
  else next request

/-- `env.get("metadata") or {}`. -/
def metadataOf (host : Host) (env : Fields) : Except PyError Fields := do
  match ← host.or (env.get "metadata") (.dict []) with
  | .dict metadata => .ok metadata
  | v => .error (noGet v)

/-- A policy block is never retried, nor an effect that is not idempotent. -/
def retryable (host : Host) (env : Fields) : Except PyError Bool := do
  let metadata ← metadataOf host env
  if ← host.bool (metadata.get "policy_block") then .ok false
  else .ok ¬ (metadata.get "kind" = .str "effect" ∧ metadata.get "idempotent" = .bool false)

/-- Whether a result is retried while tries are left: a dictionary that is not ok. -/
def again (host : Host) (left : Nat) : PyVal → Except PyError Bool
  | .dict env => do
    if ← host.bool (Fields.get env "ok") then .ok false
    else if left = 0 then .ok false
    else retryable host env
  | _ => .ok false

def retryLoop (host : Host) (request : ToolRequest) (next : Handler σ) : Nat → PyVal → Tooling σ PyVal
  | 0,env => do
    let _ ← liftExcept (again host 0 env)
    pure env
  | left+1,env => do
    if ← liftExcept (again host (left + 1) env) then do
      let env ← next request
      retryLoop host request next left env
    else pure env

def Retry (host : Host) (attempts : Int) : Middleware σ := fun request next => do
  let env ← next request
  retryLoop host request next ((max 1 attempts).toNat - 1) env

/-- The result with its data condensed, and whether that changed it. -/
def condenseData (max_chars max_list : Int) (env : Fields) : Fields × Bool :=
  match Dicts.get "data" env with
  | some data => match data with
    | .dict _ | .list _ | .str _ =>
      let condensed := condense max_chars max_list data
      (Dicts.put "data" condensed env,condensed ≠ data)
    | _ => (env,false)
  | none => (env,false)

/-- Condense the data of a result, and tell the callback if that changed it. -/
def shrink (max_chars max_list : Int) (on_condense : Option (Callback σ)) (request : ToolRequest) : PyVal → Tooling σ PyVal
  | .dict env => do
    notify (if (condenseData max_chars max_list env).2 then on_condense else none) request
    pure (.dict (condenseData max_chars max_list env).1)
  | v => pure v

/-- The answers of a model are left alone. -/
def CondenseResult (max_chars max_list : Int) (on_condense : Option (Callback σ)) : Middleware σ := fun request next => do
  let env ← next request
  if "llm.".isPrefixOf request.name then pure env else shrink max_chars max_list on_condense request env

/-- A built-in middleware with its parameters and callbacks. -/
inductive BuiltIn (σ : Type) where
  | timing (sink : Option (Sink σ))
  | policy (deny : List String) (on_block : Option (Callback σ))
  | budget (budget : Nat) (on_block : Option (Callback σ))
  | retry (attempts : Int)
  | condense (max_chars max_list : Int) (on_condense : Option (Callback σ))

def BuiltIn.middleware (host : Host) : BuiltIn σ → Middleware σ
  | .timing sink => TimingLog host sink
  | .policy deny on_block => PolicyGate deny on_block
  | .budget guarded on_block => BudgetGuard guarded on_block
  | .retry attempts => Retry host attempts
  | .condense max_chars max_list on_condense => CondenseResult max_chars max_list on_condense

/-- A kernel whose middleware is built in. -/
def builtInKernel (host : Host) (registry : CapabilityRegistry σ) (pipeline : List (BuiltIn σ)) : AgentKernel σ where
  host
  registry
  middlewares := pipeline.map (BuiltIn.middleware host)

end
end HexAgent.Middleware
