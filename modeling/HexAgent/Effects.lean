import HexAgent.Envelopes
import HexAgent.Middleware

/-!
Effects are not applied twice. Whatever built-in middleware stands around it, in
any number and order, the executor of an effect that is not idempotent works at
most once in a call: once it has worked, the result says that it is ok or carries
the metadata of the kernel, which no tool can forge, and no retry goes on from
either.
-/
namespace HexAgent.Effects
open HexAgent.Values HexAgent.Schemas HexAgent.Budgets HexAgent.Kernel HexAgent.Middleware
open HexAgent.Envelopes Programs

section
variable {σ : Type} {α β : Type}

/-! ### Computations that invoke no executor -/

/-- The computation invokes no executor. -/
def Quiet (m : Tooling σ α) : Prop := ∀ bench, (m.run bench).2.invoked = bench.invoked

theorem quiet_pure (a : α) : Quiet (pure a : Tooling σ α) := fun _ => rfl
theorem quiet_get : Quiet (get : Tooling σ (Bench σ)) := fun _ => rfl

theorem quiet_lift (x : Except PyError α) : Quiet (liftExcept x : Tooling σ α) := by
  cases x <;> exact fun _ => rfl

theorem quiet_bind {m : Tooling σ α} {k : α → Tooling σ β} (first : Quiet m) (rest : ∀ a, Quiet (k a)) : Quiet (m >>= k) := by
  intro bench
  have here := first bench
  rcases ran : m.run bench with ⟨error | a,bench'⟩
  · rw [tooling_bind_error ran]
    rw [ran] at here
    exact here
  · rw [tooling_bind_ok ran]
    rw [ran] at here
    rw [rest a bench']
    exact here

theorem quiet_ite {c : Prop} [Decidable c] {m n : Tooling σ α} (yes : Quiet m) (no : Quiet n) : Quiet (if c then m else n) := by
  split
  · exact yes
  · exact no

theorem quiet_notify (callback : Option (Callback σ)) (request : ToolRequest) : Quiet (notify callback request) := by
  cases callback with
  | none => exact quiet_pure ()
  | some callback =>
    intro bench
    unfold notify
    rw [tooling_bind_ok (show (get : Tooling σ (Bench σ)).run bench = (.ok bench,bench) from rfl)]
    simp only
    rcases (callback request bench.heap).1 with error | _ <;> rfl

/-- A first part that invokes nothing passes the value of the second one on. -/
theorem returned_after {m : Tooling σ α} {b : β} {bench : Bench σ} {b' : β}
    (returned : ((m >>= fun _ => pure b).run bench).1 = .ok b') : b' = b := by
  rcases ran : m.run bench with ⟨error | a,bench'⟩
  · rw [tooling_bind_error ran] at returned
    cases returned
  · rw [tooling_bind_ok ran] at returned
    cases returned
    rfl

/-! ### Computations that invoke the executor at most once -/

/-- The result says that it is ok, or that it is of an effect that is not idempotent. -/
def Spent (env : PyVal) : Prop := ∃ fields ok, env = .dict fields ∧ Fields.get fields "ok" = .bool ok ∧
  (ok = true ∨ ∃ metadata, Fields.get fields "metadata" = .dict metadata ∧
    Fields.get metadata "kind" = .str "effect" ∧ Fields.get metadata "idempotent" = .bool false)

/-- The computation invokes no executor, or invokes one once, for the request, and then
    returns a spent result or raises. -/
def Once (request : ToolRequest) (m : Tooling σ PyVal) : Prop := ∀ bench,
  (m.run bench).2.invoked = bench.invoked ∨
    (m.run bench).2.invoked = bench.invoked ++ [request] ∧ ∀ env, (m.run bench).1 = .ok env → Spent env

variable {request : ToolRequest}

theorem once_quiet {m : Tooling σ PyVal} (quiet : Quiet m) : Once request m := fun bench => .inl (quiet bench)

theorem once_ite {c : Prop} [Decidable c] {m n : Tooling σ PyVal} (yes : Once request m) (no : Once request n) :
    Once request (if c then m else n) := by
  split
  · exact yes
  · exact no

theorem once_after {m : Tooling σ α} {k : α → Tooling σ PyVal} (first : Quiet m) (rest : ∀ a, Once request (k a)) :
    Once request (m >>= k) := by
  intro bench
  have here := first bench
  rcases ran : m.run bench with ⟨error | a,bench'⟩
  · rw [tooling_bind_error ran]
    rw [ran] at here
    exact .inl here
  · rw [tooling_bind_ok ran]
    rw [ran] at here
    rw [← here]
    exact rest a bench'

/-- What follows may change a result, as long as spent results stay spent. -/
theorem once_then {m : Tooling σ PyVal} {k : PyVal → Tooling σ PyVal} (first : Once request m) (rest : ∀ env, Once request (k env))
    (spent : ∀ env, Spent env → Quiet (k env) ∧ ∀ bench env', ((k env).run bench).1 = .ok env' → Spent env') :
    Once request (m >>= k) := by
  intro bench
  have here := first bench
  rcases ran : m.run bench with ⟨error | env,bench'⟩
  · rw [tooling_bind_error ran]
    rw [ran] at here
    exact here.imp id fun invoked => ⟨invoked.1,nofun⟩
  · rw [tooling_bind_ok ran]
    rw [ran] at here
    rcases here with none | ⟨invoked,used⟩
    · rw [← none]
      exact rest env bench'
    · obtain ⟨quiet,kept⟩ := spent env (used env rfl)
      exact .inr ⟨(quiet bench').trans invoked,kept bench'⟩

/-! ### The built-in middleware -/

variable {host : Host} {next : Handler σ}

theorem quiet_tellSink (sink : Option (Sink σ)) (env : PyVal) : Quiet (tellSink host sink request env) := by
  unfold tellSink
  split
  · exact fun _ => rfl
  · exact quiet_pure ()

theorem timing_once (sink : Option (Sink σ)) (inner : Once request (next request)) :
    Once request (TimingLog host sink request next) := by
  have quiet : ∀ env, Quiet (do tellSink host sink request env; pure env) :=
    fun env => quiet_bind (quiet_tellSink sink env) fun _ => quiet_pure env
  refine once_then inner (fun env => once_quiet (quiet env)) fun env spent => ⟨quiet env,fun bench env' returned => ?_⟩
  rw [returned_after returned]
  exact spent

theorem policy_once (deny : List String) (on_block : Option (Callback σ)) (inner : Once request (next request)) :
    Once request (PolicyGate deny on_block request next) :=
  once_ite (once_quiet (quiet_bind (quiet_notify on_block request) fun _ => quiet_pure _)) inner

theorem budget_once (guarded : Nat) (on_block : Option (Callback σ)) (inner : Once request (next request)) :
    Once request (BudgetGuard guarded on_block request next) := by
  unfold BudgetGuard
  refine once_after (quiet_lift _) fun key => once_after (fun _ => rfl) fun _ => once_after quiet_get fun bench => ?_
  exact once_ite (once_quiet (quiet_bind (quiet_notify on_block request) fun _ => quiet_pure _)) inner

/-- A spent result is not retried. -/
theorem again_spent {env : PyVal} (spent : Spent env) (left : Nat) : again host left env ≠ .ok true := by
  obtain ⟨fields,ok,rfl,given,used⟩ := spent
  simp only [again,given]
  rcases ok with _ | _
  · obtain ⟨metadata,found,kind,idempotent⟩ := used.resolve_left (by decide)
    have read : metadataOf host fields = .ok metadata := by
      unfold metadataOf
      rw [found]
      cases metadata with
      | nil => rfl
      | cons field rest => rfl
    intro retried
    simp only [retryable,read,kind,idempotent,bind,Except.bind,Host.bool] at retried
    split at retried
    · cases retried
    · split at retried
      · cases retried
      · split at retried
        · cases retried
        · rcases host.bool (Fields.get metadata "policy_block") with error | _ | _ <;> simp at retried
  · exact nofun

/-- A spent result ends the tries: it is returned, or an exception raised. -/
theorem retryLoop_spent {env : PyVal} (spent : Spent env) (left : Nat) (bench : Bench σ) : ∃ outcome,
    (retryLoop host request next left env).run bench = (outcome,bench) ∧ ∀ env', outcome = .ok env' → Spent env' := by
  have kept : ∀ env', Except.ok (ε := PyError) env = .ok env' → Spent env' := by
    rintro env' ⟨⟩
    exact spent
  have stops : again host left env ≠ .ok true := again_spent spent left
  cases left with
  | zero =>
    rcases retried : again host 0 env with error | goes
    · exact ⟨.error error,by simp only [retryLoop,retried]; rfl,nofun⟩
    · exact ⟨.ok env,by simp only [retryLoop,retried]; rfl,kept⟩
  | succ left =>
    rcases retried : again host (left + 1) env with error | _ | _
    · exact ⟨.error error,by simp only [retryLoop,retried]; rfl,nofun⟩
    · exact ⟨.ok env,by simp only [retryLoop,retried]; rfl,kept⟩
    · exact absurd retried stops

theorem retryLoop_quiet {env : PyVal} (spent : Spent env) (left : Nat) :
    Quiet (retryLoop host request next left env) ∧
      ∀ (bench : Bench σ) env', ((retryLoop host request next left env).run bench).1 = .ok env' → Spent env' := by
  constructor
  · intro bench
    obtain ⟨outcome,ran,-⟩ := @retryLoop_spent _ request host next env spent left bench
    rw [ran]
  · intro bench env' returned
    obtain ⟨outcome,ran,kept⟩ := @retryLoop_spent _ request host next env spent left bench
    rw [ran] at returned
    exact kept env' returned

theorem retryLoop_once (inner : Once request (next request)) (left : Nat) (env : PyVal) :
    Once request (retryLoop host request next left env) := by
  induction left generalizing env with
  | zero => exact once_quiet (quiet_bind (quiet_lift _) fun _ => quiet_pure env)
  | succ left ih =>
    refine once_after (quiet_lift _) fun goes => once_ite ?_ (once_quiet (quiet_pure env))
    exact once_then inner ih fun env' spent => retryLoop_quiet spent left

theorem retry_once (attempts : Int) (inner : Once request (next request)) :
    Once request (Retry host attempts request next) :=
  once_then inner (retryLoop_once inner _) fun _ spent => retryLoop_quiet spent _

theorem condenseData_get (max_chars max_list : Int) (fields : Fields) {key : String} (other : key ≠ "data") :
    Fields.get (condenseData max_chars max_list fields).1 key = Fields.get fields key := by
  unfold condenseData
  split
  · split
    all_goals simp [Fields.get,Fields.getD,Dicts.get_put_other other]
  · rfl

theorem shrink_quiet (max_chars max_list : Int) (on_condense : Option (Callback σ)) (env : PyVal) :
    Quiet (shrink max_chars max_list on_condense request env) := by
  unfold shrink
  split
  · exact quiet_bind (quiet_notify _ request) fun _ => quiet_pure _
  · exact quiet_pure _

theorem shrink_spent {max_chars max_list : Int} {on_condense : Option (Callback σ)} {env env' : PyVal} {bench : Bench σ}
    (spent : Spent env) (returned : ((shrink max_chars max_list on_condense request env).run bench).1 = .ok env') :
    Spent env' := by
  obtain ⟨fields,ok,rfl,given,used⟩ := spent
  rw [shrink] at returned
  rw [returned_after returned]
  refine ⟨_,ok,rfl,by rw [condenseData_get _ _ _ (by decide)]; exact given,?_⟩
  rw [condenseData_get _ _ _ (by decide)]
  exact used

theorem condense_once (max_chars max_list : Int) (on_condense : Option (Callback σ)) (inner : Once request (next request)) :
    Once request (CondenseResult max_chars max_list on_condense request next) := by
  have quiet : ∀ env, Quiet (if "llm.".isPrefixOf request.name then pure env
      else shrink max_chars max_list on_condense request env : Tooling σ PyVal) :=
    fun env => quiet_ite (quiet_pure env) (shrink_quiet max_chars max_list on_condense env)
  refine once_then inner (fun env => once_quiet (quiet env)) fun env spent => ⟨quiet env,fun bench env' returned => ?_⟩
  split at returned
  · cases returned
    exact spent
  · exact shrink_spent spent returned

theorem builtIn_once (middleware : BuiltIn σ) (inner : Once request (next request)) :
    Once request (middleware.middleware host request next) := by
  cases middleware with
  | timing sink => exact timing_once sink inner
  | policy deny on_block => exact policy_once deny on_block inner
  | budget guarded on_block => exact budget_once guarded on_block inner
  | retry attempts => exact retry_once attempts inner
  | condense max_chars max_list on_condense => exact condense_once max_chars max_list on_condense inner

/-- Built-in middleware around a handler that invokes at most once invokes at most once. -/
theorem wrapped_once (pipeline : List (BuiltIn σ)) {handler : Handler σ} (inner : Once request (handler request)) :
    Once request (wrapped (pipeline.map (BuiltIn.middleware host)) handler request) := by
  induction pipeline with
  | nil => exact inner
  | cons middleware rest ih => exact builtIn_once middleware ih

/-! ### The executor of an effect -/

variable {kernel : AgentKernel σ} {context : Option ToolCallContext}

/-- The metadata of the kernel overrides whatever the tool brought. -/
theorem merge_descriptor (given : Fields) (request : ToolRequest) (resolution : ToolResolution σ) :
    Fields.get (Dicts.merge given (coreMetadata (lineageOf context) request resolution)) "kind" =
        .str resolution.descriptor.kind ∧
      Fields.get (Dicts.merge given (coreMetadata (lineageOf context) request resolution)) "idempotent" =
        .bool resolution.descriptor.idempotent := by
  simp [coreMetadata,lineageOf,ToolCallContext.event_fields,Dicts.merge,Dicts.put,Fields.get,Fields.getD,Dicts.get_put]

theorem setdefault_get (fields : Fields) {key : String} (v : PyVal) {other : String} (distinct : other ≠ key) :
    Fields.get (Fields.setdefault fields key v) other = Fields.get fields other := by
  unfold Fields.setdefault
  split
  · rfl
  · next absent =>
    rw [← Dicts.put_new (v := v) (Dicts.get_eq_none_iff.mp absent)]
    simp [Fields.get,Fields.getD,Dicts.get_put_other distinct]

private theorem bound {ε : Type} {x : Except ε α} {f : α → Except ε β} {b : β} (done : (x >>= f) = .ok b) :
    ∃ a, x = .ok a ∧ f a = .ok b := by
  cases x with
  | error error => cases done
  | ok a => exact ⟨a,rfl,done⟩

/-- Every envelope of the core carries the descriptor of its tool. -/
theorem from_raw_descriptor {resolution : ToolResolution σ} {feature : Option String} {result : Fields}
    {envelope : CapabilityResult} (made : CapabilityResult.from_raw kernel.host request.name feature result
      (coreMetadata (lineageOf context) request resolution) = .ok envelope) :
    Fields.get envelope.metadata "kind" = .str resolution.descriptor.kind ∧
      Fields.get envelope.metadata "idempotent" = .bool resolution.descriptor.idempotent := by
  unfold CapabilityResult.from_raw at made
  split at made
  · obtain ⟨_,_,made⟩ := bound made
    obtain ⟨given,_,made⟩ := bound made
    obtain ⟨_,_,made⟩ := bound made
    obtain ⟨_,_,made⟩ := bound made
    obtain ⟨_,_,made⟩ := bound made
    obtain ⟨_,_,made⟩ := bound made
    obtain ⟨_,_,made⟩ := bound made
    cases made
    dsimp only
    exact merge_descriptor given request resolution
  · obtain ⟨_,_,made⟩ := bound made
    obtain ⟨_,_,made⟩ := bound made
    obtain ⟨_,_,made⟩ := bound made
    obtain ⟨given,_,made⟩ := bound made
    cases made
    dsimp only
    rw [setdefault_get _ _ (by decide),setdefault_get _ _ (by decide)]
    exact merge_descriptor given request resolution

/-- The name is registered as an effect that is not idempotent. -/
def Effect (registry : CapabilityRegistry σ) (name : String) : Prop :=
  name ∈ registry.tools.keys ∧ (registry.resolve_tool name).descriptor.kind = "effect" ∧
    (registry.resolve_tool name).descriptor.idempotent = false

theorem core_once (effect : Effect kernel.registry request.name) :
    Once request (core kernel (lineageOf context) request) := by
  intro bench
  have reached : (invoke (kernel.registry.resolve_tool request.name).executor request).run bench =
      (.ok ((kernel.registry.resolve_tool request.name).executor.execute request bench.heap.state).1,
        ⟨{ bench.heap with state := ((kernel.registry.resolve_tool request.name).executor.execute request bench.heap.state).2 },
          bench.invoked ++ [request]⟩) := rfl
  rw [core,tooling_bind_ok reached]
  rcases made : coreResult kernel (lineageOf context) request
    ((kernel.registry.resolve_tool request.name).executor.execute request bench.heap.state).1 with error | envelope
  · exact .inr ⟨rfl,nofun⟩
  · refine .inr ⟨rfl,?_⟩
    rintro env ⟨⟩
    obtain ⟨result,_,made⟩ := bound made
    obtain ⟨kind,idempotent⟩ := from_raw_descriptor made
    rw [effect.2.1] at kind
    rw [effect.2.2] at idempotent
    exact ⟨_,envelope.ok,rfl,rfl,.inr ⟨envelope.metadata,rfl,kind,idempotent⟩⟩

/-! ### One call -/

/-- Two worlds in which tools left the same. -/
def SameBench (w w' : Shared σ) : Prop := w'.bench = w.bench

instance : IsPreorder (Shared σ) SameBench where
  refl _ := rfl
  trans _ _ _ first second := Eq.trans second first

theorem publish_bench (topic : String) (payload : Fields) (w : Shared σ) :
    Runs SameBench (publish kernel topic payload) w fun _ _ => True :=
  Runs.bind_lift fun _ _ => Runs.update rfl trivial

theorem conclude_bench (lineage : Fields) (request : ToolRequest) (envelope : Fields) (w : Shared σ) :
    Runs SameBench (conclude kernel lineage request envelope) w fun _ _ => True :=
  Runs.bind_lift fun _ _ => Runs.bind (publish_bench _ _ w) fun _ _ _ _ => Runs.pure trivial

theorem answer_bench (request : ToolRequest) (outcome : Except PyError PyVal) (w : Shared σ) :
    Runs SameBench (answer kernel context request outcome) w fun _ _ => True :=
  Runs.bind_lift fun _ _ => Runs.bind_lift fun _ _ => conclude_bench ..

/-- What a call leaves of the bench is what its handler leaves, if it comes to it. -/
theorem execute_tool_bench (tool_name : String) (args : Fields) (w : Shared σ) :
    ((execute_tool kernel tool_name args context).run w).2.bench = w.bench ∨
      ¬ OutOfScope context tool_name ∧ ((execute_tool kernel tool_name args context).run w).2.bench =
        ((handlerOf kernel (lineageOf context) (requestOf kernel tool_name args context w)).run w.bench).2 := by
  rcases copied : kernel.host.deepcopy (.dict args) with error | _
  · left
    unfold execute_tool
    rw [copied,lift_error,bind_run_error (raise_run error w)]
  · rw [execute_tool_run copied]
    split
    · exact .inl (conclude_bench ..).moves
    · next granted => exact .inr ⟨granted,(answer_bench ..).moves⟩

/-- One call of an effect that is not idempotent, through any built-in middleware, lets its
    executor work at most once. -/
theorem effect_at_most_once (host : Host) (registry : CapabilityRegistry σ) (pipeline : List (BuiltIn σ)) (tool_name : String)
    (args : Fields) (context : Option ToolCallContext) (w : Shared σ) (effect : Effect registry tool_name) :
    ∃ request : ToolRequest, request.name = tool_name ∧
      (((execute_tool (builtInKernel host registry pipeline) tool_name args context).run w).2.bench.invoked = w.bench.invoked ∨
        ((execute_tool (builtInKernel host registry pipeline) tool_name args context).run w).2.bench.invoked =
          w.bench.invoked ++ [request]) := by
  refine ⟨requestOf (builtInKernel host registry pipeline) tool_name args context w,rfl,?_⟩
  rcases @execute_tool_bench _ (builtInKernel host registry pipeline) context tool_name args w with
    same | ⟨-,left⟩
  · exact .inl (congrArg Bench.invoked same)
  · rw [left]
    have inner : Once (requestOf (builtInKernel host registry pipeline) tool_name args context w)
        (core (builtInKernel host registry pipeline) (lineageOf context)
          (requestOf (builtInKernel host registry pipeline) tool_name args context w)) := core_once effect
    exact (@wrapped_once _ _ host pipeline _ inner w.bench).imp id And.left

end

/-! ### A payment behind two retries -/

/-- A tool that fails and claims that it may be repeated. -/
def forger : Executor Nat where
  name := "pay"
  execute _ paid := (.ok (.dict [("ok",.bool false),("metadata",.dict [("kind",.str "read"),("idempotent",.bool true)])]),paid + 1)

def payments : CapabilityRegistry Nat := ({} : CapabilityRegistry Nat).register_tool "pay" forger none "effect" false "high"

theorem payment_at_most_once : ∃ request : ToolRequest, request.name = "pay" ∧
    (((execute_tool (builtInKernel plainHost payments [.retry 3,.retry 2]) "pay" [] none).run
        { bench := ⟨⟨0,fun _ => {}⟩,[]⟩ }).2.bench.invoked = [] ∨
      ((execute_tool (builtInKernel plainHost payments [.retry 3,.retry 2]) "pay" [] none).run
        { bench := ⟨⟨0,fun _ => {}⟩,[]⟩ }).2.bench.invoked = [request]) :=
  effect_at_most_once plainHost payments [.retry 3,.retry 2] "pay" [] none { bench := ⟨⟨0,fun _ => {}⟩,[]⟩ }
    ⟨by decide,by decide,by decide⟩

end HexAgent.Effects
