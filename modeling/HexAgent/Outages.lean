import HexAgent.AgentRuns
import HexAgent.Effects
import HexAgent.Embedded
import HexAgent.Policy
import HexAgent.RunBounds
import HexAgent.Written

/-!
Outages of the model. The adapter asks the endpoint again after a failure that may pass, and gives up with a
final action that is an error. Through any kernel that the configuration builds, that text reaches the agent as it
is and is read as the action, so the run is closed as failed two nodes later; no middleware asks again.
-/
namespace HexAgent.Outages
open HexAgent.Values HexAgent.Json HexAgent.JsonGate HexAgent.Commands HexAgent.Schemas HexAgent.Budgets HexAgent.Kernel
open HexAgent.Middleware HexAgent.Envelopes HexAgent.Documents HexAgent.Written HexAgent.GraphState HexAgent.AgentGraph
open HexAgent.AgentRuns HexAgent.RunBounds HexAgent.Events HexAgent.EventLog Dicts

/-! ### The adapter -/

/-- What the adapter takes from the environment, with the wait of so many times the retry base: `time.sleep` raises
    when that is negative, not a number or too large. -/
structure Settings where
  model : String
  max_tokens : Int
  max_retries : Int
  _sleep : Nat → Except PyError Unit

/-- An exception of the client: its class, what `str` makes of it, and the attributes that a status may be in. -/
structure Fault where
  cls : String
  text : Except PyError String
  status_code : PyVal := .null
  status : PyVal := .null

/-- A response of the endpoint: the contents of its choices. -/
structure Reply where
  choices : List (Option String)

/-- A client and the endpoint behind it. -/
structure Client (σ : Type) where
  create : Fields → σ → Except Fault Reply × σ

/-- `response.choices[0].message.content or ""`. -/
def contentIn (reply : Reply) : Except Fault String :=
  match reply.choices with
  | [] => .error { cls := "IndexError", text := .ok "list index out of range" }
  | content :: _ => .ok (content.getD "")

/-- An `int`; a `bool` is one. -/
def intOf : PyVal → Option Int
  | .int i => some i
  | .bool b => some (if b then 1 else 0)
  | _ => none

/-- Timeouts, dropped connections, rate limits and errors of the server may pass. -/
def _is_transient (exc : Fault) : Bool :=
  match (intOf exc.status_code).or (intOf exc.status) with
  | some status => status = 429 ∨ 500 ≤ status
  | none => Policy.contains "timeout" (lower exc.cls) || Policy.contains "connection" (lower exc.cls)

/-- The tries of one call: how they ended, what each came to, the waits between them in units of the retry base, and what
    a wait raised if one did. -/
structure Asked (σ : Type) where
  outcome : Except Fault String
  answers : List (Except Fault String)
  waits : List Nat
  state : σ
  broke : Option PyError

section
variable {σ : Type}

/-- One request. -/
def ask (client : Client σ) (kwargs : Fields) (s : σ) : Except Fault String × σ :=
  match client.create kwargs s with
  | (.ok reply,s) => (contentIn reply,s)
  | (.error exc,s) => (.error exc,s)

/-- Try, and again as long as the failure may pass and tries are left. The wait is outside of any guard. -/
def tries (cfg : Settings) (client : Client σ) (kwargs : Fields) : Nat → Nat → σ → Asked σ
  | left,attempt,s =>
    match ask client kwargs s with
    | (.ok content,s) => ⟨.ok content,[.ok content],[],s,none⟩
    | (.error exc,s) =>
      match left with
      | 0 => ⟨.error exc,[.error exc],[],s,none⟩
      | left + 1 =>
        if _is_transient exc then
          match cfg._sleep (2 ^ attempt) with
          | .error error => ⟨.error exc,[.error exc],[],s,some error⟩
          | .ok () =>
            let more := tries cfg client kwargs left (attempt + 1) s
            ⟨more.outcome,.error exc :: more.answers,2 ^ attempt :: more.waits,more.state,more.broke⟩
        else ⟨.error exc,[.error exc],[],s,none⟩

def attempts (cfg : Settings) : Nat := (max 1 (cfg.max_retries + 1)).toNat

/-- The arguments of a request. -/
def kwargsOf (cfg : Settings) (messages model temperature json_mode : PyVal) : Fields :=
  [("model",model.orElse (.str cfg.model)),("messages",messages),("temperature",temperature),("max_tokens",.int cfg.max_tokens)] ++
    if json_mode.truthy then [("response_format",.dict [("type",.str "json_object")])] else []

/-- The action that a call gives up with. -/
def outage (tried : Nat) (text : String) : Fields :=
  [("action",.str "final"),("finish_reason",.str "error"),
    ("message",.str ("LLM request failed after " ++ toString tried ++ " attempt(s): " ++ text))]

/-- All tries of a call. -/
def asked (cfg : Settings) (client : Client σ) (kwargs : Fields) (s : σ) : Asked σ :=
  tries cfg client kwargs (attempts cfg - 1) 0 s

/-- A call of the model. The environment and the client are looked up outside of any guard. -/
def call_llm (cfg : Except PyError Settings) (active : Except PyError (Client σ)) (messages model temperature json_mode : PyVal)
    (s : σ) : Except PyError String × σ :=
  match cfg,active with
  | .error error,_ => (.error error,s)
  | .ok _,.error error => (.error error,s)
  | .ok cfg,.ok client =>
    let asked := asked cfg client (kwargsOf cfg messages model temperature json_mode) s
    match asked.broke,asked.outcome with
    | some error,_ => (.error error,asked.state)
    | none,.ok content => (.ok content,asked.state)
    | none,.error exc =>
      (exc.text.bind fun text => writeJson dumpText unserializable (.dict (outage asked.answers.length text)),asked.state)

/-! ### The model as a tool -/

def defaultTemperature : PyVal := .float ⟨"0.2",true,some 0⟩

def LLMChatTool (cfg : Except PyError Settings) (active : Except PyError (Client σ)) : Executor σ where
  name := "llm_chat_tool"
  execute request s :=
    let a := request.args
    match call_llm cfg active (a.getD "messages" (.list [])) (a.get "model") (a.getD "temperature" defaultTemperature)
      (a.getD "json_mode" (.bool true)) s with
    | (.ok content,s) => (.ok (.dict [("ok",.bool true),("content",.str content),("model",a.get "model")]),s)
    | (.error error,s) => (.error error,s)

/-- The sections of the configuration that are enabled. -/
structure MiddlewareConfig where
  timing : Bool := false
  policy : Option (List String) := none
  retry : Option Int := none
  condense : Option (Int × Int) := none

def _install_middleware (config : MiddlewareConfig) : List (BuiltIn σ) :=
  (if config.timing then [.timing none] else []) ++ config.policy.toList.map (fun deny => .policy deny none) ++
    config.retry.toList.map .retry ++ config.condense.toList.map fun limits => .condense limits.1 limits.2 none

/-- A kernel built from a configuration, with the model among its tools. -/
structure Built (config : MiddlewareConfig) (cfg : Except PyError Settings) (active : Except PyError (Client σ))
    (kernel : AgentKernel σ) : Prop where
  model : (kernel.registry.resolve_tool "llm.chat").executor = LLMChatTool cfg active
  middleware : kernel.middlewares = (_install_middleware config).map (BuiltIn.middleware kernel.host)

/-- The policy of the configuration, if it has one, does not deny the model. -/
def Undenied (config : MiddlewareConfig) : Prop := ∀ deny, config.policy = some deny → "llm.chat" ∉ deny

/-- The kernel as the nodes reach it. -/
def kernelOf (kernel : AgentKernel σ) (name : String) (args : Fields) (context : ToolCallContext) (w : Shared σ) :
    Except PyError Fields × Shared σ :=
  match (Kernel.execute_tool kernel name args (some context)).run w with
  | (.ok envelope,w) => (.ok envelope,w)
  | (.error (.raised error),w) => (.error error,w)
  | (.error .outOfFuel,w) => (.error (.RuntimeError ""),w)

end

/-! ### The tries of a call -/

section
variable {σ : Type} {cfg : Settings} {client : Client σ} {kwargs : Fields}

/-- The waits that so many tries, from the first on, can come to all return. -/
def Patient (cfg : Settings) (first left : Nat) : Prop := ∀ i, i < left → cfg._sleep (2 ^ (first + i)) = .ok ()

theorem Patient.tail {first left : Nat} (patient : Patient cfg first (left + 1)) : Patient cfg (first + 1) left := by
  intro i inside
  rw [Nat.add_assoc,Nat.add_comm 1 i]
  exact patient (i + 1) (Nat.succ_lt_succ inside)

/-- At most so many tries: all but the last failed in a way that may pass, with a wait twice as long after each, and a last
    one that failed too was the last allowed or cannot pass. -/
structure Endeavour (most : Nat) (first : Nat) (r : Asked σ) : Prop where
  last : r.answers.getLast? = some r.outcome
  bounded : r.answers.length ≤ most
  failed : ∀ answer ∈ r.answers.dropLast, ∃ exc, answer = .error exc ∧ _is_transient exc = true
  waited : r.waits = (List.range (r.answers.length - 1)).map fun i => 2 ^ (first + i)
  gaveUp : ∀ exc, r.outcome = .error exc → r.answers.length = most ∨ _is_transient exc = false
  unbroken : r.broke = none

theorem tries_endeavour (left first : Nat) (s : σ) (patient : Patient cfg first left) :
    Endeavour (left + 1) first (tries cfg client kwargs left first s) := by
  induction left generalizing first s with
  | zero =>
    unfold tries
    rcases ask client kwargs s with ⟨exc | content,s'⟩
    · exact ⟨rfl,Nat.le_refl _,nofun,rfl,fun _ _ => .inl rfl,rfl⟩
    · exact ⟨rfl,Nat.le_refl _,nofun,rfl,nofun,rfl⟩
  | succ left ih =>
    unfold tries
    rcases ask client kwargs s with ⟨exc | content,s'⟩
    · by_cases passes : _is_transient exc = true
      · have slept : cfg._sleep (2 ^ first) = .ok () := patient 0 (Nat.succ_pos left)
        simp only [passes,↓reduceIte,slept]
        obtain ⟨last,bounded,failed,waited,gaveUp,unbroken⟩ := ih (first + 1) s' patient.tail
        have some : (tries cfg client kwargs left (first + 1) s').answers ≠ [] := fun none => by rw [none] at last; cases last
        have length := List.length_pos_of_ne_nil some
        refine ⟨?_,Nat.succ_le_succ bounded,?_,?_,fun exc' ended => (gaveUp exc' ended).imp (congrArg Nat.succ) id,unbroken⟩
        · rw [List.getLast?_cons_of_ne_nil some]
          exact last
        · rw [List.dropLast_cons_of_ne_nil some,List.forall_mem_cons]
          exact ⟨⟨exc,rfl,passes⟩,failed⟩
        · obtain ⟨n,count⟩ := Nat.exists_eq_succ_of_ne_zero (Nat.ne_of_gt length)
          simp only [waited,List.length_cons,count,Nat.succ_eq_add_one,Nat.add_sub_cancel]
          rw [List.range_succ_eq_map,List.map_cons,List.map_map]
          refine congrArg₂ List.cons rfl (List.map_congr_left fun i _ => ?_)
          exact congrArg (2 ^ ·) (by show first + 1 + i = first + (i + 1); omega)
      · simp only [passes]
        refine ⟨rfl,by simp,nofun,rfl,fun exc' ended => .inr ?_,rfl⟩
        cases ended
        simpa using passes
    · exact ⟨rfl,by simp,nofun,rfl,nofun,rfl⟩

theorem attempts_pos (cfg : Settings) : 0 < attempts cfg := by
  unfold attempts
  omega

theorem asked_endeavour (patient : Patient cfg 0 (attempts cfg - 1)) (client : Client σ) (kwargs : Fields) (s : σ) :
    Endeavour (attempts cfg) 0 (asked cfg client kwargs s) := by
  have most : attempts cfg - 1 + 1 = attempts cfg := Nat.succ_pred_eq_of_pos (attempts_pos cfg)
  exact most ▸ tries_endeavour (attempts cfg - 1) 0 s patient

/-! ### The action of an outage -/

/-- What a dictionary is written as is read by the gate as what the dictionary becomes. -/
theorem gate_reads {interp : Interpreter} {fields : Fields} (sound : Sound interp (.dict fields))
    (fits : Written.Fits interp.recursion_limit (.dict fields)) (other : PyObject → Except PyError String) :
    ∃ text w, writeJson dumpText other (.dict fields) = .ok text ∧ throughJson (.dict fields) = .ok (.dict w) ∧
      parse_json_object interp text = .ok w := by
  obtain ⟨d,written,through,clean,within⟩ := spelled other dump_spells (.dict fields) sound
  obtain ⟨w,-,rest⟩ : ∃ w, throughFields fields = .ok w ∧ d.value interp = .dict w := by
    rw [throughJson] at through
    obtain ⟨w,became,same⟩ := map_ok through
    exact ⟨w,became,same.symm⟩
  refine ⟨String.ofList d.text,w,written (fits_short _ fits),by rw [through,rest],?_⟩
  have stripped : strip_fences (String.ofList d.text).toList = d.text :=
    Embedded.strip_document Stubs.noSpace Stubs.noSpace (by simp [Stubs.noSpace])
  have read : loads interp d.text = .ok (.dict w) := rest ▸ (Broken.loads_doc d).read ((within _).mpr fits) clean
  unfold parse_json_object load_object
  simp only [stripped,read]
  rfl

/-- Whatever the failure says, the gate reads the text of an outage as its action. -/
theorem outage_read {interp : Interpreter} (deep : 0 < interp.recursion_limit) (tried : Nat) (said : String) : ∃ text,
    writeJson dumpText unserializable (.dict (outage tried said)) = .ok text ∧
      parse_action interp text = .ok (outage tried said) := by
  have sound : Sound interp (.dict (outage tried said)) :=
    ⟨(by decide : ["action","finish_reason","message"].Nodup),trivial,trivial,trivial,trivial⟩
  obtain ⟨text,w,written,through,read⟩ := gate_reads sound ⟨deep,trivial,trivial,trivial,trivial⟩ unserializable
  have same : w = outage tried said := by
    have itself : throughJson (.dict (outage tried said)) = .ok (.dict (outage tried said)) := by
      simp [outage,throughJson,throughFields,bind,Except.bind,Except.map]
    rw [itself] at through
    exact (PyVal.dict.inj (Except.ok.inj through)).symm
  refine ⟨text,written,?_⟩
  unfold parse_action
  rw [read,same]
  rfl

end

/-! ### Through the kernel -/

section
variable {σ : Type} {kernel : AgentKernel σ} {request : ToolRequest} {config : MiddlewareConfig}
  {cfg : Except PyError Settings} {active : Except PyError (Client σ)}

/-- A built-in middleware that a configuration installs and that lets the model through. -/
def Harmless : BuiltIn σ → Prop
  | .timing sink => sink = none
  | .policy deny _ => "llm.chat" ∉ deny
  | .budget .. => False
  | .retry _ | .condense .. => True

theorem installed_harmless {config : MiddlewareConfig} (undenied : Undenied config) :
    ∀ b ∈ (_install_middleware config : List (BuiltIn σ)), Harmless b := by
  intro b member
  unfold _install_middleware at member
  simp only [List.mem_append,List.mem_map,Option.mem_toList] at member
  rcases member with ((timed | ⟨deny,given,rfl⟩) | ⟨n,-,rfl⟩) | ⟨limits,-,rfl⟩
  · split at timed
    · rw [List.mem_singleton.mp timed]
      rfl
    · cases timed
  · exact undenied deny given
  · trivial
  · trivial

/-- An answer of the model that is ok passes a harmless middleware, and the model is asked once. -/
theorem harmless_passes {b : BuiltIn σ} (harmless : Harmless b) {host : Host} {next : Handler σ} {bench bench' : Bench σ}
    {env : Fields} (named : request.name = "llm.chat") (fine : env.get "ok" = .bool true)
    (ran : (next request).run bench = (.ok (.dict env),bench')) :
    (b.middleware host request next).run bench = (.ok (.dict env),bench') := by
  cases b with
  | timing sink =>
    cases (show sink = none from harmless)
    show (next request >>= fun env => _).run bench = _
    rw [tooling_bind_ok ran]
    rfl
  | policy deny on_block =>
    show (if request.name ∈ deny then _ else next request : Tooling σ PyVal).run bench = _
    rw [if_neg (by rw [named]; exact harmless),ran]
  | budget guarded on_block => exact harmless.elim
  | retry attempts =>
    have done : ∀ left, again host left (.dict env) = .ok false := by
      intro left
      simp only [again,fine]
      rfl
    show (next request >>= fun env => _).run bench = _
    rw [tooling_bind_ok ran]
    cases (max 1 attempts).toNat - 1 with
    | zero => simp only [retryLoop,done]; rfl
    | succ left => simp only [retryLoop,done]; rfl
  | condense max_chars max_list on_condense =>
    show (next request >>= fun env => _).run bench = _
    rw [tooling_bind_ok ran,named,if_pos (by decide +kernel)]
    rfl

theorem wrapped_passes {pipeline : List (BuiltIn σ)} (harmless : ∀ b ∈ pipeline, Harmless b) {host : Host} {handler : Handler σ}
    {bench bench' : Bench σ} {env : Fields} (named : request.name = "llm.chat") (fine : env.get "ok" = .bool true)
    (ran : (handler request).run bench = (.ok (.dict env),bench')) :
    (wrapped (pipeline.map (BuiltIn.middleware host)) handler request).run bench = (.ok (.dict env),bench') := by
  induction pipeline with
  | nil => exact ran
  | cons b pipeline ih =>
    obtain ⟨first,others⟩ := List.forall_mem_cons.mp harmless
    exact harmless_passes first named fine (ih others)

/-- What the model is asked by a request. -/
def chatted (cfg : Except PyError Settings) (active : Except PyError (Client σ)) (args : Fields) (s : σ) :
    Except PyError String × σ :=
  call_llm cfg active (args.getD "messages" (.list [])) (args.get "model") (args.getD "temperature" defaultTemperature)
    (args.getD "json_mode" (.bool true)) s

/-- The bench after the model answered. -/
def asking (bench : Bench σ) (request : ToolRequest) (s : σ) : Bench σ :=
  ⟨{ bench.heap with state := s },bench.invoked ++ [request]⟩

/-- What the tool of the model returns for a content. -/
def spoken (request : ToolRequest) (content : String) : Fields :=
  [("ok",.bool true),("content",.str content),("model",request.args.get "model")]

theorem spoken_wrapped (kernel : AgentKernel σ) (lineage : Fields) (request : ToolRequest) (content : String) :
    ∃ result : CapabilityResult, coreResult kernel lineage request (.ok (.dict (spoken request content))) = .ok result ∧
      result.ok = true ∧ result.error = .null ∧ result.data = [("content",.str content),("model",request.args.get "model")] := by
  have raw : is_capability_result (spoken request content) = false := by
    simp [is_capability_result,ENVELOPE_KEYS,spoken,Dicts.get]
  have data : (spoken request content).filter (fun field => field.1 ∉ ["ok","error","metadata"]) =
      [("content",.str content),("model",request.args.get "model")] := by simp [spoken]
  let resolution := kernel.registry.resolve_tool request.name
  let raw_keys := PyVal.list ((sortedTexts ((spoken request content).map Prod.fst)).map .str)
  refine ⟨⟨true,request.name,ofOption resolution.feature,[("content",.str content),("model",request.args.get "model")],.null,
    Fields.setdefault (merge [] (coreMetadata lineage request resolution)) "raw_keys" raw_keys⟩,?_,rfl,rfl,rfl⟩
  unfold coreResult rawResult CapabilityResult.from_raw
  simp only [bind,Except.bind]
  rw [raw,data]
  rfl

theorem invoke_run (executor : Executor σ) (request : ToolRequest) (bench : Bench σ) : (invoke executor request).run bench =
    (.ok (executor.execute request bench.heap.state).1,
      ⟨{ bench.heap with state := (executor.execute request bench.heap.state).2 },bench.invoked ++ [request]⟩) := rfl

/-- The envelope of an answer of the model. -/
theorem core_chat (built : Built config cfg active kernel) (lineage : Fields) (named : request.name = "llm.chat")
    {bench : Bench σ} {content : String} {s : σ} (answered : chatted cfg active request.args bench.heap.state = (.ok content,s)) :
    ∃ result : CapabilityResult, (core kernel lineage request).run bench = (.ok (.dict result.as_dict),asking bench request s) ∧
      result.ok = true ∧ result.error = .null ∧ result.data = [("content",.str content),("model",request.args.get "model")] := by
  have executed : (kernel.registry.resolve_tool request.name).executor.execute request bench.heap.state =
      (.ok (.dict (spoken request content)),s) := by
    rw [named,built.model]
    unfold chatted at answered
    simp only [LLMChatTool,answered]
    rfl
  have invoked : (invoke (kernel.registry.resolve_tool request.name).executor request).run bench =
      (.ok (.ok (.dict (spoken request content))),asking bench request s) := by
    rw [invoke_run,executed]
    rfl
  obtain ⟨result,wrapped,fields⟩ := spoken_wrapped kernel lineage request content
  refine ⟨result,?_,fields⟩
  unfold core
  rw [tooling_bind_ok invoked,wrapped]
  rfl

/-- The kernel returns what the model said, and the model was asked by one request. -/
theorem kernel_chat {args : Fields} {context : ToolCallContext} {w : Shared σ} {content : String} {s : σ}
    (built : Built config cfg active kernel) (undenied : Undenied config) (granted : ¬ OutOfScope (some context) "llm.chat")
    (plain : objectsIn args = [])
    (answered : chatted cfg active args w.bench.heap.state = (.ok content,s)) : ∃ envelope w',
      kernelOf kernel "llm.chat" args context w = (.ok envelope,w') ∧ contentOf envelope = .ok content ∧
        w'.bench = asking w.bench (requestOf kernel "llm.chat" args (some context) w) s := by
  have copyable : kernel.host.deepcopy (.dict args) = .ok () := by
    rw [deepcopy_ok,PyVal.objects,plain]
    rfl
  obtain ⟨result,ran,fine,clear,data⟩ := @core_chat _ _ (requestOf kernel "llm.chat" args (some context) w) _ _ _ built
    (lineageOf (some context)) rfl w.bench content s answered
  have told : Fields.get result.as_dict "ok" = .bool true := congrArg PyVal.bool fine
  have handled : (handlerOf kernel (lineageOf (some context)) (requestOf kernel "llm.chat" args (some context) w)).run w.bench =
      (.ok (.dict result.as_dict),asking w.bench (requestOf kernel "llm.chat" args (some context) w) s) := by
    unfold handlerOf
    rw [built.middleware]
    exact wrapped_passes (installed_harmless undenied) rfl told ran
  obtain ⟨completed,done⟩ := (@complete_ok_iff _ kernel (lineageOf (some context))
    (requestOf kernel "llm.chat" args (some context) w) result.as_dict).mpr fun v given => .inl ⟨_,(Option.some.inj given).symm⟩
  have truth : kernel.host.bool (completed.get "ok") = .ok true := by
    rw [complete_get done (by decide),told]
    rfl
  have copied : kernel.host.deepcopy (completed.get "error") = .ok () := by
    rw [complete_get done (by decide)]
    show kernel.host.deepcopy result.error = _
    rw [clear]
    rfl
  have executed := @execute_tool_run _ kernel "llm.chat" args (some context) w copyable
  rw [if_neg granted] at executed
  unfold outermost at executed
  rw [handled] at executed
  unfold answer at executed
  rw [show settle kernel (lineageOf (some context)) (requestOf kernel "llm.chat" args (some context) w)
    (.ok (.dict result.as_dict)) = .ok result.as_dict from rfl,Programs.lift_ok,
    Programs.bind_run_ok (Programs.pure_run result.as_dict _),done,Programs.lift_ok,
    Programs.bind_run_ok (Programs.pure_run completed _),conclude_run truth copied] at executed
  refine ⟨completed,_,by unfold kernelOf; rw [executed],?_,rfl⟩
  unfold contentOf
  rw [complete_get done (by decide)]
  rw [show Fields.get result.as_dict "data" = .dict result.data from rfl,data]
  rfl

end

/-! ### A turn of the agent -/

section
variable {σ : Type} {kernel : AgentKernel σ} {config : MiddlewareConfig} {cfg : Settings} {client : Client σ}
  {p : Position (Shared σ)} {budget : Budget} {task : TaskEnvelope}

/-- The nodes reach the model through a kernel that a configuration built: it is granted to the session and not denied
    by the configuration, the settings and the client are there, and the adapter can wait as long as it may have to. -/
structure Wired (kernel : AgentKernel σ) (config : MiddlewareConfig) (cfg : Settings) (client : Client σ)
    (desk : Desk (Shared σ)) : Prop where
  reached : desk.services.kernel = kernelOf kernel
  built : Built config (.ok cfg) (.ok client) kernel
  undenied : Undenied config
  granted : "llm.chat" ∈ desk.session.allowed_capabilities
  deep : 0 < desk.services.interp.recursion_limit
  patient : Patient cfg 0 (attempts cfg - 1)

/-- The tries of the turn of the agent. -/
def turnOf (cfg : Settings) (client : Client σ) (p : Position (Shared σ)) : Asked σ :=
  asked cfg client (kwargsOf cfg (.list (p.state.messages.map fun message => .dict message.as_dict)) (ofOption p.state.model)
    defaultTemperature (.bool true)) p.desk.world.bench.heap.state

theorem chatArgs_plain (state : AgentState) : objectsIn (chatArgs state) = [] := by
  have messages : ∀ ms : List Message, objectsOf (ms.map fun message => PyVal.dict message.as_dict) = [] := by
    intro ms
    induction ms with
    | nil => rfl
    | cons m ms ih => simpa [objectsOf,PyVal.objects,objectsIn,Message.as_dict] using ih
  have model : PyVal.objects (ofOption state.model) = [] := by cases state.model <;> rfl
  simp [chatArgs,objectsIn,PyVal.objects,messages,model]

/-- An exception that the tries end in has a text. -/
def Asked.Tellable (r : Asked σ) : Prop := ∀ exc, r.outcome = .error exc → ∃ said, exc.text = .ok said

/-- The text that a turn comes to. -/
theorem turn_text (deep : 0 < p.desk.services.interp.recursion_limit) (unbroken : (turnOf cfg client p).broke = none)
    (tellable : (turnOf cfg client p).Tellable) : ∃ text,
    chatted (.ok cfg) (.ok client) (chatArgs p.state) p.desk.world.bench.heap.state = (.ok text,(turnOf cfg client p).state) ∧
      match (turnOf cfg client p).outcome with
      | .ok content => text = content
      | .error exc => ∃ said, exc.text = .ok said ∧
        parse_action p.desk.services.interp text = .ok (outage (turnOf cfg client p).answers.length said) := by
  have same : chatted (.ok cfg) (.ok client) (chatArgs p.state) p.desk.world.bench.heap.state =
      (match (turnOf cfg client p).broke,(turnOf cfg client p).outcome with
      | some error,_ => (.error error,(turnOf cfg client p).state)
      | none,.ok content => (.ok content,(turnOf cfg client p).state)
      | none,.error exc =>
        (exc.text.bind fun said =>
          writeJson dumpText unserializable (.dict (outage (turnOf cfg client p).answers.length said)),
          (turnOf cfg client p).state)) := rfl
  rw [same,unbroken]
  rcases ended : (turnOf cfg client p).outcome with exc | content
  · obtain ⟨said,told⟩ := tellable exc ended
    obtain ⟨text,written,read⟩ := outage_read deep (turnOf cfg client p).answers.length said
    exact ⟨text,by simp only [told,Except.bind,written],said,told,read⟩
  · exact ⟨content,rfl,rfl⟩

/-- The agent hears what its turn came to. -/
theorem agent_hears (wired : Wired kernel config cfg client p.desk) (opened : Open p.state p.desk task) {text : String}
    {s : σ} (answered : chatted (.ok cfg) (.ok client) (chatArgs p.state) p.desk.world.bench.heap.state = (.ok text,s)) : ∃ world request,
    request.name = "llm.chat" ∧ world.bench = asking p.desk.world.bench request s ∧
      agent_node p.state p.desk = understood p.state (rang p.desk .agent "llm.chat" (chatArgs p.state) world) text := by
  have inScope : ¬ OutOfScope (some p.desk.session.call_context) "llm.chat" := by
    rintro ⟨scope,given,absent⟩
    cases given
    exact absent wired.granted
  obtain ⟨envelope,world,ran,content,bench⟩ := kernel_chat wired.built wired.undenied inScope (chatArgs_plain p.state) answered
  refine ⟨world,_,rfl,bench,?_⟩
  have told : p.desk.execute_tool .agent "llm.chat" (chatArgs p.state) =
      .ok (envelope,rang p.desk .agent "llm.chat" (chatArgs p.state) world) := by
    refine (execute_ok_iff opened.active).mpr ⟨envelope,world,?_,rfl⟩
    unfold AgentRuns.Answers
    rw [wired.reached]
    exact ran
  unfold agent_node
  rw [opened.restored]
  show (p.desk.execute_tool .agent "llm.chat" (chatArgs p.state)).bind _ = _
  rw [told]
  show (contentOf envelope).bind _ = _
  rw [content]
  rfl

theorem outage_failure (tried : Nat) (said : String) :
    failure (outage tried said) = "LLM request failed after " ++ toString tried ++ " attempt(s): " ++ said := by
  show orText ("LLM request failed after " ++ toString tried ++ " attempt(s): " ++ said) _ = _
  unfold orText
  rw [if_neg]
  intro none
  have length := congrArg String.length none
  simp only [String.length_append] at length
  have first : "LLM request failed after ".length = 25 := rfl
  have empty : "".length = 0 := rfl
  omega

/-- A turn whose tries all fail closes the run as failed in the two nodes that follow. -/
theorem outage_finishes (stands : Stands p budget task) (here : p.next = some .agent) {desk : Desk (Shared σ)} {text : String}
    {tried : Nat} {said : String} (session : desk.session = p.desk.session) (services : desk.services = p.desk.services)
    (heard : agent_node p.state p.desk = understood p.state desk text)
    (read : parse_action p.desk.services.interp text = .ok (outage tried said)) : ∃ p₁ p₂, visit .agent p = .ok p₁ ∧
      p₁.next = some .finish ∧ visit .finish p₁ = .ok p₂ ∧ p₂.next = none ∧ p₂.state.status = "failed" ∧
      p₂.state.final = some ("LLM request failed after " ++ toString tried ++ " attempt(s): " ++ said) ∧ Closed p₂ task ∧
      p₂.desk.world = desk.world := by
  have done : agent_node p.state p.desk = .ok (afterAction p.state p.desk budget text (outage tried said),_) :=
    heard.trans ((taken_ok_iff stands.counted p.desk desk services session).mpr (.action (outage tried said) read))
  have moved : visit .agent p = .ok ⟨some .finish,_,_⟩ := visit_ok_iff.mpr ⟨done,rfl⟩
  obtain ⟨budget',-,stands',-⟩ := agent_moves stands here moved
  have wrong : errored (outage tried said) := rfl
  have ended := finish_errored stands'.counted (stands'.opened (by simp)) wrong
  have last : visit .finish _ = .ok ⟨none,_,_⟩ := visit_ok_iff.mpr ⟨ended,rfl⟩
  exact ⟨_,_,moved,rfl,last,rfl,rfl,congrArg some (outage_failure tried said),(stands'.off _ _ _ _).closed rfl,rfl⟩

/-- Where any run reaches the agent, the adapter tries as its settings allow, and unless it ends in an exception without
    a text the kernel asks it once: what the endpoint says is what the agent understands, and when it cannot be reached
    the next two nodes close the run as failed. -/
theorem turn_heard {start : Position (Shared σ)} {messages : List Message} {model : Option String} {resumable : Prop}
    {trail : List (NodeName × AgentState)} (begins : Begins start task messages budget model)
    (reached : Reaches resumable start trail p) (here : p.next = some .agent)
    (wired : Wired kernel config cfg client p.desk) :
    Endeavour (attempts cfg) 0 (turnOf cfg client p) ∧ ((turnOf cfg client p).Tellable → ∃ world request,
      request.name = "llm.chat" ∧ world.bench = asking p.desk.world.bench request (turnOf cfg client p).state ∧
        match (turnOf cfg client p).outcome with
        | .ok content =>
          agent_node p.state p.desk = understood p.state (rang p.desk .agent "llm.chat" (chatArgs p.state) world) content
        | .error exc => ∃ said p₁ p₂, exc.text = .ok said ∧ visit .agent p = .ok p₁ ∧ p₁.next = some .finish ∧
          visit .finish p₁ = .ok p₂ ∧ p₂.next = none ∧ p₂.state.status = "failed" ∧ p₂.state.final =
            some ("LLM request failed after " ++ toString (turnOf cfg client p).answers.length ++ " attempt(s): " ++ said) ∧
          Closed p₂ task ∧ p₂.desk.world = world) := by
  have endeavour : Endeavour (attempts cfg) 0 (turnOf cfg client p) := asked_endeavour wired.patient ..
  refine ⟨endeavour,fun tellable => ?_⟩
  obtain ⟨budget',-,-,stands,-,-⟩ := reaches_run begins reached
  obtain ⟨text,answered,meaning⟩ := turn_text wired.deep endeavour.unbroken tellable
  obtain ⟨world,request,named,bench,heard⟩ := agent_hears wired (stands.opened (by simp [here])) answered
  refine ⟨world,request,named,bench,?_⟩
  rcases ended : (turnOf cfg client p).outcome with exc | content
  · rw [ended] at meaning
    obtain ⟨said,told,read⟩ := meaning
    obtain ⟨p₁,p₂,closing⟩ := outage_finishes stands here
      (show (rang p.desk .agent "llm.chat" (chatArgs p.state) world).session = p.desk.session from rfl) rfl heard read
    exact ⟨said,p₁,p₂,told,closing⟩
  · rw [ended] at meaning
    cases meaning
    exact heard

end

/-! ### An endpoint that is overloaded -/

def overload : Fault := { cls := "InternalServerError", text := .ok "503", status_code := .int 503 }

/-- It refuses every request, and counts them. -/
def overloaded : Client Nat where
  create _ n := (.error overload,n + 1)

def outageSettings : Settings := { model := "local-model", max_tokens := 2048, max_retries := 2, _sleep := fun _ => .ok () }

theorem overloaded_asked (kwargs : Fields) :
    asked outageSettings overloaded kwargs 0 = ⟨.error overload,List.replicate 3 (.error overload),[1,2],3,none⟩ := by
  rfl

def outageConfig : MiddlewareConfig :=
  { timing := true, policy := some ["fs.write"], retry := some 3, condense := some (100,20) }

/-- A kernel with every middleware that a configuration can enable. -/
def outageKernel : AgentKernel Nat where
  host := plainHost
  registry := ({} : CapabilityRegistry Nat).register_tool "llm.chat" (LLMChatTool (.ok outageSettings) (.ok overloaded))
    (some "llm_chat") "tool" false "low"
  middlewares := (_install_middleware outageConfig).map (BuiltIn.middleware plainHost)

/-- A process over that kernel. -/
def outageServices : Services (Shared Nat) where
  interp := { recursion_limit := 100, float := fun text => ⟨text,true,none⟩ }
  available := {"llm.chat"}
  uuid _ := "u"
  kernel := kernelOf outageKernel
  delegation_service := none

/-- A new run of the errand in it. -/
def outageStart : Position (Shared Nat) where
  next := some .guard
  state := errandState greetBudget
  desk := ⟨outageServices,errandSession,{ bench := { heap := ⟨0,fun _ => greetBudget⟩ } },[]⟩

theorem outageKernel_built : Built outageConfig (.ok outageSettings) (.ok overloaded) outageKernel where
  model := (CapabilityRegistry.resolve_registered ({} : CapabilityRegistry Nat) "llm.chat" _ (some "llm_chat") "tool" false "low").1
  middleware := rfl

theorem outageConfig_undenied : Undenied outageConfig := by
  intro deny given
  cases given
  decide

theorem outageStart_begins : Begins outageStart errand [] greetBudget none where
  next := rfl
  state := rfl
  assigned := rfl
  unclosed := rfl
  named := (errand_begins [] greetBudget).named
  owned := (errand_begins [] greetBudget).owned
  idle := rfl

/-- Three requests are refused, with waits of one and two, though the retry middleware would try three times. -/
theorem overload_heard : ∃ (trail : List (NodeName × AgentState)) (p p₁ p₂ : Position (Shared Nat)), Reaches False outageStart trail p ∧
    visit .agent p = .ok p₁ ∧ visit .finish p₁ = .ok p₂ ∧ p₂.state.status = "failed" ∧
      p₂.state.final = some "LLM request failed after 3 attempt(s): 503" ∧ p₂.desk.world.bench.heap.state = 3 ∧
      p₂.desk.world.bench.invoked.length = 1 ∧ (turnOf outageSettings overloaded p).waits = [1,2] := by
  obtain ⟨p,moved,here,services,granted,idle⟩ : ∃ p, visit .guard outageStart = .ok p ∧ p.next = some .agent ∧
      p.desk.services = outageServices ∧ p.desk.session.allowed_capabilities = {"llm.chat"} ∧
        p.desk.world = outageStart.desk.world := ⟨_,rfl,rfl,rfl,rfl,rfl⟩
  have reached : Reaches False outageStart ([] ++ [(.guard,p.state)]) p := .visit .start rfl moved
  have wired : Wired outageKernel outageConfig outageSettings overloaded p.desk :=
    ⟨by rw [services]; rfl,outageKernel_built,outageConfig_undenied,by rw [granted]; exact Finset.mem_singleton_self _,
      by rw [services]; decide,fun _ _ => rfl⟩
  have turn : turnOf outageSettings overloaded p = ⟨.error overload,List.replicate 3 (.error overload),[1,2],3,none⟩ := by
    unfold turnOf
    rw [idle]
    exact overloaded_asked _
  have tellable : (turnOf outageSettings overloaded p).Tellable := by
    rw [turn]
    rintro exc ⟨⟩
    exact ⟨"503",rfl⟩
  obtain ⟨world,request,-,bench,rest⟩ := (turn_heard outageStart_begins reached here wired).2 tellable
  rw [turn] at bench rest
  obtain ⟨said,p₁,p₂,told,first,-,second,-,failed,final,-,left⟩ := rest
  cases told
  refine ⟨_,p,p₁,p₂,reached,first,second,failed,final,?_,?_,by rw [turn]⟩
  · rw [left,bench]
    rfl
  · rw [left,bench,idle]
    rfl

end HexAgent.Outages
