import HexAgent.Kernel

/-!
The promise of the tool path: whatever middleware and executors do, a call
returns a dictionary and publishes one event before and one event after, for the
same request. It holds exactly where the outermost handler leaves an envelope
that the kernel can present.
-/
namespace HexAgent.Envelopes
open HexAgent.Values HexAgent.Commands HexAgent.Schemas HexAgent.Kernel Programs

section
variable {σ : Type}

/-! ### Copies of what is published -/

section
variable {host : Host}

theorem deepcopy_ok {v : PyVal} : host.deepcopy v = .ok () ↔ (PyVal.objects v).forM host.copy = .ok () := Iff.rfl

theorem lineage_objects (context : Option ToolCallContext) : objectsIn (lineageOf context) = [] := by
  have plain : ∀ text : Option String, PyVal.objects (ofOption text) = [] := by
    rintro (_ | _) <;> rfl
  simp [lineageOf,ToolCallContext.event_fields,objectsIn,plain]

theorem requestFields_objects (context : Option ToolCallContext) (request : ToolRequest) :
    objectsIn (requestFields (lineageOf context) request) = objectsIn request.args := by
  have plain : ∀ text : Option String, PyVal.objects (ofOption text) = [] := by
    rintro (_ | _) <;> rfl
  simp [requestFields,lineageOf,ToolCallContext.event_fields,Dicts.merge,Dicts.put,objectsIn,plain,PyVal.objects]

theorem resultFields_objects (context : Option ToolCallContext) (request : ToolRequest) (ok : Bool) (error : PyVal) :
    objectsIn (resultFields (lineageOf context) request ok error) = PyVal.objects error := by
  have plain : ∀ text : Option String, PyVal.objects (ofOption text) = [] := by
    rintro (_ | _) <;> rfl
  simp [resultFields,lineageOf,ToolCallContext.event_fields,Dicts.merge,Dicts.put,objectsIn,plain,PyVal.objects]

theorem requestFields_id (context : Option ToolCallContext) (request : ToolRequest) :
    Fields.get (requestFields (lineageOf context) request) "request_id" = .str request.request_id := by
  simp [requestFields,lineageOf,ToolCallContext.event_fields,Dicts.merge,Dicts.put,Fields.get,Fields.getD,Dicts.get]

theorem resultFields_id (context : Option ToolCallContext) (request : ToolRequest) (ok : Bool) (error : PyVal) :
    Fields.get (resultFields (lineageOf context) request ok error) "request_id" = .str request.request_id := by
  simp [resultFields,lineageOf,ToolCallContext.event_fields,Dicts.merge,Dicts.put,Fields.get,Fields.getD,Dicts.get]

end

/-! ### Answered calls -/

/-- The event before and the event after a call that returned the envelope. -/
structure Balanced (host : Host) (envelope : Fields) (before later : Published) : Prop where
  requested : before.topic = "tool.requested"
  final : later.topic = "tool.completed" ∨ later.topic = "tool.failed"
  same : before.payload.get "request_id" = later.payload.get "request_id"
  ok : later.topic = "tool.completed" ↔ host.bool (envelope.get "ok") = .ok true

variable (kernel : AgentKernel σ) (tool_name : String) (args : Fields) (context : Option ToolCallContext) (w : Shared σ)

/-- The call returns a dictionary, and publishes exactly a balanced pair of events. -/
def Answers : Prop := ∃ envelope w' before later,
  (execute_tool kernel tool_name args context).run w = (.ok envelope,w') ∧
    w'.events = w.events ++ [before,later] ∧ Balanced kernel.host envelope before later

/-- The request of the call. -/
def requestOf : ToolRequest := ⟨tool_name,args,context,kernel.host.hex w.draws⟩

/-- What the outermost handler does with the request: the first middleware, or the core
    when there is none. -/
def outermost : Except PyError PyVal :=
  ((handlerOf kernel (lineageOf context) (requestOf kernel tool_name args context w)).run w.bench).1

variable {kernel tool_name args context w}

/-- The metadata of an envelope is absent, a dictionary or an object that takes
    defaults, its `ok` has a truth value, and its error can be copied. -/
structure Presentable (host : Host) (envelope : Fields) : Prop where
  metadata : ∀ v, Dicts.get "metadata" envelope = some v →
    (∃ metadata, v = .dict metadata) ∨ ∃ o, v = .object o ∧ host.setdefault o = .ok ()
  ok : ∃ b, host.bool (envelope.get "ok") = .ok b
  error : host.deepcopy (envelope.get "error") = .ok ()

/-- An outcome that the kernel can present: an exception that has a text, a value that is
    no dictionary, or a presentable envelope. -/
def Tame (host : Host) : Except PyError PyVal → Prop
  | .error exc => ∃ text, host.describe exc = .ok text
  | .ok (.dict envelope) => Presentable host envelope
  | .ok _ => True

/-- Completing an envelope changes nothing but its metadata. -/
theorem complete_get {lineage : Fields} {request : ToolRequest} {envelope completed : Fields}
    (done : complete kernel lineage request envelope = .ok completed) {key : String} (other : key ≠ "metadata") :
    completed.get key = envelope.get key := by
  have put : ∀ v : PyVal, Fields.get (Dicts.put "metadata" v envelope) key = envelope.get key := by
    intro v
    simp [Fields.get,Fields.getD,Dicts.get_put_other other]
  unfold complete at done
  split at done
  · cases done; exact put _
  · cases done; exact put _
  · next o _ =>
    rcases taken : kernel.host.setdefault o with error | _
    · rw [taken] at done; cases done
    · rw [taken] at done; cases done; rfl
  · cases done

theorem complete_ok_iff {lineage : Fields} {request : ToolRequest} {envelope : Fields} :
    (∃ completed, complete kernel lineage request envelope = .ok completed) ↔
      ∀ v, Dicts.get "metadata" envelope = some v →
        (∃ metadata, v = .dict metadata) ∨ ∃ o, v = .object o ∧ kernel.host.setdefault o = .ok () := by
  unfold complete
  rcases Dicts.get "metadata" envelope with _ | v
  · simp
  · cases v with
    | dict metadata => simp
    | object o =>
      rcases taken : kernel.host.setdefault o with error | _
      · simp [taken,Except.map]
      · simp [taken,Except.map]
    | _ => simp

/-- The last event of a call. -/
def finalTopic (ok : Bool) : String := if ok then "tool.completed" else "tool.failed"

/-- The last event is published and the envelope returned, where the envelope can be shown. -/
theorem conclude_run {request : ToolRequest} {envelope : Fields} {ok : Bool} {w : Shared σ}
    (truth : kernel.host.bool (envelope.get "ok") = .ok ok)
    (copied : kernel.host.deepcopy (envelope.get "error") = .ok ()) :
    (conclude kernel (lineageOf context) request envelope).run w = (.ok envelope,
      w.published (finalTopic ok) (resultFields (lineageOf context) request ok (envelope.get "error"))) := by
  have payload : kernel.host.deepcopy (.dict (resultFields (lineageOf context) request ok (envelope.get "error"))) = .ok () := by
    rw [deepcopy_ok,PyVal.objects,resultFields_objects]
    exact copied
  unfold conclude
  rw [truth,lift_ok,bind_run_ok (pure_run ok w),bind_run_ok (publish_run kernel payload)]
  rfl

theorem conclude_returned {request : ToolRequest} {envelope : Fields} {w : Shared σ}
    (returns : Returns (conclude kernel (lineageOf context) request envelope) w) :
    (∃ b, kernel.host.bool (envelope.get "ok") = .ok b) ∧ kernel.host.deepcopy (envelope.get "error") = .ok () := by
  unfold conclude at returns
  obtain ⟨ok,truth,rest⟩ := returns_bind_lift_iff.mp returns
  obtain ⟨_,_,published,-⟩ := returns_bind_iff.mp rest
  have copied := publish_returned kernel ⟨_,_,published⟩
  rw [deepcopy_ok,PyVal.objects,resultFields_objects] at copied
  exact ⟨⟨ok,truth⟩,copied⟩

/-- What follows the first event. -/
def answer (kernel : AgentKernel σ) (context : Option ToolCallContext) (request : ToolRequest)
    (outcome : Except PyError PyVal) : Prog (Shared σ) PyError Fields := do
  let envelope ← lift (settle kernel (lineageOf context) request outcome)
  let envelope ← lift (complete kernel (lineageOf context) request envelope)
  conclude kernel (lineageOf context) request envelope

/-- What can be presented is: the envelope is returned, and the last event tells its `ok`. -/
theorem answer_tame {request : ToolRequest} {outcome : Except PyError PyVal} {w : Shared σ} (tame : Tame kernel.host outcome) :
    ∃ envelope ok, kernel.host.bool (envelope.get "ok") = .ok ok ∧
      (answer kernel context request outcome).run w = (.ok envelope,
        w.published (finalTopic ok) (resultFields (lineageOf context) request ok (envelope.get "error"))) := by
  obtain ⟨envelope,settled,presentable⟩ : ∃ envelope, settle kernel (lineageOf context) request outcome = .ok envelope ∧
      Presentable kernel.host envelope := by
    rcases outcome with exc | v
    · obtain ⟨text,described⟩ := tame
      refine ⟨kernelError (lineageOf context) request text,by rw [settle,described]; rfl,?_⟩
      exact ⟨fun v given => .inl ⟨_,(Option.some.inj given).symm⟩,⟨false,rfl⟩,rfl⟩
    · cases v with
      | dict envelope => exact ⟨envelope,rfl,tame⟩
      | _ => exact ⟨_,rfl,fun v given => .inl ⟨_,(Option.some.inj given).symm⟩,⟨false,rfl⟩,rfl⟩
  obtain ⟨completed,done⟩ := complete_ok_iff.mpr presentable.metadata
  obtain ⟨ok,truth⟩ := presentable.ok
  have okSame : completed.get "ok" = envelope.get "ok" := complete_get done (by decide)
  have errorSame : completed.get "error" = envelope.get "error" := complete_get done (by decide)
  refine ⟨completed,ok,by rw [okSame]; exact truth,?_⟩
  unfold answer
  rw [settled,lift_ok,bind_run_ok (pure_run envelope w),done,lift_ok,bind_run_ok (pure_run completed w)]
  exact conclude_run (by rw [okSame]; exact truth) (by rw [errorSame]; exact presentable.error)

theorem answer_returned {request : ToolRequest} {outcome : Except PyError PyVal} {w : Shared σ}
    (returns : Returns (answer kernel context request outcome) w) : Tame kernel.host outcome := by
  unfold answer at returns
  obtain ⟨envelope,settled,returns⟩ := returns_bind_lift_iff.mp returns
  obtain ⟨completed,done,returns⟩ := returns_bind_lift_iff.mp returns
  obtain ⟨⟨ok,truth⟩,copied⟩ := conclude_returned returns
  rw [complete_get done (by decide)] at truth copied
  rcases outcome with exc | v
  · rcases described : kernel.host.describe exc with error | text
    · rw [settle,described] at settled
      cases settled
    · exact ⟨text,described⟩
  · cases v with
    | dict fields =>
      cases settled
      exact ⟨complete_ok_iff.mp ⟨completed,done⟩,⟨ok,truth⟩,copied⟩
    | _ => trivial

/-- The world after the event before the call. -/
def requestedWorld (kernel : AgentKernel σ) (tool_name : String) (args : Fields) (context : Option ToolCallContext)
    (w : Shared σ) : Shared σ :=
  Shared.published { w with draws := w.draws + 1 } "tool.requested"
    (requestFields (lineageOf context) (requestOf kernel tool_name args context w))

/-- A call with arguments that can be copied publishes the first event; then it refuses the
    name, or answers what the outermost handler did. -/
theorem execute_tool_run (copyable : kernel.host.deepcopy (.dict args) = .ok ()) :
    (execute_tool kernel tool_name args context).run w =
      if OutOfScope context tool_name then
        (conclude kernel (lineageOf context) (requestOf kernel tool_name args context w)
          (scopeBlock (lineageOf context) (requestOf kernel tool_name args context w))).run
            (requestedWorld kernel tool_name args context w)
      else (answer kernel context (requestOf kernel tool_name args context w) (outermost kernel tool_name args context w)).run
        { requestedWorld kernel tool_name args context w with
            bench := ((handlerOf kernel (lineageOf context) (requestOf kernel tool_name args context w)).run w.bench).2 } := by
  have payload : kernel.host.deepcopy (.dict (requestFields (lineageOf context) (requestOf kernel tool_name args context w))) =
      .ok () := by
    rw [deepcopy_ok,PyVal.objects,requestFields_objects]
    exact copyable
  unfold execute_tool
  rw [copyable,lift_ok,bind_run_ok (pure_run () w)]
  rw [bind_run_ok (draw_run kernel w)]
  simp only
  rw [show (⟨tool_name,args,context,kernel.host.hex w.draws⟩ : ToolRequest) = requestOf kernel tool_name args context w from
    rfl,bind_run_ok (publish_run kernel payload)]
  split
  · rfl
  · rfl

/-- The two events of a call that returned the envelope. -/
theorem events_balanced {envelope : Fields} {ok : Bool} {bench : Bench σ}
    (truth : kernel.host.bool (envelope.get "ok") = .ok ok)
    (ran : (execute_tool kernel tool_name args context).run w = (.ok envelope,
      Shared.published { requestedWorld kernel tool_name args context w with bench } (finalTopic ok)
        (resultFields (lineageOf context) (requestOf kernel tool_name args context w) ok (envelope.get "error")))) :
    Answers kernel tool_name args context w := by
  refine ⟨envelope,_,⟨"tool.requested",requestFields (lineageOf context) (requestOf kernel tool_name args context w)⟩,
    ⟨finalTopic ok,resultFields (lineageOf context) (requestOf kernel tool_name args context w) ok (envelope.get "error")⟩,
    ran,?_,rfl,?_,?_,?_⟩
  · simp [Shared.published,requestedWorld]
  · cases ok
    · exact .inr rfl
    · exact .inl rfl
  · rw [requestFields_id,resultFields_id]
  · rw [truth]
    cases ok
    · simp [finalTopic]
    · simp [finalTopic]

/-- A call is answered exactly when the session does not grant the name, or the outermost
    handler leaves what the kernel can present. -/
theorem answers_iff (copyable : kernel.host.deepcopy (.dict args) = .ok ()) :
    Answers kernel tool_name args context w ↔
      OutOfScope context tool_name ∨ Tame kernel.host (outermost kernel tool_name args context w) := by
  have ran := @execute_tool_run _ kernel tool_name args context w copyable
  by_cases blocked : OutOfScope context tool_name
  · rw [if_pos blocked,@conclude_run _ kernel context _ _ false _ rfl rfl] at ran
    exact ⟨fun _ => .inl blocked,fun _ => @events_balanced _ kernel tool_name args context w _ false w.bench rfl ran⟩
  · rw [if_neg blocked] at ran
    rw [or_iff_right blocked]
    constructor
    · rintro ⟨envelope,w',_,_,returned,-⟩
      rw [ran] at returned
      exact answer_returned ⟨envelope,w',returned⟩
    · intro tame
      obtain ⟨envelope,ok,truth,answered⟩ := @answer_tame _ kernel context (requestOf kernel tool_name args context w) _
        { requestedWorld kernel tool_name args context w with
          bench := ((handlerOf kernel (lineageOf context) (requestOf kernel tool_name args context w)).run w.bench).2 } tame
      rw [answered] at ran
      exact events_balanced truth ran

end

/-! ### A call that is answered, and one that is not -/

/-- A tool that answers every call. -/
def echo : Executor Unit where
  name := "echo"
  execute request state := (.ok (.dict [("ok",.bool true),("echo",.dict request.args)]),state)

def echoKernel (middlewares : List (Middleware Unit)) : AgentKernel Unit where
  host := plainHost
  registry := ({} : CapabilityRegistry Unit).register_tool "echo" echo none "tool" false "low"
  middlewares

def idle : Shared Unit := { bench := { heap := ⟨(),fun _ => {}⟩ } }

theorem echo_answered : Answers (echoKernel []) "echo" [("text",.str "hello")] none idle :=
  (answers_iff rfl).mpr (.inr ⟨fun _ given => .inl ⟨_,(Option.some.inj given).symm⟩,⟨true,rfl⟩,rfl⟩)

/-- A middleware that drops the metadata of every result. -/
def careless : Middleware Unit := fun _ _ => pure (.dict [("ok",.bool true),("metadata",.null)])

/-- Metadata that is `None` makes the call raise after the guard, with no last event. -/
theorem careless_middleware_raises :
    ((execute_tool (echoKernel [careless]) "echo" [] none).run idle).1 =
        .error (.raised (.AttributeError "'NoneType' object has no attribute 'setdefault'")) ∧
      ((execute_tool (echoKernel [careless]) "echo" [] none).run idle).2.events.map Published.topic = ["tool.requested"] ∧
      ¬ Answers (echoKernel [careless]) "echo" [] none idle := by
  have raised : ((execute_tool (echoKernel [careless]) "echo" [] none).run idle).1 =
      .error (.raised (.AttributeError "'NoneType' object has no attribute 'setdefault'")) := rfl
  refine ⟨raised,rfl,?_⟩
  rintro ⟨envelope,w',_,_,returned,-⟩
  rw [returned] at raised
  cases raised

end HexAgent.Envelopes
