import HexAgent.Sessions

/-!
The delegation manager: the one way from a session to a child session. It decides
the policy, resolves the target, hands the child to the handler and turns whatever
the handler did into a stored result. A handler may do anything with the child that
it was given, delegate again with it, keep state of its own outside, swallow
exceptions, and return or raise.
-/
namespace HexAgent.Delegation
open HexAgent.Values HexAgent.Commands HexAgent.Schemas HexAgent.Kernel HexAgent.DelegationStore HexAgent.Sessions Programs

/-! ### The policy engine -/

structure DelegationPolicyEngine where
  max_steps : Int := 100
  max_depth : Int := 8

/-- `requested or inherited`: an empty scope means the inherited one. -/
def orInherited (requested inherited : Finset String) : Finset String := if requested = ∅ then inherited else requested

/-- The policy that is in force. -/
def DelegationPolicyEngine.validate (engine : DelegationPolicyEngine) (parent : KernelSession) (policy : DelegationPolicy) :
    Except PyError DelegationPolicy :=
  if policy.max_steps < 1 ∨ policy.max_steps > engine.max_steps then
    .error (.ValueError ("Delegation max_steps must be between 1 and " ++ toString engine.max_steps ++ "."))
  else if policy.max_depth < 1 ∨ policy.max_depth > engine.max_depth then
    .error (.ValueError ("Delegation max_depth must be between 1 and " ++ toString engine.max_depth ++ "."))
  else if (parent.identity.depth : Int) + 1 > policy.max_depth then
    .error (.PermissionError "Delegation depth limit exceeded.")
  else if ¬ orInherited policy.allowed_capabilities parent.allowed_capabilities ⊆ parent.allowed_capabilities then
    .error (.PermissionError "Delegation capability scope exceeds the parent scope.")
  else .ok { policy with allowed_capabilities := orInherited policy.allowed_capabilities parent.allowed_capabilities }

/-- A policy is in force exactly when its limits are those of the engine, a child is not
    too deep, and the scope is within that of the parent. -/
theorem validate_ok_iff {engine : DelegationPolicyEngine} {parent : KernelSession} {policy active : DelegationPolicy} :
    engine.validate parent policy = .ok active ↔
      (1 ≤ policy.max_steps ∧ policy.max_steps ≤ engine.max_steps) ∧
      (1 ≤ policy.max_depth ∧ policy.max_depth ≤ engine.max_depth) ∧
      (parent.identity.depth : Int) + 1 ≤ policy.max_depth ∧
      orInherited policy.allowed_capabilities parent.allowed_capabilities ⊆ parent.allowed_capabilities ∧
      active = { policy with
        allowed_capabilities := orInherited policy.allowed_capabilities parent.allowed_capabilities } := by
  unfold DelegationPolicyEngine.validate
  by_cases steps : policy.max_steps < 1 ∨ policy.max_steps > engine.max_steps
  · rw [if_pos steps]
    exact ⟨nofun,fun ⟨⟨low,high⟩,_⟩ => by omega⟩
  · by_cases depths : policy.max_depth < 1 ∨ policy.max_depth > engine.max_depth
    · rw [if_neg steps,if_pos depths]
      exact ⟨nofun,fun ⟨_,⟨low,high⟩,_⟩ => by omega⟩
    · by_cases deep : (parent.identity.depth : Int) + 1 > policy.max_depth
      · rw [if_neg steps,if_neg depths,if_pos deep]
        exact ⟨nofun,fun ⟨_,_,shallow,_⟩ => by omega⟩
      · by_cases within : orInherited policy.allowed_capabilities parent.allowed_capabilities ⊆ parent.allowed_capabilities
        · rw [if_neg steps,if_neg depths,if_neg deep,if_neg (not_not.mpr within)]
          constructor
          · rintro ⟨⟩
            exact ⟨by omega,by omega,by omega,within,rfl⟩
          · rintro ⟨-,-,-,-,rfl⟩
            rfl
        · rw [if_neg steps,if_neg depths,if_neg deep,if_pos within]
          exact ⟨nofun,fun ⟨_,_,_,inside,_⟩ => absurd inside within⟩

/-! ### Handlers -/

section
variable (σ : Type)

/-- What code that holds a session can do with it, and with the state outside. -/
inductive SessionAct where
  | execute_tool (tool_name : String) (args : Fields)
  | delegate (target : String) (spec : DelegationSpec) (policy : Option DelegationPolicy)
  | complete_task (result : PyVal) (status : String)
  | fail_task (reason : PyVal) (extra : Fields)
  | change_state (change : StateStore → StateStore)
  | outside (change : Heap σ → Heap σ)

variable {σ} in
/-- What it gets back. -/
def SessionAct.Answer : SessionAct σ → Type
  | .execute_tool .. | .complete_task .. | .fail_task .. => Fields
  | .delegate .. => DelegationResult
  | .change_state _ => StateStore
  | .outside _ => Heap σ

/-- A run of a handler: it returns, raises, does something with its session or reports
    progress. It sees every answer and every exception, and goes on as it likes. -/
inductive Behaviour where
  | returns (result : DelegationResult)
  | raises (exc : PyError)
  | acts (act : SessionAct σ) (next : Except PyError act.Answer → Behaviour)
  | reports (progress : DelegationProgress) (next : Except PyError Unit → Behaviour)

structure DelegationPort where
  name : String
  can_handle : String → Except PyError Bool
  run : DelegationRequest → KernelSession → Behaviour σ

/-- The handlers, in the order they were registered. -/
abbrev DelegationRegistry := List (DelegationPort σ)

end

section
variable {σ : Type}

/-- The only handler of a target. -/
def DelegationRegistry.resolve (registry : DelegationRegistry σ) (target : String) : Except PyError (DelegationPort σ) := do
  let handled ← registry.mapM fun handler => do return (handler,← handler.can_handle target)
  match (handled.filter Prod.snd).map Prod.fst with
  | [] => .error (.LookupError ("No delegation handler registered for target '" ++ target ++ "'."))
  | [handler] => .ok handler
  | found => .error (.LookupError ("Ambiguous delegation target '" ++ target ++ "': " ++
      (PyVal.list ((sortedTexts (found.map DelegationPort.name)).map .str)).repr))

structure DelegationManager (σ : Type) where
  kernel : AgentKernel σ
  registry : DelegationRegistry σ
  policy : DelegationPolicyEngine := {}

/-! ### What a handler does -/

/-- What the events of a delegation say of it. -/
def _event_fields (parent : KernelSession) (delegation_id target : String) : Fields :=
  Dicts.merge parent.call_context.event_fields [("delegation_id",.str delegation_id),("target",.str target)]

/-- What the last event of a delegation says of its result. -/
def finishedFields (parent : KernelSession) (target : String) (result : DelegationResult) : Fields :=
  Dicts.merge (_event_fields parent result.delegation_id target) [("outcome",.str result.outcome.value),
    ("artifact_count",.int result.artifacts.length),("error",ofOption result.error)]

/-- What the event of a record says of it. -/
def progressFields (child : KernelSession) (progress : DelegationProgress) : Fields :=
  Dicts.merge child.call_context.event_fields [("event_id",.str progress.event_id),("sequence",.int progress.sequence),
    ("status",.str progress.status.value),("artifact",.dict progress.artifact.as_dict)]

/-- A delegation from a session, to a target. -/
abbrev Delegate (σ : Type) := Nat → String → DelegationSpec → Option DelegationPolicy → Act σ DelegationResult

section
variable (manager : DelegationManager σ) (again : Delegate σ)

/-- Change the state outside. -/
def changeHeap (change : Heap σ → Heap σ) : Prog (Shared σ) PyError Unit :=
  update (fun w => { w with bench := { w.bench with heap := change w.bench.heap } }) fun _ => ⟨List.prefix_rfl,Nat.le_refl _⟩

/-- Do something with a session or outside; `again` delegates from it. -/
def perform (session : Nat) : (act : SessionAct σ) → Act σ act.Answer
  | .execute_tool tool_name args => execute_tool manager.kernel session tool_name args
  | .delegate target spec policy => again session target spec policy
  | .complete_task result status => complete_task manager.kernel session result status
  | .fail_task reason extra => fail_task manager.kernel session reason extra
  | .change_state change => do
    alter session (fun session => { session with state := change session.state }) fun _ => rfl
    let session ← sessionAt session
    pure session.state
  | .outside change => do
    onShared (changeHeap change)
    read fun w => w.shared.bench.heap

/-- Records of another delegation or beyond the steps of the policy are refused; the store
    is the source of truth, and is asked first. -/
def progress_sink (request : DelegationRequest) (child : KernelSession) (progress : DelegationProgress) : Act σ Unit := do
  if progress.delegation_id ≠ request.delegation_id then
    raise (.ValueError "Progress delegation_id does not match the active request.")
  else if progress.sequence > request.policy.max_steps then raise (.ValueError "Delegation progress exceeded max_steps.")
  else do
    stored fun store => store.append_progress progress
    onShared (publish manager.kernel "delegation.progress" (progressFields child progress))

/-- Run a handler with its child session. -/
def conduct (request : DelegationRequest) (child_session : Nat) (child : KernelSession) : Behaviour σ → Act σ DelegationResult
  | .returns result => pure result
  | .raises exc => raise exc
  | .acts act next => do
    let answer ← caught (perform manager again child_session act)
    conduct request child_session child (next answer)
  | .reports progress next => do
    let answer ← caught (progress_sink manager request child progress)
    conduct request child_session child (next answer)

end

/-! ### The manager -/

/-- The result of a handler, with the artifacts of its progress first. -/
def merged (request : DelegationRequest) (progress : List DelegationProgress) (result : DelegationResult) :
    Except PyError DelegationResult :=
  if result.delegation_id ≠ request.delegation_id then
    .error (.ValueError "Delegation result ID does not match the request.")
  else if result.parent_task_id ≠ request.parent_task_id then
    .error (.ValueError "Delegation result parent_task_id does not match the parent.")
  else
    let progress_artifacts := progress.map DelegationProgress.artifact
    let seen := progress_artifacts.map ArtifactEnvelope.artifact_id
    .ok { result with artifacts := progress_artifacts ++ result.artifacts.filter fun artifact => artifact.artifact_id ∉ seen }

/-- The result of a delegation that did not get to its end, with the text of the exception, if it has one. -/
def unsuccessful (host : Host) (request : DelegationRequest) (outcome : Outcome) (artifacts : List ArtifactEnvelope)
    (exc : PyError) : Except PyError DelegationResult := do
  let error ← host.describe exc
  .ok { delegation_id := request.delegation_id, parent_task_id := request.parent_task_id, outcome, artifacts,
        error := some error }

/-- A missing permission rejects a delegation, anything else fails it. -/
def refusal : PyError → Outcome
  | .PermissionError _ => .rejected
  | _ => .failed

/-- The session with the policy in force in its state. -/
def instructed (request : DelegationRequest) (session : KernelSession) : KernelSession :=
  { session with state := session.state.set "delegation_policy" (.value (.dict request.policy.as_dict)) }

section
variable (manager : DelegationManager σ) (again : Delegate σ)

/-- Store the request, and publish it. -/
def started (parent : KernelSession) (request : DelegationRequest) : Act σ Unit := do
  stored fun store => store.start request
  onShared (publish manager.kernel "delegation.started" (_event_fields parent request.delegation_id request.target))

/-- The handler of the target, and a child session for it. -/
def assigned (parent_session : Nat) (request : DelegationRequest) : Act σ (DelegationPort σ × Nat) := do
  let handler ← lift (manager.registry.resolve request.target)
  let child ← create_child manager.kernel parent_session request.delegation_id request.target request.spec.objective
    request.spec.input_context (some request.policy.allowed_capabilities)
  alter child (instructed request) fun _ => rfl
  pure (handler,child)

/-- The work of a handler with its child session, and the check of its result. -/
def attempted (request : DelegationRequest) (handler : DelegationPort σ) (child_session : Nat) (child : KernelSession) :
    Act σ DelegationResult := do
  let result ← conduct manager again request child_session child (handler.run request child)
  let progress ← read fun w => w.store.progress request.delegation_id
  lift (merged request progress result)

/-- The result of the handler, or a failed one. -/
def worked (request : DelegationRequest) (handler : DelegationPort σ) (child_session : Nat) : Act σ DelegationResult := do
  let child ← sessionAt child_session
  match ← caught (attempted manager again request handler child_session child) with
  | .ok result => pure result
  | .error exc => do
    let progress ← read fun w => w.store.progress request.delegation_id
    lift (unsuccessful manager.kernel.host request .failed (progress.map DelegationProgress.artifact) exc)

/-- Close the task of the child, if the handler did not. -/
def settled (child_session : Nat) (result : DelegationResult) : Act σ Unit := do
  let child ← sessionAt child_session
  if child.is_active then do
    if result.outcome = .success then do
      let _ ← complete_task manager.kernel child_session (.dict result.as_dict) "completed"
    else do
      let _ ← fail_task manager.kernel child_session (.str (orText (result.error.getD "") result.outcome.value)) []
  else pure ()

section
-- `==` of results, an equivalence
variable [Setoid DelegationResult] [DecidableRel fun r s : DelegationResult => r ≈ s]

/-- Store the result, and publish it. -/
def _finish (parent : KernelSession) (target : String) (result : DelegationResult) : Act σ DelegationResult := do
  stored fun store => store.finish result
  onShared (publish manager.kernel "delegation.finished" (finishedFields parent target result))
  pure result

/-- A delegation whose policy is in force. -/
def carried (parent_session : Nat) (parent : KernelSession) (request : DelegationRequest) : Act σ DelegationResult := do
  started manager parent request
  match ← caught (assigned manager parent_session request) with
  | .error exc => do
    let result ← lift (unsuccessful manager.kernel.host request (refusal exc) [] exc)
    _finish manager parent request.target result
  | .ok (handler,child) => do
    let result ← worked manager again request handler child
    settled manager child result
    _finish manager parent request.target result

/-- A delegation whose policy is refused. -/
def turnedDown (parent : KernelSession) (request : DelegationRequest) (exc : PyError) : Act σ DelegationResult := do
  started manager parent request
  let result ← lift (unsuccessful manager.kernel.host request .rejected [] exc)
  _finish manager parent request.target result

/-- One delegation, in which handlers delegate by `again`. -/
def delegation : Delegate σ := fun parent_session target spec policy => do
  let parent ← sessionAt parent_session
  if ¬ parent.is_active then raise (.RuntimeError "Cannot delegate from an inactive parent session.")
  else if target = "" then raise (.ValueError "Delegation target must not be empty.")
  else if spec.objective = "" then raise (.ValueError "Delegation objective must not be empty.")
  else do
    let delegation_id ← onShared (draw manager.kernel)
    let requested_policy := policy.getD {}
    let request : DelegationRequest :=
      ⟨delegation_id,parent.identity.session_id,parent.identity.task_id,target,spec,requested_policy⟩
    match manager.policy.validate parent requested_policy with
    | .error exc => turnedDown manager parent request exc
    | .ok active_policy => carried manager again parent_session parent { request with policy := active_policy }

/-- Delegations that nest at most so deep. -/
def nested : Nat → Delegate σ
  | 0 => fun _ _ _ _ => ⟨fun w => (.error .outOfFuel,w),fun w => le_refl w⟩
  | deep+1 => delegation manager (nested deep)

/-- Delegate; children are at most `max_depth` deep, so no nesting is cut short. -/
def delegate : Delegate σ := nested manager (manager.policy.max_depth.toNat + 1)

end
end

/-! ### The child of a delegation -/

section
variable {manager : DelegationManager σ} {w : Realm σ} {request : DelegationRequest}

theorem modify_last {α : Type} (change : α → α) (before : List α) (last : α) :
    (before ++ [last]).modify before.length change = before ++ [change last] := by
  induction before with
  | nil => rfl
  | cons item rest ih => simpa using ih

/-- The child session that a delegation makes. -/
def assignedChild (kernel : AgentKernel σ) (w : Realm σ) (parent : KernelSession) (request : DelegationRequest) : KernelSession :=
  instructed request (childOf kernel w parent request.delegation_id request.target request.spec.objective
    request.spec.input_context request.policy.allowed_capabilities)

/-- A child is assigned to the handler of the target. -/
theorem assigned_run {parent_session : Nat} {parent : KernelSession} {handler : DelegationPort σ}
    (resolved : manager.registry.resolve request.target = .ok handler) (there : w.sessions[parent_session]? = some parent)
    (active : parent.is_active = true) (within : request.policy.allowed_capabilities ⊆ parent.allowed_capabilities) :
    (assigned manager parent_session request).run w =
      (.ok (handler,w.sessions.length),w.enrolled (assignedChild manager.kernel w parent request) 2) := by
  unfold assigned
  rw [resolved,lift_ok,bind_run_ok (pure_run handler w)]
  rw [bind_run_ok (@create_child_run _ manager.kernel _ _ _ there active (some request.policy.allowed_capabilities) within _ _ _ _)]
  simp only [alter,Realm.enrolled]
  rw [bind_run_ok rfl]
  simp only [pure_run,modify_last]
  rfl

/-- A child is assigned to the handler of the target, or an exception is raised and
    nothing changes. -/
theorem assigned_cases (parent_session : Nat) :
    (∃ exc, (assigned manager parent_session request).run w = (.error (.raised exc),w)) ∨
      ∃ handler parent, w.sessions[parent_session]? = some parent ∧ parent.is_active = true ∧
        request.policy.allowed_capabilities ⊆ parent.allowed_capabilities ∧
        (assigned manager parent_session request).run w =
          (.ok (handler,w.sessions.length),w.enrolled (assignedChild manager.kernel w parent request) 2) := by
  rcases resolved : manager.registry.resolve request.target with exc | handler
  · refine .inl ⟨exc,?_⟩
    unfold assigned
    rw [resolved]
    rfl
  · rcases create_child_cases parent_session request.delegation_id request.target request.spec.objective
      request.spec.input_context (some request.policy.allowed_capabilities) w with ⟨exc,raised⟩ | ⟨parent,there,active,within⟩
    · refine .inl ⟨exc,?_⟩
      unfold assigned
      rw [resolved,lift_ok,bind_run_ok (pure_run handler w),bind_run_error raised]
    · exact .inr ⟨handler,parent,there,active,within,assigned_run resolved there active within⟩

end

/-! ### What every step keeps, delegations keep -/

/-- An invariant that every step of the sessions keeps. A child is assigned under an
    identifier that was drawn in an earlier world, to a parent that is not too deep. -/
structure Stable (manager : DelegationManager σ) (I : Realm σ → Prop) : Prop where
  publish : ∀ topic payload, Keeps I (onShared (publish manager.kernel topic payload))
  draw : Keeps I (onShared (draw manager.kernel))
  outside : ∀ change, Keeps I (onShared (changeHeap change))
  stored : ∀ call, Keeps I (stored call)
  alter : ∀ i change same, Keeps I (alter i change same)
  execute_tool : ∀ i tool_name args, Keeps I (execute_tool manager.kernel i tool_name args)
  assigned : ∀ before w parent_session request, I before → before ≤ w → I w →
    request.delegation_id = manager.kernel.host.hex before.shared.draws →
    (∀ parent, w.sessions[parent_session]? = some parent → (parent.identity.depth : Int) + 1 ≤ manager.policy.max_depth) →
    I ((assigned manager parent_session request).run w).2

namespace Stable
variable {manager : DelegationManager σ} {I : Realm σ → Prop} (stable : Stable manager I) {again : Delegate σ}
variable (deeper : ∀ session target spec policy, Keeps I (again session target spec policy))

theorem sessionAt (i : Nat) : Keeps I (sessionAt i) := by
  refine Keeps.bind (Keeps.read _) fun found => ?_
  cases found with
  | none => exact Keeps.raise _
  | some session => exact Keeps.pure _

include stable

theorem complete_task (i : Nat) (result : PyVal) (status : String) : Keeps I (complete_task manager.kernel i result status) := by
  refine Keeps.bind (sessionAt i) fun session => Keeps.ite ?_ (Keeps.raise _)
  exact Keeps.bind (stable.alter _ _ _) fun _ => Keeps.bind (stable.publish _ _) fun _ => Keeps.pure _

theorem settled (child : Nat) (result : DelegationResult) : Keeps I (settled manager child result) := by
  refine Keeps.bind (sessionAt _) fun session => Keeps.ite (Keeps.ite ?_ ?_) (Keeps.pure _)
  · exact Keeps.bind (stable.complete_task _ _ _) fun _ => Keeps.pure _
  · exact Keeps.bind (stable.complete_task _ _ _) fun _ => Keeps.pure _

theorem started (parent : KernelSession) (request : DelegationRequest) : Keeps I (started manager parent request) :=
  Keeps.bind (stable.stored _) fun _ => stable.publish _ _

include deeper

theorem perform (session : Nat) (act : SessionAct σ) : Keeps I (perform manager again session act) := by
  cases act with
  | execute_tool tool_name args => exact stable.execute_tool session tool_name args
  | delegate target spec policy => exact deeper session target spec policy
  | complete_task result status => exact stable.complete_task session result status
  | fail_task reason extra => exact stable.complete_task session _ _
  | change_state change =>
    exact Keeps.bind (stable.alter _ _ _) fun _ => Keeps.bind (sessionAt _) fun _ => Keeps.pure _
  | outside change => exact Keeps.bind (stable.outside change) fun _ => Keeps.read _

/-- Whatever a handler does keeps the invariant. -/
theorem conduct (request : DelegationRequest) (child_session : Nat) (child : KernelSession) (behaviour : Behaviour σ) :
    Keeps I (conduct manager again request child_session child behaviour) := by
  induction behaviour with
  | returns result => exact Keeps.pure _
  | raises exc => exact Keeps.raise _
  | acts act next ih => exact Keeps.bind (stable.perform deeper child_session act).caught fun answer => ih answer
  | reports progress next ih =>
    refine Keeps.bind (Keeps.caught ?_) fun answer => ih answer
    refine Keeps.ite (Keeps.raise _) (Keeps.ite (Keeps.raise _) ?_)
    exact Keeps.bind (stable.stored _) fun _ => stable.publish _ _

theorem worked (request : DelegationRequest) (handler : DelegationPort σ) (child : Nat) :
    Keeps I (worked manager again request handler child) := by
  refine Keeps.bind (sessionAt _) fun session => Keeps.bind (Keeps.caught ?_) fun outcome => ?_
  · exact Keeps.bind (stable.conduct deeper _ _ _ _) fun _ => Keeps.bind (Keeps.read _) fun _ => Keeps.lift _
  · cases outcome with
    | ok result => exact Keeps.pure _
    | error exc => exact Keeps.bind (Keeps.read _) fun _ => Keeps.lift _

omit deeper

variable [Setoid DelegationResult] [DecidableRel fun r s : DelegationResult => r ≈ s]

theorem _finish (parent : KernelSession) (target : String) (result : DelegationResult) :
    Keeps I (_finish manager parent target result) :=
  Keeps.bind (stable.stored _) fun _ => Keeps.bind (stable.publish _ _) fun _ => Keeps.pure _

include deeper

theorem carried {before w : Realm σ} (earlier : I before) (onward : before ≤ w) (holds : I w) {parent_session : Nat}
    {parent : KernelSession} (there : w.sessions[parent_session]? = some parent)
    (shallow : (parent.identity.depth : Int) + 1 ≤ manager.policy.max_depth) {request : DelegationRequest}
    (drawn : request.delegation_id = manager.kernel.host.hex before.shared.draws) :
    I ((carried manager again parent_session parent request).run w).2 := by
  refine Keeps.bind_at (stable.started parent request w holds) fun _ w' ran kept => ?_
  have moved := (Delegation.started manager parent request).onward w
  rw [ran] at moved
  obtain ⟨later,found,same⟩ := session_onward moved there
  have depth : later.identity.depth = parent.identity.depth := congrArg (fun who => who.1.depth) same
  have children := stable.assigned before w' parent_session request earlier (le_trans onward moved) kept drawn fun now here => by
    rw [found] at here
    cases here
    rw [depth]
    exact shallow
  refine Keeps.bind_at (Keeps.caught_at children) fun outcome w'' _ kept' => ?_
  cases outcome with
  | error exc => exact Keeps.bind (Keeps.lift _) (fun _ => stable._finish _ _ _) w'' kept'
  | ok pair =>
    refine Keeps.bind (stable.worked deeper _ _ _) (fun result => ?_) w'' kept'
    exact Keeps.bind (stable.settled _ _) fun _ => stable._finish _ _ _

theorem delegation (parent_session : Nat) (target : String) (spec : DelegationSpec) (policy : Option DelegationPolicy) :
    Keeps I (delegation manager again parent_session target spec policy) := by
  intro w holds
  refine Keeps.bind_at (sessionAt _ w holds) fun parent w' ran _ => ?_
  obtain ⟨there,rfl⟩ := sessionAt_returned ran
  by_cases active : parent.is_active = true
  · rw [if_neg (not_not.mpr active)]
    by_cases someone : target = ""
    · rw [if_pos someone]
      exact holds
    · by_cases something : spec.objective = ""
      · rw [if_neg someone,if_pos something]
        exact holds
      · rw [if_neg someone,if_neg something]
        refine Keeps.bind_at (stable.draw w' holds) fun delegation_id w'' drew kept => ?_
        have onward := (onShared (Kernel.draw manager.kernel)).onward w'
        rw [drew] at onward
        dsimp only
        rcases valid : manager.policy.validate parent (policy.getD {}) with exc | active_policy
        · exact Keeps.bind (stable.started _ _) (fun _ => Keeps.bind (Keeps.lift _) fun _ => stable._finish _ _ _) w'' kept
        · obtain ⟨-,depths,shallow,-⟩ := validate_ok_iff.mp valid
          cases drew
          exact stable.carried deeper holds onward kept there (shallow.trans depths.2) rfl
  · rw [if_pos active]
    exact holds

omit deeper

/-- Every delegation keeps what each step keeps. -/
theorem nested (deep : Nat) (parent_session : Nat) (target : String) (spec : DelegationSpec) (policy : Option DelegationPolicy) :
    Keeps I (Delegation.nested manager deep parent_session target spec policy) := by
  induction deep generalizing parent_session target spec policy with
  | zero => exact fun _ holds => holds
  | succ deep ih => exact stable.delegation ih parent_session target spec policy

end Stable

end
end HexAgent.Delegation
