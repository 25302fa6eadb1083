import HexAgent.Delegation
import HexAgent.Effects
import Mathlib.Logic.Relation

/-!
The tree of sessions. Whatever handlers and other callers do, in any order and to any
depth, a child has no capability that its parent lacks, belongs to the run of its
parent and is one level deeper; and an executor works only for an active session, on
a name that this session and all its ancestors may use.
-/
namespace HexAgent.Lineage
open HexAgent.Values HexAgent.Commands HexAgent.Schemas HexAgent.Kernel HexAgent.Middleware HexAgent.DelegationStore
open HexAgent.Sessions HexAgent.Delegation HexAgent.Effects Programs

section
variable {σ : Type}

/-! ### What reaches an executor -/

/-- The computation invokes executors only for the request, any number of times. -/
def Only (request : ToolRequest) {α : Type} (m : Tooling σ α) : Prop :=
  ∀ bench, ∃ n, (m.run bench).2.invoked = bench.invoked ++ List.replicate n request

variable {α β : Type} {request : ToolRequest} {host : Host} {next : Handler σ}

theorem only_quiet {m : Tooling σ α} (quiet : Quiet m) : Only request m := fun bench => ⟨0,by rw [quiet bench]; simp⟩

theorem only_bind {m : Tooling σ α} {k : α → Tooling σ β} (first : Only request m) (rest : ∀ a, Only request (k a)) :
    Only request (m >>= k) := by
  intro bench
  obtain ⟨n,here⟩ := first bench
  rcases ran : m.run bench with ⟨error | a,bench'⟩
  · rw [tooling_bind_error ran]
    rw [ran] at here
    exact ⟨n,here⟩
  · rw [tooling_bind_ok ran]
    rw [ran] at here
    obtain ⟨n',there⟩ := rest a bench'
    exact ⟨n + n',by rw [there,here,List.append_assoc,List.replicate_add]⟩

theorem only_ite {c : Prop} [Decidable c] {m n : Tooling σ α} (yes : Only request m) (no : Only request n) :
    Only request (if c then m else n) := by
  split
  · exact yes
  · exact no

theorem retryLoop_only (inner : Only request (next request)) (left : Nat) (env : PyVal) :
    Only request (retryLoop host request next left env) := by
  induction left generalizing env with
  | zero => exact only_quiet (quiet_bind (quiet_lift _) fun _ => quiet_pure env)
  | succ left ih =>
    refine only_bind (only_quiet (quiet_lift _)) fun goes => only_ite ?_ (only_quiet (quiet_pure env))
    exact only_bind inner ih

/-- Built-in middleware lets only the request through. -/
theorem builtIn_only (middleware : BuiltIn σ) (inner : Only request (next request)) :
    Only request (middleware.middleware host request next) := by
  cases middleware with
  | timing sink =>
    exact only_bind inner fun env => only_quiet (quiet_bind (quiet_tellSink sink env) fun _ => quiet_pure env)
  | policy deny on_block =>
    exact only_ite (only_quiet (quiet_bind (quiet_notify on_block request) fun _ => quiet_pure _)) inner
  | budget guarded on_block =>
    refine only_bind (only_quiet (quiet_lift _)) fun key => only_bind (only_quiet fun _ => rfl) fun _ =>
      only_bind (only_quiet quiet_get) fun bench => ?_
    exact only_ite (only_quiet (quiet_bind (quiet_notify on_block request) fun _ => quiet_pure _)) inner
  | retry attempts => exact only_bind inner fun env => retryLoop_only inner _ env
  | condense max_chars max_list on_condense =>
    refine only_bind inner fun env => only_quiet ?_
    exact quiet_ite (quiet_pure env) (shrink_quiet max_chars max_list on_condense env)

theorem core_only (kernel : AgentKernel σ) (lineage : Fields) : Only request (core kernel lineage request) := by
  refine only_bind (fun bench => ⟨1,rfl⟩) fun outcome => ?_
  exact only_bind (only_quiet (quiet_lift _)) fun _ => only_quiet (quiet_pure _)

theorem wrapped_only (pipeline : List (BuiltIn σ)) {handler : Handler σ} (inner : Only request (handler request)) :
    Only request (wrapped (pipeline.map (BuiltIn.middleware host)) handler request) := by
  induction pipeline with
  | nil => exact inner
  | cons middleware rest ih => exact builtIn_only middleware ih

/-- Only requests with `P` reach an executor. -/
def Invokes (P : ToolRequest → Prop) (w w' : Shared σ) : Prop :=
  ∃ added, w'.bench.invoked = w.bench.invoked ++ added ∧ ∀ request ∈ added, P request

instance (P : ToolRequest → Prop) : IsPreorder (Shared σ) (Invokes P) where
  refl w := ⟨[],by simp,nofun⟩
  trans w w' w'' first second := by
    obtain ⟨added,same,held⟩ := first
    obtain ⟨added',same',held'⟩ := second
    refine ⟨added ++ added',by rw [same',same,List.append_assoc],fun request member => ?_⟩
    rcases List.mem_append.mp member with here | there
    · exact held request here
    · exact held' request there

variable {P : ToolRequest → Prop} {kernel : AgentKernel σ}

theorem publish_invokes {w : Shared σ} (topic : String) (payload : Fields) :
    Runs (Invokes P) (publish kernel topic payload) w fun _ _ => True :=
  Runs.bind_lift fun _ _ => Runs.update ⟨[],(List.append_nil _).symm,nofun⟩ trivial

theorem conclude_invokes {w : Shared σ} (lineage : Fields) (request : ToolRequest) (envelope : Fields) :
    Runs (Invokes P) (conclude kernel lineage request envelope) w fun _ _ => True :=
  Runs.bind_lift fun _ _ => Runs.bind (publish_invokes _ _) fun _ _ _ _ => Runs.pure trivial

/-- A call lets only requests for its own name through, for its own caller, and only where
    the scope grants the name. -/
theorem execute_tool_invokes {registry : CapabilityRegistry σ} {pipeline : List (BuiltIn σ)} {w : Shared σ}
    (tool_name : String) (args : Fields) (context : Option ToolCallContext) :
    Runs (Invokes fun request => request.name = tool_name ∧ request.context = context ∧ ¬ OutOfScope context tool_name)
      (Kernel.execute_tool (builtInKernel host registry pipeline) tool_name args context) w fun _ _ => True := by
  refine Runs.bind_lift fun _ _ => Runs.bind (M := fun _ _ => True) ?_ fun request_id w' _ _ => ?_
  · exact ⟨⟨[],(List.append_nil _).symm,nofun⟩,nofun,fun _ _ => trivial⟩
  refine Runs.bind (publish_invokes _ _) fun _ w'' _ _ => ?_
  refine Runs.ite (fun _ => conclude_invokes _ _ _) fun granted => ?_
  refine Runs.bind (M := fun _ _ => True) ?_ fun outcome _ _ _ =>
    Runs.bind_lift fun envelope _ => Runs.bind_lift fun envelope' _ => conclude_invokes _ _ _
  have only : Only ⟨tool_name,args,context,request_id⟩ (handlerOf (builtInKernel host registry pipeline) (lineageOf context)
    ⟨tool_name,args,context,request_id⟩) := wrapped_only pipeline (core_only _ _)
  obtain ⟨n,reached⟩ := only w''.bench
  exact ⟨⟨_,reached,fun request member => by rw [List.eq_of_mem_replicate member]; exact ⟨rfl,rfl,granted⟩⟩,nofun,fun _ _ => trivial⟩

/-! ### The tree of sessions -/

/-- What a child has of its parent. -/
structure Inherits (engine : DelegationPolicyEngine) (parent child : KernelSession) : Prop where
  scope : child.allowed_capabilities ⊆ parent.allowed_capabilities
  run : child.identity.run_id = parent.identity.run_id
  depth : child.identity.depth = parent.identity.depth + 1
  shallow : (child.identity.depth : Int) ≤ engine.max_depth

/-- The session was made for a child of the other one. -/
def ChildOf (sessions : List KernelSession) (child parent : KernelSession) : Prop :=
  parent ∈ sessions ∧ child.identity.parent_session_id = some parent.identity.session_id

/-- The sessions are distinct, registered tools are all that they may use, and every child
    inherits from its parent, which is there. -/
structure Family (registry : CapabilityRegistry σ) (engine : DelegationPolicyEngine) (sessions : List KernelSession) : Prop where
  registered : ∀ session ∈ sessions, session.allowed_capabilities ⊆ registry.names.toFinset
  distinct : (sessions.map fun session => session.identity.session_id).Nodup
  inherits : ∀ child ∈ sessions, ∀ id, child.identity.parent_session_id = some id →
    ∃ parent ∈ sessions, parent.identity.session_id = id ∧ Inherits engine parent child

section
variable {registry : CapabilityRegistry σ} {engine : DelegationPolicyEngine} {sessions later : List KernelSession}

theorem family_child (family : Family registry engine sessions) {child parent : KernelSession} (member : child ∈ sessions)
    (childOf : ChildOf sessions child parent) : Inherits engine parent child := by
  obtain ⟨there,id⟩ := childOf
  obtain ⟨same,found,named,inherits⟩ := family.inherits child member _ id
  have only : same = parent := List.inj_on_of_nodup_map family.distinct found there named
  rw [← only]
  exact inherits

/-- A session has no capability that an ancestor lacks. -/
theorem ancestor_scope (family : Family registry engine sessions) {session ancestor : KernelSession} (member : session ∈ sessions)
    (chain : Relation.ReflTransGen (ChildOf sessions) session ancestor) :
    ancestor ∈ sessions ∧ session.allowed_capabilities ⊆ ancestor.allowed_capabilities := by
  induction chain with
  | refl => exact ⟨member,subset_rfl⟩
  | tail _ childOf ih => exact ⟨childOf.1,ih.2.trans (family_child family ih.1 childOf).scope⟩

theorem fixed_member (same : later.map KernelSession.fixed = sessions.map KernelSession.fixed) {session : KernelSession}
    (member : session ∈ later) : ∃ before ∈ sessions, before.fixed = session.fixed := by
  have found : session.fixed ∈ sessions.map KernelSession.fixed := by rw [← same]; exact List.mem_map_of_mem member
  exact List.mem_map.mp found

/-- The tree depends only on who the sessions are. -/
theorem family_fixed (family : Family registry engine sessions)
    (same : later.map KernelSession.fixed = sessions.map KernelSession.fixed) : Family registry engine later := by
  have identity : ∀ {a b : KernelSession}, a.fixed = b.fixed → a.identity = b.identity := fun same => congrArg Prod.fst same
  have scope : ∀ {a b : KernelSession}, a.fixed = b.fixed → a.allowed_capabilities = b.allowed_capabilities :=
    fun same => congrArg Prod.snd same
  constructor
  · intro session member
    obtain ⟨before,found,fixed⟩ := fixed_member same member
    rw [← scope fixed]
    exact family.registered before found
  · have ids : later.map (fun session => session.identity.session_id) =
        sessions.map fun session => session.identity.session_id := by
      have mapped := congrArg (List.map fun who : SessionIdentity × Finset String => who.1.session_id) same
      simpa only [List.map_map,Function.comp_def,KernelSession.fixed] using mapped
    rw [ids]
    exact family.distinct
  · intro child member id parentId
    obtain ⟨before,found,fixed⟩ := fixed_member same member
    obtain ⟨parent,there,named,inherits⟩ := family.inherits before found id (by rw [identity fixed]; exact parentId)
    obtain ⟨after,now,fixed'⟩ := fixed_member same.symm there
    refine ⟨after,now,by rw [identity fixed']; exact named,?_,?_,?_,?_⟩
    · rw [← scope fixed,scope fixed']
      exact inherits.scope
    · rw [← identity fixed,identity fixed']
      exact inherits.run
    · rw [← identity fixed,identity fixed']
      exact inherits.depth
    · rw [← identity fixed]
      exact inherits.shallow

/-- The tree with one more session, a root or a child of one that is there. -/
theorem family_append (family : Family registry engine sessions) {session : KernelSession}
    (registered : session.allowed_capabilities ⊆ registry.names.toFinset)
    (new : ∀ other ∈ sessions, other.identity.session_id ≠ session.identity.session_id)
    (inherits : ∀ id, session.identity.parent_session_id = some id →
      ∃ parent ∈ sessions, parent.identity.session_id = id ∧ Inherits engine parent session) :
    Family registry engine (sessions ++ [session]) := by
  constructor
  · intro other member
    rcases List.mem_append.mp member with before | last
    · exact family.registered other before
    · rw [List.mem_singleton.mp last]
      exact registered
  · rw [List.map_append]
    refine family.distinct.append (List.nodup_singleton _) ?_
    simpa using fun other member same => new other member same
  · intro child member id parentId
    have found : ∃ parent ∈ sessions, parent.identity.session_id = id ∧ Inherits engine parent child := by
      rcases List.mem_append.mp member with before | last
      · exact family.inherits child before id parentId
      · rw [List.mem_singleton.mp last] at parentId ⊢
        exact inherits id parentId
    obtain ⟨parent,there,named,inherited⟩ := found
    exact ⟨parent,List.mem_append_left _ there,named,inherited⟩

end

/-! ### What holds at every moment -/

/-- The request reached an executor for a session that was active, on a name that this
    session and all its ancestors may use. -/
structure Rightful (e : Performed) : Prop where
  session : ∃ session, e.sessions[e.session]? = some session ∧ session.is_active = true ∧
    e.request.context = some session.call_context ∧
    ∀ ancestor, Relation.ReflTransGen (ChildOf e.sessions) session ancestor → e.request.name ∈ ancestor.allowed_capabilities

/-- The sessions are a tree, their identifiers were drawn, and every request that reached an
    executor is recorded and was rightful. -/
structure Confined (manager : DelegationManager σ) (w : Realm σ) : Prop where
  family : Family manager.kernel.registry manager.policy w.sessions
  drawn : ∀ session ∈ w.sessions, ∃ n < w.shared.draws, session.identity.session_id = manager.kernel.host.hex n
  recorded : w.performed.map Performed.request = w.shared.bench.invoked
  rightful : ∀ e ∈ w.performed, Rightful e

section
variable {manager : DelegationManager σ} {w : Realm σ}

/-- Drawing identifiers and publishing events keeps the sessions confined. -/
theorem shared_confined (confined : Confined manager w) {shared : Shared σ} (draws : w.shared.draws ≤ shared.draws)
    (same : shared.bench.invoked = w.shared.bench.invoked) : Confined manager { w with shared } := by
  refine ⟨confined.family,fun session member => ?_,by rw [same]; exact confined.recorded,confined.rightful⟩
  obtain ⟨n,early,id⟩ := confined.drawn session member
  exact ⟨n,early.trans_le draws,id⟩

theorem onShared_keeps {α : Type} {m : Prog (Shared σ) PyError α} (same : ∀ w, (m.run w).2.bench.invoked = w.bench.invoked) :
    Keeps (Confined manager) (onShared m) := fun w confined => shared_confined confined (m.onward w.shared).2 (same w.shared)

theorem publish_keeps (topic : String) (payload : Fields) : Keeps (Confined manager) (onShared (publish manager.kernel topic payload)) := by
  refine onShared_keeps fun w => ?_
  unfold publish
  rcases manager.kernel.host.deepcopy (.dict payload) with error | copied <;> rfl

theorem stored_keeps (call : InMemoryDelegationStore → Except PyError Unit × InMemoryDelegationStore) :
    Keeps (Confined manager) (stored call) := fun _ confined => ⟨confined.family,confined.drawn,confined.recorded,confined.rightful⟩

theorem alter_keeps (i : Nat) (change : KernelSession → KernelSession) (same : ∀ session, (change session).fixed = session.fixed) :
    Keeps (Confined manager) (alter i change same) := by
  intro w confined
  have kept := modify_fixed same w.sessions i
  refine ⟨family_fixed confined.family kept,fun session member => ?_,confined.recorded,confined.rightful⟩
  obtain ⟨before,found,fixed⟩ := fixed_member kept member
  have identity : before.identity = session.identity := congrArg Prod.fst fixed
  rw [← identity]
  exact confined.drawn before found

/-- A tool call for an active session reaches executors only for what the session, and so
    all its ancestors, may use. -/
theorem execute_tool_keeps {host : Host} {registry : CapabilityRegistry σ} {pipeline : List (BuiltIn σ)}
    (builtIn : manager.kernel = builtInKernel host registry pipeline) (i : Nat) (tool_name : String) (args : Fields) :
    Keeps (Confined manager) (Sessions.execute_tool manager.kernel i tool_name args) := by
  intro w confined
  refine Keeps.bind_at (Stable.sessionAt i w confined) fun session w' ran kept => ?_
  obtain ⟨there,rfl⟩ := sessionAt_returned ran
  by_cases active : session.is_active = true
  · rw [if_pos active,builtIn]
    obtain ⟨added,same,held⟩ := (execute_tool_invokes tool_name args (some session.call_context)).moves
    have onward := (Kernel.execute_tool (builtInKernel host registry pipeline) tool_name args (some session.call_context)).onward w'.shared
    refine ⟨confined.family,fun session member => ?_,?_,fun e member => ?_⟩
    · obtain ⟨n,early,id⟩ := confined.drawn session member
      exact ⟨n,early.trans_le onward.2,id⟩
    · simp only [onBehalf]
      rw [same,List.map_append,confined.recorded,List.drop_left,List.map_map]
      simp [Function.comp_def]
    · simp only [onBehalf] at member
      rw [same,List.drop_left] at member
      rcases List.mem_append.mp member with before | now
      · exact confined.rightful e before
      · obtain ⟨request,reached,rfl⟩ := List.mem_map.mp now
        obtain ⟨name,caller,granted⟩ := held request reached
        have mine : tool_name ∈ session.allowed_capabilities := by
          by_contra absent
          exact granted ⟨_,rfl,absent⟩
        refine ⟨session,there,active,caller,fun ancestor chain => ?_⟩
        rw [name]
        exact (ancestor_scope confined.family (List.mem_of_getElem? there) chain).2 mine
  · rw [if_neg active]
    exact confined

/-- A session with a new identifier, a root or a child, keeps the sessions confined. -/
theorem enrolled_confined (confined : Confined manager w) {session : KernelSession} {drawn n : Nat}
    (registered : session.allowed_capabilities ⊆ manager.kernel.registry.names.toFinset)
    (id : session.identity.session_id = manager.kernel.host.hex (w.shared.draws + n)) (here : n < drawn)
    (inherits : ∀ id, session.identity.parent_session_id = some id →
      ∃ parent ∈ w.sessions, parent.identity.session_id = id ∧ Inherits manager.policy parent session) :
    Confined manager (w.enrolled session drawn) := by
  refine ⟨family_append confined.family registered (fun other member same => ?_) inherits,fun other member => ?_,
    confined.recorded,confined.rightful⟩
  · obtain ⟨k,early,drew⟩ := confined.drawn other member
    have := manager.kernel.host.hex_injective _ _ (drew.symm.trans (same.trans id))
    omega
  · rcases List.mem_append.mp member with before | last
    · obtain ⟨k,early,drew⟩ := confined.drawn other before
      exact ⟨k,early.trans_le (Nat.le_add_right ..),drew⟩
    · rw [List.mem_singleton.mp last]
      exact ⟨_,Nat.add_lt_add_left here _,id⟩

/-- A child that the engine allows keeps the sessions confined. -/
theorem assigned_confined (confined : Confined manager w) {parent_session : Nat} {request : DelegationRequest}
    (shallow : ∀ parent, w.sessions[parent_session]? = some parent → (parent.identity.depth : Int) + 1 ≤ manager.policy.max_depth) :
    Confined manager ((assigned manager parent_session request).run w).2 := by
  rcases @assigned_cases _ manager w request parent_session with ⟨exc,raised⟩ | ⟨handler,parent,there,active,within,made⟩
  · rw [raised]
    exact confined
  · rw [made]
    have member := List.mem_of_getElem? there
    refine enrolled_confined confined (within.trans (confined.family.registered parent member)) (n := 1) rfl (by omega) ?_
    rintro id ⟨⟩
    exact ⟨parent,member,rfl,within,rfl,rfl,shallow parent there⟩

/-- Every step keeps the sessions confined. -/
theorem confined_stable {host : Host} {registry : CapabilityRegistry σ} {pipeline : List (BuiltIn σ)}
    (builtIn : manager.kernel = builtInKernel host registry pipeline) : Stable manager (Confined manager) where
  publish := publish_keeps
  draw := onShared_keeps fun _ => rfl
  outside _ := onShared_keeps fun _ => rfl
  stored := stored_keeps
  alter := alter_keeps
  execute_tool := execute_tool_keeps builtIn
  assigned _ _ _ _ _ _ confined _ shallow := assigned_confined confined shallow

end

/-- A root session may use registered tools only. -/
theorem root_scope {kernel : AgentKernel σ} {requested : Option (Finset String)} {scope : Finset String}
    (granted : _effective_root_scope kernel requested = .ok scope) : scope ⊆ kernel.registry.names.toFinset := by
  unfold _effective_root_scope at granted
  split at granted
  · cases granted
    exact subset_rfl
  · split at granted
    · next within => cases granted; exact within
    · cases granted

/-! ### Any calls, in any order -/

/-- A call from outside: make a root session, or do something with a session or outside. -/
inductive Call (σ : Type) where
  | create_root (user_request : String) (context : Option Fields) (run_id : Option String) (agent_id : String)
      (allowed_capabilities : Option (Finset String)) (task_id : Option String)
  | acts (session : Nat) (act : SessionAct σ)

theorem create_root_keeps {manager : DelegationManager σ} (user_request : String) (context : Option Fields) (run_id : Option String) (agent_id : String)
    (allowed_capabilities : Option (Finset String)) (task_id : Option String) :
    Keeps (Confined manager) (create_root manager.kernel user_request context run_id agent_id allowed_capabilities task_id) := by
  have task : Keeps (Confined manager) (orDraw manager.kernel task_id) := by
    cases task_id with
    | none => exact onShared_keeps fun _ => rfl
    | some text => exact Keeps.ite (onShared_keeps fun _ => rfl) (Keeps.pure _)
  refine Keeps.bind task fun task_id w confined => ?_
  rw [bind_run_ok (drawn_run w)]
  dsimp only
  rcases granted : _effective_root_scope manager.kernel allowed_capabilities with error | scope
  · exact shared_confined confined (Nat.le_succ _) rfl
  · rw [lift_ok,bind_run_ok (pure_run scope _),accept_run]
    exact @enrolled_confined _ manager w confined _ 1 0 (root_scope granted) rfl Nat.one_pos nofun

section
variable [Setoid DelegationResult] [DecidableRel fun r s : DelegationResult => r ≈ s]

/-- The world after a call, a raising one included. -/
def Call.run (manager : DelegationManager σ) (w : Realm σ) : Call σ → Realm σ
  | .create_root user_request context run_id agent_id allowed_capabilities task_id =>
    ((Sessions.create_root manager.kernel user_request context run_id agent_id allowed_capabilities task_id).run w).2
  | .acts session act => ((perform manager (delegate manager) session act).run w).2

/-- The world after a sequence of calls, from an empty one. -/
def reached (manager : DelegationManager σ) (heap : Heap σ) (calls : List (Call σ)) : Realm σ :=
  calls.foldl (Call.run manager) { shared := { bench := { heap } } }

variable {manager : DelegationManager σ}

theorem call_confined {host : Host} {registry : CapabilityRegistry σ} {pipeline : List (BuiltIn σ)}
    (builtIn : manager.kernel = builtInKernel host registry pipeline) (call : Call σ) {w : Realm σ} (confined : Confined manager w) :
    Confined manager (call.run manager w) := by
  cases call with
  | create_root user_request context run_id agent_id allowed_capabilities task_id =>
    exact create_root_keeps _ _ _ _ _ _ w confined
  | acts session act =>
    have stable := confined_stable builtIn
    exact stable.perform (stable.nested _) session act w confined

/-- After any calls the sessions are a tree whose scopes only narrow, and executors have
    worked only for active sessions, within their scope and that of all ancestors. -/
theorem sessions_confined (host : Host) (registry : CapabilityRegistry σ) (pipeline : List (BuiltIn σ))
    (handlers : DelegationRegistry σ) (engine : DelegationPolicyEngine) (heap : Heap σ) (calls : List (Call σ)) :
    Confined ⟨builtInKernel host registry pipeline,handlers,engine⟩
      (reached ⟨builtInKernel host registry pipeline,handlers,engine⟩ heap calls) := by
  have steps : ∀ (calls : List (Call σ)) w, Confined ⟨builtInKernel host registry pipeline,handlers,engine⟩ w →
      Confined ⟨builtInKernel host registry pipeline,handlers,engine⟩
        (calls.foldl (Call.run ⟨builtInKernel host registry pipeline,handlers,engine⟩) w) := by
    intro calls
    induction calls with
    | nil => exact fun w confined => confined
    | cons call rest ih => exact fun w confined => ih _ (call_confined rfl call confined)
  exact steps calls _ ⟨⟨nofun,List.nodup_nil,nofun⟩,nofun,rfl,nofun⟩

end

end
end HexAgent.Lineage
