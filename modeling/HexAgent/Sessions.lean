import HexAgent.DelegationStore
import HexAgent.Envelopes

/-!
Sessions over a shared kernel: who a session is, which capabilities it has, its own
state and whether its task is still open. A session calls tools through the kernel
under its own scope; roots and children are made by the factory only.
-/
namespace HexAgent.Sessions
open HexAgent.Values HexAgent.Commands HexAgent.Schemas HexAgent.Kernel HexAgent.DelegationStore
open HexAgent.Envelopes Programs

/-! ### The session -/

/-- What a session keeps under a key: its task, or any other value. -/
inductive StateItem where
  | task (task : TaskEnvelope)
  | value (v : PyVal)
  deriving DecidableEq

/-- The state that a session owns. -/
abbrev StateStore := List (String × StateItem)

def StateStore.get (state : StateStore) (key : String) : Option StateItem := Dicts.get key state
def StateStore.set (state : StateStore) (key : String) (item : StateItem) : StateStore := Dicts.put key item state

structure KernelSession where
  identity : SessionIdentity
  state : StateStore
  allowed_capabilities : Finset String
  _closed : Bool := false

namespace KernelSession
variable (session : KernelSession)

/-- The task is open: the session is not closed and its state holds a task. -/
def is_active : Bool :=
  match session._closed,session.state.get "current_task" with
  | false,some (.task _) => true
  | _,_ => false

def call_context : ToolCallContext :=
  { run_id := some session.identity.run_id
    task_id := some session.identity.task_id
    session_id := some session.identity.session_id
    parent_session_id := session.identity.parent_session_id
    delegation_id := session.identity.delegation_id
    actor_id := some session.identity.agent_id
    allowed_capabilities := some session.allowed_capabilities }

/-- The answer to a tool call after the task was closed. -/
def notActive (tool_name : String) : Fields :=
  [("ok",.bool false),("capability",.str tool_name),("feature",.null),("data",.dict []),
    ("error",.str "Session is not active."),
    ("metadata",.dict (Dicts.merge session.call_context.event_fields [("session_closed",.bool true)]))]

/-- How a task ended. -/
def outcome (result : PyVal) (status : String) : Fields :=
  [("task_id",.str session.identity.task_id),("status",.str status),("result",result)]

/-- The session with its task closed. -/
def closing (result : PyVal) (status : String) : KernelSession :=
  { session with
    state := (session.state.set "last_result" (.value (.dict (session.outcome result status)))).set "current_task" (.value .null)
    _closed := true }

/-- What of a session never changes. -/
def fixed : SessionIdentity × Finset String := (session.identity,session.allowed_capabilities)

@[simp] theorem closing_fixed (result : PyVal) (status : String) : (session.closing result status).fixed = session.fixed := rfl

variable {session}

theorem closed_inactive (closed : session._closed = true) : session.is_active = false := by
  unfold is_active
  rw [closed]

end KernelSession

/-! ### The world of sessions -/

/-- A request that reached an executor, the session it was for, and the sessions as they
    were at that moment. -/
structure Performed where
  session : Nat
  request : ToolRequest
  sessions : List KernelSession

/-- The shared services, the sessions in the order they were made, and the delegation store.
    What was performed is recorded for the proofs; no code reads it. -/
structure Realm (σ : Type) where
  shared : Shared σ
  sessions : List KernelSession := []
  store : InMemoryDelegationStore := .empty
  performed : List Performed := []

section
variable {σ : Type}

/-- Sessions are only added, and keep who they are. -/
instance : Preorder (Realm σ) where
  le w w' := w.shared ≤ w'.shared ∧ w.sessions.map KernelSession.fixed <+: w'.sessions.map KernelSession.fixed
  le_refl _ := ⟨le_refl _,List.prefix_rfl⟩
  le_trans _ _ _ first second := ⟨first.1.trans second.1,first.2.trans second.2⟩

/-- A session stays who it is. -/
theorem session_onward {w w' : Realm σ} (onward : w ≤ w') {i : Nat} {session : KernelSession}
    (there : w.sessions[i]? = some session) : ∃ later, w'.sessions[i]? = some later ∧ later.fixed = session.fixed := by
  obtain ⟨more,same⟩ := onward.2
  have found : (w'.sessions.map KernelSession.fixed)[i]? = some session.fixed := by
    rw [← same,List.getElem?_append_left (by simpa using (List.getElem?_eq_some_iff.mp there).1),List.getElem?_map,there]
    rfl
  rw [List.getElem?_map,Option.map_eq_some_iff] at found
  exact found

abbrev Act (σ α : Type) := Prog (Realm σ) PyError α

/-- Draw an identifier or publish an event. -/
def onShared {α : Type} (m : Prog (Shared σ) PyError α) : Act σ α where
  run w := ((m.run w.shared).1,{ w with shared := (m.run w.shared).2 })
  onward w := ⟨m.onward w.shared,List.prefix_rfl⟩

/-- Call a tool for a session, and record what reached an executor. -/
def onBehalf {α : Type} (i : Nat) (m : Prog (Shared σ) PyError α) : Act σ α where
  run w :=
    let ran := m.run w.shared
    let reached := ran.2.bench.invoked.drop w.shared.bench.invoked.length
    (ran.1,{ w with
      shared := ran.2
      performed := w.performed ++ reached.map fun request => ⟨i,request,w.sessions⟩ })
  onward w := ⟨m.onward w.shared,List.prefix_rfl⟩

/-- The session of a reference. -/
def sessionAt (i : Nat) : Act σ KernelSession := do
  match ← read fun w => w.sessions[i]? with
  | some session => pure session
  | none => raise (.Other "ReferenceError" "no such session")

theorem sessionAt_run {i : Nat} {session : KernelSession} {w : Realm σ} (there : w.sessions[i]? = some session) :
    (sessionAt i).run w = (.ok session,w) := by
  unfold sessionAt
  rw [bind_run_ok (read_run _ w),there]
  rfl

theorem sessionAt_absent {i : Nat} {w : Realm σ} (absent : w.sessions[i]? = none) :
    (sessionAt i).run w = (.error (.raised (.Other "ReferenceError" "no such session")),w) := by
  unfold sessionAt
  rw [bind_run_ok (read_run _ w),absent]
  rfl

theorem sessionAt_returned {i : Nat} {session : KernelSession} {w w' : Realm σ} (ran : (sessionAt i).run w = (.ok session,w')) :
    w.sessions[i]? = some session ∧ w' = w := by
  rcases there : w.sessions[i]? with _ | found
  · rw [sessionAt_absent there] at ran
    cases ran
  · rw [sessionAt_run there] at ran
    cases ran
    exact ⟨rfl,rfl⟩

theorem sessionAt_runs {R : Realm σ → Realm σ → Prop} [IsPreorder (Realm σ) R] {i : Nat} {w : Realm σ}
    {Q : KernelSession → Realm σ → Prop} (post : ∀ session, w.sessions[i]? = some session → Q session w) :
    Runs R (sessionAt i) w Q := by
  refine Runs.bind_read ?_
  rcases there : w.sessions[i]? with _ | session
  · exact Runs.raise
  · exact Runs.pure (post session there)

/-- Make a session; its reference is returned. -/
def enroll (session : KernelSession) : Act σ Nat := do
  let i ← read fun w => w.sessions.length
  update (fun w => { w with sessions := w.sessions ++ [session] }) fun w =>
    ⟨le_refl _,by rw [List.map_append]; exact List.prefix_append ..⟩
  pure i

theorem modify_fixed {change : KernelSession → KernelSession} (same : ∀ session, (change session).fixed = session.fixed)
    (sessions : List KernelSession) (i : Nat) :
    (sessions.modify i change).map KernelSession.fixed = sessions.map KernelSession.fixed := by
  apply List.ext_getElem?
  intro j
  simp only [List.getElem?_map,List.getElem?_modify]
  split
  · rcases sessions[j]? with _ | session
    · rfl
    · exact congrArg some (same session)
  · rcases sessions[j]? with _ | session <;> rfl

/-- Change the state of a session, or close it. -/
def alter (i : Nat) (change : KernelSession → KernelSession) (same : ∀ session, (change session).fixed = session.fixed) :
    Act σ Unit :=
  update (fun w => { w with sessions := w.sessions.modify i change }) fun w =>
    ⟨le_refl _,by rw [modify_fixed same]⟩

/-- A call of the delegation store. -/
def stored (call : InMemoryDelegationStore → Except PyError Unit × InMemoryDelegationStore) : Act σ Unit where
  run w := (match (call w.store).1 with
    | .ok () => .ok ()
    | .error error => .error (.raised error),{ w with store := (call w.store).2 })
  onward _ := ⟨le_refl _,List.prefix_rfl⟩

variable (kernel : AgentKernel σ)

/-- Call a tool for a session, unless its task is closed. -/
def execute_tool (i : Nat) (tool_name : String) (args : Fields) : Act σ Fields := do
  let session ← sessionAt i
  if session.is_active then onBehalf i (Kernel.execute_tool kernel tool_name args (some session.call_context))
  else pure (session.notActive tool_name)

/-- Close the task of a session. -/
def complete_task (i : Nat) (result : PyVal) (status : String) : Act σ Fields := do
  let session ← sessionAt i
  if session.is_active then do
    alter i (fun session => session.closing result status) fun _ => rfl
    onShared (publish kernel (if status = "completed" then "task.completed" else "task.failed")
      (Dicts.merge session.call_context.event_fields [("status",.str status)]))
    pure (session.outcome result status)
  else raise (.RuntimeError "Session task lifecycle is already closed.")

def fail_task (i : Nat) (reason : PyVal) (extra : Fields) : Act σ Fields :=
  complete_task kernel i (.dict (Dicts.merge [("reason",reason)] extra)) "failed"

/-! ### The factory -/

/-- The names of `list_tools`, as a set. -/
def available : Finset String := kernel.registry.names.toFinset

def _effective_root_scope (requested : Option (Finset String)) : Except PyError (Finset String) :=
  match requested with
  | none => .ok (available kernel)
  | some requested =>
    if requested ⊆ available kernel then .ok requested
    else .error (.ValueError ("Root session requested unknown capabilities: " ++
      (PyVal.list ((sortedNames (requested \ available kernel)).map .str)).repr))

/-- `text or` a drawn identifier. -/
def orDraw (text : Option String) : Act σ String :=
  match text with
  | some text => if text = "" then onShared (draw kernel) else pure text
  | none => onShared (draw kernel)

/-- Draw an identifier; its number is returned. -/
def drawn : Act σ Nat := do
  let n ← read fun w => w.shared.draws
  let _ ← onShared (draw kernel)
  pure n

/-- A session with an open task. -/
def accepted (identity : SessionIdentity) (task : TaskEnvelope) (scope : Finset String) : KernelSession :=
  ⟨identity,StateStore.set [] "current_task" (.task task),scope,false⟩

/-- Make a session with an open task and publish it. -/
def accept (identity : SessionIdentity) (task : TaskEnvelope) (scope : Finset String) : Act σ Nat := do
  let i ← enroll (accepted identity task scope)
  onShared (publish kernel "task.accepted" (accepted identity task scope).call_context.event_fields)
  pure i

def create_root (user_request : String) (context : Option Fields) (run_id : Option String) (agent_id : String)
    (allowed_capabilities : Option (Finset String)) (task_id : Option String) : Act σ Nat := do
  let task_id ← orDraw kernel task_id
  let task : TaskEnvelope := { user_request, task_id, context := context.getD [] }
  let n ← drawn kernel
  let identity : SessionIdentity :=
    { session_id := kernel.host.hex n, run_id := orText (run_id.getD "") task_id, task_id, agent_id
      session_id_nonempty := kernel.host.hex_nonempty n }
  let scope ← lift (_effective_root_scope kernel allowed_capabilities)
  accept kernel identity task scope

/-- The identity of a child: its run is that of the parent, and it is one level deeper. -/
def childIdentity (parent : SessionIdentity) (n : Nat) (task_id target delegation_id : String) : SessionIdentity where
  session_id := kernel.host.hex n
  run_id := parent.run_id
  task_id := task_id
  agent_id := target
  parent_session_id := some parent.session_id
  delegation_id := some delegation_id
  depth := parent.depth + 1
  session_id_nonempty := kernel.host.hex_nonempty n

/-- The task of a child. -/
def childTask (parent : SessionIdentity) (task_id delegation_id user_request : String) (context : Fields) : TaskEnvelope where
  user_request
  task_id
  context
  metadata := [("parent_session_id",.str parent.session_id),("delegation_id",.str delegation_id)]

/-- No requested scope means the scope of the parent; an empty one denies everything. -/
def create_child (parent : Nat) (delegation_id target user_request : String) (context : Fields)
    (requested_scope : Option (Finset String)) : Act σ Nat := do
  let parent ← sessionAt parent
  if ¬ parent.is_active then raise (.RuntimeError "Cannot create a child from an inactive parent session.")
  else
    let scope := requested_scope.getD parent.allowed_capabilities
    if ¬ scope ⊆ parent.allowed_capabilities then
      raise (.PermissionError "Child capability scope must be a subset of the parent scope.")
    else do
      let task_id ← onShared (draw kernel)
      let n ← drawn kernel
      accept kernel (childIdentity kernel parent.identity n task_id target delegation_id)
        (childTask parent.identity task_id delegation_id user_request context) scope

/-! ### Payloads that are all text -/

theorem objectsIn_put {key : String} {v : PyVal} {fields : Fields} (plain : PyVal.objects v = []) (rest : objectsIn fields = []) :
    objectsIn (Dicts.put key v fields) = [] := by
  induction fields with
  | nil => simp [Dicts.put,objectsIn,plain]
  | cons field fields ih =>
    obtain ⟨name,u⟩ := field
    rw [objectsIn,List.append_eq_nil_iff] at rest
    by_cases same : name = key
    · simp [Dicts.put,objectsIn,same,plain,rest.2]
    · simp [Dicts.put,objectsIn,same,rest.1,ih rest.2]

theorem objectsIn_merge {fields more : Fields} (plain : objectsIn fields = []) (also : objectsIn more = []) :
    objectsIn (Dicts.merge fields more) = [] := by
  induction more generalizing fields with
  | nil => exact plain
  | cons field more ih =>
    rw [objectsIn,List.append_eq_nil_iff] at also
    exact ih (objectsIn_put also.1 plain) also.2

theorem ofOption_objects (text : Option String) : PyVal.objects (ofOption text) = [] := by
  cases text <;> rfl

section
variable {kernel : AgentKernel σ}

theorem event_fields_objects (session : KernelSession) : objectsIn session.call_context.event_fields = [] :=
  lineage_objects (some session.call_context)

/-- What holds no object of another class is published. -/
theorem plain_published {topic : String} {payload : Fields} {w : Realm σ} (plain : objectsIn payload = []) :
    (onShared (publish kernel topic payload)).run w = (.ok (),{ w with shared := w.shared.published topic payload }) := by
  simp only [onShared]
  rw [publish_run kernel (by rw [deepcopy_ok,PyVal.objects,plain]; rfl)]

theorem drawn_run (w : Realm σ) :
    (drawn kernel).run w = (.ok w.shared.draws,{ w with shared := { w.shared with draws := w.shared.draws + 1 } }) := rfl

theorem accept_run (identity : SessionIdentity) (task : TaskEnvelope) (scope : Finset String) (w : Realm σ) :
    (accept kernel identity task scope).run w = (.ok w.sessions.length,{ w with
      sessions := w.sessions ++ [accepted identity task scope]
      shared := w.shared.published "task.accepted" (accepted identity task scope).call_context.event_fields }) := by
  unfold accept
  rw [bind_run_ok (show (enroll (accepted identity task scope)).run w =
    (.ok w.sessions.length,{ w with sessions := w.sessions ++ [accepted identity task scope] }) from rfl)]
  rw [bind_run_ok (plain_published (event_fields_objects (accepted identity task scope)))]
  rfl

/-- The child that `create_child` makes. -/
def childOf (kernel : AgentKernel σ) (w : Realm σ) (parent : KernelSession) (delegation_id target user_request : String)
    (context : Fields) (scope : Finset String) : KernelSession :=
  accepted (childIdentity kernel parent.identity (w.shared.draws + 1) (kernel.host.hex w.shared.draws) target delegation_id)
    (childTask parent.identity (kernel.host.hex w.shared.draws) delegation_id user_request context) scope

/-- The world after that session was made, with the identifiers that were drawn for it. -/
def Realm.enrolled (w : Realm σ) (session : KernelSession) (drawn : Nat) : Realm σ :=
  { w with
    sessions := w.sessions ++ [session]
    shared := Shared.published { w.shared with draws := w.shared.draws + drawn } "task.accepted" session.call_context.event_fields }

theorem enrolled_onward (w : Realm σ) (session : KernelSession) (drawn : Nat) : w ≤ w.enrolled session drawn :=
  ⟨⟨List.prefix_append ..,Nat.le_add_right ..⟩,by
    simp only [Realm.enrolled,List.map_append]
    exact List.prefix_append ..⟩

/-- A child is made of an active parent with a scope within that of the parent. -/
theorem create_child_run {w : Realm σ} {parent : Nat} {creator : KernelSession} (there : w.sessions[parent]? = some creator)
    (active : creator.is_active = true) {requested : Option (Finset String)}
    (within : requested.getD creator.allowed_capabilities ⊆ creator.allowed_capabilities)
    (delegation_id target user_request : String) (context : Fields) :
    (create_child kernel parent delegation_id target user_request context requested).run w =
      (.ok w.sessions.length,w.enrolled (childOf kernel w creator delegation_id target user_request context
        (requested.getD creator.allowed_capabilities)) 2) := by
  unfold create_child
  rw [bind_run_ok (sessionAt_run there),if_neg (not_not.mpr active)]
  dsimp only
  rw [if_neg (not_not.mpr within)]
  rw [bind_run_ok (show (onShared (draw kernel)).run w = (.ok (kernel.host.hex w.shared.draws),
    { w with shared := { w.shared with draws := w.shared.draws + 1 } }) from rfl),bind_run_ok (drawn_run _),accept_run]
  rfl

/-- Without such a parent and scope an exception is raised and nothing changes. -/
theorem create_child_cases (parent : Nat) (delegation_id target user_request : String) (context : Fields)
    (requested : Option (Finset String)) (w : Realm σ) :
    (∃ exc, (create_child kernel parent delegation_id target user_request context requested).run w = (.error (.raised exc),w)) ∨
      ∃ creator, w.sessions[parent]? = some creator ∧ creator.is_active = true ∧
        requested.getD creator.allowed_capabilities ⊆ creator.allowed_capabilities := by
  rcases there : w.sessions[parent]? with _ | creator
  · exact .inl ⟨_,bind_run_error (sessionAt_absent there)⟩
  · by_cases active : creator.is_active = true
    · by_cases within : requested.getD creator.allowed_capabilities ⊆ creator.allowed_capabilities
      · exact .inr ⟨creator,rfl,active,within⟩
      · refine .inl ⟨.PermissionError "Child capability scope must be a subset of the parent scope.",?_⟩
        unfold create_child
        rw [bind_run_ok (sessionAt_run there),if_neg (not_not.mpr active)]
        dsimp only
        rw [if_pos within]
        rfl
    · refine .inl ⟨.RuntimeError "Cannot create a child from an inactive parent session.",?_⟩
      unfold create_child
      rw [bind_run_ok (sessionAt_run there),if_pos active]
      rfl

/-- Closing an open task publishes it and returns how it ended. -/
theorem complete_task_run {w : Realm σ} {i : Nat} {session : KernelSession} (there : w.sessions[i]? = some session)
    (active : session.is_active = true) (result : PyVal) (status : String) :
    (complete_task kernel i result status).run w = (.ok (session.outcome result status),{ w with
      sessions := w.sessions.modify i fun session => session.closing result status
      shared := w.shared.published (if status = "completed" then "task.completed" else "task.failed")
        (Dicts.merge session.call_context.event_fields [("status",.str status)]) }) := by
  unfold complete_task
  rw [bind_run_ok (sessionAt_run there),if_pos active]
  rw [bind_run_ok (show (alter i (fun session => session.closing result status) fun _ => rfl).run w = (.ok (),{ w with
    sessions := w.sessions.modify i fun session => session.closing result status }) from rfl)]
  rw [bind_run_ok (plain_published (objectsIn_merge (event_fields_objects session) rfl))]
  rfl

end

end
end HexAgent.Sessions
