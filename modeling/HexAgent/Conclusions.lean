import HexAgent.Delegation

/-!
Every delegation is concluded. Whatever the policy, the registry and the handler do,
delegating from an active session returns a result that is stored under a new
identifier, with one event before and one after, the artifacts of the progress kept,
no session left open and no earlier session touched.
-/
namespace HexAgent.Conclusions
open HexAgent.Values HexAgent.Commands HexAgent.Schemas HexAgent.Kernel HexAgent.DelegationStore
open HexAgent.Sessions HexAgent.Delegation HexAgent.Envelopes Programs

section
variable {σ : Type}

/-! ### What is published -/

/-- The event says that a delegation started or finished. -/
def Announces (e : Published) : Prop := e.topic = "delegation.started" ∨ e.topic = "delegation.finished"

/-- Identifiers are drawn, and events that announce nothing published. -/
structure Murmurs (w w' : Shared σ) : Prop where
  draws : w.draws ≤ w'.draws
  events : ∃ added, w'.events = w.events ++ added ∧ ∀ e ∈ added, ¬ Announces e

instance : IsPreorder (Shared σ) Murmurs where
  refl w := ⟨Nat.le_refl _,[],by simp,nofun⟩
  trans w w' w'' first second := by
    obtain ⟨draws,added,same,silent⟩ := first
    obtain ⟨draws',added',same',silent'⟩ := second
    refine ⟨draws.trans draws',added ++ added',by rw [same',same,List.append_assoc],fun e member => ?_⟩
    rcases List.mem_append.mp member with here | there
    · exact silent e here
    · exact silent' e there

variable {kernel : AgentKernel σ}

theorem murmurs_published {w : Shared σ} {topic : String} {payload : Fields} (silent : ¬ Announces ⟨topic,payload⟩) :
    Murmurs w (w.published topic payload) :=
  ⟨Nat.le_refl _,[⟨topic,payload⟩],rfl,fun e member => by rw [List.mem_singleton.mp member]; exact silent⟩

theorem publish_murmurs {w : Shared σ} {topic : String} {payload : Fields} (silent : ¬ Announces ⟨topic,payload⟩) :
    Runs Murmurs (publish kernel topic payload) w fun _ _ => True :=
  Runs.bind_lift fun _ _ => Runs.update (murmurs_published silent) trivial

theorem draw_murmurs {w : Shared σ} : Runs Murmurs (draw kernel) w fun _ _ => True := by
  have ran := draw_run kernel w
  exact ⟨⟨by rw [ran]; exact Nat.le_succ _,[],by rw [ran,List.append_nil],nofun⟩,by rw [ran]; exact nofun,fun _ _ => trivial⟩

theorem conclude_murmurs {w : Shared σ} (lineage : Fields) (request : ToolRequest) (envelope : Fields) :
    Runs Murmurs (conclude kernel lineage request envelope) w fun _ _ => True := by
  refine Runs.bind_lift fun ok _ => Runs.bind (publish_murmurs ?_) fun _ _ _ _ => Runs.pure trivial
  cases ok <;> simp [Announces]

theorem attempt_murmurs {α : Type} {w : Shared σ} (m : Tooling σ α) : Runs Murmurs (attempt m) w fun _ _ => True :=
  ⟨⟨Nat.le_refl _,[],by simp [attempt],nofun⟩,nofun,fun _ _ => trivial⟩

/-- A tool call announces nothing. -/
theorem execute_tool_murmurs {w : Shared σ} (tool_name : String) (args : Fields) (context : Option ToolCallContext) :
    Runs Murmurs (Kernel.execute_tool kernel tool_name args context) w fun _ _ => True := by
  refine Runs.bind_lift fun _ _ => Runs.bind draw_murmurs fun request_id w' _ _ => ?_
  refine Runs.bind (publish_murmurs (by simp [Announces])) fun _ w'' _ _ => ?_
  refine Runs.ite (fun _ => conclude_murmurs _ _ _) fun _ => ?_
  refine Runs.bind (attempt_murmurs _) fun outcome w₃ _ _ => ?_
  exact Runs.bind_lift fun envelope _ => Runs.bind_lift fun envelope' _ => conclude_murmurs _ _ _

/-! ### What a delegation leaves alone -/

/-- An identifier that is not drawn yet. -/
def Undrawn (kernel : AgentKernel σ) (w : Realm σ) (id : String) : Prop := ∃ n, w.shared.draws ≤ n ∧ id = kernel.host.hex n

theorem undrawn_before {w w' : Realm σ} {id : String} (onward : w ≤ w') (undrawn : Undrawn kernel w' id) : Undrawn kernel w id := by
  obtain ⟨n,later,same⟩ := undrawn
  exact ⟨n,onward.1.2.trans later,same⟩

theorem sessions_onward {w w' : Realm σ} (onward : w ≤ w') : w.sessions.length ≤ w'.sessions.length := by
  simpa using onward.2.length_le

/-- Every session but the child is kept. Delegations that were there keep their results
    and, but for `own`, their records, and only new ones are announced. -/
structure Spares (kernel : AgentKernel σ) (child : Option Nat) (own : Option String) (w w' : Realm σ) : Prop where
  onward : w ≤ w'
  others : ∀ i, i < w.sessions.length → child ≠ some i → w'.sessions[i]? = w.sessions[i]?
  started : ∀ id, w.store.Started id → w'.store.Started id
  progress : ∀ id, own ≠ some id → ¬ Undrawn kernel w id → w'.store.progress id = w.store.progress id
  result : ∀ id, ¬ Undrawn kernel w id → w'.store.result id = w.store.result id
  events : ∃ added, w'.shared.events = w.shared.events ++ added ∧
    ∀ e ∈ added, Announces e → ∃ id, e.payload.get "delegation_id" = .str id ∧ Undrawn kernel w id

variable {child : Option Nat} {own : Option String}

instance : IsPreorder (Realm σ) (Spares kernel child own) where
  refl w := {
    onward := le_refl w
    others := fun _ _ _ => rfl
    started := fun _ started => started
    progress := fun _ _ _ => rfl
    result := fun _ _ => rfl
    events := ⟨[],by simp,nofun⟩ }
  trans w w' w'' first second := {
    onward := le_trans first.onward second.onward
    others := fun i there other =>
      (second.others i (there.trans_le (sessions_onward first.onward)) other).trans (first.others i there other)
    started := fun id started => second.started id (first.started id started)
    progress := fun id other drawn =>
      (second.progress id other fun later => drawn (undrawn_before first.onward later)).trans (first.progress id other drawn)
    result := fun id drawn =>
      (second.result id fun later => drawn (undrawn_before first.onward later)).trans (first.result id drawn)
    events := by
      obtain ⟨added,same,announced⟩ := first.events
      obtain ⟨added',same',announced'⟩ := second.events
      refine ⟨added ++ added',by rw [same',same,List.append_assoc],fun e member announcing => ?_⟩
      rcases List.mem_append.mp member with here | there
      · exact announced e here announcing
      · obtain ⟨id,given,later⟩ := announced' e there announcing
        exact ⟨id,given,undrawn_before first.onward later⟩ }

theorem spares_any {w w' : Realm σ} (spares : Spares kernel none none w w') : Spares kernel child own w w' := {
  onward := spares.onward
  others := fun i there _ => spares.others i there nofun
  started := spares.started
  progress := fun id _ drawn => spares.progress id nofun drawn
  result := spares.result
  events := spares.events }

/-- What is drawn or published without an announcement leaves everything alone. -/
theorem murmurs_spares {w : Realm σ} {shared : Shared σ} {performed : List Performed} (murmurs : Murmurs w.shared shared) :
    Spares kernel child own w { w with shared, performed } := {
  onward := by
    obtain ⟨added,same,-⟩ := murmurs.events
    exact ⟨⟨by rw [same]; exact List.prefix_append ..,murmurs.draws⟩,List.prefix_rfl⟩
  others := fun _ _ _ => rfl
  started := fun _ started => started
  progress := fun _ _ _ => rfl
  result := fun _ _ => rfl
  events := by
    obtain ⟨added,same,silent⟩ := murmurs.events
    exact ⟨added,same,fun e member announcing => absurd announcing (silent e member)⟩ }

theorem onShared_spares {α : Type} {m : Prog (Shared σ) PyError α} {w : Realm σ} {Q : α → Shared σ → Prop}
    (runs : Runs Murmurs m w.shared Q) : Runs (Spares kernel child own) (onShared m) w fun a w' => Q a w'.shared :=
  ⟨murmurs_spares runs.moves,runs.halts,runs.post⟩

theorem onBehalf_spares {α : Type} {m : Prog (Shared σ) PyError α} {w : Realm σ} {i : Nat} {Q : α → Shared σ → Prop}
    (runs : Runs Murmurs m w.shared Q) : Runs (Spares kernel child own) (onBehalf i m) w fun a w' => Q a w'.shared :=
  ⟨murmurs_spares runs.moves,runs.halts,runs.post⟩

/-! ### What is left open -/

/-- Of the sessions that are new, all but the child are closed. -/
def Shut (child : Option Nat) (w w' : Realm σ) : Prop :=
  ∀ i session, w.sessions.length ≤ i → child ≠ some i → w'.sessions[i]? = some session → session.is_active = false

theorem shut_same {w w' : Realm σ} (same : w'.sessions.length = w.sessions.length) : Shut child w w' := by
  intro i session beyond _ found
  rw [List.getElem?_eq_none (same ▸ beyond)] at found
  cases found

/-- What a first step leaves open stays open, as the next one leaves it alone. -/
theorem shut_trans_iff {w w' w'' : Realm σ} (first : Spares kernel child own w w') (second : Spares kernel child own w' w'') :
    Shut child w w'' ↔ Shut child w w' ∧ Shut child w' w'' := by
  constructor
  · refine fun shut => ⟨fun i session beyond other found => ?_,fun i session beyond other found => ?_⟩
    · obtain ⟨early,-⟩ := List.getElem?_eq_some_iff.mp found
      exact shut i session beyond other ((second.others i early other).trans found)
    · exact shut i session ((sessions_onward first.onward).trans beyond) other found
  · rintro ⟨shut,shut'⟩ i session beyond other found
    by_cases early : i < w'.sessions.length
    · exact shut i session beyond other ((second.others i early other).symm.trans found)
    · exact shut' i session (by omega) other found

/-- A child that was there is not among the new sessions. -/
theorem shut_known {w w' : Realm σ} {i : Nat} (known : i < w.sessions.length) : Shut (some i) w w' ↔ Shut none w w' :=
  ⟨fun shut j session beyond _ found => shut j session beyond (by simp; omega) found,
    fun shut j session beyond _ found => shut j session beyond nofun found⟩

/-- A new child is closed in the end, or left open. -/
theorem shut_child {w w' : Realm σ} {i : Nat} (new : w.sessions.length ≤ i) :
    Shut none w w' ↔ Shut (some i) w w' ∧ ∀ session, w'.sessions[i]? = some session → session.is_active = false := by
  constructor
  · exact fun shut => ⟨fun j session beyond _ found => shut j session beyond nofun found,
      fun session found => shut i session new nofun found⟩
  · rintro ⟨shut,closed⟩ j session beyond - found
    by_cases here : j = i
    · exact closed session (here ▸ found)
    · exact shut j session beyond (by simpa using Ne.symm here) found

/-! ### What a handler leaves alone -/

/-- Everything but its child session, and the records of its delegation within the steps of
    the policy, is left alone. -/
structure Within (kernel : AgentKernel σ) (child : Nat) (id : String) (most : Int) (w w' : Realm σ) : Prop
    extends Spares kernel (some child) (some id) w w' where
  paced : ∀ item ∈ w'.store.progress id, item ∈ w.store.progress id ∨ item.sequence ≤ most

section
variable {child : Nat} {id : String} {most : Int}

instance : IsPreorder (Realm σ) (Within kernel child id most) where
  refl w := ⟨refl w,fun _ member => .inl member⟩
  trans w w' w'' first second := by
    refine ⟨Trans.trans first.toSpares second.toSpares,fun item member => ?_⟩
    rcases second.paced item member with before | few
    · exact first.paced item before
    · exact .inr few

/-- What leaves everything alone does so for a delegation that is under way. -/
theorem spares_within {w w' : Realm σ} (drawn : ¬ Undrawn kernel w id) (spares : Spares kernel none none w w') :
    Within kernel child id most w w' :=
  ⟨spares_any spares,fun item member => .inl (by rw [spares.progress id nofun drawn] at member; exact member)⟩

/-- Changing the child leaves everything else alone. -/
theorem alter_within {w : Realm σ} (change : KernelSession → KernelSession) (same : ∀ session, (change session).fixed = session.fixed) :
    Runs (Within kernel child id most) (alter child change same) w fun _ _ => True := by
  have onward := (alter child change same).onward w
  refine ⟨⟨⟨onward,fun i there other => ?_,fun _ started => started,fun _ _ _ => rfl,fun _ _ => rfl,
    ⟨[],(List.append_nil _).symm,nofun⟩⟩,fun _ member => .inl member⟩,nofun,fun _ _ => trivial⟩
  have apart : child ≠ i := fun here => other (by rw [here])
  show (w.sessions.modify child change)[i]? = _
  simp [apart]

theorem onShared_within {α : Type} {m : Prog (Shared σ) PyError α} {w : Realm σ} {Q : α → Shared σ → Prop}
    (runs : Runs Murmurs m w.shared Q) : Runs (Within kernel child id most) (onShared m) w fun _ _ => True := by
  have spares := @onShared_spares _ kernel (some child) (some id) _ m w Q runs
  exact ⟨⟨spares.moves,fun _ member => .inl member⟩,spares.halts,fun _ _ => trivial⟩

theorem onBehalf_within {α : Type} {m : Prog (Shared σ) PyError α} {w : Realm σ} {i : Nat} {Q : α → Shared σ → Prop}
    (runs : Runs Murmurs m w.shared Q) : Runs (Within kernel child id most) (onBehalf i m) w fun _ _ => True := by
  have spares := @onBehalf_spares _ kernel (some child) (some id) _ m w i Q runs
  exact ⟨⟨spares.moves,fun _ member => .inl member⟩,spares.halts,fun _ _ => trivial⟩

theorem execute_tool_within {w : Realm σ} (tool_name : String) (args : Fields) :
    Runs (Within kernel child id most) (Sessions.execute_tool kernel child tool_name args) w fun _ _ => True := by
  refine Runs.bind (sessionAt_runs (Q := fun _ _ => True) fun _ _ => trivial) fun session w' _ _ => ?_
  refine Runs.ite (fun _ => ?_) fun _ => Runs.pure trivial
  exact onBehalf_within (execute_tool_murmurs tool_name args _)

theorem complete_task_within {w : Realm σ} (result : PyVal) (status : String) :
    Runs (Within kernel child id most) (complete_task kernel child result status) w fun _ _ => True := by
  refine Runs.bind (sessionAt_runs (Q := fun _ _ => True) fun _ _ => trivial) fun session w' _ _ => ?_
  refine Runs.ite (fun _ => ?_) fun _ => Runs.raise
  refine Runs.bind (alter_within _ _) fun _ w'' _ _ => ?_
  refine Runs.bind (onShared_within (publish_murmurs ?_)) fun _ _ _ _ => Runs.pure trivial
  by_cases completed : status = "completed"
  · simp [completed,Announces]
  · simp [completed,Announces]

variable {manager : DelegationManager σ} {again : Delegate σ} {who : SessionIdentity × Finset String}

/-- The child session has this identity and scope, and the delegation is under way. -/
def Underway (kernel : AgentKernel σ) (child : Nat) (id : String) (who : SessionIdentity × Finset String) (w : Realm σ) : Prop :=
  (∃ session, w.sessions[child]? = some session ∧ session.fixed = who) ∧ ¬ Undrawn kernel w id

theorem underway_onward {w w' : Realm σ} (onward : w ≤ w') (underway : Underway kernel child id who w) :
    Underway kernel child id who w' := by
  obtain ⟨⟨session,there,same⟩,drawn⟩ := underway
  obtain ⟨later,found,kept⟩ := session_onward onward there
  exact ⟨⟨later,found,kept.trans same⟩,fun undrawn => drawn (undrawn_before onward undrawn)⟩

/-- Delegations from the child leave everything else alone. -/
def Nests (kernel : AgentKernel σ) (again : Delegate σ) (child : Nat) (who : SessionIdentity × Finset String) : Prop :=
  ∀ target spec policy w, (∃ session, w.sessions[child]? = some session ∧ session.fixed = who) →
    Runs (Spares kernel none none) (again child target spec policy) w fun _ _ => True

/-- Whatever a handler does with its child leaves everything else alone. -/
theorem perform_within (nests : Nests manager.kernel again child who) (act : SessionAct σ) {w : Realm σ}
    (underway : Underway manager.kernel child id who w) :
    Runs (Within manager.kernel child id most) (perform manager again child act) w fun _ _ => True := by
  cases act with
  | execute_tool tool_name args => exact execute_tool_within tool_name args
  | delegate target spec policy =>
    have runs := nests target spec policy w underway.1
    exact runs.coarsen fun w' spares => spares_within underway.2 spares
  | complete_task result status => exact complete_task_within result status
  | fail_task reason extra => exact complete_task_within _ _
  | change_state change =>
    refine Runs.bind (alter_within _ _) fun _ w' _ _ => ?_
    exact Runs.bind (sessionAt_runs (Q := fun _ _ => True) fun _ _ => trivial) fun _ _ _ _ => Runs.pure trivial
  | outside change =>
    have changed : Runs Murmurs (changeHeap change) w.shared fun _ _ => True :=
      Runs.update ⟨Nat.le_refl _,[],(List.append_nil _).symm,nofun⟩ trivial
    exact Runs.bind (onShared_within changed) fun _ _ _ _ => Runs.read trivial

/-- A record that the store takes is within the steps of the policy. -/
theorem append_within {w : Realm σ} {progress : DelegationProgress} (own : progress.delegation_id = id)
    (few : progress.sequence ≤ most) :
    Runs (Within kernel child id most) (stored fun store => store.append_progress progress) w fun _ _ => True := by
  refine ⟨?_,by simp only [stored]; split <;> simp,fun _ _ => trivial⟩
  show Within kernel child id most w { w with store := (w.store.append_progress progress).2 }
  rcases @append_cases w.store progress with unchanged | ⟨items,there,next,new,recorded⟩
  · rw [unchanged]
    exact refl w
  · rw [recorded]
    refine ⟨⟨le_refl w,fun _ _ _ => rfl,fun _ started => started,fun other apart _ => ?_,fun _ _ => rfl,
      ⟨[],(List.append_nil _).symm,by simp⟩⟩,fun item member => ?_⟩
    · rw [InMemoryDelegationStore.progress_recording,if_neg fun same => apart (by rw [same,own])]
    · rw [InMemoryDelegationStore.progress_recording,if_pos own.symm,List.mem_append,List.mem_singleton] at member
      rcases member with before | rfl
      · rw [InMemoryDelegationStore.progress,← own,there]
        exact .inl before
      · exact .inr few

theorem progress_sink_within {w : Realm σ} (request : DelegationRequest) (session : KernelSession) (progress : DelegationProgress) :
    Runs (Within manager.kernel child request.delegation_id request.policy.max_steps)
      (progress_sink manager request session progress) w fun _ _ => True := by
  refine Runs.ite (fun _ => Runs.raise) fun own => Runs.ite (fun _ => Runs.raise) fun few => ?_
  refine Runs.bind (append_within (not_not.mp own) (not_lt.mp few)) fun _ w' _ _ => ?_
  refine onShared_within (Runs.mono (publish_murmurs ?_) fun _ _ _ _ => trivial)
  simp [Announces]

/-- Any run of a handler leaves everything else alone, and always ends. -/
theorem conduct_within (request : DelegationRequest) (session : KernelSession) (nests : Nests manager.kernel again child who)
    (behaviour : Behaviour σ) {w : Realm σ} (underway : Underway manager.kernel child request.delegation_id who w) :
    Runs (Within manager.kernel child request.delegation_id request.policy.max_steps)
      (conduct manager again request child session behaviour) w fun _ _ => True := by
  induction behaviour generalizing w with
  | returns result => exact Runs.pure trivial
  | raises exc => exact Runs.raise
  | acts act next ih =>
    refine Runs.bind (perform_within nests act underway).caught fun answer w' moved _ => ?_
    exact ih answer (underway_onward moved.onward underway)
  | reports progress next ih =>
    refine Runs.bind (progress_sink_within request session progress).caught fun answer w' moved _ => ?_
    exact ih answer (underway_onward moved.onward underway)

/-! ### What a handler leaves open -/

/-- A delegation that a handler asks for, and the world in which it does. -/
structure Inner (σ : Type) where
  world : Realm σ
  target : String
  spec : DelegationSpec
  policy : Option DelegationPolicy

def innerOf (w : Realm σ) : SessionAct σ → List (Inner σ)
  | .delegate target spec policy => [⟨w,target,spec,policy⟩]
  | .execute_tool .. | .complete_task .. | .fail_task .. | .change_state _ | .outside _ => []

/-- The delegations that a handler asks for in its run. -/
def inner (manager : DelegationManager σ) (again : Delegate σ) (request : DelegationRequest) (i : Nat) (child : KernelSession) :
    Behaviour σ → Realm σ → List (Inner σ)
  | .returns _,_ => []
  | .raises _,_ => []
  | .acts act next,w => innerOf w act ++
    match (caught (perform manager again i act)).run w with
    | (.ok answer,w') => inner manager again request i child (next answer) w'
    | (.error _,_) => []
  | .reports progress next,w =>
    match (caught (progress_sink manager request child progress)).run w with
    | (.ok answer,w') => inner manager again request i child (next answer) w'
    | (.error _,_) => []

section
variable {n : Nat}

theorem alter_length (i : Nat) (change : KernelSession → KernelSession)
    (same : ∀ session, (change session).fixed = session.fixed) :
    Keeps (fun v : Realm σ => v.sessions.length = n) (alter i change same) :=
  fun _ there => (List.length_modify ..).trans there

theorem complete_task_length (i : Nat) (result : PyVal) (status : String) :
    Keeps (fun v : Realm σ => v.sessions.length = n) (complete_task kernel i result status) := by
  refine Keeps.bind (Stable.sessionAt _) fun session => Keeps.ite ?_ (Keeps.raise _)
  exact Keeps.bind (alter_length _ _ _) fun _ => Keeps.bind (fun _ there => there) fun _ => Keeps.pure _

/-- Only delegations make sessions. -/
theorem perform_length {act : SessionAct σ} {w : Realm σ} (alone : innerOf w act = []) (i : Nat) :
    Keeps (fun v : Realm σ => v.sessions.length = n) (perform manager again i act) := by
  cases act with
  | execute_tool tool_name args =>
    exact Keeps.bind (Stable.sessionAt _) fun _ => Keeps.ite (fun _ there => there) (Keeps.pure _)
  | delegate target spec policy => cases alone
  | complete_task result status => exact complete_task_length _ _ _
  | fail_task reason extra => exact complete_task_length _ _ _
  | change_state change =>
    exact Keeps.bind (alter_length _ _ _) fun _ => Keeps.bind (Stable.sessionAt _) fun _ => Keeps.pure _
  | outside change => exact Keeps.bind (fun _ there => there) fun _ => Keeps.read _

theorem progress_sink_length (request : DelegationRequest) (session : KernelSession) (progress : DelegationProgress) :
    Keeps (fun v : Realm σ => v.sessions.length = n) (progress_sink manager request session progress) :=
  Keeps.ite (Keeps.raise _) (Keeps.ite (Keeps.raise _) (Keeps.bind (fun _ there => there) fun _ _ there => there))

end

/-- One act of a handler leaves open what the delegation that it asks for does. -/
theorem perform_shut_iff (act : SessionAct σ) {w : Realm σ} (known : child < w.sessions.length) :
    Shut (some child) w ((caught (perform manager again child act)).run w).2 ↔
      ∀ call ∈ innerOf w act, Shut none call.world ((again child call.target call.spec call.policy).run call.world).2 := by
  have alone : innerOf w act = [] → (Shut (some child) w ((caught (perform manager again child act)).run w).2 ↔
      ∀ call ∈ innerOf w act, Shut none call.world ((again child call.target call.spec call.policy).run call.world).2) := by
    intro none
    rw [none]
    exact ⟨fun _ => nofun,fun _ => shut_same ((perform_length none child).caught w rfl)⟩
  cases act with
  | delegate target spec policy =>
    have same := Keeps.caught_at (I := (· = ((again child target spec policy).run w).2)) rfl
    rw [show (caught (perform manager again child (.delegate target spec policy))).run w =
      (caught (again child target spec policy)).run w from rfl,same,shut_known known]
    exact (List.forall_mem_singleton (p := fun call : Inner σ =>
      Shut none call.world ((again child call.target call.spec call.policy).run call.world).2) (a := ⟨w,target,spec,policy⟩)).symm
  | _ => exact alone rfl

/-- The run of a handler leaves open what the delegations that it asks for do. -/
theorem conduct_shut_iff (request : DelegationRequest) (session : KernelSession) (nests : Nests manager.kernel again child who)
    (behaviour : Behaviour σ) {w : Realm σ} (underway : Underway manager.kernel child request.delegation_id who w) :
    Shut (some child) w ((conduct manager again request child session behaviour).run w).2 ↔
      ∀ call ∈ inner manager again request child session behaviour w,
        Shut none call.world ((again child call.target call.spec call.policy).run call.world).2 := by
  induction behaviour generalizing w with
  | returns result => exact ⟨fun _ => nofun,fun _ => shut_same rfl⟩
  | raises exc => exact ⟨fun _ => nofun,fun _ => shut_same rfl⟩
  | acts act next ih =>
    have known : child < w.sessions.length := by
      obtain ⟨_,there,-⟩ := underway.1
      exact (List.getElem?_eq_some_iff.mp there).1
    have first := @perform_shut_iff _ child manager again act w known
    have acted : Runs (Within manager.kernel child request.delegation_id request.policy.max_steps)
        (perform manager again child act) w fun _ _ => True := perform_within nests act underway
    obtain ⟨answer,w',ran,moved,-⟩ := acted.caught_returns
    have underway' := underway_onward moved.onward underway
    have rest := conduct_within request session nests (next answer) underway'
    rw [ran] at first
    unfold conduct
    rw [bind_run_ok ran,shut_trans_iff moved.toSpares rest.moves.toSpares,first,ih answer underway',← List.forall_mem_append]
    simp only [inner,ran]
  | reports progress next ih =>
    have sunk : Runs (Within manager.kernel child request.delegation_id request.policy.max_steps)
        (progress_sink manager request session progress) w fun _ _ => True := progress_sink_within request session progress
    obtain ⟨answer,w',ran,moved,-⟩ := sunk.caught_returns
    have underway' := underway_onward moved.onward underway
    have rest := conduct_within request session nests (next answer) underway'
    have first : Shut (some child) w w' := by
      have length := (@progress_sink_length _ manager _ request session progress).caught w rfl
      rw [ran] at length
      exact shut_same length
    unfold conduct
    rw [bind_run_ok ran,shut_trans_iff moved.toSpares rest.moves.toSpares,and_iff_right first,ih answer underway']
    simp only [inner,ran]

/-- The child is there whenever its handler asks for a delegation. -/
theorem inner_underway (request : DelegationRequest) (session : KernelSession) (nests : Nests manager.kernel again child who)
    (behaviour : Behaviour σ) {w : Realm σ} (underway : Underway manager.kernel child request.delegation_id who w)
    {call : Inner σ} (member : call ∈ inner manager again request child session behaviour w) :
    Underway manager.kernel child request.delegation_id who call.world := by
  induction behaviour generalizing w with
  | returns result => cases member
  | raises exc => cases member
  | acts act next ih =>
    have acted : Runs (Within manager.kernel child request.delegation_id request.policy.max_steps)
        (perform manager again child act) w fun _ _ => True := perform_within nests act underway
    obtain ⟨answer,w',ran,moved,-⟩ := acted.caught_returns
    simp only [inner,ran] at member
    rcases List.mem_append.mp member with here | later
    · cases act with
      | delegate target spec policy => rw [List.mem_singleton.mp here]; exact underway
      | _ => cases here
    · exact ih answer (underway_onward moved.onward underway) later
  | reports progress next ih =>
    have sunk : Runs (Within manager.kernel child request.delegation_id request.policy.max_steps)
        (progress_sink manager request session progress) w fun _ _ => True := progress_sink_within request session progress
    obtain ⟨answer,w',ran,moved,-⟩ := sunk.caught_returns
    simp only [inner,ran] at member
    exact ih answer (underway_onward moved.onward underway) member

end

/-! ### The steps of the manager -/

section
variable {manager : DelegationManager σ} {again : Delegate σ} {w : Realm σ} {parent : KernelSession} {request : DelegationRequest}

theorem stored_ok {call : InMemoryDelegationStore → Except PyError Unit × InMemoryDelegationStore} {store : InMemoryDelegationStore}
    (called : call w.store = (.ok (),store)) : (stored call).run w = (.ok (),{ w with store }) := by
  simp only [stored,called]

theorem stored_error {call : InMemoryDelegationStore → Except PyError Unit × InMemoryDelegationStore} {exc : PyError}
    (called : call w.store = (.error exc,w.store)) : (stored call).run w = (.error (.raised exc),w) := by
  simp only [stored,called]

theorem delegation_fields_objects (id target : String) : objectsIn (_event_fields parent id target) = [] :=
  objectsIn_merge (event_fields_objects parent) rfl

theorem delegation_fields_id (id target : String) : Fields.get (_event_fields parent id target) "delegation_id" = .str id := by
  simp [_event_fields,ToolCallContext.event_fields,KernelSession.call_context,Dicts.merge,Dicts.put,Fields.get,Fields.getD,Dicts.get]

theorem finished_fields_id (target : String) (result : DelegationResult) :
    Fields.get (finishedFields parent target result) "delegation_id" = .str result.delegation_id := by
  simp [finishedFields,_event_fields,ToolCallContext.event_fields,KernelSession.call_context,Dicts.merge,Dicts.put,Fields.get,
    Fields.getD,Dicts.get]

/-- A delegation that is there is refused. -/
theorem started_refused (there : request.delegation_id ∈ w.store.requests.keys) :
    ∃ exc, (started manager parent request).run w = (.error (.raised exc),w) := by
  have called : w.store.start request =
      (.error (.ValueError ("Delegation already exists: " ++ request.delegation_id)),w.store) := by
    rw [InMemoryDelegationStore.start,dif_neg (not_not.mpr there)]
  exact ⟨_,bind_run_error (stored_error called)⟩

/-- The result of a delegation: its own, with the artifacts of the progress first. -/
structure Reported (request : DelegationRequest) (w : Realm σ) (r : DelegationResult) : Prop where
  id : r.delegation_id = request.delegation_id
  task : r.parent_task_id = request.parent_task_id
  artifacts : (w.store.progress request.delegation_id).map DelegationProgress.artifact <+: r.artifacts

theorem merged_reported {progress : List DelegationProgress} {result r : DelegationResult}
    (stored : w.store.progress request.delegation_id = progress) (done : merged request progress result = .ok r) :
    Reported request w r := by
  unfold merged at done
  split at done
  · cases done
  · next own =>
    split at done
    · cases done
    · next task =>
      cases done
      refine ⟨not_not.mp own,not_not.mp task,?_⟩
      rw [stored]
      exact List.prefix_append ..

theorem unsuccessful_told {host : Host} {exc : PyError} (told : HasText host.describe exc) (outcome : Outcome)
    {progress : List DelegationProgress} (stored : w.store.progress request.delegation_id = progress) : ∃ r,
    unsuccessful host request outcome (progress.map DelegationProgress.artifact) exc = .ok r ∧ Reported request w r := by
  obtain ⟨text,described⟩ := told
  refine ⟨_,by rw [unsuccessful,described]; rfl,rfl,rfl,?_⟩
  rw [stored]

theorem unsuccessful_untold {host : Host} {exc : PyError} (untold : ¬ HasText host.describe exc) (outcome : Outcome)
    (artifacts : List ArtifactEnvelope) : ∃ exc', unsuccessful host request outcome artifacts exc = .error exc' := by
  rcases described : host.describe exc with exc' | text
  · exact ⟨exc',by rw [unsuccessful,described]; rfl⟩
  · exact absurd ⟨text,described⟩ untold

variable {child : Nat} {who : SessionIdentity × Finset String} {session : KernelSession}

/-- The work of a handler leaves everything else alone, and its result is checked. -/
theorem attempted_runs (handler : DelegationPort σ) (nests : Nests manager.kernel again child who)
    (underway : Underway manager.kernel child request.delegation_id who w) :
    Runs (Within manager.kernel child request.delegation_id request.policy.max_steps)
      (attempted manager again request handler child session) w fun r w' => Reported request w' r := by
  refine Runs.bind (conduct_within request session nests (handler.run request session) underway) fun result w' _ _ => ?_
  exact Runs.bind_read (Runs.lift fun r done => merged_reported rfl done)

/-- The check of the result changes nothing. -/
theorem attempted_world (handler : DelegationPort σ) :
    ((attempted manager again request handler child session).run w).2 =
      ((conduct manager again request child session (handler.run request session)).run w).2 := by
  refine Keeps.bind_at (I := (· = ((conduct manager again request child session (handler.run request session)).run w).2)) rfl
    fun result v _ kept => ?_
  exact Keeps.bind (I := (· = ((conduct manager again request child session (handler.run request session)).run w).2))
    (Keeps.read _) (fun _ => Keeps.lift _) v kept

/-- The work of a handler ends in a result, if the exception that is caught from it has a text. -/
theorem worked_told (handler : DelegationPort σ) (there : w.sessions[child]? = some session)
    (nests : Nests manager.kernel again child who) (underway : Underway manager.kernel child request.delegation_id who w)
    (told : ∀ exc, ((attempted manager again request handler child session).run w).1 = .error (.raised exc) →
      HasText manager.kernel.host.describe exc) : ∃ r,
    (worked manager again request handler child).run w =
        (.ok r,((attempted manager again request handler child session).run w).2) ∧
      Reported request ((attempted manager again request handler child session).run w).2 r := by
  obtain ⟨-,halts,post⟩ := @attempted_runs _ manager again w request child who session handler nests underway
  unfold worked
  rw [bind_run_ok (sessionAt_run there)]
  rcases ran : (attempted manager again request handler child session).run w with ⟨(exc | _) | r,w'⟩
  · rw [ran] at told
    obtain ⟨r,described,reported⟩ := @unsuccessful_told _ w' request manager.kernel.host exc (told exc rfl) .failed _ rfl
    refine ⟨r,?_,reported⟩
    rw [bind_run_ok (caught_run_raised ran)]
    dsimp only
    rw [bind_run_ok (read_run _ w'),described]
    rfl
  · rw [ran] at halts
    exact absurd rfl halts
  · rw [ran] at post
    exact ⟨r,by rw [bind_run_ok (caught_run_ok ran)]; rfl,post r rfl⟩

/-- An exception without a text is raised on. -/
theorem worked_untold (handler : DelegationPort σ) (there : w.sessions[child]? = some session) {exc : PyError}
    (fails : ((attempted manager again request handler child session).run w).1 = .error (.raised exc))
    (untold : ¬ HasText manager.kernel.host.describe exc) : ∃ exc', (worked manager again request handler child).run w =
      (.error (.raised exc'),((attempted manager again request handler child session).run w).2) := by
  rcases ran : (attempted manager again request handler child session).run w with ⟨outcome,w'⟩
  rw [ran] at fails
  cases fails
  obtain ⟨exc',described⟩ := @unsuccessful_untold request manager.kernel.host exc untold .failed
    ((w'.store.progress request.delegation_id).map DelegationProgress.artifact)
  refine ⟨exc',?_⟩
  unfold worked
  rw [bind_run_ok (sessionAt_run there),bind_run_ok (caught_run_raised ran)]
  dsimp only
  rw [bind_run_ok (read_run _ w'),described]
  rfl

/-- The child is closed in the end, and everything else left alone. -/
theorem settled_run {session : KernelSession} (there : w.sessions[child]? = some session) (result : DelegationResult) :
    ∃ w', (settled manager child result).run w = (.ok (),w') ∧ Spares manager.kernel (some child) none w w' ∧
      w'.store = w.store ∧ ∀ later, w'.sessions[child]? = some later → later.is_active = false := by
  have closed : session.is_active = true → ∀ value status, ∃ w',
      (complete_task manager.kernel child value status).run w = (.ok (session.outcome value status),w') ∧
        Spares manager.kernel (some child) none w w' ∧ w'.store = w.store ∧
        ∀ later, w'.sessions[child]? = some later → later.is_active = false := by
    intro active value status
    have ran := @complete_task_run _ manager.kernel w child session there active value status
    have within := @complete_task_within _ manager.kernel child "" 0 w value status
    refine ⟨_,ran,?_,rfl,fun later found => ?_⟩
    · have spares := within.moves.toSpares
      rw [ran] at spares
      exact { spares with progress := fun _ _ _ => rfl }
    · simp only [List.getElem?_modify,if_pos,there] at found
      cases found
      exact KernelSession.closed_inactive rfl
  unfold settled
  rw [bind_run_ok (sessionAt_run there)]
  by_cases active : session.is_active = true
  · rw [if_pos active]
    split
    · obtain ⟨w',ran,rest⟩ := closed active (.dict result.as_dict) "completed"
      exact ⟨w',by rw [bind_run_ok ran]; rfl,rest⟩
    · obtain ⟨w',ran,rest⟩ := closed active (.dict [("reason",.str (orText (result.error.getD "") result.outcome.value))]) "failed"
      refine ⟨w',?_,rest⟩
      rw [bind_run_ok (show (fail_task manager.kernel child _ []).run w = _ from ran)]
      rfl
  · rw [if_neg active]
    refine ⟨w,rfl,refl w,rfl,fun later found => ?_⟩
    rw [there] at found
    cases found
    exact Bool.not_eq_true _ ▸ active

/-- Making a child, and what is left alone but for it, leaves everything else alone. -/
theorem enrolled_spares {drawn : Nat} {id : String} {w' : Realm σ}
    (spares : Spares manager.kernel (some w.sessions.length) (some id) (w.enrolled session drawn) w') :
    Spares manager.kernel none (some id) w w' := by
  have enrolled := enrolled_onward w session drawn
  refine ⟨le_trans enrolled spares.onward,fun i there _ => ?_,spares.started,
    fun other apart drawn => spares.progress other apart fun later => drawn (undrawn_before enrolled later),
    fun other drawn => spares.result other fun later => drawn (undrawn_before enrolled later),?_⟩
  · rw [spares.others i (by simp [Realm.enrolled]; omega) (by simp; omega)]
    simp only [Realm.enrolled]
    rw [List.getElem?_append_left there]
  · obtain ⟨added,same,announced⟩ := spares.events
    refine ⟨⟨"task.accepted",session.call_context.event_fields⟩ :: added,?_,fun e member announcing => ?_⟩
    · rw [same]
      simp [Realm.enrolled,Shared.published]
    · rcases List.mem_cons.mp member with rfl | later
      · simp [Announces] at announcing
      · obtain ⟨id,given,undrawn⟩ := announced e later announcing
        exact ⟨id,given,undrawn_before enrolled undrawn⟩

/-- A delegation whose identifier was drawn leaves the others alone. -/
theorem own_spares {id : String} {w' : Realm σ} (undrawn : Undrawn kernel w id) (spares : Spares kernel none (some id) w w') :
    Spares kernel none none w w' :=
  { spares with
    progress := fun other _ drawn => spares.progress other (by rintro ⟨⟩; exact drawn undrawn) drawn }

/-- How a delegation under a new identifier ends. -/
structure Concluded (kernel : AgentKernel σ) (request : DelegationRequest) (w w' : Realm σ) (r : DelegationResult) : Prop where
  spares : Spares kernel none none w w'
  reported : Reported request w' r
  stored : w'.store.result request.delegation_id = some r
  paced : ∀ item ∈ w'.store.progress request.delegation_id, item.sequence ≤ request.policy.max_steps
  events : ∃ first between last, w'.shared.events = w.shared.events ++ first :: between ++ [last] ∧
    first.topic = "delegation.started" ∧ first.payload.get "delegation_id" = .str request.delegation_id ∧
    last.topic = "delegation.finished" ∧ last.payload.get "delegation_id" = .str request.delegation_id ∧
    ∀ e ∈ between, Announces e → e.payload.get "delegation_id" ≠ .str request.delegation_id

/-- The world in which an identifier was drawn. -/
def Realm.drew (w : Realm σ) : Realm σ := { w with shared := { w.shared with draws := w.shared.draws + 1 } }

/-- The world in which a delegation was started. -/
def Realm.opened (w : Realm σ) (parent : KernelSession) (request : DelegationRequest)
    (new : request.delegation_id ∉ w.store.requests.keys) : Realm σ :=
  { w with
    store := w.store.opening request new
    shared := (Realm.drew w).shared.published "delegation.started" (_event_fields parent request.delegation_id request.target) }

/-- A new delegation is stored and published. -/
theorem started_run (new : request.delegation_id ∉ w.store.requests.keys) :
    (started manager parent request).run (Realm.drew w) = (.ok (),Realm.opened w parent request new) := by
  have called : (Realm.drew w).store.start request = (.ok (),w.store.opening request new) := by
    show w.store.start request = _
    rw [InMemoryDelegationStore.start,dif_pos new]
  unfold started
  rw [bind_run_ok (stored_ok called),plain_published (delegation_fields_objects _ _)]
  rfl

theorem opened_progress (new : request.delegation_id ∉ w.store.requests.keys) :
    (Realm.opened w parent request new).store.progress request.delegation_id = [] := by
  show (w.store.opening request new).progress request.delegation_id = []
  rw [InMemoryDelegationStore.progress_opening]
  by_contra some
  exact new (InMemoryDelegationStore.progress_started some)

theorem opened_drawn {new : request.delegation_id ∉ w.store.requests.keys}
    (drawn : request.delegation_id = manager.kernel.host.hex w.shared.draws) :
    ¬ Undrawn manager.kernel (Realm.opened w parent request new) request.delegation_id := by
  rintro ⟨n,later,same⟩
  rw [drawn] at same
  have here := manager.kernel.host.hex_injective _ _ same
  simp only [Realm.opened,Realm.drew,Shared.published] at later
  omega

section
variable {new : request.delegation_id ∉ w.store.requests.keys} (drawn : request.delegation_id = manager.kernel.host.hex w.shared.draws)
include drawn

/-- Starting a delegation under a new identifier leaves everything else alone. -/
theorem opened_spares : Spares manager.kernel none none w (Realm.opened w parent request new) := {
  onward := ⟨⟨List.prefix_append ..,Nat.le_succ _⟩,List.prefix_rfl⟩
  others := fun _ _ _ => rfl
  started := fun _ there => Dicts.Dict.mem_keys_put.mpr (.inr there)
  progress := fun id _ _ => InMemoryDelegationStore.progress_opening new id
  result := fun _ _ => rfl
  events := ⟨[⟨"delegation.started",_event_fields parent request.delegation_id request.target⟩],rfl,fun e member _ => by
    rw [List.mem_singleton.mp member]
    exact ⟨_,delegation_fields_id _ _,_,Nat.le_refl _,drawn⟩⟩ }

/-- What leaves everything alone but a new delegation does so from the start of that one. -/
theorem begun_spares {w' : Realm σ}
    (spares : Spares manager.kernel none (some request.delegation_id) (Realm.opened w parent request new) w') :
    Spares manager.kernel none none w w' := by
  have opened : Spares manager.kernel none (some request.delegation_id) w (Realm.opened w parent request new) :=
    spares_any (opened_spares drawn)
  exact own_spares ⟨_,Nat.le_refl _,drawn⟩ (Trans.trans opened spares)

end

/-! ### What a caller gets -/

/-- No delegation has the identifier, and no event announced one. -/
structure Fresh (w : Realm σ) (id : String) : Prop where
  store : ¬ w.store.Started id
  events : ∀ e ∈ w.shared.events, Announces e → e.payload.get "delegation_id" ≠ .str id

/-- How often a delegation is announced under a topic. -/
def announced (topic id : String) (events : List Published) : Nat :=
  events.countP fun e => e.topic = topic ∧ e.payload.get "delegation_id" = .str id

/-- 1, 2, ..., n. -/
def upTo (n : Int) : List Int := (List.range n.toNat).map fun k : Nat => (k : Int) + 1

/-- The result of a delegation from a session is stored and announced, with the artifacts of
    its progress first, within the steps of its policy; the earlier sessions, that one among
    them, are as they were, and the others are closed. -/
structure Delivered (policy : DelegationPolicy) (parent : KernelSession) (w w' : Realm σ) (r : DelegationResult) : Prop where
  stored : w'.store.result r.delegation_id = some r
  task : r.parent_task_id = parent.identity.task_id
  started : announced "delegation.started" r.delegation_id w'.shared.events = 1
  finished : announced "delegation.finished" r.delegation_id w'.shared.events = 1
  closed : ∀ session ∈ w'.sessions.drop w.sessions.length, session.is_active = false
  unchanged : w.sessions <+: w'.sessions
  artifacts : (w'.store.progress r.delegation_id).map DelegationProgress.artifact <+: r.artifacts
  sequences : ∃ n ≤ policy.max_steps, (w'.store.progress r.delegation_id).map DelegationProgress.sequence = upTo n

theorem spares_unchanged {w w' : Realm σ} (spares : Spares kernel none none w w') : w.sessions <+: w'.sessions := by
  rw [List.prefix_iff_getElem?]
  intro i there
  rw [spares.others i there nofun,List.getElem?_eq_getElem there]

theorem numbered_upTo {items : List DelegationProgress} (numbered : Numbered items) {most : Int}
    (paced : ∀ item ∈ items, item.sequence ≤ most) : ∃ n ≤ most, items.map DelegationProgress.sequence = upTo n := by
  rcases items with _ | ⟨item,rest⟩
  · exact ⟨min 0 most,Int.min_le_right ..,by simp [upTo,Int.toNat_eq_zero.mpr (Int.min_le_left 0 most)]⟩
  · refine ⟨((item :: rest).length : Nat),?_,by rw [numbered.sequences,upTo,Int.toNat_natCast]⟩
    -- the last sequence is the number of records
    have last : (((item :: rest).length : Nat) : Int) ∈ (item :: rest).map DelegationProgress.sequence := by
      rw [numbered.sequences]
      exact List.mem_map.mpr ⟨rest.length,List.mem_range.mpr (by simp),by simp⟩
    obtain ⟨final,member,same⟩ := List.mem_map.mp last
    rw [← same]
    exact paced final member

/-- The events of a delegation under a fresh identifier are one of each kind. -/
theorem concluded_announced {request : DelegationRequest} {w w' : Realm σ} {r : DelegationResult}
    (concluded : Concluded kernel request w w' r) (fresh : Fresh w request.delegation_id) :
    announced "delegation.started" request.delegation_id w'.shared.events = 1 ∧
      announced "delegation.finished" request.delegation_id w'.shared.events = 1 := by
  obtain ⟨first,between,last,same,began,own,ended,own',others⟩ := concluded.events
  have silent : ∀ topic, (topic = "delegation.started" ∨ topic = "delegation.finished") → ∀ events : List Published,
      (∀ e ∈ events, Announces e → e.payload.get "delegation_id" ≠ .str request.delegation_id) →
        announced topic request.delegation_id events = 0 := by
    intro topic kind events apart
    rw [announced,List.countP_eq_zero]
    intro e member counted
    obtain ⟨here,its⟩ := of_decide_eq_true counted
    exact apart e member (by rw [Announces,here]; exact kind) its
  have split : ∀ topic, announced topic request.delegation_id w'.shared.events =
      announced topic request.delegation_id w.shared.events + announced topic request.delegation_id [first] +
        announced topic request.delegation_id between + announced topic request.delegation_id [last] := by
    intro topic
    simp only [announced,same,List.countP_append,List.countP_cons,List.countP_nil]
    omega
  rw [split,split,silent _ (.inl rfl) _ fresh.events,silent _ (.inl rfl) _ others,silent _ (.inr rfl) _ fresh.events,
    silent _ (.inr rfl) _ others]
  simp [announced,began,own,ended,own']

/-- What is concluded under a fresh identifier and leaves no session open is delivered. -/
theorem concluded_delivered {request : DelegationRequest} {policy : DelegationPolicy} {w w' : Realm σ} {r : DelegationResult}
    (concluded : Concluded kernel request w w' r) (fresh : Fresh w request.delegation_id) (shut : Shut none w w')
    (task : request.parent_task_id = parent.identity.task_id) (steps : request.policy.max_steps = policy.max_steps) :
    Delivered policy parent w w' r := by
  obtain ⟨started,finished⟩ := concluded_announced concluded fresh
  have same := concluded.reported.id
  exact {
    stored := by rw [same]; exact concluded.stored
    task := concluded.reported.task.trans task
    started := by rw [same]; exact started
    finished := by rw [same]; exact finished
    closed := fun session member => by
      obtain ⟨i,found⟩ := List.mem_iff_getElem?.mp member
      rw [List.getElem?_drop] at found
      exact shut _ session (Nat.le_add_right ..) nofun found
    unchanged := spares_unchanged concluded.spares
    artifacts := by rw [same]; exact concluded.reported.artifacts
    sequences := by rw [same,← steps]; exact numbered_upTo (InMemoryDelegationStore.progress_numbered _ _) concluded.paced }

/-- The sessions that were made are closed in what is delivered. -/
theorem delivered_shut {policy : DelegationPolicy} {w w' : Realm σ} {r : DelegationResult}
    (delivered : Delivered policy parent w w' r) : Shut none w w' := by
  intro i session beyond _ found
  refine delivered.closed session (List.mem_iff_getElem?.mpr ⟨i - w.sessions.length,?_⟩)
  rw [List.getElem?_drop,Nat.add_sub_cancel' beyond]
  exact found

/-! ### The ends of a delegation -/

section
variable [Setoid DelegationResult] [DecidableRel fun r s : DelegationResult => r ≈ s]

/-- The first result of a delegation is stored and published. -/
theorem finish_run {target : String} {result : DelegationResult} (there : result.delegation_id ∈ w.store.requests.keys)
    (first : w.store.result result.delegation_id = none) :
    (_finish manager parent target result).run w = (.ok result,{ w with
      store := w.store.finishing result there
      shared := w.shared.published "delegation.finished" (finishedFields parent target result) }) := by
  have called : w.store.finish result = (.ok (),w.store.finishing result there) := by
    rw [InMemoryDelegationStore.finish,dif_pos there]
    split
    · next existing found => rw [InMemoryDelegationStore.result,found] at first; cases first
    · rfl
  have plain : objectsIn (finishedFields parent target result) = [] :=
    objectsIn_merge (delegation_fields_objects _ _) (by simp [objectsIn,ofOption_objects,PyVal.objects])
  unfold _finish
  rw [bind_run_ok (stored_ok called),bind_run_ok (plain_published plain)]
  rfl

section
variable {new : request.delegation_id ∉ w.store.requests.keys} (drawn : request.delegation_id = manager.kernel.host.hex w.shared.draws)
include drawn

/-- Storing the result concludes a delegation that left everything else alone. -/
theorem finish_concluded {w' : Realm σ} {r : DelegationResult} (reported : Reported request w' r)
    (spares : Spares manager.kernel none (some request.delegation_id) (Realm.opened w parent request new) w')
    (paced : ∀ item ∈ w'.store.progress request.delegation_id, item.sequence ≤ request.policy.max_steps) :
    ∃ w'', (_finish manager parent request.target r).run w' = (.ok r,w'') ∧ w''.sessions = w'.sessions ∧
      Concluded manager.kernel request w w'' r := by
  have known : r.delegation_id ∈ w'.store.requests.keys := by
    rw [reported.id]
    exact spares.started _ (Dicts.Dict.mem_keys_put.mpr (.inl rfl))
  have first : w'.store.result r.delegation_id = none := by
    rw [reported.id,spares.result _ (opened_drawn drawn)]
    rcases found : w.store.result request.delegation_id with _ | old
    · exact found
    · exact absurd (InMemoryDelegationStore.result_started found) new
  have undrawn : Undrawn manager.kernel w request.delegation_id := ⟨_,Nat.le_refl _,drawn⟩
  have begun := begun_spares drawn spares
  refine ⟨_,finish_run known first,rfl,?_,?_,?_,paced,?_⟩
  · refine ⟨le_trans begun.onward ⟨⟨List.prefix_append ..,Nat.le_refl _⟩,List.prefix_rfl⟩,begun.others,begun.started,
      begun.progress,fun id earlier => ?_,?_⟩
    · have other : id ≠ request.delegation_id := fun same => earlier (by rw [same]; exact undrawn)
      rw [InMemoryDelegationStore.result_finishing,reported.id,if_neg other,begun.result id earlier]
    · obtain ⟨added,same,announced⟩ := begun.events
      refine ⟨added ++ [⟨"delegation.finished",finishedFields parent request.target r⟩],?_,fun e member announcing => ?_⟩
      · simp only [Shared.published,same,List.append_assoc]
      · rcases List.mem_append.mp member with early | late
        · exact announced e early announcing
        · rw [List.mem_singleton.mp late]
          exact ⟨_,finished_fields_id _ _,by rw [reported.id]; exact undrawn⟩
  · exact ⟨reported.id,reported.task,reported.artifacts⟩
  · rw [InMemoryDelegationStore.result_finishing,if_pos reported.id.symm]
  · obtain ⟨added,same,announced⟩ := spares.events
    refine ⟨⟨"delegation.started",_event_fields parent request.delegation_id request.target⟩,added,
      ⟨"delegation.finished",finishedFields parent request.target r⟩,?_,rfl,delegation_fields_id _ _,rfl,?_,?_⟩
    · simp only [Shared.published,same,Realm.opened,Realm.drew]
      simp
    · rw [finished_fields_id,reported.id]
    · intro e member announcing own
      obtain ⟨id,given,later⟩ := announced e member announcing
      rw [own] at given
      cases given
      exact opened_drawn drawn later

/-- A delegation without a child is concluded, if the exception has a text. -/
theorem refused_told {exc : PyError} (told : HasText manager.kernel.host.describe exc) (outcome : Outcome) : ∃ r w',
    (lift (unsuccessful manager.kernel.host request outcome [] exc) >>= _finish manager parent request.target).run
        (Realm.opened w parent request new) = (.ok r,w') ∧ w'.sessions = w.sessions ∧
      Concluded manager.kernel request w w' r := by
  have empty := @opened_progress _ w parent request new
  obtain ⟨r,described,reported⟩ := @unsuccessful_told _ (Realm.opened w parent request new) request manager.kernel.host exc told
    outcome [] empty
  obtain ⟨w',finished,same,concluded⟩ := finish_concluded drawn reported (refl (Realm.opened w parent request new))
    (by rw [empty]; exact nofun)
  refine ⟨r,w',?_,same,concluded⟩
  rw [show unsuccessful manager.kernel.host request outcome [] exc = .ok r from described]
  exact finished

end

theorem refused_untold {exc : PyError} (untold : ¬ HasText manager.kernel.host.describe exc) (outcome : Outcome) : ∃ exc',
    (lift (unsuccessful manager.kernel.host request outcome [] exc) >>= _finish manager parent request.target).run w =
      (.error (.raised exc'),w) := by
  obtain ⟨exc',described⟩ := @unsuccessful_untold request manager.kernel.host exc untold outcome []
  exact ⟨exc',by rw [described]; rfl⟩

/-! ### Delegations -/

variable {parent_session : Nat} {target : String} {spec : DelegationSpec} {policy : Option DelegationPolicy}

/-- The request of a delegation before its policy is in force. -/
def requestOf (kernel : AgentKernel σ) (w : Realm σ) (parent : KernelSession) (target : String) (spec : DelegationSpec)
    (policy : Option DelegationPolicy) : DelegationRequest :=
  ⟨kernel.host.hex w.shared.draws,parent.identity.session_id,parent.identity.task_id,target,spec,policy.getD {}⟩

/-- What follows once the identifier is drawn. -/
def decided (manager : DelegationManager σ) (again : Delegate σ) (parent_session : Nat) (parent : KernelSession)
    (request : DelegationRequest) : Act σ DelegationResult :=
  match manager.policy.validate parent request.policy with
  | .error exc => turnedDown manager parent request exc
  | .ok active_policy => carried manager again parent_session parent { request with policy := active_policy }

theorem delegation_run (there : w.sessions[parent_session]? = some parent) (active : parent.is_active = true)
    (someone : target ≠ "") (something : spec.objective ≠ "") :
    (delegation manager again parent_session target spec policy).run w =
      (decided manager again parent_session parent (requestOf manager.kernel w parent target spec policy)).run (Realm.drew w) := by
  unfold delegation
  rw [bind_run_ok (sessionAt_run there),if_neg (not_not.mpr active),if_neg someone,if_neg something]
  rfl

/-- A delegation under an identifier that is there raises before anything is done. -/
theorem decided_refused {request : DelegationRequest} (there : request.delegation_id ∈ w.store.requests.keys) :
    ∃ exc, (decided manager again parent_session parent request).run w = (.error (.raised exc),w) := by
  unfold decided
  rcases manager.policy.validate parent request.policy with exc | active_policy
  · obtain ⟨exc',refused⟩ := @started_refused _ manager w parent request there
    exact ⟨exc',bind_run_error refused⟩
  · obtain ⟨exc',refused⟩ := @started_refused _ manager w parent { request with policy := active_policy } there
    exact ⟨exc',bind_run_error refused⟩

/-- A refused policy ends a delegation. -/
theorem decided_policy (new : request.delegation_id ∉ w.store.requests.keys) {exc : PyError}
    (refused : manager.policy.validate parent request.policy = .error exc) :
    (decided manager again parent_session parent request).run (Realm.drew w) =
      (lift (unsuccessful manager.kernel.host request .rejected [] exc) >>= _finish manager parent request.target).run
        (Realm.opened w parent request new) := by
  unfold decided
  rw [refused]
  exact bind_run_ok (started_run new)

/-- A target without a handler ends a delegation. -/
theorem decided_target (new : request.delegation_id ∉ w.store.requests.keys) {active_policy : DelegationPolicy} {exc : PyError}
    (valid : manager.policy.validate parent request.policy = .ok active_policy)
    (unresolved : manager.registry.resolve request.target = .error exc) :
    (decided manager again parent_session parent request).run (Realm.drew w) =
      (lift (unsuccessful manager.kernel.host { request with policy := active_policy } (refusal exc) [] exc) >>=
        _finish manager parent request.target).run (Realm.opened w parent { request with policy := active_policy } new) := by
  have raised : (assigned manager parent_session { request with policy := active_policy }).run
      (Realm.opened w parent { request with policy := active_policy } new) =
        (.error (.raised exc),Realm.opened w parent { request with policy := active_policy } new) := by
    unfold assigned
    rw [unresolved]
    rfl
  unfold decided
  rw [valid]
  dsimp only
  unfold carried
  rw [bind_run_ok (@started_run _ manager w parent { request with policy := active_policy } new),
    bind_run_ok (caught_run_raised raised)]

end
end

/-! ### The work of a handler -/

section
variable {manager : DelegationManager σ} {again : Delegate σ} {w : Realm σ}

/-- A delegation that gets as far as the work of a handler with a child session. -/
structure Work (manager : DelegationManager σ) (w : Realm σ) (parent_session : Nat) (target : String) (spec : DelegationSpec)
    (policy : Option DelegationPolicy) where
  parent : KernelSession
  active_policy : DelegationPolicy
  handler : DelegationPort σ
  there : w.sessions[parent_session]? = some parent
  active : parent.is_active = true
  someone : target ≠ ""
  something : spec.objective ≠ ""
  new : manager.kernel.host.hex w.shared.draws ∉ w.store.requests.keys
  valid : manager.policy.validate parent (policy.getD {}) = .ok active_policy
  resolved : manager.registry.resolve target = .ok handler

namespace Work
variable {parent_session : Nat} {target : String} {spec : DelegationSpec} {policy : Option DelegationPolicy}
variable (work : Work manager w parent_session target spec policy) (again)

def request : DelegationRequest :=
  { requestOf manager.kernel w work.parent target spec policy with policy := work.active_policy }

/-- The world in which the delegation is started. -/
def opened : Realm σ := Realm.opened w work.parent work.request work.new

def session : KernelSession := assignedChild manager.kernel work.opened work.parent work.request

/-- The world in which the handler begins. -/
def world : Realm σ := work.opened.enrolled work.session 2

/-- What the handler does, and the check of its result. -/
def attempt : Act σ DelegationResult := attempted manager again work.request work.handler w.sessions.length work.session

/-- The world that the handler leaves. -/
def left : Realm σ := ((work.attempt again).run work.world).2

/-- The exception is caught from the handler, or from the check of its result. -/
def Fails (exc : PyError) : Prop := ((work.attempt again).run work.world).1 = .error (.raised exc)

/-- The handler left no open child. -/
def Closed : Prop := ∀ session, (work.left again).sessions[w.sessions.length]? = some session → session.is_active = false

/-- The delegations that the handler asks for. -/
def asks : List (Inner σ) :=
  inner manager again work.request w.sessions.length work.session (work.handler.run work.request work.session) work.world

variable {work again}

theorem drawn : work.request.delegation_id = manager.kernel.host.hex w.shared.draws := rfl

/-- A child is one level deeper than its parent. -/
theorem deeper : work.session.fixed.1.depth = work.parent.identity.depth + 1 := rfl

/-- The engine allows a child. -/
theorem shallow : (work.parent.identity.depth : Int) + 1 ≤ manager.policy.max_depth := by
  obtain ⟨-,depths,shallow,-,-⟩ := validate_ok_iff.mp work.valid
  exact shallow.trans depths.2

/-- A child of a delegation that nests so deep may nest one level less. -/
theorem below {deep : Nat}
    (enough : manager.policy.max_depth ≤ work.parent.identity.depth + (deep + 1 : Nat)) {w' : Realm σ}
    (there : ∃ session, w'.sessions[w.sessions.length]? = some session ∧ session.fixed = work.session.fixed)
    (later : KernelSession) (now : w'.sessions[w.sessions.length]? = some later) :
    manager.policy.max_depth ≤ later.identity.depth + deep := by
  obtain ⟨session,found,same⟩ := there
  cases found.symm.trans now
  have depth : later.identity.depth = work.parent.identity.depth + 1 :=
    (congrArg (fun who : SessionIdentity × Finset String => who.1.depth) same).trans work.deeper
  omega

theorem there_session : work.world.sessions[w.sessions.length]? = some work.session := by
  simp [world,Realm.enrolled,opened,Realm.opened]

theorem underway : Underway manager.kernel w.sessions.length work.request.delegation_id work.session.fixed work.world :=
  ⟨⟨work.session,there_session,rfl⟩,fun later =>
    @opened_drawn _ manager w work.parent work.request work.new drawn (undrawn_before (enrolled_onward _ _ _) later)⟩

theorem made : (assigned manager parent_session work.request).run work.opened =
    (.ok (work.handler,w.sessions.length),work.world) := by
  obtain ⟨-,-,-,within,inForce⟩ := validate_ok_iff.mp work.valid
  have granted : work.request.policy.allowed_capabilities ⊆ work.parent.allowed_capabilities := by
    rw [show work.request.policy = _ from inForce]
    exact within
  exact @assigned_run _ manager work.opened work.request _ _ _ work.resolved work.there work.active granted

variable (nests : Nests manager.kernel again w.sessions.length work.session.fixed)
include nests

theorem within : Within manager.kernel w.sessions.length work.request.delegation_id work.request.policy.max_steps work.world
    (work.left again) := (attempted_runs work.handler nests underway).moves

theorem left_spares : Spares manager.kernel none none w (work.left again) :=
  have fresh : work.request.delegation_id = manager.kernel.host.hex w.shared.draws := drawn
  begun_spares fresh (enrolled_spares (within nests).toSpares)

omit nests

/-- The child is the first of the new sessions. -/
theorem shut_world {w' : Realm σ} : Shut none w w' ↔ Shut (some w.sessions.length) work.world w' ∧
    ∀ session, w'.sessions[w.sessions.length]? = some session → session.is_active = false := by
  have length : work.world.sessions.length = w.sessions.length + 1 := List.length_append
  rw [shut_child le_rfl]
  refine and_congr_left fun _ => ⟨fun shut i session beyond => shut i session (by omega),fun shut i session beyond other => ?_⟩
  exact shut i session (by simp at other; omega) other

include nests

theorem left_shut_iff : Shut (some w.sessions.length) work.world (work.left again) ↔ ∀ call ∈ work.asks again,
    Shut none call.world ((again w.sessions.length call.target call.spec call.policy).run call.world).2 := by
  rw [left,attempt,attempted_world]
  exact conduct_shut_iff work.request work.session nests _ underway

/-- The child is there whenever its handler asks for a delegation. -/
theorem asks_there {call : Inner σ} (member : call ∈ work.asks again) :
    ∃ session, call.world.sessions[w.sessions.length]? = some session ∧ session.fixed = work.session.fixed :=
  (inner_underway work.request work.session nests _ underway member).1

end Work

theorem settled_length {n i : Nat} (result : DelegationResult) :
    Keeps (fun v : Realm σ => v.sessions.length = n) (settled manager i result) := by
  refine Keeps.bind (Stable.sessionAt _) fun session => Keeps.ite (Keeps.ite ?_ ?_) (Keeps.pure _)
  · exact Keeps.bind (complete_task_length _ _ _) fun _ => Keeps.pure _
  · exact Keeps.bind (complete_task_length _ _ _) fun _ => Keeps.pure _

section
variable [Setoid DelegationResult] [DecidableRel fun r s : DelegationResult => r ≈ s]
variable {parent_session : Nat} {target : String} {spec : DelegationSpec} {policy : Option DelegationPolicy}

/-- The handler works with its child, which is then closed. -/
theorem work_run (work : Work manager w parent_session target spec policy) :
    (delegation manager again parent_session target spec policy).run w = (do
      let result ← worked manager again work.request work.handler w.sessions.length
      settled manager w.sessions.length result
      _finish manager work.parent target result).run work.world := by
  have decides : decided manager again parent_session work.parent (requestOf manager.kernel w work.parent target spec policy) =
      carried manager again parent_session work.parent work.request := by
    unfold decided
    rw [show (requestOf manager.kernel w work.parent target spec policy).policy = policy.getD {} from rfl,work.valid]
    rfl
  rw [delegation_run work.there work.active work.someone work.something,decides]
  unfold carried
  rw [bind_run_ok (@started_run _ manager w work.parent work.request work.new)]
  exact bind_run_ok (caught_run_ok work.made)

variable (work : Work manager w parent_session target spec policy)
variable (nests : Nests manager.kernel again w.sessions.length work.session.fixed)
include nests

/-- The work is concluded, if an exception that is caught from it has a text. -/
theorem work_told (told : ∀ exc, work.Fails again exc → HasText manager.kernel.host.describe exc) : ∃ r w',
    (delegation manager again parent_session target spec policy).run w = (.ok r,w') ∧
      (Shut none w w' ↔ Shut (some w.sessions.length) work.world (work.left again)) ∧
      Concluded manager.kernel work.request w w' r := by
  obtain ⟨r,ran,reported⟩ : ∃ r, (worked manager again work.request work.handler w.sessions.length).run work.world =
      (.ok r,work.left again) ∧ Reported work.request (work.left again) r :=
    worked_told work.handler Work.there_session nests Work.underway told
  have within := Work.within nests
  obtain ⟨later,now,-⟩ := session_onward within.onward Work.there_session
  obtain ⟨w',done,spares,kept,closed⟩ := @settled_run _ manager (work.left again) w.sessions.length later now r
  have closing : Spares manager.kernel (some w.sessions.length) (some work.request.delegation_id) (work.left again) w' :=
    { spares with progress := fun id _ drawn => spares.progress id (by simp) drawn }
  have empty := @opened_progress _ w work.parent work.request work.new
  obtain ⟨w'',finished,same,concluded⟩ := @finish_concluded _ manager w work.parent work.request _ _ work.new Work.drawn _ _
    ⟨reported.id,reported.task,by rw [kept]; exact reported.artifacts⟩
    (enrolled_spares (Trans.trans within.toSpares closing)) fun item member => by
      rw [kept] at member
      exact (within.paced item member).resolve_left fun before => by
        rw [show work.world.store.progress work.request.delegation_id = [] from empty] at before
        cases before
  refine ⟨r,w'',?_,?_,concluded⟩
  · rw [work_run work,bind_run_ok ran,bind_run_ok done]
    exact finished
  · have settledSame : Shut (some w.sessions.length) (work.left again) w' := by
      have length := @settled_length _ manager _ w.sessions.length r (work.left again) rfl
      rw [done] at length
      exact shut_same length
    rw [(Work.shut_world : Shut none w w'' ↔ Shut _ work.world w'' ∧ _),same,and_iff_left closed]
    unfold Shut
    rw [same]
    exact (shut_trans_iff within.toSpares closing).trans (and_iff_left settledSame)

omit nests

/-- An exception without a text leaves the world as the handler did. -/
theorem work_untold {exc : PyError} (fails : work.Fails again exc) (untold : ¬ HasText manager.kernel.host.describe exc) :
    ∃ exc', (delegation manager again parent_session target spec policy).run w = (.error (.raised exc'),work.left again) := by
  obtain ⟨exc',ran⟩ := worked_untold work.handler Work.there_session fails untold
  exact ⟨exc',by rw [work_run work]; exact bind_run_error ran⟩

include nests

/-- A delegation leaves no session open exactly when its own exception has a text, or its child was closed
    before, and the delegations that the handler asks for leave none open. -/
theorem work_shut_iff : Shut none w ((delegation manager again parent_session target spec policy).run w).2 ↔
    (∀ exc, work.Fails again exc → HasText manager.kernel.host.describe exc ∨ work.Closed again) ∧ ∀ call ∈ work.asks again,
      Shut none call.world ((again w.sessions.length call.target call.spec call.policy).run call.world).2 := by
  rw [← Work.left_shut_iff nests]
  by_cases told : ∀ exc, work.Fails again exc → HasText manager.kernel.host.describe exc
  · obtain ⟨r,w',ran,shut,-⟩ := work_told work nests told
    rw [ran,shut]
    exact ⟨fun shut => ⟨fun exc fails => .inl (told exc fails),shut⟩,And.right⟩
  · obtain ⟨exc,fails,untold⟩ : ∃ exc, work.Fails again exc ∧ ¬ HasText manager.kernel.host.describe exc := by
      simpa using told
    obtain ⟨exc',ran⟩ := work_untold work fails untold
    rw [ran]
    rw [(Work.shut_world : _ ↔ Shut _ work.world (work.left again) ∧ work.Closed again)]
    exact ⟨fun ⟨shut,closed⟩ => ⟨fun _ _ => .inr closed,shut⟩,fun ⟨texts,shut⟩ =>
      ⟨shut,(texts exc fails).resolve_left untold⟩⟩

theorem work_spares : Runs (Spares manager.kernel none none) (delegation manager again parent_session target spec policy) w
    fun _ _ => True := by
  by_cases told : ∀ exc, work.Fails again exc → HasText manager.kernel.host.describe exc
  · obtain ⟨r,w',ran,-,concluded⟩ := work_told work nests told
    exact ⟨by rw [ran]; exact concluded.spares,by rw [ran]; exact nofun,fun _ _ => trivial⟩
  · obtain ⟨exc,fails,untold⟩ : ∃ exc, work.Fails again exc ∧ ¬ HasText manager.kernel.host.describe exc := by
      simpa using told
    obtain ⟨exc',ran⟩ := work_untold work fails untold
    exact ⟨by rw [ran]; exact Work.left_spares nests,by rw [ran]; exact nofun,fun _ _ => trivial⟩

omit nests work

/-- Everything else is left alone, and there is no new session. -/
def Idles (kernel : AgentKernel σ) (w w' : Realm σ) : Prop := Spares kernel none none w w' ∧ w'.sessions = w.sessions

omit [Setoid DelegationResult] [DecidableRel fun r s : DelegationResult => r ≈ s] in
theorem raised_idles {m : Act σ DelegationResult} {w' : Realm σ} {exc : PyError} (ran : m.run w = (.error (.raised exc),w'))
    (spares : Spares manager.kernel none none w w') (same : w'.sessions = w.sessions) :
    Runs (Idles manager.kernel) m w fun _ _ => True :=
  ⟨by rw [ran]; exact ⟨spares,same⟩,by rw [ran]; exact nofun,fun _ _ => trivial⟩

/-- A delegation that is turned down makes no session, whether the exception has a text or not. -/
theorem turned_down_idles {exc : PyError} {outcome : Outcome} {request : DelegationRequest}
    (new : request.delegation_id ∉ w.store.requests.keys)
    (drawn : request.delegation_id = manager.kernel.host.hex w.shared.draws)
    (goes : (delegation manager again parent_session target spec policy).run w =
      (lift (unsuccessful manager.kernel.host request outcome [] exc) >>= _finish manager parent request.target).run
        (Realm.opened w parent request new)) :
    Runs (Idles manager.kernel) (delegation manager again parent_session target spec policy) w fun _ _ => True := by
  by_cases told : HasText manager.kernel.host.describe exc
  · obtain ⟨r,w',done,same,concluded⟩ := @refused_told _ manager w parent request _ _ new drawn exc told outcome
    rw [← goes] at done
    exact ⟨by rw [done]; exact ⟨concluded.spares,same⟩,by rw [done]; exact nofun,fun _ _ => trivial⟩
  · obtain ⟨exc',refused⟩ :=
      @refused_untold _ manager (Realm.opened w parent request new) parent request _ _ exc told outcome
    exact raised_idles (goes.trans refused) (opened_spares drawn) rfl

/-- A delegation that gets no further makes no session. -/
theorem idle_runs (idle : IsEmpty (Work manager w parent_session target spec policy)) :
    Runs (Idles manager.kernel) (delegation manager again parent_session target spec policy) w fun _ _ => True := by
  rcases there : w.sessions[parent_session]? with _ | parent
  · exact raised_idles (bind_run_error (sessionAt_absent there)) (refl w) rfl
  by_cases active : parent.is_active = true
  · by_cases someone : target = ""
    · refine @raised_idles _ manager w _ w (.ValueError "Delegation target must not be empty.") ?_ (refl w) rfl
      unfold delegation
      rw [bind_run_ok (sessionAt_run there),if_neg (not_not.mpr active),if_pos someone]
      rfl
    by_cases something : spec.objective = ""
    · refine @raised_idles _ manager w _ w (.ValueError "Delegation objective must not be empty.") ?_ (refl w) rfl
      unfold delegation
      rw [bind_run_ok (sessionAt_run there),if_neg (not_not.mpr active),if_neg someone,if_pos something]
      rfl
    have ran := @delegation_run _ manager again w parent _ _ parent_session target spec policy there active someone something
    by_cases old : (requestOf manager.kernel w parent target spec policy).delegation_id ∈ w.store.requests.keys
    · obtain ⟨exc,refused⟩ := @decided_refused _ manager again (Realm.drew w) parent _ _ parent_session
        (requestOf manager.kernel w parent target spec policy) old
      exact raised_idles (ran.trans refused) (murmurs_spares ⟨Nat.le_succ _,[],(List.append_nil _).symm,nofun⟩) rfl
    rcases valid : manager.policy.validate parent (policy.getD {}) with exc | active_policy
    · exact turned_down_idles old rfl (ran.trans (decided_policy old valid))
    rcases resolved : manager.registry.resolve target with exc | handler
    · let request := { requestOf manager.kernel w parent target spec policy with policy := active_policy }
      have fresh : request.delegation_id ∉ w.store.requests.keys := old
      exact turned_down_idles fresh rfl (ran.trans (decided_target old valid resolved))
    · exact idle.elim ⟨parent,active_policy,handler,there,active,someone,something,old,valid,resolved⟩
  · refine @raised_idles _ manager w _ w (.RuntimeError "Cannot delegate from an inactive parent session.") ?_ (refl w) rfl
    unfold delegation
    rw [bind_run_ok (sessionAt_run there),if_pos active]
    rfl

/-- A delegation leaves everything else alone, however it ends. -/
theorem delegation_spares (nests : ∀ parent, w.sessions[parent_session]? = some parent →
      (parent.identity.depth : Int) + 1 ≤ manager.policy.max_depth →
      ∀ child who, who.1.depth = parent.identity.depth + 1 → Nests manager.kernel again child who) :
    Runs (Spares manager.kernel none none) (delegation manager again parent_session target spec policy) w fun _ _ => True := by
  rcases isEmpty_or_nonempty (Work manager w parent_session target spec policy) with idle | ⟨⟨work⟩⟩
  · exact (idle_runs idle).coarsen fun _ both => both.1
  · exact work_spares work (nests work.parent work.there work.shallow _ _ work.deeper)

/-- No nesting is cut short: a child is deeper than its parent, and not deeper than the
    engine allows. -/
theorem nested_spares (deep : Nat) (target : String) (spec : DelegationSpec) (policy : Option DelegationPolicy)
    (enough : ∀ parent, w.sessions[parent_session]? = some parent → manager.policy.max_depth ≤ parent.identity.depth + deep) :
    Runs (Spares manager.kernel none none) (nested manager (deep + 1) parent_session target spec policy) w fun _ _ => True := by
  induction deep generalizing parent_session target spec policy w with
  | zero =>
    refine delegation_spares fun parent there shallow => ?_
    have := enough parent there
    omega
  | succ deep ih =>
    refine delegation_spares fun parent there _ child who deeper => ?_
    rintro target spec policy w' ⟨session,found,same⟩
    refine ih target spec policy fun later now => ?_
    rw [found] at now
    cases now
    have depth : session.identity.depth = parent.identity.depth + 1 := by rw [← deeper,← same]; rfl
    have := enough parent there
    rw [depth]
    omega

/-- Its handler leaves everything else alone then. -/
theorem nested_below (work : Work manager w parent_session target spec policy) {deep : Nat}
    (enough : manager.policy.max_depth ≤ work.parent.identity.depth + (deep + 1 : Nat)) :
    Nests manager.kernel (nested manager (deep + 1)) w.sessions.length work.session.fixed :=
  fun target spec policy _ there => nested_spares deep target spec policy (work.below enough there)

/-- Handlers of a delegation from the top leave everything else alone. -/
theorem work_nests (work : Work manager w parent_session target spec policy) :
    Nests manager.kernel (nested manager manager.policy.max_depth.toNat) w.sessions.length work.session.fixed := by
  have := work.shallow
  obtain ⟨deep,most⟩ : ∃ deep, manager.policy.max_depth.toNat = deep + 1 := ⟨manager.policy.max_depth.toNat - 1,by omega⟩
  rw [most]
  exact nested_below work (by omega)

/-! ### What is caught -/

/-- The delegation leaves no session open: an exception that is caught from its handler has a text, or the handler
    closed the child before, and so it is in the delegations that the handler asks for. -/
def Closes (manager : DelegationManager σ) : Nat → Nat → String → DelegationSpec → Option DelegationPolicy → Realm σ → Prop
  | 0,_,_,_,_,_ => True
  | deep+1,parent_session,target,spec,policy,w => ∀ work : Work manager w parent_session target spec policy,
    (∀ exc, work.Fails (nested manager deep) exc →
      HasText manager.kernel.host.describe exc ∨ work.Closed (nested manager deep)) ∧
      ∀ call ∈ work.asks (nested manager deep), Closes manager deep w.sessions.length call.target call.spec call.policy call.world

/-- Every exception that a delegation from the session catches has a text, and the delegations that its handler
    asks for leave no session open. -/
structure Texted (manager : DelegationManager σ) (w : Realm σ) (parent_session : Nat) (parent : KernelSession) (target : String)
    (spec : DelegationSpec) (policy : Option DelegationPolicy) : Prop where
  refused : ∀ exc, manager.policy.validate parent (policy.getD {}) = .error exc → HasText manager.kernel.host.describe exc
  unresolved : ∀ active_policy exc, manager.policy.validate parent (policy.getD {}) = .ok active_policy →
    manager.registry.resolve target = .error exc → HasText manager.kernel.host.describe exc
  failed : ∀ work : Work manager w parent_session target spec policy, ∀ exc,
    work.Fails (nested manager manager.policy.max_depth.toNat) exc → HasText manager.kernel.host.describe exc
  asked : ∀ work : Work manager w parent_session target spec policy,
    ∀ call ∈ work.asks (nested manager manager.policy.max_depth.toNat),
      Closes manager manager.policy.max_depth.toNat w.sessions.length call.target call.spec call.policy call.world

/-- Where every exception has a text, no session is left open. -/
theorem closes_described (described : ∀ exc, HasText manager.kernel.host.describe exc) (deep parent_session : Nat)
    (target : String) (spec : DelegationSpec) (policy : Option DelegationPolicy) (w : Realm σ) :
    Closes manager deep parent_session target spec policy w := by
  induction deep generalizing parent_session target spec policy w with
  | zero => trivial
  | succ deep ih => exact fun work => ⟨fun exc _ => .inl (described exc),fun call _ => ih _ _ _ _ _⟩

theorem texted_described (described : ∀ exc, HasText manager.kernel.host.describe exc) :
    Texted manager w parent_session parent target spec policy :=
  ⟨fun exc _ => described exc,fun _ exc _ _ => described exc,fun _ exc _ => described exc,
    fun _ _ _ => closes_described described _ _ _ _ _ _⟩

/-- The sessions that nested delegations leave open are those of the exceptions without a text. -/
theorem nested_shut_iff (deep : Nat) (target : String) (spec : DelegationSpec) (policy : Option DelegationPolicy)
    (enough : ∀ parent, w.sessions[parent_session]? = some parent → manager.policy.max_depth ≤ parent.identity.depth + deep) :
    Shut none w ((nested manager (deep + 1) parent_session target spec policy).run w).2 ↔
      Closes manager (deep + 1) parent_session target spec policy w := by
  induction deep generalizing parent_session target spec policy w with
  | zero =>
    have idle : IsEmpty (Work manager w parent_session target spec policy) := ⟨fun work => by
      have := enough work.parent work.there
      have := work.shallow
      omega⟩
    exact ⟨fun _ work => (idle.false work).elim,fun _ => shut_same (congrArg List.length (idle_runs idle).moves.2)⟩
  | succ deep ih =>
    have each : ∀ work : Work manager w parent_session target spec policy,
        Shut none w ((nested manager (deep + 1 + 1) parent_session target spec policy).run w).2 ↔
          (∀ exc, work.Fails (nested manager (deep + 1)) exc → HasText manager.kernel.host.describe exc ∨
            work.Closed (nested manager (deep + 1))) ∧ ∀ call ∈ work.asks (nested manager (deep + 1)),
              Closes manager (deep + 1) w.sessions.length call.target call.spec call.policy call.world := by
      intro work
      have nests := nested_below work (enough work.parent work.there)
      refine (work_shut_iff work nests).trans (and_congr_right fun _ => forall₂_congr fun call member => ?_)
      exact ih call.target call.spec call.policy (work.below (enough work.parent work.there) (Work.asks_there nests member))
    rcases isEmpty_or_nonempty (Work manager w parent_session target spec policy) with idle | ⟨⟨work⟩⟩
    · exact ⟨fun _ work => (idle.false work).elim,fun _ => shut_same (congrArg List.length (idle_runs idle).moves.2)⟩
    · exact ⟨fun shut work => (each work).mp shut,fun closes => (each work).mpr (closes work)⟩

/-- Delegating from an active session returns a result, and delivers it, exactly when what it catches has a text. -/
theorem delegate_delivered_iff (fresh : Fresh w (manager.kernel.host.hex w.shared.draws))
    (there : w.sessions[parent_session]? = some parent) (active : parent.is_active = true) (someone : target ≠ "")
    (something : spec.objective ≠ "") :
    (∃ r w', (delegate manager parent_session target spec policy).run w = (.ok r,w') ∧ Delivered (policy.getD {}) parent w w' r) ↔
      Texted manager w parent_session parent target spec policy := by
  have new : (requestOf manager.kernel w parent target spec policy).delegation_id ∉ w.store.requests.keys := fresh.store
  have goes : (delegate manager parent_session target spec policy).run w =
      (decided manager (nested manager manager.policy.max_depth.toNat) parent_session parent
        (requestOf manager.kernel w parent target spec policy)).run (Realm.drew w) :=
    delegation_run there active someone something
  have asks : ∀ work : Work manager w parent_session target spec policy,
      Shut (some w.sessions.length) work.world (work.left (nested manager manager.policy.max_depth.toNat)) ↔
        ∀ call ∈ work.asks (nested manager manager.policy.max_depth.toNat),
          Closes manager manager.policy.max_depth.toNat w.sessions.length call.target call.spec call.policy call.world := by
    intro work
    obtain ⟨deep,most⟩ : ∃ deep, manager.policy.max_depth.toNat = deep + 1 :=
      ⟨manager.policy.max_depth.toNat - 1,by have := work.shallow; omega⟩
    have enough : manager.policy.max_depth ≤ work.parent.identity.depth + (deep + 1 : Nat) := by omega
    rw [most]
    have nests := nested_below work enough
    refine (Work.left_shut_iff nests).trans (forall₂_congr fun call member => ?_)
    exact nested_shut_iff deep call.target call.spec call.policy (work.below enough (Work.asks_there nests member))
  constructor
  · rintro ⟨r,w',ran,delivered⟩
    refine ⟨fun exc refused => ?_,fun active_policy exc valid unresolved => ?_,fun work exc fails => ?_,fun work => ?_⟩
    · by_contra untold
      obtain ⟨exc',stops⟩ := @refused_untold _ manager (Realm.opened w parent _ new) parent
        (requestOf manager.kernel w parent target spec policy) _ _ exc untold .rejected
      cases ran.symm.trans (goes.trans ((decided_policy new refused).trans stops))
    · by_contra untold
      obtain ⟨exc',stops⟩ := @refused_untold _ manager
        (Realm.opened w parent { requestOf manager.kernel w parent target spec policy with policy := active_policy } new) parent
        { requestOf manager.kernel w parent target spec policy with policy := active_policy } _ _ exc untold (refusal exc)
      cases ran.symm.trans (goes.trans ((decided_target new valid unresolved).trans stops))
    · by_contra untold
      obtain ⟨exc',stops⟩ := work_untold work fails untold
      cases ran.symm.trans stops
    · have shut : Shut none w ((delegate manager parent_session target spec policy).run w).2 := by
        rw [ran]
        exact delivered_shut delivered
      have nests := work_nests work
      exact (asks work).mp ((Work.left_shut_iff nests).mpr ((work_shut_iff work nests).mp shut).2)
  · intro texts
    rcases valid : manager.policy.validate parent (policy.getD {}) with exc | active_policy
    · obtain ⟨r,w',ran,same,concluded⟩ := @refused_told _ manager w parent _ _ _ new rfl exc (texts.refused exc valid) .rejected
      exact ⟨r,w',(goes.trans (decided_policy new valid)).trans ran,
        concluded_delivered concluded fresh (shut_same (congrArg List.length same)) rfl rfl⟩
    · obtain ⟨-,-,-,-,inForce⟩ := validate_ok_iff.mp valid
      have steps : active_policy.max_steps = (policy.getD {}).max_steps := by rw [inForce]
      rcases resolved : manager.registry.resolve target with exc | handler
      · obtain ⟨r,w',ran,same,concluded⟩ := @refused_told _ manager w parent
          { requestOf manager.kernel w parent target spec policy with policy := active_policy } _ _ new rfl exc
          (texts.unresolved active_policy exc valid resolved) (refusal exc)
        exact ⟨r,w',(goes.trans (decided_target new valid resolved)).trans ran,
          concluded_delivered concluded fresh (shut_same (congrArg List.length same)) rfl steps⟩
      · let work : Work manager w parent_session target spec policy :=
          ⟨parent,active_policy,handler,there,active,someone,something,new,valid,resolved⟩
        obtain ⟨r,w',ran,shut,concluded⟩ := work_told work (work_nests work) (texts.failed work)
        exact ⟨r,w',ran,concluded_delivered concluded fresh (shut.mpr ((asks work).mpr (texts.asked work))) rfl steps⟩

end
end

end

/-! ### A delegation whose handler fails -/

/-- Results that are the same. -/
def sameResult : Setoid DelegationResult := ⟨Eq,eq_equivalence⟩

instance : DecidableRel fun r s : DelegationResult => sameResult.r r s := fun r s => inferInstanceAs (Decidable (r = s))

/-- An open session that may use the only tool. -/
def visitor : KernelSession :=
  accepted ⟨"visitor","run","t0","agent:root",none,none,0,by decide⟩ ⟨"look around","t0",[],[]⟩ {"echo"}

def lobby : Realm Unit where
  shared := idle
  sessions := [visitor]

/-- A delegation from the lobby. -/
def survey (manager : DelegationManager Unit) : Except (Stop PyError) DelegationResult × Realm Unit :=
  letI := sameResult
  (delegate manager 0 "agent:survey" ⟨"map the area",[],[],[]⟩ none).run lobby

/-- A handler that reports its progress and then fails. -/
def surveyor : DelegationPort Unit where
  name := "surveyor"
  can_handle target := .ok (target = "agent:survey")
  run request _ := .reports ⟨request.delegation_id,1,"e1",⟨"a1","note",[("text",.str "half way")],1⟩,.running⟩ fun _ =>
    .raises (.RuntimeError "lost")

def surveying : DelegationManager Unit := ⟨echoKernel [],[surveyor],{}⟩

/-- The progress of the handler that failed is in the result. -/
theorem survey_delivered : ∃ r w', survey surveying = (.ok r,w') ∧ Delivered {} visitor lobby w' r := by
  let _ : Setoid DelegationResult := sameResult
  exact (@delegate_delivered_iff _ surveying lobby _ _ 0 "agent:survey" ⟨"map the area",[],[],[]⟩ none visitor ⟨nofun,nofun⟩
    rfl rfl (by decide) (by decide)).mpr (texted_described fun exc => ⟨exc.message,rfl⟩)

/-- A host on which a `KeyError` has the text of its key, and a number of more than 4300 digits has none. -/
def strictHost : Host := { plainHost with
  describe := fun
    | .KeyError key =>
      if 4300 < key.toList.length ∧ key.toList.all Char.isDigit then
        .error (.ValueError "Exceeds the limit (4300 digits) for integer string conversion")
      else .ok key
    | exc => .ok exc.message }

/-- A power of ten. -/
def tens (n : Nat) : String := String.ofList ('1' :: List.replicate n '0')

theorem tens_untold {n : Nat} (many : 4300 ≤ n) : ¬ HasText strictHost.describe (.KeyError (tens n)) := by
  rintro ⟨text,described⟩
  have huge : 4300 < (tens n).toList.length ∧ (tens n).toList.all Char.isDigit := by
    simp only [tens,String.toList_ofList,List.length_cons,List.length_replicate,List.all_cons,List.all_replicate]
    exact ⟨by omega,by simp⟩
  rw [show strictHost.describe (.KeyError (tens n)) = _ from if_pos huge] at described
  cases described

/-- A handler that raises a `KeyError`. -/
def searcher (key : String) : DelegationPort Unit where
  name := "searcher"
  can_handle target := .ok (target = "agent:survey")
  run _ _ := .raises (.KeyError key)

def searching (key : String) : DelegationManager Unit := ⟨{ echoKernel [] with host := strictHost },[searcher key],{}⟩

/-- Nothing is returned or announced, and the child is left open. -/
theorem searching_lost {key : String} (untold : ¬ HasText strictHost.describe (.KeyError key)) :
    ∃ exc w', survey (searching key) = (.error (.raised exc),w') ∧
      announced "delegation.finished" (strictHost.hex 0) w'.shared.events = 0 ∧
        ∃ session ∈ w'.sessions.drop 1, session.is_active = true := by
  let _ : Setoid DelegationResult := sameResult
  let work : Work (searching key) lobby 0 "agent:survey" ⟨"map the area",[],[],[]⟩ none :=
    ⟨visitor,{ allowed_capabilities := {"echo"} },searcher key,rfl,rfl,by decide,by decide,nofun,rfl,rfl⟩
  obtain ⟨exc,ran⟩ := @work_untold _ (searching key) (nested (searching key) 8) lobby _ _ 0 "agent:survey"
    ⟨"map the area",[],[],[]⟩ none work _ rfl untold
  have events : (work.left (nested (searching key) 8)).shared.events =
      [⟨"delegation.started",_event_fields visitor (strictHost.hex 0) "agent:survey"⟩,
        ⟨"task.accepted",work.session.call_context.event_fields⟩] := rfl
  exact ⟨exc,_,ran,by rw [events]; simp [announced],_,List.mem_singleton_self _,rfl⟩

/-- The text of the exception that is caught from the handler has too many digits. -/
theorem huge_key_undelivered :
    (∃ exc w', survey (searching (tens 4300)) = (.error (.raised exc),w') ∧
      announced "delegation.finished" (strictHost.hex 0) w'.shared.events = 0 ∧
        ∃ session ∈ w'.sessions.drop 1, session.is_active = true) ∧
    ¬ ∃ r w', survey (searching (tens 4300)) = (.ok r,w') ∧ Delivered {} visitor lobby w' r := by
  have lost := searching_lost (tens_untold le_rfl)
  refine ⟨lost,?_⟩
  rintro ⟨r,w',returned,-⟩
  obtain ⟨exc,w'',ran,-⟩ := lost
  cases returned.symm.trans ran

end HexAgent.Conclusions
