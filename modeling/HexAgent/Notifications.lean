import HexAgent.Conclusions

/-!
The progress of a delegation as observers hear of it. A record is stored and then published,
but the store takes a record that is sent again in silence, and it is published once more.
-/
namespace HexAgent.Notifications
open HexAgent.Values HexAgent.Commands HexAgent.Schemas HexAgent.Kernel HexAgent.DelegationStore
open HexAgent.Sessions HexAgent.Delegation HexAgent.Conclusions HexAgent.Envelopes Programs

section
variable {σ : Type}

/-! ### What observers hear -/

/-- The event tells of progress of the delegation. -/
def Notes (id : String) (e : Published) : Prop := e.topic = "delegation.progress" ∧
    e.payload.get "delegation_id" = .str id

instance (id : String) (e : Published) : Decidable (Notes id e) := inferInstanceAs (Decidable (_ ∧ _))

/-- The payloads of the events that tell of progress of a delegation. -/
def notes (id : String) (w : Shared σ) : List Fields := (w.events.filter (Notes id ·)).map Published.payload

/-- What a payload tells of a record. -/
def tellings (payload : Fields) : List PyVal := ["event_id","sequence","status","artifact"].map payload.get

/-- What there is to tell of a record. -/
def told (progress : DelegationProgress) : List PyVal :=
  [.str progress.event_id,.int progress.sequence,.str progress.status.value,.dict progress.artifact.as_dict]

/-- The events are the records, each once and in their order. -/
def Agrees (id : String) (w : Realm σ) : Prop := (notes id w.shared).map tellings = (w.store.progress id).map told

theorem progress_tellings (child : KernelSession) (progress : DelegationProgress) :
    tellings (progressFields child progress) = told progress := by
  simp [tellings,told,progressFields,ToolCallContext.event_fields,KernelSession.call_context,Dicts.merge,Dicts.put,Fields.get,
    Fields.getD,Dicts.get]

theorem progress_id {child : KernelSession} {id : String} (own : child.identity.delegation_id = some id)
    (progress : DelegationProgress) : (progressFields child progress).get "delegation_id" = .str id := by
  simp [progressFields,ToolCallContext.event_fields,KernelSession.call_context,own,Dicts.merge,Dicts.put,Fields.get,
    Fields.getD,Dicts.get,ofOption]

/-- Records with the same to tell give the same event. -/
theorem progress_told {child : KernelSession} {p q : DelegationProgress} (same : told p = told q) :
    progressFields child p = progressFields child q := by
  simp only [told,List.cons.injEq] at same
  obtain ⟨event,sequence,status,artifact,-⟩ := same
  unfold progressFields
  rw [event,sequence,status,artifact]

/-! ### What is silent about a delegation -/

variable {kernel : AgentKernel σ} {id : String} {heard : List Fields} {records : List DelegationProgress} {since : Prop}

/-- The identifier was drawn, and this was heard of its delegation. -/
structure Hears (kernel : AgentKernel σ) (id : String) (heard : List Fields) (w : Shared σ) : Prop where
  notes : notes id w = heard
  drawn : ∀ n, w.draws ≤ n → id ≠ kernel.host.hex n

/-- This was heard of a delegation, these are its records, and it is known `since` then. -/
structure Still (kernel : AgentKernel σ) (id : String) (heard : List Fields) (records : List DelegationProgress)
    (since : Prop)
    (w : Realm σ) : Prop where
  hears : Hears kernel id heard w.shared
  recorded : w.store.progress id = records
  known : since → w.store.Started id

theorem publish_hears {topic : String} {payload : Fields}
    (other : topic ≠ "delegation.progress" ∨ payload.get "delegation_id" ≠ .str id) :
    Keeps (Hears kernel id heard) (publish kernel topic payload) := by
  refine Keeps.bind (Keeps.lift _) fun _ => ?_
  intro w hears
  refine ⟨?_,hears.drawn⟩
  have silent : ¬ Notes id ⟨topic,payload⟩ := fun ⟨same,own⟩ => other.elim (absurd same) (absurd own)
  show ((w.events ++ [Published.mk topic payload]).filter (Notes id ·)).map Published.payload = heard
  rw [List.filter_append,List.filter_singleton,decide_eq_false silent,cond_false,List.append_nil]
  exact hears.notes

theorem draw_hears : Keeps (Hears kernel id heard) (draw kernel) :=
  fun _ hears => ⟨hears.notes,fun n later => hears.drawn n ((Nat.le_succ _).trans later)⟩

theorem conclude_hears (lineage : Fields) (request : ToolRequest) (envelope : Fields) :
    Keeps (Hears kernel id heard) (conclude kernel lineage request envelope) := by
  refine Keeps.bind (Keeps.lift _) fun ok => Keeps.bind (publish_hears (.inl ?_)) fun _ => Keeps.pure _
  cases ok <;> simp

theorem execute_tool_hears (tool_name : String) (args : Fields) (context : Option ToolCallContext) :
    Keeps (Hears kernel id heard) (Kernel.execute_tool kernel tool_name args context) := by
  refine Keeps.bind (Keeps.lift _) fun _ => Keeps.bind draw_hears fun _ => ?_
  refine Keeps.bind (publish_hears (.inl (by decide))) fun _ => Keeps.ite (conclude_hears _ _ _) ?_
  refine Keeps.bind (fun w hears => ⟨hears.notes,hears.drawn⟩) fun _ => ?_
  exact Keeps.bind (Keeps.lift _) fun _ => Keeps.bind (Keeps.lift _) fun _ => conclude_hears _ _ _

section
variable {α : Type} {m : Prog (Shared σ) PyError α}

theorem onShared_still (keeps : Keeps (Hears kernel id heard) m) : Keeps (Still kernel id heard records since)
    (onShared m) :=
  fun w still => ⟨keeps w.shared still.hears,still.recorded,still.known⟩

theorem onBehalf_still (i : Nat) (keeps : Keeps (Hears kernel id heard) m) :
    Keeps (Still kernel id heard records since) (onBehalf i m) :=
  fun w still => ⟨keeps w.shared still.hears,still.recorded,still.known⟩

end

theorem alter_still (i : Nat) (change : KernelSession → KernelSession)
    (same : ∀ session, (change session).fixed = session.fixed) :
    Keeps (Still kernel id heard records since) (alter i change same) := fun _ still =>
      ⟨still.hears,still.recorded,still.known⟩

theorem stored_still {call : InMemoryDelegationStore → Except PyError Unit × InMemoryDelegationStore}
    (same : ∀ store, (call store).2.progress id = store.progress id)
      (onward : ∀ store, store.Started id → (call store).2.Started id) :
    Keeps (Still kernel id heard records since) (stored call) :=
  fun w still => ⟨still.hears,(same w.store).trans still.recorded,fun long => onward w.store (still.known long)⟩

section
variable {store : InMemoryDelegationStore}

theorem start_onward (request : DelegationRequest) (started : store.Started id) : (store.start request).2.Started id :=
  @Grows.started sameResult _ _ (@start_grows sameResult store request) id started

theorem append_onward (progress : DelegationProgress) (started : store.Started id) :
    (store.append_progress progress).2.Started id :=
  @Grows.started sameResult _ _ (@append_grows sameResult store progress) id started

theorem finish_onward [Setoid DelegationResult] [DecidableRel fun r s : DelegationResult => r ≈ s]
    (result : DelegationResult)
    (started : store.Started id) : (store.finish result).2.Started id := (finish_grows result).started id started

end

theorem start_same (store : InMemoryDelegationStore) (request : DelegationRequest) :
    (store.start request).2.progress id = store.progress id := by
  unfold InMemoryDelegationStore.start
  split
  · next new => exact InMemoryDelegationStore.progress_opening new _
  · rfl

theorem append_same {store : InMemoryDelegationStore} {progress : DelegationProgress}
    (other : id ≠ progress.delegation_id) :
    (store.append_progress progress).2.progress id = store.progress id := by
  rcases @append_cases store progress with unchanged | ⟨items,there,next,new,recorded⟩
  · rw [unchanged]
  · rw [recorded,InMemoryDelegationStore.progress_recording,if_neg other]

theorem finish_same [Setoid DelegationResult] [DecidableRel fun r s : DelegationResult => r ≈ s]
    (store : InMemoryDelegationStore)
    (result : DelegationResult) : (store.finish result).2.progress id = store.progress id := by
  unfold InMemoryDelegationStore.finish
  split
  · split
    · split <;> rfl
    · rfl
  · rfl

theorem tool_still (i : Nat) (tool_name : String) (args : Fields) :
    Keeps (Still kernel id heard records since) (Sessions.execute_tool kernel i tool_name args) :=
  Keeps.bind (Stable.sessionAt _) fun _ => Keeps.ite (onBehalf_still i (execute_tool_hears _ _ _)) (Keeps.pure _)

theorem complete_task_still (i : Nat) (result : PyVal) (status : String) :
    Keeps (Still kernel id heard records since) (complete_task kernel i result status) := by
  refine Keeps.bind (Stable.sessionAt _) fun session => Keeps.ite ?_ (Keeps.raise _)
  refine Keeps.bind (alter_still _ _ _) fun _ => Keeps.bind (onShared_still (publish_hears (.inl ?_))) fun _ =>
    Keeps.pure _
  split <;> decide

theorem create_child_still (parent : Nat) (delegation_id target user_request : String) (context : Fields)
    (scope : Option (Finset String)) :
    Keeps (Still kernel id heard records since) (create_child kernel parent delegation_id target user_request context
      scope) := by
  refine Keeps.bind (Stable.sessionAt _) fun _ => Keeps.ite (Keeps.raise _) (Keeps.ite (Keeps.raise _) ?_)
  refine Keeps.bind (onShared_still draw_hears) fun _ => ?_
  refine Keeps.bind (Keeps.bind (Keeps.read _) fun _ => Keeps.bind (onShared_still draw_hears) fun _ =>
    Keeps.pure _) fun _ => ?_
  refine Keeps.bind (Keeps.bind (Keeps.read _) fun _ => Keeps.bind ?_ fun _ => Keeps.pure _) fun _ => ?_
  · exact fun _ still => ⟨still.hears,still.recorded,still.known⟩
  · exact Keeps.bind (onShared_still (publish_hears (.inl (by decide)))) fun _ => Keeps.pure _

/-! ### Delegations that are silent about another one -/

section
variable {manager : DelegationManager σ} {again : Delegate σ} {request : DelegationRequest} {child : KernelSession}
variable (deeper : ∀ session target spec policy, Keeps (Still manager.kernel id heard records since)
  (again session target spec policy))
include deeper

theorem perform_still (i : Nat) (act : SessionAct σ) : Keeps (Still manager.kernel id heard records since)
    (perform manager again i act) := by
  cases act with
  | execute_tool tool_name args => exact tool_still i tool_name args
  | delegate target spec policy => exact deeper i target spec policy
  | complete_task result status => exact complete_task_still i result status
  | fail_task reason extra => exact complete_task_still i _ _
  | change_state change =>
    exact Keeps.bind (alter_still _ _ _) fun _ => Keeps.bind (Stable.sessionAt _) fun _ => Keeps.pure _
  | outside change =>
    exact Keeps.bind (fun _ still => ⟨⟨still.hears.notes,still.hears.drawn⟩,still.recorded,still.known⟩) fun _ =>
      Keeps.read _

variable (other : id ≠ request.delegation_id)
include other

theorem conduct_still (own : child.identity.delegation_id = some request.delegation_id) (i : Nat)
    (behaviour : Behaviour σ) :
    Keeps (Still manager.kernel id heard records since) (conduct manager again request i child behaviour) := by
  induction behaviour with
  | returns result => exact Keeps.pure _
  | raises exc => exact Keeps.raise _
  | acts act next ih => exact Keeps.bind (perform_still deeper i act).caught fun answer => ih answer
  | reports progress next ih =>
    refine Keeps.bind (Keeps.caught ?_) fun answer => ih answer
    by_cases mine : progress.delegation_id ≠ request.delegation_id
    · unfold progress_sink
      rw [if_pos mine]
      exact Keeps.raise _
    · have apart : id ≠ progress.delegation_id := by rwa [not_not.mp mine]
      refine Keeps.ite (Keeps.raise _) (Keeps.ite (Keeps.raise _) ?_)
      refine Keeps.bind (stored_still (fun _ => append_same apart) fun _ => append_onward progress) fun _ =>
        onShared_still (publish_hears (.inr ?_))
      rw [progress_id own]
      exact fun same => other (by cases same; rfl)

theorem worked_still {i : Nat} (handler : DelegationPort σ) {w : Realm σ} (there : w.sessions[i]? = some child)
    (own : child.identity.delegation_id = some request.delegation_id)
      (still : Still manager.kernel id heard records since w) :
    Still manager.kernel id heard records since ((worked manager again request handler i).run w).2 := by
  unfold worked
  rw [bind_run_ok (sessionAt_run there)]
  refine Keeps.bind (Keeps.caught ?_) (fun outcome => ?_) w still
  · exact Keeps.bind (conduct_still deeper other own i _) fun _ => Keeps.bind (Keeps.read _) fun _ => Keeps.lift _
  · cases outcome with
    | ok result => exact Keeps.pure _
    | error exc => exact Keeps.bind (Keeps.read _) fun _ => Keeps.lift _

omit deeper other

theorem settled_still (i : Nat) (result : DelegationResult) : Keeps (Still manager.kernel id heard records since)
    (settled manager i result) := by
  refine Keeps.bind (Stable.sessionAt _) fun session => Keeps.ite (Keeps.ite ?_ ?_) (Keeps.pure _)
  · exact Keeps.bind (complete_task_still _ _ _) fun _ => Keeps.pure _
  · exact Keeps.bind (complete_task_still _ _ _) fun _ => Keeps.pure _

theorem started_still (parent : KernelSession) : Keeps (Still manager.kernel id heard records since)
    (started manager parent request) :=
  Keeps.bind (stored_still (fun store => start_same store request) fun _ => start_onward request) fun _ =>
    onShared_still (publish_hears (.inl (by decide)))

theorem assigned_still (parent_session : Nat) : Keeps (Still manager.kernel id heard records since)
    (assigned manager parent_session request) :=
  Keeps.bind (Keeps.lift _) fun _ => Keeps.bind (create_child_still _ _ _ _ _ _) fun _ =>
    Keeps.bind (alter_still _ _ _) fun _ => Keeps.pure _

/-- A child that was assigned is there, under the identifier of the delegation. -/
theorem assigned_child {parent_session i : Nat} {handler : DelegationPort σ} {w w' : Realm σ}
    (ran : (assigned manager parent_session request).run w = (.ok (handler,i),w')) :
    ∃ child, w'.sessions[i]? = some child ∧ child.identity.delegation_id = some request.delegation_id := by
  rcases @assigned_cases _ manager w request parent_session with ⟨exc,raised⟩ | ⟨found,parent,-,-,-,made⟩
  · rw [raised] at ran
    cases ran
  · rw [made] at ran
    cases ran
    exact ⟨assignedChild manager.kernel w parent request,by simp [Realm.enrolled],rfl⟩

section
variable [Setoid DelegationResult] [DecidableRel fun r s : DelegationResult => r ≈ s]

theorem _finish_still (parent : KernelSession) (target : String) (result : DelegationResult) :
    Keeps (Still manager.kernel id heard records since) (_finish manager parent target result) :=
  Keeps.bind (stored_still (fun store => finish_same store result) fun _ => finish_onward result) fun _ =>
    Keeps.bind (onShared_still (publish_hears (.inl (by decide)))) fun _ => Keeps.pure _

include deeper other

theorem carried_still (parent_session : Nat) (parent : KernelSession) :
    Keeps (Still manager.kernel id heard records since) (carried manager again parent_session parent request) := by
  refine Keeps.bind (started_still parent) fun _ w still => ?_
  refine Keeps.bind_at ((assigned_still parent_session).caught w still) fun outcome w' ran kept => ?_
  cases outcome with
  | error exc => exact Keeps.bind (Keeps.lift _) (fun _ => _finish_still _ _ _) w' kept
  | ok pair =>
    obtain ⟨handler,i⟩ := pair
    obtain ⟨child,there,own⟩ := assigned_child (caught_returned ran)
    refine Keeps.bind_at (worked_still deeper other handler there own kept) fun result w'' _ kept' => ?_
    exact Keeps.bind (settled_still _ _) (fun _ => _finish_still _ _ _) w'' kept'

omit other

/-- A delegation is silent about those whose identifiers were drawn before. -/
theorem delegation_still (parent_session : Nat) (target : String) (spec : DelegationSpec)
    (policy : Option DelegationPolicy) :
    Keeps (Still manager.kernel id heard records since)
      (delegation manager again parent_session target spec policy) := by
  refine Keeps.bind (Stable.sessionAt _) fun parent => Keeps.ite (Keeps.raise _)
    (Keeps.ite (Keeps.raise _) (Keeps.ite (Keeps.raise _) ?_))
  intro w still
  refine Keeps.bind_at (onShared_still draw_hears w still) fun delegation_id w' ran kept => ?_
  have other : id ≠ delegation_id := by
    cases ran
    exact still.hears.drawn _ le_rfl
  dsimp only
  split
  · exact Keeps.bind (started_still _) (fun _ => Keeps.bind (Keeps.lift _) fun _ => _finish_still _ _ _) w' kept
  · exact carried_still deeper other _ _ w' kept

omit deeper

theorem nested_still (deep parent_session : Nat) (target : String) (spec : DelegationSpec)
    (policy : Option DelegationPolicy) :
    Keeps (Still manager.kernel id heard records since) (nested manager deep parent_session target spec policy) := by
  induction deep generalizing parent_session target spec policy with
  | zero => exact fun _ still => still
  | succ deep ih => exact delegation_still ih _ _ _ _

end
end

/-! ### The records that a handler sends -/

/-- The payload can be copied, so it is published. -/
def Copyable (kernel : AgentKernel σ) (payload : Fields) : Prop := kernel.host.deepcopy (.dict payload) = .ok ()

/-- A call sends no event again that is recorded, and what it records can be published. Records of another
    delegation and beyond the steps of the policy do not count, nor a repeated one that cannot be published. -/
def Faithful (kernel : AgentKernel σ) (request : DelegationRequest) (child : KernelSession) (w : Realm σ)
    (progress : DelegationProgress) : Prop :=
  progress.delegation_id = request.delegation_id → progress.sequence ≤ request.policy.max_steps →
    ((∃ item ∈ w.store.progress request.delegation_id, item.event_id = progress.event_id) →
      ¬ Copyable kernel (progressFields child progress)) ∧
    ((∀ item ∈ w.store.progress request.delegation_id, item.event_id ≠ progress.event_id) →
      progress.sequence = (w.store.progress request.delegation_id).length + 1 →
        Copyable kernel (progressFields child progress))

section
variable (manager : DelegationManager σ) (again : Delegate σ) (request : DelegationRequest) (i : Nat)
  (child : KernelSession)

/-- The calls of `progress_sink` in a run of the handler, each with the world in which it is made. -/
def sent : Behaviour σ → Realm σ → List (Realm σ × DelegationProgress)
  | .returns _,_ => []
  | .raises _,_ => []
  | .acts act next,w =>
    match (caught (perform manager again i act)).run w with
    | (.ok answer,w') => sent (next answer) w'
    | (.error _,_) => []
  | .reports progress next,w => (w,progress) ::
    match (caught (progress_sink manager request child progress)).run w with
    | (.ok answer,w') => sent (next answer) w'
    | (.error _,_) => []

end

section
variable {manager : DelegationManager σ} {again : Delegate σ} {request : DelegationRequest} {i : Nat} {child :
  KernelSession}
variable {w : Realm σ} {progress : DelegationProgress}

/-- A delegation under way: it is known to the store, and what was heard of it are records that could be published. -/
structure Heard (manager : DelegationManager σ) (request : DelegationRequest) (child : KernelSession) (w : Realm σ)
    (published : List DelegationProgress) : Prop where
  still : Still manager.kernel request.delegation_id (published.map (progressFields child))
    (w.store.progress request.delegation_id)
    True w
  copied : ∀ p ∈ published, Copyable manager.kernel (progressFields child p)

/-- What one call does: a faithful one keeps events and records in step, any other one does not. -/
inductive Sunk (manager : DelegationManager σ) (request : DelegationRequest) (child : KernelSession) (w : Realm σ)
    (progress : DelegationProgress) (published : List DelegationProgress) (w' : Realm σ) : Prop
  | nothing (faithful : Faithful manager.kernel request child w progress)
    (heard : Heard manager request child w' published)
      (same : w'.store.progress request.delegation_id = w.store.progress request.delegation_id)
  | both (faithful : Faithful manager.kernel request child w progress)
    (heard : Heard manager request child w' (published ++ [progress]))
      (more : w'.store.progress request.delegation_id = w.store.progress request.delegation_id ++ [progress])
  | again (unfaithful : ¬ Faithful manager.kernel request child w progress)
      (heard : Heard manager request child w' (published ++ [progress]))
      (same : w'.store.progress request.delegation_id = w.store.progress request.delegation_id)
  | unheard (unfaithful : ¬ Faithful manager.kernel request child w progress)
    (heard : Heard manager request child w' published)
      (more : w'.store.progress request.delegation_id = w.store.progress request.delegation_id ++ [progress])
      (uncopied : ¬ Copyable manager.kernel (progressFields child progress))

variable {published : List DelegationProgress}

theorem Heard.known (heard : Heard manager request child w published) : w.store.Started request.delegation_id :=
  heard.still.known trivial

/-- The event of a record that can be published is heard. -/
theorem heard_published (own : child.identity.delegation_id = some request.delegation_id)
    (heard : Heard manager request child w published) (copyable : Copyable manager.kernel (progressFields child
      progress)) :
    (onShared (publish manager.kernel "delegation.progress" (progressFields child progress))).run w =
        (.ok (),{ w with shared := w.shared.published "delegation.progress" (progressFields child progress) }) ∧
      Heard manager request child { w with shared := w.shared.published "delegation.progress" (progressFields child
        progress) }
        (published ++ [progress]) := by
  refine ⟨by simp only [onShared]; rw [publish_run _ copyable],⟨⟨⟨?_,heard.still.hears.drawn⟩,rfl,fun _ =>
    heard.known⟩,?_⟩⟩
  · have noted : Notes request.delegation_id ⟨"delegation.progress",progressFields child progress⟩ :=
      ⟨rfl,progress_id own progress⟩
    show ((w.shared.events ++ [Published.mk _ _]).filter (Notes request.delegation_id ·)).map Published.payload = _
    rw [List.filter_append,List.filter_singleton,decide_eq_true noted,cond_true,List.map_append,List.map_append]
    exact congrArg (· ++ [progressFields child progress]) heard.still.hears.notes
  · exact List.forall_mem_append.mpr ⟨heard.copied,by simpa using copyable⟩

theorem unpublished (uncopied : ¬ Copyable manager.kernel (progressFields child progress)) :
    ((onShared (publish manager.kernel "delegation.progress" (progressFields child progress))).run w).2 = w := by
  simp only [onShared,publish]
  rcases copy : manager.kernel.host.deepcopy (.dict (progressFields child progress)) with exc | done
  · rfl
  · exact absurd copy uncopied

/-- A new event that is the next is recorded. -/
theorem append_next {store : InMemoryDelegationStore} {items : List DelegationProgress}
    (there : store.recorded.get progress.delegation_id = some items)
      (new : ∀ item ∈ items, item.event_id ≠ progress.event_id)
    (next : progress.sequence = items.length + 1) : store.append_progress progress = (.ok (),store.recording progress
      items there next new) := by
  unfold InMemoryDelegationStore.append_progress
  split
  · next absent => cases absent.symm.trans there
  · next items' here =>
    cases here.symm.trans there
    rw [dif_pos new,dif_pos next]

/-- A new event that is not the next is refused. -/
theorem append_gap {store : InMemoryDelegationStore} {items : List DelegationProgress}
    (there : store.recorded.get progress.delegation_id = some items)
      (new : ∀ item ∈ items, item.event_id ≠ progress.event_id)
    (gap : progress.sequence ≠ items.length + 1) : ∃ exc, store.append_progress progress = (.error exc,store) := by
  unfold InMemoryDelegationStore.append_progress
  split
  · exact ⟨_,rfl⟩
  · next items' here =>
    cases here.symm.trans there
    rw [dif_pos new,dif_neg gap]
    exact ⟨_,rfl⟩

/-- One call of `progress_sink`. -/
theorem sink_cases (own : child.identity.delegation_id = some request.delegation_id)
    (heard : Heard manager request child w published) :
    Sunk manager request child w progress published ((progress_sink manager request child progress).run w).2 := by
  unfold progress_sink
  by_cases mine : progress.delegation_id = request.delegation_id
  · by_cases few : progress.sequence ≤ request.policy.max_steps
    · rw [if_neg (not_not.mpr mine),if_neg (not_lt.mpr few)]
      obtain ⟨items,there⟩ : ∃ items, w.store.recorded.get progress.delegation_id = some items :=
        Dicts.Dict.get_of_mem_keys (by rw [mine,w.store.opened]; exact heard.known)
      have recorded : w.store.progress request.delegation_id = items := by
        rw [InMemoryDelegationStore.progress,← mine,there]
        rfl
      by_cases old : ∃ item ∈ items, item.event_id = progress.event_id
      · -- the event is there: the store ignores it
        obtain ⟨item,member,same⟩ := old
        have stands : item ∈ w.store.progress progress.delegation_id := by rwa [mine,recorded]
        have resent : ∃ item ∈ w.store.progress request.delegation_id, item.event_id = progress.event_id :=
          ⟨item,mine ▸ stands,same⟩
        rw [bind_run_ok (stored_ok (repeated_unchanged stands same))]
        by_cases copyable : Copyable manager.kernel (progressFields child progress)
        · obtain ⟨ran,told⟩ := heard_published own heard copyable
          rw [ran]
          exact .again (fun faithful => (faithful mine few).1 resent copyable) told rfl
        · rw [unpublished copyable]
          exact .nothing (fun _ _ => ⟨fun _ => copyable,fun new => absurd resent (by simpa using new)⟩) heard rfl
      · have new : ∀ item ∈ items, item.event_id ≠ progress.event_id := fun item member same => old ⟨item,member,same⟩
        have fresh : ¬ ∃ item ∈ w.store.progress request.delegation_id, item.event_id = progress.event_id :=
          by rwa [recorded]
        by_cases next : progress.sequence = items.length + 1
        · -- the store takes it
          have added : (w.store.recording progress items there next new).progress request.delegation_id =
              w.store.progress request.delegation_id ++ [progress] := by
            rw [InMemoryDelegationStore.progress_recording,if_pos mine.symm,recorded]
          have stands : Heard manager request child
              { w with store := w.store.recording progress items there next new } published :=
            ⟨⟨heard.still.hears,rfl,fun _ => heard.known⟩,heard.copied⟩
          rw [bind_run_ok (stored_ok (append_next there new next))]
          by_cases copyable : Copyable manager.kernel (progressFields child progress)
          · obtain ⟨ran,told⟩ := heard_published own stands copyable
            rw [ran]
            exact .both (fun _ _ => ⟨fun resent => absurd resent fresh,fun _ _ => copyable⟩) told added
          · rw [unpublished copyable]
            exact .unheard (fun faithful => copyable ((faithful mine few).2 (recorded ▸ new) (recorded ▸ next)))
              stands added copyable
        · obtain ⟨exc,refused⟩ := append_gap there new next
          rw [bind_run_error (stored_error refused)]
          exact .nothing (fun _ _ => ⟨fun resent => absurd resent fresh,fun _ same => absurd (recorded ▸ same) next⟩)
            heard rfl
    · rw [if_neg (not_not.mpr mine),if_pos (not_le.mp few)]
      exact .nothing (fun _ within => absurd within few) heard rfl
  · rw [if_pos mine]
    exact .nothing (fun same => absurd same mine) heard rfl

/-! ### The run of a handler -/

/-- Events and records are out of step for good: a record that cannot be published, or more events than records. -/
def Broken (kernel : AgentKernel σ) (request : DelegationRequest) (child : KernelSession) (w : Realm σ)
    (published : List DelegationProgress) : Prop :=
  (∃ item ∈ w.store.progress request.delegation_id, ¬ Copyable kernel (progressFields child item)) ∨
    (w.store.progress request.delegation_id).length < published.length

/-- A record is missing among the events only when it cannot be published. -/
def Paced (kernel : AgentKernel σ) (request : DelegationRequest) (child : KernelSession) (w : Realm σ)
    (published : List DelegationProgress) : Prop :=
  (∃ item ∈ w.store.progress request.delegation_id, ¬ Copyable kernel (progressFields child item)) ∨
    (w.store.progress request.delegation_id).length ≤ published.length

theorem agrees_iff (heard : Heard manager request child w published) :
    Agrees request.delegation_id w ↔ published.map told = (w.store.progress request.delegation_id).map told := by
  have same : (published.map (progressFields child)).map tellings = published.map told := by
    rw [List.map_map]
    exact List.map_congr_left fun p _ => progress_tellings child p
  unfold Agrees
  rw [heard.still.hears.notes,same]

theorem broken_disagrees (heard : Heard manager request child w published)
    (broken : Broken manager.kernel request child w published) :
    ¬ Agrees request.delegation_id w := by
  intro agrees
  have same := (agrees_iff heard).mp agrees
  rcases broken with ⟨item,member,uncopied⟩ | more
  · have there : told item ∈ published.map told := by
      rw [same]
      exact List.mem_map_of_mem member
    obtain ⟨p,inside,equal⟩ := List.mem_map.mp there
    exact uncopied (progress_told equal ▸ heard.copied p inside)
  · have lengths := congrArg List.length same
    simp only [List.length_map] at lengths
    omega

/-- A call that returns published a record that was stored before, and had not been published till then. -/
def StoredFirst (manager : DelegationManager σ) (request : DelegationRequest) (child : KernelSession) (w : Realm σ)
    (progress : DelegationProgress) : Prop := ∀ w', (progress_sink manager request child progress).run w = (.ok (),w') →
  ∃ mid, (stored fun store => store.append_progress progress).run w = (.ok (),mid) ∧
    progress ∈ mid.store.progress request.delegation_id ∧
      notes request.delegation_id mid.shared = notes request.delegation_id w.shared ∧
    (onShared (publish manager.kernel "delegation.progress" (progressFields child progress))).run mid = (.ok (),w')

theorem faithful_stored (known : w.store.Started request.delegation_id)
    (faithful : Faithful manager.kernel request child w progress) :
    StoredFirst manager request child w progress := by
  intro w' ran
  unfold progress_sink at ran
  by_cases mine : progress.delegation_id = request.delegation_id
  · by_cases few : progress.sequence ≤ request.policy.max_steps
    · rw [if_neg (not_not.mpr mine),if_neg (not_lt.mpr few)] at ran
      obtain ⟨done,mid,kept,published⟩ := bind_returned ran
      have copyable : Copyable manager.kernel (progressFields child progress) := by
        by_contra uncopied
        simp only [onShared,publish] at published
        rcases copy : manager.kernel.host.deepcopy (.dict (progressFields child progress)) with exc | ok
        · rw [copy] at published
          cases published
        · exact uncopied copy
      obtain ⟨items,there⟩ : ∃ items, w.store.recorded.get progress.delegation_id = some items :=
        Dicts.Dict.get_of_mem_keys (by rw [mine,w.store.opened]; exact known)
      have recorded : w.store.progress request.delegation_id = items := by
        rw [InMemoryDelegationStore.progress,← mine,there]
        rfl
      have new : ∀ item ∈ items, item.event_id ≠ progress.event_id :=
        fun item member same => (faithful mine few).1 ⟨item,recorded ▸ member,same⟩ copyable
      by_cases next : progress.sequence = items.length + 1
      · rw [stored_ok (append_next there new next)] at kept
        cases kept
        refine ⟨_,stored_ok (append_next there new next),?_,rfl,published⟩
        rw [InMemoryDelegationStore.progress_recording,if_pos mine.symm]
        exact List.mem_append_right _ (List.mem_singleton_self _)
      · obtain ⟨exc,refused⟩ := append_gap there new next
        rw [stored_error refused] at kept
        cases kept
    · rw [if_neg (not_not.mpr mine),if_pos (not_le.mp few)] at ran
      cases ran
  · rw [if_pos mine] at ran
    cases ran

/-- What a run does to events and records: they stay in step as long as the calls are faithful, and are out of
    step for good from the first other one. -/
structure Course (manager : DelegationManager σ) (request : DelegationRequest) (child : KernelSession) (w : Realm σ)
    (published : List DelegationProgress) (calls : List (Realm σ × DelegationProgress)) (w' : Realm σ) : Prop where
  known : ∀ call ∈ calls, call.1.store.Started request.delegation_id
  keeps : Agrees request.delegation_id w → (∀ call ∈ calls, Faithful manager.kernel request child call.1 call.2) →
    Agrees request.delegation_id w' ∧ ∀ call ∈ calls, Agrees request.delegation_id call.1
  breaks : Broken manager.kernel request child w published ∨
    (∃ call ∈ calls, ¬ Faithful manager.kernel request child call.1 call.2) →
    ¬ Agrees request.delegation_id w'
  heard : ∃ more, Heard manager request child w' more

theorem course_nil (heard : Heard manager request child w published) :
    Course manager request child w published [] w where
  known := by simp
  keeps agrees _ := ⟨agrees,by simp⟩
  breaks broken := by
    rcases broken with broken | ⟨call,member,-⟩
    · exact broken_disagrees heard broken
    · cases member
  heard := ⟨published,heard⟩

theorem course_still {calls : List (Realm σ × DelegationProgress)} {w' w'' : Realm σ}
    (first : Still manager.kernel request.delegation_id (notes request.delegation_id w.shared)
      (w.store.progress request.delegation_id)
      True w')
    (rest : Course manager request child w' published calls w'') :
      Course manager request child w published calls w'' := by
  have agrees : Agrees request.delegation_id w → Agrees request.delegation_id w' := by
    intro agrees
    unfold Agrees
    rw [first.hears.notes,first.recorded]
    exact agrees
  refine ⟨rest.known,fun now faithful => rest.keeps (agrees now) faithful,fun broken => rest.breaks ?_,rest.heard⟩
  exact broken.imp_left fun broken => by rwa [Broken,first.recorded]

/-- What one call does to events and records. -/
theorem sunk_steps {w' : Realm σ} (heard : Heard manager request child w published)
    (paced : Paced manager.kernel request child w published)
    (first : Sunk manager request child w progress published w') : ∃ more, Heard manager request child w' more ∧
      Paced manager.kernel request child w' more ∧
      (Agrees request.delegation_id w → Faithful manager.kernel request child w progress →
        Agrees request.delegation_id w') ∧
      (Broken manager.kernel request child w published ∨ ¬ Faithful manager.kernel request child w progress →
        Broken manager.kernel request child w' more) := by
  cases first with
  | nothing faithful stands same =>
    refine ⟨published,stands,by rwa [Paced,same],fun agrees _ => ?_,fun broken => ?_⟩
    · rw [agrees_iff stands,same]
      exact (agrees_iff heard).mp agrees
    · rw [Broken,same]
      exact broken.resolve_right (not_not.mpr faithful)
  | both faithful stands more =>
    have members : ∀ {P : DelegationProgress → Prop}, (∃ item ∈ w.store.progress request.delegation_id, P item) →
        ∃ item ∈ w.store.progress request.delegation_id ++ [progress], P item :=
      fun ⟨item,member,holds⟩ => ⟨item,List.mem_append_left _ member,holds⟩
    refine ⟨published ++ [progress],stands,?_,fun agrees _ => ?_,fun broken => ?_⟩
    · rw [Paced,more]
      exact paced.imp members fun few => by simpa using few
    · rw [agrees_iff stands,more,List.map_append,List.map_append,(agrees_iff heard).mp agrees]
    · rw [Broken,more]
      exact (broken.resolve_right (not_not.mpr faithful)).imp members fun few => by simpa using few
  | again unfaithful stands same =>
    refine ⟨published ++ [progress],stands,?_,fun _ faithful => absurd faithful unfaithful,fun _ => ?_⟩
    · rw [Paced,same]
      exact paced.imp_right fun few => by simp; omega
    · rw [Broken,same]
      exact paced.imp_right fun few => by simp; omega
  | unheard unfaithful stands more uncopied =>
    have missing : ∃ item ∈ w'.store.progress request.delegation_id, ¬ Copyable manager.kernel
      (progressFields child item) :=
      ⟨progress,by rw [more]; exact List.mem_append_right _ (List.mem_singleton_self _),uncopied⟩
    exact ⟨published,stands,.inl missing,fun _ faithful => absurd faithful unfaithful,fun _ => .inl missing⟩

/-- One call, and then the rest of the run. -/
theorem course_cons {calls : List (Realm σ × DelegationProgress)} {w' w'' : Realm σ}
    (heard : Heard manager request child w published)
    (paced : Paced manager.kernel request child w published)
      (first : Sunk manager request child w progress published w')
    (rest : ∀ more, Heard manager request child w' more → Paced manager.kernel request child w' more →
      Course manager request child w' more calls w'') :
    Course manager request child w published ((w,progress) :: calls) w'' := by
  obtain ⟨more,stands,paced',kept,broke⟩ := sunk_steps heard paced first
  have later := rest more stands paced'
  refine ⟨List.forall_mem_cons.mpr ⟨heard.known,later.known⟩,fun agrees faithful => ?_,fun broken =>
    later.breaks ?_,later.heard⟩
  · obtain ⟨here,others⟩ := List.forall_mem_cons.mp faithful
    obtain ⟨ends,between⟩ := later.keeps (kept agrees here) others
    exact ⟨ends,List.forall_mem_cons.mpr ⟨agrees,between⟩⟩
  · rcases broken with broken | ⟨call,member,unfaithful⟩
    · exact .inl (broke (.inl broken))
    · rcases List.mem_cons.mp member with rfl | further
      · exact .inl (broke (.inr unfaithful))
      · exact .inr ⟨call,further,unfaithful⟩

theorem heard_begun (heard : Heard manager request child w published) : Still manager.kernel request.delegation_id
    (notes request.delegation_id w.shared) (w.store.progress request.delegation_id) True w :=
  ⟨⟨rfl,heard.still.hears.drawn⟩,rfl,fun _ => heard.known⟩

theorem heard_still {w' : Realm σ} (heard : Heard manager request child w published)
    (still : Still manager.kernel request.delegation_id (notes request.delegation_id w.shared)
      (w.store.progress request.delegation_id)
      True w') : Heard manager request child w' published :=
  ⟨⟨⟨still.hears.notes.trans heard.still.hears.notes,still.hears.drawn⟩,rfl,still.known⟩,heard.copied⟩

/-- The run of a handler, whatever it does in between. -/
theorem conduct_course (deeper : ∀ id heard records session target spec policy,
      Keeps (Still manager.kernel id heard records True) (again session target spec policy))
    (own : child.identity.delegation_id = some request.delegation_id) (behaviour : Behaviour σ)
    (heard : Heard manager request child w published) (paced : Paced manager.kernel request child w published) :
    Course manager request child w published (sent manager again request i child behaviour w)
      ((conduct manager again request i child behaviour).run w).2 := by
  induction behaviour generalizing w published with
  | returns result => exact course_nil heard
  | raises exc => exact course_nil heard
  | acts act next ih =>
    have kept := (perform_still (deeper _ _ _) i act).caught w (heard_begun heard)
    rcases ran : (caught (perform manager again i act)).run w with ⟨stop | answer,w'⟩
    · rw [ran] at kept
      rw [sent,conduct,bind_run_error ran,ran]
      exact course_still kept (course_nil (heard_still heard kept))
    · rw [ran] at kept
      rw [sent,conduct,bind_run_ok ran,ran]
      exact course_still kept (ih answer (heard_still heard kept) (by rwa [Paced,kept.recorded]))
  | reports progress next ih =>
    have first := @sink_cases _ manager request child w progress published own heard
    have sunk : Sunk manager request child w progress published
      ((caught (progress_sink manager request child progress)).run w).2 :=
      Keeps.caught_at first
    rcases ran : (caught (progress_sink manager request child progress)).run w with ⟨stop | answer,w'⟩
    · rw [ran] at sunk
      rw [sent,conduct,bind_run_error ran,ran]
      exact course_cons heard paced sunk fun more stands _ => course_nil stands
    · rw [ran] at sunk
      rw [sent,conduct,bind_run_ok ran,ran]
      exact course_cons heard paced sunk fun more stands paced' => ih answer stands paced'

end

/-! ### A delegation -/

/-- What the handler of a delegation gets, and the records that it sends. -/
structure Handling (σ : Type) where
  request : DelegationRequest
  child : KernelSession
  calls : List (Realm σ × DelegationProgress)

/-- The events of a delegation are its records, in the end and whenever the handler calls, numbered from 1, and each record
    is stored before it is published. -/
structure InStep (manager : DelegationManager σ) (id : String) (handled : Option (Handling σ)) (w : Realm σ) :
    Prop where
  agrees : Agrees id w
  numbered : ∃ n : Nat, (notes id w.shared).map (·.get "sequence") = (List.range n).map fun k : Nat => .int (k + 1)
  always : ∀ h ∈ handled, ∀ call ∈ h.calls, Agrees id call.1
  storedFirst : ∀ h ∈ handled, ∀ call ∈ h.calls, StoredFirst manager h.request h.child call.1 call.2

theorem agrees_numbered {w : Realm σ} (agrees : Agrees id w) :
    ∃ n : Nat, (notes id w.shared).map (·.get "sequence") = (List.range n).map fun k : Nat => .int (k + 1) := by
  have second : ∀ payload : Fields, payload.get "sequence" = (tellings payload).getD 1 .null := fun payload => rfl
  have numbers := (InMemoryDelegationStore.progress_numbered w.store id).sequences
  refine ⟨(w.store.progress id).length,?_⟩
  calc (notes id w.shared).map (·.get "sequence")
      = ((notes id w.shared).map tellings).map (·.getD 1 .null) := by rw [List.map_map]; rfl
    _ = ((w.store.progress id).map DelegationProgress.sequence).map .int :=
      by rw [agrees,List.map_map,List.map_map]; rfl
    _ = _ := by rw [numbers,List.map_map]; rfl

theorem agrees_still {w w' : Realm σ} (still : Still kernel id (notes id w.shared) (w.store.progress id) since w') :
    Agrees id w' ↔ Agrees id w := by
  unfold Agrees
  rw [still.hears.notes,still.recorded]

section
variable {manager : DelegationManager σ} {again : Delegate σ} {request : DelegationRequest} {child : KernelSession}
variable {w w' : Realm σ} {parent_session : Nat} {target : String} {spec : DelegationSpec} {policy :
  Option DelegationPolicy}
variable {r : DelegationResult}

/-- Working leaves the world as the handler does. -/
theorem worked_world {i : Nat} (handler : DelegationPort σ) (there : w.sessions[i]? = some child) :
    ((worked manager again request handler i).run w).2 =
      ((conduct manager again request i child (handler.run request child)).run w).2 := by
  obtain ⟨left,here⟩ : ∃ left, left = ((conduct manager again request i child (handler.run request child)).run w).2 :=
    ⟨_,rfl⟩
  unfold worked
  rw [bind_run_ok (sessionAt_run there),← here]
  refine Keeps.bind_at (I := (· = left)) (Keeps.caught_at (I := (· = left)) (here ▸ attempted_world handler))
    fun outcome v _ kept => ?_
  cases outcome with
  | ok result => exact kept
  | error exc => exact Keeps.bind (I := (· = left)) (Keeps.read _) (fun _ => Keeps.lift _) v kept

/-- Without a handler nothing is recorded and nothing heard. -/
theorem inStep_quiet (still : Still manager.kernel id [] [] since w) : InStep manager id Option.none w ↔
    ∀ h ∈ (Option.none : Option (Handling σ)), ∀ call ∈ h.calls,
      Faithful manager.kernel h.request h.child call.1 call.2 := by
  have agrees : Agrees id w := by
    unfold Agrees
    rw [still.hears.notes,still.recorded]
    rfl
  exact ⟨fun _ => by simp,fun _ => ⟨agrees,agrees_numbered agrees,by simp,by simp⟩⟩

section
variable [Setoid DelegationResult] [DecidableRel fun r s : DelegationResult => r ≈ s]

/-- The handling in a delegation from a session, unless the delegation is refused. -/
def handling (manager : DelegationManager σ) (parent_session : Nat) (target : String) (spec : DelegationSpec)
    (policy : Option DelegationPolicy) (w : Realm σ) : Option (Handling σ) :=
  match w.sessions[parent_session]? with
  | none => none
  | some parent =>
    match manager.policy.validate parent (policy.getD {}) with
    | .error _ => none
    | .ok active_policy =>
      let request := { requestOf manager.kernel w parent target spec policy with policy := active_policy }
      let again := nested manager manager.policy.max_depth.toNat
      match (caught (assigned manager parent_session request)).run
        ((started manager parent request).run (Realm.drew w)).2 with
      | (.ok (.ok (handler,i)),w') =>
        (w'.sessions[i]?).map fun child => ⟨request,child,sent manager again request i child (handler.run request
          child) w'⟩
      | _ => none

/-- A delegation that returned began in an open session, with a target and an objective. -/
theorem delegation_returned (ran : (delegation manager again parent_session target spec policy).run w = (.ok r,w')) :
    ∃ parent, w.sessions[parent_session]? = some parent ∧ parent.is_active = true ∧ target ≠ "" ∧
      spec.objective ≠ "" := by
  unfold delegation at ran
  obtain ⟨parent,w₁,found,rest⟩ := bind_returned ran
  obtain ⟨there,same⟩ := sessionAt_returned found
  by_cases active : parent.is_active = true
  · rw [if_neg (not_not.mpr active)] at rest
    by_cases someone : target = ""
    · rw [if_pos someone] at rest
      cases rest
    · by_cases something : spec.objective = ""
      · rw [if_neg someone,if_pos something] at rest
        cases rest
      · exact ⟨parent,there,active,someone,something⟩
  · rw [if_pos active] at rest
    cases rest

/-- In any delegation that returns, the events are the records exactly when every call of the handler is faithful. -/
theorem progress_in_step_iff (new : ¬ w.store.Started (manager.kernel.host.hex w.shared.draws))
    (silent : notes (manager.kernel.host.hex w.shared.draws) w.shared = [])
    (ran : (delegate manager parent_session target spec policy).run w = (.ok r,w')) :
    InStep manager (manager.kernel.host.hex w.shared.draws) (handling manager parent_session target spec policy w) w' ↔
      ∀ h ∈ handling manager parent_session target spec policy w, ∀ call ∈ h.calls,
        Faithful manager.kernel h.request h.child call.1 call.2 := by
  obtain ⟨parent,there,active,someone,something⟩ := delegation_returned ran
  have decides : (decided manager (nested manager manager.policy.max_depth.toNat) parent_session parent
      (requestOf manager.kernel w parent target spec policy)).run (Realm.drew w) = (.ok r,w') :=
    (delegation_run there active someone something).symm.trans ran
  have deeper : ∀ id heard records session target spec policy, Keeps (Still manager.kernel id heard records True)
      (nested manager manager.policy.max_depth.toNat session target spec policy) := fun _ _ _ => nested_still _
  have none : w.store.progress (manager.kernel.host.hex w.shared.draws) = [] := by
    by_contra some
    exact new (InMemoryDelegationStore.progress_started some)
  have drawn : ∀ n, w.shared.draws + 1 ≤ n → manager.kernel.host.hex w.shared.draws ≠ manager.kernel.host.hex n := by
    intro n later same
    have := manager.kernel.host.hex_injective _ _ same
    omega
  unfold handling
  rw [there]
  dsimp only
  unfold decided at decides
  have same : (requestOf manager.kernel w parent target spec policy).policy = policy.getD {} := rfl
  rw [same] at decides
  rcases valid : manager.policy.validate parent (policy.getD {}) with exc | active_policy
  · -- a refused policy: nothing is recorded and nothing heard
    rw [valid] at decides
    have begun : Still manager.kernel (manager.kernel.host.hex w.shared.draws) [] [] False (Realm.drew w) :=
      ⟨⟨silent,drawn⟩,none,False.elim⟩
    have ended := Keeps.ran (Keeps.bind (started_still parent) fun _ => Keeps.bind (Keeps.lift _) fun _ => _finish_still _ _ _)
      begun decides
    exact inStep_quiet ended
  · rw [valid] at decides
    dsimp only at decides ⊢
    generalize given : ({ requestOf manager.kernel w parent target spec policy with policy := active_policy } :
      DelegationRequest) =
      request at decides ⊢
    have identifier : manager.kernel.host.hex w.shared.draws = request.delegation_id := by rw [← given]; rfl
    rw [identifier] at new silent none drawn ⊢
    have ran_started := @started_run _ manager w parent request new
    have begun : Still manager.kernel request.delegation_id [] [] False (Realm.drew w) :=
      ⟨⟨silent,drawn⟩,none,False.elim⟩
    have stands := Keeps.ran (started_still parent) begun ran_started
    have opened : Still manager.kernel request.delegation_id [] [] True (Realm.opened w parent request new) :=
      ⟨stands.hears,stands.recorded,fun _ => Dicts.Dict.mem_keys_put.mpr (.inl rfl)⟩
    have kept := (@assigned_still _ _ _ _ _ manager request parent_session).caught _ opened
    unfold carried at decides
    rw [bind_run_ok ran_started] at decides
    rw [ran_started]
    dsimp only
    rcases assigning : (caught (assigned manager parent_session request)).run (Realm.opened w parent request new) with
      ⟨stop | exc | ⟨handler,i⟩,w₂⟩
    · rw [bind_run_error assigning] at decides
      cases decides
    · rw [assigning] at kept
      rw [bind_run_ok assigning] at decides
      exact inStep_quiet (Keeps.ran (Keeps.bind (Keeps.lift _) fun _ => _finish_still _ _ _) kept decides)
    · rw [assigning] at kept
      rw [bind_run_ok assigning] at decides
      obtain ⟨child,found,own⟩ := assigned_child (caught_returned assigning)
      have heard : Heard manager request child w₂ [] := ⟨⟨kept.hears,rfl,kept.known⟩,by simp⟩
      have paced : Paced manager.kernel request child w₂ [] := .inr (by simp [kept.recorded])
      have agrees : Agrees request.delegation_id w₂ := by
        rw [agrees_iff heard,kept.recorded]
      have course := conduct_course (i := i) deeper own (handler.run request child) heard paced
      obtain ⟨result,w₃,working,rest⟩ := bind_returned decides
      have left := @worked_world _ manager (nested manager manager.policy.max_depth.toNat) request child w₂ i handler
        found
      rw [working] at left
      rw [← left] at course
      obtain ⟨more,heard'⟩ := course.heard
      have ended := Keeps.ran (Keeps.bind (settled_still _ _) fun _ => _finish_still _ _ _)
        (heard_begun heard') rest
      dsimp only
      rw [found,Option.map_some]
      constructor
      · intro inStep h member call inside
        cases member
        by_contra unfaithful
        exact course.breaks (.inr ⟨call,inside,unfaithful⟩) ((agrees_still ended).mp inStep.agrees)
      · intro faithful
        have all := faithful _ rfl
        obtain ⟨agreed,always⟩ := course.keeps agrees all
        have final := (agrees_still ended).mpr agreed
        refine ⟨final,agrees_numbered final,fun h member call inside => ?_,fun h member call inside => ?_⟩
        · cases member
          exact always call inside
        · cases member
          exact faithful_stored (course.known call inside) (all call inside)

end
end
end

/-! ### Records sent once and twice -/

def surveyed (manager : DelegationManager Unit) : Option (Handling Unit) :=
  letI := sameResult
  handling manager 0 "agent:survey" ⟨"map the area",[],[],[]⟩ none lobby

theorem survey_returned {manager : DelegationManager Unit} (returns : (survey manager).1.toBool = true) :
    ∃ r, survey manager = (.ok r,(survey manager).2) := by
  rcases ran : survey manager with ⟨stop | r,w'⟩
  · rw [ran] at returns
    cases returns
  · exact ⟨r,rfl⟩

/-- One record, sent once. -/
theorem survey_in_step : InStep surveying (surveying.kernel.host.hex 0) (surveyed surveying) (survey surveying).2 := by
  obtain ⟨r,ran⟩ := @survey_returned surveying (by decide +kernel)
  let _ : Setoid DelegationResult := sameResult
  have new : ¬ lobby.store.Started (surveying.kernel.host.hex lobby.shared.draws) := by decide
  refine (progress_in_step_iff new rfl ran).mpr ?_
  intro h member call inside
  cases member
  cases List.mem_singleton.mp inside
  exact fun _ _ => ⟨fun resent => absurd resent (by decide),fun _ _ => rfl⟩

/-- A handler that sends its record twice. -/
def stutterer : DelegationPort Unit where
  name := "stutterer"
  can_handle target := .ok (target = "agent:survey")
  run request _ :=
    let progress : DelegationProgress := ⟨request.delegation_id,1,"e1",⟨"a1","note",[("text",.str
      "half way")],1⟩,.running⟩
    .reports progress fun _ => .reports progress fun _ => .raises (.RuntimeError "lost")

def stuttering : DelegationManager Unit := ⟨echoKernel [],[stutterer],{}⟩

/-- A record that is sent again is published again. -/
theorem resent_published_twice : (survey stuttering).1.toBool = true ∧
    ((survey stuttering).2.store.progress (stuttering.kernel.host.hex 0)).length = 1 ∧
    (notes (stuttering.kernel.host.hex 0) (survey stuttering).2.shared).length = 2 ∧
    ¬ InStep stuttering (stuttering.kernel.host.hex 0) (surveyed stuttering) (survey stuttering).2 := by
  have once : ((survey stuttering).2.store.progress (stuttering.kernel.host.hex 0)).length = 1 := by decide +kernel
  have twice : (notes (stuttering.kernel.host.hex 0) (survey stuttering).2.shared).length = 2 := by decide +kernel
  refine ⟨by decide +kernel,once,twice,fun inStep => ?_⟩
  have lengths := congrArg List.length inStep.agrees
  rw [List.length_map,List.length_map,once,twice] at lengths
  cases lengths

end HexAgent.Notifications
