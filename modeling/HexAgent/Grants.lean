import HexAgent.Conclusions
import HexAgent.Scripted

/-!
What a worker may do. A round delegates under the policy of the assignment only, so a
child has at most what the assignment grants and what the supervisor has, with one
exception: a policy that grants nothing is taken for one that inherits everything.
-/
namespace HexAgent.Grants
open HexAgent.Values HexAgent.Board HexAgent.Commands HexAgent.Contracts HexAgent.Events HexAgent.Supervisor HexAgent.Graph
open HexAgent.Moves HexAgent.Nodes HexAgent.Schemas HexAgent.Kernel HexAgent.DelegationStore HexAgent.Sessions HexAgent.Delegation
open HexAgent.Conclusions HexAgent.Scripted HexAgent.Loop HexAgent.Envelopes Journals Programs

/-! ### What a round asks for -/

/-- Delegations meet `P`; nothing is said of other events. -/
def Granting (P : String → DelegationSpec → DelegationPolicy → Prop) : Event → Prop
  | .asked (.delegate target spec policy) => P target spec policy
  | _ => True

/-- The rules that constrain delegations only. -/
def askRules (P : String → DelegationSpec → DelegationPolicy → Prop) : Rules TaskLoopState Event :=
  ⟨fun _ _ _ => True,fun _ => Granting P,fun _ => True⟩

section
variable {P : String → DelegationSpec → DelegationPolicy → Prop} {ctx : SupervisorContext} {w : World}

theorem granting_usual : Usual (Granting P) where
  asks op routine := by
    cases op with
    | delegate target spec policy => cases routine
    | _ => trivial
  emits _ _ _ := trivial
  accepts _ := trivial

theorem obeys_asks {w' : World} (obeys : Obeys (roundRules (Granting P)) w w') : Obeys (askRules P) w w' := by
  obtain ⟨more,journal,follows,board⟩ := obeys
  refine ⟨more,journal,follows_mono (fun _ _ _ _ => trivial) (fun s e allowed => ?_) (fun _ _ => trivial) follows,board⟩
  cases e with
  | asked op =>
    cases op with
    | delegate target spec policy => exact allowed.2
    | _ => trivial
  | _ => trivial

theorem runs_asks {α : Type} {m : Sup α} {Q : α → World → Prop} (runs : Runs (Obeys (roundRules (Granting P))) m w Q) :
    Runs (Obeys (askRules P)) m w Q := runs.coarsen fun _ => obeys_asks

/-- A turn asks for one delegation, under the policy of the assignment. -/
theorem worker_turn_asks {a : AgentAssignment} (granted : ∀ spec, P a.agent_id spec (policyOf a)) :
    Runs (Obeys (askRules P)) (worker_turn ctx a) w fun _ _ => True := by
  unfold worker_turn
  refine runs_board (Runs.bind (runs_asks (store_slice_spec granting_usual a w.board)) fun slice w₁ _ _ => ?_)
  refine runs_ask trivial fun packet _ => Runs.ite (fun _ => Runs.raise) fun _ => ?_
  refine Runs.bind (M := fun _ _ => True) (runs_board (runs_write trivial (Runs.pure trivial))) fun packet_id w₂ _ _ => ?_
  refine runs_ask (granted _) fun result _ => ?_
  refine Runs.bind (M := fun _ _ => True) ?_ fun _ w₃ _ _ => ?_
  · exact Runs.each trivial fun art _ w' _ _ => Runs.update (obeys_wrote trivial) trivial
  refine Runs.bind (M := fun _ _ => True) (runs_board (runs_write trivial (Runs.pure trivial))) fun result_id w₄ _ _ => ?_
  refine runs_write trivial (runs_emit (fun _ => trivial) fun w₅ _ _ => ?_)
  exact (save_spec (fun _ _ => trivial) trivial).mono fun _ _ _ _ => trivial

/-- A round asks only for delegations of the calls of the decision, each under the policy of
    its assignment. -/
theorem run_round_asks {decision : OrchestratorDecision} (granted : ∀ a, CallOf ctx decision a → ∀ spec, P a.agent_id spec (policyOf a)) :
    Runs (Obeys (askRules P)) (run_round ctx decision) w fun _ _ => True := by
  unfold run_round
  refine runs_board (Runs.bind (runs_asks (splitCalls_spec granting_usual decision)) fun expansion w₁ _ ⟨same,calls,admits⟩ => ?_)
  have noisy : Noisy (Granting P) := fun _ _ => trivial
  refine Runs.bind (runs_asks (admitMembers_spec granting_usual (departments_called admits) (.inl noisy))) fun _ w₂ _ _ => ?_
  refine Runs.bind_lift fun _ _ => runs_board ?_
  refine Runs.bind (M := fun _ _ => True) ?_ fun _ w₃ _ _ => Runs.update (obeys_wrote trivial) trivial
  refine Runs.fold trivial fun a member done w₃ _ _ => Runs.ite (fun _ => Runs.pure trivial) fun _ => ?_
  exact Runs.bind (worker_turn_asks (granted a (calls a member))) fun _ _ _ _ => Runs.pure trivial

theorem follows_asked {s : TaskLoopState} {more : Journal} (follows : Follows (askRules P) s more) {target : String}
    {spec : DelegationSpec} {policy : DelegationPolicy} (asked : .noted (.asked (.delegate target spec policy)) ∈ more) :
    P target spec policy := by
  induction more generalizing s with
  | nil => cases asked
  | cons entry rest ih =>
    rcases List.mem_cons.mp asked with rfl | later
    · exact follows.1
    · cases entry with
      | wrote cause t => exact ih follows.2 later
      | saved t => exact ih follows.2 later
      | noted event => exact ih follows.2 later

end

/-! ### The sessions of later delegations -/

section
variable {σ : Type} {manager : DelegationManager σ}

/-- All but the known sessions are children of delegations from some number on. -/
def Younger (kernel : AgentKernel σ) (first known : Nat) (w : Realm σ) : Prop :=
  first ≤ w.shared.draws ∧ ∀ who ∈ (w.sessions.map KernelSession.fixed).drop known,
    ∃ n, first ≤ n ∧ who.1.delegation_id = some (kernel.host.hex n)

theorem younger_onward {kernel : AgentKernel σ} {first known : Nat} {w w' : Realm σ} (younger : Younger kernel first known w)
    (onward : w ≤ w') (same : w'.sessions.map KernelSession.fixed = w.sessions.map KernelSession.fixed) :
    Younger kernel first known w' := ⟨younger.1.trans onward.1.2,by rw [same]; exact younger.2⟩

/-- Every step of the sessions keeps that. -/
theorem younger_stable (first known : Nat) : Stable manager (Younger manager.kernel first known) where
  publish _ _ w younger := younger_onward younger ((onShared (publish manager.kernel _ _)).onward w) rfl
  draw w younger := younger_onward younger ((onShared (draw manager.kernel)).onward w) rfl
  outside change w younger := younger_onward younger ((onShared (changeHeap change)).onward w) rfl
  stored call w younger := younger_onward younger ((stored call).onward w) rfl
  alter i change same w younger := younger_onward younger ((alter i change same).onward w) (modify_fixed same w.sessions i)
  execute_tool i tool_name args := by
    refine Keeps.bind (Stable.sessionAt i) fun session => Keeps.ite (fun w younger => ?_) (Keeps.pure _)
    exact younger_onward younger (Prog.onward _ w) rfl
  assigned before w parent_session request earlier onward younger drawn _ := by
    rcases @assigned_cases _ manager w request parent_session with ⟨exc,raised⟩ | ⟨handler,parent,-,-,-,made⟩
    · rw [raised]
      exact younger
    · rw [made]
      refine ⟨younger.1.trans (Nat.le_add_right ..),fun who new => ?_⟩
      simp only [Realm.enrolled,List.map_append,List.drop_append,List.mem_append] at new
      rcases new with old | child
      · exact younger.2 who old
      · obtain rfl := List.mem_singleton.mp (List.mem_of_mem_drop child)
        exact ⟨before.shared.draws,earlier.1,congrArg some drawn⟩

/-! ### The child of a delegation -/

/-- A delegation from this session gets as far as a child. -/
structure Opens (manager : DelegationManager σ) (w : Realm σ) (supervisor : KernelSession) (target : String)
    (spec : DelegationSpec) (policy : DelegationPolicy) : Prop where
  active : supervisor.is_active = true
  someone : target ≠ ""
  something : spec.objective ≠ ""
  new : manager.kernel.host.hex w.shared.draws ∉ w.store.requests.keys
  valid : ∃ active_policy, manager.policy.validate supervisor policy = .ok active_policy
  resolved : ∃ handler, manager.registry.resolve target = .ok handler

/-- The scope of the child: a policy that grants nothing inherits the scope of the supervisor. -/
def childScope (supervisor : KernelSession) (policy : DelegationPolicy) : Finset String :=
  orInherited policy.allowed_capabilities supervisor.allowed_capabilities

section
variable [Setoid DelegationResult] [DecidableRel fun r s : DelegationResult => r ≈ s]
variable {w : Realm σ} {supervisor : KernelSession} {parent_session : Nat} {target : String} {spec : DelegationSpec}
variable {policy : DelegationPolicy}

/-- A delegation that gets no further makes no session. -/
theorem unopened_sessions (there : w.sessions[parent_session]? = some supervisor)
    (unopened : ¬ Opens manager w supervisor target spec policy) :
    ((delegate manager parent_session target spec (some policy)).run w).2.sessions = w.sessions := by
  have idle : IsEmpty (Work manager w parent_session target spec (some policy)) := by
    refine ⟨fun work => unopened ?_⟩
    obtain rfl : work.parent = supervisor := Option.some.inj (work.there.symm.trans there)
    exact ⟨work.active,work.someone,work.something,work.new,⟨_,work.valid⟩,_,work.resolved⟩
  exact (idle_runs idle).moves.2

/-- A delegation that gets that far makes one child of its own. -/
theorem opened_child (there : w.sessions[parent_session]? = some supervisor)
    (opens : Opens manager w supervisor target spec policy) :
    ∃ child rest, (((delegate manager parent_session target spec (some policy)).run w).2.sessions.map KernelSession.fixed) =
        w.sessions.map KernelSession.fixed ++ child :: rest ∧
      child.1.delegation_id = some (manager.kernel.host.hex w.shared.draws) ∧ child.2 = childScope supervisor policy ∧
      ∀ who ∈ rest, who.1.delegation_id ≠ some (manager.kernel.host.hex w.shared.draws) := by
  obtain ⟨active,someone,something,new,⟨active_policy,valid⟩,handler,resolved⟩ := opens
  obtain ⟨-,-,-,-,inForce⟩ := validate_ok_iff.mp valid
  let work : Work manager w parent_session target spec (some policy) :=
    ⟨supervisor,active_policy,handler,there,active,someone,something,new,valid,resolved⟩
  let rest : Act σ DelegationResult := do
    let result ← worked manager (nested manager manager.policy.max_depth.toNat) work.request handler w.sessions.length
    settled manager w.sessions.length result
    _finish manager supervisor target result
  -- what follows makes sessions of later delegations only
  have stable := @younger_stable _ manager (w.shared.draws + 1) (w.sessions.length + 1)
  have keeps : Keeps (Younger manager.kernel (w.shared.draws + 1) (w.sessions.length + 1)) rest :=
    Keeps.bind (stable.worked (stable.nested _) _ _ _) fun _ => Keeps.bind (stable.settled _ _) fun _ => stable._finish _ _ _
  have known : work.world.sessions.map KernelSession.fixed = w.sessions.map KernelSession.fixed ++ [work.session.fixed] :=
    List.map_append
  have younger := keeps work.world ⟨Nat.le_add_right _ 2,by rw [known,List.drop_of_length_le (by simp)]; nofun⟩
  obtain ⟨more,same⟩ := (rest.onward work.world).2
  rw [known,List.append_assoc,List.singleton_append] at same
  rw [show (delegate manager parent_session target spec (some policy)).run w = rest.run work.world from work_run work]
  refine ⟨work.session.fixed,more,same.symm,rfl,congrArg DelegationPolicy.allowed_capabilities inForce,fun who later own => ?_⟩
  obtain ⟨n,young,id⟩ := younger.2 who (by rw [← same,List.append_cons,List.drop_left' (by simp)]; exact later)
  have := manager.kernel.host.hex_injective _ _ (Option.some.inj (own.symm.trans id))
  omega

/-! ### What the worker of a round gets -/

/-- The child that a delegation made, if it made one, has at most what the assignment grants
    and what the supervisor has. -/
def Confers (manager : DelegationManager σ) (a : AgentAssignment) (supervisor : KernelSession) (w w' : Realm σ) : Prop :=
  ∀ child ∈ w'.sessions.drop w.sessions.length, child.identity.delegation_id = some (manager.kernel.host.hex w.shared.draws) →
    child.allowed_capabilities ⊆ a.allowed_capabilities.toFinset ∧ child.allowed_capabilities ⊆ supervisor.allowed_capabilities

/-- The grant of an assignment is passed on, but for an empty one: it takes the scope of the
    supervisor. -/
theorem confers_iff (a : AgentAssignment) (there : w.sessions[parent_session]? = some supervisor) :
    Confers manager a supervisor w ((delegate manager parent_session target spec (some (policyOf a))).run w).2 ↔
      a.allowed_capabilities ≠ [] ∨ supervisor.allowed_capabilities = ∅ ∨ ¬ Opens manager w supervisor target spec (policyOf a) := by
  by_cases opens : Opens manager w supervisor target spec (policyOf a)
  · obtain ⟨child,rest,same,id,scope,others⟩ := opened_child there opens
    have added := congrArg (List.drop w.sessions.length) same
    rw [← List.map_drop,List.drop_left' (by simp)] at added
    obtain ⟨made,later,split,rfl,fixed⟩ := List.map_eq_cons_iff.mp added
    have own : Confers manager a supervisor w ((delegate manager parent_session target spec (some (policyOf a))).run w).2 ↔
        childScope supervisor (policyOf a) ⊆ a.allowed_capabilities.toFinset ∧
          childScope supervisor (policyOf a) ⊆ supervisor.allowed_capabilities := by
      unfold Confers
      rw [split,List.forall_mem_cons,← scope]
      refine ⟨fun both => both.1 id,fun within => ⟨fun _ => within,fun session member same => ?_⟩⟩
      exact absurd same (others _ (fixed ▸ List.mem_map_of_mem member))
    obtain ⟨active_policy,valid⟩ := opens.valid
    have within : childScope supervisor (policyOf a) ⊆ supervisor.allowed_capabilities := (validate_ok_iff.mp valid).2.2.2.1
    rw [own]
    by_cases nothing : a.allowed_capabilities = []
    · have inherited : childScope supervisor (policyOf a) = supervisor.allowed_capabilities := by
        simp [childScope,orInherited,policyOf,nothing]
      rw [inherited]
      simp [nothing,opens]
    · have requested : childScope supervisor (policyOf a) = a.allowed_capabilities.toFinset := by
        simp [childScope,orInherited,policyOf,nothing]
      rw [requested] at within ⊢
      exact ⟨fun _ => .inl nothing,fun _ => ⟨subset_rfl,within⟩⟩
  · refine ⟨fun _ => .inr (.inr opens),fun _ child member => ?_⟩
    rw [unopened_sessions there opens,List.drop_length] at member
    cases member

/-- A round delegates only for calls of the decision. The child, if there is one, has at most
    what the assignment grants and what the supervisor has, exactly unless the assignment
    grants nothing and there is something to inherit. -/
theorem round_grants_iff (ctx : SupervisorContext) (decision : OrchestratorDecision) (board : World)
    (asked : .noted (.asked (.delegate target spec policy)) ∈ ((run_round ctx decision).run board).2.journal.drop board.journal.length) :
    ∃ a, CallOf ctx decision a ∧ target = a.agent_id ∧ policy = policyOf a ∧
      ∀ (manager : DelegationManager σ) (w : Realm σ) (session : Nat) (supervisor : KernelSession), w.sessions[session]? = some supervisor →
        (Confers manager a supervisor w ((delegate manager session target spec (some policy)).run w).2 ↔
          a.allowed_capabilities ≠ [] ∨ supervisor.allowed_capabilities = ∅ ∨ ¬ Opens manager w supervisor target spec policy) := by
  obtain ⟨more,journal,follows,-⟩ := (@run_round_asks (fun target _ policy => ∃ a, CallOf ctx decision a ∧ target = a.agent_id ∧
    policy = policyOf a) ctx board decision fun a call _ => ⟨a,call,rfl,rfl⟩).moves
  rw [journal,List.drop_left] at asked
  obtain ⟨a,call,rfl,rfl⟩ := follows_asked follows asked
  exact ⟨a,call,rfl,rfl,fun _ _ _ _ there => confers_iff a there⟩

end
end

/-! ### A review that is granted nothing -/

/-- The reviewer is called without any capability. -/
def reviewCall : AgentAssignment where
  agent_id := "reviewer"
  objective := "review"

def reviewRound : OrchestratorDecision where
  decision := .continue
  next_agent_calls := [reviewCall]

def reviewBoard : World where
  board := { start_state reviewContext 3 [] with selected_agents := ["reviewer"] }

/-- The delegation that an entry asks for, if it asks for one. -/
def askedFor : Entry TaskLoopState Event → Option (String × DelegationSpec × DelegationPolicy)
  | .noted (.asked (.delegate target spec policy)) => some (target,spec,policy)
  | _ => none

theorem askedFor_entry {entry : Entry TaskLoopState Event} {target : String} {spec : DelegationSpec} {policy : DelegationPolicy}
    (asked : askedFor entry = some (target,spec,policy)) : entry = .noted (.asked (.delegate target spec policy)) := by
  unfold askedFor at asked
  split at asked
  · cases asked
    rfl
  · cases asked

/-- The round asks for the reviewer, under a policy that grants nothing. -/
theorem review_asked : ∃ spec, spec.objective = "review" ∧ .noted (.asked (.delegate "reviewer" spec (policyOf reviewCall))) ∈
    ((run_round reviewContext reviewRound).run reviewBoard).2.journal.drop reviewBoard.journal.length := by
  have found : ((((run_round reviewContext reviewRound).run reviewBoard).2.journal.drop reviewBoard.journal.length).findSome?
      askedFor).map (fun asked => (asked.1,asked.2.1.objective,asked.2.2)) = some ("reviewer","review",policyOf reviewCall) := by
    decide +kernel
  obtain ⟨⟨_,spec,_⟩,first,same⟩ := Option.map_eq_some_iff.mp found
  obtain ⟨rfl,objective,rfl⟩ := Prod.ext_iff.mp same |>.imp id Prod.ext_iff.mp
  obtain ⟨entry,member,asked⟩ := List.exists_of_findSome?_eq_some first
  rw [askedFor_entry asked] at member
  exact ⟨spec,objective,member⟩

/-- A reviewer that cannot work. -/
def absentReviewer : DelegationPort Unit where
  name := "reviewer"
  can_handle target := .ok (target = "reviewer")
  run _ _ := .raises (.RuntimeError "away")

def reviewing : DelegationManager Unit := ⟨echoKernel [],[absentReviewer],{}⟩

/-- A supervisor that may use no tool delegates no tool. -/
theorem unarmed_round_grants : ∃ spec a, CallOf reviewContext reviewRound a ∧ "reviewer" = a.agent_id ∧
    Confers reviewing a { visitor with allowed_capabilities := ∅ } { lobby with sessions := [{ visitor with allowed_capabilities := ∅ }] }
      ((@delegate _ reviewing sameResult (fun r s => inferInstanceAs (Decidable (r = s))) 0 "reviewer" spec
        (some (policyOf reviewCall))).run { lobby with sessions := [{ visitor with allowed_capabilities := ∅ }] }).2 := by
  obtain ⟨spec,objective,asked⟩ := review_asked
  obtain ⟨a,call,target,-,grants⟩ := @round_grants_iff Unit sameResult (fun r s => inferInstanceAs (Decidable (r = s))) "reviewer" spec
    (policyOf reviewCall) reviewContext reviewRound reviewBoard asked
  exact ⟨spec,a,call,target,(grants reviewing _ 0 _ rfl).mpr (.inr (.inl rfl))⟩

/-- The reviewer of the round is granted nothing, and gets the tool of the visitor. -/
theorem grantless_reviewer_armed : ∃ spec, .noted (.asked (.delegate "reviewer" spec (policyOf reviewCall))) ∈
      ((run_round reviewContext reviewRound).run reviewBoard).2.journal.drop reviewBoard.journal.length ∧
    reviewCall ∈ reviewRound.next_agent_calls ∧ reviewCall.allowed_capabilities = [] ∧ visitor.allowed_capabilities = {"echo"} ∧
    ¬ Confers reviewing reviewCall visitor lobby ((@delegate _ reviewing sameResult (fun r s => inferInstanceAs (Decidable (r = s)))
      0 "reviewer" spec (some (policyOf reviewCall))).run lobby).2 := by
  obtain ⟨spec,objective,asked⟩ := review_asked
  refine ⟨spec,asked,List.mem_singleton_self _,rfl,rfl,fun confers => ?_⟩
  have opens : Opens reviewing lobby visitor "reviewer" spec (policyOf reviewCall) :=
    ⟨rfl,by decide,by rw [objective]; decide,nofun,⟨_,rfl⟩,⟨_,rfl⟩⟩
  rcases (@confers_iff _ reviewing sameResult (fun r s => inferInstanceAs (Decidable (r = s))) lobby visitor 0 "reviewer" spec
    reviewCall rfl).mp confers with some | none | unopened
  · exact some rfl
  · exact absurd none (by decide)
  · exact unopened opens

end HexAgent.Grants
