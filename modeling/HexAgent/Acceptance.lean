import HexAgent.Scripted

/-!
Acceptance is earned. In every state of every run a passed check cites evidence
that is on the Blackboard, and a finished run has checks, all of them passed. The
orchestrator only reports: what it says is judged against the artifacts, the
status `finished` is written only over accepted checks, and neither later rounds
nor a restart take an artifact away.
-/
namespace HexAgent.Acceptance
open HexAgent.Values HexAgent.Board HexAgent.Graph HexAgent.Loop HexAgent.Supervisor HexAgent.Moves HexAgent.Restarts
open HexAgent.Scripted Journals

/-- A check, when it is passed, cites evidence, all of it on the Blackboard. -/
def Backed (s : TaskLoopState) (check : AcceptanceCheck) : Prop :=
  check.status = .passed → check.evidence_ids ≠ [] ∧ ∀ e ∈ check.evidence_ids, e ∈ s.artifacts.keys

/-- The checks of a state are backed, and a finished state has only passed ones. -/
structure Warranted (s : TaskLoopState) : Prop where
  backed : ∀ check ∈ s.acceptance_checks, Backed s check
  earned : s.status = .FINISHED → s.all_accepted = true

theorem all_accepted_iff {s : TaskLoopState} : s.all_accepted = true ↔
    s.acceptance_checks ≠ [] ∧ ∀ check ∈ s.acceptance_checks, check.status = .passed ∧ check.evidence_ids ≠ [] := by
  simp [TaskLoopState.all_accepted,AcceptanceCheck.is_satisfied]

theorem Backed.mono {s t : TaskLoopState} {check : AcceptanceCheck} (backed : Backed s check)
    (kept : ∀ k ∈ s.artifacts.keys, k ∈ t.artifacts.keys) : Backed t check :=
  fun passed => ⟨(backed passed).1,fun e cited => kept e ((backed passed).2 e cited)⟩

/-! ### What one write preserves -/

/-- A judged check is backed, whatever it was and whatever was reported. -/
theorem judged_backed (s : TaskLoopState) (claimed : String) (evidence : List String) (check : AcceptanceCheck) :
    Backed s (judged s claimed evidence check) := by
  unfold judged
  split
  · next warranted => exact fun _ => warranted.2
  · split
    · exact nofun
    · exact nofun

theorem mem_setCheck {id : String} {f : AcceptanceCheck → AcceptanceCheck} {checks : List AcceptanceCheck}
    {check : AcceptanceCheck} (member : check ∈ setCheck id f checks) :
    check ∈ checks ∨ ∃ old ∈ checks, check = f old := by
  induction checks with
  | nil => cases member
  | cons first rest ih =>
    unfold setCheck at member
    split at member
    · rcases List.mem_cons.mp member with rfl | later
      · exact .inr ⟨first,List.mem_cons_self ..,rfl⟩
      · exact .inl (List.mem_cons_of_mem _ later)
    · rcases List.mem_cons.mp member with rfl | later
      · exact .inl (List.mem_cons_self ..)
      · rcases ih later with old | ⟨old,inRest,same⟩
        · exact .inl (List.mem_cons_of_mem _ old)
        · exact .inr ⟨old,List.mem_cons_of_mem _ inRest,same⟩

theorem judge_row_backed {s t : TaskLoopState} {row : Fields} (judge : judge_row s row = .ok t)
    (backed : ∀ check ∈ s.acceptance_checks, Backed s check) : ∀ check ∈ t.acceptance_checks, Backed t check := by
  rcases judge_row_ok judge with rfl | ⟨id,claimed,evidence,rfl⟩
  · exact backed
  · intro check member
    rcases mem_setCheck member with old | ⟨old,-,rfl⟩
    · exact backed check old
    · exact judged_backed s claimed evidence old

theorem nonterminal_warranted {s : TaskLoopState} (going : s.is_terminal = false)
    (backed : ∀ check ∈ s.acceptance_checks, Backed s check) : Warranted s := by
  refine ⟨backed,fun finished => ?_⟩
  rw [TaskLoopState.is_terminal,finished] at going
  exact absurd going (by decide)

theorem add_warranted {s : TaskLoopState} (warranted : Warranted s) (id : String) (payload : Fields) :
    Warranted (s.add_artifact id payload) :=
  ⟨fun check member => (warranted.backed check member).mono (Dicts.Dict.keys_put_subset _ _ _),warranted.earned⟩

theorem round_warranted {cause : Event} {s t : TaskLoopState} (move : RoundMove cause s t) (warranted : Warranted s) :
    Warranted t := by
  cases move with
  | post posted => exact add_warranted warranted _ _
  | worker => exact add_warranted warranted _ _
  | judge going judge =>
    refine nonterminal_warranted ?_ (judge_row_backed judge warranted.backed)
    exact (round_frame (RoundMove.judge going judge)).going going
  | status going => exact nonterminal_warranted (by simpa [TaskLoopState.is_terminal] using going) warranted.backed
  | envelope => exact ⟨warranted.backed,warranted.earned⟩
  | turn => exact ⟨warranted.backed,warranted.earned⟩
  | queue => exact ⟨warranted.backed,warranted.earned⟩
  | reason => exact ⟨warranted.backed,warranted.earned⟩
  | output => exact ⟨warranted.backed,warranted.earned⟩

theorem move_warranted {ctx : SupervisorContext} {cause : Event} {s t : TaskLoopState} (move : LoopMove ctx cause s t)
    (warranted : Warranted s) : Warranted t := by
  cases move with
  | round move => exact round_warranted move warranted
  | terminate ends earned => exact ⟨warranted.backed,fun finished => earned finished⟩
  | compose => exact ⟨warranted.backed,warranted.earned⟩
  | record => exact ⟨warranted.backed,warranted.earned⟩
  | clear => exact ⟨warranted.backed,warranted.earned⟩
  | advance => exact ⟨warranted.backed,warranted.earned⟩

/-! ### Starting and restarting -/

theorem checkOf_pending {v : PyVal} {check : AcceptanceCheck} (read : checkOf (.item v) = .ok check) :
    check.status = .pending := by
  unfold checkOf at read
  split at read
  · next same => cases same
  · next d _ =>
    rcases found : Fields.item d "id" with error | id
    · rw [found] at read; cases read
    · rw [found] at read; cases read; rfl
  · next v' _ _ =>
    rcases unpacked : unpackPair v' with error | ⟨cid,text⟩
    · rw [unpacked] at read; cases read
    · rw [unpacked] at read; cases read; rfl

/-- Criteria that are not checks yet become pending checks. -/
theorem criteria_pending {items : List PyVal} {checks : List AcceptanceCheck}
    (read : criteria (items.map .item) = .ok checks) : ∀ check ∈ checks, check.status = .pending := by
  induction items generalizing checks with
  | nil => cases read; simp
  | cons v rest ih =>
    unfold criteria at read ih
    rw [List.map_cons,List.mapM_cons] at read
    rcases first : checkOf (.item v) with error | check
    · rw [first] at read; cases read
    · rcases others : (rest.map Criterion.item).mapM checkOf with error | more
      · rw [first,others] at read; cases read
      · rw [first,others] at read
        cases read
        intro other member
        rcases List.mem_cons.mp member with rfl | later
        · exact checkOf_pending first
        · exact ih others other later

theorem start_warranted (ctx : SupervisorContext) (max_rounds : Int) {items : List PyVal} {checks : List AcceptanceCheck}
    (read : criteria (items.map .item) = .ok checks) : Warranted (start_state ctx max_rounds checks) := by
  refine ⟨fun check member passed => ?_,nofun⟩
  rw [criteria_pending read check member] at passed
  cases passed

theorem reloaded_warranted {s t : TaskLoopState} (reloaded : Reloaded s t) (warranted : Warranted s) : Warranted t := by
  have keys : t.artifacts.keys = s.artifacts.keys := reloaded.artifacts.keys
  refine ⟨fun check member => ?_,fun finished => ?_⟩
  · rw [reloaded.same] at member
    exact (warranted.backed check member).mono fun k present => by rw [keys]; exact present
  · rw [reloaded.same] at finished ⊢
    exact warranted.earned finished

/-! ### Every state of every run -/

theorem run_warranted {admits : SupervisorContext → Prop} {items : List PyVal}
    {processes : List (Process TaskLoopState Event)} (run : Run admits (items.map .item) processes) :
    ∀ process ∈ processes, ∀ s ∈ process.states, Warranted s := by
  refine survives_invariant ?_ ?_ ?_ run (run_follows run)
  · rintro cause s t ⟨ctx,-,move⟩
    exact move_warranted move
  · rintro s journal ⟨ctx,-,task,max_rounds,repeats,budget,emitter,checks,read,rfl,-⟩
    exact start_warranted ctx max_rounds read
  · exact fun s t reloads => reloaded_warranted (reloads_reloaded reloads)

/-- A finished state has checks, all passed, each with evidence that is on the
    Blackboard; and no state has a passed check without. -/
theorem finished_only_with_evidence {admits : SupervisorContext → Prop} {items : List PyVal}
    {processes : List (Process TaskLoopState Event)} (run : Run admits (items.map .item) processes)
    (process : Process TaskLoopState Event) (inRun : process ∈ processes) (s : TaskLoopState)
    (reached : s ∈ process.states) :
    (s.status = .FINISHED → s.acceptance_checks ≠ [] ∧ ∀ check ∈ s.acceptance_checks, check.status = .passed ∧
      check.evidence_ids ≠ [] ∧ ∀ e ∈ check.evidence_ids, e ∈ s.artifacts.keys) ∧
    ∀ check ∈ s.acceptance_checks, check.status = .passed →
      check.evidence_ids ≠ [] ∧ ∀ e ∈ check.evidence_ids, e ∈ s.artifacts.keys := by
  have warranted := run_warranted run process inRun s reached
  refine ⟨fun finished => ?_,warranted.backed⟩
  obtain ⟨some,passed⟩ := all_accepted_iff.mp (warranted.earned finished)
  refine ⟨some,fun check member => ⟨(passed check member).1,?_⟩⟩
  exact warranted.backed check member (passed check member).1

/-- The review finishes, and has the evidence. -/
theorem review_finished : ∃ s ∈ reviewProcess.states, s.status = .FINISHED ∧
    ∀ check ∈ s.acceptance_checks, check.evidence_ids ≠ [] ∧ ∀ e ∈ check.evidence_ids, e ∈ s.artifacts.keys := by
  have finishes : ∃ s ∈ reviewProcess.states, s.status = .FINISHED := by decide +kernel
  obtain ⟨s,reached,finished⟩ := finishes
  have evidence := finished_only_with_evidence review_runs reviewProcess (List.mem_singleton_self _) s reached
  exact ⟨s,reached,finished,fun check member => ((evidence.1 finished).2 check member).2⟩

end HexAgent.Acceptance
