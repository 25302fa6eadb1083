import HexAgent.Scripted

/-!
The guard of the loop. Whatever the outside answers, a call of the loop that
raises no exception ends, with a terminal status, within its rounds, after no
more questions for a decision than rounds and parse errors allow, and what it
returns is what it saved last.
-/
namespace HexAgent.Rounds
open HexAgent.Values HexAgent.Board HexAgent.Graph HexAgent.Loop HexAgent.Supervisor HexAgent.Budgets HexAgent.Events
open HexAgent.Moves HexAgent.Nodes HexAgent.Restarts HexAgent.Scripted Journals Programs

/-! ### The calls -/

/-- A call that drives the loop from a state: `run_task_loop` from a fresh one, or
    `resume_task_loop` from what the last save of a run loads as. -/
inductive Drives (ctx : SupervisorContext) (budget : Budget) : TaskLoopState → Ending → Prop where
  | launch {items : List Criterion} {checks : List AcceptanceCheck} (read : criteria items = .ok checks)
      (task : String) (max_rounds max_decision_repeats : Int) (emitter : Option EventEmitter) :
      Drives ctx budget (start_state ctx max_rounds checks)
        (run_task_loop ctx task items max_rounds max_decision_repeats budget emitter)
  | resume {admits : SupervisorContext → Prop} {items : List Criterion}
      {processes : List (Process TaskLoopState Event)} {last s : TaskLoopState} (run : Run admits items processes)
      (lastSave : (saves processes).getLast? = some last) (reloads : Reloads last s) {run_id : String}
      {document : Fields} (restored : restore ctx run_id (some document) = .ok s) (going : s.is_terminal = false)
      (max_decision_repeats : Int) (emitter : Option EventEmitter) :
      Drives ctx budget s (resume_task_loop ctx run_id (some document) max_decision_repeats budget emitter)

/-- What the last save of a run loads as has its queue in order. -/
theorem reloaded_last_settled {admits : SupervisorContext → Prop} {items : List Criterion}
    {processes : List (Process TaskLoopState Event)} {last s : TaskLoopState} (run : Run admits items processes)
    (lastSave : (saves processes).getLast? = some last) (reloads : Reloads last s) : Settled s :=
  reloaded_settled (reloads_reloaded reloads)
    (survives_saves (run_follows run) last (List.mem_of_getLast? lastSave))

/-- What a drive comes to: it obeys the rules of the loop, no loop of it is cut short,
    and where it returns the loop has ended within the calls it may make. -/
structure Drove (ctx : SupervisorContext) (budget : Budget) (s : TaskLoopState) (ending : Ending) : Prop where
  follows : Follows (loopRules ctx everything) s ending.2.journal
  halts : ending.1 ≠ .error .outOfFuel
  finished : ∀ r, ending.1 = .ok r → Finished ctx s ending.2
  calls : ∀ r, ending.1 = .ok r → (decideCalls ending.2.journal : Int) ≤ callsLeft budget s
  returned : ∀ r, ending.1 = .ok r → r = result ending.2.board

private theorem drove_of_runs {ctx : SupervisorContext} {budget : Budget} {s : TaskLoopState}
    {emitter : Option EventEmitter} {m : Sup Values.Fields}
    (runs : Runs (Obeys (loopRules ctx everything)) m (freshWorld s emitter) (fun r w => (Finished ctx s w ∧
      (decideCalls w.journal : Int) ≤ callsLeft budget s) ∧ r = result w.board)) :
    Drove ctx budget s (m.run (freshWorld s emitter)) where
  follows := by
    obtain ⟨more,journal,follows,-⟩ := runs.moves
    rw [journal]
    exact follows
  halts := runs.halts
  finished r ok := (runs.post r ok).1.1
  calls r ok := (runs.post r ok).1.2
  returned r ok := (runs.post r ok).2

theorem drives_spec {ctx : SupervisorContext} {budget : Budget} {s : TaskLoopState} {ending : Ending}
    (drives : Drives ctx budget s ending) : Drove ctx budget s ending := by
  cases drives with
  | @launch items checks read task max_rounds max_decision_repeats emitter =>
    simp only [run_task_loop,read]
    refine drove_of_runs ((beginLoop_spec along_everything task budget max_decision_repeats rfl (settled_nil rfl)).mono ?_)
    rintro r w - ⟨⟨finished,calls⟩,same⟩
    exact ⟨⟨finished,by simpa [freshWorld,decideCalls] using calls⟩,same⟩
  | resume run lastSave reloads restored going max_decision_repeats emitter =>
    simp only [resume_task_loop,restored]
    have settled := reloaded_last_settled run lastSave reloads
    refine drove_of_runs ((continueLoop_spec along_everything budget max_decision_repeats settled).mono ?_)
    rintro r w - ⟨same,-,ended⟩
    obtain ⟨finished,calls⟩ := ended going
    exact ⟨⟨finished,by simpa [freshWorld,decideCalls] using calls⟩,same⟩

/-! ### The bounds -/

/-- The rounds of a state that the loop reaches from `s`. -/
def InRounds (s t : TaskLoopState) : Prop := t.max_rounds = s.max_rounds ∧ t.round_no ≤ max s.max_rounds s.round_no

theorem inRounds_kept {ctx : SupervisorContext} {s : TaskLoopState} {cause : Event} {t u : TaskLoopState}
    (move : LoopMove ctx cause t u) (within : InRounds s t) : InRounds s u := by
  cases move with
  | round move =>
    have frame := round_frame move
    exact ⟨frame.max_rounds.trans within.1,by rw [frame.round_no]; exact within.2⟩
  | advance left =>
    refine ⟨within.1,?_⟩
    rw [within.1] at left
    exact le_trans left (le_max_left _ _)
  | compose => exact within
  | record => exact within
  | clear => exact within
  | terminate => exact within

/-- Asking for a decision leaves the round as it is, whatever is answered and however
    often it is asked again. -/
theorem asking_keeps_round (ctx : SupervisorContext) (budget : Budget) (w : World) :
    ((o_decide ctx budget).run w).2.board.round_no = w.board.round_no :=
  (frame_of_obeys (o_decide_spec usual_everything (fun _ => trivial) budget).moves).round_no

/-- A drive with a fresh budget that raises no exception ends: with a terminal status,
    within its rounds and its questions for a decision, and returning what it saved
    last; asking again after a parse error consumes no round. -/
theorem drive_ends {ctx : SupervisorContext} {budget : Budget} (fresh : budget.parse_errors = 0) {s : TaskLoopState}
    {ending : Ending} (drives : Drives ctx budget s ending) (calm : ∀ error, ending.1 ≠ .error (.raised error)) :
    (ending.1 = .ok (result ending.2.board) ∧ ending.2.board.is_terminal = true) ∧
    (∀ t ∈ states s ending.2.journal, t.round_no ≤ max s.max_rounds s.round_no) ∧
    (decideCalls ending.2.journal : Int) ≤ max 0 (s.max_rounds - s.round_no) + max 1 budget.max_parse_errors ∧
    (ctx.checkpoint.isSome → (checkpoints ending.2.journal).getLast? = some ending.2.board) ∧
    ∀ (budget : Budget) (w : World), ((o_decide ctx budget).run w).2.board.round_no = w.board.round_no := by
  have drove := drives_spec drives
  rcases ended : ending.1 with stop | r
  · cases stop with
    | raised error => exact absurd ended (calm error)
    | outOfFuel => exact absurd ended drove.halts
  have finished := drove.finished r ended
  refine ⟨⟨by rw [drove.returned r ended],finished.terminal⟩,fun t reached => ?_,?_,finished.last,asking_keeps_round ctx⟩
  · have kept : ∀ c t u, (loopRules ctx everything).move c t u → InRounds s t → InRounds s u :=
      fun _ _ _ move => inRounds_kept move
    exact (follows_invariant kept drove.follows ⟨rfl,le_max_right _ _⟩ t reached).2
  · have calls := drove.calls r ended
    rw [callsLeft,fresh] at calls
    simpa using calls

theorem review_ends : ∃ r, (run_task_loop reviewContext "review" (reviewCriteria.map .item) 3 3 {} none).1 = .ok r := by
  have calm : ∀ error, (run_task_loop reviewContext "review" (reviewCriteria.map .item) 3 3 {} none).1 ≠
      .error (.raised error) := by
    have ends : (run_task_loop reviewContext "review" (reviewCriteria.map .item) 3 3 {} none).1.isOk = true := by
      decide +kernel
    intro error raised
    rw [raised] at ends
    cases ends
  have drives : Drives reviewContext {} (start_state reviewContext 3 [{ id := "C1", text := "reviewed" }])
      (run_task_loop reviewContext "review" (reviewCriteria.map .item) 3 3 {} none) := .launch rfl "review" 3 3 none
  exact ⟨_,(drive_ends rfl drives calm).1.1⟩

end HexAgent.Rounds
