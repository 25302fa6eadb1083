import HexAgent.Loop

/-!
What every entry of a journal keeps, the nodes keep. Only the loop itself notes that a
decision is taken, so a property of the world that survives every other entry survives
the nodes, whatever the outside answers and wherever they stop.
-/
namespace HexAgent.Entries
open HexAgent.Values HexAgent.Board HexAgent.Budgets HexAgent.Commands HexAgent.Contracts HexAgent.CommandBridge
open HexAgent.Supervisor HexAgent.Graph HexAgent.Loop Journals Programs

/-- The entry takes a decision. -/
def Takes : Entry TaskLoopState Event → Prop
  | .noted (.accepted _) => True
  | _ => False

/-- Kept by whatever leaves the Blackboard alone and takes no decision. -/
structure Undisturbed (I : World → Prop) : Prop where
  notes : ∀ w entry, ¬ Takes entry → I w → I { w with journal := w.journal ++ [entry] }
  unseen : ∀ w draws wire, I w → I { w with draws, wire }

/-- Kept by whatever takes no decision. -/
structure Steady (I : World → Prop) : Prop extends Undisturbed I where
  writes : ∀ w (f : TaskLoopState → TaskLoopState) cause, I w → I { w with board := f w.board, journal := w.journal ++ [.wrote cause (f w.board)] }

variable {ctx : SupervisorContext} {I : World → Prop}

/-! ### What the nodes do -/

section
variable (calm : Undisturbed I)

theorem keeps_board : Keeps I currentBoard := Keeps.read _

include calm

theorem Undisturbed.note {entry : Entry TaskLoopState Event} (other : ¬ Takes entry) : Keeps I (note entry) :=
  fun w holds => calm.notes w entry other holds

theorem Undisturbed.ask (op : Op) : Keeps I (ask ctx op) :=
  (calm.note id).bind fun _ => (Keeps.read _).bind fun _ => Keeps.lift _

theorem Undisturbed.drawStamp : Keeps I (drawStamp ctx) :=
  (Keeps.read _).bind fun _ => (Keeps.update fun w holds => calm.unseen w _ _ holds).bind fun _ => Keeps.pure _

theorem Undisturbed.emit (topic : String) (payload : Fields) : Keeps I (emit ctx topic payload) := by
  refine (Keeps.read _).bind fun wire => ?_
  cases wire with
  | none => exact calm.note id
  | some wire =>
    refine (Keeps.update fun w holds => calm.unseen w _ _ holds).bind fun _ => (Keeps.lift _).bind fun sent => ?_
    exact (Keeps.update fun w holds => calm.unseen w _ _ holds).bind fun _ => calm.note id

theorem Undisturbed.save : Keeps I (save ctx) := by
  unfold Supervisor.save
  split
  · exact Keeps.pure _
  · exact keeps_board.bind fun _ => (Keeps.lift _).bind fun _ => (calm.ask _).bind fun _ => calm.note id

end

section
variable (steady : Steady I)
include steady

theorem Steady.write (f : TaskLoopState → TaskLoopState) (cause : Event) : Keeps I (write f cause) :=
  fun w holds => steady.writes w f cause holds

theorem Steady.post (kind : String) (fields : Fields) : Keeps I (post kind fields) :=
  keeps_board.bind fun _ => (steady.write _ _).bind fun _ => Keeps.pure _

/-! ### The nodes -/

theorem Steady.o_decide (budget : Budget) : Keeps I (o_decide ctx budget) := by
  refine Keeps.loop (fun budget => ?_) _ _
  unfold askOnce
  refine keeps_board.bind fun state => (Keeps.lift _).bind fun view => (steady.ask _).bind fun raw => ?_
  split
  · exact (steady.emit _ _).bind fun _ => Keeps.ite (Keeps.pure _) (Keeps.pure _)
  · exact Keeps.raise _
  · exact (steady.emit _ _).bind fun _ => Keeps.pure _

theorem Steady.enqueue_commands (decision : OrchestratorDecision) : Keeps I (enqueue_commands ctx decision) := by
  refine keeps_board.bind fun state => (Keeps.fold (fun queue raw => ?_) _ _).bind fun queue => ?_
  · exact steady.drawStamp.bind fun stamp => Keeps.lift _
  · exact (steady.write _ _).bind fun _ => Keeps.pure _

theorem Steady.applyOne (registry : CommandTypeRegistry) (catalog : List String) (applied : Nat) (raw : Fields) :
    Keeps I (applyOne ctx registry catalog applied raw) := by
  have told : ∀ (topic : String) (payload : Fields), Keeps I (do emit ctx topic payload; pure applied) :=
    fun topic payload => (steady.emit topic payload).bind fun _ => Keeps.pure _
  refine steady.drawStamp.bind fun stamp => (Keeps.lift _).bind fun cmd => keeps_board.bind fun state => ?_
  refine Keeps.ite (Keeps.pure _) ?_
  split
  · exact told _ _
  · refine Keeps.ite (told _ _) (Keeps.ite (told _ _) (Keeps.ite (told _ _) (Keeps.ite (told _ _) ?_)))
    refine Keeps.ite ((steady.write _ _).bind fun _ => Keeps.pure _) ?_
    exact (steady.write _ _).bind fun _ => (steady.emit _ _).bind fun _ => Keeps.pure _

theorem Steady.apply_pending_commands (registry : CommandTypeRegistry) (catalog : List String) :
    Keeps I (apply_pending_commands ctx registry catalog) :=
  keeps_board.bind fun _ => (Keeps.fold (steady.applyOne registry catalog) _ _).bind fun _ =>
    (steady.write _ _).bind fun _ => Keeps.pure _

theorem Steady.splitCalls (decision : OrchestratorDecision) (selected : List String) :
    Keeps I (splitCalls ctx decision selected) := by
  unfold Graph.splitCalls
  split
  · exact (Keeps.each (fun dept => steady.emit _ _) _).bind fun _ => Keeps.pure _
  · exact Keeps.pure _

theorem Steady.admitMembers (decision : OrchestratorDecision) (expansion : Expansion) :
    Keeps I (admitMembers ctx decision expansion) := by
  refine (Keeps.each (fun refused => steady.emit _ _) _).bind fun _ => Keeps.ite ?_ (Keeps.pure _)
  refine (Keeps.each (fun member => ?_) _).bind fun _ => steady.emit _ _
  exact (steady.enqueue_commands _).bind fun _ => Keeps.pure _

theorem Steady.worker_turn (assignment : AgentAssignment) : Keeps I (worker_turn ctx assignment) := by
  refine keeps_board.bind fun state => (Keeps.ite (steady.ask _) (Keeps.pure _)).bind fun slice => ?_
  refine (steady.ask _).bind fun packet => Keeps.ite (Keeps.raise _) ?_
  refine (steady.post _ _).bind fun packet_id => (steady.ask _).bind fun result => ?_
  refine (Keeps.each (fun art => steady.write _ _) _).bind fun _ => (steady.post _ _).bind fun result_id => ?_
  exact (steady.write _ _).bind fun _ => (steady.emit _ _).bind fun _ => steady.save

theorem Steady.run_round (decision : OrchestratorDecision) : Keeps I (run_round ctx decision) := by
  refine keeps_board.bind fun state => (steady.splitCalls _ _).bind fun expansion => ?_
  refine (steady.admitMembers _ _).bind fun _ => (Keeps.lift _).bind fun _ => keeps_board.bind fun state => ?_
  refine (Keeps.fold (fun done assignment => ?_) _ _).bind fun _ => steady.write _ _
  exact Keeps.ite (Keeps.pure _) ((steady.worker_turn _).bind fun _ => Keeps.pure _)

theorem Steady.run_tool (decision : OrchestratorDecision) : Keeps I (run_tool ctx decision) := by
  refine (Keeps.each (fun req => ?_) _).bind fun _ => steady.write _ _
  refine (Keeps.lift _).bind fun args => (steady.ask _).bind fun envelope => keeps_board.bind fun state => ?_
  exact (steady.write _ _).bind fun _ => (steady.write _ _).bind fun _ => steady.emit _ _

theorem Steady.judge_acceptance (decision : OrchestratorDecision) : Keeps I (judge_acceptance decision) := by
  refine (Keeps.each (fun row => ?_) _).bind fun _ => steady.write _ _
  exact keeps_board.bind fun state => (Keeps.lift _).bind fun state => steady.write _ _

/-! ### The parts of the loop -/

theorem Steady.terminate (status : TaskLoopStatus) (reason : String) : Keeps I (terminate ctx status reason) :=
  (steady.write _ _).bind fun _ => keeps_board.bind fun _ => (steady.emit _ _).bind fun _ => steady.save

theorem Steady.carryOut (decision : OrchestratorDecision) : Keeps I (carryOut ctx decision) := by
  unfold Loop.carryOut
  split
  · refine (steady.judge_acceptance _).bind fun _ => keeps_board.bind fun state => Keeps.ite ?_ ?_
    · exact (steady.write _ _).bind fun _ => (steady.terminate _ _).bind fun _ => Keeps.pure _
    · exact (steady.write _ _).bind fun _ => Keeps.pure _
  · exact (steady.run_tool _).bind fun _ => (steady.judge_acceptance _).bind fun _ => Keeps.pure _
  · exact (steady.run_round _).bind fun _ => (steady.judge_acceptance _).bind fun _ => Keeps.pure _
  · exact (steady.terminate _ _).bind fun _ => Keeps.pure _
  · exact (steady.terminate _ _).bind fun _ => Keeps.pure _

theorem Steady.closeRound : Keeps I (closeRound ctx) := by
  refine keeps_board.bind fun state => (Keeps.lift _).bind fun catalog => (steady.apply_pending_commands _ _).bind fun applied => ?_
  refine (steady.write _ _).bind fun _ => steady.save.bind fun _ => keeps_board.bind fun state => Keeps.ite ?_ (Keeps.pure _)
  exact (steady.emit _ _).bind fun _ => Keeps.pure _

theorem Steady.guardRound (max_decision_repeats : Int) (before : TaskLoopState) (applied : Nat) (vars : DriveVars) :
    Keeps I (guardRound ctx max_decision_repeats before applied vars) := by
  have blocks : ∀ reason, Keeps I (do Loop.terminate ctx .BLOCKED reason; pure (.inr ()) : Sup (DriveVars ⊕ Unit)) :=
    fun reason => (steady.terminate _ _).bind fun _ => Keeps.pure _
  exact keeps_board.bind fun state => Keeps.ite (blocks _) (Keeps.ite (blocks _) (Keeps.pure _))

end

end HexAgent.Entries
