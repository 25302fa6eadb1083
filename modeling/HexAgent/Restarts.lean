import HexAgent.Nodes

/-!
Runs of the task loop with crashes and restarts. A run begins with
`run_task_loop`; after a crash at any point of its journal `resume_task_loop`
continues from what the last save loads as, and so on. Every process of every
run obeys the rules of the loop (`run_follows`).
-/
namespace HexAgent.Restarts
open HexAgent.Values HexAgent.Json HexAgent.Board HexAgent.Commands HexAgent.CommandBridge HexAgent.Graph HexAgent.Loop
open HexAgent.Supervisor HexAgent.Budgets HexAgent.Moves HexAgent.Nodes HexAgent.Events Journals Programs

/-- A call of `run_task_loop` under a context that is admitted: the Blackboard it
    begins with and the journal it leaves. -/
def Launches (admits : SupervisorContext → Prop) (items : List Criterion) (s : TaskLoopState) (journal : Journal) : Prop :=
  ∃ ctx, admits ctx ∧ ∃ (task : String) (max_rounds max_decision_repeats : Int) (budget : Budget)
    (emitter : Option EventEmitter) (checks : List AcceptanceCheck),
    criteria items = .ok checks ∧ s = start_state ctx max_rounds checks ∧
      journal = (run_task_loop ctx task items max_rounds max_decision_repeats budget emitter).2.journal

/-- A call of `resume_task_loop` under a context that is admitted: the Blackboard it
    loads from a document and the journal it leaves. -/
def Resumes (admits : SupervisorContext → Prop) (s : TaskLoopState) (journal : Journal) : Prop :=
  ∃ ctx, admits ctx ∧ ∃ (run_id : String) (document : Fields) (max_decision_repeats : Int) (budget : Budget)
    (emitter : Option EventEmitter), restore ctx run_id (some document) = .ok s ∧
      journal = (resume_task_loop ctx run_id (some document) max_decision_repeats budget emitter).2.journal

/-- A run with its crashes and restarts. The contexts may differ from process to
    process, as long as each of them is admitted. -/
def Run (admits : SupervisorContext → Prop) (items : List Criterion) : List (Process TaskLoopState Event) → Prop :=
  Survives (Launches admits items) (Resumes admits) Reloads

/-- The rules of the loop under some admitted context. -/
def runRules (admits : SupervisorContext → Prop) : Rules TaskLoopState Event :=
  ⟨fun c s t => ∃ ctx, admits ctx ∧ LoopMove ctx c s t,Allowed everything,Settled⟩

section
variable {admits : SupervisorContext → Prop} {items : List Criterion}

theorem follows_run {ctx : SupervisorContext} (admitted : admits ctx) {s : TaskLoopState} {journal : Journal}
    (follows : Follows (loopRules ctx everything) s journal) : Follows (runRules admits) s journal := by
  have moves : ∀ c s t, (loopRules ctx everything).move c s t → (runRules admits).move c s t :=
    fun _ _ _ move => ⟨ctx,admitted,move⟩
  exact follows_mono moves (fun _ _ allowed => allowed) (fun _ settled => settled) follows

/-- A queued command is read back as a command with the same key and issuer. -/
theorem rewritten_command {cmd : RuntimeCommand} (issued : cmd.issued_by = orchestrator) {raw : Fields}
    (rewritten : Rewritten cmd.as_dict raw) :
    ∃ payload, Rewritten cmd.payload payload ∧ raw = { cmd with payload }.as_dict := by
  have strRow : ∀ text : String, throughJson (.str text) = .ok (.str text) := fun _ => rfl
  have intRow : ∀ i : Int, throughJson (.int i) = .ok (.int i) := fun _ => rfl
  have noRow : throughFields [] = .ok [] := rfl
  have issuerRow : throughJson (.dict orchestrator.as_dict) = .ok (.dict orchestrator.as_dict) := by decide
  have payloadRow : ∀ v, throughJson (.dict cmd.payload) = .ok v →
      ∃ payload, Rewritten cmd.payload payload ∧ v = .dict payload := by
    intro v through
    rw [throughJson] at through
    rcases read : throughFields cmd.payload with error | payload
    · rw [read] at through; cases through
    · rw [read] at through; exact ⟨payload,read,(Except.ok.inj through).symm⟩
  unfold Rewritten RuntimeCommand.as_dict at rewritten
  rw [issued] at rewritten
  simp only [throughFields_cons,strRow,intRow,noRow,issuerRow,Except.ok.injEq,exists_and_left,exists_eq_left',
    ↓existsAndEq,and_true,true_and] at rewritten
  obtain ⟨v,through,rfl⟩ := rewritten
  obtain ⟨payload,same,rfl⟩ := payloadRow v through
  exact ⟨payload,same,by simp [RuntimeCommand.as_dict,issued]⟩

theorem rewritten_queue {pending pending' : List Fields} (rewritten : List.Forall₂ Rewritten pending pending')
    (issued : ∀ raw ∈ pending, ∃ cmd : RuntimeCommand, raw = cmd.as_dict ∧ cmd.issued_by = orchestrator) :
    (∀ raw ∈ pending', ∃ cmd : RuntimeCommand, raw = cmd.as_dict ∧ cmd.issued_by = orchestrator) ∧
      queued_keys pending' = queued_keys pending := by
  induction rewritten with
  | nil => exact ⟨by simp,rfl⟩
  | cons same _ ih =>
    obtain ⟨later,keys⟩ := ih fun raw member => issued raw (List.mem_cons_of_mem _ member)
    obtain ⟨cmd,rfl,issuer⟩ := issued _ (List.mem_cons_self ..)
    obtain ⟨payload,-,rfl⟩ := rewritten_command issuer same
    refine ⟨fun raw member => ?_,?_⟩
    · rcases List.mem_cons.mp member with rfl | inRest
      · exact ⟨_,rfl,issuer⟩
      · exact later raw inRest
    · simp only [queued_keys,List.map_cons] at keys ⊢
      rw [keys]
      rfl

/-- Loading keeps the queue in order. -/
theorem reloaded_settled {s t : TaskLoopState} (reloaded : Reloaded s t) (settled : Settled s) : Settled t := by
  obtain ⟨issued,keys⟩ := rewritten_queue reloaded.pending settled.issued
  have applied : t.applied_command_keys = s.applied_command_keys := by rw [reloaded.same]
  exact ⟨issued,by rw [keys]; exact settled.distinct,by rw [keys,applied]; exact settled.new⟩

/-- Every process of a run obeys the rules of the loop. -/
theorem run_follows {processes : List (Process TaskLoopState Event)} (run : Run admits items processes) :
    ∀ process ∈ processes, Follows (runRules admits) process.start process.journal := by
  refine survives_follows ?_ ?_ run
  · rintro s journal ⟨ctx,admitted,task,max_rounds,repeats,budget,emitter,checks,read,rfl,rfl⟩
    simp only [run_task_loop,read]
    obtain ⟨more,left,follows,-⟩ :=
      (beginLoop_spec along_everything (w := freshWorld (start_state ctx max_rounds checks) emitter) task budget repeats rfl
        (settled_nil rfl)).moves
    rw [left]
    exact follows_run admitted follows
  · rintro last s journal settled reloads ⟨ctx,admitted,run_id,document,repeats,budget,emitter,restored,rfl⟩
    simp only [resume_task_loop,restored]
    obtain ⟨more,left,follows,-⟩ :=
      (continueLoop_spec along_everything (w := freshWorld s emitter) budget repeats
        (reloaded_settled (reloads_reloaded reloads) settled)).moves
    rw [left]
    exact follows_run admitted follows

end
end HexAgent.Restarts
