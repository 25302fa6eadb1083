import HexAgent.Rounds

/-!
What a checkpoint gives back. A Blackboard whose payloads are JSON values loads as it was
saved, with one exception: an empty final output is stored as none, and a finished run
whose decision gives no output has an empty one.
-/
namespace HexAgent.Reloading
open HexAgent.Values HexAgent.Json HexAgent.Board HexAgent.Budgets HexAgent.Events HexAgent.Loop HexAgent.Supervisor
open HexAgent.Moves HexAgent.Nodes HexAgent.Restarts HexAgent.Rounds HexAgent.Scripted Journals Programs

/-! ### JSON values -/

mutual
/-- A value that JSON can express: no tuple and no instance of another class. -/
def isJson : PyVal → Bool
  | .list items => areJson items
  | .tuple _ => false
  | .dict fields => jsonFields fields
  | .object _ => false
  | _ => true
def areJson : List PyVal → Bool
  | [] => true
  | v :: rest => isJson v && areJson rest
def jsonFields : List (String × PyVal) → Bool
  | [] => true
  | (_,v) :: rest => isJson v && jsonFields rest
end

mutual
/-- What JSON can express is read back as it was written. -/
theorem throughJson_json (v : PyVal) (json : isJson v = true) : throughJson v = .ok v := by
  cases v with
  | list items => rw [throughJson,throughItems_json items json]; rfl
  | tuple items => cases json
  | dict fields => rw [throughJson,throughFields_json fields json]; rfl
  | object o => cases json
  | _ => rfl
theorem throughItems_json (items : List PyVal) (json : areJson items = true) : throughItems items = .ok items := by
  cases items with
  | nil => rfl
  | cons v rest =>
    obtain ⟨here,later⟩ := Bool.and_eq_true_iff.mp json
    rw [throughItems,throughJson_json v here,throughItems_json rest later]
    rfl
theorem throughFields_json (fields : List (String × PyVal)) (json : jsonFields fields = true) : throughFields fields = .ok fields := by
  cases fields with
  | nil => rfl
  | cons field rest =>
    obtain ⟨k,v⟩ := field
    obtain ⟨here,later⟩ := Bool.and_eq_true_iff.mp json
    rw [throughFields,throughJson_json v here,throughFields_json rest later]
    rfl
end

/-- A Blackboard whose payloads are JSON values. -/
structure JsonState (s : TaskLoopState) : Prop where
  artifacts : ∀ entry ∈ s.artifacts.pairs, jsonFields entry.2 = true
  tool_results : ∀ entry ∈ s.tool_results.pairs, jsonFields entry.2 = true
  pending : ∀ command ∈ s.pending_commands, jsonFields command = true
  output : ∀ fields ∈ s.final_output, jsonFields fields = true

instance : DecidablePred JsonState := fun s =>
  decidable_of_iff ((∀ entry ∈ s.artifacts.pairs, jsonFields entry.2 = true) ∧
      (∀ entry ∈ s.tool_results.pairs, jsonFields entry.2 = true) ∧ (∀ command ∈ s.pending_commands, jsonFields command = true) ∧
      ∀ fields ∈ s.final_output, jsonFields fields = true)
    ⟨fun ⟨artifacts,tools,pending,output⟩ => ⟨artifacts,tools,pending,output⟩,
      fun json => ⟨json.artifacts,json.tool_results,json.pending,json.output⟩⟩

section
variable {s t : TaskLoopState}

theorem rewritten_json {before after : Fields} (json : jsonFields before = true) (rewritten : Rewritten before after) : after = before := by
  unfold Rewritten at rewritten
  rw [throughFields_json before json] at rewritten
  exact (Except.ok.inj rewritten).symm

theorem table_json {before after : Dicts.Dict String Fields} (json : ∀ entry ∈ before.pairs, jsonFields entry.2 = true)
    (table : RewrittenTable before after) : after = before := by
  obtain ⟨pairs,nodup⟩ := before
  obtain ⟨pairs',nodup'⟩ := after
  have same : ∀ {pairs pairs' : List (String × Fields)}, (∀ entry ∈ pairs, jsonFields entry.2 = true) →
      List.Forall₂ (fun a b => a.1 = b.1 ∧ Rewritten a.2 b.2) pairs pairs' → pairs' = pairs := by
    intro pairs pairs' json related
    induction related with
    | nil => rfl
    | cons same _ ih =>
      rw [List.forall_mem_cons] at json
      rw [ih json.2,Prod.ext same.1.symm (rewritten_json json.1 same.2)]
  exact Dicts.Dict.ext (same json table)

theorem queue_json {before after : List Fields} (json : ∀ command ∈ before, jsonFields command = true)
    (queue : List.Forall₂ Rewritten before after) : after = before := by
  induction queue with
  | nil => rfl
  | cons same _ ih =>
    rw [List.forall_mem_cons] at json
    rw [rewritten_json json.1 same,ih json.2]

/-! ### The stored document -/

theorem texts_json (texts : List String) : isJson (ofTexts texts) = true := by
  induction texts with
  | nil => rfl
  | cons text rest ih => exact ih

theorem areJson_map {α : Type} {f : α → PyVal} {items : List α} (json : ∀ a ∈ items, isJson (f a) = true) :
    areJson (items.map f) = true := by
  induction items with
  | nil => rfl
  | cons a rest ih =>
    rw [List.forall_mem_cons] at json
    exact Bool.and_eq_true_iff.mpr ⟨json.1,ih json.2⟩

theorem jsonFields_map {pairs : List (String × Fields)} (json : ∀ entry ∈ pairs, jsonFields entry.2 = true) :
    jsonFields (pairs.map fun entry => (entry.1,PyVal.dict entry.2)) = true := by
  induction pairs with
  | nil => rfl
  | cons entry rest ih =>
    rw [List.forall_mem_cons] at json
    exact Bool.and_eq_true_iff.mpr ⟨json.1,ih json.2⟩

theorem output_json (json : JsonState s) : isJson (ofOutput s.final_output) = true := by
  rcases given : s.final_output with _ | _ | ⟨field,rest⟩
  · rfl
  · rfl
  · exact json.output _ given

/-- The document of such a Blackboard is written as it is. -/
theorem document_json (json : JsonState s) : throughFields (encode_taskloop_state s) = .ok (encode_taskloop_state s) := by
  refine throughFields_json _ ?_
  have checks : areJson (s.acceptance_checks.map fun check => .dict check.as_dict) = true :=
    areJson_map fun check _ => by simp [isJson,jsonFields,AcceptanceCheck.as_dict,texts_json]
  have turns : areJson (s.turns.map fun turn => .dict turn.as_dict) = true :=
    areJson_map fun turn _ => by simp [isJson,jsonFields,AgentTurn.as_dict,texts_json]
  have queue : areJson (s.pending_commands.map .dict) = true := areJson_map json.pending
  have artifacts : isJson (ofTable s.artifacts) = true := jsonFields_map json.artifacts
  have tools : isJson (ofTable s.tool_results) = true := jsonFields_map json.tool_results
  simp only [encode_taskloop_state,jsonFields,artifacts,tools,output_json json,texts_json,isJson,checks,turns,queue,Bool.and_self]

/-- The final output that is read back: an empty one is lost. -/
def storedOutput (output : Option Fields) : Option Fields := if output = some [] then none else output

theorem toOutput_ofOutput (output : Option Fields) : toOutput (ofOutput output) = .ok (storedOutput output) := by
  rcases output with _ | _ | ⟨field,rest⟩ <;> rfl

/-- It loads as it was, up to an empty final output. -/
theorem load_json (json : JsonState s) :
    decode_taskloop_state (encode_taskloop_state s) = .ok { s with final_output := storedOutput s.final_output } := by
  obtain ⟨t,loaded,reloaded,v,stored,read⟩ := decode_written (document_json json)
  rw [throughJson_json _ (output_json json)] at stored
  cases stored
  rw [toOutput_ofOutput] at read
  rw [loaded,reloaded.same,table_json json.artifacts reloaded.artifacts,table_json json.tool_results reloaded.tool_results,
    queue_json json.pending reloaded.pending,← Except.ok.inj read]

theorem storedOutput_iff (output : Option Fields) : storedOutput output = output ↔ output ≠ some [] := by
  unfold storedOutput
  by_cases empty : output = some []
  · rw [if_pos empty,empty]
    simp
  · rw [if_neg empty]
    exact ⟨fun _ => empty,fun _ => rfl⟩

/-- It loads as itself exactly when its final output is not the empty one. -/
theorem reloads_self_iff (json : JsonState s) : Reloads s s ↔ s.final_output ≠ some [] := by
  rw [← storedOutput_iff]
  constructor
  · rintro ⟨document,saved,loaded⟩
    rw [document_json json] at saved
    cases saved
    rw [load_json json] at loaded
    exact congrArg TaskLoopState.final_output (Except.ok.inj loaded)
  · intro kept
    refine ⟨_,document_json json,?_⟩
    rw [load_json json,kept]

/-- The final output in a result. -/
def shownOutput : Option Fields → PyVal
  | some fields => .dict fields
  | none => .null

theorem result_get (s : TaskLoopState) : Fields.get (result s) "final_output" = shownOutput s.final_output := by
  unfold result
  rcases s.final_output with _ | fields <;> rfl

theorem shownOutput_injective {a b : Option Fields} (same : shownOutput a = shownOutput b) : a = b := by
  rcases a with _ | before <;> rcases b with _ | after
  · rfl
  · cases same
  · cases same
  · cases same
    rfl

/-- Results differ where the final outputs do. -/
theorem result_output (same : result s = result t) : s.final_output = t.final_output := by
  have output := congrArg (fun fields => Fields.get fields "final_output") same
  simp only [result_get] at output
  exact shownOutput_injective output

/-! ### A terminal checkpoint -/

variable {ctx : SupervisorContext}

/-- Resuming a terminal checkpoint of the session reports what was loaded. -/
theorem resume_terminal (json : JsonState s) (ended : s.is_terminal = true) (session : s.session_id = ctx.identity.session_id)
    (task : s.task_id = ctx.identity.task_id) (run_id : String) (max_decision_repeats : Int) (budget : Budget)
    (emitter : Option EventEmitter) :
    (resume_task_loop ctx run_id (some (encode_taskloop_state s)) max_decision_repeats budget emitter).1 =
      .ok (result { s with final_output := storedOutput s.final_output }) := by
  have restored : restore ctx run_id (some (encode_taskloop_state s)) = .ok { s with final_output := storedOutput s.final_output } := by
    unfold restore
    dsimp only
    rw [load_json json]
    simp only [bind,Except.bind]
    rw [if_neg (by rw [session,task]; simp)]
  unfold resume_task_loop
  rw [restored]
  dsimp only
  unfold continueLoop
  rw [bind_run_ok (show (currentBoard).run (freshWorld { s with final_output := storedOutput s.final_output } emitter) =
    (.ok { s with final_output := storedOutput s.final_output },_) from rfl)]
  rw [if_pos (show TaskLoopState.is_terminal { s with final_output := storedOutput s.final_output } = true from ended)]
  rfl

/-- The Blackboard stays that of the session and the task. -/
theorem move_identity {cause : Event} (move : LoopMove ctx cause s t) : t.session_id = s.session_id ∧ t.task_id = s.task_id := by
  cases move with
  | round move => exact ⟨(round_frame move).session_id,(round_frame move).task_id⟩
  | _ => exact ⟨rfl,rfl⟩

theorem drives_identity {budget : Budget} {ending : Ending} (drives : Drives ctx budget s ending) :
    s.session_id = ctx.identity.session_id ∧ s.task_id = ctx.identity.task_id := by
  cases drives with
  | launch read => exact ⟨rfl,rfl⟩
  | @resume _ _ _ _ _ run lastSave reloads run_id document restored going =>
    unfold restore at restored
    dsimp only at restored
    rcases decoded : decode_taskloop_state document with error | state
    · rw [decoded] at restored
      cases restored
    · rw [decoded] at restored
      simp only [bind,Except.bind] at restored
      split at restored
      · cases restored
      · next own =>
        cases restored
        rw [not_or,not_not,not_not] at own
        exact own

/-- Every Blackboard of a run whose payloads are JSON values loads as itself, and the last
    checkpoint of a run that returned reports what it returned, exactly when the final output
    is not an empty one. -/
theorem checkpoint_kept_iff {budget : Budget} {ending : Ending} (drives : Drives ctx budget s ending) :
    (∀ t ∈ states s ending.2.journal, JsonState t → (Reloads t t ↔ t.final_output ≠ some [])) ∧
    ∀ r, ending.1 = .ok r → ctx.checkpoint.isSome → JsonState ending.2.board →
      ∃ document, (checkpoints ending.2.journal).getLast? = some ending.2.board ∧
        throughFields (encode_taskloop_state ending.2.board) = .ok document ∧
        ∀ (run_id : String) (max_decision_repeats : Int) (budget : Budget) (emitter : Option EventEmitter),
          (resume_task_loop ctx run_id (some document) max_decision_repeats budget emitter).1 = .ok r ↔
            ending.2.board.final_output ≠ some [] := by
  have drove := drives_spec drives
  refine ⟨fun t _ json => reloads_self_iff json,fun r returned database json => ?_⟩
  have last := (drove.finished r returned).last database
  have reached := checkpoints_subset_states drove.follows _ (List.mem_of_getLast? last)
  have along : ∀ c t u, (loopRules ctx everything).move c t u →
      (t.session_id = ctx.identity.session_id ∧ t.task_id = ctx.identity.task_id) →
      u.session_id = ctx.identity.session_id ∧ u.task_id = ctx.identity.task_id := fun _ _ _ move own =>
    ⟨(move_identity move).1.trans own.1,(move_identity move).2.trans own.2⟩
  have own := follows_invariant along drove.follows (drives_identity drives) _ reached
  refine ⟨_,last,document_json json,fun run_id max_decision_repeats budget emitter => ?_⟩
  rw [resume_terminal json (drove.finished r returned).terminal own.1 own.2,← storedOutput_iff,drove.returned r returned]
  constructor
  · intro same
    exact result_output (Except.ok.inj same)
  · intro kept
    rw [kept]

end

theorem review_reloads : Reloads (start_state reviewContext 3 [{ id := "C1", text := "reviewed" }])
    (start_state reviewContext 3 [{ id := "C1", text := "reviewed" }]) := by
  have drives : Drives reviewContext {} (start_state reviewContext 3 [{ id := "C1", text := "reviewed" }])
      (run_task_loop reviewContext "review" (reviewCriteria.map .item) 3 3 {} none) := .launch rfl "review" 3 3 none
  exact ((checkpoint_kept_iff drives).1 _ (start_mem_states _ _) (by decide)).mpr (by decide)

/-- The review finishes without an output, and its terminal checkpoint is resumed with another result. -/
theorem review_loses_output :
    ∃ ending, Drives reviewContext {} (start_state reviewContext 3 [{ id := "C1", text := "reviewed" }]) ending ∧
      ∃ r t document, ending.1 = .ok r ∧ (checkpoints ending.2.journal).getLast? = some t ∧ JsonState t ∧
        throughFields (encode_taskloop_state t) = .ok document ∧
        (resume_task_loop reviewContext "run" (some document) 3 {} none).1 ≠ .ok r := by
  have drives : Drives reviewContext {} (start_state reviewContext 3 [{ id := "C1", text := "reviewed" }])
      (run_task_loop reviewContext "review" (reviewCriteria.map .item) 3 3 {} none) := .launch rfl "review" 3 3 none
  have drove := drives_spec drives
  have outcome : (run_task_loop reviewContext "review" (reviewCriteria.map .item) 3 3 {} none).1.isOk = true ∧
      JsonState (run_task_loop reviewContext "review" (reviewCriteria.map .item) 3 3 {} none).2.board ∧
      (run_task_loop reviewContext "review" (reviewCriteria.map .item) 3 3 {} none).2.board.final_output = some [] ∧
      (run_task_loop reviewContext "review" (reviewCriteria.map .item) 3 3 {} none).2.board.session_id = "session" ∧
      (run_task_loop reviewContext "review" (reviewCriteria.map .item) 3 3 {} none).2.board.task_id = "task" := by
    decide +kernel
  generalize run_task_loop reviewContext "review" (reviewCriteria.map .item) 3 3 {} none = ending at *
  obtain ⟨ends,json,output,session,task⟩ := outcome
  obtain ⟨returned | error,w⟩ := ending
  · cases ends
  · have last := drove.finished _ rfl
    refine ⟨_,drives,_,_,_,rfl,last.last rfl,json,document_json json,fun same => ?_⟩
    rw [resume_terminal json last.terminal session task,drove.returned _ rfl] at same
    have kept := result_output (Except.ok.inj same)
    rw [storedOutput_iff] at kept
    exact kept output

end HexAgent.Reloading
