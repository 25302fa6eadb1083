import HexAgent.Scripted

/-!
The artifacts of the Blackboard. The loop numbers its own artifacts by how many
there are, so it meets no id but one that a worker brought; what a worker brings
is written under the id it came with, and a checkpoint is written as JSON. So the
Blackboard is append-only exactly in the runs whose workers bring ids of their
own and whose saved payloads JSON gives back.
-/
namespace HexAgent.Artifacts
open HexAgent.Values HexAgent.Json HexAgent.Board HexAgent.Contracts HexAgent.Schemas HexAgent.Graph HexAgent.Loop
open HexAgent.Supervisor HexAgent.Moves HexAgent.Nodes HexAgent.Restarts HexAgent.Scripted Journals

/-! ### Ids that the loop makes -/

theorem padded_toList (n : Nat) :
    (padded n).toList = List.replicate (4 - (toString n).length) '0' ++ Nat.toDigits 10 n := by
  simp [padded]

/-- A padded number reads as the number. -/
theorem padded_injective {n m : Nat} (same : padded n = padded m) : n = m := by
  have reads : ∀ n, Nat.ofDigitChars 10 (padded n).toList 0 = n := fun n => by
    rw [padded_toList,Nat.ofDigitChars_append,Nat.ofDigitChars_replicate_zero,Nat.mul_zero,Nat.ofDigitChars_ten_toDigits]
  rw [← reads n,same,reads]

theorem padded_digits (n : Nat) : '-' ∉ (padded n).toList := by
  intro dash
  rw [padded_toList,List.mem_append] at dash
  rcases dash with zero | digit
  · exact absurd (List.eq_of_mem_replicate zero) (by decide)
  · exact absurd (Nat.isDigit_of_mem_toDigits (by decide) (by decide) digit) (by decide)

/-- The ids of different numbers differ, whatever their kinds. -/
theorem numbered_injective {kind kind' : String} {n m : Nat}
    (same : kind ++ "-" ++ padded n = kind' ++ "-" ++ padded m) : n = m := by
  have chars := congrArg String.toList same
  simp only [String.toList_append,List.append_assoc] at chars
  exact padded_injective (String.toList_inj.mp (after_separator (padded_digits n) (padded_digits m) chars))

/-! ### What is kept -/

/-- The artifacts keep their payloads. -/
def Keeps (s t : TaskLoopState) : Prop :=
  ∀ id payload, s.artifacts.get id = some payload → t.artifacts.get id = some payload

instance : IsPreorder TaskLoopState Keeps where
  refl _ := fun _ _ there => there
  trans _ _ _ first second := fun id payload there => second id payload (first id payload there)

/-- The artifact that a write adds, by what it is for. -/
def addition (s : TaskLoopState) : Event → Option (String × Fields)
  | .posted kind fields => some (next_id kind s,ofKind kind fields)
  | .merged agent_id art => some (art.artifact_id,workerPayload agent_id art)
  | _ => none

/-- What is added is on the Blackboard afterwards. -/
theorem move_adds {ctx : SupervisorContext} {cause : Event} {s t : TaskLoopState} (move : LoopMove ctx cause s t)
    {id : String} {payload : Fields} (adds : addition s cause = some (id,payload)) :
    t.artifacts.get id = some payload := by
  cases move with
  | round move =>
    cases move with
    | post posted => cases adds; exact Dicts.Dict.get_put_self ..
    | worker => cases adds; exact Dicts.Dict.get_put_self ..
    | _ => cases adds
  | _ => cases adds

/-- A write keeps every payload, unless it adds an artifact under an id that holds another one. -/
theorem move_keeps {ctx : SupervisorContext} {cause : Event} {s t : TaskLoopState} (move : LoopMove ctx cause s t)
    (clear : ∀ id payload, addition s cause = some (id,payload) → id ∈ s.artifacts.keys →
      s.artifacts.get id = some payload) : Keeps s t := by
  have added : ∀ id payload, addition s cause = some (id,payload) → Keeps s (s.add_artifact id payload) := by
    intro id payload adds other kept there
    by_cases same : other = id
    · rw [same] at there ⊢
      rw [clear id payload adds (Dicts.Dict.mem_keys_of_get there)] at there
      rw [← there]
      exact Dicts.Dict.get_put_self ..
    · exact (Dicts.Dict.get_put_other same _ _).trans there
  cases move with
  | round move =>
    cases move with
    | post posted => exact added _ _ rfl
    | worker => exact added _ _ rfl
    | judge going judge =>
      rcases judge_row_ok judge with rfl | ⟨id,claimed,evidence,rfl⟩
      · exact refl _
      · exact fun _ _ there => there
    | _ => exact fun _ _ there => there
  | _ => exact fun _ _ there => there

/-- A loaded artifact has the payload that JSON gives back. -/
theorem reloads_get {s t : TaskLoopState} (reloads : Reloads s t) {id : String} {payload : Fields}
    (there : s.artifacts.get id = some payload) :
    ∃ payload', t.artifacts.get id = some payload' ∧ Rewritten payload payload' :=
  (reloads_reloaded reloads).artifacts.get there

/-! ### Which ids there are -/

/-- A worker of the run brought an artifact with the id. -/
def Brought (processes : List (Process TaskLoopState Event)) (id : String) : Prop :=
  ∃ process ∈ processes, ∃ agent_id art t, .wrote (.merged agent_id art) t ∈ process.journal ∧ art.artifact_id = id

/-- The id has a number below the number of artifacts. -/
def Numbered (s : TaskLoopState) (id : String) : Prop := ∃ kind n, n < s.artifacts.size ∧ id = kind ++ "-" ++ padded n

/-- Every id was brought by a worker or numbered by the loop. -/
def Known (processes : List (Process TaskLoopState Event)) (s : TaskLoopState) : Prop :=
  ∀ id ∈ s.artifacts.keys, Brought processes id ∨ Numbered s id

/-- The next id of the loop is new, unless a worker brought it. -/
theorem next_id_brought {processes : List (Process TaskLoopState Event)} {s : TaskLoopState} {kind : String}
    (known : Known processes s) (there : next_id kind s ∈ s.artifacts.keys) : Brought processes (next_id kind s) := by
  refine (known _ there).resolve_right ?_
  rintro ⟨kind',n,below,same⟩
  have equal := numbered_injective same
  omega

theorem known_add {processes : List (Process TaskLoopState Event)} {s : TaskLoopState} {id : String} {payload : Fields}
    (known : Known processes s)
    (origin : id ∉ s.artifacts.keys → Brought processes id ∨ Numbered (s.add_artifact id payload) id) :
    Known processes (s.add_artifact id payload) := by
  have grows : s.artifacts.size ≤ (s.add_artifact id payload).artifacts.size := Dicts.Dict.size_le_put ..
  have old : ∀ other ∈ s.artifacts.keys, Brought processes other ∨ Numbered (s.add_artifact id payload) other := by
    intro other there
    refine (known other there).imp_right fun ⟨kind,n,below,same⟩ => ⟨kind,n,by omega,same⟩
  intro other member
  by_cases there : other ∈ s.artifacts.keys
  · exact old other there
  · rcases Dicts.Dict.mem_keys_put.mp member with rfl | before
    · exact origin there
    · exact old other before

/-- Every state of a run has only ids that were brought or numbered. -/
theorem run_known {admits : SupervisorContext → Prop} {items : List Criterion}
    {processes : List (Process TaskLoopState Event)} (run : Run admits items processes) :
    ∀ process ∈ processes, ∀ s ∈ process.states, Known processes s := by
  have follows : ∀ process ∈ processes, Follows ((runRules admits).within fun cause =>
      ∀ agent_id art, cause = .merged agent_id art → Brought processes art.artifact_id) process.start process.journal := by
    refine fun process inRun => follows_within (run_follows run process inRun) ?_
    rintro _ t written agent_id art rfl
    exact ⟨process,inRun,agent_id,art,t,written,rfl⟩
  refine survives_invariant ?_ ?_ ?_ run follows
  · rintro cause s t ⟨⟨ctx,-,move⟩,brought⟩ known
    cases move with
    | round move =>
      cases move with
      | post posted =>
        refine known_add known fun new => .inr ⟨_,s.artifacts.size,?_,rfl⟩
        rw [TaskLoopState.add_artifact,Dicts.Dict.size_put_new new]
        exact Nat.lt_succ_self _
      | worker => exact known_add known fun _ => .inl (brought _ _ rfl)
      | judge going judge =>
        rcases judge_row_ok judge with rfl | ⟨id,claimed,evidence,rfl⟩
        · exact known
        · exact known
      | _ => exact known
    | _ => exact known
  · rintro s journal ⟨ctx,-,task,max_rounds,repeats,budget,emitter,checks,-,rfl,-⟩ id member
    cases member
  · intro s t reloads known id member
    have keys := (reloads_reloaded reloads).artifacts.keys
    have size : t.artifacts.size = s.artifacts.size := by
      rw [Dicts.Dict.size_eq_keys,Dicts.Dict.size_eq_keys,keys]
    rw [keys] at member
    exact (known id member).imp_right fun ⟨kind,n,below,same⟩ => ⟨kind,n,by omega,same⟩

/-! ### Append-only runs -/

/-- The Blackboard is append-only: along a process and across a restart no artifact
    changes, and what is added is there afterwards. -/
structure AppendOnly (processes : List (Process TaskLoopState Event)) : Prop where
  along : ∀ process ∈ processes, ∀ before later rest, process.journal = before ++ later ++ rest →
    Keeps (after process.start before) (after process.start (before ++ later))
  across : ∀ earlier process rest last, processes = earlier ++ process :: rest →
    (saves earlier).getLast? = some last → Keeps last process.start
  present : ∀ process ∈ processes, ∀ before cause t rest, process.journal = before ++ .wrote cause t :: rest →
    ∀ id payload, addition (after process.start before) cause = some (id,payload) → t.artifacts.get id = some payload

/-- Nobody writes over an artifact: a worker brings no id that holds something else,
    where the loop comes to an id that a worker brought it holds the same, and a restart
    loads from payloads that JSON gives back. -/
structure Apart (processes : List (Process TaskLoopState Event)) : Prop where
  merged : ∀ process ∈ processes, ∀ before agent_id art t rest,
    process.journal = before ++ .wrote (.merged agent_id art) t :: rest →
      art.artifact_id ∈ (after process.start before).artifacts.keys →
        (after process.start before).artifacts.get art.artifact_id = some (workerPayload agent_id art)
  posted : ∀ process ∈ processes, ∀ before kind fields t rest,
    process.journal = before ++ .wrote (.posted kind fields) t :: rest →
      Brought processes (next_id kind (after process.start before)) →
        next_id kind (after process.start before) ∈ (after process.start before).artifacts.keys →
          (after process.start before).artifacts.get (next_id kind (after process.start before)) =
            some (ofKind kind fields)
  loaded : ∀ earlier process rest last, processes = earlier ++ process :: rest →
    (saves earlier).getLast? = some last → ∀ id payload, last.artifacts.get id = some payload → Rewritten payload payload

section
variable {admits : SupervisorContext → Prop} {items : List Criterion} {processes : List (Process TaskLoopState Event)}

/-- The write at a place of the journal of a process is a move of the loop. -/
theorem run_move (run : Run admits items processes) {process : Process TaskLoopState Event} (inRun : process ∈ processes)
    {before rest : Journal} {cause : Event} {t : TaskLoopState}
    (split : process.journal = before ++ .wrote cause t :: rest) :
    ∃ ctx, LoopMove ctx cause (after process.start before) t := by
  have follows := run_follows run process inRun
  rw [split] at follows
  obtain ⟨ctx,-,move⟩ := (follows_append.mp follows).2.1
  exact ⟨ctx,move⟩

/-- Within one write: what an append-only run keeps at an id that is added again. -/
private theorem AppendOnly.same {process : Process TaskLoopState Event} (only : AppendOnly processes)
    (inRun : process ∈ processes) {before rest : Journal} {cause : Event} {t : TaskLoopState}
    (split : process.journal = before ++ .wrote cause t :: rest) {id : String} {payload : Fields}
    (adds : addition (after process.start before) cause = some (id,payload))
    (there : id ∈ (after process.start before).artifacts.keys) :
    (after process.start before).artifacts.get id = some payload := by
  obtain ⟨old,held⟩ := Dicts.Dict.get_of_mem_keys there
  have kept := only.along process inRun before [.wrote cause t] rest (by rw [split]; simp) id old held
  have added := only.present process inRun before cause t rest split id payload adds
  rw [after_append] at kept
  rw [held,← kept]
  exact added

/-- A run is append-only exactly when nobody writes over an artifact. -/
theorem append_only_iff (run : Run admits items processes) : AppendOnly processes ↔ Apart processes := by
  constructor
  · intro only
    refine ⟨?_,?_,?_⟩
    · exact fun process inRun before agent_id art t rest split there => only.same inRun split rfl there
    · exact fun process inRun before kind fields t rest split _ there => only.same inRun split rfl there
    · intro earlier process rest last split lastSave id payload there
      obtain ⟨payload',here,rewritten⟩ := reloads_get (survives_reload run split lastSave) there
      rw [only.across earlier process rest last split lastSave id payload there] at here
      cases here
      exact rewritten
  · intro apart
    refine ⟨fun process inRun => after_related fun before cause t rest split => ?_,?_,?_⟩
    · obtain ⟨ctx,move⟩ := run_move run inRun split
      refine move_keeps move fun id payload adds there => ?_
      cases cause with
      | merged agent_id art =>
        cases adds
        exact apart.merged process inRun before agent_id art t rest split there
      | posted kind fields =>
        cases adds
        have reached : after process.start before ∈ process.states := by
          rw [Process.states,split]
          exact after_prefix_mem_states process.start before _
        have brought := next_id_brought (run_known run process inRun _ reached) there
        exact apart.posted process inRun before kind fields t rest split brought there
      | _ => cases adds
    · intro earlier process rest last split lastSave id payload there
      obtain ⟨payload',here,rewritten⟩ := reloads_get (survives_reload run split lastSave) there
      have same := apart.loaded earlier process rest last split lastSave id payload there
      unfold Rewritten at same rewritten
      rw [same] at rewritten
      cases rewritten
      exact here
    · intro process inRun before cause t rest split id payload adds
      obtain ⟨ctx,move⟩ := run_move run inRun split
      exact move_adds move adds

end

/-! ### A run that adds under new ids, and one that does not -/

/-- Whatever is added is added under a new id. -/
def addsNew (s : TaskLoopState) : Journal → Bool
  | [] => true
  | .wrote cause t :: rest => ((addition s cause).all fun added => added.1 ∉ s.artifacts.keys) && addsNew t rest
  | .saved _ :: rest => addsNew s rest
  | .noted _ :: rest => addsNew s rest

theorem addsNew_split {s t : TaskLoopState} {before rest : Journal} {cause : Event}
    (new : addsNew s (before ++ .wrote cause t :: rest) = true) {id : String} {payload : Fields}
    (adds : addition (after s before) cause = some (id,payload)) : id ∉ (after s before).artifacts.keys := by
  induction before generalizing s with
  | nil =>
    simp only [List.nil_append,addsNew,Bool.and_eq_true] at new
    simp only [after] at adds
    rw [adds] at new
    exact of_decide_eq_true new.1
  | cons entry before ih =>
    cases entry with
    | wrote cause' t' =>
      simp only [List.cons_append,addsNew,Bool.and_eq_true] at new
      exact ih new.2 adds
    | saved t' => exact ih new adds
    | noted event => exact ih new adds

theorem apart_of_addsNew (process : Process TaskLoopState Event) (new : addsNew process.start process.journal = true) :
    Apart [process] := by
  have clear : ∀ other ∈ [process], ∀ before cause t rest, other.journal = before ++ .wrote cause t :: rest →
      ∀ id payload, addition (after other.start before) cause = some (id,payload) →
        id ∉ (after other.start before).artifacts.keys := by
    intro other member before cause t rest split id payload adds
    rw [List.mem_singleton.mp member] at split adds ⊢
    rw [split] at new
    exact addsNew_split new adds
  refine ⟨fun other member before agent_id art t rest split there => ?_,
    fun other member before kind fields t rest split _ there => ?_,fun earlier other rest last split lastSave => ?_⟩
  · exact absurd there (clear other member before _ t rest split _ _ rfl)
  · exact absurd there (clear other member before _ t rest split _ _ rfl)
  · cases earlier with
    | nil => cases lastSave
    | cons head earlier => simp at split

theorem review_append_only : AppendOnly [reviewProcess] :=
  (append_only_iff review_runs).mpr (apart_of_addsNew reviewProcess (by decide +kernel))

/-- A worker that names its artifact like the plan of the session. -/
def overwritingContext : SupervisorContext :=
  scriptedContext (scripted reviewScript (fun _ => succeeds [⟨"session_plan-0000","report",[],1⟩]) fun _ => []) none

def overwritingProcess : Process TaskLoopState Event where
  start := start_state overwritingContext 1 [{ id := "C1", text := "reviewed" }]
  journal := (run_task_loop overwritingContext "review" (reviewCriteria.map .item) 1 3 {} none).2.journal

theorem plan_overwritten : Run (fun _ => True) (reviewCriteria.map .item) [overwritingProcess] ∧
    ¬ AppendOnly [overwritingProcess] := by
  refine ⟨Survives.first ⟨overwritingContext,trivial,"review",1,3,{},none,_,rfl,rfl,rfl⟩ List.prefix_rfl,fun only => ?_⟩
  have kept := only.along overwritingProcess (List.mem_singleton_self _) (overwritingProcess.journal.take 5)
    (overwritingProcess.journal.drop 5) [] (by rw [List.append_nil,List.take_append_drop])
  rw [List.take_append_drop] at kept
  have changed : ((after overwritingProcess.start (overwritingProcess.journal.take 5)).artifacts.get
      "session_plan-0000").any (fun payload =>
        (after overwritingProcess.start overwritingProcess.journal).artifacts.get "session_plan-0000" ≠ some payload) =
          true := by
    decide +kernel
  obtain ⟨payload,there,other⟩ := (Option.any_eq_true ..).mp changed
  exact of_decide_eq_true other (kept _ payload there)

end HexAgent.Artifacts
