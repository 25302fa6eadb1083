import HexAgent.EventLog
import HexAgent.Interleavings
import HexAgent.Projection

/-!
The runs that the console starts. A request lists its job and hands it to a pool of threads; a
thread of the pool logs the run, drives the agent and closes the log. The threads share the table of
jobs, the queue of the pool and the index of runs, and the disk or the agent may fail at every step.
At most so many runs are driven at once (`Pooled`), and what the table says of a finished run is what
its log, its summary and the index say, unless the closing of the log broke (`Settled`).
-/
namespace HexAgent.Jobs
open HexAgent.Values HexAgent.Json HexAgent.Commands HexAgent.EventLog HexAgent.Projection Interleavings
open Dicts (Dict)

/-! ### The controller -/

/-- `type(exc).__name__`. -/
def PyError.cls : PyError → String
  | .JsonGateError .. => "JsonGateError"
  | .ControlContractError .. => "ControlContractError"
  | .JSONDecodeError .. => "JSONDecodeError"
  | .ValueError .. => "ValueError"
  | .TypeError .. => "TypeError"
  | .AttributeError .. => "AttributeError"
  | .KeyError .. => "KeyError"
  | .LookupError .. => "LookupError"
  | .PermissionError .. => "PermissionError"
  | .RuntimeError .. => "RuntimeError"
  | .RecursionError .. => "RecursionError"
  | .FileNotFoundError .. => "FileNotFoundError"
  | .Other cls _ => cls

structure RunJob where
  run_id : String
  prompt : String
  system_prompt : String
  status : String := "queued"
  started_at : Option String := none
  finished_at : Option String := none
  error : Option String := none
deriving DecidableEq

/-- What the threads share: the table, the queue and the busy threads of the pool, and the index of runs. -/
structure Shared where
  _jobs : List (String × RunJob) := []
  queue : List String := []
  busy : List String := []
  index : List (String × String) := []

/-- Where the thread of a run is: in `start`, in the pool, in `_execute`, and in `finish` with the exception that
    made it fail. -/
inductive Stage where
  | absent
  | listed
  | queued
  | taken
  | starting (job : RunJob)
  | opening (prompt : String)
  | prompting (prompt : String)
  | preparing
  | launching
  | running
  | failing (error : String)
  | finishing (status : String) (extra : Fields) (error : Option String)
  | summing (status : String) (summary : Fields) (error : Option String)
  | indexing (status : String) (error : Option String)
  | settling (status : String) (error : Option String)
  | leaving
  | dying
  | ended
  | crashed
deriving DecidableEq

/-- The logger of a run with the lines of its file, and the file `summary.json`. -/
structure Record where
  logger : EventLogger
  _finished : Bool := false
  summary : Option Fields := none

structure Worker extends Record where
  stage : Stage := .absent

/-- What comes from outside: a request, the time when a call goes through, a call that raises, an event of the
    agent with what the disk raises at it, and the outcome of the agent. -/
inductive Reply where
  | asked (prompt system_prompt : String)
  | through (now : String)
  | refused (exc : PyError)
  | posted (e : Posted) (disk : Option PyError)
  | returned (outcome : Fields)

structure Setting where
  clock : Nat → String
  enabled : Bool
  max_workers : Nat
  describe : Describe

section
variable (cfg : Setting)

/-- `_update(run_id, ...)`. -/
def _update (run_id : String) (changes : RunJob → RunJob) (s : Shared) : Except PyError Shared :=
  match Dicts.get run_id s._jobs with
  | some job => .ok { s with _jobs := Dicts.put run_id (changes job) s._jobs }
  | none => .error (.KeyError (reprText run_id))

/-- `emit` on a disk that may refuse the line. -/
def emit (disk : Option PyError) (logger : EventLogger) (kind : String) (fields : Fields) :
    Except PyError Unit × EventLogger :=
  match disk,logger.enabled with
  | some exc,true => (.error exc,{ logger with seq := logger.seq + 1 })
  | _,_ => ((logger.emit cfg.clock kind fields).1.map fun _ => (),(logger.emit cfg.clock kind fields).2)

/-- The bus hands an event to the logger, and drops what it raises. -/
def post (disk : Option PyError) (logger : EventLogger) (e : Posted) : EventLogger :=
  match disk,logger.enabled with
  | some _,true =>
    if Clear e.payload then { logger with seq := logger.seq + 1 } else logger
  | _,_ => publish cfg.clock logger e

/-- The dictionary of counters. -/
def metricsOf (logger : EventLogger) : PyVal := .dict (logger.metrics.map fun metric => (metric.1,.int metric.2))

/-- The text of an exception in the table of jobs. -/
def told (exc : PyError) : Except PyError String := (cfg.describe exc).map fun text => PyError.cls exc ++ ": " ++ text

/-- An exception within the `try` of `_execute` is told; one without a text ends the thread. -/
def raised (exc : PyError) : Stage :=
  match told cfg exc with
  | .ok error => .failing error
  | .error _ => .dying

/-- An exception in the closing of a run: behind the `try` it ends the thread. -/
def caught (error : Option String) (exc : PyError) : Stage :=
  match error with
  | none => raised cfg exc
  | some _ => .dying

/-- What the disk says to a file that is written. -/
def Reply.disk : Reply → Option PyError
  | .refused exc => some exc
  | _ => none

/-- The next step of the thread of a run, if it can take one. -/
def step (i : String) (reply : Reply) (s : Shared) (w : Worker) : Option (Shared × Worker) :=
  match w.stage,reply with
  | .absent,.asked prompt system_prompt =>
    some ({ s with _jobs := Dicts.put i { run_id := i, prompt, system_prompt } s._jobs },{ w with stage := .listed })
  | .listed,.through _ => some ({ s with queue := s.queue ++ [i] },{ w with stage := .queued })
  | .queued,.through _ =>
    if s.queue.head? = some i ∧ s.busy.length < cfg.max_workers then
      some ({ s with queue := s.queue.tail, busy := i :: s.busy },{ w with stage := .taken })
    else none
  | .taken,.through _ =>
    match Dicts.get i s._jobs with
    | some job => some (s,{ w with stage := .starting job })
    | none => some (s,{ w with stage := .leaving })
  | .starting job,.through now =>
    match _update i (fun job => { job with status := "starting", started_at := some now }) s with
    | .ok s => some (s,{ w with stage := .opening job.prompt })
    | .error _ => some (s,{ w with stage := .dying })
  -- the logger is made before the `try`
  | .opening prompt,reply =>
    match emit cfg reply.disk w.logger "StateEvent" [("status",.str "run_started")] with
    | (.ok _,logger) => some (s,{ w with logger, stage := .prompting prompt })
    | (.error _,logger) => some (s,{ w with logger, stage := .dying })
  | .prompting prompt,reply =>
    match emit cfg reply.disk w.logger "UIEvent" [("event",.str "prompt.submitted"),("role",.str "user"),("content",.str
      prompt)] with
    | (.ok _,logger) => some (s,{ w with logger, stage := .preparing })
    | (.error _,logger) => some (s,{ w with logger, stage := .dying })
  | .preparing,.through _ => some (s,{ w with stage := .launching })
  | .preparing,.refused exc => some (s,{ w with stage := raised cfg exc })
  | .launching,.through _ =>
    match _update i (fun job => { job with status := "running" }) s with
    | .ok s => some (s,{ w with stage := .running })
    | .error exc => some (s,{ w with stage := raised cfg exc })
  | .running,.posted e disk => some (s,{ w with logger := post cfg disk w.logger e })
  | .running,.refused exc => some (s,{ w with stage := raised cfg exc })
  | .running,.returned outcome =>
    match strOf ((outcome.get "status").orElse (.str "completed")) with
    | .ok status => some (s,{ w with stage := .finishing status [("outcome",.dict outcome)] none })
    | .error exc => some (s,{ w with stage := raised cfg exc })
  | .failing error,reply =>
    match emit cfg reply.disk w.logger "UIEvent" [("event",.str "run.failed"),("error",.str error)] with
    | (.ok _,logger) => some (s,{ w with logger, stage := .finishing "failed" [("error",.str error)] (some error) })
    | (.error _,logger) => some (s,{ w with logger, stage := .dying })
  | .finishing status extra error,reply =>
    -- only the first call has side effects
    if w._finished then some (s,{ w with stage := .settling status error })
    else
      let summary := Dicts.merge [("run_id",.str i),("status",.str status),("metrics",metricsOf w.logger)] extra
      match emit cfg reply.disk w.logger "StateEvent" [("status",.str "run_finished"),("result_status",.str status)] with
      | (.ok _,logger) => some (s,{ w with
          logger, _finished := true
          stage := if w.logger.enabled then .summing status summary error else .settling status error })
      | (.error exc,logger) => some (s,{ w with logger, _finished := true, stage := caught cfg error exc })
  | .summing status summary error,reply =>
    match reply.disk,dumpEvent summary with
    | some exc,_ | none,.error exc => some (s,{ w with stage := caught cfg error exc })
    | none,.ok _ => some (s,{ w with summary := some summary, stage := .indexing status error })
  | .indexing status error,reply =>
    match reply.disk with
    | some exc => some (s,{ w with stage := caught cfg error exc })
    | none => some ({ s with index := s.index ++ [(i,status)] },{ w with stage := .settling status error })
  | .settling status error,.through now =>
    match _update i (fun job => { job with status, finished_at := some now, error := error.orElse fun _ => job.error }) s with
    | .ok s => some (s,{ w with stage := .leaving })
    | .error exc => some (s,{ w with stage := caught cfg error exc })
  | .leaving,.through _ => some ({ s with busy := s.busy.erase i },{ w with stage := .ended })
  | .dying,.through _ => some ({ s with busy := s.busy.erase i },{ w with stage := .crashed })
  | _,_ => none

def Moves (i : String) (s : Shared) (w : Worker) (s' : Shared) (w' : Worker) : Prop :=
  ∃ reply, step cfg i reply s w = some (s',w')

/-- Nothing was asked for yet. -/
def start : Config String Shared Worker := ⟨{},fun i => { logger := { run_id := i, enabled := cfg.enabled } }⟩

end

/-! ### What a step does -/

section
variable {cfg : Setting} {i j : String} {s s' : Shared} {w w' : Worker} {logger logger' : EventLogger} {kind : String}
  {fields : Fields} {disk : Option PyError}

/-- What a call of `emit` leaves: its line where there is a file, and nothing else but the number. -/
inductive Emitted (cfg : Setting) (logger : EventLogger) (kind : String) (fields : Fields) : EventLogger → Prop where
  | written (text : String) (file : logger.enabled = true) : Emitted cfg logger kind fields { logger with
      seq := logger.seq + 1, lines := logger.lines ++ [⟨eventOf cfg.clock logger.run_id kind (logger.seq + 1) fields,text⟩] }
  | unwritten (nofile : logger.enabled = false) : Emitted cfg logger kind fields { logger with seq := logger.seq + 1 }

/-- A call of `emit` writes its line, or raises and leaves the file as it is. -/
theorem emit_cases : (∃ u, (emit cfg disk logger kind fields).1 = .ok u ∧
      Emitted cfg logger kind fields (emit cfg disk logger kind fields).2) ∨
    logger.enabled = true ∧ ∃ exc, emit cfg disk logger kind fields = (.error exc,{ logger with seq := logger.seq + 1 }) := by
  obtain ⟨run_id,enabled,seq,metrics,lines⟩ := logger
  cases enabled with
  | false => cases disk <;> exact .inl ⟨(),rfl,.unwritten rfl⟩
  | true =>
    cases disk with
    | some exc => exact .inr ⟨rfl,exc,rfl⟩
    | none =>
      rcases dumped : dumpEvent (eventOf cfg.clock run_id kind (seq + 1) fields).pairs with exc | text
      · exact .inr ⟨rfl,exc,by simp [emit,EventLogger.emit,dumped,Except.map]⟩
      · have left : emit cfg none ⟨run_id,true,seq,metrics,lines⟩ kind fields = (.ok (),⟨run_id,true,seq + 1,metrics,
            lines ++ [⟨eventOf cfg.clock run_id kind (seq + 1) fields,text ++ "\n"⟩]⟩) := by
          simp [emit,EventLogger.emit,dumped,Except.map]
        rw [left]
        exact .inl ⟨(),rfl,.written (text ++ "\n") rfl⟩

theorem emit_ok {u : Unit} (emitted : emit cfg disk logger kind fields = (.ok u,logger')) :
    Emitted cfg logger kind fields logger' := by
  rcases @emit_cases cfg logger kind fields disk with ⟨v,-,wrote⟩ | ⟨-,exc,raised⟩
  · rwa [emitted] at wrote
  · rw [raised] at emitted
    cases emitted

theorem emit_error {exc : PyError} (emitted : emit cfg disk logger kind fields = (.error exc,logger')) :
    logger.enabled = true ∧ logger' = { logger with seq := logger.seq + 1 } := by
  rcases @emit_cases cfg logger kind fields disk with ⟨v,went,-⟩ | ⟨file,exc',raised⟩
  · rw [emitted] at went
    cases went
  · exact ⟨file,(Prod.mk.inj (emitted.symm.trans raised)).2⟩

/-- The thread of the run holds a place in the pool. -/
def Stage.live : Stage → Bool
  | .absent | .listed | .queued | .ended | .crashed => false
  | _ => true

theorem raised_cases (cfg : Setting) (exc : PyError) :
    (∃ error, raised cfg exc = .failing error) ∨ raised cfg exc = .dying := by
  unfold raised
  split
  · next error _ => exact .inl ⟨error,rfl⟩
  · exact .inr rfl

@[simp] theorem raised_live (cfg : Setting) (exc : PyError) : (raised cfg exc).live = true := by
  rcases raised_cases cfg exc with ⟨error,same⟩ | same <;> rw [same] <;> rfl

@[simp] theorem caught_live (cfg : Setting) (error : Option String) (exc : PyError) : (caught cfg error exc).live = true := by
  cases error
  · exact raised_live cfg exc
  · rfl

/-- Every step of the thread of a run, with what it finds and what it changes. -/
inductive Taken (cfg : Setting) (i : String) (s : Shared) (w : Worker) : Shared → Worker → Prop where
  | asked (prompt system_prompt : String) (here : w.stage = .absent) : Taken cfg i s w
      { s with _jobs := Dicts.put i { run_id := i, prompt, system_prompt } s._jobs } { w with stage := .listed }
  | submitted (here : w.stage = .listed) : Taken cfg i s w { s with queue := s.queue ++ [i] } { w with stage := .queued }
  | taken (here : w.stage = .queued) (first : s.queue.head? = some i) (free : s.busy.length < cfg.max_workers) :
      Taken cfg i s w { s with queue := s.queue.tail, busy := i :: s.busy } { w with stage := .taken }
  | got {job : RunJob} (here : w.stage = .taken) (found : Dicts.get i s._jobs = some job) :
      Taken cfg i s w s { w with stage := .starting job }
  | unlisted {stage : Stage} (here : w.stage.live = true) (there : stage.live = true)
      (missing : Dicts.get i s._jobs = none) : Taken cfg i s w s { w with stage }
  | started {job there : RunJob} {now : String} (here : w.stage = .starting job) (found : Dicts.get i s._jobs = some there) :
      Taken cfg i s w { s with _jobs := Dicts.put i { there with status := "starting", started_at := some now } s._jobs }
        { w with stage := .opening job.prompt }
  | opened {prompt : String} {logger : EventLogger} (here : w.stage = .opening prompt)
      (wrote : Emitted cfg w.logger "StateEvent" [("status",.str "run_started")] logger) :
      Taken cfg i s w s { w with logger, stage := .prompting prompt }
  | prompted {prompt : String} {logger : EventLogger} (here : w.stage = .prompting prompt)
      (wrote : Emitted cfg w.logger "UIEvent" [("event",.str "prompt.submitted"),("role",.str "user"),("content",.str
        prompt)] logger) :
      Taken cfg i s w s { w with logger, stage := .preparing }
  | prepared (here : w.stage = .preparing) : Taken cfg i s w s { w with stage := .launching }
  | launched {there : RunJob} (here : w.stage = .launching) (found : Dicts.get i s._jobs = some there) :
      Taken cfg i s w { s with _jobs := Dicts.put i { there with status := "running" } s._jobs } { w with stage := .running }
  | posted (e : Posted) (disk : Option PyError) (here : w.stage = .running) :
      Taken cfg i s w s { w with logger := post cfg disk w.logger e }
  | returned (status : String) (outcome : Fields) (here : w.stage = .running) :
      Taken cfg i s w s { w with stage := .finishing status [("outcome",.dict outcome)] none }
  | failed (exc : PyError) (here : w.stage = .preparing ∨ w.stage = .running) :
      Taken cfg i s w s { w with stage := raised cfg exc }
  | noted {error : String} {logger : EventLogger} (here : w.stage = .failing error)
      (wrote : Emitted cfg w.logger "UIEvent" [("event",.str "run.failed"),("error",.str error)] logger) :
      Taken cfg i s w s { w with logger, stage := .finishing "failed" [("error",.str error)] (some error) }
  -- what is raised outside the `try`, or while an exception is told
  | broken {seq : Nat} (here : (∃ prompt, w.stage = .opening prompt ∨ w.stage = .prompting prompt) ∨
      ∃ error, w.stage = .failing error) : Taken cfg i s w s { w with logger := { w.logger with seq }, stage := .dying }
  | again {status : String} {extra : Fields} {error : Option String} (here : w.stage = .finishing status extra error)
      (finished : w._finished = true) : Taken cfg i s w s { w with stage := .settling status error }
  | finished {status : String} {extra : Fields} {error : Option String} {logger : EventLogger}
      (here : w.stage = .finishing status extra error) (first : w._finished = false)
      (wrote : Emitted cfg w.logger "StateEvent" [("status",.str "run_finished"),("result_status",.str status)] logger) :
      Taken cfg i s w s { w with
        logger, _finished := true
        stage := if w.logger.enabled then .summing status (Dicts.merge [("run_id",.str i),("status",.str
          status),("metrics",metricsOf w.logger)] extra) error else .settling status error }
  | unfinished {status : String} {extra : Fields} {error : Option String} {seq : Nat} (exc : PyError)
      (here : w.stage = .finishing status extra error) (first : w._finished = false) (file : w.logger.enabled = true) :
      Taken cfg i s w s { w with logger := { w.logger with seq }, _finished := true, stage := caught cfg error exc }
  | summed {status : String} {summary : Fields} {error : Option String} (here : w.stage = .summing status summary error) :
      Taken cfg i s w s { w with summary := some summary, stage := .indexing status error }
  | unsummed {status : String} {summary : Fields} {error : Option String} (exc : PyError)
      (here : w.stage = .summing status summary error) : Taken cfg i s w s { w with stage := caught cfg error exc }
  | indexed {status : String} {error : Option String} (here : w.stage = .indexing status error) :
      Taken cfg i s w { s with index := s.index ++ [(i,status)] } { w with stage := .settling status error }
  | unindexed {status : String} {error : Option String} (exc : PyError) (here : w.stage = .indexing status error) :
      Taken cfg i s w s { w with stage := caught cfg error exc }
  | settled {status now : String} {error : Option String} {there : RunJob} (here : w.stage = .settling status error)
      (found : Dicts.get i s._jobs = some there) :
      Taken cfg i s w { s with _jobs := Dicts.put i { there with
        status, finished_at := some now, error := error.orElse fun _ => there.error } s._jobs } { w with stage := .leaving }
  | left (here : w.stage = .leaving) : Taken cfg i s w { s with busy := s.busy.erase i } { w with stage := .ended }
  | crashed (here : w.stage = .dying) : Taken cfg i s w { s with busy := s.busy.erase i } { w with stage := .crashed }

theorem update_cases {changes : RunJob → RunJob} :
    (∃ job, Dicts.get i s._jobs = some job ∧
      _update i changes s = .ok { s with _jobs := Dicts.put i (changes job) s._jobs }) ∨
    (Dicts.get i s._jobs = none ∧ ∃ exc, _update i changes s = .error exc) := by
  unfold _update
  cases found : Dicts.get i s._jobs with
  | some job => exact .inl ⟨job,rfl,rfl⟩
  | none => exact .inr ⟨rfl,_,rfl⟩

theorem step_taken {reply : Reply} (stepped : step cfg i reply s w = some (s',w')) : Taken cfg i s w s' w' := by
  obtain ⟨⟨logger,_finished,summary⟩,stage⟩ := w
  cases stage with
  | absent =>
    cases reply <;> cases stepped
    exact .asked _ _ rfl
  | listed =>
    cases reply <;> cases stepped
    exact .submitted rfl
  | queued =>
    cases reply <;> simp only [step,reduceCtorEq] at stepped
    split_ifs at stepped with next
    cases stepped
    exact .taken rfl next.1 next.2
  | taken =>
    cases reply <;> simp only [step,reduceCtorEq] at stepped
    cases found : Dicts.get i s._jobs with
    | some job =>
      rw [found] at stepped
      cases stepped
      exact .got rfl found
    | none =>
      rw [found] at stepped
      cases stepped
      exact .unlisted rfl rfl found
  | starting job =>
    cases reply with
    | through now =>
      simp only [step] at stepped
      rcases @update_cases i s _ with ⟨there,found,updated⟩ | ⟨missing,exc,raised⟩
      · rw [updated] at stepped
        cases stepped
        exact .started rfl found
      · rw [raised] at stepped
        cases stepped
        exact .unlisted rfl rfl missing
    | _ => cases stepped
  | opening prompt =>
    simp only [step] at stepped
    rcases emitted : emit cfg reply.disk logger "StateEvent" [("status",.str "run_started")] with ⟨exc | u,logger'⟩
    · rw [emitted] at stepped
      obtain ⟨-,rfl⟩ := emit_error emitted
      cases stepped
      exact .broken (.inl ⟨prompt,.inl rfl⟩)
    · rw [emitted] at stepped
      cases stepped
      exact .opened rfl (emit_ok emitted)
  | prompting prompt =>
    simp only [step] at stepped
    rcases emitted : emit cfg reply.disk logger "UIEvent" [("event",.str "prompt.submitted"),("role",.str
      "user"),("content",.str prompt)] with ⟨exc | u,logger'⟩
    · rw [emitted] at stepped
      obtain ⟨-,rfl⟩ := emit_error emitted
      cases stepped
      exact .broken (.inl ⟨prompt,.inr rfl⟩)
    · rw [emitted] at stepped
      cases stepped
      exact .prompted rfl (emit_ok emitted)
  | preparing =>
    cases reply with
    | through now =>
      cases stepped
      exact .prepared rfl
    | refused exc =>
      cases stepped
      exact .failed _ (.inl rfl)
    | _ => cases stepped
  | launching =>
    cases reply with
    | through now =>
      simp only [step] at stepped
      rcases @update_cases i s _ with ⟨there,found,updated⟩ | ⟨missing,exc,raised⟩
      · rw [updated] at stepped
        cases stepped
        exact .launched rfl found
      · rw [raised] at stepped
        cases stepped
        exact .unlisted rfl (raised_live cfg exc) missing
    | _ => cases stepped
  | running =>
    cases reply with
    | posted e disk =>
      cases stepped
      exact .posted e disk rfl
    | refused exc =>
      cases stepped
      exact .failed _ (.inr rfl)
    | returned outcome =>
      simp only [step] at stepped
      split at stepped
      · cases stepped
        exact .returned _ outcome rfl
      · cases stepped
        exact .failed _ (.inr rfl)
    | _ => cases stepped
  | failing error =>
    simp only [step] at stepped
    rcases emitted : emit cfg reply.disk logger "UIEvent" [("event",.str "run.failed"),("error",.str error)] with
      ⟨exc | u,logger'⟩
    · rw [emitted] at stepped
      obtain ⟨-,rfl⟩ := emit_error emitted
      cases stepped
      exact .broken (.inr ⟨error,rfl⟩)
    · rw [emitted] at stepped
      cases stepped
      exact .noted rfl (emit_ok emitted)
  | finishing status extra error =>
    cases _finished with
    | true =>
      cases stepped
      exact .again rfl rfl
    | false =>
      simp only [step,Bool.false_eq_true,if_false] at stepped
      rcases emitted : emit cfg reply.disk logger "StateEvent" [("status",.str "run_finished"),("result_status",.str
        status)] with ⟨exc | u,logger'⟩
      · rw [emitted] at stepped
        obtain ⟨file,rfl⟩ := emit_error emitted
        cases stepped
        exact .unfinished exc rfl rfl file
      · rw [emitted] at stepped
        cases stepped
        exact .finished rfl rfl (emit_ok emitted)
  | summing status summary' error =>
    simp only [step] at stepped
    rcases disk : reply.disk with _ | exc
    · rcases dumped : dumpEvent summary' with exc | text
      · rw [disk,dumped] at stepped
        cases stepped
        exact .unsummed exc rfl
      · rw [disk,dumped] at stepped
        cases stepped
        exact .summed rfl
    · rw [disk] at stepped
      cases stepped
      exact .unsummed exc rfl
  | indexing status error =>
    simp only [step] at stepped
    rcases disk : reply.disk with _ | exc
    · rw [disk] at stepped
      cases stepped
      exact .indexed rfl
    · rw [disk] at stepped
      cases stepped
      exact .unindexed exc rfl
  | settling status error =>
    cases reply with
    | through now =>
      simp only [step] at stepped
      rcases @update_cases i s _ with ⟨there,found,updated⟩ | ⟨missing,exc,raised⟩
      · rw [updated] at stepped
        cases stepped
        exact .settled rfl found
      · rw [raised] at stepped
        cases stepped
        exact .unlisted rfl (caught_live cfg error exc) missing
    | _ => cases stepped
  | leaving =>
    cases reply <;> cases stepped
    exact .left rfl
  | dying =>
    cases reply <;> cases stepped
    exact .crashed rfl
  | ended => cases reply <;> cases stepped
  | crashed => cases reply <;> cases stepped

end

/-! ### What the log of a run tells -/

/-- What a line says of the end of its run. -/
def notable (line : Line) : Option (String × PyVal) :=
  if line.event.get "kind" = some (.str "StateEvent") ∧ line.event.get "status" = some (.str "run_finished") then
    (line.event.get "result_status").map fun status => ("run_finished",status)
  else if line.event.get "kind" = some (.str "UIEvent") ∧ line.event.get "event" = some (.str "run.failed") then
    (line.event.get "error").map fun error => ("run.failed",error)
  else none

def tale (logger : EventLogger) : List (String × PyVal) := logger.lines.filterMap notable

/-- The exception that a closing tells first, if there is one. -/
def failure (error : Option String) : List (String × PyVal) := error.toList.map fun error => ("run.failed",.str error)

/-- What is in a file exists only where files are written. -/
def inFile (cfg : Setting) (told : List (String × PyVal)) : List (String × PyVal) := if cfg.enabled then told else []

/-- The logger of the run, under the setting. -/
structure Owned (cfg : Setting) (i : String) (logger : EventLogger) : Prop where
  run : logger.run_id = i
  file : logger.enabled = cfg.enabled

section
variable {cfg : Setting} {i : String} {logger logger' : EventLogger} {kind : String} {fields : Fields}
  {entry : List (String × PyVal)}

theorem Owned.emitted (owned : Owned cfg i logger) (wrote : Emitted cfg logger kind fields logger') :
    Owned cfg i logger' := by
  cases wrote <;> exact ⟨owned.run,owned.file⟩

/-- A line that is written adds what it says to what the log tells. -/
theorem tale_emitted (owned : Owned cfg i logger) (wrote : Emitted cfg logger kind fields logger')
    (tells : ∀ seq text, (notable ⟨eventOf cfg.clock i kind seq fields,text⟩).toList = entry) :
    tale logger' = tale logger ++ inFile cfg entry := by
  cases wrote with
  | written text file =>
    rw [inFile,if_pos (owned.file.symm.trans file),← tells (logger.seq + 1) text,← owned.run]
    unfold tale
    rw [List.filterMap_append]
    rcases noted : notable ⟨eventOf cfg.clock logger.run_id kind (logger.seq + 1) fields,text⟩ with _ | entry
    · rw [List.filterMap_cons_none noted]
      rfl
    · rw [List.filterMap_cons_some noted]
      rfl
  | unwritten nofile =>
    rw [inFile,if_neg (by rw [← owned.file,nofile]; decide),List.append_nil]
    rfl

theorem kind_unnoted {e : Posted} (clear : Clear e.payload) (clock : Nat → String) (seq : Nat) (text : String) :
    notable ⟨lineEvent clock i seq e,text⟩ = none := by
  have kind : (lineEvent clock i seq e).get "kind" = some (.str (if is_llm e.payload then "LLMCallEvent" else "KernelEvent")) := by
    have absent : e.payload.get "kind" = none := Dict.get_eq_none_iff.mpr clear.2.2
    unfold lineEvent
    rw [event_get clear,if_neg (by decide),absent]
    rfl
  unfold notable
  rw [if_neg,if_neg]
  · rintro ⟨same,-⟩
    rw [kind] at same
    split at same <;> exact absurd same (by decide)
  · rintro ⟨same,-⟩
    rw [kind] at same
    split at same <;> exact absurd same (by decide)

/-- No event of the agent is taken for the end of the run. -/
theorem tale_posted (e : Posted) (disk : Option PyError) :
    tale (post cfg disk logger e) = tale logger ∧ (Owned cfg i logger → Owned cfg i (post cfg disk logger e)) := by
  have published : tale (publish cfg.clock logger e) = tale logger ∧
      (Owned cfg i logger → Owned cfg i (publish cfg.clock logger e)) := by
    rcases file : logger.enabled
    · obtain ⟨lines,nofile⟩ := @publish_disabled cfg.clock logger e file
      refine ⟨by unfold tale; rw [lines],fun owned => ⟨?_,nofile.trans (file.symm.trans owned.file)⟩⟩
      rw [← owned.run]
      unfold EventLog.publish sink
      by_cases clear : Clear e.payload
      · rw [emitted_clear clear]
        unfold EventLogger.emit
        rw [if_neg (by rw [file]; decide)]
        dsimp only
        rw [counting_frame]
      · obtain ⟨exc,raised⟩ := @emitted_unclear cfg.clock logger e clear (if is_llm e.payload then "LLMCallEvent" else
          "KernelEvent")
        rw [raised]
    · by_cases written : Written cfg.clock logger.run_id (logger.seq + 1) e
      · obtain ⟨text,metrics,same,-⟩ := publish_written file written
        rw [same]
        refine ⟨?_,fun owned => ⟨owned.run,owned.file⟩⟩
        unfold tale
        rw [List.filterMap_append,List.filterMap_cons_none (kind_unnoted written.1 cfg.clock _ text)]
        exact List.append_nil _
      · obtain ⟨seq,same⟩ := publish_unwritten file written
        rw [same]
        exact ⟨rfl,fun owned => ⟨owned.run,owned.file⟩⟩
  unfold post
  split
  · split_ifs
    · exact ⟨rfl,fun owned => ⟨owned.run,owned.file⟩⟩
    · exact ⟨rfl,id⟩
  · exact published

end

/-! ### What each stage knows -/

/-- What the index says of a run. -/
def indexed (i : String) (s : Shared) : List String := (s.index.filter fun entry => entry.1 = i).map Prod.snd

/-- Nothing of the closing happened, and the log tells so much. -/
structure Fresh (index : List String) (r : Record) (told : List (String × PyVal)) : Prop where
  unfinished : r._finished = false
  unsummed : r.summary = none
  unindexed : index = []
  tale : tale r.logger = told

/-- The summary names the run and its status. -/
structure Summarizes (i status : String) (summary : Fields) : Prop where
  run : summary.get "run_id" = .str i
  status : summary.get "status" = .str status

/-- The closing of an outcome broke before the index was written. -/
structure Broke (cfg : Setting) (i : String) (index : List String) (r : Record) (after : List (String × PyVal)) : Prop where
  file : cfg.enabled = true
  finished : r._finished = true
  unindexed : index = []
  before : tale r.logger = after ∧ r.summary = none ∨ ∃ status, tale r.logger = ("run_finished",.str status) :: after ∧
    ∀ summary, r.summary = some summary → Summarizes i status summary

/-- The log, the summary and the index say the same. -/
structure Agreed (cfg : Setting) (i : String) (index : List String) (r : Record) (status : String) (error : Option String) :
    Prop where
  tale : tale r.logger = inFile cfg (failure error ++ [("run_finished",.str status)])
  summed : cfg.enabled = true → ∃ summary, r.summary = some summary ∧ Summarizes i status summary
  unsummed : cfg.enabled = false → r.summary = none
  indexed : index = if cfg.enabled then [status] else []

/-- The job is listed with one of these statuses, and not as finished. -/
def Waits (statuses : List String) (job : Option RunJob) : Prop :=
  ∃ there, job = some there ∧ there.status ∈ statuses ∧ there.finished_at = none ∧ there.error = none

/-- An exception is told as a failure. -/
def Fails (status : String) (error : Option String) : Prop := ∀ text, error = some text → status = "failed"

/-- The first side effects of the closing happened: the log tells of it. -/
structure Closing (cfg : Setting) (index : List String) (r : Record) (status : String) (error : Option String) : Prop where
  file : cfg.enabled = true
  finished : r._finished = true
  unindexed : index = []
  tale : tale r.logger = failure error ++ [("run_finished",.str status)]
  fails : Fails status error

/-- The job is finished, and what it says is what the log, the summary and the index say, unless their writing broke. -/
structure Settled (cfg : Setting) (i : String) (job : RunJob) (index : List String) (r : Record) : Prop where
  fails : Fails job.status job.error
  recorded : Agreed cfg i index r job.status job.error ∨ job.error ≠ none ∧ Broke cfg i index r (failure job.error)

/-- What holds of the run at each stage of its thread. -/
def Known (cfg : Setting) (i : String) (job : Option RunJob) (index : List String) (w : Worker) : Prop :=
  match w.stage with
  | .absent => job = none ∧ Fresh index w.toRecord []
  | .listed | .queued | .taken | .starting _ => Waits ["queued"] job ∧ Fresh index w.toRecord []
  | .opening _ | .prompting _ | .preparing | .launching => Waits ["starting"] job ∧ Fresh index w.toRecord []
  | .running => Waits ["running"] job ∧ Fresh index w.toRecord []
  | .failing _ => Waits ["starting","running"] job ∧ (Fresh index w.toRecord [] ∨ Broke cfg i index w.toRecord [])
  | .finishing status extra error => Waits ["starting","running"] job ∧ Fails status error ∧
      (∃ v, extra = [("outcome",v)] ∨ extra = [("error",v)]) ∧
      (Fresh index w.toRecord (inFile cfg (failure error)) ∨ error ≠ none ∧ Broke cfg i index w.toRecord (failure error))
  | .summing status summary error => Waits ["starting","running"] job ∧ Closing cfg index w.toRecord status error ∧
      w.summary = none ∧ Summarizes i status summary
  | .indexing status error => Waits ["starting","running"] job ∧ Closing cfg index w.toRecord status error ∧
      ∃ summary, w.summary = some summary ∧ Summarizes i status summary
  | .settling status error => Waits ["starting","running"] job ∧ Fails status error ∧
      (Agreed cfg i index w.toRecord status error ∨ error ≠ none ∧ Broke cfg i index w.toRecord (failure error))
  | .leaving | .ended => ∃ there, job = some there ∧ there.finished_at ≠ none ∧ Settled cfg i there index w.toRecord
  | .dying | .crashed => Waits ["starting","running"] job ∧ index = []

section
variable {cfg : Setting} {i j : String} {s s' : Shared} {w w' : Worker} {job : Option RunJob} {index : List String}
  {status : String} {error : Option String} {told : List (String × PyVal)}

theorem Waits.going {there : String} (waits : Waits [there] job) (one : there = "starting" ∨ there = "running") :
    Waits ["starting","running"] job := by
  obtain ⟨found,here,status,unfinished⟩ := waits
  rw [List.mem_singleton] at status
  refine ⟨found,here,?_,unfinished⟩
  rcases one with rfl | rfl <;> simp [status]

theorem indexed_snoc (i j status : String) (s : Shared) :
    indexed j { s with index := s.index ++ [(i,status)] } = indexed j s ++ if i = j then [status] else [] := by
  unfold indexed
  rw [List.filter_append,List.map_append]
  by_cases same : i = j <;> simp [same]

theorem merged_summarizes {logger : EventLogger} {extra : Fields} (one : ∃ v, extra = [("outcome",v)] ∨ extra = [("error",v)]) :
    Summarizes i status (Dicts.merge [("run_id",.str i),("status",.str status),("metrics",metricsOf logger)] extra) := by
  obtain ⟨v,rfl | rfl⟩ := one <;> exact ⟨rfl,rfl⟩

/-- Whatever raises in the closing of an outcome is told, and whatever raises then ends the thread. -/
theorem known_caught {cfg : Setting} {w : Worker} {index : List String} (exc : PyError)
    (waits : Waits ["starting","running"] job) (unindexed : index = [])
    (broke : error = none → Broke cfg i index w.toRecord []) (here : w.stage = caught cfg error exc) :
    Known cfg i job index w := by
  unfold Known
  rw [here]
  cases error with
  | none =>
    rcases raised_cases cfg exc with ⟨error,same⟩ | same
    · rw [caught,same]
      exact ⟨waits,.inr (broke rfl)⟩
    · rw [caught,same]
      exact ⟨waits,unindexed⟩
  | some text => exact ⟨waits,unindexed⟩

theorem Fresh.emitted {r : Record} {kind : String} {fields : Fields} {logger : EventLogger}
    {entry : List (String × PyVal)} (fresh : Fresh index r told) (owned : Owned cfg i r.logger)
    (wrote : Emitted cfg r.logger kind fields logger)
    (tells : ∀ seq text, (notable ⟨eventOf cfg.clock i kind seq fields,text⟩).toList = entry) :
    Fresh index { r with logger } (told ++ inFile cfg entry) :=
  ⟨fresh.unfinished,fresh.unsummed,fresh.unindexed,by rw [tale_emitted owned wrote tells,fresh.tale]⟩

theorem inFile_nil (cfg : Setting) : inFile cfg [] = [] := by
  unfold inFile
  split <;> rfl

/-- What a run knows of itself is kept by its own steps. -/
theorem known_step (owned : Owned cfg i w.logger) (known : Known cfg i (Dicts.get i s._jobs) (indexed i s) w)
    (taken : Taken cfg i s w s' w') : Known cfg i (Dicts.get i s'._jobs) (indexed i s') w' := by
  cases taken with
  | asked prompt system_prompt here =>
    unfold Known at known
    rw [here] at known
    show Waits ["queued"] (Dicts.get i (Dicts.put i _ s._jobs)) ∧ _
    rw [Dicts.get_put_self]
    exact ⟨⟨_,rfl,by simp,rfl,rfl⟩,known.2⟩
  | submitted here | taken here | got here | prepared here | crashed here | left here =>
    unfold Known at known
    rw [here] at known
    exact known
  | unlisted here there missing =>
    -- a run that is driven is in the table
    exfalso
    rw [missing] at known
    unfold Known at known
    split at known <;> simp_all [Waits,Stage.live]
  | started here found =>
    unfold Known at known
    rw [here] at known
    obtain ⟨⟨there,same,-,unfinished,unfailed⟩,fresh⟩ := known
    rw [found] at same
    cases same
    show Waits ["starting"] (Dicts.get i (Dicts.put i _ s._jobs)) ∧ _
    rw [Dicts.get_put_self]
    exact ⟨⟨_,rfl,by simp,unfinished,unfailed⟩,fresh⟩
  | opened here wrote | prompted here wrote =>
    unfold Known at known
    rw [here] at known
    have fresh := known.2.emitted owned wrote fun _ _ => rfl
    rw [inFile_nil] at fresh
    exact ⟨known.1,fresh⟩
  | launched here found =>
    unfold Known at known
    rw [here] at known
    obtain ⟨⟨there,same,-,unfinished,unfailed⟩,fresh⟩ := known
    rw [found] at same
    cases same
    show Waits ["running"] (Dicts.get i (Dicts.put i _ s._jobs)) ∧ _
    rw [Dicts.get_put_self]
    exact ⟨⟨_,rfl,by simp,unfinished,unfailed⟩,fresh⟩
  | posted e disk here =>
    unfold Known at known ⊢
    rw [here] at known
    dsimp only
    rw [here]
    exact ⟨known.1,known.2.unfinished,known.2.unsummed,known.2.unindexed,
      (@tale_posted cfg i w.logger e disk).1.trans known.2.tale⟩
  | returned status outcome here =>
    unfold Known at known
    rw [here] at known
    refine ⟨known.1.going (.inr rfl),fun _ same => (by cases same),⟨_,.inl rfl⟩,.inl ?_⟩
    rw [show failure none = [] from rfl,inFile_nil]
    exact known.2
  | failed exc here =>
    have waits : Waits ["starting","running"] (Dicts.get i s._jobs) ∧ Fresh (indexed i s) w.toRecord [] := by
      unfold Known at known
      rcases here with here | here
      · rw [here] at known
        exact ⟨known.1.going (.inl rfl),known.2⟩
      · rw [here] at known
        exact ⟨known.1.going (.inr rfl),known.2⟩
    unfold Known
    rcases raised_cases cfg exc with ⟨error,same⟩ | same
    · rw [same]
      exact ⟨waits.1,.inl waits.2⟩
    · rw [same]
      exact ⟨waits.1,waits.2.unindexed⟩
  | @noted error logger here wrote =>
    unfold Known at known
    rw [here] at known
    refine ⟨known.1,fun _ _ => rfl,⟨_,.inr rfl⟩,?_⟩
    rcases known.2 with fresh | broke
    · exact .inl (fresh.emitted owned wrote fun _ _ => rfl)
    · refine .inr ⟨fun same => (by cases same),broke.file,broke.finished,broke.unindexed,?_⟩
      have added : tale logger = tale w.logger ++ inFile cfg (failure (some error)) :=
        tale_emitted owned wrote fun _ _ => rfl
      rw [inFile,if_pos broke.file] at added
      show tale logger = _ ∧ _ ∨ ∃ status, tale logger = _ ∧ _
      rw [added]
      rcases broke.before with ⟨untold,unsummed⟩ | ⟨status,told,summed⟩
      · exact .inl ⟨by rw [untold]; rfl,unsummed⟩
      · exact .inr ⟨status,by rw [told]; rfl,summed⟩
  | broken here =>
    rcases here with ⟨prompt,here | here⟩ | ⟨error,here⟩
    · unfold Known at known
      rw [here] at known
      exact ⟨known.1.going (.inl rfl),known.2.unindexed⟩
    · unfold Known at known
      rw [here] at known
      exact ⟨known.1.going (.inl rfl),known.2.unindexed⟩
    · unfold Known at known
      rw [here] at known
      exact ⟨known.1,known.2.elim Fresh.unindexed Broke.unindexed⟩
  | again here finished =>
    unfold Known at known
    rw [here] at known
    obtain ⟨waits,fails,-,fresh | broke⟩ := known
    · rw [fresh.unfinished] at finished
      cases finished
    · exact ⟨waits,fails,.inr broke⟩
  | @finished status extra error logger here first wrote =>
    unfold Known at known
    rw [here] at known
    obtain ⟨waits,fails,one,fresh | ⟨raised,broke⟩⟩ := known
    · have told : tale logger = tale w.logger ++ inFile cfg [("run_finished",.str status)] :=
        tale_emitted owned wrote fun _ _ => rfl
      rw [fresh.tale] at told
      rcases file : cfg.enabled
      · have nofile : w.logger.enabled = false := owned.file.trans file
        unfold Known
        rw [if_neg (by rw [nofile]; decide)]
        refine ⟨waits,fails,.inl ⟨?_,fun some => ?_,fun _ => fresh.unsummed,?_⟩⟩
        · show tale logger = _
          rw [told]
          unfold inFile
          rw [file]
          rfl
        · rw [file] at some
          cases some
        · rw [fresh.unindexed,file]
          rfl
      · have onfile : w.logger.enabled = true := owned.file.trans file
        unfold Known
        rw [if_pos onfile]
        refine ⟨waits,⟨file,rfl,fresh.unindexed,?_,fails⟩,fresh.unsummed,merged_summarizes one⟩
        show tale logger = _
        rw [told]
        unfold inFile
        rw [file]
        rfl
    · rw [broke.finished] at first
      cases first
  | unfinished exc here first file =>
    unfold Known at known
    rw [here] at known
    obtain ⟨waits,fails,one,fresh | ⟨raised,broke⟩⟩ := known
    · refine known_caught exc waits fresh.unindexed (fun outcome => ?_) rfl
      subst outcome
      exact ⟨owned.file.symm.trans file,rfl,fresh.unindexed,.inl ⟨fresh.tale.trans (inFile_nil cfg),fresh.unsummed⟩⟩
    · rw [broke.finished] at first
      cases first
  | summed here =>
    unfold Known at known
    rw [here] at known
    obtain ⟨waits,closing,-,summarizes⟩ := known
    exact ⟨waits,⟨closing.file,closing.finished,closing.unindexed,closing.tale,closing.fails⟩,_,rfl,summarizes⟩
  | @unsummed status summary error exc here =>
    unfold Known at known
    rw [here] at known
    obtain ⟨waits,closing,unsummed,-⟩ := known
    refine known_caught exc waits closing.unindexed (fun outcome => ?_) rfl
    subst outcome
    exact ⟨closing.file,closing.finished,closing.unindexed,.inr ⟨status,closing.tale,fun summary some => by
      rw [show w.summary = none from unsummed] at some
      cases some⟩⟩
  | @indexed status error here =>
    unfold Known at known
    rw [here] at known
    obtain ⟨waits,closing,summary,summed,summarizes⟩ := known
    rw [indexed_snoc,if_pos rfl,closing.unindexed]
    refine ⟨waits,closing.fails,.inl ⟨closing.tale.trans ?_,fun _ => ⟨summary,summed,summarizes⟩,fun none => ?_,?_⟩⟩
    · rw [inFile,if_pos closing.file]
    · rw [closing.file] at none
      cases none
    · rw [closing.file]
      rfl
  | @unindexed status error exc here =>
    unfold Known at known
    rw [here] at known
    obtain ⟨waits,closing,summary,summed,summarizes⟩ := known
    refine known_caught exc waits closing.unindexed (fun outcome => ?_) rfl
    subst outcome
    refine ⟨closing.file,closing.finished,closing.unindexed,.inr ⟨status,closing.tale,fun other some => ?_⟩⟩
    rw [show w.summary = _ from summed] at some
    cases some
    exact summarizes
  | @settled status now error there here found =>
    unfold Known at known
    rw [here] at known
    obtain ⟨⟨there',same,-,unfinished,unfailed⟩,fails,recorded⟩ := known
    rw [found] at same
    cases same
    show ∃ job, Dicts.get i (Dicts.put i _ s._jobs) = some job ∧ _
    rw [Dicts.get_put_self]
    have error' : (error.orElse fun _ => there.error) = error := by
      rw [unfailed]
      cases error <;> rfl
    rw [error']
    exact ⟨_,rfl,fun same => (by cases same),fails,recorded⟩

end

/-! ### The threads together -/

/-- What holds of the pool. -/
structure Common (cfg : Setting) (s : Shared) : Prop where
  busy : s.busy.Nodup
  bounded : s.busy.length ≤ cfg.max_workers
  queue : s.queue.Nodup

/-- What the thread of a run knows: its records and its place in the pool. -/
structure Knows (cfg : Setting) (i : String) (s : Shared) (w : Worker) : Prop where
  owned : Owned cfg i w.logger
  known : Known cfg i (Dicts.get i s._jobs) (indexed i s) w
  busy : i ∈ s.busy ↔ w.stage.live = true
  queued : i ∈ s.queue ↔ w.stage = .queued

section
variable {cfg : Setting} {i j : String} {s s' : Shared} {w w' u : Worker}

theorem taken_owned (owned : Owned cfg i w.logger) (taken : Taken cfg i s w s' w') : Owned cfg i w'.logger := by
  cases taken with
  | opened here wrote | prompted here wrote | noted here wrote | finished here first wrote => exact owned.emitted wrote
  | posted e disk here => exact (tale_posted e disk).2 owned
  | broken here => exact ⟨owned.run,owned.file⟩
  | unfinished exc here first file => exact ⟨owned.run,owned.file⟩
  | _ => exact owned

/-- A step leaves the pool as it is, or enters the queue, or goes from there to a thread, or leaves its thread. -/
inductive Passes (cfg : Setting) (i : String) (s : Shared) (stage : Stage) : Shared → Stage → Prop where
  | stays {s' : Shared} {stage' : Stage} (queue : s'.queue = s.queue) (busy : s'.busy = s.busy)
      (live : stage'.live = stage.live) (out : stage ≠ .queued) (out' : stage' ≠ .queued) : Passes cfg i s stage s' stage'
  | submits {s' : Shared} {stage' : Stage} (here : stage = .listed) (there : stage' = .queued)
      (queue : s'.queue = s.queue ++ [i]) (busy : s'.busy = s.busy) : Passes cfg i s stage s' stage'
  | enters {s' : Shared} {stage' : Stage} (here : stage = .queued) (there : stage' = .taken) (queue : s.queue = i :: s'.queue)
      (busy : s'.busy = i :: s.busy) (free : s.busy.length < cfg.max_workers) : Passes cfg i s stage s' stage'
  | leaves {s' : Shared} {stage' : Stage} (here : stage.live = true) (queue : s'.queue = s.queue) (busy : s'.busy = s.busy.erase i)
      (gone : stage'.live = false) (out' : stage' ≠ .queued) : Passes cfg i s stage s' stage'

theorem caught_ne_queued (error : Option String) (exc : PyError) : caught cfg error exc ≠ .queued := by
  intro same
  have live := caught_live cfg error exc
  rw [same] at live
  cases live

theorem taken_passes (taken : Taken cfg i s w s' w') : Passes cfg i s w.stage s' w'.stage := by
  cases taken with
  | submitted here => exact .submits here rfl rfl rfl
  | taken here first free =>
    obtain ⟨rest,queue⟩ := List.head?_eq_some_iff.mp first
    exact .enters here rfl (by rw [queue]; rfl) rfl free
  | left here => exact .leaves (by rw [here]; rfl) rfl rfl rfl nofun
  | crashed here => exact .leaves (by rw [here]; rfl) rfl rfl rfl nofun
  | unlisted here there missing =>
    refine .stays rfl rfl (there.trans here.symm) (fun out => ?_) fun out => ?_
    · rw [out] at here
      cases here
    · dsimp only at out
      rw [out] at there
      cases there
  | posted e disk here => exact .stays rfl rfl rfl (by rw [here]; nofun) (by show w.stage ≠ _; rw [here]; nofun)
  | failed exc here =>
    have live : w.stage.live = true ∧ w.stage ≠ .queued := by rcases here with here | here <;> rw [here] <;> decide
    exact .stays rfl rfl ((raised_live cfg exc).trans live.1.symm) live.2 (caught_ne_queued none exc)
  | broken here =>
    rcases here with ⟨prompt,here | here⟩ | ⟨error,here⟩ <;>
      exact .stays rfl rfl (by rw [here]; rfl) (by rw [here]; nofun) nofun
  | finished here first wrote =>
    refine .stays rfl rfl ?_ (by rw [here]; nofun) ?_
    · rw [here]
      dsimp only
      split <;> rfl
    · dsimp only
      split <;> nofun
  | unfinished exc here first file | unsummed exc here | unindexed exc here =>
    exact .stays rfl rfl (by rw [here]; exact caught_live _ _ exc) (by rw [here]; nofun) (caught_ne_queued _ exc)
  | asked prompt system_prompt here | got here found | started here found | opened here wrote | prompted here wrote
  | prepared here | launched here found | returned status outcome here | noted here wrote | again here finished
  | summed here | indexed here | settled here found =>
    exact .stays rfl rfl (by rw [here]; rfl) (by rw [here]; nofun) nofun

/-- A step touches no record of another run. -/
theorem taken_apart (apart : j ≠ i) (taken : Taken cfg i s w s' w') :
    Dicts.get j s'._jobs = Dicts.get j s._jobs ∧ indexed j s' = indexed j s := by
  cases taken with
  | asked | started | launched | settled => exact ⟨Dicts.get_put_other apart ..,rfl⟩
  | indexed => exact ⟨rfl,by rw [indexed_snoc,if_neg (Ne.symm apart),List.append_nil]⟩
  | _ => exact ⟨rfl,rfl⟩

theorem outlook (cfg : Setting) : Outlook (Moves cfg) (Common cfg) (Knows cfg) where
  own := by
    rintro i s s' w w' ⟨reply,stepped⟩ common knows
    have taken := step_taken stepped
    obtain ⟨owned,known,busy,queued⟩ := knows
    refine ⟨taken_owned owned taken,known_step owned known taken,?_,?_⟩
    · cases taken_passes taken with
      | stays queue busy' live out out' => rw [busy',live,busy]
      | submits here there queue busy' =>
        rw [busy',busy,here,there]
        exact iff_of_false (by decide) (by decide)
      | enters here there queue busy' free => simp [busy',there,Stage.live]
      | leaves here queue busy' gone out' =>
        rw [busy',gone]
        exact iff_of_false common.busy.not_mem_erase (by decide)
    · cases taken_passes taken with
      | stays queue busy' live out out' =>
        rw [queue,queued]
        exact iff_of_false out out'
      | submits here there queue busy' => simp [queue,there]
      | enters here there queue busy' free =>
        have nodup := common.queue
        rw [queue] at nodup
        exact iff_of_false (List.nodup_cons.mp nodup).1 (by rw [there]; nofun)
      | leaves here queue busy' gone out' =>
        rw [queue,queued]
        refine iff_of_false (fun out => ?_) out'
        rw [out] at here
        cases here
  shared := by
    rintro i s s' w w' ⟨reply,stepped⟩ ⟨nodup,bounded,queue'⟩ knows
    cases taken_passes (step_taken stepped) with
    | stays queue busy live out out' => exact ⟨busy ▸ nodup,busy ▸ bounded,queue ▸ queue'⟩
    | submits here there queue busy =>
      refine ⟨busy ▸ nodup,busy ▸ bounded,?_⟩
      rw [queue]
      refine List.nodup_append.mpr ⟨queue',List.nodup_singleton i,?_⟩
      rintro a member b single rfl
      rw [List.mem_singleton.mp single,knows.queued,here] at member
      cases member
    | enters here there queue busy free =>
      refine ⟨?_,?_,?_⟩
      · rw [busy]
        refine List.nodup_cons.mpr ⟨fun member => ?_,nodup⟩
        rw [knows.busy,here] at member
        cases member
      · rw [busy]
        exact free
      · rw [queue] at queue'
        exact (List.nodup_cons.mp queue').2
    | leaves here queue busy gone out' =>
      refine ⟨?_,?_,queue ▸ queue'⟩
      · rw [busy]
        exact nodup.erase i
      · rw [busy]
        exact List.length_erase_le.trans bounded
  others := by
    rintro i j s s' w w' u apart ⟨reply,stepped⟩ common mine theirs
    have taken := step_taken stepped
    obtain ⟨job,index⟩ := taken_apart apart taken
    refine ⟨theirs.owned,by rw [job,index]; exact theirs.known,?_,?_⟩
    · rw [← theirs.busy]
      cases taken_passes taken with
      | stays queue busy live out out' => rw [busy]
      | submits here there queue busy => rw [busy]
      | enters here there queue busy free => rw [busy,List.mem_cons,or_iff_right apart]
      | leaves here queue busy gone out' => rw [busy,List.mem_erase_of_ne apart]
    · rw [← theirs.queued]
      cases taken_passes taken with
      | stays queue busy live out out' => rw [queue]
      | submits here there queue busy => simp [queue,apart]
      | enters here there queue busy free => rw [queue,List.mem_cons,or_iff_right apart]
      | leaves here queue busy gone out' => rw [queue]

end

/-! ### What the console shows -/

/-- `asdict(job)`. -/
def RunJob.asdict (job : RunJob) : Fields :=
  [("run_id",.str job.run_id),("prompt",.str job.prompt),("system_prompt",.str job.system_prompt),("status",.str
    job.status),("started_at",ofOption job.started_at),("finished_at",ofOption job.finished_at),("error",ofOption job.error)]

/-- A run in the list of the console, from its files and its job. -/
def _run_summary (interp : Interpreter) (run_id : String) (checkpoint summary job : Option Fields) (modified : PyVal) :
    Except PyError Fields := do
  let checkpoint := checkpoint.getD []
  let summary := summary.getD []
  let job := job.getD []
  let shown := (((job.get "status").orElse (summary.get "status")).orElse (checkpoint.get "status")).orElse (.str "observed")
  let status ← _effective_status interp checkpoint shown.text
  let prompt := ((checkpoint.get "task").orElse (job.get "prompt")).orElse (.str "")
  .ok [("run_id",.str run_id),("status",.str status),("prompt",prompt),("step",checkpoint.getD "step" (.int
    0)),("modified_at",modified),("metrics",(summary.get "metrics").orElse (.dict []))]

section
variable {cfg : Setting} {i : String} {s : Shared} {w : Worker} {c d : Config String Shared Worker}

/-- A job and a summary of one status show the same as the summary alone. -/
theorem summary_shown (interp : Interpreter) (checkpoint : Option Fields) (modified : PyVal) {summary : Fields} {job : RunJob}
    (same : summary.get "status" = .str job.status) :
    (_run_summary interp i checkpoint (some summary) (some job.asdict) modified).map (fun shown => shown.get "status") =
      (_run_summary interp i checkpoint (some summary) none modified).map fun shown => shown.get "status" := by
  have first : (job.asdict.get "status").orElse (summary.get "status") = .str job.status := by
    rw [same]
    exact ite_self _
  have alone : (Fields.get [] "status").orElse (summary.get "status") = .str job.status := by
    rw [same]
    rfl
  unfold _run_summary
  simp only [Option.getD_some,Option.getD_none,first,alone]
  cases _effective_status interp (checkpoint.getD []) ((((PyVal.str job.status).orElse
    ((checkpoint.getD []).get "status")).orElse (.str "observed")).text) <;> rfl

/-- A thread of the pool can always go on. -/
theorem live_goes (live : w.stage.live = true) : ∃ reply s' w', step cfg i reply s w = some (s',w') := by
  obtain ⟨⟨logger,_finished,summary⟩,stage⟩ := w
  cases stage with
  | absent | listed | queued | ended | crashed => cases live
  | running => exact ⟨.refused (.Other "" ""),_,_,rfl⟩
  | preparing | leaving | dying => exact ⟨.through "",_,_,rfl⟩
  | finishing status extra error =>
    refine ⟨.through "",?_⟩
    simp only [step]
    split
    · exact ⟨_,_,rfl⟩
    · split <;> exact ⟨_,_,rfl⟩
  | taken | starting | opening | prompting | launching | failing | summing | indexing | settling =>
    refine ⟨.through "",?_⟩
    simp only [step]
    split <;> exact ⟨_,_,rfl⟩

/-- Everything that is told of the runs at a moment. -/
structure Told (cfg : Setting) (c : Config String Shared Worker) : Prop where
  pool : c.shared.busy.Nodup ∧ c.shared.busy.length ≤ cfg.max_workers
  driven : ∀ i, i ∈ c.shared.busy ↔ (c.thread i).stage.live = true
  once : ∀ i, (indexed i c.shared).length ≤ 1
  settled : ∀ i job, Dicts.get i c.shared._jobs = some job → job.finished_at ≠ none →
    Settled cfg i job (indexed i c.shared) (c.thread i).toRecord
  crashed : ∀ i, (c.thread i).stage = .crashed → ∃ job, Dicts.get i c.shared._jobs = some job ∧ job.finished_at = none
  restarted : ∀ i job, Dicts.get i c.shared._jobs = some job → job.finished_at ≠ none → indexed i c.shared ≠ [] →
    ∀ interp checkpoint modified,
      (_run_summary interp i checkpoint (c.thread i).summary (some job.asdict) modified).map (fun shown => shown.get "status") =
        (_run_summary interp i checkpoint (c.thread i).summary none modified).map fun shown => shown.get "status"
  onward : 0 < cfg.max_workers → ∀ i, (c.thread i).stage ∉ [.absent,.ended,.crashed] →
    ∃ j reply s w, (c.thread j).stage ≠ .absent ∧ step cfg j reply c.shared (c.thread j) = some (s,w)

theorem known_once {job : Option RunJob} {index : List String} (known : Known cfg i job index w) : index.length ≤ 1 := by
  have agreed {status : String} {error : Option String} (agreed : Agreed cfg i index w.toRecord status error) :
      index.length ≤ 1 := by
    rw [agreed.indexed]
    split <;> simp
  have empty (unindexed : index = []) : index.length ≤ 1 := by
    rw [unindexed]
    exact Nat.zero_le _
  unfold Known at known
  split at known
  case h_11 => exact empty (known.2.elim Fresh.unindexed Broke.unindexed)
  case h_12 => exact empty (known.2.2.2.elim Fresh.unindexed fun broke => broke.2.unindexed)
  case h_13 | h_14 => exact empty known.2.1.unindexed
  case h_15 => exact known.2.2.elim agreed fun broke => empty broke.2.unindexed
  case h_16 | h_17 =>
    obtain ⟨there,-,-,-,recorded⟩ := known
    exact recorded.elim agreed fun broke => empty broke.2.unindexed
  case h_18 | h_19 => exact empty known.2
  all_goals exact empty known.2.unindexed

/-- Only a finished job has the time of its end. -/
theorem known_settled {job : RunJob} {index : List String} (known : Known cfg i (some job) index w)
    (finished : job.finished_at ≠ none) : Settled cfg i job index w.toRecord := by
  have never {statuses : List String} (waits : Waits statuses (some job)) : Settled cfg i job index w.toRecord := by
    obtain ⟨there,same,-,unfinished,-⟩ := waits
    cases same
    exact absurd unfinished finished
  unfold Known at known
  split at known
  case h_1 => cases known.1
  case h_16 | h_17 =>
    obtain ⟨there,same,-,settled⟩ := known
    cases same
    exact settled
  all_goals exact never known.1

theorem start_knows (cfg : Setting) (i : String) : Knows cfg i (start cfg).shared ((start cfg).thread i) :=
  ⟨⟨rfl,rfl⟩,⟨rfl,rfl,rfl,rfl,rfl⟩,iff_of_false List.not_mem_nil nofun,iff_of_false List.not_mem_nil nofun⟩

/-- While a run is not over, some thread that was asked for can go on. -/
theorem some_goes (knows : ∀ i, Knows cfg i c.shared (c.thread i)) (room : 0 < cfg.max_workers)
    (active : (c.thread i).stage ∉ [.absent,.ended,.crashed]) :
    ∃ j reply s w, (c.thread j).stage ≠ .absent ∧ step cfg j reply c.shared (c.thread j) = some (s,w) := by
  rcases busy : c.shared.busy with _ | ⟨j,rest⟩
  · rcases queue : c.shared.queue with _ | ⟨j,rest⟩
    · -- nobody waits and nobody is driven, so the run is only listed
      have idle : (c.thread i).stage.live = false := by
        rw [← Bool.not_eq_true,← (knows i).busy,busy]
        exact List.not_mem_nil
      have out : (c.thread i).stage ≠ .queued := by
        rw [Ne,← (knows i).queued,queue]
        exact List.not_mem_nil
      have listed : (c.thread i).stage = .listed := by
        cases stage : (c.thread i).stage <;> simp_all [Stage.live]
      refine ⟨i,.through "",{ c.shared with queue := c.shared.queue ++ [i] },{ c.thread i with stage := .queued },
        by rw [listed]; nofun,?_⟩
      unfold step
      rw [listed]
    · have waiting : (c.thread j).stage = .queued := by
        rw [← (knows j).queued,queue]
        exact List.mem_cons_self
      refine ⟨j,.through "",{ c.shared with queue := c.shared.queue.tail, busy := j :: c.shared.busy },
        { c.thread j with stage := .taken },by rw [waiting]; nofun,?_⟩
      unfold step
      rw [waiting]
      exact if_pos ⟨by rw [queue]; rfl,by rw [busy]; exact room⟩
  · have live : (c.thread j).stage.live = true := by
      rw [← (knows j).busy,busy]
      exact List.mem_cons_self
    obtain ⟨reply,s,w,goes⟩ := @live_goes cfg j c.shared (c.thread j) live
    refine ⟨j,reply,s,w,fun absent => ?_,goes⟩
    rw [absent] at live
    cases live

/-- Whatever is asked for, however the steps of the threads mix and whatever fails, at most so many runs are driven at
    once, and what the table says of a finished run is what its log, its summary and the index say, or its closing broke. -/
theorem jobs_settle (cfg : Setting) (run : Runs (Moves cfg) (start cfg) c) : Told cfg c := by
  obtain ⟨common,knows⟩ := (outlook cfg).kept run ⟨⟨List.nodup_nil,Nat.zero_le _,List.nodup_nil⟩,start_knows cfg⟩
  have settled : ∀ i job, Dicts.get i c.shared._jobs = some job → job.finished_at ≠ none →
      Settled cfg i job (indexed i c.shared) (c.thread i).toRecord := by
    intro i job found finished
    have known := (knows i).known
    rw [found] at known
    exact known_settled known finished
  refine ⟨⟨common.busy,common.bounded⟩,fun i => (knows i).busy,fun i => known_once (knows i).known,settled,fun i here => ?_,
    fun i job found finished there interp checkpoint modified => ?_,fun room i active => some_goes knows room active⟩
  · have known := (knows i).known
    unfold Known at known
    rw [here] at known
    obtain ⟨⟨job,found,-,unfinished,-⟩,-⟩ := known
    exact ⟨job,found,unfinished⟩
  · rcases (settled i job found finished).recorded with agreed | broke
    · have file : cfg.enabled = true := by
        by_contra nofile
        rw [agreed.indexed,if_neg nofile] at there
        exact there rfl
      obtain ⟨summary,summed,summarizes⟩ := agreed.summed file
      rw [summed]
      exact summary_shown interp checkpoint modified summarizes.status
    · exact absurd broke.2.unindexed there

end

/-! ### Two runs -/

def console : Setting := ⟨fun _ => "2024-05-01T10:00:00+00:00",true,2,fun exc => .ok exc.message⟩

/-- The steps of one run, up to the agent and from there to its end. -/
def launching (i : String) : List (String × Reply) :=
  (i,.asked "hi" "be brief") :: List.replicate 8 (i,.through "2024-05-01T10:00:00+00:00")

def closing (i : String) (reply : Reply) (steps : Nat) : List (String × Reply) :=
  (i,reply) :: List.replicate steps (i,.through "2024-05-01T10:00:01+00:00")

/-- The agent of the first run ends while the one of the second raises. -/
def twoRuns : Option (Config String Shared Worker) :=
  follow (step console) (start console) (launching "r1" ++ launching "r2" ++
    closing "r2" (.refused (.ValueError "no model")) 5 ++ closing "r1" (.returned [("status",.str "completed")]) 5 ++
    [("r2",.through "2024-05-01T10:00:02+00:00")])

theorem two_runs_settled : (∃ c, twoRuns = some c ∧ Told console c) ∧
    twoRuns.map (fun c => (c.shared._jobs.map fun job => (job.1,job.2.status,job.2.error),c.shared.index,c.shared.busy)) =
      some ([("r1","completed",none),("r2","failed",some "ValueError: no model")],[("r2","failed"),("r1","completed")],[]) := by
  have ran : twoRuns.map (fun c => (c.shared._jobs.map fun job => (job.1,job.2.status,job.2.error),c.shared.index,c.shared.busy)) =
      some ([("r1","completed",none),("r2","failed",some "ValueError: no model")],[("r2","failed"),("r1","completed")],[]) := by
    decide +kernel
  refine ⟨?_,ran⟩
  rcases followed : twoRuns with _ | c
  · rw [followed] at ran
    cases ran
  · exact ⟨c,rfl,jobs_settle console (follow_runs followed)⟩

end HexAgent.Jobs
