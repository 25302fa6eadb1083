import HexAgent.Paths
import HexAgent.Values
import Mathlib.Data.List.Infix

/-!
Where the data of a run lies. A run id names a directory below the directory of all runs;
the event log, the Blackboard's database, the graph's checkpoints and the console's view of
a run each turn the id into a location by themselves.
-/
namespace HexAgent.RunPaths
open HexAgent.Values Paths

/-- The machine: the directory of the runs, the current directory, which directories exist,
    the names of the runs that are listed, and the ids that are drawn. -/
structure Host where
  runs_dir : PosixPath
  cwd : List String
  is_dir : PosixPath → Bool
  listed : List String
  stamp : String
  task_id : String

/-! ### The four places -/

/-- The id has the syntax of a path. -/
def path_like (run_id : String) : Bool :=
  isabs run_id || decide (['.','.'] <:+: run_id.toList) || decide ('/' ∈ run_id.toList) || decide ('\\' ∈ run_id.toList)

def pathLikeError (run_id : String) : PyError :=
  .ValueError ("run_id must be a single path segment, not path-like: " ++ reprText run_id)

section
variable (host : Host)

/-- The directory of an `EventLogger`; without an id it draws one. -/
def event_logger_dir (run_id : Option String) : Except PyError PosixPath :=
  match run_id with
  | some run_id =>
    if path_like run_id then .error (pathLikeError run_id) else .ok (host.runs_dir.join (orText run_id host.stamp))
  | none => .ok (host.runs_dir.join host.stamp)

def taskloop_db_path (run_id : String) : PosixPath := (host.runs_dir.join run_id).join "taskloop.sqlite"

/-- The directory of a `SqliteTaskLoopStore` with its default path. -/
def store_dir (run_id : String) : Except PyError PosixPath :=
  if path_like run_id then .error (pathLikeError run_id) else .ok (taskloop_db_path host run_id).parent

def checkpoint_path (run_id : String) : PosixPath := (host.runs_dir.join run_id).join "checkpoint.json"

def checkpoint_db_path (run_id : String) : PosixPath := (host.runs_dir.join run_id).join "langgraph.sqlite"

/-- The directory of the checkpointer of a new run; a new session takes the id of its task
    in place of an empty one, which is then refused. -/
def run_dir (run_id : String) : Except PyError PosixPath :=
  let rid := orText run_id host.task_id
  if rid ≠ run_id then .error (.ValueError "Provided session run_id does not match the requested run_id.")
  else .ok (checkpoint_db_path host rid).parent

/-- The directory that a resumed run is read from and goes on in. -/
def resume_dir (run_id : String) : Except PyError PosixPath := .ok (checkpoint_db_path host run_id).parent

/-- The directory that the projection of a run is saved to. -/
def save_checkpoint_dir (run_id : String) : Except PyError PosixPath := .ok (checkpoint_path host run_id).parent

/-- The directory that the console reads a run from, if it reads one. -/
def run_snapshot_dir (run_id : Option String) : Option PosixPath :=
  let selected := match run_id with
    | some run_id => if run_id = "" then host.listed.head? else some run_id
    | none => host.listed.head?
  match selected with
  | none => none
  | some selected =>
    let run_path := host.runs_dir.join selected
    if host.is_dir run_path ∧ run_path.parent.resolve host.cwd = host.runs_dir.resolve host.cwd then some run_path else none

/-! ### Confinement -/

/-- Once resolved, the directory is a direct child of the directory of the runs. -/
def DirectChild (dir : PosixPath) : Prop := ∃ name, dir.resolve host.cwd = host.runs_dir.resolve host.cwd ++ [name]

/-- The place refuses the id, or uses a direct child. -/
def Confined (place : Except PyError PosixPath) : Prop := ∀ dir, place = .ok dir → DirectChild host dir

/-- Every place refuses the id or keeps to a direct child, and all of them accept the same. -/
structure Safe (run_id : String) : Prop where
  logger : Confined host (event_logger_dir host (some run_id))
  store : Confined host (store_dir host run_id)
  run : Confined host (run_dir host run_id)
  resume : Confined host (resume_dir host run_id)
  save_checkpoint : Confined host (save_checkpoint_dir host run_id)
  snapshot : ∀ dir, run_snapshot_dir host (some run_id) = some dir → DirectChild host dir
  logger_store : (event_logger_dir host (some run_id)).isOk = (store_dir host run_id).isOk
  store_run : (store_dir host run_id).isOk = (run_dir host run_id).isOk
  run_resume : (run_dir host run_id).isOk = (resume_dir host run_id).isOk
  resume_save : (resume_dir host run_id).isOk = (save_checkpoint_dir host run_id).isOk
  logger_snapshot : host.is_dir (host.runs_dir.join run_id) = true →
    (event_logger_dir host (some run_id)).isOk = (run_snapshot_dir host (some run_id)).isSome

end

/-- An id that is a single name for every place. -/
def SingleName (run_id : String) : Prop := run_id ≠ "" ∧ run_id ≠ "." ∧ path_like run_id = false

section
variable {host : Host} {run_id : String}

theorem singleName_name (single : SingleName run_id) : Name run_id := by
  obtain ⟨some,other,plain⟩ := single
  unfold path_like at plain
  simp only [Bool.or_eq_false_iff,decide_eq_false_iff_not] at plain
  obtain ⟨⟨⟨-,back⟩,slash⟩,-⟩ := plain
  refine ⟨⟨some,other,slash⟩,?_⟩
  rintro rfl
  exact back (by decide)

theorem store_eq : store_dir host run_id = if path_like run_id then .error (pathLikeError run_id) else .ok (host.runs_dir.join run_id) := by
  unfold store_dir taskloop_db_path
  rw [parent_join (by unfold Component; decide)]

theorem resume_eq : resume_dir host run_id = .ok (host.runs_dir.join run_id) := by
  unfold resume_dir checkpoint_db_path
  rw [parent_join (by unfold Component; decide)]

theorem save_checkpoint_eq : save_checkpoint_dir host run_id = .ok (host.runs_dir.join run_id) := by
  unfold save_checkpoint_dir checkpoint_path
  rw [parent_join (by unfold Component; decide)]

theorem run_eq (some : run_id ≠ "") : run_dir host run_id = .ok (host.runs_dir.join run_id) := by
  unfold run_dir checkpoint_db_path orText
  simp only [if_neg some,ne_eq,not_true_eq_false,if_false]
  rw [parent_join (by unfold Component; decide)]

theorem logger_eq (host : Host) (some : run_id ≠ "") (plain : path_like run_id = false) :
    event_logger_dir host (.some run_id) = .ok (host.runs_dir.join run_id) := by
  simp only [event_logger_dir,plain,Bool.false_eq_true,if_false,orText,if_neg some]

/-- The directory of the runs is no child of itself. -/
theorem not_child_of_itself (host : Host) : ¬ DirectChild host host.runs_dir := by
  rintro ⟨name,same⟩
  have longer := congrArg List.length same
  rw [List.length_append,List.length_singleton] at longer
  omega

/-- A single name is taken by every place for the direct child of that name. -/
theorem safe_of_single (single : SingleName run_id) : Safe host run_id := by
  have name := singleName_name single
  have child : DirectChild host (host.runs_dir.join run_id) := ⟨run_id,resolve_join name⟩
  have confined : ∀ {place : Except PyError PosixPath}, place = .ok (host.runs_dir.join run_id) → Confined host place := by
    rintro place rfl dir taken
    cases taken
    exact child
  have logger := logger_eq host single.1 single.2.2
  have store : store_dir host run_id = .ok (host.runs_dir.join run_id) := by
    rw [store_eq,single.2.2]
    rfl
  have shown : ∀ dir, run_snapshot_dir host (some run_id) = some dir → dir = host.runs_dir.join run_id := by
    intro dir read
    unfold run_snapshot_dir at read
    simp only [if_neg single.1] at read
    split at read
    · cases read
      rfl
    · cases read
  refine ⟨confined logger,confined store,confined (run_eq single.1),confined resume_eq,confined save_checkpoint_eq,?_,?_,?_,?_,?_,?_⟩
  · intro dir read
    rw [shown dir read]
    exact child
  · rw [logger,store]
  · rw [store,run_eq single.1]
  · rw [run_eq single.1,resume_eq]
  · rw [resume_eq,save_checkpoint_eq]
  · intro there
    rw [logger,run_snapshot_dir]
    simp only [if_neg single.1,there,parent_join name.1,and_self,if_true]
    rfl

/-- The places keep an id apart, and agree on it, exactly when it is a single name. -/
theorem safe_iff : Safe host run_id ↔ SingleName run_id := by
  refine ⟨fun safe => ?_,safe_of_single⟩
  have plain : path_like run_id = false := by
    by_contra like
    have refused : (store_dir host run_id).isOk = false := by
      rw [store_eq,if_pos (by simpa using like)]
      rfl
    have accepted := safe.store_run.trans safe.run_resume
    rw [refused,resume_eq] at accepted
    cases accepted
  have outside : ∀ {id : String}, isabs id = false → partsOf id = [] → Safe host id → path_like id = false → False := by
    intro id relative none safe plain
    refine not_child_of_itself host (safe.store _ ?_)
    rw [store_eq,plain,join_nothing relative none]
    rfl
  refine ⟨?_,?_,plain⟩
  · rintro rfl
    exact outside (by decide) (by decide) safe plain
  · rintro rfl
    exact outside (by decide) (by decide) safe plain

end

/-! ### The parent of the runs -/

/-- A host whose runs lie in `/srv/runs`, with every directory there. -/
def srvHost : Host where
  runs_dir := parse "/srv/runs"
  cwd := []
  is_dir _ := true
  listed := []
  stamp := "20260101_000000_0badcafe"
  task_id := "task"

/-- The console reads `..`, which the event log refuses, and a resumed run uses it too: the
    directory that the runs lie in. -/
theorem parent_read : ¬ Safe srvHost ".." ∧
    (run_snapshot_dir srvHost (some "..")).map (fun dir => dir.resolve srvHost.cwd) = some ["srv"] ∧
    (resume_dir srvHost "..").map (fun dir => dir.resolve srvHost.cwd) = .ok ["srv"] ∧
    (event_logger_dir srvHost (some "..")).isOk = false := by
  refine ⟨fun safe => ?_,?_,?_,?_⟩
  · have agree := safe.store_run.trans safe.run_resume
    revert agree
    decide +kernel
  · decide +kernel
  · decide +kernel
  · decide +kernel

end HexAgent.RunPaths
