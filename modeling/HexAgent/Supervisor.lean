import HexAgent.Board
import HexAgent.Contracts
import HexAgent.Events
import HexAgent.Journals
import HexAgent.Programs
import HexAgent.Roles

/-!
The world of the supervisor and what its nodes do to it: they write the
Blackboard, ask the outside (the orchestrator, the broker, the delegation
service, the session's tools, the database), publish events and save. Everything
is journalled in order, so that a crash is a cut of the journal. The outside is
any function of the journal: it may answer anything, or raise.
-/
namespace HexAgent.Supervisor
open HexAgent.Values HexAgent.Json HexAgent.Board HexAgent.Commands HexAgent.Contracts HexAgent.Events HexAgent.Roles
open HexAgent.Schemas Journals Programs

/-! ### The outside -/

/-- What the supervisor asks of the outside. -/
inductive Op where
  | compose_team (task : String) (available_roles : List Fields)
  | decide (state_view : Fields)
  | store_slice (assignment : AgentAssignment) (state : TaskLoopState)
  | write_packet (assignment : AgentAssignment) (store_slice : List Fields)
  | delegate (target : String) (spec : DelegationSpec) (policy : DelegationPolicy)
  | execute_tool (tool_name : String) (args : Fields)
  | save (document : Fields)

/-- What the outside answers. -/
def Op.Answer : Op → Type
  | .compose_team .. => String
  | .decide .. => String
  | .store_slice .. => List Fields
  | .write_packet .. => ContextPacket
  | .delegate .. => DelegationResult
  | .execute_tool .. => Fields
  | .save .. => Unit

/-- What is journalled beside the states: a question to the outside, an event
    published, a decision of the orchestrator taken; and what a state was written
    for: an artifact of the loop, an artifact of a worker, or any other change. -/
inductive Event where
  | asked (op : Op)
  | emitted (topic : String) (payload : Fields)
  | accepted (decision : OrchestratorDecision)
  | posted (kind : String) (fields : Fields)
  | merged (agent_id : String) (art : ArtifactEnvelope)
  | changed

abbrev Journal := List (Entry TaskLoopState Event)

/-- The outside: its answers, given the Blackboard and everything that happened,
    and the identifiers and times it draws for commands and for events. -/
structure Env where
  answer : TaskLoopState → Journal → (op : Op) → Except PyError op.Answer
  command_stamp : Nat → Stamp
  event_stamp : Nat → Stamp

/-- An emitter in use: its state, the root trace once it is drawn, the stamps
    drawn so far, and the events its sinks received. -/
structure Wire where
  emitter : EventEmitter
  trace : Option TraceContext := none
  drawn : Nat := 0
  delivered : List RuntimeEvent := []

structure World where
  board : TaskLoopState
  journal : Journal := []
  draws : Nat := 0
  wire : Option Wire := none

/-- A world only grows by what is journalled in it. -/
instance : Preorder World where
  le w w' := w.journal <+: w'.journal
  le_refl _ := List.prefix_rfl
  le_trans _ _ _ first second := first.trans second

/-- A program of the supervisor. -/
abbrev Sup := Prog World PyError

/-! ### The context -/

/-- The runtime dependencies of the nodes. `checkpoint` is the run whose database
    takes the saves; without one nothing is saved. -/
structure SupervisorContext where
  identity : SessionIdentity
  agent_registry : Option AgentRegistry := none
  command_registry : CommandTypeRegistry := load_command_registry
  custom_slice : Bool := false
  checkpoint : Option String := none
  interp : Interpreter
  env : Env

namespace SupervisorContext
variable (ctx : SupervisorContext)

def role_catalog : Except PyError (List Fields) :=
  match ctx.agent_registry with
  | none => .ok []
  | some registry => registry.list_roles.map fun views => views.map fun v =>
      [("agent_id",.str v.agent_id),("role",.str v.role),("department",.str v.department)]

/-- The ids in the role catalog. -/
def catalog : Except PyError (List String) := ctx.role_catalog.map fun rows => rows.map fun row => row.textOf "agent_id"

def departments_view : Fields :=
  match ctx.agent_registry with
  | none => []
  | some registry => registry.departments.map fun group => (group.1,ofTexts group.2)

end SupervisorContext

/-! ### What the nodes do -/

section
variable (ctx : SupervisorContext)

def currentBoard : Sup TaskLoopState := read World.board

/-- Journal an entry. -/
def note (entry : Entry TaskLoopState Event) : Sup Unit :=
  update (fun w => { w with journal := w.journal ++ [entry] }) fun _ => List.prefix_append ..

/-- Write the Blackboard. -/
def write (f : TaskLoopState → TaskLoopState) (cause : Event := .changed) : Sup Unit :=
  update (fun w => { w with board := f w.board, journal := w.journal ++ [.wrote cause (f w.board)] })
    fun _ => List.prefix_append ..

/-- Ask the outside. The question is journalled before it is answered. -/
def ask (op : Op) : Sup op.Answer := do
  note (.noted (.asked op))
  let answer ← read fun w => ctx.env.answer w.board w.journal op
  lift answer

/-- Draw the identifier and the time of a command. -/
def drawStamp : Sup Stamp := do
  let n ← read World.draws
  update (fun w => { w with draws := w.draws + 1 }) fun _ => List.prefix_rfl
  pure (ctx.env.command_stamp n)

/-- The emitter with its trace; the first event draws a root trace. -/
def Wire.traced (wire : Wire) : Wire × TraceContext :=
  match wire.trace with
  | some trace => (wire,trace)
  | none =>
    let trace := TraceContext.new_root (ctx.env.event_stamp wire.drawn) (ctx.env.event_stamp (wire.drawn + 1))
    ({ wire with trace := some trace, drawn := wire.drawn + 2 },trace)

def supervisorActor : Actor := ⟨.runtime,"supervisor",by decide⟩

/-- Publish an event: through the emitter when one is wired, which may refuse
    it, else on the bus of the kernel, which never raises. -/
def emit (topic : String) (payload : Fields) : Sup Unit := do
  match ← read World.wire with
  | none => note (.noted (.emitted topic payload))
  | some wire =>
    let (wire,trace) := wire.traced ctx
    update (fun w => { w with wire := some wire }) fun _ => List.prefix_rfl
    let (emitter,event) ← lift (wire.emitter.emit (ctx.env.event_stamp wire.drawn) topic ctx.identity.session_id
      supervisorActor trace payload (some ctx.identity.task_id))
    update (fun w => { w with wire := some { wire with emitter, drawn := wire.drawn + 1,
                                                       delivered := wire.delivered ++ [event] } })
      fun _ => List.prefix_rfl
    note (.noted (.emitted topic payload))

/-- Save the Blackboard, when there is a database: it is serialized and stored in
    place of the last one. -/
def save : Sup Unit := do
  match ctx.checkpoint with
  | none => pure ()
  | some _ =>
    let state ← currentBoard
    let document ← lift (throughFields (encode_taskloop_state state))
    ask ctx (.save document)
    note (.saved state)

end

/-- The state that a saved one loads as. -/
def Reloads (s t : TaskLoopState) : Prop :=
  ∃ document, throughFields (encode_taskloop_state s) = .ok document ∧ decode_taskloop_state document = .ok t

theorem reloads_reloaded {s t : TaskLoopState} (reloads : Reloads s t) : Reloaded s t := by
  obtain ⟨document,saved,loaded⟩ := reloads
  obtain ⟨t',loaded',reloaded⟩ := decode_saved saved
  rw [loaded] at loaded'
  cases loaded'
  exact reloaded

/-! ### Programs that obey rules -/

/-- The world moves by a journal that obeys the rules, and its Blackboard is the
    last state of that journal. -/
def Obeys (rules : Rules TaskLoopState Event) (w w' : World) : Prop :=
  ∃ more, w'.journal = w.journal ++ more ∧ Follows rules w.board more ∧ w'.board = after w.board more

section
variable {rules : Rules TaskLoopState Event}

instance : IsPreorder World (Obeys rules) where
  refl w := ⟨[],by simp,trivial,rfl⟩
  trans := by
    rintro a b c ⟨first,journal,follows,board⟩ ⟨second,journal',follows',board'⟩
    refine ⟨first ++ second,by rw [journal',journal,List.append_assoc],?_,by rw [after_append,← board,board']⟩
    exact follows_append.mpr ⟨follows,by rw [← board]; exact follows'⟩

variable {α : Type} {ctx : SupervisorContext} {w : World} {Q : α → World → Prop}

/-- The world after the Blackboard was written. -/
def World.wrote (w : World) (cause : Event) (state : TaskLoopState) : World :=
  { w with board := state, journal := w.journal ++ [.wrote cause state] }

/-- The world after an event was journalled. -/
def World.noted (w : World) (event : Event) : World := { w with journal := w.journal ++ [.noted event] }

@[simp] theorem board_wrote (w : World) (cause : Event) (state : TaskLoopState) : (w.wrote cause state).board = state :=
  rfl
@[simp] theorem board_noted (w : World) (event : Event) : (w.noted event).board = w.board := rfl

theorem obeys_wrote {cause : Event} {state : TaskLoopState} (move : rules.move cause w.board state) :
    Obeys rules w (w.wrote cause state) :=
  ⟨[.wrote cause state],rfl,⟨move,trivial⟩,rfl⟩

theorem obeys_noted {event : Event} (allowed : rules.allows w.board event) : Obeys rules w (w.noted event) :=
  ⟨[.noted event],rfl,⟨allowed,trivial⟩,rfl⟩

theorem runs_board {k : TaskLoopState → Sup α} (rest : Runs (Obeys rules) (k w.board) w Q) :
    Runs (Obeys rules) (currentBoard >>= k) w Q := Runs.bind_read rest

theorem runs_write {f : TaskLoopState → TaskLoopState} {cause : Event} {k : Unit → Sup α}
    (move : rules.move cause w.board (f w.board)) (rest : Runs (Obeys rules) (k ()) (w.wrote cause (f w.board)) Q) :
    Runs (Obeys rules) (write f cause >>= k) w Q :=
  Runs.bind_update (obeys_wrote move) rest

theorem runs_note {event : Event} {k : Unit → Sup α} (allowed : rules.allows w.board event)
    (rest : Runs (Obeys rules) (k ()) (w.noted event) Q) : Runs (Obeys rules) (note (.noted event) >>= k) w Q :=
  Runs.bind_update (obeys_noted allowed) rest

/-- A question may be answered by anything that the outside answers. -/
theorem runs_ask {op : Op} {k : op.Answer → Sup α} (allowed : rules.allows w.board (.asked op))
    (rest : ∀ answer, ctx.env.answer w.board (w.noted (.asked op)).journal op = .ok answer →
      Runs (Obeys rules) (k answer) (w.noted (.asked op)) Q) : Runs (Obeys rules) (ask ctx op >>= k) w Q := by
  refine Runs.bind (M := fun answer w' => w' = w.noted (.asked op) ∧
    ctx.env.answer w.board (w.noted (.asked op)).journal op = .ok answer) ?_ ?_
  · exact runs_note allowed (Runs.bind_read (Runs.lift fun answer answered => ⟨rfl,answered⟩))
  · rintro answer w' - ⟨rfl,answered⟩
    exact rest answer answered

theorem obeys_still {w' : World} (board : w'.board = w.board) (journal : w'.journal = w.journal) :
    Obeys rules w w' :=
  ⟨[],by rw [journal,List.append_nil],trivial,board⟩

/-- Publishing leaves the Blackboard as it is, whether it is refused or not, and what
    was published is journalled. -/
theorem emit_journal {topic : String} {payload : Fields} (allowed : ∀ s, rules.allows s (.emitted topic payload)) :
    Runs (Obeys rules) (emit ctx topic payload) w (fun _ w' =>
      w'.board = w.board ∧ w'.journal = w.journal ++ [.noted (.emitted topic payload)]) := by
  unfold emit
  refine Runs.bind_read ?_
  cases w.wire with
  | none => exact Runs.update (obeys_noted (allowed _)) ⟨rfl,rfl⟩
  | some wire =>
    refine Runs.bind_update (obeys_still rfl rfl) (Runs.bind_lift fun sent _ => ?_)
    exact Runs.bind_update (obeys_still rfl rfl) (Runs.update (obeys_noted (allowed _)) ⟨rfl,rfl⟩)

theorem emit_spec {topic : String} {payload : Fields} (allowed : ∀ s, rules.allows s (.emitted topic payload)) :
    Runs (Obeys rules) (emit ctx topic payload) w (fun _ w' => w'.board = w.board) :=
  (emit_journal allowed).mono fun _ _ _ sent => sent.1

/-- Saving leaves the Blackboard as it is. -/
theorem save_spec (allowed : ∀ s document, rules.allows s (.asked (.save document))) (settled : rules.saves w.board) :
    Runs (Obeys rules) (save ctx) w (fun _ w' => w'.board = w.board) := by
  unfold save
  cases ctx.checkpoint with
  | none => exact Runs.pure rfl
  | some _ =>
    refine runs_board (Runs.bind_lift fun document _ => runs_ask (allowed _ _) fun _ _ => ?_)
    exact Runs.update ⟨[.saved w.board],rfl,⟨⟨rfl,settled⟩,trivial⟩,rfl⟩ rfl

theorem runs_emit {topic : String} {payload : Fields} {k : Unit → Sup α}
    (allowed : ∀ s, rules.allows s (.emitted topic payload))
    (rest : ∀ w', Obeys rules w w' → w'.board = w.board → Runs (Obeys rules) (k ()) w' Q) :
    Runs (Obeys rules) (emit ctx topic payload >>= k) w Q :=
  Runs.bind (emit_spec allowed) fun _ w' => rest w'

theorem drawStamp_spec : Runs (Obeys rules) (drawStamp ctx) w (fun _ w' => w'.board = w.board) :=
  Runs.bind_read (Runs.bind_update (obeys_still rfl rfl) (Runs.pure rfl))

end

end HexAgent.Supervisor
