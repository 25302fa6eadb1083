import HexAgent.AtomicFiles
import HexAgent.LogReading
import HexAgent.Projection

/-!
The projection of a run on disk. Each state of the graph is written to a file of its own, which then
takes the place of `checkpoint.json`, while the console reads. However the writers and the readers
mix and wherever a writer dies, the console sees the projection of the newest state that was put in
place when it opened the file, and never a part of one.
-/
namespace HexAgent.Snapshots
open HexAgent.Values HexAgent.Json HexAgent.Written HexAgent.EventLog HexAgent.LogReading HexAgent.Projection
open HexAgent.GraphState HexAgent.RunBounds AtomicFiles Interleavings

/-! ### Writing and reading the file -/

/-- `json.dumps(checkpoint.to_json(), ensure_ascii=False, indent=2)`. -/
def dumpCheckpoint (checkpoint : Checkpoint) : Except PyError String :=
  writeStyled (indented 2) dumpText unserializable 0 (.dict checkpoint.to_json)

/-- What `save_graph_projection` writes for a state, with the identifier that its decoding draws. -/
def save_graph_projection (value : String × AgentState) : Option (List UInt8) :=
  match (Checkpoint.from_graph_state value.1 value.2).bind dumpCheckpoint with
  | .ok text => some text.toByteArray.data.toList
  | .error _ => none

/-- The bytes of a file. -/
def fileOf (bytes : List UInt8) : ByteArray := ⟨bytes.toArray⟩

/-- `_read_json` of the console. -/
def _read_json (interp : Interpreter) (file : Option ByteArray) : Except PyError (Option Fields) :=
  match file.map read_text with
  | some (.ok text) =>
    match loads interp text.toList with
    | .ok (.dict data) => .ok (some data)
    | .ok _ => .ok none
    | .error (.JSONDecodeError _) => .ok none
    | .error exc => .error exc
  | _ => .ok none

/-- The file has what was written for the state, whole, or there is none. Of a projection that JSON can hold the console
    reads just this projection exactly when it is within the limits of the reader. -/
def Shows (interp : Interpreter) (file : Option ByteArray) : Option (String × AgentState) → Prop
  | none => file = none ∧ _read_json interp file = .ok none
  | some (hex,state) => ∃ bytes checkpoint, file = some (fileOf bytes) ∧ save_graph_projection (hex,state) = some bytes ∧
      Checkpoint.from_graph_state hex state = .ok checkpoint ∧ (Sound interp (.dict checkpoint.to_json) →
        ((∃ fields, projection hex state = .ok fields ∧ _read_json interp file = .ok (some fields)) ↔
          Fits interp.recursion_limit (.dict checkpoint.to_json)))

/-! ### One file -/

theorem dumpChar_plain (c : Char) : ∀ d ∈ dumpChar c, d ≠ '\r' := by
  have hex : ∀ n, hexDigit (n % 16) ≠ '\r' := by
    intro n same
    have unbroken := hexDigit_unbroken n
    rw [same] at unbroken
    exact absurd unbroken (by decide)
  unfold dumpChar
  split_ifs with quoted newline return_ tab feed back control
  · rcases quoted with rfl | rfl
    · exact Writing.of_all (by decide)
    · exact Writing.of_all (by decide)
  · exact Writing.of_all (by decide)
  · exact Writing.of_all (by decide)
  · exact Writing.of_all (by decide)
  · exact Writing.of_all (by decide)
  · exact Writing.of_all (by decide)
  · have high : c.toNat / 16 % 16 = c.toNat / 16 := by omega
    have first := hex (c.toNat / 16)
    rw [high] at first
    have escape : ∀ d ∈ ['\\','u','0','0'], d ≠ '\r' := Writing.of_all (by decide)
    refine @List.forall_mem_append _ _ ['\\','u','0','0'] _ |>.mpr ⟨escape,?_⟩
    exact List.forall_mem_cons.mpr ⟨first,List.forall_mem_singleton.mpr (hex _)⟩
  · exact List.forall_mem_singleton.mpr return_

theorem newline_plain (n : Nat) : ∀ c ∈ (newline n).1, c ≠ '\r' := by
  refine List.forall_mem_cons.mpr ⟨by decide,fun c member => ?_⟩
  rw [List.eq_of_mem_replicate member]
  decide

/-- The writer escapes every carriage return. -/
theorem projection_calm : Calm (fun c => c ≠ '\r') (fun _ => True) (indented 2) dumpText where
  marks := Writing.of_all (by decide)
  digits := by
    rintro c digit rfl
    cases digit
  first := fun level => newline_plain _
  gap := fun level => newline_plain _
  last := fun level => newline_plain _
  texts := by
    intro s _
    rw [dumpText,String.toList_ofList]
    refine List.forall_mem_cons.mpr ⟨by decide,List.forall_mem_append.mpr ⟨?_,List.forall_mem_singleton.mpr (by decide)⟩⟩
    intro d member
    obtain ⟨c,-,inside⟩ := List.mem_flatMap.mp member
    exact dumpChar_plain c d inside

section
variable {interp : Interpreter}

/-- The console reads a text without a carriage return as the reader of JSON does. -/
theorem console_reads {text : String} (plain : ∀ c ∈ text.toList, c ≠ '\r') {fields : Fields} :
    _read_json interp (some text.toByteArray) = .ok (some fields) ↔ loads interp text.toList = .ok (.dict fields) := by
  unfold _read_json
  rw [Option.map_some,read_text_plain plain]
  dsimp only
  split
  · next data reads => rw [reads]; simp
  · next data other reads => rw [reads]; simpa using other fields
  · next reads => rw [reads]; simp
  · next exc other reads => rw [reads]; simp

/-- A file that was written for a state shows its projection. -/
theorem written_shows {value : String × AgentState} {bytes : List UInt8} (encoded : save_graph_projection value = some bytes) :
    Shows interp (some (fileOf bytes)) (some value) := by
  obtain ⟨hex,state⟩ := value
  cases made : Checkpoint.from_graph_state hex state with
  | error exc =>
    unfold save_graph_projection at encoded
    rw [made] at encoded
    cases encoded
  | ok checkpoint =>
    refine ⟨bytes,checkpoint,rfl,encoded,made,fun sound => ?_⟩
    unfold save_graph_projection at encoded
    rw [made] at encoded
    dsimp only [Except.bind] at encoded
    rcases dumped : dumpCheckpoint checkpoint with exc | text
    · rw [dumped] at encoded
      cases encoded
    · rw [dumped] at encoded
      have same : fileOf bytes = text.toByteArray := by
        rw [← Option.some.inj encoded]
        rfl
      have known : dumpText ∈ [dumpText,asciiText] := List.mem_cons_self
      obtain ⟨text',w,written,through,read⟩ :=
        written_reads sound (written_short _ 0 ⟨text,dumped⟩) (indented 2) known unserializable
      cases dumped.symm.trans written
      obtain ⟨fields,meant,rfl⟩ := map_ok through
      have plain := projection_calm.written _ 0 sound (texts_all (fun _ => trivial) _) text written
      have shown : projection hex state = .ok fields := by
        unfold projection
        rw [made]
        exact meant
      rw [← read,← console_reads plain,← same]
      constructor
      · rintro ⟨fields',shown',reads⟩
        cases shown.symm.trans shown'
        exact reads
      · exact fun reads => ⟨fields,shown,reads⟩

theorem nothing_shows : Shows interp none none := ⟨rfl,rfl⟩

end

/-! ### Writers and readers together -/

section
variable {ι : Type} [DecidableEq ι] {interp : Interpreter} {c : Config ι (Disk ι (String × AgentState) UInt8) (Phase (String × AgentState) UInt8)}

/-- What is in place is the projection of the newest state that was saved, and whoever has read saw the projection of
    the newest one of the time when it opened the file. -/
structure Projected (interp : Interpreter) (c : Config ι (Disk ι (String × AgentState) UInt8) (Phase (String × AgentState) UInt8)) :
    Prop where
  placed : Shows interp (c.shared.path.bind fun file => (c.shared.files[file]?).map fun entry => fileOf entry.2)
    (c.shared.history.getLast?.map Prod.fst)
  loaded : ∀ i bytes since, c.thread i = .loaded bytes since → since ≤ c.shared.history.length ∧
    Shows interp (bytes.map fileOf) ((c.shared.history.take since).getLast?.map Prod.fst)

/-- However savers and readers of a projection mix and wherever they stop, no reader sees a part of a projection, or an
    older one than there was when it opened the file. -/
theorem projections_whole (interp : Interpreter) (run : Runs (Moves save_graph_projection) start c) : Projected interp c := by
  have atomic := runs_atomic run
  refine ⟨?_,fun i bytes since loaded => ?_⟩
  · rw [atomic.newest]
    rcases last : c.shared.history.getLast? with _ | ⟨value,file⟩
    · exact nothing_shows
    · obtain ⟨owner,bytes,encoded,there⟩ := atomic.whole _ (List.mem_of_getLast? last)
      simp only [Option.map_some,Option.bind_some,there]
      exact written_shows encoded
  · obtain ⟨within,same⟩ := atomic.loaded i bytes since loaded
    refine ⟨within,?_⟩
    rw [same]
    rcases newest : (c.shared.history.take since).getLast? with _ | ⟨value,file⟩
    · exact nothing_shows
    · obtain ⟨owner,bytes,encoded,-⟩ := atomic.whole _ (List.mem_of_mem_take (List.mem_of_getLast? newest))
      simp only [Option.map_some,Option.bind_some,encoded]
      exact written_shows encoded

end

/-! ### A reader between two states -/

/-- The states of the errand before and after its last node. -/
def errandStates (ended : Bool) : String × AgentState :=
  ("u",{ errandState greetBudget with status := if ended then "completed" else "running" })

/-- The reader opens the first projection and reads on while the second takes its place. -/
def replaced : Option (Config Bool (Disk Bool (String × AgentState) UInt8) (Phase (String × AgentState) UInt8)) :=
  follow (step save_graph_projection) start [(false,.save (errandStates false)),(false,.moved 90),(false,.moved 9000),(false,.moved 1),
    (true,.load),(true,.moved 70),(false,.save (errandStates true)),(true,.moved 20),(false,.moved 9000),(false,.moved 1),
    (true,.moved 9000),(true,.moved 1)]

/-- After how many replacements a thread opened what it has read. -/
def since {α β : Type} : Phase α β → Option Nat
  | .loaded _ since => some since
  | _ => none

/-- The JSON of the errand's projection before its last node. -/
def errandJson : Fields :=
  { run_id := "run", task := "greet", messages := [], budget := budget_to_dict greetBudget, state := errandSession.state
    step := 0, status := "running", backend := "langgraph" : Checkpoint }.to_json

theorem errand_sound : Sound reader (.dict errandJson) :=
  ⟨by decide,trivial,trivial,trivial,⟨by decide,trivial,trivial,trivial,trivial,trivial,⟨List.nodup_nil,trivial⟩,trivial⟩,
    ⟨by decide,⟨by decide,⟨by decide,trivial,trivial,⟨List.nodup_nil,trivial⟩,⟨List.nodup_nil,trivial⟩,trivial⟩,trivial⟩,trivial⟩,
    trivial,trivial,trivial,trivial,trivial⟩

theorem errand_fits : Written.Fits reader.recursion_limit (.dict errandJson) := by
  have short : ∀ n ∈ [0,1,2], Short n := by
    intro n member
    refine digit_short ?_
    have all : ∀ n ∈ [(0 : Int),1,2], n.natAbs < 10 := by decide
    exact all n member
  have zero := short 0 (by decide)
  have one := short 1 (by decide)
  have two := short 2 (by decide)
  exact ⟨by decide,trivial,trivial,⟨by decide,trivial⟩,⟨by decide,two,two,one,zero,zero,⟨by decide,trivial⟩,trivial⟩,
    ⟨by decide,⟨by decide,⟨by decide,trivial,trivial,⟨by decide,trivial⟩,⟨by decide,trivial⟩,trivial⟩,trivial⟩,trivial⟩,
    zero,trivial,trivial,two,trivial⟩

/-- The state that was newest after the first replacement, as JSON. -/
def firstJson (c : Config Bool (Disk Bool (String × AgentState) UInt8) (Phase (String × AgentState) UInt8)) : Option Fields :=
  (c.shared.history.take 1).getLast?.bind fun entry =>
    ((Checkpoint.from_graph_state entry.1.1 entry.1.2).map Checkpoint.to_json).toOption

theorem replaced_projected : (∃ c, replaced = some c ∧ Projected reader c ∧ ∃ bytes fields, c.thread true = .loaded bytes 1 ∧
      throughFields errandJson = .ok fields ∧ _read_json reader (bytes.map fileOf) = .ok (some fields)) ∧
    replaced.map (fun c => (c.shared.history.length,since (c.thread true))) = some (2,some 1) := by
  have ran : replaced.map (fun c => (c.shared.history.length,since (c.thread true))) = some (2,some 1) := by
    decide +kernel
  have first : replaced.bind firstJson = some errandJson := by
    decide +kernel
  refine ⟨?_,ran⟩
  rcases followed : replaced with _ | c
  · rw [followed] at ran
    cases ran
  · have projected := projections_whole reader (follow_runs followed)
    refine ⟨c,rfl,projected,?_⟩
    rw [followed] at ran first
    obtain ⟨-,opened⟩ := Prod.mk.inj (Option.some.inj ran)
    rcases loaded : c.thread true with _ | _ | _ | ⟨bytes,since'⟩ | _
    case loaded =>
      rw [loaded] at opened
      cases opened
      obtain ⟨-,shows⟩ := projected.loaded true bytes 1 loaded
      have taken : firstJson c = some errandJson := first
      unfold firstJson at taken
      rcases newest : (c.shared.history.take 1).getLast? with _ | ⟨⟨hex,state⟩,file⟩
      · rw [newest] at taken
        cases taken
      · rw [newest] at taken shows
        obtain ⟨bytes',checkpoint,-,-,made,readable⟩ := shows
        have json : checkpoint.to_json = errandJson := by
          simp only [Option.bind_some,made] at taken
          exact Option.some.inj taken
        rw [json] at readable
        obtain ⟨fields,meant,read⟩ := (readable errand_sound).mpr errand_fits
        unfold projection at meant
        rw [made] at meant
        exact ⟨bytes,fields,rfl,json ▸ meant,read⟩
    all_goals
      rw [loaded] at opened
      cases opened

end HexAgent.Snapshots
