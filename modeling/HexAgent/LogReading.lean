import HexAgent.Cuts
import HexAgent.EventLog
import HexAgent.Skills

/-!
Reading the event log. The log is a file of lines, and a crash may leave any number of its bytes.
The inspector reads back the events whose text is all there, in their order, and nothing else: a line
that was cut off is passed over, unless the cut goes through a character.
-/
namespace HexAgent.LogReading
open HexAgent.Values HexAgent.Json HexAgent.Documents HexAgent.Written HexAgent.EventLog HexAgent.Skills Dicts

/-! ### Files -/

/-- The line ends of a text file, each made a line feed. -/
def universal : List Char → List Char
  | [] => []
  | c :: rest => if c = '\r' then if rest.head? = some '\n' then universal rest else '\n' :: universal rest else c :: universal rest

/-- `path.read_text(encoding="utf-8")`. -/
def read_text (bytes : ByteArray) : Except PyError String :=
  match String.fromUTF8? bytes with
  | some text => .ok (String.ofList (universal text.toList))
  | none => .error (.Other "UnicodeDecodeError" "'utf-8' codec can't decode bytes")

/-- The directory of a run, with the content of its `events.jsonl` when there is one. -/
structure RunDir where
  name : String
  events : Option ByteArray

/-! ### The inspector -/

def _run_dirs (runs : List RunDir) : List RunDir := runs.insertionSort fun a b => b.name ≤ a.name

def _resolve (runs : List RunDir) (run_id : Option String) : Option RunDir :=
  let dirs := _run_dirs runs
  if run_id = none ∨ run_id = some "latest" then dirs.head? else dirs.find? fun p => some p.name = run_id

section
variable (interp : Interpreter)

/-- The event of a line, if it holds one. -/
def eventIn (line : String) : Except PyError (Option Fields) :=
  if strip line = "" then .ok none else
  match loads interp line.toList with
  | .ok (.dict event) => .ok (some event)
  | .ok _ => .ok none
  | .error (.JSONDecodeError _) => .ok none
  | .error (.ValueError _) => .ok none
  | .error exc => .error exc

/-- The event has this kind and this topic, where one is asked for. -/
def wanted (kind topic : Option String) (event : Fields) : Bool :=
  (kind.all fun kind => decide (kind = "" ∨ get "kind" event = some (.str kind))) &&
    topic.all fun topic => decide (topic = "" ∨ get "topic" event = some (.str topic))

def read_events (runs : List RunDir) (run_id kind topic : Option String) : Except PyError (List Fields) :=
  match _resolve runs run_id with
  | none => .ok []
  | some run =>
    match run.events with
    | none => .ok []
    | some bytes => do
      let text ← read_text bytes
      let events ← (splitlines text).mapM (eventIn interp)
      .ok ((events.filterMap id).filter (wanted kind topic))

/-! ### The console -/

/-- The event of a line, if it holds one, as the console reads it. -/
def itemIn (line : String) : Except PyError (Option Fields) :=
  match loads interp line.toList with
  | .ok (.dict item) => .ok (some item)
  | .ok _ => .ok none
  | .error (.JSONDecodeError _) => .ok none
  | .error exc => .error exc

/-- The events in the last lines of the log. -/
def _read_events (file : Option ByteArray) (limit : Nat) : Except PyError (List Fields) :=
  match file.map read_text with
  | some (.ok text) => do
    let lines := splitlines text
    let events ← (lines.drop (lines.length - limit)).mapM (itemIn interp)
    .ok (events.filterMap id)
  | _ => .ok []

end

/-! ### Writing the log -/

/-- What reaches the logger: a call of `emit`, or an event of the bus. -/
inductive Call where
  | emit (kind : String) (fields : Fields)
  | publish (e : Posted)

section
variable (clock : Nat → String)

def call (logger : EventLogger) : Call → EventLogger
  | .emit kind fields => (logger.emit clock kind fields).2
  | .publish e => publish clock logger e

/-- The logger of a run after these calls. -/
def session (run_id : String) (calls : List Call) : EventLogger :=
  calls.foldl (call clock) (EventLogger.begin clock run_id true)

end

/-- The content of `events.jsonl`. -/
def file (lines : List Line) : String := String.join (lines.map Line.text)

/-- The bytes that a crash leaves. -/
def cut (n : Nat) (s : String) : ByteArray := s.toByteArray.extract 0 n

/-- The lines whose text is all there in the first bytes; the end of the line may be missing. -/
def survived : Nat → List Line → List Line
  | _,[] => []
  | n,line :: rest =>
    if line.text.utf8ByteSize ≤ n + 1 then line :: survived (n - line.text.utf8ByteSize) rest else []

/-! ### What the lines hold -/

/-- The line is its event as it is written. -/
def Dumped (line : Line) : Prop := ∃ body, dumpEvent line.event.pairs = .ok body ∧ line.text = body ++ "\n"

/-! ### Lines without breaks -/

/-- A text that does not break the line it is written in: a break is a control character, which is escaped. -/
def Plainly (s : String) : Prop := ∀ c ∈ s.toList, isBreak c = true → c.toNat < 32

/-- A text without a break. -/
def OneLine (cs : List Char) : Prop := ∀ c ∈ cs, isBreak c = false

theorem oneLine_append {cs ds : List Char} : OneLine (cs ++ ds) ↔ OneLine cs ∧ OneLine ds := List.forall_mem_append

theorem digit_unbroken {c : Char} (digit : c.isDigit = true) : isBreak c = false := by
  obtain ⟨low,high⟩ := digit_bounds digit
  simp only [isBreak,Bool.or_eq_false_iff,Bool.and_eq_false_iff,decide_eq_false_iff_not,beq_eq_false_iff_ne]
  omega

theorem hexDigit_unbroken (n : Nat) : isBreak (hexDigit (n % 16)) = false := by
  have all : ∀ m : Fin 16, isBreak (hexDigit m) = false := by decide
  exact all ⟨n % 16,Nat.mod_lt _ (by decide)⟩

theorem dumpChar_oneLine {c : Char} (escaped : isBreak c = true → c.toNat < 32) : OneLine (dumpChar c) := by
  unfold dumpChar
  split_ifs with quoted newline return_ tab feed back control
  · rcases quoted with rfl | rfl
    · exact Writing.of_all (by decide)
    · exact Writing.of_all (by decide)
  · exact Writing.of_all (by decide)
  · exact Writing.of_all (by decide)
  · exact Writing.of_all (by decide)
  · exact Writing.of_all (by decide)
  · exact Writing.of_all (by decide)
  · have tail : OneLine [hexDigit (c.toNat / 16),hexDigit (c.toNat % 16)] := by
      have high : c.toNat / 16 % 16 = c.toNat / 16 := by omega
      have first := hexDigit_unbroken (c.toNat / 16)
      rw [high] at first
      intro d member
      rcases List.mem_pair.mp member with rfl | rfl
      · exact first
      · exact hexDigit_unbroken _
    have head : OneLine ['\\','u','0','0'] := Writing.of_all (by decide)
    exact oneLine_append.mpr ⟨head,tail⟩
  · intro d member
    rw [List.mem_singleton.mp member]
    exact Bool.eq_false_iff.mpr fun broken => control (escaped broken)

theorem dumpText_oneLine {s : String} (unbroken : Plainly s) : OneLine (dumpText s).toList := by
  have quote : OneLine ['\"'] := Writing.of_all (by decide)
  rw [dumpText,String.toList_ofList,← List.singleton_append]
  refine oneLine_append.mpr ⟨quote,oneLine_append.mpr ⟨?_,quote⟩⟩
  intro d member
  obtain ⟨c,inside,spelled⟩ := List.mem_flatMap.mp member
  exact dumpChar_oneLine (unbroken c inside) d spelled

/-- The log writes no break of its own. -/
theorem log_calm : Calm (fun c => isBreak c = false) Plainly compact dumpText where
  marks := Writing.of_all (by decide)
  digits := fun c => digit_unbroken
  first := fun level c member => by cases member
  gap := fun level => @Writing.of_all _ _ [' '] (by decide)
  last := fun level c member => by cases member
  texts := fun s => dumpText_oneLine

section
variable {interp : Interpreter}

/-- What an event must be to be read back: JSON can hold it, the reader takes it, and no text in it breaks its line. -/
structure Readable (interp : Interpreter) (event : Dict String PyVal) : Prop where
  sound : Sound interp (.dict event.pairs)
  fits : Fits interp.recursion_limit (.dict event.pairs)
  unbroken : Texts Plainly (.dict event.pairs)

/-- The document that a line holds. -/
theorem line_doc {line : Line} (dumped : Dumped line) (readable : Readable interp line.event) : ∃ (d : Doc) (w : Fields),
    line.text.toList = d.text ++ ['\n'] ∧ OneLine d.text ∧ d.Clean ∧ d.Within interp.recursion_limit ∧
      d.value interp = .dict w ∧ throughFields line.event.pairs = .ok w := by
  obtain ⟨body,written,text⟩ := dumped
  obtain ⟨d,spelling,through,clean,within⟩ := spelled unserializable dump_spells (.dict line.event.pairs) readable.sound
  have spelled : writeJson dumpText unserializable (.dict line.event.pairs) = .ok body := written
  have same : body = String.ofList d.text := Except.ok.inj (spelled.symm.trans (spelling (fits_short _ readable.fits)))
  have one := log_calm.written _ 0 readable.sound readable.unbroken body ((styled_compact ..).trans spelled)
  obtain ⟨w,fields,value⟩ := map_ok through
  refine ⟨d,w,?_,?_,clean,(within _).mpr readable.fits,value.symm,fields⟩
  · rw [text,same,String.toList_append,String.toList_ofList]
    rfl
  · rwa [same,String.toList_ofList] at one

/-! ### Readable calls -/

theorem plainly_of {s : String} (none : s.toList.all (fun c => !isBreak c) = true) : Plainly s := by
  intro c there broken
  have unbroken := List.all_eq_true.mp none c there
  rw [broken] at unbroken
  cases unbroken

/-- A field that is read back. -/
structure Kept (interp : Interpreter) (field : String × PyVal) : Prop where
  key : Plainly field.1
  sound : Sound interp field.2
  fits : Fits (interp.recursion_limit - 1) field.2
  unbroken : Texts Plainly field.2

theorem fields_kept {interp : Interpreter} {fields : Fields} (kept : ∀ field ∈ fields, Kept interp field) :
    FieldsSound interp fields ∧ FieldsFit (interp.recursion_limit - 1) fields ∧ FieldsTexts Plainly fields := by
  induction fields with
  | nil => exact ⟨trivial,trivial,trivial⟩
  | cons field rest ih =>
    obtain ⟨first,others⟩ := List.forall_mem_cons.mp kept
    obtain ⟨sound,fits,unbroken⟩ := ih others
    exact ⟨⟨first.sound,sound⟩,⟨first.fits,fits⟩,first.key,first.unbroken,unbroken⟩

/-- What a call brings is read back. -/
def Call.Kept (interp : Interpreter) : Call → Prop
  | .emit kind fields => Plainly kind ∧ ∀ field ∈ fields, LogReading.Kept interp field
  | .publish e => Plainly e.topic ∧ ∀ field ∈ e.payload.pairs, LogReading.Kept interp field

/-- The texts that the logger puts into an event itself. -/
structure Plain (clock : Nat → String) (run_id : String) : Prop where
  times : ∀ n, Plainly (clock n)
  name : Plainly run_id

section
variable {interp : Interpreter} {clock : Nat → String} {run_id : String}

/-- An event that was written is read back when what was brought for it is. -/
theorem event_readable (deep : 0 < interp.recursion_limit) (plain : Plain clock run_id) {kind body : String} {seq : Nat}
    {fields : Fields} (named : Plainly kind) (kept : ∀ field ∈ fields, Kept interp field)
    (written : dumpEvent (eventOf clock run_id kind seq fields).pairs = .ok body) :
    Readable interp (eventOf clock run_id kind seq fields) := by
  have writable := fields_writable.mp (dumpEvent_iff.mp ⟨body,written⟩)
  have each : ∀ field ∈ (eventOf clock run_id kind seq fields).pairs, Kept interp field := by
    rintro ⟨key,v⟩ member
    have text : ∀ s, Plainly s → Plainly key → Kept interp (key,.str s) := fun s one key => ⟨key,trivial,by trivial,one⟩
    rcases Dict.of_get_update ((get_eq_some_iff (Dict.nodup _)).mpr member) with brought | own
    · exact kept _ brought
    · have base : Dicts.get key [("sequence",PyVal.int seq),("timestamp",.str (clock seq)),("run_id",.str run_id),("kind",.str kind)] =
          some v := own
      simp only [Dicts.get] at base
      split_ifs at base with first second third fourth
      · obtain rfl := first
        cases base
        have small : (seq : Int).natAbs < intLimit := by simpa [shortInts] using (writable _ member).2
        exact ⟨@plainly_of "sequence" (by decide),trivial,small,trivial⟩
      · obtain rfl := second
        cases base
        exact text _ (plain.times seq) (plainly_of (by decide))
      · obtain rfl := third
        cases base
        exact text _ plain.name (plainly_of (by decide))
      · obtain rfl := fourth
        cases base
        exact text _ named (plainly_of (by decide))
  obtain ⟨sound,fits,unbroken⟩ := fields_kept each
  exact ⟨⟨Dict.nodup _,sound⟩,⟨deep,fits⟩,unbroken⟩

/-- The log of this run: every line is its event as it is written, and the event is read back. -/
structure Sure (interp : Interpreter) (run_id : String) (logger : EventLogger) : Prop where
  named : logger.run_id = run_id
  dumped : ∀ line ∈ logger.lines, Dumped line
  readable : ∀ line ∈ logger.lines, Readable interp line.event

variable (deep : 0 < interp.recursion_limit) (plain : Plain clock run_id) {logger : EventLogger}
include deep plain

theorem emit_sure (sure : Sure interp run_id logger) {kind : String} {fields : Fields} (named : Plainly kind)
    (kept : ∀ field ∈ fields, Kept interp field) : Sure interp run_id (logger.emit clock kind fields).2 := by
  obtain ⟨rfl,dumped,readable⟩ := sure
  unfold EventLogger.emit
  dsimp only
  split_ifs
  · split
    · next text written =>
      refine ⟨rfl,List.forall_mem_append.mpr ⟨dumped,?_⟩,List.forall_mem_append.mpr ⟨readable,?_⟩⟩
      · exact List.forall_mem_singleton.mpr ⟨text,written,rfl⟩
      · exact List.forall_mem_singleton.mpr (event_readable deep plain named kept written)
    · exact ⟨rfl,dumped,readable⟩
  · exact ⟨rfl,dumped,readable⟩

theorem call_sure (sure : Sure interp run_id logger) {c : Call} (kept : c.Kept interp) :
    Sure interp run_id (call clock logger c) := by
  cases c with
  | emit kind fields => exact emit_sure deep plain sure kept.1 kept.2
  | publish e =>
    obtain ⟨topic,fields⟩ := kept
    have emitted : ∀ kind, Plainly kind → Sure interp run_id (logger.emitted clock kind e.topic e.payload).2 := by
      intro kind named
      unfold EventLogger.emitted
      split_ifs
      · exact sure
      · exact sure
      · exact sure
      · exact emit_sure deep plain sure named (List.forall_mem_cons.mpr
          ⟨⟨@plainly_of "topic" (by decide),trivial,by trivial,topic⟩,fields⟩)
    have emitted := emitted (if is_llm e.payload then "LLMCallEvent" else "KernelEvent") (by
      split_ifs
      · exact plainly_of (by decide)
      · exact plainly_of (by decide))
    show Sure interp run_id (publish clock logger e)
    unfold publish sink
    split
    · next _ logger' same =>
      rw [same] at emitted
      rw [counting_frame]
      exact ⟨emitted.named,emitted.dumped,emitted.readable⟩
    · next exc logger' same => rwa [same] at emitted

/-- Every event that reached the log of a run is read back. -/
theorem session_sure {calls : List Call} (kept : ∀ c ∈ calls, c.Kept interp) : Sure interp run_id (session clock run_id calls) := by
  have run : ∀ (calls : List Call) (logger : EventLogger), (∀ c ∈ calls, c.Kept interp) → Sure interp run_id logger →
      Sure interp run_id (calls.foldl (call clock) logger) := by
    intro calls
    induction calls with
    | nil => exact fun logger _ sure => sure
    | cons c calls ih =>
      intro logger kept sure
      obtain ⟨first,others⟩ := List.forall_mem_cons.mp kept
      exact ih _ others (call_sure deep plain sure first)
  have none : Sure interp run_id { run_id, enabled := true } := ⟨rfl,by simp,by simp⟩
  refine run calls _ kept (emit_sure deep plain none (plainly_of (by decide)) ?_)
  exact List.forall_mem_singleton.mpr ⟨@plainly_of "status" (by decide),trivial,by trivial,@plainly_of "run_started" (by decide)⟩

end

/-! ### Reading a line -/

theorem strip_some {c : Char} (hard : isSpace c = false) (cs : List Char) : strip (String.ofList (c :: cs)) ≠ "" := by
  obtain ⟨more,kept⟩ := Broken.stripEnd_leads hard cs
  intro empty
  have none := congrArg String.toList empty
  rw [strip,String.toList_ofList,String.toList_ofList,Broken.stripChars_eq,List.dropWhile_cons_of_neg (by simp [hard]),kept]
    at none
  cases none

section
variable {d : Doc} {w : Fields} (clean : d.Clean) (within : d.Within interp.recursion_limit) (value : d.value interp = .dict w)
include clean within value

theorem eventIn_whole : eventIn interp (String.ofList d.text) = .ok (some w) := by
  have read := (@Broken.loads_doc interp d).read within clean
  obtain ⟨cs,head⟩ := Broken.object_head value
  have some_ : strip (String.ofList d.text) ≠ "" := head ▸ strip_some (by decide) cs
  rw [eventIn,if_neg some_,String.toList_ofList,read,value]

/-- An event that is not whole is passed over. -/
theorem eventIn_cut {p q : List Char} (split : d.text = p ++ q) (missing : q ≠ []) :
    eventIn interp (String.ofList p) = .ok none := by
  obtain ⟨cs,head⟩ := Broken.object_head value
  obtain ⟨exc,read,kind⟩ := @Cuts.cut_refused interp d .object cs p q head within clean split missing
  unfold eventIn
  split_ifs
  · rfl
  · rw [String.toList_ofList,read]
    rcases kind with ⟨message,rfl⟩ | ⟨message,rfl⟩
    · rfl
    · rfl

theorem itemIn_whole : itemIn interp (String.ofList d.text) = .ok (some w) := by
  rw [itemIn,String.toList_ofList,(@Broken.loads_doc interp d).read within clean,value]

end

end

/-! ### The lines of a text -/

theorem lineChars_line {cs : List Char} (one : OneLine cs) (rest : List Char) :
    lineChars (cs ++ '\n' :: rest) = cs :: lineChars rest := by
  induction cs with
  | nil =>
    have feed : isBreak '\n' = true := by decide
    rw [List.nil_append,lineChars,if_pos feed,if_neg (by simp)]
  | cons c cs ih =>
    obtain ⟨first,others⟩ := List.forall_mem_cons.mp one
    rw [List.cons_append,lineChars,if_neg (by simp [first]),ih others]

theorem lineChars_last {cs : List Char} (one : OneLine cs) : lineChars cs = if cs = [] then [] else [cs] := by
  induction cs with
  | nil => rfl
  | cons c cs ih =>
    obtain ⟨first,others⟩ := List.forall_mem_cons.mp one
    rw [lineChars,if_neg (by simp [first]),ih others]
    by_cases last : cs = []
    · simp [last]
    · simp [last]

/-- The text of a line without its end. -/
def content (line : Line) : List Char := line.text.toList.dropLast

/-- The line has some text and ends with a line feed that is its only break. -/
def Whole (line : Line) : Prop := line.text.toList = content line ++ ['\n'] ∧ content line ≠ [] ∧ OneLine (content line)

theorem file_cons (line : Line) (rest : List Line) : file (line :: rest) = line.text ++ file rest := by
  rw [← String.toList_inj]
  simp [file]

theorem size_pos {s : String} (some : s ≠ "") : 0 < s.utf8ByteSize :=
  Nat.pos_of_ne_zero fun none => some (String.utf8ByteSize_eq_zero_iff.mp none)

theorem file_universal {lines : List Line} (whole : ∀ line ∈ lines, Whole line) : ∀ c ∈ (file lines).toList, c ≠ '\r' := by
  induction lines with
  | nil => exact fun c member => by cases member
  | cons line rest ih =>
    obtain ⟨first,others⟩ := List.forall_mem_cons.mp whole
    rw [file_cons,String.toList_append,first.1]
    refine List.forall_mem_append.mpr ⟨List.forall_mem_append.mpr ⟨?_,HexAgent.Writing.of_all (by decide)⟩,ih others⟩
    rintro c member rfl
    exact absurd (first.2.2 _ member) (by decide)

theorem universal_eq {cs : List Char} (plain : ∀ c ∈ cs, c ≠ '\r') : universal cs = cs := by
  induction cs with
  | nil => rfl
  | cons c cs ih =>
    obtain ⟨first,others⟩ := List.forall_mem_cons.mp plain
    rw [universal,if_neg first,ih others]

/-- A text is read as it was written, but for its line ends. -/
theorem read_text_written (s : String) : read_text s.toByteArray = .ok (String.ofList (universal s.toList)) := by
  have decoded : String.fromUTF8? s.toByteArray = some s := by
    unfold String.fromUTF8?
    rw [dif_pos s.isValidUTF8]
    rfl
  unfold read_text
  rw [decoded]

/-- A text without carriage returns is read as it was written. -/
theorem read_text_plain {s : String} (plain : ∀ c ∈ s.toList, c ≠ '\r') : read_text s.toByteArray = .ok s := by
  rw [read_text_written,universal_eq plain,String.ofList_toList]

/-- No line survives without any of its text. -/
theorem survived_nothing {lines : List Line} (whole : ∀ line ∈ lines, Whole line) : survived 0 lines = [] := by
  cases lines with
  | nil => rfl
  | cons line rest =>
    obtain ⟨⟨text,some_,-⟩,-⟩ := List.forall_mem_cons.mp whole
    have written : line.text = String.ofList (content line) ++ "\n" := by
      rw [← String.toList_inj,String.toList_append,String.toList_ofList]
      exact text
    have positive : 0 < (String.ofList (content line)).utf8ByteSize :=
      size_pos fun none => some_ (by simpa using congrArg String.toList none)
    have feed : ("\n" : String).utf8ByteSize = 1 := rfl
    have beyond : ¬ line.text.utf8ByteSize ≤ 0 + 1 := by
      rw [written,String.utf8ByteSize_append,feed]
      omega
    rw [survived,if_neg beyond]

/-- The lines of what is left of a file: those that survived, and what is left of the next one. -/
theorem lines_cut {lines : List Line} (whole : ∀ line ∈ lines, Whole line) : ∀ {kept missing : String} {n : Nat},
    file lines = kept ++ missing → kept.utf8ByteSize ≤ n → (missing ≠ "" → kept.utf8ByteSize = n) →
      ∃ tail, lineChars kept.toList = (survived n lines).map content ++ tail ∧
        (tail = [] ∨ ∃ line ∈ lines, ∃ p q, tail = [p] ∧ q ≠ [] ∧ content line = p ++ q) := by
  induction lines with
  | nil =>
    intro kept missing n split within full
    have nothing : ("" : String) = kept ++ missing := split
    have none : kept = "" := (String.append_eq_empty_iff.mp nothing.symm).1
    exact ⟨[],by rw [none]; rfl,.inl rfl⟩
  | cons line rest ih =>
    intro kept missing n split within full
    obtain ⟨first,others⟩ := List.forall_mem_cons.mp whole
    obtain ⟨text,some_,one⟩ := first
    have written : line.text = String.ofList (content line) ++ "\n" := by
      rw [← String.toList_inj,String.toList_append,String.toList_ofList]
      exact text
    have size : line.text.utf8ByteSize = (String.ofList (content line)).utf8ByteSize + 1 := by
      rw [written,String.utf8ByteSize_append]
      rfl
    have chars : content line ++ '\n' :: (file rest).toList = kept.toList ++ missing.toList := by
      rw [← String.toList_append,← split,file_cons,String.toList_append,text,List.append_assoc]
      rfl
    -- nothing of the other lines is left when the end of this one is missing
    have ended : ∀ bs, content line = kept.toList ++ bs → missing.toList = bs ++ '\n' :: (file rest).toList →
        ∃ tail, lineChars kept.toList = (survived n (line :: rest)).map content ++ tail ∧
          (tail = [] ∨ ∃ line' ∈ line :: rest, ∃ p q, tail = [p] ∧ q ≠ [] ∧ content line' = p ++ q) := by
      intro bs parts behind
      have lost : missing ≠ "" := by
        rintro rfl
        cases bs <;> cases behind
      have exactly := full lost
      have sum : (String.ofList (content line)).utf8ByteSize = n + (String.ofList bs).utf8ByteSize := by
        rw [parts,String.ofList_append,String.utf8ByteSize_append,String.ofList_toList,exactly]
      have kept_one : OneLine kept.toList := (oneLine_append.mp (parts ▸ one)).1
      rw [lineChars_last kept_one]
      by_cases all : bs = []
      · subst all
        rw [List.append_nil] at parts
        have none : (String.ofList ([] : List Char)).utf8ByteSize = 0 := rfl
        have fits : line.text.utf8ByteSize ≤ n + 1 := by omega
        have used : n - line.text.utf8ByteSize = 0 := by omega
        rw [survived,if_pos fits,used,survived_nothing others,← parts,if_neg some_]
        exact ⟨[],rfl,.inl rfl⟩
      · have positive : 0 < (String.ofList bs).utf8ByteSize := size_pos fun none => all (by simpa using congrArg String.toList none)
        have beyond : ¬ line.text.utf8ByteSize ≤ n + 1 := by omega
        rw [survived,if_neg beyond]
        by_cases blank : kept.toList = []
        · exact ⟨[],by rw [if_pos blank]; rfl,.inl rfl⟩
        · exact ⟨[kept.toList],by rw [if_neg blank]; rfl,.inr ⟨line,List.mem_cons_self ..,_,bs,rfl,all,parts⟩⟩
    rcases List.append_eq_append_iff.mp chars with ⟨as,parts,behind⟩ | ⟨bs,parts,behind⟩
    · rcases as with _ | ⟨feed,as⟩
      · exact ended [] (by rw [parts,List.append_nil,List.append_nil]) behind.symm
      · obtain ⟨rfl,after⟩ := List.cons.inj behind
        have kept_eq : kept = line.text ++ String.ofList as := by
          rw [← String.toList_inj,String.toList_append,text,parts]
          simp
        have others_split : file rest = String.ofList as ++ missing := by
          rw [← String.toList_inj,String.toList_append,String.toList_ofList]
          exact after
        have sum : kept.utf8ByteSize = line.text.utf8ByteSize + (String.ofList as).utf8ByteSize := by
          rw [kept_eq,String.utf8ByteSize_append]
        obtain ⟨tail,lines,last⟩ := @ih others (String.ofList as) missing (n - line.text.utf8ByteSize) others_split
          (by omega) (fun lost => by have exactly := full lost; omega)
        rw [String.toList_ofList] at lines
        have fits : line.text.utf8ByteSize ≤ n + 1 := by omega
        refine ⟨tail,?_,last.imp_right ?_⟩
        · rw [parts,lineChars_line one,survived,if_pos fits,lines]
          rfl
        · rintro ⟨line',member,part⟩
          exact ⟨line',List.mem_cons_of_mem _ member,part⟩
    · exact ended bs parts behind

/-! ### Decoding -/

/-- What is decoded of the first bytes of a text is a beginning of the text. -/
theorem decoded_cut {s kept : String} {n : Nat} (decoded : String.fromUTF8? (cut n s) = some kept) :
    ∃ missing, s = kept ++ missing ∧ kept.utf8ByteSize ≤ n ∧ (missing ≠ "" → kept.utf8ByteSize = n) := by
  have bytes : kept.toByteArray = cut n s := by
    unfold String.fromUTF8? at decoded
    split_ifs at decoded with valid
    cases decoded
    rfl
  have size : kept.utf8ByteSize = min n s.utf8ByteSize := by
    show kept.toByteArray.size = _
    rw [bytes,cut,ByteArray.size_extract]
    rfl
  have whole : kept.toByteArray ++ s.toByteArray.extract n s.toByteArray.size = s.toByteArray := by
    rw [bytes,cut,ByteArray.extract_append_extract]
    ext1
    simp
  have begins : kept.toList <+: s.toList := by
    refine List.isPrefix_of_utf8Encode_append_eq_utf8Encode (s.toByteArray.extract n s.toByteArray.size) ?_
    rw [String.utf8Encode_toList,String.utf8Encode_toList,whole]
  obtain ⟨rest,parts⟩ := begins
  have same : s = kept ++ String.ofList rest := by
    rw [← String.toList_inj,String.toList_append,String.toList_ofList,parts]
  refine ⟨String.ofList rest,same,by omega,fun lost => ?_⟩
  have sum : s.utf8ByteSize = kept.utf8ByteSize + (String.ofList rest).utf8ByteSize := by
    rw [← String.utf8ByteSize_append,← same]
  have positive := size_pos lost
  omega

/-! ### Reading the log -/

theorem mapM_each {α β γ : Type} {f : β → Except PyError γ} {h : α → β} {g : α → γ} {xs : List α}
    (each : ∀ x ∈ xs, f (h x) = .ok (g x)) : (xs.map h).mapM f = .ok (xs.map g) := by
  induction xs with
  | nil => rfl
  | cons x xs ih =>
    obtain ⟨first,others⟩ := List.forall_mem_cons.mp each
    rw [List.map_cons,List.mapM_cons,first,ih others]
    rfl

/-- What an event is read back as. -/
def valueOf (line : Line) : Fields :=
  match throughFields line.event.pairs with
  | .ok w => w
  | .error _ => []

section
variable {interp : Interpreter} {line : Line} (dumped : Dumped line) (readable : Readable interp line.event)
include dumped readable

theorem line_whole : Whole line := by
  obtain ⟨d,w,text,one,-,-,-,-⟩ := line_doc dumped readable
  have same : content line = d.text := by rw [content,text,List.dropLast_concat]
  obtain ⟨c,cs,head,-⟩ := d.head
  exact ⟨by rw [same,text],by rw [same,head]; exact List.cons_ne_nil _ _,by rwa [same]⟩

theorem line_value : throughFields line.event.pairs = .ok (valueOf line) := by
  obtain ⟨d,w,-,-,-,-,-,through⟩ := line_doc dumped readable
  rw [valueOf,through]

theorem line_read : eventIn interp (String.ofList (content line)) = .ok (some (valueOf line)) ∧
    itemIn interp (String.ofList (content line)) = .ok (some (valueOf line)) := by
  obtain ⟨d,w,text,-,clean,within,value,through⟩ := line_doc dumped readable
  have same : content line = d.text := by rw [content,text,List.dropLast_concat]
  rw [same,valueOf,through]
  exact ⟨eventIn_whole clean within value,itemIn_whole clean within value⟩

theorem line_part {p q : List Char} (parts : content line = p ++ q) (missing : q ≠ []) :
    eventIn interp (String.ofList p) = .ok none := by
  obtain ⟨d,w,text,-,clean,within,value,-⟩ := line_doc dumped readable
  have same : content line = d.text := by rw [content,text,List.dropLast_concat]
  exact eventIn_cut clean within value (same ▸ parts) missing

end

theorem survived_sublist (n : Nat) (lines : List Line) : ∀ line ∈ survived n lines, line ∈ lines := by
  induction lines generalizing n with
  | nil => exact fun line member => by cases member
  | cons first rest ih =>
    intro line member
    rw [survived] at member
    split_ifs at member
    · rcases List.mem_cons.mp member with rfl | later
      · exact List.mem_cons_self ..
      · exact List.mem_cons_of_mem _ (ih _ line later)
    · cases member

/-- A run is found under its name. -/
theorem resolve_named {runs : List RunDir} {run : RunDir} (distinct : (runs.map RunDir.name).Nodup) (there : run ∈ runs)
    (other : run.name ≠ "latest") : _resolve runs (some run.name) = some run := by
  have inside : run ∈ _run_dirs runs := (List.perm_insertionSort _ runs).mem_iff.mpr there
  have asked : ¬ (some run.name = none ∨ some run.name = some "latest") := by simp [other]
  rw [_resolve,if_neg asked]
  cases found : (_run_dirs runs).find? (fun p => decide (some p.name = some run.name)) with
  | none => simpa using List.find?_eq_none.mp found run inside
  | some p =>
    have same : p.name = run.name := by simpa using List.find?_some found
    have member : p ∈ runs := (List.perm_insertionSort _ runs).mem_iff.mp (List.mem_of_find?_eq_some found)
    rw [List.inj_on_of_nodup_map distinct member there same]

section
variable {interp : Interpreter} {lines : List Line} (dumped : ∀ line ∈ lines, Dumped line)
  (readable : ∀ line ∈ lines, Readable interp line.event)
include dumped readable

/-- The lines that are left of a log are read as the events that survived. -/
theorem cut_read {kept : String} {n : Nat} (decoded : String.fromUTF8? (cut n (file lines)) = some kept) :
    ∃ events, (splitlines (String.ofList (universal kept.toList))).mapM (eventIn interp) = .ok events ∧
      events.filterMap id = (survived n lines).map valueOf := by
  have whole : ∀ line ∈ lines, Whole line := fun line member => line_whole (dumped line member) (readable line member)
  obtain ⟨missing,split,within,full⟩ := decoded_cut decoded
  obtain ⟨tail,parts,last⟩ := lines_cut whole split within full
  have plain : ∀ c ∈ kept.toList, c ≠ '\r' := by
    intro c member
    exact file_universal whole c (by rw [split,String.toList_append]; exact List.mem_append_left _ member)
  have first : ((survived n lines).map (String.ofList ∘ content)).mapM (eventIn interp) =
      .ok ((survived n lines).map fun line => some (valueOf line)) := by
    refine mapM_each fun line member => ?_
    have inside := survived_sublist n lines line member
    exact (line_read (dumped line inside) (readable line inside)).1
  rw [splitlines,String.toList_ofList,universal_eq plain,parts,List.map_append,List.map_map,List.mapM_append,first]
  rcases last with rfl | ⟨line,member,p,q,rfl,missing',cutting⟩
  · refine ⟨_,rfl,?_⟩
    simp [List.filterMap_map]
  · have passed := line_part (dumped line member) (readable line member) cutting missing'
    refine ⟨(survived n lines).map (fun line => some (valueOf line)) ++ [none],?_,?_⟩
    · simp [passed,bind,Except.bind,pure,Except.pure]
    · simp [List.filterMap_map]

/-- The console shows the last lines of a whole log. -/
theorem tail_read (limit : Nat) : _read_events interp (some (file lines).toByteArray) limit =
    .ok ((lines.drop (lines.length - limit)).map valueOf) := by
  have whole : ∀ line ∈ lines, Whole line := fun line member => line_whole (dumped line member) (readable line member)
  have parts : ∀ lines, (∀ line ∈ lines, Whole line) → lineChars (file lines).toList = lines.map content := by
    intro lines whole
    induction lines with
    | nil => rfl
    | cons line rest ih =>
      obtain ⟨⟨text,-,one⟩,others⟩ := List.forall_mem_cons.mp whole
      rw [file_cons,String.toList_append,text,List.append_assoc,List.singleton_append,lineChars_line one,ih others]
      rfl
  have read : ((lines.drop (lines.length - limit)).map (String.ofList ∘ content)).mapM (itemIn interp) =
      .ok ((lines.drop (lines.length - limit)).map fun line => some (valueOf line)) := by
    refine mapM_each fun line member => ?_
    have inside := List.mem_of_mem_drop member
    exact (line_read (dumped line inside) (readable line inside)).2
  have text : read_text (file lines).toByteArray = .ok (file lines) := read_text_plain (file_universal whole)
  unfold _read_events
  rw [Option.map_some,text]
  show (do
    let events ← ((splitlines (file lines)).drop ((splitlines (file lines)).length - limit)).mapM (itemIn interp)
    Except.ok (events.filterMap id)) = _
  rw [splitlines,parts lines whole,List.map_map,List.length_map,← List.map_drop,read]
  show Except.ok _ = Except.ok _
  rw [List.filterMap_map]
  simp

end

/-- The inspector reads back the events of a log that survived a crash, and the console shows the last
    events of a log that is whole. -/
theorem log_read_back {interp : Interpreter} (deep : 0 < interp.recursion_limit) {clock : Nat → String} {run_id : String}
    (plain : Plain clock run_id) {calls : List Call} (kept : ∀ c ∈ calls, c.Kept interp) {runs : List RunDir} {run : RunDir}
    (distinct : (runs.map RunDir.name).Nodup) (there : run ∈ runs) (other : run.name ≠ "latest") {n : Nat}
    (left : run.events = some (cut n (file (session clock run_id calls).lines))) (kind topic : Option String) :
    (String.fromUTF8? (cut n (file (session clock run_id calls).lines)) = none →
      ∃ message, read_events interp runs (some run.name) kind topic = .error (.Other "UnicodeDecodeError" message)) ∧
    ((String.fromUTF8? (cut n (file (session clock run_id calls).lines))).isSome → ∃ events,
      (survived n (session clock run_id calls).lines).mapM (fun line => throughFields line.event.pairs) = .ok events ∧
        read_events interp runs (some run.name) kind topic = .ok (events.filter (wanted kind topic))) ∧
    ∃ events, ((session clock run_id calls).lines.drop ((session clock run_id calls).lines.length - 500)).mapM
        (fun line => throughFields line.event.pairs) = .ok events ∧
      _read_events interp (some (file (session clock run_id calls).lines).toByteArray) 500 = .ok events := by
  obtain ⟨-,dumped,readable⟩ := session_sure deep plain kept
  generalize (session clock run_id calls).lines = lines at *
  have through : ∀ some_ : List Line, (∀ line ∈ some_, line ∈ lines) →
      some_.mapM (fun line => throughFields line.event.pairs) = .ok (some_.map valueOf) := by
    intro some_ inside
    have each := @mapM_each _ _ _ (fun line : Line => throughFields line.event.pairs) id valueOf some_
      fun line member => line_value (dumped line (inside line member)) (readable line (inside line member))
    rwa [List.map_id] at each
  refine ⟨fun broken => ?_,fun decoded => ?_,?_⟩
  · refine ⟨"'utf-8' codec can't decode bytes",?_⟩
    rw [read_events,resolve_named distinct there other]
    simp only [left,read_text,broken]
    rfl
  · obtain ⟨text,decoded⟩ := Option.isSome_iff_exists.mp decoded
    obtain ⟨events,read,found⟩ := cut_read dumped readable decoded
    refine ⟨_,through _ (survived_sublist n lines),?_⟩
    rw [read_events,resolve_named distinct there other]
    simp only [left,read_text,decoded]
    show (do
      let events ← (splitlines (String.ofList (universal text.toList))).mapM (eventIn interp)
      Except.ok ((events.filterMap id).filter (wanted kind topic))) = _
    rw [read]
    show Except.ok _ = _
    rw [found]
  · exact ⟨_,through _ (fun line => List.mem_of_mem_drop),tail_read dumped readable 500⟩

/-- A log with one event besides the first. -/
def noted : List Line :=
  (session (fun _ => "2024-05-01T10:00:00+00:00") "r1" [.emit "UIEvent" [("content",.list [.str "caf\u00e9",.null])]]).lines

theorem noted_read_back : ∃ events, (survived 40 noted).mapM (fun line => throughFields line.event.pairs) = .ok events ∧
    read_events { recursion_limit := 100, float := fun s => ⟨s,true,none⟩ } [⟨"r1",some (cut 40 (file noted))⟩] (some "r1") none none =
      .ok (events.filter (wanted none none)) := by
  have plain : Plain (fun _ => "2024-05-01T10:00:00+00:00") "r1" := ⟨fun _ => plainly_of (by decide),plainly_of (by decide)⟩
  refine (@log_read_back { recursion_limit := 100, float := fun s => ⟨s,true,none⟩ } (by decide) _ _ plain
    [.emit "UIEvent" [("content",.list [.str "caf\u00e9",.null])]] ?_
    [⟨"r1",some (cut 40 (file noted))⟩] ⟨"r1",some (cut 40 (file noted))⟩ (List.nodup_singleton _) (List.mem_singleton.mpr rfl) (by decide) 40 rfl none none).2.1
    (by decide +kernel)
  refine List.forall_mem_singleton.mpr ⟨plainly_of (by decide),List.forall_mem_singleton.mpr ?_⟩
  exact ⟨@plainly_of "content" (by decide),⟨trivial,trivial,trivial⟩,⟨by decide,trivial,trivial,trivial⟩,
    @plainly_of "caf\u00e9" (by decide),trivial,trivial⟩

end HexAgent.LogReading
