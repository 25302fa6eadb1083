import HexAgent.Events
import Mathlib.Data.List.Chain

/-!
The numbers of a session. The emitter counts the events that it numbers itself, and
passes a number that the caller preset without counting it: the two meet as soon as an
event is left to be numbered after a preset one.
-/
namespace HexAgent.Sequences
open HexAgent.Values HexAgent.Commands HexAgent.Events

/-! ### Numbers that are preset or counted -/

/-- The numbers of a sequence in which 0 stands for the next one of the counter. -/
def numbered (counter : Nat) : List Int → List Int
  | [] => []
  | n :: rest => if n = 0 then ((counter + 1 : Nat) : Int) :: numbered (counter + 1) rest else n :: numbered counter rest

/-- The counted numbers stand together: before them are increasing numbers that the counter
    had passed, after them increasing numbers that it has not reached. -/
def Orderly (counter : Nat) (presets : List Int) : Prop :=
  presets.Pairwise (· < ·) ∧ 0 ∉ presets ∨
    ∃ (before : List Int) (counted : Nat) (after : List Int), presets = before ++ 0 :: List.replicate counted 0 ++ after ∧
      (before.Pairwise (· < ·) ∧ ∀ n ∈ before, n ≠ 0 ∧ n ≤ counter) ∧
      (after.Pairwise (· < ·) ∧ ∀ n ∈ after, ((counter + 1 + counted : Nat) : Int) < n)

section
variable {counter : Nat} {presets before after : List Int}

theorem numbered_presets (preset : 0 ∉ before) : numbered counter (before ++ after) = before ++ numbered counter after := by
  induction before with
  | nil => rfl
  | cons n rest ih =>
    rw [List.mem_cons,not_or] at preset
    rw [List.cons_append,numbered,if_neg (Ne.symm preset.1),ih preset.2,List.cons_append]

theorem numbered_preset (preset : 0 ∉ presets) : numbered counter presets = presets := by
  have alone := @numbered_presets counter presets [] preset
  rwa [List.append_nil,numbered,List.append_nil] at alone

/-- The first number that is counted is the next one. -/
theorem next_numbered (counted : 0 ∈ presets) : ((counter + 1 : Nat) : Int) ∈ numbered counter presets := by
  obtain ⟨before,after,rfl,preset⟩ := List.eq_append_cons_of_mem counted
  rw [numbered_presets preset,numbered,if_pos rfl]
  exact List.mem_append_right _ List.mem_cons_self

/-- A list is split at its first 0 in one way. -/
theorem first_zero {rest others : List Int} (early : 0 ∉ before) (also : 0 ∉ after)
    (split : before ++ 0 :: rest = after ++ 0 :: others) : before = after ∧ rest = others := by
  rcases List.append_eq_append_iff.mp split with ⟨_ | ⟨n,more⟩,rfl,same⟩ | ⟨_ | ⟨n,more⟩,rfl,same⟩
  · exact ⟨(List.append_nil _).symm,(List.cons_eq_cons.mp same).2⟩
  · obtain ⟨rfl,-⟩ := List.cons_eq_cons.mp same
    exact absurd (List.mem_append_right _ List.mem_cons_self) also
  · exact ⟨List.append_nil _,(List.cons_eq_cons.mp same).2.symm⟩
  · obtain ⟨rfl,-⟩ := List.cons_eq_cons.mp same
    exact absurd (List.mem_append_right _ List.mem_cons_self) early

/-- From a counted number on the numbers increase exactly when no number is counted after a
    preset one. -/
theorem counted_iff (nonneg : ∀ n ∈ presets, 0 ≤ n) :
    ((counter : Int) :: numbered counter presets).Pairwise (· < ·) ↔
      ∃ (counted : Nat) (after : List Int), presets = List.replicate counted 0 ++ after ∧ after.Pairwise (· < ·) ∧
        ∀ n ∈ after, ((counter + counted : Nat) : Int) < n := by
  induction presets generalizing counter with
  | nil => exact ⟨fun _ => ⟨0,[],rfl,.nil,nofun⟩,fun _ => List.pairwise_singleton _ _⟩
  | cons n rest ih =>
    obtain ⟨here,later⟩ := List.forall_mem_cons.mp nonneg
    rw [← List.isChain_iff_pairwise]
    by_cases counts : n = 0
    · rw [numbered,if_pos counts,List.isChain_cons_cons,List.isChain_iff_pairwise,ih later]
      constructor
      · rintro ⟨-,counted,after,rfl,increase,above⟩
        exact ⟨counted + 1,after,by rw [counts]; rfl,increase,fun n member => by have := above n member; omega⟩
      · rintro ⟨_ | counted,after,split,increase,above⟩
        · obtain rfl : n :: rest = after := split
          have := above n List.mem_cons_self
          omega
        · obtain ⟨-,rfl⟩ := List.cons_eq_cons.mp split
          exact ⟨by omega,counted,after,rfl,increase,fun n member => by have := above n member; omega⟩
    · rw [numbered,if_neg counts,List.isChain_cons_cons,List.isChain_iff_pairwise]
      constructor
      · rintro ⟨above,increase⟩
        have preset : 0 ∉ rest := fun counted => by
          have := (List.pairwise_cons.mp increase).1 _ (@next_numbered counter rest counted)
          omega
        rw [numbered_preset preset] at increase
        refine ⟨0,n :: rest,rfl,increase,fun m member => ?_⟩
        rcases List.mem_cons.mp member with rfl | later
        · simpa using above
        · have := (List.pairwise_cons.mp increase).1 m later
          omega
      · rintro ⟨_ | counted,after,split,increase,above⟩
        · obtain rfl : n :: rest = after := split
          have first := above n List.mem_cons_self
          have preset : 0 ∉ rest := fun member => by
            have := above 0 (List.mem_cons_of_mem _ member)
            omega
          rw [numbered_preset preset]
          exact ⟨by omega,increase⟩
        · exact absurd (List.cons_eq_cons.mp split).1 counts

/-- The numbers increase exactly when the preset ones are in order. -/
theorem numbered_iff (nonneg : ∀ n ∈ presets, 0 ≤ n) : (numbered counter presets).Pairwise (· < ·) ↔ Orderly counter presets := by
  by_cases counted : 0 ∈ presets
  · obtain ⟨before,rest,rfl,preset⟩ := List.eq_append_cons_of_mem counted
    have later : ∀ n ∈ rest, 0 ≤ n := fun n member => nonneg n (List.mem_append_right _ (List.mem_cons_of_mem _ member))
    rw [numbered_presets preset,numbered,if_pos rfl,List.pairwise_append,counted_iff later]
    constructor
    · rintro ⟨increase,⟨more,after,rfl,others⟩,below⟩
      refine .inr ⟨before,more,after,by simp,⟨increase,fun n member => ⟨fun zero => preset (zero ▸ member),?_⟩⟩,others⟩
      have := below n member _ List.mem_cons_self
      omega
    · rintro (⟨-,none⟩ | ⟨first,more,after,split,⟨increase,below⟩,others⟩)
      · exact absurd counted none
      · rw [List.append_assoc,List.cons_append] at split
        obtain ⟨rfl,rfl⟩ := first_zero preset (fun zero => (below 0 zero).1 rfl) split
        have counts := (counted_iff later).mpr ⟨more,after,rfl,others⟩
        refine ⟨increase,⟨more,after,rfl,others⟩,fun n member m counted => ?_⟩
        have := (below n member).2
        rcases List.mem_cons.mp counted with rfl | further
        · omega
        · have := (List.pairwise_cons.mp counts).1 m further
          omega
  · rw [numbered_preset counted]
    refine ⟨fun increase => .inl ⟨increase,counted⟩,?_⟩
    rintro (⟨increase,-⟩ | ⟨before,more,after,rfl,-⟩)
    · exact increase
    · simp at counted

end

/-! ### Calls of the emitter -/

/-- A call of the emitter: an event of the caller, or the fields of a new one. -/
inductive EmitCall where
  | emit_event (event : RuntimeEvent)
  | emit (stamp : Stamp) (event_type session_id : String) (actor : Actor) (trace : TraceContext) (payload : Fields)
      (round_no : Option Int) (task_id workflow_id : Option String) (source : String)

theorem first_version : (1 : Int) ≤ 1 := Int.le_refl 1
theorem unnumbered : (0 : Int) ≤ 0 := Int.le_refl 0

/-- The event of a call; that of new fields has no number yet. -/
def EmitCall.event : EmitCall → Except PyError RuntimeEvent
  | .emit_event event => .ok event
  | .emit stamp event_type session_id actor trace payload round_no task_id workflow_id source =>
    if typed : event_type ≠ "" then
      if owned : session_id ≠ "" then
        if sourced : source ≠ "" then
          .ok { event_type, session_id, actor, trace, redaction := {}, event_id := stamp.id, created_at := stamp.time,
                schema_version := 1, seq := 0, round_no, workflow_id, task_id, source, payload, ui_payload := none,
                event_id_nonempty := stamp.id_nonempty, event_type_nonempty := typed, session_id_nonempty := owned,
                created_at_nonempty := stamp.time_nonempty, source_nonempty := sourced,
                schema_version_positive := first_version, seq_nonneg := unnumbered }
        else .error (emptyField "RuntimeEvent" "source")
      else .error (emptyField "RuntimeEvent" "session_id")
    else .error (emptyField "RuntimeEvent" "event_type")

/-- The emitter after a call, and the finalized event. -/
def call (emitter : EventEmitter) (c : EmitCall) : Except PyError (EventEmitter × RuntimeEvent) :=
  match c.event with
  | .error error => .error error
  | .ok event => emitter.emit_event event

/-- The emitter after some calls, and the finalized events; a rejected call leaves no trace. -/
def emitAll (emitter : EventEmitter) : List EmitCall → EventEmitter × List RuntimeEvent
  | [] => (emitter,[])
  | c :: rest => match call emitter c with
    | .error _ => emitAll emitter rest
    | .ok (next,final) => ((emitAll next rest).1,final :: (emitAll next rest).2)

/-- The event of a call that is not rejected. -/
def accepted (registry : EventTypeRegistry) (c : EmitCall) : Option RuntimeEvent :=
  match c.event with
  | .ok event => if (registry.find event.event_type).isSome then some event else none
  | .error _ => none

/-- The numbers of the events of a session. -/
def seqsOf (session_id : String) (events : List RuntimeEvent) : List Int :=
  (events.filter fun event => event.session_id = session_id).map RuntimeEvent.seq

section
variable {emitter : EventEmitter} {c : EmitCall}

/-- An event is numbered by the counter of its session, or has its number; no other session
    is touched. -/
theorem stage_counter (emitter : EventEmitter) (event : RuntimeEvent) :
    (event.seq = 0 ∧ (emitter.stage event).2.seq = (emitter.counter event.session_id + 1 : Nat) ∧
        (emitter.stage event).1.counter event.session_id = emitter.counter event.session_id + 1 ∨
      event.seq ≠ 0 ∧ (emitter.stage event).2.seq = event.seq ∧
        (emitter.stage event).1.counter event.session_id = emitter.counter event.session_id) ∧
    ∀ other, other ≠ event.session_id → (emitter.stage event).1.counter other = emitter.counter other := by
  unfold EventEmitter.stage
  by_cases counts : event.seq = 0
  · rw [if_pos counts]
    refine ⟨.inl ⟨counts,rfl,?_⟩,fun other apart => ?_⟩
    · simp [EventEmitter.counter,Dicts.get_put_self]
    · simp [EventEmitter.counter,Dicts.get_put_other apart]
  · rw [if_neg counts]
    exact ⟨.inr ⟨counts,rfl,rfl⟩,fun _ _ => rfl⟩

/-- A call is rejected, or its event is staged. -/
theorem call_cases (emitter : EventEmitter) (c : EmitCall) :
    (∃ error, call emitter c = .error error) ∧ accepted emitter.registry c = none ∨
      ∃ event final, call emitter c = .ok ((emitter.stage event).1,final) ∧ accepted emitter.registry c = some event ∧
        (emitter.stage event).1.registry = emitter.registry ∧ final.session_id = event.session_id ∧
        final.seq = (emitter.stage event).2.seq := by
  rcases made : c.event with error | event
  · exact .inl ⟨⟨error,by simp [call,made]⟩,by simp [accepted,made]⟩
  · rcases found : emitter.registry.find event.event_type with _ | spec
    · refine .inl ⟨?_,by simp [accepted,made,found]⟩
      simp [call,made,EventEmitter.emit_event,EventTypeRegistry.get,found]
    · refine .inr ⟨event,redactEvent (emitter.stage event).1.secret_keys (emitter.stage event).2 spec.visibility,
        by simp [call,made,EventEmitter.emit_event,EventTypeRegistry.get,found],by simp [accepted,made,found],?_⟩
      by_cases counts : event.seq = 0
      · simp [EventEmitter.stage,counts,redactEvent]
      · simp [EventEmitter.stage,counts,redactEvent]

variable {session_id : String}

theorem seqsOf_cons (event : RuntimeEvent) (events : List RuntimeEvent) : seqsOf session_id (event :: events) =
    if event.session_id = session_id then event.seq :: seqsOf session_id events else seqsOf session_id events := by
  unfold seqsOf
  rw [List.filter_cons]
  by_cases own : event.session_id = session_id <;> simp [own]

/-- What the emitter finalizes are the accepted events, numbered. -/
theorem emitAll_seqs (emitter : EventEmitter) (calls : List EmitCall) (session_id : String) :
    seqsOf session_id (emitAll emitter calls).2 =
      numbered (emitter.counter session_id) (seqsOf session_id (calls.filterMap (accepted emitter.registry))) := by
  induction calls generalizing emitter with
  | nil => rfl
  | cons c rest ih =>
    rw [emitAll]
    rcases call_cases emitter c with ⟨⟨error,rejected⟩,refused⟩ | ⟨event,final,ran,given,registry,session,seq⟩
    · rw [rejected,List.filterMap_cons_none refused]
      exact ih emitter
    · obtain ⟨numbers,others⟩ := stage_counter emitter event
      rw [ran,List.filterMap_cons_some given]
      dsimp only
      rw [seqsOf_cons,seqsOf_cons,session,seq,ih (emitter.stage event).1,registry]
      by_cases own : event.session_id = session_id
      · subst own
        rw [if_pos rfl,if_pos rfl,numbered]
        rcases numbers with ⟨counts,next,counter⟩ | ⟨preset,next,counter⟩
        · rw [if_pos counts,next,counter]
        · rw [if_neg preset,next,counter]
      · rw [if_neg own,if_neg own,others session_id (Ne.symm own)]

/-- A rejected event leaves the emitter and the other events as if it had not been there. -/
theorem emitAll_accepted (emitter : EventEmitter) (calls : List EmitCall) :
    emitAll emitter calls = emitAll emitter (calls.filter fun c => (accepted emitter.registry c).isSome) := by
  induction calls generalizing emitter with
  | nil => rfl
  | cons c rest ih =>
    rw [List.filter_cons]
    rcases call_cases emitter c with ⟨⟨error,rejected⟩,refused⟩ | ⟨event,final,ran,given,registry,-⟩
    · rw [emitAll,rejected,refused]
      exact ih emitter
    · have kept := ih (emitter.stage event).1
      rw [registry] at kept
      rw [given,Option.isSome_some,if_pos rfl,emitAll,emitAll,ran]
      dsimp only
      rw [← kept]

/-- In every session the numbers increase, exactly when the caller presets numbers in order
    and leaves none to be counted after a preset one that the counter has not passed. A
    rejected event takes no number. -/
theorem seqs_increase_iff (emitter : EventEmitter) (calls : List EmitCall) :
    ((∀ session_id, (seqsOf session_id (emitAll emitter calls).2).Pairwise (· < ·)) ↔
      ∀ session_id, Orderly (emitter.counter session_id) (seqsOf session_id (calls.filterMap (accepted emitter.registry)))) ∧
    emitAll emitter calls = emitAll emitter (calls.filter fun c => (accepted emitter.registry c).isSome) := by
  refine ⟨forall_congr' fun session_id => ?_,emitAll_accepted emitter calls⟩
  rw [emitAll_seqs]
  refine numbered_iff fun n member => ?_
  obtain ⟨event,-,rfl⟩ := List.mem_map.mp member
  exact event.seq_nonneg

end

/-! ### A number that is given twice -/

theorem runtime_named : "runtime" ≠ "" := by decide
theorem trace_named : "t1" ≠ "" := by decide
theorem span_named : "p1" ≠ "" := by decide
theorem event_named : "e1" ≠ "" := by decide
theorem started_named : "session.started" ≠ "" := by decide
theorem session_named : "s1" ≠ "" := by decide
theorem now_named : "now" ≠ "" := by decide
theorem numbered_first : (0 : Int) ≤ 1 := by decide

/-- An event whose caller numbered it 1. -/
def firstEvent : RuntimeEvent where
  event_type := "session.started"
  session_id := "s1"
  actor := ⟨.system,"runtime",runtime_named⟩
  trace := ⟨"t1","p1",none,trace_named,span_named⟩
  redaction := {}
  event_id := "e1"
  created_at := "now"
  schema_version := 1
  seq := 1
  round_no := none
  workflow_id := none
  task_id := none
  source := "runtime"
  payload := []
  ui_payload := none
  event_id_nonempty := event_named
  event_type_nonempty := started_named
  session_id_nonempty := session_named
  created_at_nonempty := now_named
  source_nonempty := runtime_named
  schema_version_positive := first_version
  seq_nonneg := numbered_first

/-- The next event of the session is numbered 1 as well. -/
theorem preset_number_repeated :
    seqsOf "s1" (emitAll {} [.emit_event firstEvent,.emit ⟨"e2","later",by decide,by decide⟩ "loop.finished" "s1"
      firstEvent.actor firstEvent.trace [] none none none "runtime"]).2 = [1,1] ∧
    ¬ (seqsOf "s1" (emitAll {} [.emit_event firstEvent,.emit ⟨"e2","later",by decide,by decide⟩ "loop.finished" "s1"
      firstEvent.actor firstEvent.trace [] none none none "runtime"]).2).Pairwise (· < ·) := by
  decide +kernel

end HexAgent.Sequences
