import HexAgent.Conversions
import HexAgent.Embedded
import HexAgent.Writing

/-!
What the reader makes. Every value that it reads is made of lists and of objects whose keys are
distinct, so it can be written again, and the key of a call with such arguments is the key of every
call that is alike.
-/
namespace HexAgent.Parsed
open HexAgent.Values HexAgent.Json HexAgent.JsonGate HexAgent.Rendering HexAgent.Writing
open HexAgent.Conversions (bind_ok_iff)

/-! ### The scanner -/

/-- What is read is tidy. -/
def Yields (r : Except PyError (PyVal × List Char)) : Prop := ∀ found, r = .ok found → Tidy found.1

theorem yields_error (error : PyError) : Yields (.error error) := nofun

theorem yields_ok {v : PyVal} {rest : List Char} (tidy : Tidy v) : Yields (.ok (v,rest)) := by
  rintro found ⟨⟩
  exact tidy

theorem Yields.bind {α : Type} {r : Except PyError α} {f : α → Except PyError (PyVal × List Char)}
    (next : ∀ v, r = .ok v → Yields (f v)) : Yields (r.bind f) := by
  rcases r with error | v
  · exact yields_error error
  · exact next v rfl

theorem allTidy_mem {items : List PyVal} : AllTidy items ↔ ∀ item ∈ items, Tidy item := by
  induction items with
  | nil => simp [AllTidy]
  | cons item rest ih => simp [AllTidy,ih]

theorem fieldsTidy_put {fields : Fields} (tidy : FieldsTidy fields) (name : String) {v : PyVal} (tidy' : Tidy v) :
    FieldsTidy (Dicts.put name v fields) := by
  induction fields with
  | nil => exact ⟨tidy',trivial⟩
  | cons field rest ih =>
    obtain ⟨k,u⟩ := field
    by_cases same : k = name
    · simp only [Dicts.put,same,if_true]
      exact ⟨tidy',tidy.2⟩
    · simp only [Dicts.put,same,if_false]
      exact ⟨tidy.1,ih tidy.2⟩

theorem tidy_put {fields : Fields} (tidy : Tidy (.dict fields)) (name : String) {v : PyVal} (tidy' : Tidy v) :
    Tidy (.dict (Dicts.put name v fields)) :=
  ⟨Dicts.nodup_put tidy.1,fieldsTidy_put tidy.2 name tidy'⟩

theorem tidy_number (interp : Interpreter) (cs : List Char) :
    Yields ((scanNumber interp cs).getD (.error (decodeError "Expecting value"))) := by
  unfold scanNumber
  rcases scanInteger cs with _ | ⟨digits,more⟩
  · exact yields_error _
  · simp only [Option.bind_eq_bind,Option.bind_some]
    split
    · split
      · exact yields_error _
      · exact yields_ok trivial
    · exact yields_ok trivial

theorem tidy_word {interp : Interpreter} {cs : List Char} {found : PyVal × List Char}
    (word : scanWord interp cs = some found) : Tidy found.1 := by
  unfold scanWord at word
  split at word <;> cases word <;> exact trivial

section
variable {scan : List Char → Except PyError (PyVal × List Char)} (tidy : ∀ cs, Yields (scan cs))
include tidy

theorem tidy_items (fuel : Nat) : ∀ cs done, AllTidy done → Yields (scanItems scan fuel cs done) := by
  induction fuel with
  | zero => exact fun cs done _ => yields_error _
  | succ fuel ih =>
    intro cs done before
    rw [scanItems]
    refine Yields.bind ?_
    rintro ⟨value,rest⟩ read
    have grown : AllTidy (value :: done) := ⟨tidy cs _ read,before⟩
    dsimp only
    split
    · exact yields_ok (allTidy_mem.mpr fun item inside => allTidy_mem.mp grown item (List.mem_reverse.mp inside))
    · exact ih _ _ grown
    · exact yields_error _

theorem tidy_members (fuel : Nat) : ∀ cs done, Tidy (.dict done) → Yields (scanMembers scan fuel cs done) := by
  induction fuel with
  | zero => exact fun cs done _ => yields_error _
  | succ fuel ih =>
    intro cs done before
    unfold scanMembers
    split
    · exact yields_error _
    · next fuel' more same =>
      obtain rfl := Nat.succ.inj same
      refine Yields.bind ?_
      rintro ⟨name,rest⟩ -
      dsimp only
      split
      · refine Yields.bind ?_
        rintro ⟨value,rest⟩ read
        have grown := tidy_put before name (tidy _ _ read)
        dsimp only
        split
        · exact yields_ok grown
        · exact ih _ _ grown
        · exact yields_error _
      · exact yields_error _
    · exact yields_error _

theorem tidy_array (cs : List Char) : Yields (scanArray scan cs) := by
  unfold scanArray
  split
  · exact yields_ok trivial
  · exact tidy_items tidy _ _ _ trivial

theorem tidy_object (cs : List Char) : Yields (scanObject scan cs) := by
  unfold scanObject
  split
  · exact yields_ok ⟨List.nodup_nil,trivial⟩
  · exact tidy_members tidy _ _ _ ⟨List.nodup_nil,trivial⟩

end

theorem tidy_scan (interp : Interpreter) (depth : Nat) : ∀ cs, Yields (scanOnce interp depth cs) := by
  induction depth with
  | zero =>
    intro cs
    unfold scanOnce
    split
    · exact Yields.bind fun read _ => yields_ok trivial
    · exact yields_error _
    · exact yields_error _
    · split
      · next found word =>
        rintro found' ⟨⟩
        exact tidy_word word
      · exact tidy_number interp cs
  | succ depth ih =>
    intro cs
    unfold scanOnce
    split
    · exact Yields.bind fun read _ => yields_ok trivial
    · exact tidy_object ih _
    · exact tidy_array ih _
    · split
      · next found word =>
        rintro found' ⟨⟩
        exact tidy_word word
      · exact tidy_number interp cs

/-! ### The gate -/

/-- A reading whose value is tidy. -/
def Gives (r : Except PyError PyVal) : Prop := ∀ v, r = .ok v → Tidy v

theorem loads_tidy (interp : Interpreter) (cs : List Char) : Gives (loads interp cs) := by
  intro v read
  unfold loads at read
  split at read
  · cases read
  · obtain ⟨⟨value,rest⟩,scanned,done⟩ := bind_ok_iff.mp read
    have split : (if skipSpace rest = [] then Except.ok value else .error (decodeError "Extra data")) = .ok v := done
    by_cases ends : skipSpace rest = []
    · rw [if_pos ends] at split
      cases split
      exact tidy_scan interp _ _ _ scanned
    · rw [if_neg ends] at split
      cases split

theorem raw_tidy (interp : Interpreter) (cs : List Char) : Gives ((raw_decode interp cs).map Prod.fst) := by
  intro v read
  rcases scanned : raw_decode interp cs with error | found
  · rw [scanned] at read
    cases read
  · rw [scanned] at read
    cases read
    exact tidy_scan interp _ _ _ scanned

theorem firstObject_tidy {attempts : List (Except PyError PyVal)} (each : ∀ r ∈ attempts, Gives r) {fields : Fields}
    (found : firstObject attempts = .ok (some fields)) : Tidy (.dict fields) := by
  induction attempts with
  | nil => cases found
  | cons attempt rest ih =>
    obtain ⟨first,others⟩ := List.forall_mem_cons.mp each
    obtain ⟨object,tried,done⟩ := bind_ok_iff.mp found
    rcases object with _ | object
    · exact ih others done
    · cases done
      unfold objectOf at tried
      split at tried
      · cases tried
        exact first _ rfl
      all_goals cases tried

theorem braceScan_tidy {interp : Interpreter} (cs : List Char) {fields : Fields}
    (found : braceScan interp cs = .ok (some fields)) : Tidy (.dict fields) := by
  induction cs with
  | nil => cases found
  | cons c rest ih =>
    rw [braceScan] at found
    split at found
    · obtain ⟨object,tried,done⟩ := bind_ok_iff.mp found
      rcases object with _ | object
      · exact ih done
      · cases done
        exact firstObject_tidy (by
          intro r inside
          rcases List.mem_pair.mp inside with rfl | rfl
          · exact raw_tidy interp _
          · exact raw_tidy interp _) tried
    · exact ih found

/-- Every action is tidy. -/
theorem action_tidy {interp : Interpreter} {text : String} {action : Fields}
    (parsed : parse_action interp text = .ok action) : Tidy (.dict action) := by
  obtain ⟨fields,object,done⟩ := bind_ok_iff.mp parsed
  have same : fields = action := by
    split at done
    · exact Except.ok.inj done
    · cases done
  rw [← same]
  obtain ⟨found,tried,rest⟩ := bind_ok_iff.mp object
  rcases found with _ | found
  · obtain ⟨later,scanned,rest⟩ := bind_ok_iff.mp rest
    rcases later with _ | later
    · cases rest
    · cases rest
      exact braceScan_tidy _ scanned
  · cases rest
    refine firstObject_tidy ?_ tried
    intro r inside
    rcases List.mem_pair.mp inside with rfl | rfl
    · exact loads_tidy interp _
    · exact loads_tidy interp _

theorem get_tidy {fields : Fields} (tidy : FieldsTidy fields) (key : String) : Tidy (Fields.get fields key) := by
  induction fields with
  | nil => exact trivial
  | cons field rest ih =>
    obtain ⟨k,v⟩ := field
    by_cases same : k = key
    · simpa [Fields.get,Fields.getD,Dicts.get,same] using tidy.1
    · simpa [Fields.get,Fields.getD,Dicts.get,same] using ih tidy.2

end HexAgent.Parsed
