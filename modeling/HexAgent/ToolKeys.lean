import HexAgent.Budgets
import HexAgent.Writing

/-!
The key of a tool call. Its text says the name and the arguments, whatever characters the name has,
so the budget counts under one key the repeats of one call and nothing else.
-/
namespace HexAgent.ToolKeys
open HexAgent.Values HexAgent.Json HexAgent.Budgets HexAgent.Rendering HexAgent.Writing Quotes

/-- A tool call with its arguments. -/
structure Call where
  tool : String
  args : Fields

def Call.key (call : Call) : Except PyError String := tool_key call.tool (.dict call.args)

/-- The same tool, and arguments equal up to the order of their keys. -/
def Same (call other : Call) : Prop := call.tool = other.tool ∧ Alike (.dict call.args) (.dict other.args)

/-- What the node of the tools does to the budget for a call. -/
def charge (b : Budget) (call : Call) : Except PyError Budget := call.key.map b.record_tool_call

/-- The budget after some calls, one after another. -/
def chargeAll : Budget → List Call → Except PyError Budget
  | b,[] => .ok b
  | b,call :: rest => do
    let b ← charge b call
    chargeAll b rest

open Classical in
/-- How often a call is made among these. -/
noncomputable def repeats (call : Call) (made : List Call) : Nat := made.countP fun other => decide (Same other call)

section
variable {float : String → PyFloat}

theorem key_text {call : Call} (json : IsJson float (.dict call.args)) :
    call.key = .ok (call.tool ++ ":" ++ String.ofList (write (canon (.dict call.args)))) := by
  rw [Call.key,tool_key,dumps_write _ (json_tidy _ json)]
  rfl

/-- Calls have one key exactly when they are the same. -/
theorem key_eq_iff {call other : Call} (json : IsJson float (.dict call.args))
    (json' : IsJson float (.dict other.args)) :
    call.key = other.key ↔ Same call other := by
  rw [key_text json,key_text json',Except.ok.injEq]
  constructor
  · intro same
    have chars := congrArg String.toList same
    simp only [String.toList_append,String.toList_ofList,List.append_assoc] at chars
    obtain ⟨tool,text⟩ := separated (write_complete (canon_json _ json)) (write_complete (canon_json _ json')) chars
    have stops : Rows.Stops stops [] := by nofun
    have args := (write_told _ (canon_json _ json) _ (canon_json _ json') [] [] stops stops (by rw [text])).1
    exact ⟨String.toList_inj.mp tool,(canon_eq_iff json).mp args⟩
  · rintro ⟨tool,args⟩
    rw [tool,(canon_eq_iff json).mpr args]

theorem calls_record (b : Budget) (key asked : String) :
    (b.record_tool_call key).calls asked = b.calls asked + if asked = key then 1 else 0 := by
  rw [Budget.calls,Budget.record_tool_call]
  by_cases same : asked = key
  · rw [same,Dicts.get_put_self,if_pos rfl]
    rfl
  · rw [Dicts.get_put_other same,if_neg same,Int.add_zero]
    rfl

/-- A call is counted once under its key, and under no other one. -/
theorem calls_charge {b : Budget} {call asked : Call} {key : String} (json : IsJson float (.dict call.args))
    (json' : IsJson float (.dict asked.args)) (keyed : asked.key = .ok key) :
    ∃ charged, charge b call = .ok charged ∧ charged.max_same_tool_calls = b.max_same_tool_calls ∧
      charged.calls key = b.calls key + repeats asked [call] := by
  obtain ⟨made,spelled⟩ : ∃ made, call.key = .ok made := ⟨_,key_text json⟩
  refine ⟨b.record_tool_call made,by rw [charge,spelled]; rfl,rfl,?_⟩
  have one : key = made ↔ Same call asked := by
    rw [← key_eq_iff json json',spelled,keyed,Except.ok.injEq]
    exact eq_comm
  rw [calls_record]
  by_cases same : Same call asked <;> simp [repeats,one,same]

/-- After any calls the budget holds for each call how often it was made. -/
theorem calls_chargeAll {b : Budget} {made : List Call} {asked : Call} {key : String}
    (each : ∀ call ∈ made, IsJson float (.dict call.args)) (json : IsJson float (.dict asked.args))
    (keyed : asked.key = .ok key) :
    ∃ charged, chargeAll b made = .ok charged ∧ charged.max_same_tool_calls = b.max_same_tool_calls ∧
      charged.calls key = b.calls key + repeats asked made := by
  induction made generalizing b with
  | nil => exact ⟨b,rfl,rfl,by simp [repeats]⟩
  | cons call rest ih =>
    obtain ⟨first,others⟩ := List.forall_mem_cons.mp each
    obtain ⟨next,charged,limit,counted⟩ := calls_charge (b := b) first json keyed
    obtain ⟨last,remaining,limit',counted'⟩ := ih (b := next) others
    refine ⟨last,by rw [chargeAll,charged]; exact remaining,limit'.trans limit,?_⟩
    have split : repeats asked ([call] ++ rest) = repeats asked [call] + repeats asked rest := List.countP_append
    rw [List.singleton_append] at split
    omega

variable (float) in
/-- Two calls have one key exactly when they have one name and their arguments are equal up to the order of keys at
    every level. So after any calls the budget holds how often just this call was made, and blocks it by that. -/
theorem key_counts_repeats (n₁ n₂ : String) (a₁ a₂ : Fields) (json₁ : IsJson float (.dict a₁))
    (json₂ : IsJson float (.dict a₂)) :
    (tool_key n₁ (.dict a₁) = tool_key n₂ (.dict a₂) ↔ n₁ = n₂ ∧ Alike (.dict a₁) (.dict a₂)) ∧
      ∃ key, tool_key n₁ (.dict a₁) = .ok key ∧
        ∀ (b : Budget) (made : List Call), (∀ call ∈ made, IsJson float (.dict call.args)) →
          ∃ charged, chargeAll b made = .ok charged ∧ charged.calls key = b.calls key + repeats ⟨n₁,a₁⟩ made ∧
            (charged.same_tool_exceeded key ↔ b.max_same_tool_calls < b.calls key + repeats ⟨n₁,a₁⟩ made) := by
  have keyed : Call.key ⟨n₁,a₁⟩ = _ := key_text json₁
  refine ⟨@key_eq_iff float ⟨n₁,a₁⟩ ⟨n₂,a₂⟩ json₁ json₂,_,keyed,?_⟩
  intro b made each
  obtain ⟨charged,reached,limit,counted⟩ := calls_chargeAll (b := b) each json₁ keyed
  refine ⟨charged,reached,counted,?_⟩
  rw [Budget.same_tool_exceeded,limit,counted,decide_eq_true_iff]

end

/-- A reader of the floats of one text. -/
def half (text : String) : PyFloat := ⟨text,true,some 0⟩

/-- The arguments of a call, and the same ones with their keys in another order. -/
def limits : Fields :=
  [("path",.str "a\":\x7b\n"),("range",.dict [("low",.float (half "0.5")),("high",.list [.int (-3),.null])])]
def limitsTurned : Fields :=
  [("range",.dict [("high",.list [.int (-3),.null]),("low",.float (half "0.5"))]),("path",.str "a\":\x7b\n")]

theorem half_standard : Standard half (half "0.5") :=
  ⟨rfl,.inr ⟨⟨'0',['.','5'],rfl,.inl (by decide)⟩,of_all (by decide),.inl (by decide)⟩⟩

theorem limits_json : IsJson half (.dict limits) :=
  ⟨by decide,trivial,⟨by decide,half_standard,⟨trivial,trivial,trivial⟩,trivial⟩,trivial⟩

theorem limits_turned_json : IsJson half (.dict limitsTurned) :=
  ⟨by decide,⟨by decide,⟨trivial,trivial,trivial⟩,half_standard,trivial⟩,trivial,trivial⟩

theorem limits_alike : Alike (.dict limitsTurned) (.dict limits) := by
  refine alike_of_canon _ _ ?_
  decide +kernel

/-- A name with a colon, a brace and a quote, and one of the same beginning. -/
theorem turned_limits_repeat :
    tool_key "read:\x7b\"" (.dict limitsTurned) = tool_key "read:\x7b\"" (.dict limits) ∧
      tool_key "read" (.dict limitsTurned) ≠ tool_key "read:\x7b\"" (.dict limits) ∧
      ∃ key charged, tool_key "read:\x7b\"" (.dict limits) = .ok key ∧
        chargeAll {} [⟨"read:\x7b\"",limitsTurned⟩,⟨"read",limits⟩] = .ok charged ∧ charged.calls key = 1 := by
  have same := (key_counts_repeats half "read:\x7b\"" "read:\x7b\"" limitsTurned limits limits_turned_json
    limits_json).1
  have apart := (key_counts_repeats half "read" "read:\x7b\"" limitsTurned limits limits_turned_json limits_json).1
  obtain ⟨-,key,keyed,counts⟩ :=
    key_counts_repeats half "read:\x7b\"" "read:\x7b\"" limits limits limits_json limits_json
  obtain ⟨charged,reached,counted,-⟩ := counts {} [⟨"read:\x7b\"",limitsTurned⟩,⟨"read",limits⟩]
    (List.forall_mem_cons.mpr ⟨limits_turned_json,List.forall_mem_singleton.mpr limits_json⟩)
  refine ⟨same.mpr ⟨rfl,limits_alike⟩,fun wrong => absurd (apart.mp wrong).1 (by decide),key,charged,keyed,reached,?_⟩
  have once : repeats ⟨"read:\x7b\"",limits⟩ [⟨"read:\x7b\"",limitsTurned⟩,⟨"read",limits⟩] = 1 := by
    simp [repeats,Same,limits_alike]
  rw [counted,once]
  rfl

end HexAgent.ToolKeys
