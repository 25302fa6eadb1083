import HexAgent.Scripted

/-!
What the text of a decision can do to the loop. A text is either refused with
`JsonGateError`, so that the orchestrator is asked again, or it becomes a decision that
is queued, signed and judged. It makes the loop raise exactly when a reading of
it raises an exception of its own, when it gives a call a scope that is no sequence, a
command a payload that is no object, or a check of the state evidence that is no
sequence.
-/
namespace HexAgent.Bookkeeping
open HexAgent.Values HexAgent.Json HexAgent.JsonGate HexAgent.Board HexAgent.CommandBridge HexAgent.Contracts
open HexAgent.Graph HexAgent.Loop HexAgent.Supervisor HexAgent.Nodes HexAgent.Scripted Journals Programs

/-! ### Sequences of computations -/

section
variable {ε α β : Type}

theorem mapM_isOk_iff {f : α → Except ε β} {xs : List α} : (xs.mapM f).isOk ↔ ∀ x ∈ xs, (f x).isOk := by
  induction xs with
  | nil => simp [Except.isOk,Except.toBool,pure,Except.pure]
  | cons x rest ih =>
    rw [List.mapM_cons,List.forall_mem_cons,← ih]
    rcases f x with error | y
    · simp [bind,Except.bind,Except.isOk,Except.toBool]
    · rcases rest.mapM f with error | ys
      · simp [bind,Except.bind,Except.isOk,Except.toBool]
      · simp [bind,Except.bind,Except.isOk,Except.toBool,pure,Except.pure]

/-- Computations that give back what the items were made of. -/
theorem mapM_ok_map {f : α → Except ε β} {g : β → α} (back : ∀ x y, f x = .ok y → x = g y) {xs : List α} {ys : List β}
    (mapped : xs.mapM f = .ok ys) : xs = ys.map g := by
  induction xs generalizing ys with
  | nil => cases mapped; rfl
  | cons x rest ih =>
    rw [List.mapM_cons] at mapped
    rcases first : f x with error | y
    · simp [bind,Except.bind,first] at mapped
    · rcases others : rest.mapM f with error | more
      · simp [bind,Except.bind,first,others] at mapped
      · simp only [bind,Except.bind,first,others,pure,Except.pure,Except.ok.injEq] at mapped
        rw [← mapped,List.map_cons,← back x y first,← ih others]

end

/-! ### Readings of a text -/

/-- The readings that begin at the opening braces of a text. -/
def braceReadings (interp : Interpreter) : List Char → List (Except PyError PyVal)
  | [] => []
  | c :: rest =>
    if c = '\x7b' then (raw_decode interp (c :: rest)).map Prod.fst ::
      (raw_decode interp (repair (c :: rest))).map Prod.fst :: braceReadings interp rest
    else braceReadings interp rest

/-- The readings of a text, in the order in which they are tried. -/
def readings (interp : Interpreter) (text : String) : List (Except PyError PyVal) :=
  let raw := strip_fences text.toList
  loads interp raw :: loads interp (repair raw) :: braceReadings interp raw

/-- A reading that is passed over: it is no JSON, or no object. -/
def Passed (reading : Except PyError PyVal) : Prop := objectOf reading = .ok none

/-- The text is read as the object. -/
def Finds (interp : Interpreter) (text : String) (obj : Fields) : Prop :=
  ∃ before later, readings interp text = before ++ .ok (.dict obj) :: later ∧ ∀ r ∈ before, Passed r

/-- A reading of the text, before any object is found, raises an exception that is
    neither `JSONDecodeError` nor `JsonGateError`. -/
def Chokes (interp : Interpreter) (text : String) : Prop :=
  ∃ before error later, readings interp text = before ++ .error error :: later ∧ (∀ r ∈ before, Passed r) ∧
    (∀ message, error ≠ .JSONDecodeError message) ∧ ∀ message stage candidate, error ≠ .JsonGateError message stage candidate

theorem firstObject_append (early late : List (Except PyError PyVal)) :
    firstObject (early ++ late) = (firstObject early).bind fun found => match found with
      | some fields => .ok (some fields)
      | none => firstObject late := by
  induction early with
  | nil => rfl
  | cons attempt rest ih =>
    rw [List.cons_append,firstObject,firstObject]
    rcases objectOf attempt with error | _ | fields
    · rfl
    · exact ih
    · rfl

theorem braceScan_eq (interp : Interpreter) (text : List Char) :
    braceScan interp text = firstObject (braceReadings interp text) := by
  induction text with
  | nil => rfl
  | cons c rest ih =>
    rw [braceScan,braceReadings]
    split
    · rw [ih]
      exact (firstObject_append [_,_] (braceReadings interp rest)).symm
    · exact ih

theorem parse_json_object_eq (interp : Interpreter) (text : String) :
    parse_json_object interp text = match firstObject (readings interp text) with
      | .error error => .error error
      | .ok (some fields) => .ok fields
      | .ok none => .error (.JsonGateError "Could not parse a JSON object from model output." "parse"
          (String.ofList ((strip_fences text.toList).take 200))) := by
  unfold parse_json_object readings load_object
  rw [show ∀ (a b : Except PyError PyVal) rest, a :: b :: rest = [a,b] ++ rest from fun _ _ _ => rfl,firstObject_append]
  simp only [bind,Except.bind,braceScan_eq]
  rcases firstObject [loads interp (strip_fences text.toList),loads interp (repair (strip_fences text.toList))] with
    error | _ | fields
  · rfl
  · simp only
    rcases firstObject (braceReadings interp (strip_fences text.toList)) with error | _ | fields <;> rfl
  · rfl

theorem objectOf_error_iff {reading : Except PyError PyVal} {error : PyError} :
    objectOf reading = .error error ↔ reading = .error error ∧ ∀ message, error ≠ .JSONDecodeError message := by
  constructor
  · intro raised
    unfold objectOf at raised
    split at raised
    · cases raised
    · cases raised
    · cases raised
    · next other => cases raised; exact ⟨rfl,fun message same => other message (by rw [same])⟩
  · rintro ⟨rfl,other⟩
    cases error <;> first | rfl | exact absurd rfl (other _)

theorem objectOf_some_iff {reading : Except PyError PyVal} {obj : Fields} :
    objectOf reading = .ok (some obj) ↔ reading = .ok (.dict obj) := by
  constructor
  · intro found
    unfold objectOf at found
    split at found <;> cases found
    rfl
  · rintro rfl
    rfl

/-- The first reading that is not passed over decides. -/
theorem firstObject_iff {attempts : List (Except PyError PyVal)} {outcome : Except PyError (Option Fields)}
    (decides : outcome ≠ .ok none) : firstObject attempts = outcome ↔
      ∃ before r later, attempts = before ++ r :: later ∧ (∀ r ∈ before, Passed r) ∧ objectOf r = outcome := by
  induction attempts with
  | nil => simp [firstObject,decides.symm]
  | cons attempt rest ih =>
    have stop : objectOf attempt ≠ .ok none → firstObject (attempt :: rest) = objectOf attempt := by
      rw [firstObject]
      rcases objectOf attempt with error | _ | fields
      · exact fun _ => rfl
      · exact fun found => absurd rfl found
      · exact fun _ => rfl
    have onward : objectOf attempt = .ok none → firstObject (attempt :: rest) = firstObject rest := by
      intro passed
      rw [firstObject,passed]
      rfl
    constructor
    · intro same
      by_cases passed : objectOf attempt = .ok none
      · rw [onward passed] at same
        obtain ⟨before,r,later,rfl,early,here⟩ := ih.mp same
        exact ⟨attempt :: before,r,later,rfl,List.forall_mem_cons.mpr ⟨passed,early⟩,here⟩
      · rw [stop passed] at same
        exact ⟨[],attempt,rest,rfl,by simp,same⟩
    · rintro ⟨before,r,later,split,early,here⟩
      cases before with
      | nil =>
        obtain ⟨rfl,rfl⟩ := List.cons.inj split
        rw [stop (by rw [here]; exact decides),here]
      | cons head before =>
        obtain ⟨rfl,rfl⟩ := List.cons.inj split
        obtain ⟨passed,early⟩ := List.forall_mem_cons.mp early
        rw [onward passed]
        exact ih.mpr ⟨before,r,later,rfl,early,here⟩

/-- The text is read as an object exactly when the gate returns it. -/
theorem parse_object_ok_iff {interp : Interpreter} {text : String} {obj : Fields} :
    parse_json_object interp text = .ok obj ↔ Finds interp text obj := by
  have found : parse_json_object interp text = .ok obj ↔ firstObject (readings interp text) = .ok (some obj) := by
    rw [parse_json_object_eq]
    rcases firstObject (readings interp text) with error | _ | fields <;> simp
  rw [found,firstObject_iff (by simp)]
  simp only [objectOf_some_iff,Finds]
  constructor
  · rintro ⟨before,r,later,split,early,rfl⟩
    exact ⟨before,later,split,early⟩
  · rintro ⟨before,later,split,early⟩
    exact ⟨before,_,later,split,early,rfl⟩

/-- An exception of one of the readings: not the refusal of the gate. -/
def Foreign (error : PyError) : Prop := ∀ message stage candidate, error ≠ .JsonGateError message stage candidate

theorem parse_object_raises_iff {interp : Interpreter} {text : String} :
    (∃ error, parse_json_object interp text = .error error ∧ Foreign error) ↔ Chokes interp text := by
  constructor
  · rintro ⟨error,raised,foreign⟩
    have first : firstObject (readings interp text) = .error error := by
      rw [parse_json_object_eq] at raised
      rcases read : firstObject (readings interp text) with error' | _ | fields
      · rw [read] at raised; cases raised; rfl
      · rw [read] at raised; cases raised; exact absurd rfl (foreign _ _ _)
      · rw [read] at raised; cases raised
    obtain ⟨before,r,later,split,early,here⟩ := (firstObject_iff (by simp)).mp first
    obtain ⟨rfl,other⟩ := objectOf_error_iff.mp here
    exact ⟨before,error,later,split,early,other,foreign⟩
  · rintro ⟨before,error,later,split,early,other,foreign⟩
    have first : firstObject (readings interp text) = .error error :=
      (firstObject_iff (by simp)).mpr ⟨before,_,later,split,early,objectOf_error_iff.mpr ⟨rfl,other⟩⟩
    exact ⟨error,by rw [parse_json_object_eq,first],foreign⟩

/-! ### Decisions of an object -/

/-- A value that is false or can be iterated. -/
def Sequence (v : PyVal) : Prop := v.truthy = true → v.iter.isOk

/-- The items of a list field; none when the field is absent. -/
def rowsOf (obj : Fields) (key : String) : List PyVal :=
  match obj.get key with
  | .list items => items
  | _ => []

/-- The field is absent or a list. -/
def Listed (obj : Fields) (key : String) : Prop := obj.get key = .null ∨ ∃ items, obj.get key = .list items

/-- A call that names an agent, an objective and a kind of target. -/
def NamedCall (c : Fields) : Prop := strip (Fields.textOf c "agent_id") ≠ "" ∧ strip (Fields.textOf c "objective") ≠ "" ∧
  (TargetKind.ofValue (Fields.getD c "target_kind" (.str "agent")).text).isSome

def ValidCall (v : PyVal) : Prop := ∃ c, v = .dict c ∧ NamedCall c ∧ Sequence (Fields.get c "allowed_capabilities")

/-- A call that is in order but for a scope that is no sequence. -/
def Unscoped (v : PyVal) : Prop := ∃ c, v = .dict c ∧ NamedCall c ∧ ¬ Sequence (Fields.get c "allowed_capabilities")

def ValidTool (v : PyVal) : Prop := ∃ t, v = .dict t ∧ strip (Fields.textOf t "tool") ≠ "" ∧
  ∃ args, Fields.getD t "args" (.dict []) = .dict args

def ValidCommand (v : PyVal) : Prop := ∃ cmd, v = .dict cmd ∧ strip (Fields.textOf cmd "command_type") ≠ ""

/-- An object that describes a decision. -/
structure WellFormed (obj : Fields) : Prop where
  decision : (Decision.ofValue (obj.textOf "decision")).isSome
  calls : Listed obj "next_agent_calls" ∧ ∀ v ∈ rowsOf obj "next_agent_calls", ValidCall v
  tools : Listed obj "tool_requests" ∧ ∀ v ∈ rowsOf obj "tool_requests", ValidTool v
  acceptance : Listed obj "acceptance_status"
  commands : Listed obj "commands" ∧ ∀ v ∈ rowsOf obj "commands", ValidCommand v

/-- A call with a scope that is no sequence comes before any call that is refused. -/
def Miscalled : List PyVal → Prop
  | [] => False
  | v :: rest => Unscoped v ∨ ValidCall v ∧ Miscalled rest

/-- Before anything else is wrong with the object, it gives a call a scope that is no sequence. -/
def Miscalls (obj : Fields) : Prop := (Decision.ofValue (obj.textOf "decision")).isSome ∧
  Listed obj "next_agent_calls" ∧ Miscalled (rowsOf obj "next_agent_calls")

theorem require_list_eq (obj : Fields) (key : String) :
    (Listed obj key ∧ require_list obj key = .ok (rowsOf obj key)) ∨
      (¬ Listed obj key ∧ ∃ message, require_list obj key = .error (schemaError message)) := by
  unfold require_list rowsOf Listed
  split
  · next absent => exact .inl ⟨.inl absent,by rw [absent]⟩
  · next items present => exact .inl ⟨.inr ⟨items,present⟩,by rw [present]⟩
  · next absent present =>
    exact .inr ⟨fun listed => listed.elim absent fun ⟨items,same⟩ => present items same,_,rfl⟩

theorem as_str_tuple_ok {v : PyVal} : (as_str_tuple v).isOk ↔ Sequence v := by
  unfold as_str_tuple Sequence
  rcases v.truthy with _ | _
  · simp [Except.isOk,Except.toBool]
  · rcases v.iter with error | items <;> simp [Except.isOk,Except.toBool,Except.map]

theorem iter_foreign {v : PyVal} {error : PyError} (failed : v.iter = .error error) : Foreign error := by
  cases v <;> cases failed <;> exact nofun

theorem as_str_tuple_foreign {v : PyVal} {error : PyError} (failed : as_str_tuple v = .error error) : Foreign error := by
  unfold as_str_tuple at failed
  split at failed
  · rcases read : v.iter with error' | items
    · rw [read] at failed
      cases failed
      exact iter_foreign read
    · rw [read] at failed
      cases failed
  · cases failed

/-- A named call parses when its scope does. -/
theorem parseCall_named {c : Fields} (named : NamedCall c) : ∃ make : List String → AgentAssignment,
    parseCall (.dict c) = (as_str_tuple (Fields.get c "allowed_capabilities")).map make := by
  obtain ⟨agent,objective,target⟩ := named
  obtain ⟨kind,known⟩ := Option.isSome_iff_exists.mp target
  refine ⟨fun allowed => ⟨strip (Fields.textOf c "agent_id"),strip (Fields.textOf c "objective"),
    Fields.textOf c "scope_of_work",allowed,kind⟩,?_⟩
  simp only [parseCall,if_neg agent,if_neg objective,known]
  rcases as_str_tuple (Fields.get c "allowed_capabilities") with error | texts <;> rfl

theorem parseCall_unnamed {c : Fields} (unnamed : ¬ NamedCall c) :
    ∃ message, parseCall (.dict c) = .error (schemaError message) := by
  simp only [parseCall]
  split
  · exact ⟨_,rfl⟩
  · next agent =>
    split
    · exact ⟨_,rfl⟩
    · next objective =>
      split
      · exact ⟨_,rfl⟩
      · next kind known => exact absurd ⟨agent,objective,by rw [known]; rfl⟩ unnamed

/-- A call parses, or has a scope that is no sequence, or is refused. -/
theorem parseCall_cases (v : PyVal) : (ValidCall v ∧ ∃ call, parseCall v = .ok call) ∨
    (Unscoped v ∧ ∃ error, parseCall v = .error error ∧ Foreign error) ∨
    (¬ ValidCall v ∧ ¬ Unscoped v ∧ ∃ message, parseCall v = .error (schemaError message)) := by
  have other : (∀ c, v ≠ .dict c) → ¬ ValidCall v ∧ ¬ Unscoped v ∧ ∃ message, parseCall v = .error (schemaError message) := by
    intro noDict
    refine ⟨fun ⟨c,same,_⟩ => noDict c same,fun ⟨c,same,_⟩ => noDict c same,?_⟩
    cases v <;> first | exact absurd rfl (noDict _) | exact ⟨_,rfl⟩
  by_cases isDict : ∃ c, v = .dict c
  · obtain ⟨c,rfl⟩ := isDict
    by_cases named : NamedCall c
    · obtain ⟨make,parsed⟩ := parseCall_named named
      rcases scope : as_str_tuple (Fields.get c "allowed_capabilities") with error | texts
      · refine .inr (.inl ⟨⟨c,rfl,named,fun sequence => ?_⟩,error,by rw [parsed,scope]; rfl,as_str_tuple_foreign scope⟩)
        have ok := as_str_tuple_ok.mpr sequence
        rw [scope] at ok
        cases ok
      · exact .inl ⟨⟨c,rfl,named,as_str_tuple_ok.mp (by rw [scope]; rfl)⟩,_,by rw [parsed,scope]; rfl⟩
    · refine .inr (.inr ⟨?_,?_,parseCall_unnamed named⟩)
      · rintro ⟨c',same,named',-⟩
        cases same
        exact named named'
      · rintro ⟨c',same,named',-⟩
        cases same
        exact named named'
  · exact .inr (.inr (other fun c same => isDict ⟨c,same⟩))

theorem parseTool_cases (v : PyVal) : (ValidTool v ∧ ∃ tool, parseTool v = .ok tool) ∨
    (¬ ValidTool v ∧ ∃ message, parseTool v = .error (schemaError message)) := by
  unfold parseTool
  split
  · next t =>
    split
    · next blank => exact .inr ⟨fun ⟨t',same,named,_⟩ => by cases same; exact named blank,_,rfl⟩
    · next named =>
      split
      · next args isDict => exact .inl ⟨⟨t,rfl,named,args,isDict⟩,_,rfl⟩
      · next noDict => exact .inr ⟨fun ⟨t',same,_,args,isDict⟩ => by cases same; exact noDict args isDict,_,rfl⟩
  · next noDict => exact .inr ⟨fun ⟨t,same,_⟩ => noDict t same,_,rfl⟩

theorem parseCommand_cases (v : PyVal) : (ValidCommand v ∧ ∃ cmd, parseCommand v = .ok cmd) ∨
    (¬ ValidCommand v ∧ ∃ message, parseCommand v = .error (schemaError message)) := by
  unfold parseCommand
  split
  · next cmd =>
    split
    · next blank => exact .inr ⟨fun ⟨cmd',same,named⟩ => by cases same; exact named blank,_,rfl⟩
    · next named => exact .inl ⟨⟨cmd,rfl,named⟩,_,rfl⟩
  · next noDict => exact .inr ⟨fun ⟨cmd,same,_⟩ => noDict cmd same,_,rfl⟩

theorem parseCommand_back (v : PyVal) (cmd : Fields) (parsed : parseCommand v = .ok cmd) : v = .dict cmd := by
  unfold parseCommand at parsed
  split at parsed
  · split at parsed
    · cases parsed
    · cases parsed; rfl
  · cases parsed

/-- A list parses when every item does, else it is refused. -/
theorem rows_cases {α : Type} {f : PyVal → Except PyError α} {Valid : PyVal → Prop}
    (cases : ∀ v, (Valid v ∧ ∃ y, f v = .ok y) ∨ (¬ Valid v ∧ ∃ message, f v = .error (schemaError message)))
    (rows : List PyVal) : ((∀ v ∈ rows, Valid v) ∧ ∃ ys, rows.mapM f = .ok ys) ∨
      ((¬ ∀ v ∈ rows, Valid v) ∧ ∃ message, rows.mapM f = .error (schemaError message)) := by
  induction rows with
  | nil => exact .inl ⟨by simp,[],rfl⟩
  | cons v rest ih =>
    rw [List.mapM_cons,List.forall_mem_cons]
    rcases cases v with ⟨valid,y,parsed⟩ | ⟨invalid,message,refused⟩
    · rw [parsed]
      rcases ih with ⟨others,ys,more⟩ | ⟨others,message,refused⟩
      · exact .inl ⟨⟨valid,others⟩,y :: ys,by rw [more]; rfl⟩
      · exact .inr ⟨fun all => others all.2,message,by rw [refused]; rfl⟩
    · exact .inr ⟨fun all => invalid all.1,message,by rw [refused]; rfl⟩

theorem valid_not_unscoped {v : PyVal} (valid : ValidCall v) : ¬ Unscoped v := by
  rintro ⟨c,rfl,-,unsequenced⟩
  obtain ⟨c',same,-,sequence⟩ := valid
  cases same
  exact unsequenced sequence

theorem valid_not_miscalled {rows : List PyVal} (valid : ∀ v ∈ rows, ValidCall v) : ¬ Miscalled rows := by
  induction rows with
  | nil => exact nofun
  | cons v rest ih =>
    obtain ⟨here,others⟩ := List.forall_mem_cons.mp valid
    rintro (unscoped | ⟨-,later⟩)
    · exact valid_not_unscoped here unscoped
    · exact ih others later

theorem calls_cases (rows : List PyVal) : ((∀ v ∈ rows, ValidCall v) ∧ ∃ calls, rows.mapM parseCall = .ok calls) ∨
    (Miscalled rows ∧ ∃ error, rows.mapM parseCall = .error error ∧ Foreign error) ∨
    ((¬ ∀ v ∈ rows, ValidCall v) ∧ ¬ Miscalled rows ∧ ∃ message, rows.mapM parseCall = .error (schemaError message)) := by
  induction rows with
  | nil => exact .inl ⟨by simp,[],rfl⟩
  | cons v rest ih =>
    rw [List.mapM_cons,List.forall_mem_cons]
    rcases parseCall_cases v with ⟨valid,call,parsed⟩ | ⟨unscoped,error,raised,foreign⟩ |
        ⟨invalid,notUnscoped,message,refused⟩
    · rw [parsed]
      rcases ih with ⟨others,calls,more⟩ | ⟨others,error,raised,foreign⟩ | ⟨others,called,message,refused⟩
      · exact .inl ⟨⟨valid,others⟩,call :: calls,by rw [more]; rfl⟩
      · exact .inr (.inl ⟨.inr ⟨valid,others⟩,error,by rw [raised]; rfl,foreign⟩)
      · refine .inr (.inr ⟨fun all => others all.2,?_,message,by rw [refused]; rfl⟩)
        rintro (unscoped | ⟨-,later⟩)
        · exact valid_not_unscoped valid unscoped
        · exact called later
    · exact .inr (.inl ⟨.inl unscoped,error,by rw [raised]; rfl,foreign⟩)
    · refine .inr (.inr ⟨fun all => invalid all.1,?_,message,by rw [refused]; rfl⟩)
      rintro (unscoped | ⟨valid,-⟩)
      · exact notUnscoped unscoped
      · exact invalid valid

/-- What a decision keeps of the object that describes it. -/
structure Describes (obj : Fields) (decision : OrchestratorDecision) : Prop where
  commands : rowsOf obj "commands" = decision.commands.map .dict
  acceptance : decision.acceptance_status = (rowsOf obj "acceptance_status").filterMap dictOf

/-- An object describes a decision, or it makes the parser raise, or it is refused. -/
theorem decisionOf_cases (obj : Fields) :
    (WellFormed obj ∧ ∃ decision, decisionOf obj = .ok decision ∧ Describes obj decision) ∨
    (Miscalls obj ∧ ∃ error, decisionOf obj = .error error ∧ Foreign error) ∨
    (¬ WellFormed obj ∧ ¬ Miscalls obj ∧ ∃ message, decisionOf obj = .error (schemaError message)) := by
  simp only [decisionOf]
  rcases named : Decision.ofValue (obj.textOf "decision") with _ | decision
  · refine .inr (.inr ⟨fun formed => ?_,fun miscalls => ?_,_,rfl⟩)
    · have known := formed.decision
      rw [named] at known
      cases known
    · have known := miscalls.1
      rw [named] at known
      cases known
  have known : (Decision.ofValue (obj.textOf "decision")).isSome := by rw [named]; rfl
  simp only [bind,Except.bind]
  rcases require_list_eq obj "next_agent_calls" with ⟨callsListed,rows⟩ | ⟨unlisted,message,refused⟩
  · rw [rows]
    rcases calls_cases (rowsOf obj "next_agent_calls") with ⟨calls,_,parsed⟩ | ⟨called,error,raised,foreign⟩ |
        ⟨invalid,notCalled,message,refused⟩
    · simp only [parsed]
      have notMiscalls : ¬ Miscalls obj := fun miscalls => valid_not_miscalled calls miscalls.2.2
      rcases require_list_eq obj "tool_requests" with ⟨toolsListed,rows⟩ | ⟨unlisted,message,refused⟩
      · rw [rows]
        rcases rows_cases parseTool_cases (rowsOf obj "tool_requests") with ⟨tools,_,parsed⟩ | ⟨invalid,message,refused⟩
        · simp only [parsed]
          rcases require_list_eq obj "acceptance_status" with ⟨acceptance,rows⟩ | ⟨unlisted,message,refused⟩
          · rw [rows]
            rcases require_list_eq obj "commands" with ⟨commandsListed,rows⟩ | ⟨unlisted,message,refused⟩
            · rw [rows]
              rcases rows_cases parseCommand_cases (rowsOf obj "commands") with
                ⟨commands,parsed,read⟩ | ⟨invalid,message,refused⟩
              · refine .inl ⟨⟨known,⟨callsListed,calls⟩,⟨toolsListed,tools⟩,acceptance,⟨commandsListed,commands⟩⟩,_,
                  by simp only [read]; rfl,⟨mapM_ok_map parseCommand_back read,rfl⟩⟩
              · exact .inr (.inr ⟨fun formed => invalid formed.commands.2,notMiscalls,message,by simp only [refused]⟩)
            · rw [refused]
              exact .inr (.inr ⟨fun formed => unlisted formed.commands.1,notMiscalls,message,rfl⟩)
          · rw [refused]
            exact .inr (.inr ⟨fun formed => unlisted formed.acceptance,notMiscalls,message,rfl⟩)
        · exact .inr (.inr ⟨fun formed => invalid formed.tools.2,notMiscalls,message,by simp only [refused]⟩)
      · rw [refused]
        exact .inr (.inr ⟨fun formed => unlisted formed.tools.1,notMiscalls,message,rfl⟩)
    · exact .inr (.inl ⟨⟨known,callsListed,called⟩,error,by simp only [raised],foreign⟩)
    · exact .inr (.inr ⟨fun formed => invalid formed.calls.2,fun miscalls => notCalled miscalls.2.2,message,
        by simp only [refused]⟩)
  · rw [refused]
    exact .inr (.inr ⟨fun formed => unlisted formed.calls.1,fun miscalls => unlisted miscalls.2.1,message,rfl⟩)

/-! ### Decisions that can be kept -/

/-- The payload of a command is absent or an object. -/
def Payloaded (cmd : Fields) : Prop := ∃ payload, cmd.getD "payload" (.dict []) = .dict payload

/-- A row for a check of the state has a sequence of evidence. -/
def Cited (s : TaskLoopState) (row : Fields) : Prop :=
  (s.acceptance_by_id (row.textOf "id")).isSome → Sequence (row.get "evidence_ids")

theorem commandMark_ok {cmd : Fields} : (commandMark cmd).isOk ↔ Payloaded cmd := by
  unfold commandMark Payloaded
  rcases cmd.getD "payload" (.dict []) <;> simp [Except.isOk,Except.toBool]

theorem signature_ok {decision : OrchestratorDecision} :
    (∃ signature, decision_signature decision = .ok signature) ↔ ∀ cmd ∈ decision.commands, Payloaded cmd := by
  have marks : (decision.commands.mapM commandMark).isOk ↔ ∀ cmd ∈ decision.commands, Payloaded cmd :=
    mapM_isOk_iff.trans (forall₂_congr fun cmd _ => commandMark_ok)
  rw [← marks]
  unfold decision_signature
  rcases decision.commands.mapM commandMark with error | texts
  · simp [bind,Except.bind,Except.isOk,Except.toBool]
  · simp [bind,Except.bind,Except.isOk,Except.toBool]

/-- A command with a payload never makes the queue raise. -/
theorem enqueueOne_payloaded (stamp : Commands.Stamp) (session_id : String) (queue : Queue) {cmd : Fields}
    (payloaded : Payloaded cmd) : ∃ queue', enqueueOne stamp session_id queue cmd = .ok queue' := by
  obtain ⟨payload,read⟩ := payloaded
  have dict : ((cmd.get "payload").orElse (.dict [])).toDict.isOk := by
    unfold Fields.get Fields.getD at *
    rcases there : Dicts.get "payload" cmd with _ | v
    · rfl
    · rw [there] at read
      cases read
      rw [Option.getD_some,toDict_orElse_dict]
      rfl
  unfold enqueueOne
  rcases translated : to_runtime_command stamp cmd session_id with error | command
  · rcases to_runtime_command_fails translated with ⟨message,rfl⟩ | ⟨-,failed⟩
    · exact ⟨queue,rfl⟩
    · rw [failed] at dict
      cases dict
  · simp only
    split
    · exact ⟨_,rfl⟩
    · exact ⟨_,rfl⟩

section
variable {ctx : SupervisorContext} {w : World}

theorem enqueue_returns {decision : OrchestratorDecision} (payloaded : ∀ cmd ∈ decision.commands, Payloaded cmd) :
    Returns (enqueue_commands ctx decision) w := by
  unfold enqueue_commands
  have queues : ∀ cmd ∈ decision.commands, ∀ (queue : Queue) v, Returns (do
      let stamp ← drawStamp ctx
      lift (enqueueOne stamp w.board.session_id queue cmd)) v := by
    intro cmd member queue v
    obtain ⟨queue',queued⟩ :=
      enqueueOne_payloaded (ctx.env.command_stamp v.draws) w.board.session_id queue (payloaded cmd member)
    exact returns_bind_iff.mpr ⟨_,{ v with draws := v.draws + 1 },rfl,queue',_,by rw [queued]; rfl⟩
  refine returns_bind_iff.mpr ⟨w.board,w,rfl,returns_bind_iff.mpr ?_⟩
  obtain ⟨queue,v,ran⟩ := returns_fold queues
    ⟨queued_keys w.board.pending_commands ++ w.board.applied_command_keys,w.board.pending_commands,0⟩ w
  exact ⟨queue,v,ran,_,_,rfl⟩

theorem evidenceOf_ok {row : Fields} : (∃ evidence, evidenceOf row = .ok evidence) ↔ Sequence (row.get "evidence_ids") := by
  unfold evidenceOf Sequence PyVal.orElse
  by_cases given : (row.get "evidence_ids").truthy = true
  · rw [if_pos given]
    rcases (row.get "evidence_ids").iter with error | items <;> simp [Except.map,Except.isOk,Except.toBool,given]
  · rw [if_neg given]
    exact ⟨fun _ truthy => absurd truthy given,fun _ => ⟨[],rfl⟩⟩

theorem judge_row_returns {s : TaskLoopState} {row : Fields} : (∃ t, judge_row s row = .ok t) ↔ Cited s row := by
  unfold judge_row Cited
  rw [← evidenceOf_ok]
  simp only
  rcases named : s.acceptance_by_id (row.textOf "id") with _ | check
  · simp
  · rcases evidenceOf row with error | evidence
    · simp [bind,Except.bind]
    · simp [bind,Except.bind]

theorem setCheck_ids (id : String) (s : TaskLoopState) (claimed : String) (evidence : List String)
    (checks : List AcceptanceCheck) : (setCheck id (judged s claimed evidence) checks).map AcceptanceCheck.id =
      checks.map AcceptanceCheck.id := by
  induction checks with
  | nil => rfl
  | cons check rest ih =>
    rw [setCheck]
    split
    · rw [List.map_cons,List.map_cons]
      congr 1
      unfold judged
      split
      · rfl
      · split <;> rfl
    · rw [List.map_cons,List.map_cons,ih]

/-- The checks of a state, by their ids. -/
def checkIds (s : TaskLoopState) : List String := s.acceptance_checks.map AcceptanceCheck.id

theorem acceptance_by_id_iff {s : TaskLoopState} {id : String} : (s.acceptance_by_id id).isSome ↔ id ∈ checkIds s := by
  unfold TaskLoopState.acceptance_by_id checkIds
  simp

theorem judge_row_ids {s t : TaskLoopState} {row : Fields} (judge : judge_row s row = .ok t) : checkIds t = checkIds s := by
  rcases Moves.judge_row_ok judge with rfl | ⟨id,claimed,evidence,rfl⟩
  · rfl
  · exact setCheck_ids ..

theorem judge_returns_iff {decision : OrchestratorDecision} :
    Returns (judge_acceptance decision) w ↔ ∀ row ∈ decision.acceptance_status, Cited w.board row := by
  unfold judge_acceptance
  have rows : Returns (each (fun row => do
      let state ← currentBoard
      let state ← lift (judge_row state row)
      write fun _ => state) decision.acceptance_status) w ↔ ∀ row ∈ decision.acceptance_status, Cited w.board row := by
    refine returns_fold_iff (I := fun _ v => checkIds v.board = checkIds w.board) ?_ ?_ rfl
    · intro row _ v same
      have cited : Cited w.board row ↔ Cited v.board row := by
        unfold Cited
        rw [acceptance_by_id_iff,acceptance_by_id_iff,same]
      rw [cited,← judge_row_returns]
      refine returns_bind_iff.trans ⟨?_,fun ⟨t,judge⟩ => ⟨v.board,v,rfl,returns_bind_lift_iff.mpr ⟨t,judge,(),_,rfl⟩⟩⟩
      rintro ⟨s,v',ran,rest⟩
      cases ran
      obtain ⟨t,judge,-⟩ := returns_bind_lift_iff.mp rest
      exact ⟨t,judge⟩
    · intro row _ v _ v' same ran
      obtain ⟨s,v₁,boarded,rest⟩ := bind_returned ran
      cases boarded
      obtain ⟨t,v₂,lifted,wrote⟩ := bind_returned rest
      rcases judge : judge_row v.board row with error | t'
      · rw [judge] at lifted
        cases lifted
      · rw [judge] at lifted
        cases lifted
        cases wrote
        exact (judge_row_ids judge).trans same
  rw [← rows,returns_bind_iff]
  exact ⟨fun ⟨a,v,ran,_⟩ => ⟨a,v,ran⟩,fun ⟨a,v,ran⟩ => ⟨a,v,ran,_,_,rfl⟩⟩
/-! ### What a text does to the loop -/

variable (ctx) (w)

/-- The text is refused with `JsonGateError`, or it is a decision that is queued, its
    untranslated commands skipped, signed and judged without raising. -/
structure Digests (text : String) : Prop where
  gated : ∀ error, parse_decision ctx.interp text = .error error →
    ∃ message stage candidate, error = .JsonGateError message stage candidate
  queued : ∀ decision, parse_decision ctx.interp text = .ok decision → Returns (enqueue_commands ctx decision) w
  skipped : ∀ decision, parse_decision ctx.interp text = .ok decision → ∀ cmd ∈ decision.commands,
    ∀ stamp session_id queue error, to_runtime_command stamp cmd session_id = .error error →
      enqueueOne stamp session_id queue cmd = .ok queue
  signed : ∀ decision, parse_decision ctx.interp text = .ok decision → ∃ signature, decision_signature decision = .ok signature
  judged : ∀ decision, parse_decision ctx.interp text = .ok decision → Returns (judge_acceptance decision) w

variable {ctx} {w}

/-- No reading of the text raises an exception of its own, and the object it is read as
    gives no call a scope that is no sequence, no command a payload that is no object and
    no check of the state evidence that is no sequence. -/
structure Digestible (interp : Interpreter) (text : String) (s : TaskLoopState) : Prop where
  reads : ¬ Chokes interp text
  scopes : ∀ obj, Finds interp text obj → ¬ Miscalls obj
  payloads : ∀ obj, Finds interp text obj → WellFormed obj → ∀ cmd, .dict cmd ∈ rowsOf obj "commands" → Payloaded cmd
  evidence : ∀ obj, Finds interp text obj → WellFormed obj → ∀ row, .dict row ∈ rowsOf obj "acceptance_status" → Cited s row

theorem foreign_iff {error : PyError} :
    ¬ Foreign error ↔ ∃ message stage candidate, error = .JsonGateError message stage candidate := by
  unfold Foreign
  push Not
  rfl

theorem parse_decision_found {interp : Interpreter} {text : String} {obj : Fields} (found : Finds interp text obj) :
    parse_decision interp text = decisionOf obj := by
  unfold parse_decision
  rw [parse_object_ok_iff.mpr found]
  rfl

/-- A parsed decision was described by the object that the text is read as. -/
theorem parse_decision_ok {interp : Interpreter} {text : String} {decision : OrchestratorDecision}
    (parsed : parse_decision interp text = .ok decision) :
    ∃ obj, Finds interp text obj ∧ WellFormed obj ∧ Describes obj decision := by
  rcases read : parse_json_object interp text with error | obj
  · rw [parse_decision,read] at parsed
    cases parsed
  · have found := parse_object_ok_iff.mp read
    rw [parse_decision_found found] at parsed
    rcases decisionOf_cases obj with ⟨formed,decision',made,describes⟩ | ⟨-,error,raised,-⟩ | ⟨-,-,message,refused⟩
    · rw [parsed] at made
      cases made
      exact ⟨obj,found,formed,describes⟩
    · rw [parsed] at raised
      cases raised
    · rw [parsed] at refused
      cases refused

theorem dict_mem_rows {rows : List PyVal} {fields : Fields} : fields ∈ rows.filterMap dictOf ↔ .dict fields ∈ rows := by
  rw [List.mem_filterMap]
  constructor
  · rintro ⟨v,member,read⟩
    cases v <;> cases read
    exact member
  · exact fun member => ⟨_,member,rfl⟩

theorem Describes.mem_commands {obj : Fields} {decision : OrchestratorDecision} (describes : Describes obj decision)
    {cmd : Fields} : cmd ∈ decision.commands ↔ .dict cmd ∈ rowsOf obj "commands" := by
  rw [describes.commands]
  simp

theorem Describes.mem_acceptance {obj : Fields} {decision : OrchestratorDecision} (describes : Describes obj decision)
    {row : Fields} : row ∈ decision.acceptance_status ↔ .dict row ∈ rowsOf obj "acceptance_status" := by
  rw [describes.acceptance,dict_mem_rows]

/-- The parser raises anything but `JsonGateError` only for a text that chokes a reader or
    for a call with a scope that is no sequence. -/
theorem parse_raises_iff {interp : Interpreter} {text : String} :
    (∃ error, parse_decision interp text = .error error ∧ Foreign error) ↔
      Chokes interp text ∨ ∃ obj, Finds interp text obj ∧ Miscalls obj := by
  constructor
  · rintro ⟨error,raised,foreign⟩
    rcases read : parse_json_object interp text with error' | obj
    · rw [parse_decision,read] at raised
      cases raised
      exact .inl (parse_object_raises_iff.mp ⟨error,read,foreign⟩)
    · have found := parse_object_ok_iff.mp read
      rw [parse_decision_found found] at raised
      rcases decisionOf_cases obj with ⟨-,decision,made,-⟩ | ⟨miscalls,-⟩ | ⟨-,-,message,refused⟩
      · rw [raised] at made
        cases made
      · exact .inr ⟨obj,found,miscalls⟩
      · rw [raised] at refused
        cases refused
        exact absurd rfl (foreign _ _ _)
  · rintro (chokes | ⟨obj,found,miscalls⟩)
    · obtain ⟨error,raised,foreign⟩ := parse_object_raises_iff.mpr chokes
      exact ⟨error,by rw [parse_decision,raised]; rfl,foreign⟩
    · rcases decisionOf_cases obj with ⟨formed,-⟩ | ⟨-,error,raised,foreign⟩ | ⟨-,notMiscalls,-⟩
      · exact absurd miscalls.2.2 (valid_not_miscalled formed.calls.2)
      · exact ⟨error,by rw [parse_decision_found found,raised],foreign⟩
      · exact absurd miscalls notMiscalls

/-- A text of the orchestrator never makes the loop raise while its decision is parsed and
    kept, exactly when it can be digested. -/
theorem digests_iff (ctx : SupervisorContext) (text : String) (w : World) :
    Digests ctx w text ↔ Digestible ctx.interp text w.board := by
  constructor
  · intro digests
    have parses : ¬ ∃ error, parse_decision ctx.interp text = .error error ∧ Foreign error :=
      fun ⟨error,raised,foreign⟩ => foreign_iff.mpr (digests.gated error raised) foreign
    rw [parse_raises_iff,not_or] at parses
    have made : ∀ obj, Finds ctx.interp text obj → WellFormed obj →
        ∃ decision, parse_decision ctx.interp text = .ok decision ∧ Describes obj decision := by
      intro obj found formed
      rw [parse_decision_found found]
      rcases decisionOf_cases obj with ⟨-,decision⟩ | ⟨miscalls,-⟩ | ⟨notFormed,-⟩
      · exact decision
      · exact absurd ⟨obj,found,miscalls⟩ parses.2
      · exact absurd formed notFormed
    refine ⟨parses.1,fun obj found miscalls => parses.2 ⟨obj,found,miscalls⟩,?_,?_⟩
    · intro obj found formed cmd member
      obtain ⟨decision,parsed,describes⟩ := made obj found formed
      exact signature_ok.mp (digests.signed decision parsed) cmd (describes.mem_commands.mpr member)
    · intro obj found formed row member
      obtain ⟨decision,parsed,describes⟩ := made obj found formed
      exact judge_returns_iff.mp (digests.judged decision parsed) row (describes.mem_acceptance.mpr member)
  · intro digestible
    have payloaded : ∀ decision, parse_decision ctx.interp text = .ok decision → ∀ cmd ∈ decision.commands, Payloaded cmd := by
      intro decision parsed cmd member
      obtain ⟨obj,found,formed,describes⟩ := parse_decision_ok parsed
      exact digestible.payloads obj found formed cmd (describes.mem_commands.mp member)
    refine ⟨fun error raised => ?_,fun decision parsed => enqueue_returns (payloaded decision parsed),?_,
      fun decision parsed => signature_ok.mpr (payloaded decision parsed),fun decision parsed => ?_⟩
    · rw [← foreign_iff]
      intro foreign
      rcases parse_raises_iff.mp ⟨error,raised,foreign⟩ with chokes | ⟨obj,found,miscalls⟩
      · exact digestible.reads chokes
      · exact digestible.scopes obj found miscalls
    · intro decision parsed cmd member stamp session_id queue error untranslated
      obtain ⟨queue',queued⟩ := enqueueOne_payloaded stamp session_id queue (payloaded decision parsed cmd member)
      rcases enqueueOne_ok queued with ⟨rfl,-⟩ | ⟨command,translated,-⟩
      · exact queued
      · rw [untranslated] at translated
        cases translated
    · refine judge_returns_iff.mpr fun row member => ?_
      obtain ⟨obj,found,formed,describes⟩ := parse_decision_ok parsed
      exact digestible.evidence obj found formed row (describes.mem_acceptance.mp member)

/-- A decision that grants a call the scope 5. -/
def numericScope : String :=
  "\x7b\"decision\": \"continue\", \"next_agent_calls\": [\x7b\"agent_id\": \"writer\", " ++
    "\"objective\": \"draft\", \"allowed_capabilities\": 5\x7d]\x7d"

/-- A scope that is a number makes the run raise while the decision is parsed. -/
theorem numeric_scope_raises :
    ¬ Digests (crewContext numericScope) { board := start_state (crewContext numericScope) 1 [] } numericScope ∧
      (run_task_loop (crewContext numericScope) "write" [] 1 3 {} none).1 =
        .error (.raised (.TypeError "'int' object is not iterable")) := by
  have raised : parse_decision plainJson numericScope = .error (.TypeError "'int' object is not iterable") ∧
      (match (run_task_loop (crewContext numericScope) "write" [] 1 3 {} none).1 with
      | .error (.raised (.TypeError message)) => decide (message = "'int' object is not iterable")
      | _ => false) = true := by
    decide +kernel
  obtain ⟨parse,ends⟩ := raised
  refine ⟨fun digests => ?_,?_⟩
  · obtain ⟨message,stage,candidate,same⟩ := digests.gated _ parse
    cases same
  · revert ends
    generalize (run_task_loop (crewContext numericScope) "write" [] 1 3 {} none).1 = ending
    intro ends
    split at ends
    · next message => rw [of_decide_eq_true ends]
    · cases ends

end
end HexAgent.Bookkeeping
