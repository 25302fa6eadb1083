import HexAgent.Json

/-!
The gate every model output passes: one JSON object is parsed from the text, with
fences stripped and common breakage repaired, or `JsonGateError` is raised.
-/
namespace HexAgent.JsonGate
open HexAgent.Values HexAgent.Json

/-- Three grave accents. -/
def fence : List Char := List.replicate 3 (Char.ofNat 96)

/-- A text without a markdown fence around it. -/
def strip_fences (text : List Char) : List Char :=
  let t := stripChars text
  if fence <+: t then
    let t := stripChars ((t.drop 3).dropWhile Char.isAlphanum)
    stripChars (if fence <:+ t then t.take (t.length - 3) else t)
  else t

/-- Commas before a closing bracket dropped, with the white space between them. -/
def dropCommas : Nat → List Char → List Char
  | 0,cs => cs
  | _+1,[] => []
  | fuel+1,c :: rest =>
    if c = ',' then
      match rest.dropWhile isSpace with
      | [] => c :: dropCommas fuel rest
      | bracket :: after =>
        if bracket = '\x7d' ∨ bracket = ']' then bracket :: dropCommas fuel after else c :: dropCommas fuel rest
    else c :: dropCommas fuel rest

/-- The brackets open outside of strings at the end of a text, innermost first. -/
def openBrackets : List Char → List Char → Bool → Bool → List Char
  | [],stack,_,_ => stack
  | ch :: rest,stack,inString,escaped =>
    if escaped then openBrackets rest stack inString false
    else if ch = '\\' then openBrackets rest stack inString true
    else if ch = '\"' then openBrackets rest stack (!inString) false
    else if inString then openBrackets rest stack inString false
    else if ch = '\x7b' ∨ ch = '[' then openBrackets rest (ch :: stack) inString false
    else if ch = '\x7d' ∧ stack.head? = some '\x7b' then openBrackets rest stack.tail inString false
    else if ch = ']' ∧ stack.head? = some '[' then openBrackets rest stack.tail inString false
    else openBrackets rest stack inString false

def closing (ch : Char) : Char := if ch = '\x7b' then '\x7d' else ']'

/-- Trailing commas dropped and open brackets closed. -/
def repair (candidate : List Char) : List Char :=
  let fixed := dropCommas (candidate.length + 1) candidate
  fixed ++ (openBrackets fixed [] false false).map closing

/-- The object of an attempt to read one: none when the text is no JSON or its
    value is no object; exceptions other than `JSONDecodeError` pass. -/
def objectOf : Except PyError PyVal → Except PyError (Option Fields)
  | .ok (.dict fields) => .ok (some fields)
  | .ok _ => .ok none
  | .error (.JSONDecodeError _) => .ok none
  | .error error => .error error

/-- The first object found, trying the attempts in order. -/
def firstObject : List (Except PyError PyVal) → Except PyError (Option Fields)
  | [] => .ok none
  | attempt :: rest => do
    match ← objectOf attempt with
    | some fields => .ok (some fields)
    | none => firstObject rest

def load_object (interp : Interpreter) (text : List Char) : Except PyError (Option Fields) :=
  firstObject [loads interp text,loads interp (repair text)]

/-- The first object that begins at some opening brace of the text. -/
def braceScan (interp : Interpreter) : List Char → Except PyError (Option Fields)
  | [] => .ok none
  | c :: rest =>
    if c = '\x7b' then do
      match ← firstObject [(raw_decode interp (c :: rest)).map Prod.fst,
          (raw_decode interp (repair (c :: rest))).map Prod.fst] with
      | some fields => .ok (some fields)
      | none => braceScan interp rest
    else braceScan interp rest

/-- One JSON object parsed from model output. -/
def parse_json_object (interp : Interpreter) (text : String) : Except PyError Fields := do
  let raw := strip_fences text.toList
  match ← load_object interp raw with
  | some fields => .ok fields
  | none =>
    match ← braceScan interp raw with
    | some fields => .ok fields
    | none => .error (.JsonGateError "Could not parse a JSON object from model output." "parse"
        (String.ofList (raw.take 200)))

/-- One JSON object with an action. -/
def parse_action (interp : Interpreter) (text : String) : Except PyError Fields := do
  let obj ← parse_json_object interp text
  if (Dicts.get "action" obj).isSome then .ok obj
  else .error (.JsonGateError "Missing required 'action' field." "schema"
    (String.ofList ((PyVal.dict obj).text.toList.take 200)))

/-- What the model is told after an output that is no action. -/
def build_retry_message (stage : String) : String :=
  "Your previous output was not a valid action object (stage=" ++ stage ++
    "). Return exactly ONE JSON object with an 'action' field and no markdown fences or prose."

example : parse_json_object { recursion_limit := 100, float := fun s => ⟨s,true,none⟩ } "\x60\x60\x60json\n\x7b\"a\": [1, 2,]\n\x60\x60\x60" =
    .ok [("a",.list [.int 1,.int 2])] := by
  decide +kernel

end HexAgent.JsonGate
