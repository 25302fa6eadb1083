import HexAgent.Values

/-!
Python's JSON reader. `loads` reads a whole text, `raw_decode` the value at its
beginning. Apart from `JSONDecodeError` the reader raises `ValueError` for an
integer of more than 4300 digits and `RecursionError` for a nesting deeper than
the interpreter allows.
-/
namespace HexAgent.Json
open HexAgent.Values

/-- What is left to the interpreter: how deep the reader may recurse, how it reads the
    literal of a float, and `str` of an exception. -/
structure Interpreter where
  recursion_limit : Nat
  float : String → PyFloat
  describe : Describe := fun exc => .ok exc.message

def decodeError (message : String) : PyError := .JSONDecodeError message

def jsonSpace (c : Char) : Bool := c = ' ' || c = '\t' || c = '\n' || c = '\r'
/-- White space between the tokens of JSON dropped. -/
def skipSpace (cs : List Char) : List Char := cs.dropWhile jsonSpace

def hexValue (c : Char) : Option Nat :=
  if '0' ≤ c ∧ c ≤ '9' then some (c.toNat - 48)
  else if 'a' ≤ c ∧ c ≤ 'f' then some (c.toNat - 87)
  else if 'A' ≤ c ∧ c ≤ 'F' then some (c.toNat - 55)
  else none

/-- The code of four hexadecimal digits. -/
def hexCode : List Char → Option (Nat × List Char)
  | a :: b :: c :: d :: rest => do
    let a ← hexValue a
    let b ← hexValue b
    let c ← hexValue c
    let d ← hexValue d
    some (((a * 16 + b) * 16 + c) * 16 + d,rest)
  | _ => none

/-- The character of a `\u` escape. Two surrogates join; a lone surrogate, which
    is no character, becomes the replacement character. -/
def unicodeEscape (cs : List Char) : Option (Char × List Char) := do
  let (code,rest) ← hexCode cs
  if 0xd800 ≤ code ∧ code ≤ 0xdbff then
    match rest with
    | '\\' :: 'u' :: more =>
      match hexCode more with
      | some (low,rest') =>
        if 0xdc00 ≤ low ∧ low ≤ 0xdfff then
          some (Char.ofNat (0x10000 + (code - 0xd800) * 0x400 + (low - 0xdc00)),rest')
        else some (Char.ofNat 0xfffd,rest)
      | none => some (Char.ofNat 0xfffd,rest)
    | _ => some (Char.ofNat 0xfffd,rest)
  else if 0xdc00 ≤ code ∧ code ≤ 0xdfff then some (Char.ofNat 0xfffd,rest)
  else some (Char.ofNat code,rest)

/-- The character after a backslash. -/
def escape : List Char → Option (Char × List Char)
  | '\"' :: rest => some ('\"',rest)
  | '\\' :: rest => some ('\\',rest)
  | '/' :: rest => some ('/',rest)
  | 'b' :: rest => some (Char.ofNat 8,rest)
  | 'f' :: rest => some (Char.ofNat 12,rest)
  | 'n' :: rest => some ('\n',rest)
  | 'r' :: rest => some ('\r',rest)
  | 't' :: rest => some ('\t',rest)
  | 'u' :: rest => unicodeEscape rest
  | _ => none

/-- A string literal after its opening quote; `done` holds the characters read,
    last one first. Control characters are not allowed. -/
def scanString : Nat → List Char → List Char → Except PyError (String × List Char)
  | 0,_,_ => .error (decodeError "Unterminated string starting at")
  | _+1,[],_ => .error (decodeError "Unterminated string starting at")
  | fuel+1,c :: rest,done =>
    if c = '\"' then .ok (String.ofList done.reverse,rest)
    else if c = '\\' then
      match escape rest with
      | some (e,rest') => scanString fuel rest' (e :: done)
      | none => .error (decodeError "Invalid \\escape")
    else if c.toNat < 32 then .error (decodeError "Invalid control character at")
    else scanString fuel rest (c :: done)

/-- The integer part of a number literal, with its sign. -/
def scanInteger (cs : List Char) : Option (List Char × List Char) :=
  let (sign,body) := match cs with
    | '-' :: rest => (['-'],rest)
    | _ => ([],cs)
  match body with
  | '0' :: rest => some (sign ++ ['0'],rest)
  | c :: _ => if c.isDigit then some (sign ++ body.takeWhile Char.isDigit,body.dropWhile Char.isDigit) else none
  | [] => none

/-- The fraction of a number literal, if there is one. -/
def scanFraction : List Char → List Char × List Char
  | '.' :: d :: rest =>
    if d.isDigit then ('.' :: (d :: rest).takeWhile Char.isDigit,(d :: rest).dropWhile Char.isDigit)
    else ([],'.' :: d :: rest)
  | cs => ([],cs)

/-- The exponent of a number literal, if there is one. -/
def scanExponent (cs : List Char) : List Char × List Char :=
  match cs with
  | [] => ([],cs)
  | e :: body =>
    if e = 'e' ∨ e = 'E' then
      let (sign,digits) := match body with
        | '-' :: more => (['-'],more)
        | '+' :: more => (['+'],more)
        | _ => ([],body)
      match digits with
      | d :: _ =>
        if d.isDigit then (e :: sign ++ digits.takeWhile Char.isDigit,digits.dropWhile Char.isDigit) else ([],cs)
      | [] => ([],cs)
    else ([],cs)

/-- The integer that a literal of digits stands for. -/
def literalInt : List Char → Int
  | '-' :: digits => -(Nat.ofDigitChars 10 digits 0 : Int)
  | digits => Nat.ofDigitChars 10 digits 0

/-- A number: an integer, or a float when it has a fraction or an exponent. -/
def scanNumber (interp : Interpreter) (cs : List Char) : Option (Except PyError (PyVal × List Char)) := do
  let (whole,rest) ← scanInteger cs
  let (fraction,rest) := scanFraction rest
  let (power,rest) := scanExponent rest
  if fraction = [] ∧ power = [] then
    if (whole.filter Char.isDigit).length > maxIntDigits then
      some (.error digitsError)
    else some (.ok (.int (literalInt whole),rest))
  else some (.ok (.float (interp.float (String.ofList (whole ++ fraction ++ power))),rest))

section
variable (scan : List Char → Except PyError (PyVal × List Char))

/-- The items of an array, from its next value on; `done` holds the values read,
    last one first. -/
def scanItems : Nat → List Char → List PyVal → Except PyError (PyVal × List Char)
  | 0,_,_ => .error (decodeError "Expecting value")
  | fuel+1,cs,done => do
    let (value,rest) ← scan cs
    match skipSpace rest with
    | ']' :: rest => .ok (.list (value :: done).reverse,rest)
    | ',' :: rest => scanItems fuel (skipSpace rest) (value :: done)
    | _ => .error (decodeError "Expecting ',' delimiter")

/-- The members of an object, from its next name on. A repeated name keeps its
    place and takes the later value. -/
def scanMembers : Nat → List Char → Fields → Except PyError (PyVal × List Char)
  | 0,_,_ => .error (decodeError "Expecting property name enclosed in double quotes")
  | fuel+1,'\"' :: cs,done => do
    let (name,rest) ← scanString (cs.length + 1) cs []
    match skipSpace rest with
    | ':' :: rest =>
      let (value,rest) ← scan (skipSpace rest)
      match skipSpace rest with
      | '\x7d' :: rest => .ok (.dict (Dicts.put name value done),rest)
      | ',' :: rest => scanMembers fuel (skipSpace rest) (Dicts.put name value done)
      | _ => .error (decodeError "Expecting ',' delimiter")
    | _ => .error (decodeError "Expecting ':' delimiter")
  | _+1,_,_ => .error (decodeError "Expecting property name enclosed in double quotes")

def scanArray (cs : List Char) : Except PyError (PyVal × List Char) :=
  match skipSpace cs with
  | ']' :: rest => .ok (.list [],rest)
  | items => scanItems scan (items.length + 1) items []

def scanObject (cs : List Char) : Except PyError (PyVal × List Char) :=
  match skipSpace cs with
  | '\x7d' :: rest => .ok (.dict [],rest)
  | members => scanMembers scan (members.length + 1) members []

end

/-- The value that begins with a bare word, if one does. -/
def scanWord (interp : Interpreter) : List Char → Option (PyVal × List Char)
  | 'n' :: 'u' :: 'l' :: 'l' :: rest => some (.null,rest)
  | 't' :: 'r' :: 'u' :: 'e' :: rest => some (.bool true,rest)
  | 'f' :: 'a' :: 'l' :: 's' :: 'e' :: rest => some (.bool false,rest)
  | 'N' :: 'a' :: 'N' :: rest => some (.float (interp.float "NaN"),rest)
  | 'I' :: 'n' :: 'f' :: 'i' :: 'n' :: 'i' :: 't' :: 'y' :: rest => some (.float (interp.float "Infinity"),rest)
  | '-' :: 'I' :: 'n' :: 'f' :: 'i' :: 'n' :: 'i' :: 't' :: 'y' :: rest =>
    some (.float (interp.float "-Infinity"),rest)
  | _ => none

def tooDeep : PyError := .RecursionError "maximum recursion depth exceeded"

/-- The value at the beginning of a text, with the levels of nesting left. -/
def scanOnce (interp : Interpreter) (depth : Nat) (cs : List Char) : Except PyError (PyVal × List Char) :=
  match cs with
  | '\"' :: rest => do
    let (s,rest) ← scanString (rest.length + 1) rest []
    .ok (.str s,rest)
  | '\x7b' :: rest =>
    match depth with
    | 0 => .error tooDeep
    | depth+1 => scanObject (scanOnce interp depth) rest
  | '[' :: rest =>
    match depth with
    | 0 => .error tooDeep
    | depth+1 => scanArray (scanOnce interp depth) rest
  | _ =>
    match scanWord interp cs with
    | some found => .ok found
    | none => (scanNumber interp cs).getD (.error (decodeError "Expecting value"))

/-- `JSONDecoder.raw_decode`: the value at the beginning of a text. -/
def raw_decode (interp : Interpreter) (text : List Char) : Except PyError (PyVal × List Char) :=
  scanOnce interp interp.recursion_limit text

/-- `json.loads`: the value of a whole text. -/
def loads (interp : Interpreter) (text : List Char) : Except PyError PyVal :=
  if text.head? = some (Char.ofNat 0xfeff) then
    .error (decodeError "Unexpected UTF-8 BOM (decode using utf-8-sig)")
  else do
    let (value,rest) ← raw_decode interp (skipSpace text)
    if skipSpace rest = [] then .ok value else .error (decodeError "Extra data")

mutual
/-- What a value becomes when `json.dumps` writes it and `json.loads` reads it
    back, faithfully: a tuple becomes a list, and an instance of another class is
    not serializable. An integer is kept; what `writeJson` writes of one that is
    too long is an exception. -/
def throughJson : PyVal → Except PyError PyVal
  | .list items => (throughItems items).map .list
  | .tuple items => (throughItems items).map .list
  | .dict fields => (throughFields fields).map .dict
  | .object o => .error (.TypeError ("Object of type " ++ o.cls ++ " is not JSON serializable"))
  | v => .ok v
def throughItems : List PyVal → Except PyError (List PyVal)
  | [] => .ok []
  | item :: rest => do
    let item ← throughJson item
    let rest ← throughItems rest
    .ok (item :: rest)
def throughFields : List (String × PyVal) → Except PyError Fields
  | [] => .ok []
  | (k,v) :: rest => do
    let v ← throughJson v
    let rest ← throughFields rest
    .ok ((k,v) :: rest)
end

/-! ### Writing -/

/-- One character of a JSON string literal, without `ensure_ascii`. -/
def dumpChar (c : Char) : List Char :=
  if c = '\"' ∨ c = '\\' then ['\\',c]
  else if c = '\n' then ['\\','n']
  else if c = '\r' then ['\\','r']
  else if c = '\t' then ['\\','t']
  else if c.toNat = 12 then ['\\','f']
  else if c.toNat = 8 then ['\\','b']
  else if c.toNat < 32 then ['\\','u','0','0',hexDigit (c.toNat / 16),hexDigit (c.toNat % 16)]
  else [c]

def dumpText (s : String) : String := String.ofList ('\"' :: (s.toList.flatMap dumpChar ++ ['\"']))

def dumpFloat (x : PyFloat) : String :=
  if x.text = "nan" then "NaN"
  else if x.text = "inf" then "Infinity"
  else if x.text = "-inf" then "-Infinity"
  else x.text

mutual
/-- `json.dumps(value, sort_keys=True, ensure_ascii=False)` as the canonical text of a value that the reader
    gave, whose integers are none too long to be written. -/
def dumps : PyVal → Except PyError String
  | .null => .ok "null"
  | .bool b => .ok (if b then "true" else "false")
  | .int i => .ok (toString i)
  | .float x => .ok (dumpFloat x)
  | .str s => .ok (dumpText s)
  | .list items => (dumpItems items).map fun texts => "[" ++ join ", " texts ++ "]"
  | .tuple items => (dumpItems items).map fun texts => "[" ++ join ", " texts ++ "]"
  | .dict fields => (dumpFields fields).map fun members =>
    "\x7b" ++ join ", " ((members.insertionSort fun a b => a.1 ≤ b.1).map fun member =>
      dumpText member.1 ++ ": " ++ member.2) ++ "\x7d"
  | .object o => .error (.TypeError ("Object of type " ++ o.cls ++ " is not JSON serializable"))
def dumpItems : List PyVal → Except PyError (List String)
  | [] => .ok []
  | item :: rest => do
    let text ← dumps item
    let texts ← dumpItems rest
    .ok (text :: texts)
def dumpFields : List (String × PyVal) → Except PyError (List (String × String))
  | [] => .ok []
  | (k,v) :: rest => do
    let text ← dumps v
    let members ← dumpFields rest
    .ok ((k,text) :: members)
end

/-- One character of a JSON string literal in ASCII; one beyond 16 bits is a pair of surrogates. -/
def asciiChar (c : Char) : List Char :=
  let n := c.toNat
  let unit := fun n : Nat => ['\\','u',hexDigit (n / 4096),hexDigit (n / 256 % 16),hexDigit (n / 16 % 16),hexDigit (n % 16)]
  if c = '\"' ∨ c = '\\' then ['\\',c]
  else if c = '\n' then ['\\','n']
  else if c = '\r' then ['\\','r']
  else if c = '\t' then ['\\','t']
  else if n = 12 then ['\\','f']
  else if n = 8 then ['\\','b']
  else if 32 ≤ n ∧ n < 127 then [c]
  else if n < 0x10000 then unit n
  else unit (0xd800 + (n - 0x10000) / 0x400) ++ unit (0xdc00 + (n - 0x10000) % 0x400)

def asciiText (s : String) : String := String.ofList ('\"' :: (s.toList.flatMap asciiChar ++ ['\"']))

mutual
/-- No integer is too long to be written. -/
def shortInts : PyVal → Bool
  | .int i => decide (i.natAbs < intLimit)
  | .list items => shortItems items
  | .tuple items => shortItems items
  | .dict fields => shortFields fields
  | _ => true
def shortItems : List PyVal → Bool
  | [] => true
  | v :: rest => shortInts v && shortItems rest
def shortFields : List (String × PyVal) → Bool
  | [] => true
  | (_,v) :: rest => shortInts v && shortFields rest
end

/-- `str` of a value, which raises when an integer in it is too long. -/
def strOf (v : PyVal) : Except PyError String := if shortInts v then .ok v.text else .error digitsError

/-- `int.__repr__`. -/
def dumpInt (i : Int) : Except PyError String := if i.natAbs < intLimit then .ok (toString i) else .error digitsError

theorem dumpInt_iff {i : Int} : (∃ text, dumpInt i = .ok text) ↔ i.natAbs < intLimit := by
  unfold dumpInt
  split <;> simp [*]

theorem map_ok_iff {α β : Type} {f : α → β} {x : Except PyError α} : (∃ b, x.map f = .ok b) ↔ ∃ a, x = .ok a := by
  cases x <;> simp [Except.map]

/-- Two values are written when each is. -/
theorem pair_ok_iff {α β γ : Type} {x : Except PyError α} {y : Except PyError β} {f : α → β → γ} :
    (∃ c, (do let a ← x; let b ← y; Except.ok (f a b)) = .ok c) ↔ (∃ a, x = .ok a) ∧ ∃ b, y = .ok b := by
  cases x with
  | ok a => cases y <;> simp [bind,Except.bind]
  | error exc => simp [bind,Except.bind]

section
variable (literal : String → String) (other : PyObject → Except PyError String)

mutual
/-- `json.dumps` in insertion order, with the literal of a text and what is written for an
    instance of another class. -/
def writeJson : PyVal → Except PyError String
  | .null => .ok "null"
  | .bool b => .ok (if b then "true" else "false")
  | .int i => dumpInt i
  | .float x => .ok (dumpFloat x)
  | .str s => .ok (literal s)
  | .list items => (writeItems items).map fun texts => "[" ++ join ", " texts ++ "]"
  | .tuple items => (writeItems items).map fun texts => "[" ++ join ", " texts ++ "]"
  | .dict fields => (writeFields fields).map fun members => "\x7b" ++ join ", " members ++ "\x7d"
  | .object o => other o
def writeItems : List PyVal → Except PyError (List String)
  | [] => .ok []
  | item :: rest => do
    let text ← writeJson item
    let texts ← writeItems rest
    .ok (text :: texts)
def writeFields : List (String × PyVal) → Except PyError (List String)
  | [] => .ok []
  | (k,v) :: rest => do
    let text ← writeJson v
    let members ← writeFields rest
    .ok ((literal k ++ ": " ++ text) :: members)
end

end

/-- `json.dumps(value)`. -/
def dumpsAscii : PyVal → Except PyError String :=
  writeJson asciiText fun o => .error (.TypeError ("Object of type " ++ o.cls ++ " is not JSON serializable"))

example : loads { recursion_limit := 100, float := fun s => ⟨s,true,none⟩ }
    " \x7b\"a\" : [1, -2.5e3, \"x\\u0041\\n\"], \"b\":\x7b\x7d, \"a\":null\x7d ".toList =
      .ok (.dict [("a",.null),("b",.dict [])]) := by
  decide +kernel

end HexAgent.Json
