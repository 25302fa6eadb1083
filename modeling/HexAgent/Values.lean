import HexAgent.Dicts
import Mathlib.Algebra.Group.Nat.Defs
import Mathlib.Data.List.Sort

/-!
The Python values that the model exchanges with JSON texts, workers and tools,
with the built-in operations the code applies to them: truth, `str`, `repr`,
iteration, `dict` and `int`, and the exceptions these raise.
-/
namespace HexAgent.Values

/-- The exceptions of the model, each with its message. A `JsonGateError` also
    carries its stage and the candidate text. -/
inductive PyError where
  | JsonGateError (message stage candidate : String)
  | ControlContractError (message : String)
  | JSONDecodeError (message : String)
  | ValueError (message : String)
  | TypeError (message : String)
  | AttributeError (message : String)
  | KeyError (message : String)
  | LookupError (message : String)
  | PermissionError (message : String)
  | RuntimeError (message : String)
  | RecursionError (message : String)
  | FileNotFoundError (message : String)
  | Other (cls message : String)
  deriving DecidableEq, Repr

/-- The text of an exception whose parts have one. -/
def PyError.message : PyError → String
  | .JsonGateError message _ _ => message
  | .ControlContractError message | .JSONDecodeError message | .ValueError message | .TypeError message
  | .AttributeError message | .KeyError message | .LookupError message | .PermissionError message
  | .RuntimeError message | .RecursionError message | .FileNotFoundError message | .Other _ message => message

/-- `str` of an exception, which raises for a part that has no text, such as an integer with too many digits. -/
abbrev Describe := PyError → Except PyError String

/-- `str` of the exception returns. -/
def HasText (describe : Describe) (exc : PyError) : Prop := ∃ text, describe exc = .ok text

/-- What the code can observe of a float: its text, whether it is zero, and its
    integer part when it is finite. -/
structure PyFloat where
  text : String
  nonzero : Bool
  whole : Option Int
  deriving DecidableEq, Repr

/-- An instance of a class outside the JSON types: its class, text and truth. -/
structure PyObject where
  cls : String
  text : String
  truth : Bool
  deriving DecidableEq, Repr

/-- A Python value; `null` is `None`. Dictionaries have text keys and keep their insertion order. -/
inductive PyVal where
  | null
  | bool (b : Bool)
  | int (i : Int)
  | float (x : PyFloat)
  | str (s : String)
  | list (items : List PyVal)
  | tuple (items : List PyVal)
  | dict (fields : List (String × PyVal))
  | object (o : PyObject)
  deriving Inhabited

/-- The items of a Python `dict` with text keys. -/
abbrev Fields := List (String × PyVal)

/-! ### Equality -/

mutual
/-- Structural equality. -/
def PyVal.same : PyVal → PyVal → Bool
  | .null,.null => true
  | .bool a,.bool b => a == b
  | .int a,.int b => a == b
  | .float a,.float b => a == b
  | .str a,.str b => a == b
  | .list as,.list bs => sameItems as bs
  | .tuple as,.tuple bs => sameItems as bs
  | .dict as,.dict bs => sameFields as bs
  | .object a,.object b => a == b
  | _,_ => false
def sameItems : List PyVal → List PyVal → Bool
  | [],[] => true
  | a :: as,b :: bs => a.same b && sameItems as bs
  | _,_ => false
def sameFields : List (String × PyVal) → List (String × PyVal) → Bool
  | [],[] => true
  | (k,a) :: as,(j,b) :: bs => k == j && a.same b && sameFields as bs
  | _,_ => false
end

mutual
theorem same_iff : ∀ a b : PyVal, a.same b = true ↔ a = b
  | .null,b => by cases b <;> simp [PyVal.same]
  | .bool a,b => by cases b <;> simp [PyVal.same]
  | .int a,b => by cases b <;> simp [PyVal.same]
  | .float a,b => by cases b <;> simp [PyVal.same]
  | .str a,b => by cases b <;> simp [PyVal.same]
  | .list as,b => by cases b <;> simp [PyVal.same,sameItems_iff as]
  | .tuple as,b => by cases b <;> simp [PyVal.same,sameItems_iff as]
  | .dict as,b => by cases b <;> simp [PyVal.same,sameFields_iff as]
  | .object a,b => by cases b <;> simp [PyVal.same]
theorem sameItems_iff : ∀ as bs : List PyVal, sameItems as bs = true ↔ as = bs
  | [],bs => by cases bs <;> simp [sameItems]
  | a :: as,bs => by cases bs <;> simp [sameItems,same_iff a,sameItems_iff as]
theorem sameFields_iff : ∀ as bs : List (String × PyVal), sameFields as bs = true ↔ as = bs
  | [],bs => by cases bs <;> simp [sameFields]
  | (k,a) :: as,bs => by
    cases bs with
    | nil => simp [sameFields]
    | cons head bs => obtain ⟨j,b⟩ := head; simp [sameFields,same_iff a,sameFields_iff as]
end

instance : DecidableEq PyVal := fun a b => decidable_of_iff (a.same b = true) (same_iff a b)

/-! ### Text -/

/-- What comes after the last separator. -/
theorem after_separator {α : Type} {c : α} {a a' b b' : List α} (noA : c ∉ a) (noA' : c ∉ a')
    (same : b ++ c :: a = b' ++ c :: a') : a = a' := by
  rcases List.append_eq_append_iff.mp same with ⟨gap,-,tail⟩ | ⟨gap,-,tail⟩
  · cases gap with
    | nil => exact (List.cons.inj tail).2
    | cons head gap =>
      obtain ⟨-,inside⟩ := List.cons.inj tail
      exact absurd (by rw [inside]; exact List.mem_append_right _ (List.mem_cons_self ..)) noA
  · cases gap with
    | nil => exact (List.cons.inj tail).2.symm
    | cons head gap =>
      obtain ⟨-,inside⟩ := List.cons.inj tail
      exact absurd (by rw [inside]; exact List.mem_append_right _ (List.mem_cons_self ..)) noA'

/-- The characters that `str.strip` and the class `\\s` take as white space. -/
def isSpace (c : Char) : Bool :=
  let n := c.toNat
  (9 ≤ n && n ≤ 13) || (28 ≤ n && n ≤ 32) || n == 0x85 || n == 0xa0 || n == 0x1680 ||
    (0x2000 ≤ n && n ≤ 0x200a) || n == 0x2028 || n == 0x2029 || n == 0x202f || n == 0x205f || n == 0x3000

/-- White space removed at both ends. -/
def stripChars (cs : List Char) : List Char := ((cs.dropWhile isSpace).reverse.dropWhile isSpace).reverse

/-- `str.strip`. -/
def strip (s : String) : String := String.ofList (stripChars s.toList)

/-- A text with its separator between the parts: `sep.join(parts)`. -/
def join (sep : String) (parts : List String) : String := sep.intercalate parts

/-- `sorted` on texts, in code point order. -/
def sortedTexts (texts : List String) : List String := texts.insertionSort (· ≤ ·)

def hexDigit (n : Nat) : Char := if n < 10 then Char.ofNat (48 + n) else Char.ofNat (87 + n)

/-- One character inside the `repr` of a text quoted by `quote`. Characters
    outside Latin-1 are kept as they are. -/
def reprChar (quote c : Char) : List Char :=
  let n := c.toNat
  if c = quote ∨ c = '\\' then ['\\',c]
  else if c = '\n' then ['\\','n']
  else if c = '\r' then ['\\','r']
  else if c = '\t' then ['\\','t']
  else if n < 32 ∨ (127 ≤ n ∧ n ≤ 160) ∨ n = 173 then ['\\','x',hexDigit (n / 16),hexDigit (n % 16)]
  else [c]

/-- `repr` of a text: single quotes, unless only double quotes need no escape. -/
def reprText (s : String) : String :=
  let quote := if '\'' ∈ s.toList ∧ '\"' ∉ s.toList then '\"' else '\''
  String.ofList (quote :: (s.toList.flatMap (reprChar quote) ++ [quote]))

mutual
/-- `repr` of a value. -/
def PyVal.repr : PyVal → String
  | .null => "None"
  | .bool b => if b then "True" else "False"
  | .int i => toString i
  | .float x => x.text
  | .str s => reprText s
  | .list items => "[" ++ join ", " (reprItems items) ++ "]"
  | .tuple [item] => "(" ++ item.repr ++ ",)"
  | .tuple items => "(" ++ join ", " (reprItems items) ++ ")"
  | .dict fields => "\x7b" ++ join ", " (reprFields fields) ++ "\x7d"
  | .object o => o.text
def reprItems : List PyVal → List String
  | [] => []
  | item :: rest => item.repr :: reprItems rest
def reprFields : List (String × PyVal) → List String
  | [] => []
  | (k,v) :: rest => (reprText k ++ ": " ++ v.repr) :: reprFields rest
end

/-- `str` of a value. -/
def PyVal.text : PyVal → String
  | .str s => s
  | v => v.repr

/-- The name of a value's type. -/
def PyVal.cls : PyVal → String
  | .null => "NoneType"
  | .bool _ => "bool"
  | .int _ => "int"
  | .float _ => "float"
  | .str _ => "str"
  | .list _ => "list"
  | .tuple _ => "tuple"
  | .dict _ => "dict"
  | .object o => o.cls

/-- `bool` of a value. -/
def PyVal.truthy : PyVal → Bool
  | .null => false
  | .bool b => b
  | .int i => i != 0
  | .float x => x.nonzero
  | .str s => s != ""
  | .list items => !items.isEmpty
  | .tuple items => !items.isEmpty
  | .dict fields => !fields.isEmpty
  | .object o => o.truth

/-- The first operand when it is true, else the second: `a or b`. -/
def PyVal.orElse (a b : PyVal) : PyVal := if a.truthy then a else b
/-- `a or b` on texts. -/
def orText (a b : String) : String := if a = "" then b else a

/-! ### Containers -/

/-- `d.get(key, default)`. -/
def Fields.getD (fields : Fields) (key : String) (default : PyVal) : PyVal := (Dicts.get key fields).getD default
/-- `d.get(key)`. -/
def Fields.get (fields : Fields) (key : String) : PyVal := Fields.getD fields key .null
/-- `str(d.get(key, ""))`. -/
def Fields.textOf (fields : Fields) (key : String) : String := (Fields.getD fields key (.str "")).text

/-- `d[key]`. -/
def Fields.item (fields : Fields) (key : String) : Except PyError PyVal :=
  match Dicts.get key fields with
  | some v => .ok v
  | none => .error (.KeyError (reprText key))

/-- The items of a value in a `for` loop. -/
def PyVal.iter : PyVal → Except PyError (List PyVal)
  | .list items => .ok items
  | .tuple items => .ok items
  | .str s => .ok (s.toList.map fun c => .str (String.singleton c))
  | .dict fields => .ok (fields.map fun field => .str field.1)
  | v => .error (.TypeError ("'" ++ v.cls ++ "' object is not iterable"))

/-- The integer that a float is equal to, if it is one: from 1e16 on, where its text has an exponent with a plus, every
    float is. -/
def PyFloat.integer (x : PyFloat) : Option Int :=
  if ['.','0'].isSuffixOf x.text.toList || x.text.toList.contains '+' then x.whole else none

/-- What a key is looked up by. Numbers that are equal are one key, and `True` is 1. -/
inductive HashKey where
  | none
  | number (i : Int)
  | float (text : String)
  | text (s : String)
  deriving DecidableEq, Repr

/-- `hash(key)`. Lists and dictionaries are not hashable. -/
def PyVal.hashKey : PyVal → Except PyError HashKey
  | .str s => .ok (.text s)
  | .null => .ok .none
  | .bool b => .ok (.number (if b then 1 else 0))
  | .int i => .ok (.number i)
  | .float x => .ok (match x.integer with
    | some i => .number i
    | none => .float x.text)
  | v => .error (.TypeError ("unhashable type: '" ++ v.cls ++ "'"))

/-- The text that JSON has for a key. -/
def PyVal.keyText : PyVal → String
  | .str s => s
  | .null => "null"
  | .bool b => if b then "true" else "false"
  | .int i => toString i
  | v => v.text

/-- The entries of a dictionary: what a key is looked up by, the text of the key that came first, and the value. -/
abbrev KeyedItems := List (HashKey × String × PyVal)

/-- `d[key] = value`: the key that came first stays. -/
def KeyedItems.put (entries : KeyedItems) (key : HashKey) (name : String) (value : PyVal) : KeyedItems :=
  Dicts.put key (((Dicts.get key entries).map Prod.fst).getD name,value) entries

/-- The entries under the texts of their keys, as JSON has them. -/
def KeyedItems.named (entries : KeyedItems) : Fields := Dicts.merge [] (entries.map Prod.snd)

/-- The pairs of a `dict` made from a sequence of pairs. -/
def pairsOf : Nat → List PyVal → KeyedItems → Except PyError KeyedItems
  | _,[],acc => .ok acc
  | index,item :: rest,acc =>
    match item.iter with
    | .error _ => .error (.TypeError
        ("cannot convert dictionary update sequence element #" ++ toString index ++ " to a sequence"))
    | .ok [key,value] =>
      match key.hashKey with
      | .error error => .error error
      | .ok hash => pairsOf (index + 1) rest (acc.put hash key.keyText value)
    | .ok items => .error (.ValueError ("dictionary update sequence element #" ++ toString index ++ " has length " ++
        toString items.length ++ "; 2 is required"))

/-- `dict(value)`. -/
def PyVal.toDict : PyVal → Except PyError Fields
  | .dict fields => .ok fields
  | v => match v.iter with
    | .error error => .error error
    | .ok items => (pairsOf 0 items []).map KeyedItems.named

/-! ### Integers -/

/-- The most digits that are converted between an integer and its text. -/
def maxIntDigits : Nat := 4300

/-- The integers from here on have more digits than are converted. -/
@[irreducible] def intLimit : Nat := 10 ^ maxIntDigits

theorem intLimit_eq : intLimit = 10 ^ maxIntDigits := by
  unfold intLimit
  rfl

theorem digit_short {n : Nat} (small : n < 10) : n < intLimit := by
  rw [intLimit_eq]
  exact small.trans_le (Nat.le_self_pow (by decide) 10)

/-- What is raised for more digits. -/
def digitsError : PyError := .ValueError "Exceeds the limit (4300 digits) for integer string conversion"

/-- The zeros of the decimal digits of Unicode 14, the version of Python 3.11; nine digits follow each. -/
def decimalZeros : List Nat :=
  [0x30,0x660,0x6f0,0x7c0,0x966,0x9e6,0xa66,0xae6,0xb66,0xbe6,0xc66,0xce6,0xd66,0xde6,0xe50,0xed0,0xf20,0x1040,0x1090,
    0x17e0,0x1810,0x1946,0x19d0,0x1a80,0x1a90,0x1b50,0x1bb0,0x1c40,0x1c50,0xa620,0xa8d0,0xa900,0xa9d0,0xa9f0,0xaa50,0xabf0,
    0xff10,0x104a0,0x10d30,0x11066,0x110f0,0x11136,0x111d0,0x112f0,0x11450,0x114d0,0x11650,0x116c0,0x11730,0x118e0,0x11950,
    0x11c50,0x11d50,0x11da0,0x16a60,0x16ac0,0x16b50,0x1d7ce,0x1d7d8,0x1d7e2,0x1d7ec,0x1d7f6,0x1e140,0x1e2f0,0x1e950,0x1fbf0]

/-- The value of a decimal digit of any script. -/
def decimal (c : Char) : Option Nat :=
  (decimalZeros.find? fun first => first ≤ c.toNat ∧ c.toNat < first + 10).map fun first => c.toNat - first

/-- The digits of a number, with single underscores between them. -/
def decimals : List Char → Option (List Nat)
  | [] => none
  | [c] => (decimal c).map fun digit => [digit]
  | c :: '_' :: rest => do
    let digit ← decimal c
    let digits ← decimals rest
    some (digit :: digits)
  | c :: rest => do
    let digit ← decimal c
    let digits ← decimals rest
    some (digit :: digits)

/-- What `int` takes as white space: of the separators of ASCII only those of C. -/
def intSpace (c : Char) : Bool := isSpace c && !(28 ≤ c.toNat && c.toNat ≤ 31)

/-- The characters of a number, without the white space around it. -/
def intChars (s : String) : List Char := ((s.toList.dropWhile intSpace).reverse.dropWhile intSpace).reverse

/-- Whether a number is negative, and what follows its sign. -/
def signOf : List Char → Bool × List Char
  | '-' :: rest => (true,rest)
  | '+' :: rest => (false,rest)
  | cs => (false,cs)

/-- `int(text)`. -/
def parseInt (s : String) : Except PyError Int :=
  match decimals (signOf (intChars s)).2 with
  | none => .error (.ValueError ("invalid literal for int() with base 10: " ++ reprText s))
  | some digits =>
    if maxIntDigits < digits.length then .error digitsError
    else
      let n : Nat := digits.foldl (fun n digit => n * 10 + digit) 0
      .ok (if (signOf (intChars s)).1 then -(n : Int) else n)

/-- `int(value)`. -/
def PyVal.toInt : PyVal → Except PyError Int
  | .int i => .ok i
  | .bool b => .ok (if b then 1 else 0)
  | .float x => match x.whole with
    | some i => .ok i
    | none =>
      if x.text = "nan" then .error (.ValueError "cannot convert float NaN to integer")
      else .error (.Other "OverflowError" "cannot convert float infinity to integer")
  | .str s => parseInt s
  | v => .error (.TypeError ("int() argument must be a string, a bytes-like object or a real number, not '" ++
      v.cls ++ "'"))

@[simp] theorem text_str (s : String) : (PyVal.str s).text = s := rfl
@[simp] theorem truthy_dict (fields : Fields) : (PyVal.dict fields).truthy = !fields.isEmpty := rfl
@[simp] theorem truthy_str (s : String) : (PyVal.str s).truthy = (s != "") := rfl
@[simp] theorem toDict_dict (fields : Fields) : (PyVal.dict fields).toDict = .ok fields := rfl
@[simp] theorem iter_list (items : List PyVal) : (PyVal.list items).iter = .ok items := rfl
@[simp] theorem toInt_int (i : Int) : (PyVal.int i).toInt = .ok i := rfl

@[simp] theorem toDict_orElse_dict (fields : Fields) : ((PyVal.dict fields).orElse (.dict [])).toDict = .ok fields := by
  cases fields with
  | nil => rfl
  | cons field rest => rfl

example : (PyVal.list [.list [.bool true,.str "a"],.list [.int 1,.str "b"],.list [.str "k",.null]]).toDict =
    .ok [("true",.str "b"),("k",.null)] := by
  decide +kernel

example : (PyVal.str " -\uff11_\u0662\u2003").toInt = .ok (-12) := by
  decide +kernel

example : (PyVal.dict [("a",.list [.int 1,.str "x'y",.null])]).text = "\x7b'a': [1, \"x'y\", None]\x7d" := by
  decide +kernel

end HexAgent.Values
