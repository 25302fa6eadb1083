import HexAgent.JsonGate

/-!
JSON documents as the grammar builds them. A document keeps the white space between
its tokens, the pieces of its string literals and the parts of its numbers, so that it
has a text beside its value. A container may also carry a comma behind its last item:
a document is JSON when none does. The reader reads a text of a document as its value,
unless the document exceeds the limits of the reader or carries such a comma.
-/
namespace HexAgent.Documents
open HexAgent.Values HexAgent.Json

/-! ### Tokens -/

/-- White space between tokens. -/
abbrev Layout := {cs : List Char // ∀ c ∈ cs, jsonSpace c = true}

/-- Digits, at least one. -/
abbrev Digits := {cs : List Char // cs ≠ [] ∧ ∀ c ∈ cs, c.isDigit = true}

abbrev Hex := {c : Char // (hexValue c).isSome}

def Hex.value (h : Hex) : Nat := (hexValue h.1).get h.2

/-- The four digits of a `\u` escape. -/
structure Code where
  a : Hex
  b : Hex
  c : Hex
  d : Hex

def Code.text (u : Code) : List Char := ['\\','u',u.a.1,u.b.1,u.c.1,u.d.1]

def Code.value (u : Code) : Nat := ((u.a.value * 16 + u.b.value) * 16 + u.c.value) * 16 + u.d.value

def Code.high (u : Code) : Prop := 0xd800 ≤ u.value ∧ u.value ≤ 0xdbff
def Code.low (u : Code) : Prop := 0xdc00 ≤ u.value ∧ u.value ≤ 0xdfff

instance (u : Code) : Decidable u.high := inferInstanceAs (Decidable (_ ∧ _))
instance (u : Code) : Decidable u.low := inferInstanceAs (Decidable (_ ∧ _))

/-- The letters of the short escapes, each with its character. -/
def shortEscapes : List (Char × Char) := [('\"','\"'),('\\','\\'),('/','/'),('b',Char.ofNat 8),('f',Char.ofNat 12),
  ('n','\n'),('r','\r'),('t','\t')]

/-- A character that stands for itself in a string literal. -/
def Plain (c : Char) : Prop := c ≠ '\"' ∧ c ≠ '\\' ∧ 32 ≤ c.toNat

/-- A piece of a string literal. -/
inductive Piece where
  | plain (c : Char) (itself : Plain c)
  | short (e : Char × Char) (known : e ∈ shortEscapes)
  | code (u : Code)

def Piece.text : Piece → List Char
  | .plain c _ => [c]
  | .short e _ => ['\\',e.1]
  | .code u => u.text

abbrev Literal := List Piece

/-- The pieces of a literal, without its quotes. -/
def Literal.body (s : Literal) : List Char := s.flatMap Piece.text

def Literal.text (s : Literal) : List Char := '\"' :: (s.body ++ ['\"'])

/-- The character of a code on its own. -/
def Code.char (u : Code) : Char := if u.high ∨ u.low then Char.ofNat 0xfffd else Char.ofNat u.value

/-- The characters of a literal: a high surrogate joins with a low one right behind it. -/
def Literal.decode : Literal → List Char
  | [] => []
  | .plain c _ :: rest => c :: decode rest
  | .short e _ :: rest => e.2 :: decode rest
  | .code u :: .code v :: rest =>
    if u.high ∧ v.low then Char.ofNat (0x10000 + (u.value - 0xd800) * 0x400 + (v.value - 0xdc00)) :: decode rest
    else u.char :: decode (.code v :: rest)
  | .code u :: rest => u.char :: decode rest

def Literal.value (s : Literal) : String := String.ofList s.decode

/-- The exponent of a number. -/
structure Power where
  capital : Bool
  sign : Option Bool
  digits : Digits

def Power.text (p : Power) : List Char :=
  (if p.capital then 'E' else 'e') :: ((match p.sign with
    | none => []
    | some true => ['-']
    | some false => ['+']) ++ p.digits.1)

/-- A number: no zero leads its other digits. -/
structure Number where
  negative : Bool
  whole : Digits
  leading : whole.1 = ['0'] ∨ whole.1.head? ≠ some '0'
  fraction : Option Digits
  power : Option Power

def Number.integer (n : Number) : List Char := (if n.negative then ['-'] else []) ++ n.whole.1

def Number.fractionText (n : Number) : List Char := match n.fraction with
  | none => []
  | some digits => '.' :: digits.1

def Number.powerText (n : Number) : List Char := match n.power with
  | none => []
  | some power => power.text

def Number.text (n : Number) : List Char := n.integer ++ (n.fractionText ++ n.powerText)

def Number.Whole (n : Number) : Prop := n.fraction = none ∧ n.power = none

/-- An integer has no more digits than `int` converts. -/
def Number.Fits (n : Number) : Prop := n.Whole → n.whole.1.length ≤ maxIntDigits

instance (n : Number) : Decidable n.Whole :=
  decidable_of_iff (n.fraction.isNone ∧ n.power.isNone) (and_congr Option.isNone_iff_eq_none Option.isNone_iff_eq_none)

def Number.value (interp : Interpreter) (n : Number) : PyVal :=
  if n.Whole then .int (literalInt n.integer) else .float (interp.float (String.ofList n.text))

/-! ### Documents -/

inductive Kind where
  | array
  | object

def Kind.opens : Kind → Char
  | .array => '['
  | .object => '\x7b'
def Kind.closes : Kind → Char
  | .array => ']'
  | .object => '\x7d'

/-- What stands before the value of an item: a name with its colon, in an object. -/
inductive Label : Kind → Type where
  | bare : Label .array
  | named (name : Literal) (gap lead : Layout) : Label .object

def Label.text {k : Kind} : Label k → List Char
  | .bare => []
  | .named name gap lead => name.text ++ (gap.1 ++ ':' :: lead.1)

def Label.name {k : Kind} : Label k → String
  | .bare => ""
  | .named name _ _ => name.value

mutual
/-- A document. The comma of a container stands behind its last item, with the white
    space that follows it. -/
inductive Doc where
  | null
  | bool (b : Bool)
  | number (n : Number)
  | string (s : Literal)
  | hollow (k : Kind) (blank : Layout) (comma : Option Layout)
  | full (k : Kind) (entries : Entries k)
/-- The items of a container, at least one. -/
inductive Entries : Kind → Type where
  | last {k : Kind} (before : Layout) (label : Label k) (value : Doc) (after : Layout) (comma : Option Layout) : Entries k
  | more {k : Kind} (before : Layout) (label : Label k) (value : Doc) (after : Layout) (rest : Entries k) : Entries k
end

def commaText : Option Layout → List Char
  | none => []
  | some trail => ',' :: trail.1

mutual
def Doc.text : Doc → List Char
  | .null => ['n','u','l','l']
  | .bool true => ['t','r','u','e']
  | .bool false => ['f','a','l','s','e']
  | .number n => n.text
  | .string s => s.text
  | .hollow k blank comma => k.opens :: (blank.1 ++ (commaText comma ++ [k.closes]))
  | .full k entries => k.opens :: (entries.text ++ [k.closes])
def Entries.text {k : Kind} : Entries k → List Char
  | .last before label value after comma => before.1 ++ (label.text ++ (value.text ++ (after.1 ++ commaText comma)))
  | .more before label value after rest => before.1 ++ (label.text ++ (value.text ++ (after.1 ++ ',' :: rest.text)))
end

/-- The value of a container, from its named items. A repeated name keeps its place and
    takes the later value. -/
def Kind.build (items : List (String × PyVal)) : Kind → PyVal
  | .array => .list (items.map Prod.snd)
  | .object => .dict (Dicts.merge [] items)

section
variable (interp : Interpreter)
mutual
def Doc.value : Doc → PyVal
  | .null => .null
  | .bool b => .bool b
  | .number n => n.value interp
  | .string s => .str s.value
  | .hollow k _ _ => k.build []
  | .full k entries => k.build entries.items
def Entries.items {k : Kind} : Entries k → List (String × PyVal)
  | .last _ label value _ _ => [(label.name,value.value)]
  | .more _ label value _ rest => (label.name,value.value) :: rest.items
end
end

mutual
/-- No container carries a comma behind its last item. -/
def Doc.Clean : Doc → Prop
  | .hollow _ _ comma => comma = none
  | .full _ entries => entries.Clean
  | _ => True
def Entries.Clean {k : Kind} : Entries k → Prop
  | .last _ _ value _ comma => value.Clean ∧ comma = none
  | .more _ _ value _ rest => value.Clean ∧ rest.Clean
end

mutual
/-- The document stays within the limits of the reader, with the levels of nesting left. -/
def Doc.Within : Nat → Doc → Prop
  | _,.number n => n.Fits
  | depth,.hollow _ _ _ => 0 < depth
  | depth,.full _ entries => 0 < depth ∧ entries.Within (depth - 1)
  | _,_ => True
def Entries.Within {k : Kind} : Nat → Entries k → Prop
  | depth,.last _ _ value _ _ => value.Within depth
  | depth,.more _ _ value _ rest => value.Within depth ∧ rest.Within depth
end

/-! ### Characters -/

theorem digit_bounds {c : Char} (digit : c.isDigit = true) : 48 ≤ c.toNat ∧ c.toNat ≤ 57 := by
  simp only [Char.isDigit,Bool.and_eq_true,decide_eq_true_eq,ge_iff_le,UInt32.le_iff_toNat_le] at digit
  exact digit

theorem space_of_json {c : Char} (space : jsonSpace c = true) : isSpace c = true := by
  simp only [jsonSpace,Bool.or_eq_true,decide_eq_true_eq] at space
  rcases space with ((rfl | rfl) | rfl) | rfl <;> decide

theorem digit_hard {c : Char} (digit : c.isDigit = true) : isSpace c = false := by
  obtain ⟨low,high⟩ := digit_bounds digit
  simp only [isSpace,Bool.or_eq_false_iff,Bool.and_eq_false_iff,decide_eq_false_iff_not,beq_eq_false_iff_ne]
  omega

/-- A character that can begin a value. -/
def Leads (c : Char) : Prop := c.isDigit = true ∨ c ∈ ['n','t','f','\"','[','\x7b','-']

theorem Leads.hard {c : Char} (leads : Leads c) : isSpace c = false := by
  rcases leads with digit | member
  · exact digit_hard digit
  · have all : ∀ c ∈ ['n','t','f','\"','[','\x7b','-'], decide (isSpace c = false) = true := List.all_eq_true.mp rfl
    exact of_decide_eq_true (all c member)

theorem Leads.ne {c d : Char} (leads : Leads c) (other : d.isDigit = false ∧ d ∉ ['n','t','f','\"','[','\x7b','-']) : c ≠ d := by
  rintro rfl
  rcases leads with digit | member
  · rw [other.1] at digit; cases digit
  · exact other.2 member

theorem Leads.unspaced {c : Char} (leads : Leads c) : jsonSpace c = false :=
  Bool.eq_false_iff.mpr fun space => Bool.false_ne_true (leads.hard.symm.trans (space_of_json space))

@[simp] theorem skip_layout (l : Layout) (cs : List Char) : skipSpace (l.1 ++ cs) = skipSpace cs :=
  List.dropWhile_append_of_pos l.2

theorem skip_unspaced {c : Char} (unspaced : jsonSpace c = false) (cs : List Char) : skipSpace (c :: cs) = c :: cs :=
  List.dropWhile_cons_of_neg (by simp [unspaced])

@[simp] theorem skip_comma (cs : List Char) : skipSpace (',' :: cs) = ',' :: cs := rfl
@[simp] theorem skip_quote (cs : List Char) : skipSpace ('\"' :: cs) = '\"' :: cs := rfl
@[simp] theorem skip_closes (k : Kind) (cs : List Char) : skipSpace (k.closes :: cs) = k.closes :: cs := by
  cases k <;> rfl

/-! ### Literals -/

theorem hexCode_digits (u : Code) (rest : List Char) :
    hexCode (u.a.1 :: u.b.1 :: u.c.1 :: u.d.1 :: rest) = some (u.value,rest) := by
  have digit : ∀ h : Hex, hexValue h.1 = some h.value := fun h => (Option.some_get h.2).symm
  simp [hexCode,digit,Code.value]

theorem escape_short {e : Char × Char} (known : e ∈ shortEscapes) (rest : List Char) :
    escape (e.1 :: rest) = some (e.2,rest) := by
  simp only [shortEscapes,List.mem_cons,List.not_mem_nil,or_false] at known
  rcases known with rfl | rfl | rfl | rfl | rfl | rfl | rfl | rfl <;> rfl

theorem short_letter {e : Char × Char} (known : e ∈ shortEscapes) : e.1 ≠ 'u' := by
  simp only [shortEscapes,List.mem_cons,List.not_mem_nil,or_false] at known
  rcases known with rfl | rfl | rfl | rfl | rfl | rfl | rfl | rfl <;> decide

/-- Two codes of which the first is a high and the second a low surrogate. -/
theorem escape_pair {u v : Code} (pair : u.high ∧ v.low) (rest : List Char) : escape (u.text.tail ++ (v.text ++ rest)) =
    some (Char.ofNat (0x10000 + (u.value - 0xd800) * 0x400 + (v.value - 0xdc00)),rest) := by
  obtain ⟨high,low⟩ := pair
  unfold Code.high at high
  unfold Code.low at low
  simp [escape,Code.text,unicodeEscape,hexCode_digits,high,low]

/-- A code that joins with nothing behind it. -/
theorem escape_code {u : Code} {s : Literal} (alone : ∀ v rest, s = .code v :: rest → ¬ (u.high ∧ v.low))
    (more : List Char) : escape (u.text.tail ++ (s.body ++ '\"' :: more)) = some (u.char,s.body ++ '\"' :: more) := by
  simp only [escape,Code.text,List.tail_cons,List.cons_append,List.nil_append,unicodeEscape,hexCode_digits,Option.bind_eq_bind,
    Option.bind_some]
  by_cases high : u.high
  · have surrogate : u.char = Char.ofNat 0xfffd := if_pos (.inl high)
    rw [if_pos (show 0xd800 ≤ u.value ∧ u.value ≤ 0xdbff from high),surrogate]
    split
    · next more' behind =>
      cases s with
      | nil => cases behind
      | cons piece s =>
        cases piece with
        | plain c itself => exact absurd (List.cons.inj behind).1 itself.2.1
        | short e known =>
          exact absurd (List.cons.inj (List.cons.inj behind).2).1 (short_letter known)
        | code v =>
          have digits : more' = v.a.1 :: v.b.1 :: v.c.1 :: v.d.1 :: (Literal.body s ++ '\"' :: more) := by
            simpa [Literal.body,Piece.text,Code.text] using behind.symm
          rw [digits,hexCode_digits]
          exact if_neg fun low => alone v s rfl ⟨high,low⟩
    · rfl
  · rw [if_neg (show ¬ (0xd800 ≤ u.value ∧ u.value ≤ 0xdbff) from high)]
    by_cases low : u.low
    · rw [if_pos (show 0xdc00 ≤ u.value ∧ u.value ≤ 0xdfff from low),Code.char,if_pos (.inr low)]
    · rw [if_neg (show ¬ (0xdc00 ≤ u.value ∧ u.value ≤ 0xdfff) from low),Code.char,if_neg (not_or.mpr ⟨high,low⟩)]

theorem length_body (s : Literal) : s.length ≤ s.body.length := by
  induction s with
  | nil => exact Nat.le_refl 0
  | cons piece s ih =>
    have some : 0 < piece.text.length := by cases piece <;> simp [Piece.text,Code.text]
    simp only [Literal.body,List.flatMap_cons,List.length_append,List.length_cons] at ih ⊢
    omega

@[simp] theorem body_nil : Literal.body [] = [] := rfl
@[simp] theorem body_plain (c : Char) (itself : Plain c) (s : Literal) :
    Literal.body (.plain c itself :: s) = c :: s.body := rfl
@[simp] theorem body_short (e : Char × Char) (known : e ∈ shortEscapes) (s : Literal) :
    Literal.body (.short e known :: s) = '\\' :: e.1 :: s.body := rfl
@[simp] theorem body_code (u : Code) (s : Literal) :
    Literal.body (.code u :: s) = '\\' :: (u.text.tail ++ s.body) := rfl

/-- One escape read. -/
theorem scan_escape {rest after : List Char} {e : Char} (escaped : escape rest = some (e,after)) (fuel : Nat)
    (done : List Char) : scanString (fuel + 1) ('\\' :: rest) done = scanString fuel after (e :: done) := by
  rw [scanString,if_neg (by decide),if_pos rfl,escaped]

/-- A literal is read as its characters, up to its closing quote. -/
theorem scan_literal (s : Literal) (rest : List Char) : ∀ fuel done, s.length < fuel →
    scanString fuel (s.body ++ '\"' :: rest) done = .ok (String.ofList (done.reverse ++ s.decode),rest) := by
  induction s using Literal.decode.induct with
  | case1 =>
    intro fuel done enough
    obtain ⟨fuel,rfl⟩ := Nat.exists_eq_succ_of_ne_zero (Nat.ne_of_gt enough)
    simp [scanString,Literal.decode]
  | case2 c itself s ih =>
    intro fuel done enough
    obtain ⟨fuel,rfl⟩ := Nat.exists_eq_succ_of_ne_zero (Nat.ne_of_gt (Nat.zero_lt_of_lt enough))
    rw [body_plain,List.cons_append,scanString,if_neg itself.1,if_neg itself.2.1,if_neg (Nat.not_lt.mpr itself.2.2),
      ih _ _ (Nat.lt_of_succ_lt_succ enough)]
    simp [Literal.decode]
  | case3 e known s ih =>
    intro fuel done enough
    obtain ⟨fuel,rfl⟩ := Nat.exists_eq_succ_of_ne_zero (Nat.ne_of_gt (Nat.zero_lt_of_lt enough))
    rw [body_short,List.cons_append,List.cons_append,scan_escape (escape_short known _),ih _ _ (Nat.lt_of_succ_lt_succ enough)]
    simp [Literal.decode]
  | case4 u v s pair ih =>
    intro fuel done enough
    obtain ⟨fuel,rfl⟩ := Nat.exists_eq_succ_of_ne_zero (Nat.ne_of_gt (Nat.zero_lt_of_lt enough))
    have fewer : List.length s < fuel := Nat.lt_of_succ_lt (Nat.lt_of_succ_lt_succ enough)
    have text : Literal.body (.code u :: .code v :: s) ++ '\"' :: rest =
        '\\' :: (u.text.tail ++ (v.text ++ (Literal.body s ++ '\"' :: rest))) := by
      simp [Code.text]
    rw [text,scan_escape (escape_pair pair _),ih _ _ fewer]
    simp [Literal.decode,pair]
  | case5 u v s alone ih =>
    intro fuel done enough
    obtain ⟨fuel,rfl⟩ := Nat.exists_eq_succ_of_ne_zero (Nat.ne_of_gt (Nat.zero_lt_of_lt enough))
    rw [body_code,List.cons_append,List.append_assoc,
      scan_escape (escape_code (fun w others same => by cases same; exact alone) _),ih _ _ (Nat.lt_of_succ_lt_succ enough)]
    simp [Literal.decode,alone]
  | case6 u s other ih =>
    intro fuel done enough
    obtain ⟨fuel,rfl⟩ := Nat.exists_eq_succ_of_ne_zero (Nat.ne_of_gt (Nat.zero_lt_of_lt enough))
    rw [body_code,List.cons_append,List.append_assoc,
      scan_escape (escape_code (fun v others same => absurd same (other v others)) _),
      ih _ _ (Nat.lt_of_succ_lt_succ enough),Literal.decode]
    · simp
    · exact other

/-! ### Numbers -/

/-- What can follow a number. -/
def Delimits (rest : List Char) : Prop := ∀ c ∈ rest.head?, c.isDigit = false ∧ c ≠ '.' ∧ c ≠ 'e' ∧ c ≠ 'E'

theorem digits_taken {digits rest : List Char} (all : ∀ c ∈ digits, c.isDigit = true)
    (ends : ∀ c ∈ rest.head?, c.isDigit = false) :
    (digits ++ rest).takeWhile Char.isDigit = digits ∧ (digits ++ rest).dropWhile Char.isDigit = rest := by
  rw [List.takeWhile_append_of_pos all,List.dropWhile_append_of_pos all]
  cases rest with
  | nil => simp
  | cons c rest =>
    have other : c.isDigit = false := ends c rfl
    simp [other]

/-- A list of digits by its first one. -/
theorem Digits.cons (d : Digits) : ∃ c rest, d.1 = c :: rest ∧ c.isDigit = true := by
  obtain ⟨digits,some,all⟩ := d
  obtain ⟨c,rest,rfl⟩ := List.exists_cons_of_ne_nil some
  exact ⟨c,rest,rfl,all c List.mem_cons_self⟩

theorem scan_integer (n : Number) {rest : List Char} (ends : ∀ c ∈ rest.head?, c.isDigit = false) :
    scanInteger (n.integer ++ rest) = some (n.integer,rest) := by
  obtain ⟨taken,dropped⟩ := digits_taken n.whole.2.2 ends
  obtain ⟨c,digits,split,digit⟩ := n.whole.cons
  have unsigned : c ≠ '-' := by rintro rfl; revert digit; decide
  have leading := n.leading
  rw [split,List.cons_append] at taken dropped
  rw [split] at leading
  unfold Number.integer
  rw [split]
  by_cases zero : c = '0'
  · subst zero
    have single : digits = [] := leading.elim (fun same => (List.cons.inj same).2) (fun other => absurd rfl other)
    rw [single]
    cases n.negative <;> rfl
  · cases n.negative
    · simp [scanInteger,unsigned,digit,taken,dropped]
    · simp [scanInteger,digit,taken,dropped]

theorem power_head {n : Number} {rest : List Char} (follows : Delimits rest) :
    ∀ c ∈ (n.powerText ++ rest).head?, c.isDigit = false ∧ c ≠ '.' := by
  unfold Number.powerText
  rcases n.power with _ | ⟨capital,sign,digits⟩
  · exact fun c head => ⟨(follows c head).1,(follows c head).2.1⟩
  · cases capital <;> simp [Power.text]

theorem fraction_head {n : Number} {rest : List Char} (follows : Delimits rest) :
    ∀ c ∈ (n.fractionText ++ (n.powerText ++ rest)).head?, c.isDigit = false := by
  unfold Number.fractionText
  rcases n.fraction with _ | digits
  · exact fun c head => (power_head follows c head).1
  · simp

theorem scan_fraction (n : Number) {rest : List Char} (follows : Delimits rest) :
    scanFraction (n.fractionText ++ (n.powerText ++ rest)) = (n.fractionText,n.powerText ++ rest) := by
  have head := power_head (n := n) follows
  unfold Number.fractionText
  rcases n.fraction with _ | digits
  · generalize n.powerText ++ rest = tail at head ⊢
    rcases tail with _ | ⟨c,tail⟩
    · rfl
    · have other : c ≠ '.' := (head c rfl).2
      simp [scanFraction,other]
  · obtain ⟨taken,dropped⟩ := digits_taken digits.2.2 fun c at_head => (head c at_head).1
    obtain ⟨d,more,split,digit⟩ := digits.cons
    rw [split,List.cons_append] at taken dropped
    simp [scanFraction,split,digit,taken,dropped]

theorem scan_power (n : Number) {rest : List Char} (follows : Delimits rest) :
    scanExponent (n.powerText ++ rest) = (n.powerText,rest) := by
  unfold Number.powerText
  rcases n.power with _ | ⟨capital,sign,digits⟩
  · rcases rest with _ | ⟨c,rest⟩
    · rfl
    · have other := (follows c rfl).2.2
      simp [scanExponent,other]
  · obtain ⟨taken,dropped⟩ := digits_taken digits.2.2 fun c head => (follows c head).1
    obtain ⟨d,more,split,digit⟩ := digits.cons
    have minus : d ≠ '-' := by rintro rfl; revert digit; decide
    have plus : d ≠ '+' := by rintro rfl; revert digit; decide
    rw [split,List.cons_append] at taken dropped
    simp only [Power.text,split]
    rcases capital with _ | _ <;> rcases sign with _ | _ | _ <;>
      simp [scanExponent,minus,plus,digit,taken,dropped]

theorem integer_digits (n : Number) : n.integer.filter Char.isDigit = n.whole.1 := by
  have all : n.whole.1.filter Char.isDigit = n.whole.1 := List.filter_eq_self.mpr n.whole.2.2
  unfold Number.integer
  cases n.negative <;> simp [all]

theorem markless_iff {n : Number} : n.fractionText = [] ∧ n.powerText = [] ↔ n.Whole := by
  unfold Number.fractionText Number.powerText Number.Whole
  rcases n.fraction with _ | digits <;> rcases n.power with _ | power <;> simp [Power.text]

/-- A number is read as its value, unless it is an integer with too many digits. -/
theorem scan_number (interp : Interpreter) (n : Number) {rest : List Char} (follows : Delimits rest) :
    ∃ r, scanNumber interp (n.text ++ rest) = some r ∧ (n.Fits → r = .ok (n.value interp,rest)) ∧
      (¬ n.Fits → ∃ message, r = .error (.ValueError message)) := by
  have text : n.text ++ rest = n.integer ++ (n.fractionText ++ (n.powerText ++ rest)) := by simp [Number.text]
  simp only [scanNumber,text,scan_integer n (fraction_head follows),scan_fraction n follows,scan_power n follows,
    Option.bind_eq_bind,Option.bind_some,markless_iff,integer_digits]
  unfold Number.Fits Number.value
  by_cases whole : n.Whole
  · by_cases fits : n.whole.1.length ≤ maxIntDigits
    · simp [whole,fits]
    · simp [whole,fits,Nat.lt_of_not_le fits,digitsError]
  · simp [whole,Number.text]

/-- The first character of a number is a digit or a sign with a digit behind it. -/
theorem number_head (n : Number) : ∃ c rest, n.text = c :: rest ∧ Leads c ∧
    (c.isDigit = true ∨ c = '-' ∧ ∃ d more, rest = d :: more ∧ d.isDigit = true) := by
  obtain ⟨c,digits,split,digit⟩ := n.whole.cons
  unfold Number.text Number.integer
  rw [split]
  cases n.negative
  · exact ⟨c,_,rfl,.inl digit,.inl digit⟩
  · exact ⟨'-',_,rfl,.inr (by decide),.inr ⟨rfl,c,_,rfl,digit⟩⟩

theorem scan_word (interp : Interpreter) (n : Number) (rest : List Char) : scanWord interp (n.text ++ rest) = none := by
  obtain ⟨c,more,split,-,digit | ⟨rfl,d,digits,rfl,digit⟩⟩ := number_head n
  · have apart : ∀ e : Char, e.isDigit = false → c ≠ e := fun e no same => by rw [same,no] at digit; cases digit
    simp [split,scanWord,apart 'n' rfl,apart 't' rfl,apart 'f' rfl,apart 'N' rfl,apart 'I' rfl,apart '-' rfl]
  · have apart : d ≠ 'I' := by rintro rfl; revert digit; decide
    simp [split,scanWord,apart]

/-! ### Reading -/

def Refusal (error : PyError) : Prop := ∃ message, error = .JSONDecodeError message

/-- What a reader makes of a text: it reads the value when the text is within its limits and
    is JSON; else it raises, the refusal for a text within the limits, and another exception
    for JSON. -/
def Judged {α : Type} (within clean : Prop) (v : α) : Except PyError α → Prop
  | .ok read => within ∧ clean ∧ read = v
  | .error error => (within → Refusal error) ∧ (clean → ¬ Refusal error)

theorem Judged.bind {α β : Type} {within within' clean clean' : Prop} {v : α} {u : β} {r : Except PyError α}
    {f : α → Except PyError β} (first : Judged within clean v r) (less : within' → within) (fewer : clean' → clean)
    (next : within → clean → Judged within' clean' u (f v)) : Judged within' clean' u (r.bind f) := by
  rcases r with error | read
  · exact ⟨fun w => first.1 (less w),fun c => first.2 (fewer c)⟩
  · obtain ⟨w,c,rfl⟩ := first
    exact next w c

theorem Judged.widen {α : Type} {within within' clean clean' : Prop} {v : α} {r : Except PyError α}
    (judged : Judged within clean v r) (less : within' → within) (fewer : clean' → clean)
    (gain : within → clean → within' ∧ clean') : Judged within' clean' v r := by
  rcases r with error | read
  · exact ⟨fun w => judged.1 (less w),fun c => judged.2 (fewer c)⟩
  · obtain ⟨w,c,rfl⟩ := judged
    exact ⟨(gain w c).1,(gain w c).2,rfl⟩

theorem Judged.read {α : Type} {within clean : Prop} {v : α} {r : Except PyError α} (judged : Judged within clean v r)
    (w : within) (c : clean) : r = .ok v := by
  rcases r with error | read
  · exact absurd (judged.1 w) (judged.2 c)
  · rw [judged.2.2]

/-- What can follow a document: anything, unless it is a number. -/
def Follows : Doc → List Char → Prop
  | .number _,rest => Delimits rest
  | _,_ => True

theorem follows_delimited {rest : List Char} (delimits : Delimits rest) (d : Doc) : Follows d rest := by
  cases d <;> first | exact delimits | trivial

theorem Doc.head (d : Doc) : ∃ c rest, d.text = c :: rest ∧ Leads c := by
  cases d with
  | null => exact ⟨'n',_,rfl,.inr (by decide)⟩
  | bool b => cases b <;> exact ⟨_,_,rfl,.inr (by decide)⟩
  | number n =>
    obtain ⟨c,rest,split,leads,-⟩ := number_head n
    exact ⟨c,rest,split,leads⟩
  | string s => exact ⟨'\"',_,rfl,.inr (by decide)⟩
  | hollow k blank comma => cases k <;> exact ⟨_,_,rfl,.inr (by decide)⟩
  | full k entries => cases k <;> exact ⟨_,_,rfl,.inr (by decide)⟩

/-- The reader of a container behind its opening bracket. -/
def scanKind (scan : List Char → Except PyError (PyVal × List Char)) : Kind → List Char → Except PyError (PyVal × List Char)
  | .array => scanArray scan
  | .object => scanObject scan

/-- The reader of the items of a container, with the named items read before. -/
def scanOn (scan : List Char → Except PyError (PyVal × List Char)) (fuel : Nat) (cs : List Char)
    (items : List (String × PyVal)) : Kind → Except PyError (PyVal × List Char)
  | .array => scanItems scan fuel cs (items.map Prod.snd).reverse
  | .object => scanMembers scan fuel cs (Dicts.merge [] items)

/-- What comes after an item: the end of the container, or a comma and the other items. -/
def scanNext (scan : List Char → Except PyError (PyVal × List Char)) (fuel : Nat) (items : List (String × PyVal)) (k : Kind) :
    List Char → Except PyError (PyVal × List Char)
  | [] => .error (decodeError "Expecting ',' delimiter")
  | c :: rest =>
    if c = k.closes then .ok (k.build items,rest)
    else if c = ',' then scanOn scan fuel (skipSpace rest) items k
    else .error (decodeError "Expecting ',' delimiter")

section
variable {scan : List Char → Except PyError (PyVal × List Char)} {k : Kind}

/-- An item is its label, its value and what comes after it. -/
theorem scanOn_step (label : Label k) (fuel : Nat) (items : List (String × PyVal)) {c : Char} (cs : List Char)
    (unspaced : jsonSpace c = false) : scanOn scan (fuel + 1) (label.text ++ c :: cs) items k =
      (scan (c :: cs)).bind fun read => scanNext scan fuel (items ++ [(label.name,read.1)]) k (skipSpace read.2) := by
  cases label with
  | bare =>
    simp only [scanOn,scanItems,Label.text,List.nil_append,bind]
    rcases scan (c :: cs) with error | ⟨v,rest⟩
    · rfl
    · simp only [Except.bind]
      rcases skipSpace rest with _ | ⟨d,rest⟩
      · rfl
      · by_cases bracket : d = ']'
        · simp [scanNext,bracket,Kind.closes,Kind.build]
        · by_cases comma : d = ','
          · simp [scanNext,comma,Kind.closes,scanOn]
          · simp [scanNext,bracket,comma,Kind.closes]
  | named name gap lead =>
    have text : Label.text (.named name gap lead) ++ c :: cs =
        '\"' :: (name.body ++ '\"' :: (gap.1 ++ ':' :: (lead.1 ++ c :: cs))) := by
      simp [Label.text,Literal.text]
    have enough : List.length name < (name.body ++ '\"' :: (gap.1 ++ ':' :: (lead.1 ++ c :: cs))).length + 1 := by
      have some := length_body name
      simp only [List.length_append]
      omega
    have colon : skipSpace (gap.1 ++ ':' :: (lead.1 ++ c :: cs)) = ':' :: (lead.1 ++ c :: cs) := skip_layout ..
    have value : skipSpace (lead.1 ++ c :: cs) = c :: cs := (skip_layout ..).trans (skip_unspaced unspaced cs)
    simp only [scanOn,text,scanMembers,scan_literal name _ _ [] enough,bind,Except.bind,colon,value]
    rcases scan (c :: cs) with error | ⟨v,rest⟩
    · rfl
    · simp only
      rcases skipSpace rest with _ | ⟨d,rest⟩
      · rfl
      · by_cases bracket : d = '\x7d'
        · simp [scanNext,bracket,Kind.closes,Kind.build,Dicts.merge,Label.name,Literal.value]
        · by_cases comma : d = ','
          · simp [scanNext,comma,Kind.closes,scanOn,Dicts.merge,Label.name,Literal.value]
          · simp [scanNext,bracket,comma,Kind.closes]

theorem scanKind_hollow {cs rest : List Char} (empty : skipSpace cs = k.closes :: rest) :
    scanKind scan k cs = .ok (k.build [],rest) := by
  cases k
  · simp [scanKind,scanArray,empty,Kind.closes,Kind.build]
  · simp [scanKind,scanObject,empty,Kind.closes,Kind.build,Dicts.merge]

theorem scanKind_full {c : Char} {cs rest : List Char} (item : skipSpace cs = c :: rest) (other : c ≠ k.closes) :
    scanKind scan k cs = scanOn scan ((c :: rest).length + 1) (c :: rest) [] k := by
  cases k
  · simp [scanKind,scanArray,item,scanOn,show c ≠ ']' from other]
  · simp [scanKind,scanObject,item,scanOn,Dicts.merge,show c ≠ '\x7d' from other]

end

section
variable {interp : Interpreter} {depth : Nat} {rest : List Char}

/-- No item begins with a comma or a closing bracket. -/
theorem scanOn_stuck (interp : Interpreter) (depth : Nat) {c : Char} (member : c ∈ [',',']','\x7d']) (rest : List Char)
    (k : Kind) (fuel : Nat) (items : List (String × PyVal)) :
    ∃ message, scanOn (scanOnce interp depth) fuel (c :: rest) items k = .error (.JSONDecodeError message) := by
  have none : scanOnce interp depth (c :: rest) = .error (decodeError "Expecting value") := by
    simp only [List.mem_cons,List.not_mem_nil,or_false] at member
    rcases member with rfl | rfl | rfl <;> cases depth <;> rfl
  have quote : c ≠ '\"' := by rintro rfl; revert member; decide
  cases fuel with
  | zero => cases k <;> exact ⟨_,rfl⟩
  | succ fuel =>
    cases k
    · exact ⟨_,by simp [scanOn,scanItems,none,bind,Except.bind]; rfl⟩
    · exact ⟨_,by simp [scanOn,scanMembers,quote]; rfl⟩

theorem skip_label {k : Kind} (before : Layout) (label : Label k) {c : Char} (unspaced : jsonSpace c = false)
    (cs : List Char) : skipSpace (before.1 ++ (label.text ++ c :: cs)) = label.text ++ c :: cs := by
  rw [skip_layout]
  cases label with
  | bare => exact skip_unspaced unspaced cs
  | named name gap lead => rfl

theorem opens_exceeds (k : Kind) : scanOnce interp 0 (k.opens :: rest) = .error tooDeep := by cases k <;> rfl

theorem opens_descends (k : Kind) :
    scanOnce interp (depth + 1) (k.opens :: rest) = scanKind (scanOnce interp depth) k rest := by
  cases k <;> rfl

theorem scanOnce_number (n : Number) : scanOnce interp depth (n.text ++ rest) =
    (scanNumber interp (n.text ++ rest)).getD (.error (decodeError "Expecting value")) := by
  have word := scan_word interp n rest
  obtain ⟨c,more,split,-,digit⟩ := number_head n
  have apart : ∀ e : Char, e.isDigit = false → e ≠ '-' → c ≠ e := by
    rintro e no other rfl
    rcases digit with yes | ⟨sign,-⟩
    · rw [no] at yes; cases yes
    · exact other sign
  rw [split,List.cons_append] at word ⊢
  cases depth <;> simp [scanOnce,word,apart '\"' rfl (by decide),apart '[' rfl (by decide),apart '\x7b' rfl (by decide)]

theorem scanOnce_string (s : Literal) : scanOnce interp depth (s.text ++ rest) = .ok (.str s.value,rest) := by
  have text : s.text ++ rest = '\"' :: (s.body ++ '\"' :: rest) := by simp [Literal.text]
  have enough : List.length s < (s.body ++ '\"' :: rest).length + 1 := by
    have some := length_body s
    simp only [List.length_append]
    omega
  have read := scan_literal s rest _ [] enough
  rw [text]
  cases depth <;> simp only [scanOnce,read,bind,Except.bind] <;> rfl

end

theorem delimits_closes (k : Kind) (rest : List Char) : Delimits (k.closes :: rest) := by
  rintro c ⟨⟩
  cases k <;> decide

theorem delimits_comma (rest : List Char) : Delimits (',' :: rest) := by
  rintro c ⟨⟩
  decide

theorem delimits_layout (l : Layout) {rest : List Char} (delimits : Delimits rest) : Delimits (l.1 ++ rest) := by
  obtain ⟨cs,blank⟩ := l
  rcases cs with _ | ⟨c,cs⟩
  · exact delimits
  · rintro d ⟨⟩
    have space := blank c List.mem_cons_self
    simp only [jsonSpace,Bool.or_eq_true,decide_eq_true_eq] at space
    rcases space with ((rfl | rfl) | rfl) | rfl <;> decide

theorem label_leads {k : Kind} (label : Label k) {c : Char} (leads : Leads c) (cs : List Char) :
    ∃ d ds, label.text ++ c :: cs = d :: ds ∧ Leads d := by
  cases label with
  | bare => exact ⟨c,cs,rfl,leads⟩
  | named name gap lead => exact ⟨'\"',_,rfl,.inr (by decide)⟩

theorem Entries.head {k : Kind} (entries : Entries k) (tail : List Char) :
    ∃ c cs, skipSpace (entries.text ++ tail) = c :: cs ∧ Leads c := by
  cases entries with
  | last before label value after comma =>
    obtain ⟨c,more,split,leads⟩ := value.head
    have skipped := skip_label before label leads.unspaced (more ++ (after.1 ++ (commaText comma ++ tail)))
    obtain ⟨d,ds,item,leads'⟩ := label_leads label leads (more ++ (after.1 ++ (commaText comma ++ tail)))
    exact ⟨d,ds,by simpa [Entries.text,split] using skipped.trans item,leads'⟩
  | more before label value after rest =>
    obtain ⟨c,more,split,leads⟩ := value.head
    have skipped := skip_label before label leads.unspaced (more ++ (after.1 ++ ',' :: (rest.text ++ tail)))
    obtain ⟨d,ds,item,leads'⟩ := label_leads label leads (more ++ (after.1 ++ ',' :: (rest.text ++ tail)))
    exact ⟨d,ds,by simpa [Entries.text,split] using skipped.trans item,leads'⟩

theorem closes_stuck (k : Kind) : k.closes ∈ [',',']','\x7d'] := by cases k <;> decide

theorem judged_refused {α : Type} {within clean : Prop} {v : α} {message : String} (broken : ¬ clean) :
    Judged within clean v (.error (.JSONDecodeError message) : Except PyError α) :=
  ⟨fun _ => ⟨message,rfl⟩,fun c => absurd c broken⟩

theorem judged_exceeded {α : Type} {within clean : Prop} {v : α} (exceeds : ¬ within) :
    Judged within clean v (.error tooDeep : Except PyError α) :=
  ⟨fun w => absurd w exceeds,fun _ ⟨_,same⟩ => by cases same⟩

mutual
/-- The text of a document is read as its value when the document is JSON within the limits
    of the reader. -/
theorem scan_doc (interp : Interpreter) : (d : Doc) → (depth : Nat) → (rest : List Char) → Follows d rest →
    Judged (d.Within depth) d.Clean (d.value interp,rest) (scanOnce interp depth (d.text ++ rest))
  | .null,depth,rest,_ => by
    have read : scanOnce interp depth (Doc.null.text ++ rest) = .ok (.null,rest) := by cases depth <;> rfl
    rw [read]
    exact ⟨trivial,trivial,rfl⟩
  | .bool b,depth,rest,_ => by
    have read : scanOnce interp depth ((Doc.bool b).text ++ rest) = .ok (.bool b,rest) := by
      cases depth <;> cases b <;> rfl
    rw [read]
    exact ⟨by trivial,by trivial,rfl⟩
  | .number n,depth,rest,follows => by
    obtain ⟨r,read,fits,exceeds⟩ := scan_number interp n follows
    rw [Doc.text,scanOnce_number,read,Option.getD_some]
    by_cases within : n.Fits
    · rw [fits within]
      exact ⟨within,trivial,rfl⟩
    · obtain ⟨message,raised⟩ := exceeds within
      rw [raised]
      exact ⟨fun w => absurd w within,fun _ => fun ⟨_,same⟩ => by cases same⟩
  | .string s,depth,rest,_ => by
    rw [Doc.text,scanOnce_string]
    exact ⟨trivial,trivial,rfl⟩
  | .hollow k blank comma,depth,rest,_ => by
    rw [Doc.text,List.cons_append]
    cases depth with
    | zero =>
      rw [opens_exceeds]
      exact judged_exceeded (Nat.lt_irrefl 0)
    | succ depth =>
      rw [opens_descends]
      rcases comma with _ | trail
      · have empty : skipSpace (blank.1 ++ (commaText none ++ [k.closes]) ++ rest) = k.closes :: rest := by
          simp [commaText]
        rw [scanKind_hollow empty]
        exact ⟨Nat.succ_pos depth,rfl,rfl⟩
      · have comma : skipSpace (blank.1 ++ (commaText (some trail) ++ [k.closes]) ++ rest) =
            ',' :: (trail.1 ++ k.closes :: rest) := by
          simp [commaText]
        have other : ',' ≠ k.closes := by cases k <;> decide
        obtain ⟨message,refused⟩ := scanOn_stuck interp depth (List.mem_cons_self (a := ',')) (trail.1 ++ k.closes :: rest) k
          ((',' :: (trail.1 ++ k.closes :: rest)).length + 1) []
        rw [scanKind_full comma other,refused]
        exact judged_refused (Option.some_ne_none trail)
  | .full k entries,depth,rest,_ => by
    rw [Doc.text,List.cons_append]
    cases depth with
    | zero =>
      rw [opens_exceeds]
      exact judged_exceeded fun within => Nat.lt_irrefl 0 within.1
    | succ depth =>
      obtain ⟨c,cs,items,leads⟩ := entries.head (k.closes :: rest)
      have other : c ≠ k.closes := by cases k <;> exact leads.ne (by decide)
      have judged := scan_entries interp entries depth rest _ [] (Nat.lt_succ_self _)
      rw [List.append_assoc,List.singleton_append,opens_descends,scanKind_full items other]
      rw [items] at judged
      exact judged.widen And.right id fun within clean => ⟨⟨Nat.succ_pos depth,within⟩,clean⟩
theorem scan_entries (interp : Interpreter) : {k : Kind} → (entries : Entries k) → (depth : Nat) → (rest : List Char) →
    (fuel : Nat) → (items : List (String × PyVal)) → (skipSpace (entries.text ++ k.closes :: rest)).length < fuel →
    Judged (entries.Within depth) entries.Clean (k.build (items ++ entries.items interp),rest)
      (scanOn (scanOnce interp depth) fuel (skipSpace (entries.text ++ k.closes :: rest)) items k)
  | k,.last before label value after comma,depth,rest,fuel,items,enough => by
    obtain ⟨fuel,rfl⟩ := Nat.exists_eq_succ_of_ne_zero (Nat.ne_of_gt (Nat.zero_lt_of_lt enough))
    obtain ⟨c,more,split,leads⟩ := value.head
    have text : (Entries.last before label value after comma).text ++ k.closes :: rest =
        before.1 ++ (label.text ++ c :: (more ++ (after.1 ++ (commaText comma ++ k.closes :: rest)))) := by
      simp [Entries.text,split]
    have delimits : Delimits (after.1 ++ (commaText comma ++ k.closes :: rest)) := by
      refine delimits_layout after ?_
      rcases comma with _ | trail
      · exact delimits_closes k rest
      · exact delimits_comma _
    have judged := scan_doc interp value depth _ (follows_delimited delimits value)
    rw [split,List.cons_append] at judged
    rw [text,skip_label before label leads.unspaced,scanOn_step label fuel items _ leads.unspaced]
    refine judged.bind id And.left fun within clean => ?_
    rw [skip_layout]
    rcases comma with _ | trail
    · rw [commaText,List.nil_append,skip_closes]
      simp only [scanNext,if_pos]
      exact ⟨within,⟨clean,rfl⟩,rfl⟩
    · rw [commaText,List.cons_append,skip_comma]
      obtain ⟨message,refused⟩ := scanOn_stuck interp depth (closes_stuck k) rest k fuel
        (items ++ [(label.name,value.value interp)])
      have comma : ',' ≠ k.closes := by cases k <;> decide
      rw [scanNext,if_neg comma,if_pos rfl,skip_layout,skip_closes,refused]
      exact judged_refused fun clean => Option.some_ne_none trail clean.2
  | k,.more before label value after others,depth,rest,fuel,items,enough => by
    obtain ⟨fuel,rfl⟩ := Nat.exists_eq_succ_of_ne_zero (Nat.ne_of_gt (Nat.zero_lt_of_lt enough))
    obtain ⟨c,more,split,leads⟩ := value.head
    have text : (Entries.more before label value after others).text ++ k.closes :: rest =
        before.1 ++ (label.text ++ c :: (more ++ (after.1 ++ ',' :: (others.text ++ k.closes :: rest)))) := by
      simp [Entries.text,split]
    have fewer : (skipSpace (others.text ++ k.closes :: rest)).length < fuel := by
      have shorter : (skipSpace (others.text ++ k.closes :: rest)).length ≤ (others.text ++ k.closes :: rest).length :=
        (List.dropWhile_sublist jsonSpace).length_le
      rw [text,skip_label before label leads.unspaced] at enough
      simp only [List.length_append,List.length_cons] at enough shorter
      omega
    have judged := scan_doc interp value depth _ (follows_delimited (delimits_layout after (delimits_comma
      (others.text ++ k.closes :: rest))) value)
    rw [split,List.cons_append] at judged
    rw [text,skip_label before label leads.unspaced,scanOn_step label fuel items _ leads.unspaced]
    refine judged.bind And.left And.left fun within clean => ?_
    have comma : ',' ≠ k.closes := by cases k <;> decide
    rw [skip_layout,skip_comma,scanNext,if_neg comma,if_pos rfl]
    have onward := scan_entries interp others depth rest fuel (items ++ [(label.name,value.value interp)]) fewer
    rw [List.append_assoc,List.singleton_append] at onward
    exact onward.widen And.right And.right fun within' clean' => ⟨⟨within,within'⟩,clean,clean'⟩
end

end HexAgent.Documents
