import HexAgent.Rendering
import HexAgent.Rows
import Std.Data.String.ToInt

/-!
The text of a JSON value character by character: which texts the parts of a value have, and where
they end.
-/
namespace HexAgent.Writing
open HexAgent.Values HexAgent.Json HexAgent.Rendering Quotes Rows

/-! ### Literals -/

/-- The literal of a string. -/
def literal (s : String) : List Char := '\"' :: (s.toList.flatMap dumpChar ++ ['\"'])

theorem hexValue_hexDigit : ∀ n : Fin 16, hexValue (hexDigit n) = some n := by decide

/-- The character at the beginning of what a literal holds. -/
def unquote : List Char → Option (Char × List Char)
  | '\\' :: rest => escape rest
  | c :: rest => some (c,rest)
  | [] => none

theorem control_code {n : Nat} (control : n < 32) (rest : List Char) :
    hexCode ('0' :: '0' :: hexDigit (n / 16) :: hexDigit (n % 16) :: rest) = some (n,rest) := by
  have high : hexValue (hexDigit (n / 16)) = some (n / 16) := hexValue_hexDigit ⟨n / 16,by omega⟩
  have low : hexValue (hexDigit (n % 16)) = some (n % 16) := hexValue_hexDigit ⟨n % 16,by omega⟩
  have sum : ((0 * 16 + 0) * 16 + n / 16) * 16 + n % 16 = n := by omega
  have zero : hexValue '0' = some 0 := by decide
  rw [hexCode,zero,high,low]
  exact congrArg (fun n => some (n,rest)) sum

/-- What is written of a character reads back, whatever comes after it. -/
theorem unquote_dumpChar (c : Char) (rest : List Char) : unquote (dumpChar c ++ rest) = some (c,rest) := by
  unfold dumpChar
  split_ifs with quoted newline return_ tab feed back control
  · rcases quoted with rfl | rfl <;> rfl
  · subst newline; rfl
  · subst return_; rfl
  · subst tab; rfl
  · rw [← Char.ofNat_toNat c,feed]; rfl
  · rw [← Char.ofNat_toNat c,back]; rfl
  · have low : ¬ (0xd800 ≤ c.toNat ∧ c.toNat ≤ 0xdbff) := by omega
    have high : ¬ (0xdc00 ≤ c.toNat ∧ c.toNat ≤ 0xdfff) := by omega
    show unicodeEscape ('0' :: '0' :: hexDigit (c.toNat / 16) :: hexDigit (c.toNat % 16) :: rest) = _
    unfold unicodeEscape
    rw [control_code control]
    simp only [Option.bind_eq_bind,Option.bind_some,if_neg low,if_neg high,Char.ofNat_toNat]
  · have apart : c ≠ '\\' := fun same => quoted (.inr same)
    show unquote (c :: rest) = _
    unfold unquote
    split
    · next same => exact (apart (List.cons.inj same).1).elim
    · next same => rw [(List.cons.inj same).1,(List.cons.inj same).2]
    · next same => cases same

/-- No character is written with a quote at its beginning. -/
theorem dumpChar_starts (c : Char) : ∃ d rest, dumpChar c = d :: rest ∧ d ≠ '\"' := by
  unfold dumpChar
  split_ifs with quoted
  all_goals first | exact ⟨_,_,rfl,by decide⟩ | exact ⟨_,_,rfl,fun same => quoted (.inl same)⟩

theorem literal_told {s s' : String} {x y : List Char} (same : literal s ++ x = literal s' ++ y) : s = s' ∧ x = y := by
  have chars : ∀ cs ds : List Char, cs.flatMap dumpChar ++ '\"' :: x = ds.flatMap dumpChar ++ '\"' :: y → cs = ds ∧
    x = y := by
    intro cs
    induction cs with
    | nil =>
      rintro (- | ⟨d,ds⟩) same
      · exact ⟨rfl,(List.cons.inj same).2⟩
      · obtain ⟨e,rest,spelled,apart⟩ := dumpChar_starts d
        rw [List.flatMap_cons,spelled] at same
        exact (apart (List.cons.inj same).1.symm).elim
    | cons c cs ih =>
      rintro (- | ⟨d,ds⟩) same
      · obtain ⟨e,rest,spelled,apart⟩ := dumpChar_starts c
        rw [List.flatMap_cons,spelled] at same
        exact (apart (List.cons.inj same).1).elim
      · rw [List.flatMap_cons,List.flatMap_cons,List.append_assoc,List.append_assoc] at same
        have read := congrArg unquote same
        rw [unquote_dumpChar,unquote_dumpChar] at read
        obtain ⟨rfl,remaining⟩ := Prod.mk.inj (Option.some.inj read)
        obtain ⟨rfl,after⟩ := ih ds remaining
        exact ⟨rfl,after⟩
  simp only [literal,List.cons_append,List.append_assoc,List.nil_append,List.cons.injEq,true_and] at same
  obtain ⟨spelled,after⟩ := chars _ _ same
  exact ⟨String.toList_inj.mp spelled,after⟩

/-! ### Words and numbers -/

/-- The characters that end a value. -/
def stops : List Char := [',',']','\x7d']

/-- The characters that no word and no number has. -/
def special : List Char := stops ++ ['\"','\\',':','[','\x7b',' ']

/-- What is tested of each character of a list. -/
theorem of_all {P : Char → Prop} [DecidablePred P] {cs : List Char} (all : (cs.all fun c => decide (P c)) = true) :
    ∀ c ∈ cs, P c :=
  fun c inside => of_decide_eq_true (List.all_eq_true.mp all c inside)

theorem digit_plain {c : Char} (digit : c.isDigit = true) : c ∉ special := by
  have none : ∀ d ∈ special, d.isDigit = false := of_all (by decide)
  intro inside
  rw [none c inside] at digit
  cases digit

/-- The text of an integer: digits after a sign. -/
theorem integer_chars (i : Int) : ∀ c ∈ (toString i).toList, c.isDigit = true ∨ c = '-' := by
  intro c inside
  cases i with
  | ofNat n => exact .inl (Nat.isDigit_of_mem_toDigits (by decide) (by decide) (Nat.toList_repr ▸ inside))
  | negSucc n =>
    have spelled : (toString (Int.negSucc n)).toList = '-' :: (Nat.repr (n + 1)).toList := String.toList_append
    rw [spelled] at inside
    rcases List.mem_cons.mp inside with rfl | inside
    · exact .inr rfl
    · exact .inl (Nat.isDigit_of_mem_toDigits (by decide) (by decide) (Nat.toList_repr ▸ inside))

theorem integer_starts (i : Int) : (toString i).toList ≠ [] := by
  cases i with
  | ofNat n => exact fun empty => Nat.toDigits_ne_nil (Nat.toList_repr ▸ empty)
  | negSucc n =>
    have spelled : (toString (Int.negSucc n)).toList = '-' :: (Nat.repr (n + 1)).toList := String.toList_append
    rw [spelled]
    exact List.cons_ne_nil _ _

/-- The text of a float read back. -/
def undump (text : String) : String :=
  if text = "NaN" then "nan" else if text = "Infinity" then "inf" else if text = "-Infinity" then "-inf" else text

section
variable {float : String → PyFloat}

theorem numeral_word {text word : String} (numeral : Numeral text.toList)
    (named : word ∈ ["nan","inf","-inf","NaN","Infinity","-Infinity"]) : text ≠ word := by
  have letters : ∀ word ∈ ["nan","inf","-inf","NaN","Infinity","-Infinity"], 'n' ∈ word.toList ∨ 'N' ∈ word.toList := by
    decide
  rintro rfl
  rcases letters text named with inside | inside
  · exact absurd (numeral.made 'n' inside) (by decide)
  · exact absurd (numeral.made 'N' inside) (by decide)

/-- The text of a float: a word that stands for it, or its own. -/
theorem float_spelled {x : PyFloat} (standard : Standard float x) :
    (x.text,dumpFloat x) ∈ [("nan","NaN"),("inf","Infinity"),("-inf","-Infinity")] ∨
      dumpFloat x = x.text ∧ Numeral x.text.toList := by
  unfold dumpFloat
  rcases standard.spelled with word | numeral
  · simp only [List.mem_cons,List.not_mem_nil,or_false] at word
    rcases word with same | same | same <;> rw [same] <;> exact .inl (by decide)
  · rw [if_neg (numeral_word numeral (by decide)),if_neg (numeral_word numeral (by decide)),
      if_neg (numeral_word numeral (by decide))]
    exact .inr ⟨rfl,numeral⟩

theorem undump_dumpFloat {x : PyFloat} (standard : Standard float x) : undump (dumpFloat x) = x.text := by
  rcases float_spelled standard with word | ⟨same,numeral⟩
  · have back : ∀ pair ∈ [("nan","NaN"),("inf","Infinity"),("-inf","-Infinity")], undump pair.2 = pair.1 := by decide
    exact back _ word
  · rw [same,undump,if_neg (numeral_word numeral (by decide)),if_neg (numeral_word numeral (by decide)),
      if_neg (numeral_word numeral (by decide))]

/-- Floats with one text are one float. -/
theorem dumpFloat_inj {x y : PyFloat} (standard : Standard float x) (standard' : Standard float y)
    (same : dumpFloat x = dumpFloat y) : x = y := by
  have text : x.text = y.text := by rw [← undump_dumpFloat standard,same,undump_dumpFloat standard']
  rw [← standard.back,text,standard'.back]

/-- The characters of a float: those of a number, or letters. -/
theorem float_plain {x : PyFloat} (standard : Standard float x) : ∀ c ∈ (dumpFloat x).toList, c ∉ special := by
  intro c inside
  rcases float_spelled standard with word | ⟨same,numeral⟩
  · have plain : ∀ pair ∈ [("nan","NaN"),("inf","Infinity"),("-inf","-Infinity")],
        (pair.2.toList.all fun c => decide (c ∉ special)) = true := by decide
    exact of_all (plain _ word) c inside
  · rw [same] at inside
    have signs : ∀ c ∈ ['-','+','.','e'], c ∉ special := of_all (by decide)
    exact (numeral.made c inside).elim digit_plain (signs c)

theorem float_starts {x : PyFloat} (standard : Standard float x) :
    ∃ c rest, (dumpFloat x).toList = c :: rest ∧ (c.isDigit = true ∨ c ∈ ['-','N','I']) := by
  rcases float_spelled standard with word | ⟨same,numeral⟩
  · have heads : ∀ pair ∈ [("nan","NaN"),("inf","Infinity"),("-inf","-Infinity")],
        pair.2.toList.head? ∈ ['-','N','I'].map some := by decide
    obtain ⟨c,mark,head⟩ := List.mem_map.mp (heads _ word)
    obtain ⟨rest,spelled⟩ := List.head?_eq_some_iff.mp head.symm
    exact ⟨c,rest,spelled,.inr mark⟩
  · obtain ⟨c,rest,spelled,start⟩ := numeral.starts
    refine ⟨c,rest,same ▸ spelled,start.imp id ?_⟩
    rintro rfl
    decide

/-- A float has a character that no integer has. -/
theorem float_marked {x : PyFloat} (standard : Standard float x) :
    ∃ c ∈ (dumpFloat x).toList, ¬ (c.isDigit = true ∨ c = '-') := by
  rcases float_spelled standard with word | ⟨same,numeral⟩
  · have marks : ∀ pair ∈ [("nan","NaN"),("inf","Infinity"),("-inf","-Infinity")],
        'N' ∈ pair.2.toList ∨ 'I' ∈ pair.2.toList := by decide
    rcases marks _ word with inside | inside
    · exact ⟨'N',inside,by decide⟩
    · exact ⟨'I',inside,by decide⟩
  · rcases numeral.fractional with point | power
    · exact ⟨'.',same ▸ point,by decide⟩
    · exact ⟨'e',same ▸ power,by decide⟩

end

/-! ### Values -/

mutual
/-- The text of a value whose keys are in order. -/
def write : PyVal → List Char
  | .null => "null".toList
  | .bool b => (if b then "true" else "false").toList
  | .int i => (toString i).toList
  | .float x => (dumpFloat x).toList
  | .str s => literal s
  | .list items => '[' :: ([',',' '].intercalate (writeItems items) ++ [']'])
  | .dict fields => '\x7b' :: ([',',' '].intercalate (writeFields fields) ++ ['\x7d'])
  | .tuple _ | .object _ => []
def writeItems : List PyVal → List (List Char)
  | [] => []
  | item :: rest => write item :: writeItems rest
def writeFields : List (String × PyVal) → List (List Char)
  | [] => []
  | (k,v) :: rest => (literal k ++ ':' :: ' ' :: write v) :: writeFields rest
end

/-- The text of a member of an object. -/
def member (field : String × PyVal) : List Char := literal field.1 ++ ':' :: ' ' :: write field.2

theorem writeItems_eq (items : List PyVal) : writeItems items = items.map write := by
  induction items with
  | nil => rfl
  | cons item rest ih => rw [writeItems,ih,List.map_cons]

theorem writeFields_eq (fields : Fields) : writeFields fields = fields.map member := by
  induction fields with
  | nil => rfl
  | cons field rest ih =>
    obtain ⟨k,v⟩ := field
    rw [writeFields,ih,List.map_cons,member]

/-- A value whose text is a word or a number. -/
def Bare : PyVal → Prop
  | .null | .bool _ | .int _ | .float _ => True
  | _ => False

section
variable {float : String → PyFloat}

theorem bare_plain {v : PyVal} (json : IsJson float v) (bare : Bare v) : ∀ c ∈ write v, c ∉ special := by
  cases v with
  | null => exact @of_all _ _ (write .null) (by decide)
  | bool b => cases b <;> exact of_all (by decide)
  | int i =>
    intro c inside
    rw [write] at inside
    rcases integer_chars i c inside with digit | rfl
    · exact digit_plain digit
    · decide
  | float x => rw [write]; exact float_plain json
  | _ => exact bare.elim

theorem number_starts {v : PyVal} (json : IsJson float v) (number : (∃ i, v = .int i) ∨ ∃ x, v = .float x) :
    ∃ c rest, write v = c :: rest ∧ (c.isDigit = true ∨ c ∈ ['-','N','I']) := by
  rcases number with ⟨i,rfl⟩ | ⟨x,rfl⟩
  · obtain ⟨c,rest,spelled⟩ := List.exists_cons_of_ne_nil (integer_starts i)
    refine ⟨c,rest,spelled,?_⟩
    rcases integer_chars i c (spelled ▸ List.mem_cons_self ..) with digit | rfl
    · exact .inl digit
    · exact .inr (by decide)
  · exact float_starts json

/-- A number is not written like a word. -/
theorem number_not_word {v w : PyVal} (json : IsJson float v) (number : (∃ i, v = .int i) ∨ ∃ x, v = .float x)
    (word : w = .null ∨ ∃ b, w = .bool b) : write v ≠ write w := by
  obtain ⟨c,rest,spelled,start⟩ := number_starts json number
  have none : ∀ d ∈ ['n','t','f'], ¬ (d.isDigit = true ∨ d ∈ ['-','N','I']) := of_all (by decide)
  have letter : ∃ d more, write w = d :: more ∧ d ∈ ['n','t','f'] := by
    rcases word with rfl | ⟨- | -,rfl⟩ <;> exact ⟨_,_,rfl,by decide⟩
  obtain ⟨d,more,spelled',letter⟩ := letter
  rw [spelled,spelled']
  intro same
  exact none d letter ((List.cons.inj same).1 ▸ start)

theorem integer_not_float {i : Int} {x : PyFloat} (standard : Standard float x) : write (.int i) ≠ write (.float x) :=
    by
  obtain ⟨c,inside,mark⟩ := float_marked standard
  intro same
  rw [write,write] at same
  exact mark (integer_chars i c (same ▸ inside))

/-- A word or a number is known by its text. -/
theorem bare_inj {v w : PyVal} (json : IsJson float v) (json' : IsJson float w) (bare : Bare v) (bare' : Bare w)
    (same : write v = write w) : v = w := by
  cases v with
  | null =>
    cases w with
    | null => rfl
    | bool c => cases c <;> exact absurd same (by decide)
    | int j => exact (number_not_word json' (.inl ⟨j,rfl⟩) (.inl rfl) same.symm).elim
    | float y => exact (number_not_word json' (.inr ⟨y,rfl⟩) (.inl rfl) same.symm).elim
    | _ => exact bare'.elim
  | bool b =>
    cases w with
    | null => cases b <;> exact absurd same (by decide)
    | bool c => cases b <;> cases c <;> first | rfl | exact absurd same (by decide)
    | int j => exact (number_not_word json' (.inl ⟨j,rfl⟩) (.inr ⟨b,rfl⟩) same.symm).elim
    | float y => exact (number_not_word json' (.inr ⟨y,rfl⟩) (.inr ⟨b,rfl⟩) same.symm).elim
    | _ => exact bare'.elim
  | int i =>
    cases w with
    | null => exact (number_not_word json (.inl ⟨i,rfl⟩) (.inl rfl) same).elim
    | bool c => exact (number_not_word json (.inl ⟨i,rfl⟩) (.inr ⟨c,rfl⟩) same).elim
    | int j => rw [Int.repr_injective (String.toList_inj.mp same)]
    | float y => exact (integer_not_float json' same).elim
    | _ => exact bare'.elim
  | float x =>
    cases w with
    | null => exact (number_not_word json (.inr ⟨x,rfl⟩) (.inl rfl) same).elim
    | bool c => exact (number_not_word json (.inr ⟨x,rfl⟩) (.inr ⟨c,rfl⟩) same).elim
    | int j => exact (integer_not_float json same.symm).elim
    | float y => rw [dumpFloat_inj json json' (String.toList_inj.mp same)]
    | _ => exact bare'.elim
  | _ => exact bare.elim

/-! ### Where a text ends -/

/-- The quote or the bracket that a value begins with. -/
def opening : PyVal → Option Char
  | .str _ => some '\"'
  | .list _ => some '['
  | .dict _ => some '\x7b'
  | _ => none

theorem bare_of_opening {v : PyVal} (json : IsJson float v) (none : opening v = none) : Bare v := by
  cases v with
  | str _ | list _ | dict _ => cases none
  | tuple _ | object _ => exact json.elim
  | _ => trivial

theorem write_starts {v : PyVal} (json : IsJson float v) :
    ∃ c rest, write v = c :: rest ∧ (opening v = some c ∨ opening v = none ∧ c ∉ special) := by
  cases v with
  | str _ | list _ | dict _ => rw [write]; exact ⟨_,_,rfl,.inl rfl⟩
  | tuple _ | object _ => exact json.elim
  | null => exact ⟨_,_,rfl,.inr ⟨rfl,by decide⟩⟩
  | bool b => cases b <;> exact ⟨_,_,rfl,.inr ⟨rfl,by decide⟩⟩
  | int i =>
    obtain ⟨c,rest,spelled,_⟩ := number_starts (v := .int i) json (.inl ⟨i,rfl⟩)
    exact ⟨c,rest,spelled,.inr ⟨rfl,bare_plain (v := .int i) json trivial c (spelled ▸ List.mem_cons_self ..)⟩⟩
  | float x =>
    obtain ⟨c,rest,spelled,_⟩ := number_starts json (.inr ⟨x,rfl⟩)
    exact ⟨c,rest,spelled,.inr ⟨rfl,bare_plain json trivial c (spelled ▸ List.mem_cons_self ..)⟩⟩

theorem opening_special {v : PyVal} {c : Char} (opened : opening v = some c) : c ∈ special ∧
    c ∉ [',',']','\x7d',' '] := by
  cases v with
  | str _ | list _ | dict _ => cases opened; decide
  | _ => cases opened

/-- Values of different kinds begin differently. -/
theorem opening_eq {v w : PyVal} {s t : List Char} (json : IsJson float v) (json' : IsJson float w)
    (same : write v ++ s = write w ++ t) : opening v = opening w := by
  obtain ⟨c,rest,spelled,kind⟩ := write_starts json
  obtain ⟨d,more,spelled',kind'⟩ := write_starts json'
  rw [spelled,spelled'] at same
  obtain rfl : c = d := (List.cons.inj same).1
  rcases kind with opened | ⟨bare,plain⟩ <;> rcases kind' with opened' | ⟨bare',plain'⟩
  · rw [opened,opened']
  · exact (plain' (opening_special opened).1).elim
  · exact (plain (opening_special opened').1).elim
  · rw [bare,bare']

/-- A value begins neither with a space nor with a separator or a closing bracket. -/
theorem write_head {v : PyVal} (json : IsJson float v) :
    ∃ c rest, write v = c :: rest ∧ c ∉ [',',']','\x7d',' '] := by
  obtain ⟨c,rest,spelled,opened | ⟨-,plain⟩⟩ := write_starts json
  · exact ⟨c,rest,spelled,(opening_special opened).2⟩
  · have covered : ∀ d ∈ [',',']','\x7d',' '], d ∈ special := of_all (by decide)
    exact ⟨c,rest,spelled,fun inside => plain (covered c inside)⟩

theorem write_open {v : PyVal} (json : IsJson float v) : ∃ c rest, write v = c :: rest ∧ c ≠ ']' := by
  obtain ⟨c,rest,spelled,plain⟩ := write_head json
  refine ⟨c,rest,spelled,?_⟩
  rintro rfl
  exact plain (by decide)

theorem fieldsJson_mem {fields : Fields} : FieldsJson float fields ↔ ∀ field ∈ fields, IsJson float field.2 := by
  induction fields with
  | nil => simp [FieldsJson]
  | cons field rest ih =>
    obtain ⟨k,v⟩ := field
    rw [FieldsJson,ih,List.forall_mem_cons]

theorem allJson_mem {items : List PyVal} : AllJson float items ↔ ∀ item ∈ items, IsJson float item := by
  induction items with
  | nil => simp [AllJson]
  | cons item rest ih => rw [AllJson,ih,List.forall_mem_cons]

theorem member_told {field : String × PyVal} (told : Told stops (IsJson float) write field.2) :
    Told stops (fun field => IsJson float field.2) member field := by
  rintro ⟨k',w⟩ json s t ends ends' same
  rw [member,member,List.append_assoc,List.append_assoc] at same
  obtain ⟨name,rest⟩ := literal_told same
  obtain ⟨value,after⟩ := told w json s t ends ends' (List.cons.inj (List.cons.inj rest).2).2
  exact ⟨Prod.ext name value,after⟩

mutual
/-- A value is known by its text, and so is where it ends. -/
theorem write_told : ∀ v : PyVal, IsJson float v → Told stops (IsJson float) write v
  | .str x,json => by
    intro w json' s t ends ends' same
    have kind := opening_eq json json' same
    cases w with
    | str y =>
      rw [write,write] at same
      obtain ⟨rfl,after⟩ := literal_told same
      exact ⟨rfl,after⟩
    | _ => cases kind
  | .list items,json => by
    intro w json' s t ends ends' same
    have kind := opening_eq json json' same
    cases w with
    | list others =>
      rw [write,write,writeItems_eq,writeItems_eq,List.cons_append,List.cons_append,List.append_assoc,
        List.append_assoc] at same
      obtain ⟨rfl,after⟩ := row_told (by decide) (by decide) (by decide) (fun _ => write_open)
        (all_told items json) (allJson_mem.mp json) (allJson_mem.mp json') (List.cons.inj same).2
      exact ⟨rfl,after⟩
    | _ => cases kind
  | .dict fields,json => by
    intro w json' s t ends ends' same
    have kind := opening_eq json json' same
    cases w with
    | dict others =>
      rw [write,write,writeFields_eq,writeFields_eq,List.cons_append,List.cons_append,List.append_assoc,
        List.append_assoc] at same
      obtain ⟨rfl,after⟩ := row_told (by decide) (by decide) (by decide) (fun a known => ⟨_,_,rfl,by decide⟩)
        (members_told fields json.2) (fieldsJson_mem.mp json.2) (fieldsJson_mem.mp json'.2) (List.cons.inj same).2
      exact ⟨rfl,after⟩
    | _ => cases kind
  | .null,json | .bool _,json | .int _,json | .float _,json => by
    intro w json' s t ends ends' same
    have bare' : Bare w := bare_of_opening json' (opening_eq json json' same).symm
    have free {v : PyVal} (json : IsJson float v) (bare : Bare v) : ∀ c ∈ write v, c ∉ stops :=
      fun c inside stop => bare_plain json bare c inside (List.mem_append_left _ stop)
    obtain ⟨text,after⟩ := run_ends (free json trivial) (free json' bare') ends ends' same
    exact ⟨bare_inj json json' trivial bare' text,after⟩
  | .tuple _,json | .object _,json => json.elim
theorem all_told : ∀ items : List PyVal, AllJson float items → ∀ item ∈ items, Told stops (IsJson float) write item
  | [],_ => fun _ inside => absurd inside List.not_mem_nil
  | item :: rest,json => List.forall_mem_cons.mpr ⟨write_told item json.1,all_told rest json.2⟩
theorem members_told : ∀ fields : Fields, FieldsJson float fields →
    ∀ field ∈ fields, Told stops (fun field => IsJson float field.2) member field
  | [],_ => fun _ inside => absurd inside List.not_mem_nil
  | (_,v) :: rest,json =>
    List.forall_mem_cons.mpr ⟨member_told (write_told v json.1),members_told rest json.2⟩
end

end

/-! ### The quotes of a text -/

theorem reads_plain {cs : List Char} (plain : ∀ c ∈ cs, c ∉ special) : reads .outside cs = some .outside := by
  induction cs with
  | nil => rfl
  | cons c cs ih =>
    obtain ⟨first,rest⟩ := List.forall_mem_cons.mp plain
    have quote : c ≠ '\"' := fun same => first (same ▸ by decide)
    have backslash : c ≠ '\\' := fun same => first (same ▸ by decide)
    have colon : c ≠ ':' := fun same => first (same ▸ by decide)
    rw [reads,step,if_neg quote,if_neg backslash,if_neg colon]
    exact ih rest

theorem hexDigit_inside : ∀ n : Fin 16, step .inside (hexDigit n) = some .inside := by decide

/-- What is written of a character leaves a reader inside of the string. -/
theorem reads_dumpChar (c : Char) : reads .inside (dumpChar c) = some .inside := by
  unfold dumpChar
  split_ifs with quoted newline return_ tab feed back control
  · rcases quoted with rfl | rfl <;> rfl
  · rfl
  · rfl
  · rfl
  · rfl
  · rfl
  · have high : step .inside (hexDigit (c.toNat / 16)) = some .inside := hexDigit_inside ⟨c.toNat / 16,by omega⟩
    have low : step .inside (hexDigit (c.toNat % 16)) = some .inside := hexDigit_inside ⟨c.toNat % 16,by omega⟩
    show reads .inside ([hexDigit (c.toNat / 16)] ++ [hexDigit (c.toNat % 16)]) = _
    rw [reads_through (n := .inside),reads,low]
    · rfl
    · rw [reads,high]
      rfl
  · have quote : c ≠ '\"' := fun same => quoted (.inl same)
    have backslash : c ≠ '\\' := fun same => quoted (.inr same)
    rw [reads,step,if_neg quote,if_neg backslash]
    rfl

theorem reads_literal (s : String) : reads .outside (literal s) = some .outside := by
  have chars : ∀ cs : List Char, reads .inside (cs.flatMap dumpChar) = some .inside := by
    intro cs
    induction cs with
    | nil => rfl
    | cons c cs ih => rw [List.flatMap_cons,reads_through (reads_dumpChar c),ih]
  show reads .inside (s.toList.flatMap dumpChar ++ ['\"']) = _
  rw [reads_through (chars s.toList)]
  rfl

/-- Texts with a comma and a space between them. -/
theorem reads_row {texts : List (List Char)} (each : ∀ text ∈ texts, reads .outside text = some .outside) :
    reads .outside ([',',' '].intercalate texts) = some .outside := by
  cases texts with
  | nil => rfl
  | cons text rest =>
    obtain ⟨first,others⟩ := List.forall_mem_cons.mp each
    rw [intercalate_cons,reads_through first]
    clear each first
    induction rest with
    | nil => rfl
    | cons next rest ih =>
      obtain ⟨first,others⟩ := List.forall_mem_cons.mp others
      rw [List.flatMap_cons,List.append_assoc]
      show reads .outside (next ++ _) = _
      rw [reads_through first]
      exact ih others

section
variable {float : String → PyFloat}

mutual
/-- The text of a value leaves a reader outside of strings. -/
theorem write_reads : ∀ v : PyVal, IsJson float v → reads .outside (write v) = some .outside
  | .str x,_ => reads_literal x
  | .list items,json => by
    show reads .outside ([',',' '].intercalate (writeItems items) ++ [']']) = _
    rw [writeItems_eq,reads_through (reads_row (List.forall_mem_map.mpr (all_reads items json)))]
    rfl
  | .dict fields,json => by
    show reads .outside ([',',' '].intercalate (writeFields fields) ++ ['\x7d']) = _
    rw [writeFields_eq,reads_through (reads_row (List.forall_mem_map.mpr (members_read fields json.2)))]
    rfl
  | .null,json | .bool _,json | .int _,json | .float _,json => reads_plain (bare_plain json trivial)
  | .tuple _,json | .object _,json => json.elim
theorem all_reads : ∀ items : List PyVal, AllJson float items →
    ∀ item ∈ items, reads .outside (write item) = some .outside
  | [],_ => fun _ inside => absurd inside List.not_mem_nil
  | item :: rest,json => List.forall_mem_cons.mpr ⟨write_reads item json.1,all_reads rest json.2⟩
theorem members_read : ∀ fields : Fields, FieldsJson float fields →
    ∀ field ∈ fields, reads .outside (member field) = some .outside
  | [],_ => fun _ inside => absurd inside List.not_mem_nil
  | (k,v) :: rest,json => by
    refine List.forall_mem_cons.mpr ⟨?_,members_read rest json.2⟩
    rw [member,reads_through (reads_literal k)]
    exact write_reads v json.1
end

theorem write_complete {v : PyVal} (json : IsJson float v) : Complete (write v) := by
  obtain ⟨c,rest,spelled,plain⟩ := write_head json
  refine ⟨write_reads v json,?_⟩
  rw [spelled]
  intro space
  obtain rfl : c = ' ' := Option.some.inj space
  exact plain (by decide)

end
/-! ### What `dumps` writes -/

section
variable {float : String → PyFloat}

mutual
theorem canon_json : ∀ v : PyVal, IsJson float v → IsJson float (canon v)
  | .list items,json => canonItems_json items json
  | .dict fields,json => by
    have keys : ((sortFields (canonFields fields)).map Prod.fst).Nodup := by
      rw [((sortFields_perm _).map Prod.fst).nodup_iff,canon_keys]
      exact json.1
    have values := fieldsJson_mem.mp (canonFields_json fields json.2)
    exact ⟨keys,fieldsJson_mem.mpr fun field inside => values field ((sortFields_perm _).mem_iff.mp inside)⟩
  | .null,json | .bool _,json | .int _,json | .float _,json | .str _,json | .tuple _,json | .object _,json => json
theorem canonItems_json : ∀ items : List PyVal, AllJson float items → AllJson float (canonItems items)
  | [],json => json
  | item :: rest,json => ⟨canon_json item json.1,canonItems_json rest json.2⟩
theorem canonFields_json : ∀ fields : Fields, FieldsJson float fields → FieldsJson float (canonFields fields)
  | [],json => json
  | (_,v) :: rest,json => ⟨canon_json v json.1,canonFields_json rest json.2⟩
end

end

/-- Texts are put together as their characters are. -/
theorem join_toList (texts : List (List Char)) :
    (join ", " (texts.map String.ofList)).toList = [',',' '].intercalate texts := by
  have back : String.toList ∘ String.ofList = id := funext fun _ => String.toList_ofList
  rw [join,String.toList_intercalate,List.map_map,back,List.map_id]
  rfl

theorem bracketed (opens closes : Char) (texts : List (List Char)) :
    String.ofList [opens] ++ join ", " (texts.map String.ofList) ++ String.ofList [closes] =
      String.ofList (opens :: ([',',' '].intercalate texts ++ [closes])) := by
  rw [← String.toList_inj,String.toList_append,String.toList_append,join_toList,String.toList_ofList,
    String.toList_ofList,String.toList_ofList,List.append_assoc,List.singleton_append]

theorem member_text (field : String × PyVal) :
    dumpText field.1 ++ ": " ++ String.ofList (write field.2) = String.ofList (member field) := by
  rw [← String.toList_inj,String.toList_append,String.toList_append,dumpText,String.toList_ofList,
    String.toList_ofList,String.toList_ofList,String.toList_ofList,member,literal,List.append_assoc]
  rfl

mutual
/-- `json.dumps` with sorted keys writes the value in its canonical order. -/
theorem dumps_write : ∀ v : PyVal, Tidy v → dumps v = .ok (String.ofList (write (canon v)))
  | .list items,tidy => by
    rw [dumps,dumpItems_write items tidy,canon,write,writeItems_eq,← List.map_map]
    exact congrArg Except.ok (bracketed '[' ']' _)
  | .dict fields,tidy => by
    have sorted : ((canonFields fields).map fun field => (field.1,String.ofList (write field.2))).insertionSort
        (fun a b => a.1 ≤ b.1) =
          (sortFields (canonFields fields)).map fun field => (field.1,String.ofList (write field.2)) := by
      symm
      exact List.map_insertionSort _ _ _ _ fun a _ b _ => Iff.rfl
    have texts : ((sortFields (canonFields fields)).map fun field => (field.1,String.ofList (write field.2))).map
        (fun member => dumpText member.1 ++ ": " ++ member.2) =
          ((sortFields (canonFields fields)).map member).map String.ofList := by
      rw [List.map_map,List.map_map]
      exact List.map_congr_left fun field _ => member_text field
    rw [dumps,dumpFields_write fields tidy.2,canon,write,writeFields_eq]
    simp only [Except.map,sorted,texts]
    exact congrArg Except.ok (bracketed '\x7b' '\x7d' _)
  | .null,_ => rfl
  | .bool b,_ => by cases b <;> rfl
  | .int i,_ => congrArg Except.ok String.ofList_toList.symm
  | .float x,_ => congrArg Except.ok String.ofList_toList.symm
  | .str _,_ => rfl
  | .tuple _,tidy | .object _,tidy => tidy.elim
theorem dumpItems_write : ∀ items : List PyVal, AllTidy items →
    dumpItems items = .ok ((canonItems items).map (String.ofList ∘ write))
  | [],_ => rfl
  | item :: rest,tidy => by
    rw [dumpItems,dumps_write item tidy.1,dumpItems_write rest tidy.2]
    rfl
theorem dumpFields_write : ∀ fields : Fields, FieldsTidy fields →
    dumpFields fields = .ok ((canonFields fields).map fun field => (field.1,String.ofList (write field.2)))
  | [],_ => rfl
  | (_,v) :: rest,tidy => by
    rw [dumpFields,dumps_write v tidy.1,dumpFields_write rest tidy.2]
    rfl
end

end HexAgent.Writing
