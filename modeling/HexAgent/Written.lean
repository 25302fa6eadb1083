import HexAgent.Broken
import HexAgent.Writing

/-!
What the JSON writer spells is read back by the JSON reader. A value is written as a document,
character by character and level by level, in either spelling of its texts, and the document means
what the value becomes on its way through JSON. So the text is read as that value, unless the value
exceeds the limits of the reader.
-/
namespace HexAgent.Written
open HexAgent.Values HexAgent.Json HexAgent.Documents HexAgent.Broken Dicts
open HexAgent.Writing hiding writeItems writeFields

/-! ### Texts -/

/-- Each character is spelled by pieces of a literal that mean it, whatever comes behind them. -/
def Spells (spell : Char → List Char) : Prop :=
  ∀ c, ∃ l : Literal, l.body = spell c ∧ ∀ rest : Literal, Literal.decode (l ++ rest) = c :: rest.decode

/-- A hexadecimal digit. -/
def hexOf (n : Fin 16) : Hex := ⟨hexDigit n,by rw [hexValue_hexDigit]; rfl⟩

theorem hexOf_value (n : Fin 16) : (hexOf n).value = n := by
  have given := hexValue_hexDigit n
  simp [Hex.value,hexOf,given]

/-- The code of a number below 65536. -/
def codeOf (n : Nat) : Code :=
  ⟨hexOf ⟨n / 4096 % 16,by omega⟩,hexOf ⟨n / 256 % 16,by omega⟩,hexOf ⟨n / 16 % 16,by omega⟩,hexOf ⟨n % 16,by omega⟩⟩

theorem codeOf_value {n : Nat} (small : n < 0x10000) : (codeOf n).value = n := by
  simp only [Code.value,codeOf,hexOf_value]
  omega

/-- A code that is no high surrogate stands for itself. -/
theorem decode_code {u : Code} (alone : ¬ u.high) (rest : Literal) :
    Literal.decode (.code u :: rest) = u.char :: rest.decode := by
  cases rest with
  | nil => rfl
  | cons piece rest =>
    cases piece with
    | plain c itself => rfl
    | short e known => rfl
    | code v => rw [Literal.decode,if_neg fun pair => alone pair.1]

theorem codeOf_text {n : Nat} (small : n < 0x10000) : (codeOf n).text =
    ['\\','u',hexDigit (n / 4096),hexDigit (n / 256 % 16),hexDigit (n / 16 % 16),hexDigit (n % 16)] := by
  have first : n / 4096 % 16 = n / 4096 := by omega
  simp only [Code.text,codeOf,hexOf,first]

theorem char_of_code {c : Char} (small : c.toNat < 0x10000) : ¬ (codeOf c.toNat).high ∧ (codeOf c.toNat).char = c := by
  have valid : c.toNat < 0xd800 ∨ 0xdfff < c.toNat := by
    rcases c.valid with low | high
    · exact .inl low
    · exact .inr high.1
  have value := codeOf_value small
  have high : ¬ (codeOf c.toNat).high := by
    unfold Code.high
    omega
  have low : ¬ (codeOf c.toNat).low := by
    unfold Code.low
    omega
  refine ⟨high,?_⟩
  rw [Code.char,if_neg (not_or.mpr ⟨high,low⟩),value,Char.ofNat_toNat]

/-- The spellings that both writers share. -/
theorem short_spelled {e : Char × Char} (known : e ∈ shortEscapes) :
    ∃ l : Literal, l.body = ['\\',e.1] ∧ ∀ rest : Literal, Literal.decode (l ++ rest) = e.2 :: rest.decode :=
  ⟨[.short e known],rfl,fun _ => rfl⟩

theorem code_spelled {c : Char} (small : c.toNat < 0x10000) :
    ∃ l : Literal, l.body = (codeOf c.toNat).text ∧ ∀ rest : Literal, Literal.decode (l ++ rest) = c :: rest.decode := by
  obtain ⟨alone,same⟩ := char_of_code small
  refine ⟨[.code (codeOf c.toNat)],by simp [Literal.body,Piece.text],fun rest => ?_⟩
  rw [List.singleton_append,decode_code alone,same]

theorem plain_spelled {c : Char} (itself : Plain c) :
    ∃ l : Literal, l.body = [c] ∧ ∀ rest : Literal, Literal.decode (l ++ rest) = c :: rest.decode :=
  ⟨[.plain c itself],rfl,fun _ => rfl⟩

theorem dump_spells : Spells dumpChar := by
  intro c
  unfold dumpChar
  split_ifs with quoted newline return_ tab feed back control
  · rcases quoted with rfl | rfl
    · exact short_spelled (e := ('\"','\"')) (by decide)
    · exact short_spelled (e := ('\\','\\')) (by decide)
  · subst newline
    exact short_spelled (e := ('n','\n')) (by decide)
  · subst return_
    exact short_spelled (e := ('r','\r')) (by decide)
  · subst tab
    exact short_spelled (e := ('t','\t')) (by decide)
  · rw [← Char.ofNat_toNat c,feed]
    exact short_spelled (e := ('f',Char.ofNat 12)) (by decide)
  · rw [← Char.ofNat_toNat c,back]
    exact short_spelled (e := ('b',Char.ofNat 8)) (by decide)
  · have spelled := code_spelled (c := c) (by omega)
    have first : c.toNat / 4096 = 0 := by omega
    have second : c.toNat / 256 % 16 = 0 := by omega
    have third : c.toNat / 16 % 16 = c.toNat / 16 := by omega
    rw [codeOf_text (by omega),first,second,third] at spelled
    exact spelled
  · exact plain_spelled ⟨fun same => quoted (.inl same),fun same => quoted (.inr same),by omega⟩

theorem ascii_spells : Spells asciiChar := by
  intro c
  unfold asciiChar
  dsimp only
  split_ifs with quoted newline return_ tab feed back plain small
  · rcases quoted with rfl | rfl
    · exact short_spelled (e := ('\"','\"')) (by decide)
    · exact short_spelled (e := ('\\','\\')) (by decide)
  · subst newline
    exact short_spelled (e := ('n','\n')) (by decide)
  · subst return_
    exact short_spelled (e := ('r','\r')) (by decide)
  · subst tab
    exact short_spelled (e := ('t','\t')) (by decide)
  · rw [← Char.ofNat_toNat c,feed]
    exact short_spelled (e := ('f',Char.ofNat 12)) (by decide)
  · rw [← Char.ofNat_toNat c,back]
    exact short_spelled (e := ('b',Char.ofNat 8)) (by decide)
  · exact plain_spelled ⟨fun same => quoted (.inl same),fun same => quoted (.inr same),plain.1⟩
  · have spelled := code_spelled small
    rwa [codeOf_text small] at spelled
  · -- beyond 16 bits a pair of surrogates
    have top : c.toNat < 0x110000 := by
      rcases c.valid with low | high
      · exact Nat.lt_trans low (by decide)
      · exact high.2
    have pair : ∀ n, n < 0x100000 → ∃ l : Literal, l.body = (codeOf (0xd800 + n / 0x400)).text ++
        (codeOf (0xdc00 + n % 0x400)).text ∧
        ∀ rest : Literal, Literal.decode (l ++ rest) = Char.ofNat (0x10000 + n) :: rest.decode := by
      intro n within
      have high := codeOf_value (n := 0xd800 + n / 0x400) (by omega)
      have low := codeOf_value (n := 0xdc00 + n % 0x400) (by omega)
      refine ⟨[.code (codeOf (0xd800 + n / 0x400)),.code (codeOf (0xdc00 + n % 0x400))],by simp [Literal.body,Piece.text],?_⟩
      intro rest
      have both : (codeOf (0xd800 + n / 0x400)).high ∧ (codeOf (0xdc00 + n % 0x400)).low := by
        simp only [Code.high,Code.low,high,low]
        omega
      have sum : 0x10000 + (0xd800 + n / 0x400 - 0xd800) * 0x400 + (0xdc00 + n % 0x400 - 0xdc00) = 0x10000 + n := by omega
      simp only [List.cons_append,List.nil_append,Literal.decode,if_pos both,high,low,sum]
    have spelled := pair (c.toNat - 0x10000) (by omega)
    have whole : 0x10000 + (c.toNat - 0x10000) = c.toNat := by omega
    rw [codeOf_text (by omega),codeOf_text (by omega),whole,Char.ofNat_toNat] at spelled
    exact spelled

/-- A text is spelled by a literal that means it. -/
theorem text_spelled {spell : Char → List Char} (spells : Spells spell) (cs : List Char) :
    ∃ l : Literal, l.body = cs.flatMap spell ∧ l.decode = cs := by
  induction cs with
  | nil => exact ⟨[],rfl,rfl⟩
  | cons c cs ih =>
    obtain ⟨first,body,means⟩ := spells c
    obtain ⟨rest,behind,meant⟩ := ih
    refine ⟨first ++ rest,?_,by rw [means,meant]⟩
    rw [List.flatMap_cons,← body,← behind]
    exact List.flatMap_append

/-- The literal of a text. -/
def quoted (spell : Char → List Char) (s : String) : String := String.ofList ('\"' :: (s.toList.flatMap spell ++ ['\"']))

theorem quoted_spelled {spell : Char → List Char} (spells : Spells spell) (s : String) :
    ∃ l : Literal, l.text = (quoted spell s).toList ∧ l.value = s := by
  obtain ⟨l,body,means⟩ := text_spelled spells s.toList
  exact ⟨l,by rw [Literal.text,body,quoted,String.toList_ofList],by rw [Literal.value,means,String.ofList_toList]⟩

/-! ### Numbers -/

/-- No zero leads the digits of another number. -/
theorem digits_leading (n : Nat) : Nat.toDigits 10 n = ['0'] ∨ (Nat.toDigits 10 n).head? ≠ some '0' := by
  induction n using Nat.strong_induction_on with
  | _ n ih =>
    rw [Nat.toDigits_eq_if (by decide)]
    split
    · next small =>
      have all : ∀ d : Fin 10, [Nat.digitChar d] = ['0'] ∨ [Nat.digitChar d].head? ≠ some '0' := by decide
      exact all ⟨n,small⟩
    · next large =>
      refine .inr ?_
      rcases ih (n / 10) (by omega) with zero | other
      · have none : n / 10 = 0 := by
          have back : Nat.ofDigitChars 10 (Nat.toDigits 10 (n / 10)) 0 = n / 10 := Nat.ofDigitChars_ten_toDigits
          rw [zero] at back
          exact back.symm
        omega
      · obtain ⟨c,rest,split⟩ := List.exists_cons_of_ne_nil (@Nat.toDigits_ne_nil (n / 10) 10)
        rw [split] at other ⊢
        exact other

/-- The digits of a number after a sign are read as an integer. -/
theorem literal_digits (m : Nat) :
    literalInt (Nat.toDigits 10 m) = m ∧ literalInt ('-' :: Nat.toDigits 10 m) = -(m : Int) := by
  have value : Nat.ofDigitChars 10 (Nat.toDigits 10 m) 0 = m := Nat.ofDigitChars_ten_toDigits
  refine ⟨?_,by rw [literalInt,value]⟩
  unfold literalInt
  split
  · next rest same =>
    have digit : '-' ∈ Nat.toDigits 10 m := same ▸ List.mem_cons_self
    exact absurd (Nat.isDigit_of_mem_toDigits (by decide) (by decide) digit) (by decide)
  · rw [value]

/-- An integer is short enough to be written and read. -/
def Short (i : Int) : Prop := i.natAbs < intLimit

/-- The number of these digits, with a sign. -/
def integerOf (negative : Bool) (m : Nat) : Number :=
  ⟨negative,⟨Nat.toDigits 10 m,Nat.toDigits_ne_nil,fun _ member => Nat.isDigit_of_mem_toDigits (by decide) (by decide) member⟩,
    digits_leading m,none,none⟩

theorem integerOf_fits (negative : Bool) (m : Nat) : (integerOf negative m).Fits ↔ m < intLimit := by
  rw [intLimit_eq]
  have limit : (Nat.toDigits 10 m).length ≤ maxIntDigits ↔ m < 10 ^ maxIntDigits :=
    Nat.length_toDigits_le_iff (by decide) (by decide)
  exact ⟨fun short => limit.mp (short ⟨rfl,rfl⟩),fun short _ => limit.mpr short⟩

/-- An integer is spelled by a number that means it. -/
theorem integer_spelled (interp : Interpreter) (i : Int) :
    ∃ n : Number, n.text = (toString i).toList ∧ n.value interp = .int i ∧ (n.Fits ↔ Short i) := by
  cases i with
  | ofNat m =>
    refine ⟨integerOf false m,?_,?_,integerOf_fits false m⟩
    · show [] ++ Nat.toDigits 10 m ++ ([] ++ []) = (Nat.repr m).toList
      simp
    · rw [Number.value,if_pos ⟨rfl,rfl⟩]
      show PyVal.int (literalInt (Nat.toDigits 10 m)) = _
      rw [(literal_digits m).1]
      rfl
  | negSucc m =>
    refine ⟨integerOf true (m + 1),?_,?_,integerOf_fits true (m + 1)⟩
    · show ['-'] ++ Nat.toDigits 10 (m + 1) ++ ([] ++ []) = ("-" ++ Nat.repr (m + 1)).toList
      simp
    · rw [Number.value,if_pos ⟨rfl,rfl⟩]
      show PyVal.int (literalInt ('-' :: Nat.toDigits 10 (m + 1))) = _
      rw [(literal_digits (m + 1)).2]
      rfl

/-! ### Containers -/

def oneSpace : Layout := ⟨[' '],fun c member => by rw [List.mem_singleton.mp member]; rfl⟩

/-- A new line with so many spaces. -/
def newline (n : Nat) : Layout := ⟨'\n' :: List.replicate n ' ',fun c member => by
  rcases List.mem_cons.mp member with rfl | space
  · rfl
  · rw [List.eq_of_mem_replicate space]
    rfl⟩

/-- What stands on each level before the first item of a container, after each comma, and behind the last item. -/
structure Style where
  first : Nat → Layout
  gap : Nat → Layout
  last : Nat → Layout

/-- The layout of `json.dumps(value)`. -/
def compact : Style := ⟨fun _ => Stubs.noSpace,fun _ => oneSpace,fun _ => Stubs.noSpace⟩

/-- The layout of `json.dumps(value, indent=n)`. -/
def indented (n : Nat) : Style :=
  ⟨fun level => newline (n * (level + 1)),fun level => newline (n * (level + 1)),fun level => newline (n * level)⟩

/-- The text of an item with what stands before it. -/
def itemText {k : Kind} (item : Label k × Doc) : List Char := item.1.text ++ item.2.text

/-- The items of a container with their layout. -/
def entriesOf {k : Kind} (gap last before : Layout) (item : Label k × Doc) : List (Label k × Doc) → Entries k
  | [] => .last before item.1 item.2 last none
  | next :: rest => .more before item.1 item.2 Stubs.noSpace (entriesOf gap last gap next rest)

def container (style : Style) (level : Nat) (k : Kind) : List (Label k × Doc) → Doc
  | [] => .hollow k Stubs.noSpace none
  | item :: rest => .full k (entriesOf (style.gap level) (style.last level) (style.first level) item rest)

section
variable {k : Kind} {style : Style} {level : Nat}

theorem entries_text (gap last before : Layout) (item : Label k × Doc) (rest : List (Label k × Doc)) :
    (entriesOf gap last before item rest).text =
      before.1 ++ ((',' :: gap.1).intercalate ((item :: rest).map itemText) ++ last.1) := by
  induction rest generalizing before item with
  | nil => simp [entriesOf,Entries.text,commaText,itemText]
  | cons next rest ih =>
    rw [entriesOf,Entries.text,ih,List.map_cons,List.map_cons,List.map_cons,List.intercalate_cons_cons]
    simp [itemText,Stubs.noSpace]

theorem container_clean (items : List (Label k × Doc)) (clean : ∀ item ∈ items, item.2.Clean) :
    (container style level k items).Clean := by
  have entries : ∀ (rest : List (Label k × Doc)) (gap last before : Layout) (item : Label k × Doc),
      (∀ i ∈ item :: rest, i.2.Clean) → (entriesOf gap last before item rest).Clean := by
    intro rest
    induction rest with
    | nil => exact fun gap last before item clean => ⟨clean item (List.mem_cons_self ..),rfl⟩
    | cons next rest ih =>
      exact fun gap last before item clean => ⟨clean item (List.mem_cons_self ..),
        ih gap last gap next fun i member => clean i (List.mem_cons_of_mem _ member)⟩
  cases items with
  | nil => exact (rfl : (none : Option Layout) = none)
  | cons item rest => exact entries rest _ _ _ item clean

theorem container_value (interp : Interpreter) (items : List (Label k × Doc)) :
    (container style level k items).value interp = k.build (items.map fun item => (item.1.name,item.2.value interp)) := by
  have entries : ∀ (rest : List (Label k × Doc)) (gap last before : Layout) (item : Label k × Doc),
      (entriesOf gap last before item rest).items interp =
        (item :: rest).map fun item => (item.1.name,item.2.value interp) := by
    intro rest
    induction rest with
    | nil => exact fun gap last before item => rfl
    | cons next rest ih =>
      intro gap last before item
      rw [entriesOf,Entries.items,ih]
      rfl
  cases items with
  | nil => rfl
  | cons item rest => rw [container,Doc.value,entries]

theorem container_within (items : List (Label k × Doc)) (depth : Nat) :
    (container style level k items).Within depth ↔ 0 < depth ∧ ∀ item ∈ items, item.2.Within (depth - 1) := by
  have entries : ∀ (rest : List (Label k × Doc)) (gap last before : Layout) (item : Label k × Doc) (left : Nat),
      (entriesOf gap last before item rest).Within left ↔ ∀ i ∈ item :: rest, i.2.Within left := by
    intro rest
    induction rest with
    | nil => simp [entriesOf,Entries.Within]
    | cons next rest ih =>
      intro gap last before item left
      rw [entriesOf,Entries.Within,ih]
      simp
  cases items with
  | nil => simp [container,Doc.Within]
  | cons item rest => rw [container,Doc.Within,entries]

/-- The texts of items within their container. -/
def wrap (style : Style) (level : Nat) (k : Kind) : List String → String
  | [] => String.ofList [k.opens,k.closes]
  | text :: texts => String.ofList (k.opens :: (style.first level).1) ++
    join (String.ofList (',' :: (style.gap level).1)) (text :: texts) ++ String.ofList ((style.last level).1 ++ [k.closes])

theorem wrap_text (items : List (Label k × Doc)) :
    wrap style level k (items.map fun item => String.ofList (itemText item)) =
      String.ofList (container style level k items).text := by
  cases items with
  | nil => rfl
  | cons item rest =>
    have back : (rest.map fun item => (String.ofList (itemText item)).toList) = rest.map itemText :=
      List.map_congr_left fun item _ => String.toList_ofList
    rw [container,Doc.text,entries_text,List.map_cons,wrap,← String.toList_inj]
    simp only [String.toList_append,String.toList_ofList,join,String.toList_intercalate,List.map_cons,List.map_map]
    rw [show (String.toList ∘ fun item : Label k × Doc => String.ofList (itemText item)) =
      fun item => (String.ofList (itemText item)).toList from rfl,back]
    simp

end

theorem array_value {interp : Interpreter} {style : Style} {level : Nat} (items : List (Label .array × Doc)) :
    (Except.ok (items.map fun item => item.2.value interp) : Except PyError (List PyVal)).map .list =
      .ok ((container style level .array items).value interp) := by
  rw [container_value,Kind.build,List.map_map]
  rfl

theorem object_value {interp : Interpreter} {style : Style} {level : Nat} {items : List (Label .object × Doc)}
    (distinct : (items.map fun item => item.1.name).Nodup) :
    (Except.ok (items.map fun item => (item.1.name,item.2.value interp)) : Except PyError Fields).map .dict =
      .ok ((container style level .object items).value interp) := by
  rw [container_value,Kind.build,merge_distinct (by rwa [List.map_map])]
  rfl

/-! ### The writer in any layout -/

section
variable (style : Style) (literal : String → String) (other : PyObject → Except PyError String)

mutual
/-- The writer, on a level of nesting. -/
def writeStyled : Nat → PyVal → Except PyError String
  | _,.null => .ok "null"
  | _,.bool b => .ok (if b then "true" else "false")
  | _,.int i => dumpInt i
  | _,.float x => .ok (dumpFloat x)
  | _,.str s => .ok (literal s)
  | level,.list items => (styledItems (level + 1) items).map (wrap style level .array)
  | level,.tuple items => (styledItems (level + 1) items).map (wrap style level .array)
  | level,.dict fields => (styledFields (level + 1) fields).map (wrap style level .object)
  | _,.object o => other o
def styledItems : Nat → List PyVal → Except PyError (List String)
  | _,[] => .ok []
  | level,item :: rest => do
    let text ← writeStyled level item
    let texts ← styledItems level rest
    .ok (text :: texts)
def styledFields : Nat → List (String × PyVal) → Except PyError (List String)
  | _,[] => .ok []
  | level,(k,v) :: rest => do
    let text ← writeStyled level v
    let members ← styledFields level rest
    .ok ((literal k ++ ": " ++ text) :: members)
end

end

theorem wrap_array (level : Nat) (texts : List String) : wrap compact level .array texts = "[" ++ join ", " texts ++ "]" := by
  cases texts <;> rfl

theorem wrap_object (level : Nat) (texts : List String) :
    wrap compact level .object texts = "\x7b" ++ join ", " texts ++ "\x7d" := by
  cases texts <;> rfl

section
variable {style : Style} {literal : String → String} {other : PyObject → Except PyError String}

mutual
/-- No integer of a value that was written is too long. -/
theorem written_short : (v : PyVal) → (level : Nat) → (∃ text, writeStyled style literal other level v = .ok text) →
    shortInts v = true
  | .int _,_,written => decide_eq_true (dumpInt_iff.mp written)
  | .list items,level,written | .tuple items,level,written => by
    rw [writeStyled,map_ok_iff] at written
    exact writtenItems_short items (level + 1) written
  | .dict fields,level,written => by
    rw [writeStyled,map_ok_iff] at written
    exact writtenFields_short fields (level + 1) written
  | .null,_,_ | .bool _,_,_ | .float _,_,_ | .str _,_,_ | .object _,_,_ => rfl
theorem writtenItems_short : (items : List PyVal) → (level : Nat) →
    (∃ texts, styledItems style literal other level items = .ok texts) → shortItems items = true
  | [],_,_ => rfl
  | item :: rest,level,written => by
    rw [styledItems,pair_ok_iff] at written
    exact Bool.and_eq_true_iff.mpr ⟨written_short item level written.1,writtenItems_short rest level written.2⟩
theorem writtenFields_short : (fields : Fields) → (level : Nat) →
    (∃ members, styledFields style literal other level fields = .ok members) → shortFields fields = true
  | [],_,_ => rfl
  | (_,v) :: rest,level,written => by
    rw [styledFields,pair_ok_iff] at written
    exact Bool.and_eq_true_iff.mpr ⟨written_short v level written.1,writtenFields_short rest level written.2⟩
end

end

section
variable (literal : String → String) (other : PyObject → Except PyError String)

mutual
/-- Without an indentation the writer is the one of the log. -/
theorem styled_compact : (v : PyVal) → (level : Nat) → writeStyled compact literal other level v = writeJson literal other v
  | .null,_ | .bool _,_ | .int _,_ | .float _,_ | .str _,_ | .object _,_ => rfl
  | .list items,level | .tuple items,level => by
    rw [writeStyled,writeJson,styled_compactItems items,funext (wrap_array level)]
  | .dict fields,level => by rw [writeStyled,writeJson,styled_compactFields fields,funext (wrap_object level)]
theorem styled_compactItems : (items : List PyVal) → (level : Nat) →
    styledItems compact literal other level items = writeItems literal other items
  | [],_ => rfl
  | item :: rest,level => by rw [styledItems,writeItems,styled_compact item,styled_compactItems rest]
theorem styled_compactFields : (fields : Fields) → (level : Nat) →
    styledFields compact literal other level fields = writeFields literal other fields
  | [],_ => rfl
  | (k,v) :: rest,level => by rw [styledFields,writeFields,styled_compact v,styled_compactFields rest]
end

end

/-! ### Values -/

section
variable (interp : Interpreter)

/-- A float that a number with a point or an exponent stands for: one that is neither infinite nor undefined. -/
def Finite (x : PyFloat) : Prop := interp.float x.text = x ∧ ∃ n : Number, ¬ n.Whole ∧ n.text = x.text.toList

mutual
/-- A value that JSON can hold: no instances of other classes, finite floats, and no key twice. -/
def Sound : PyVal → Prop
  | .float x => Finite interp x
  | .list items | .tuple items => AllSound items
  | .dict fields => (fields.map Prod.fst).Nodup ∧ FieldsSound fields
  | .object _ => False
  | _ => True
def AllSound : List PyVal → Prop
  | [] => True
  | item :: rest => Sound item ∧ AllSound rest
def FieldsSound : List (String × PyVal) → Prop
  | [] => True
  | (_,v) :: rest => Sound v ∧ FieldsSound rest
end

end

mutual
/-- A value within the limits of the reader, with the levels of nesting left. -/
def Fits : Nat → PyVal → Prop
  | _,.int i => Short i
  | depth,.list items | depth,.tuple items => 0 < depth ∧ AllFit (depth - 1) items
  | depth,.dict fields => 0 < depth ∧ FieldsFit (depth - 1) fields
  | _,_ => True
def AllFit : Nat → List PyVal → Prop
  | _,[] => True
  | depth,item :: rest => Fits depth item ∧ AllFit depth rest
def FieldsFit : Nat → List (String × PyVal) → Prop
  | _,[] => True
  | depth,(_,v) :: rest => Fits depth v ∧ FieldsFit depth rest
end

mutual
/-- What is within the limits of the reader can be written. -/
theorem fits_short : {depth : Nat} → (v : PyVal) → Fits depth v → shortInts v = true
  | _,.int _,short => decide_eq_true short
  | _,.list items,fits | _,.tuple items,fits => allFit_short items fits.2
  | _,.dict fields,fits => fieldsFit_short fields fits.2
  | _,.null,_ | _,.bool _,_ | _,.float _,_ | _,.str _,_ | _,.object _,_ => rfl
theorem allFit_short : {depth : Nat} → (items : List PyVal) → AllFit depth items → shortItems items = true
  | _,[],_ => rfl
  | _,item :: rest,⟨first,others⟩ => Bool.and_eq_true_iff.mpr ⟨fits_short item first,allFit_short rest others⟩
theorem fieldsFit_short : {depth : Nat} → (fields : Fields) → FieldsFit depth fields → shortFields fields = true
  | _,[],_ => rfl
  | _,(_,v) :: rest,⟨first,others⟩ => Bool.and_eq_true_iff.mpr ⟨fits_short v first,fieldsFit_short rest others⟩
end

/-- One of the first two characters of a number is a digit. -/
theorem number_digit (n : Number) : ∃ c ∈ n.text.take 2, c.isDigit = true := by
  obtain ⟨c,rest,split,-,digit | ⟨-,d,more,rfl,digit⟩⟩ := number_head n
  · exact ⟨c,by simp [split],digit⟩
  · exact ⟨d,by simp [split],digit⟩

theorem finite_dumped {interp : Interpreter} {x : PyFloat} (finite : Finite interp x) : dumpFloat x = x.text := by
  obtain ⟨-,n,-,text⟩ := finite
  have apart : ∀ word ∈ ["nan","inf","-inf"], x.text ≠ word := by
    have letters : ∀ word ∈ ["nan","inf","-inf"], (word.toList.take 2).all (fun c => !c.isDigit) = true := by decide
    rintro word named rfl
    obtain ⟨c,early,digit⟩ := number_digit n
    rw [text] at early
    simpa [digit] using List.all_eq_true.mp (letters _ named) c early
  rw [dumpFloat,if_neg (apart "nan" (by decide)),if_neg (apart "inf" (by decide)),if_neg (apart "-inf" (by decide))]

section
variable {interp : Interpreter} {spell : Char → List Char} (style : Style) (other : PyObject → Except PyError String)

mutual
/-- A value whose integers are short is written as the text of a document that means what the value becomes. -/
theorem styled (spells : Spells spell) : (v : PyVal) → (level : Nat) → Sound interp v → ∃ d : Doc,
    (shortInts v = true → writeStyled style (quoted spell) other level v = .ok (String.ofList d.text)) ∧
      throughJson v = .ok (d.value interp) ∧ d.Clean ∧ ∀ depth, d.Within depth ↔ Fits depth v
  | .null,_,_ => ⟨.null,fun _ => rfl,rfl,trivial,fun _ => Iff.rfl⟩
  | .bool b,_,_ => by
    refine ⟨.bool b,fun _ => ?_,rfl,trivial,fun _ => by simp [Doc.Within,Fits]⟩
    cases b <;> rfl
  | .int i,_,_ => by
    obtain ⟨n,text,value,fits⟩ := integer_spelled interp i
    refine ⟨.number n,fun short => ?_,?_,trivial,fun depth => ?_⟩
    · rw [Doc.text,text,String.ofList_toList,writeStyled,dumpInt,if_pos (of_decide_eq_true short)]
    · rw [Doc.value,value]
      rfl
    · simp only [Doc.Within,Fits,fits]
  | .float x,_,finite => by
    obtain ⟨back,n,pointed,text⟩ := id finite
    refine ⟨.number n,fun _ => ?_,?_,trivial,fun depth => ?_⟩
    · rw [Doc.text,text,String.ofList_toList,writeStyled,finite_dumped finite]
    · rw [Doc.value,Number.value,if_neg pointed,text,String.ofList_toList,back]
      rfl
    · simp [Doc.Within,Number.Fits,Fits,pointed]
  | .str s,_,_ => by
    obtain ⟨l,text,value⟩ := quoted_spelled spells s
    refine ⟨.string l,fun _ => ?_,?_,trivial,fun _ => by simp [Doc.Within,Fits]⟩
    · rw [Doc.text,text,String.ofList_toList]
      rfl
    · rw [Doc.value,value]
      rfl
  | .list items,level,sound => by
    obtain ⟨pieces,written,through,clean,within⟩ := styledAll spells items (level + 1) sound
    refine ⟨container style level .array pieces,fun short => ?_,?_,container_clean pieces clean,fun depth => ?_⟩
    · rw [writeStyled,written short]
      exact congrArg Except.ok (wrap_text pieces)
    · rw [throughJson,through]
      exact array_value pieces
    · rw [container_within,Fits,within]
  | .tuple items,level,sound => by
    obtain ⟨pieces,written,through,clean,within⟩ := styledAll spells items (level + 1) sound
    refine ⟨container style level .array pieces,fun short => ?_,?_,container_clean pieces clean,fun depth => ?_⟩
    · rw [writeStyled,written short]
      exact congrArg Except.ok (wrap_text pieces)
    · rw [throughJson,through]
      exact array_value pieces
    · rw [container_within,Fits,within]
  | .dict fields,level,⟨distinct,sound⟩ => by
    obtain ⟨pieces,written,through,names,clean,within⟩ := styledMembers spells fields (level + 1) sound
    refine ⟨container style level .object pieces,fun short => ?_,?_,container_clean pieces clean,fun depth => ?_⟩
    · rw [writeStyled,written short]
      exact congrArg Except.ok (wrap_text pieces)
    · rw [throughJson,through]
      exact object_value (names ▸ distinct)
    · rw [container_within,Fits,within]
  | .object _,_,sound => sound.elim
theorem styledAll (spells : Spells spell) : (items : List PyVal) → (level : Nat) → AllSound interp items →
    ∃ pieces : List (Label .array × Doc),
    (shortItems items = true →
        styledItems style (quoted spell) other level items = .ok (pieces.map fun piece => String.ofList (itemText piece))) ∧
      throughItems items = .ok (pieces.map fun piece => piece.2.value interp) ∧ (∀ piece ∈ pieces, piece.2.Clean) ∧
        ∀ depth, (∀ piece ∈ pieces, piece.2.Within depth) ↔ AllFit depth items
  | [],_,_ => ⟨[],fun _ => rfl,rfl,by simp,fun _ => by simp [AllFit]⟩
  | item :: rest,level,⟨first,others⟩ => by
    obtain ⟨d,text,value,clean,within⟩ := styled spells item level first
    obtain ⟨pieces,texts,values,cleans,withins⟩ := styledAll spells rest level others
    refine ⟨(.bare,d) :: pieces,fun short => ?_,?_,List.forall_mem_cons.mpr ⟨clean,cleans⟩,fun depth => ?_⟩
    · obtain ⟨one,more⟩ := Bool.and_eq_true_iff.mp short
      rw [styledItems,text one,texts more]
      rfl
    · rw [throughItems,value,values]
      rfl
    · rw [List.forall_mem_cons,AllFit,within,withins]
theorem styledMembers (spells : Spells spell) : (fields : List (String × PyVal)) → (level : Nat) → FieldsSound interp fields →
    ∃ pieces : List (Label .object × Doc),
    (shortFields fields = true →
        styledFields style (quoted spell) other level fields = .ok (pieces.map fun piece => String.ofList (itemText piece))) ∧
      throughFields fields = .ok (pieces.map fun piece => (piece.1.name,piece.2.value interp)) ∧
        fields.map Prod.fst = (pieces.map fun piece => piece.1.name) ∧ (∀ piece ∈ pieces, piece.2.Clean) ∧
          ∀ depth, (∀ piece ∈ pieces, piece.2.Within depth) ↔ FieldsFit depth fields
  | [],_,_ => ⟨[],fun _ => rfl,rfl,rfl,by simp,fun _ => by simp [FieldsFit]⟩
  | (k,v) :: rest,level,⟨first,others⟩ => by
    obtain ⟨d,text,value,clean,within⟩ := styled spells v level first
    obtain ⟨pieces,texts,values,names,cleans,withins⟩ := styledMembers spells rest level others
    obtain ⟨name,spelling,same⟩ := quoted_spelled spells k
    refine ⟨(.named name Stubs.noSpace oneSpace,d) :: pieces,fun short => ?_,?_,?_,List.forall_mem_cons.mpr ⟨clean,cleans⟩,
      fun depth => ?_⟩
    · obtain ⟨one,more⟩ := Bool.and_eq_true_iff.mp short
      have member : quoted spell k ++ ": " ++ String.ofList d.text =
          String.ofList (itemText (.named name Stubs.noSpace oneSpace,d)) := by
        rw [← String.toList_inj,String.toList_append,String.toList_append,← spelling]
        simp [itemText,Label.text,Stubs.noSpace,oneSpace]
      rw [styledFields,text one,texts more]
      exact congrArg (fun text => Except.ok (text :: _)) member
    · rw [throughFields,value,values,← same]
      rfl
    · rw [List.map_cons,names,← same]
      rfl
    · rw [List.forall_mem_cons,FieldsFit,within,withins]
end

end

/-- What the log writes of a value is the text of a document that means what the value becomes. -/
theorem spelled {interp : Interpreter} {spell : Char → List Char} (other : PyObject → Except PyError String)
    (spells : Spells spell) (v : PyVal) (sound : Sound interp v) : ∃ d : Doc,
    (shortInts v = true → writeJson (quoted spell) other v = .ok (String.ofList d.text)) ∧
      throughJson v = .ok (d.value interp) ∧ d.Clean ∧ ∀ depth, d.Within depth ↔ Fits depth v := by
  rw [← styled_compact _ other v 0]
  exact styled compact other spells v 0 sound

/-! ### The characters that are written -/

/-- The characters outside texts, digits and layout. -/
def punctuation : List Char :=
  ['n','u','l','t','r','e','f','a','s','-','+','.','E','[',']','\x7b','\x7d',':',',',' ']

mutual
/-- All texts of a value are of this kind. -/
def Texts (T : String → Prop) : PyVal → Prop
  | .str s => T s
  | .list items | .tuple items => AllTexts T items
  | .dict fields => FieldsTexts T fields
  | _ => True
def AllTexts (T : String → Prop) : List PyVal → Prop
  | [] => True
  | item :: rest => Texts T item ∧ AllTexts T rest
def FieldsTexts (T : String → Prop) : List (String × PyVal) → Prop
  | [] => True
  | (k,v) :: rest => T k ∧ Texts T v ∧ FieldsTexts T rest
end

mutual
theorem texts_all {T : String → Prop} (all : ∀ s, T s) : (v : PyVal) → Texts T v
  | .str s => all s
  | .list items | .tuple items => allTexts_all all items
  | .dict fields => fieldsTexts_all all fields
  | .null | .bool _ | .int _ | .float _ | .object _ => trivial
theorem allTexts_all {T : String → Prop} (all : ∀ s, T s) : (items : List PyVal) → AllTexts T items
  | [] => trivial
  | item :: rest => ⟨texts_all all item,allTexts_all all rest⟩
theorem fieldsTexts_all {T : String → Prop} (all : ∀ s, T s) : (fields : Fields) → FieldsTexts T fields
  | [] => trivial
  | (k,v) :: rest => ⟨all k,texts_all all v,fieldsTexts_all all rest⟩
end

/-- Whatever is written is made of these characters, when the texts are of this kind. -/
structure Calm (P : Char → Prop) (T : String → Prop) (style : Style) (literal : String → String) : Prop where
  marks : ∀ c ∈ punctuation, P c
  digits : ∀ c, c.isDigit = true → P c
  first : ∀ level, ∀ c ∈ (style.first level).1, P c
  gap : ∀ level, ∀ c ∈ (style.gap level).1, P c
  last : ∀ level, ∀ c ∈ (style.last level).1, P c
  texts : ∀ s, T s → ∀ c ∈ (literal s).toList, P c

theorem map_ok {α β : Type} {f : α → β} {r : Except PyError α} {b : β} (same : r.map f = .ok b) : ∃ a, r = .ok a ∧ f a = b := by
  cases r with
  | ok a => exact ⟨a,rfl,Except.ok.inj same⟩
  | error exc => cases same

theorem ok_bind {α β : Type} {r : Except PyError α} {f : α → Except PyError β} {b : β} (read : r >>= f = .ok b) :
    ∃ a, r = .ok a ∧ f a = .ok b := by
  cases r with
  | ok a => exact ⟨a,rfl,read⟩
  | error exc => cases read

section
variable {P : Char → Prop} {T : String → Prop} {style : Style} {literal : String → String}

theorem Calm.number (calm : Calm P T style literal) (n : Number) : ∀ c ∈ n.text, P c := by
  have digits : ∀ d : Digits, ∀ c ∈ d.1, P c := fun d c member => calm.digits c (d.2.2 c member)
  have sign : ∀ c ∈ (if n.negative then ['-'] else []), P c := by
    split
    · exact fun c member => calm.marks c (by rw [List.mem_singleton.mp member]; decide)
    · exact fun c member => by cases member
  have fraction : ∀ c ∈ n.fractionText, P c := by
    unfold Number.fractionText
    split
    · exact fun c member => by cases member
    · next d _ => exact List.forall_mem_cons.mpr ⟨calm.marks '.' (by decide),digits d⟩
  have power : ∀ c ∈ n.powerText, P c := by
    unfold Number.powerText
    split
    · exact fun c member => by cases member
    · next p _ =>
      refine List.forall_mem_cons.mpr ⟨?_,List.forall_mem_append.mpr ⟨?_,digits p.digits⟩⟩
      · split
        · exact calm.marks 'E' (by decide)
        · exact calm.marks 'e' (by decide)
      · split
        · exact fun c member => by cases member
        · exact fun c member => calm.marks c (by rw [List.mem_singleton.mp member]; decide)
        · exact fun c member => calm.marks c (by rw [List.mem_singleton.mp member]; decide)
  exact List.forall_mem_append.mpr ⟨List.forall_mem_append.mpr ⟨sign,digits n.whole⟩,List.forall_mem_append.mpr ⟨fraction,power⟩⟩

theorem Calm.wrap (calm : Calm P T style literal) (level : Nat) (k : Kind) {texts : List String}
    (each : ∀ text ∈ texts, ∀ c ∈ text.toList, P c) : ∀ c ∈ (wrap style level k texts).toList, P c := by
  have opens : P k.opens := by cases k <;> exact calm.marks _ (by decide)
  have closes : P k.closes := by cases k <;> exact calm.marks _ (by decide)
  have joined : ∀ texts : List String, (∀ text ∈ texts, ∀ c ∈ text.toList, P c) →
      ∀ c ∈ (',' :: (style.gap level).1).intercalate (texts.map String.toList), P c := by
    intro texts each
    induction texts with
    | nil => exact fun c member => by cases member
    | cons text texts ih =>
      obtain ⟨first,others⟩ := List.forall_mem_cons.mp each
      cases texts with
      | nil => simpa using first
      | cons next texts =>
        rw [List.map_cons,List.map_cons,List.intercalate_cons_cons]
        refine List.forall_mem_append.mpr ⟨List.forall_mem_append.mpr ⟨first,?_⟩,ih others⟩
        exact List.forall_mem_cons.mpr ⟨calm.marks ',' (by decide),calm.gap level⟩
  cases texts with
  | nil =>
    rw [Written.wrap,String.toList_ofList]
    exact List.forall_mem_cons.mpr ⟨opens,List.forall_mem_singleton.mpr closes⟩
  | cons text texts =>
    rw [Written.wrap,String.toList_append,String.toList_append,String.toList_ofList,String.toList_ofList,join,
      String.toList_intercalate,String.toList_ofList]
    refine List.forall_mem_append.mpr ⟨List.forall_mem_append.mpr ⟨List.forall_mem_cons.mpr ⟨opens,calm.first level⟩,
      joined _ each⟩,List.forall_mem_append.mpr ⟨calm.last level,List.forall_mem_singleton.mpr closes⟩⟩

variable {interp : Interpreter} {other : PyObject → Except PyError String}

mutual
/-- What is written of a value has only these characters. -/
theorem Calm.written (calm : Calm P T style literal) : (v : PyVal) → (level : Nat) → Sound interp v → Texts T v → ∀ text,
    writeStyled style literal other level v = .ok text → ∀ c ∈ text.toList, P c
  | .null,_,_,_ => by
    rintro _ ⟨⟩
    exact fun c member => calm.marks c ((by decide : "null".toList ⊆ punctuation) member)
  | .bool b,_,_,_ => by
    rintro _ ⟨⟩
    cases b
    · exact fun c member => calm.marks c ((by decide : "false".toList ⊆ punctuation) member)
    · exact fun c member => calm.marks c ((by decide : "true".toList ⊆ punctuation) member)
  | .int i,_,_,_ => by
    intro text written c member
    rw [writeStyled,dumpInt] at written
    split_ifs at written
    cases written
    rcases Writing.integer_chars i c member with digit | rfl
    · exact calm.digits c digit
    · exact calm.marks '-' (by decide)
  | .float x,_,finite,_ => by
    rintro _ ⟨⟩
    rw [finite_dumped finite]
    obtain ⟨-,n,-,text⟩ := finite
    rw [← text]
    exact calm.number n
  | .str s,_,_,kind => by
    rintro _ ⟨⟩
    exact calm.texts s kind
  | .list items,level,sound,kind => by
    intro text written
    obtain ⟨texts,each,rfl⟩ := map_ok written
    exact calm.wrap level .array (calm.writtenItems items (level + 1) sound kind texts each)
  | .tuple items,level,sound,kind => by
    intro text written
    obtain ⟨texts,each,rfl⟩ := map_ok written
    exact calm.wrap level .array (calm.writtenItems items (level + 1) sound kind texts each)
  | .dict fields,level,sound,kind => by
    intro text written
    obtain ⟨texts,each,rfl⟩ := map_ok written
    exact calm.wrap level .object (calm.writtenFields fields (level + 1) sound.2 kind texts each)
  | .object _,_,sound,_ => sound.elim
theorem Calm.writtenItems (calm : Calm P T style literal) : (items : List PyVal) → (level : Nat) → AllSound interp items →
    AllTexts T items → ∀ texts, styledItems style literal other level items = .ok texts →
      ∀ text ∈ texts, ∀ c ∈ text.toList, P c
  | [],_,_,_ => by
    rintro _ ⟨⟩ text member
    cases member
  | item :: rest,level,⟨first,others⟩,⟨kind,kinds⟩ => by
    intro texts written
    obtain ⟨text,one,written⟩ := ok_bind written
    obtain ⟨more,each,same⟩ := ok_bind written
    cases same
    exact List.forall_mem_cons.mpr ⟨calm.written item level first kind text one,
      calm.writtenItems rest level others kinds more each⟩
theorem Calm.writtenFields (calm : Calm P T style literal) : (fields : Fields) → (level : Nat) → FieldsSound interp fields →
    FieldsTexts T fields → ∀ texts, styledFields style literal other level fields = .ok texts →
      ∀ text ∈ texts, ∀ c ∈ text.toList, P c
  | [],_,_,_ => by
    rintro _ ⟨⟩ text member
    cases member
  | (k,v) :: rest,level,⟨first,others⟩,⟨key,kind,kinds⟩ => by
    intro texts written
    obtain ⟨text,one,written⟩ := ok_bind written
    obtain ⟨more,each,same⟩ := ok_bind written
    cases same
    refine List.forall_mem_cons.mpr ⟨?_,calm.writtenFields rest level others kinds more each⟩
    rw [String.toList_append,String.toList_append]
    exact List.forall_mem_append.mpr ⟨List.forall_mem_append.mpr ⟨calm.texts k key,fun c member =>
      calm.marks c ((by decide : ": ".toList ⊆ punctuation) member)⟩,calm.written v level first kind text one⟩
end

end

/-! ### Reading back -/

/-- What a value with short integers is written as is read back as what the value becomes, exactly when the value is
    within the limits of the reader. -/
theorem written_reads {interp : Interpreter} {v : PyVal} (sound : Sound interp v) (short : shortInts v = true) (style : Style)
    {literal : String → String} (known : literal ∈ [dumpText,asciiText]) (other : PyObject → Except PyError String) :
    ∃ text w, writeStyled style literal other 0 v = .ok text ∧ throughJson v = .ok w ∧
      (loads interp text.toList = .ok w ↔ Fits interp.recursion_limit v) := by
  have spelling : ∃ spell, Spells spell ∧ literal = quoted spell := by
    rcases List.mem_pair.mp known with rfl | rfl
    · exact ⟨dumpChar,dump_spells,rfl⟩
    · exact ⟨asciiChar,ascii_spells,rfl⟩
  obtain ⟨spell,spells,rfl⟩ := spelling
  obtain ⟨d,text,value,clean,within⟩ := styled style other spells v 0 sound
  have judged := @loads_doc interp d
  refine ⟨_,_,text short,value,?_⟩
  rw [String.toList_ofList,← within]
  constructor
  · intro read
    rw [read] at judged
    exact judged.1
  · exact fun inside => judged.read inside clean

end HexAgent.Written
