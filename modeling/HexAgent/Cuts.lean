import HexAgent.Embedded
import HexAgent.Written

/-!
Texts cut off. What the JSON reader has read of a text does not change with what comes behind it. So
no text of an object that is cut off in front of its end is read as a value.
-/
namespace HexAgent.Cuts
open HexAgent.Values HexAgent.Json HexAgent.Documents

/-! ### What comes behind -/

/-- No number goes on with this text, and there is some of it. -/
def Ended (rest : List Char) : Prop := rest ≠ [] ∧ Delimits rest

theorem ended_iff {rest : List Char} : Ended rest ↔ ∃ c more, rest = c :: more ∧
    c.isDigit = false ∧ c ≠ '.' ∧ c ≠ 'e' ∧ c ≠ 'E' := by
  cases rest with
  | nil => simp [Ended]
  | cons c more => simp [Ended,Delimits]

/-- A reading in front of other text: what was read stays, and a nesting that was too deep stays too deep. -/
def Grown (q : List Char) : Except PyError (PyVal × List Char) → Except PyError (PyVal × List Char) → Prop
  | .ok (v,rest),longer => longer = .ok (v,rest ++ q)
  | .error exc,longer => exc = tooDeep → longer = .error tooDeep

/-- A reader of values that no text behind a value disturbs; it reads nothing of an empty text. -/
structure Stable (scan : List Char → Except PyError (PyVal × List Char)) : Prop where
  empty : scan [] = .error (decodeError "Expecting value")
  grown : ∀ {cs q : List Char}, (∀ v rest, scan cs = .ok (v,rest) → Ended rest) → Grown q (scan cs) (scan (cs ++ q))

theorem shallow {message : String} (longer : Except PyError (PyVal × List Char)) (q : List Char) :
    Grown q (.error (decodeError message)) longer := nofun

theorem Stable.nothing {scan : List Char → Except PyError (PyVal × List Char)} (stable : Stable scan)
    (read : PyVal × List Char) : scan [] ≠ .ok read := by
  rw [stable.empty]
  exact nofun

theorem Stable.more {scan : List Char → Except PyError (PyVal × List Char)} (stable : Stable scan) {cs rest : List Char}
    {v : PyVal} (read : scan cs = .ok (v,rest)) (ended : Ended rest) (q : List Char) : scan (cs ++ q) = .ok (v,rest ++ q) := by
  have grown := @Stable.grown _ stable cs q fun v' rest' same => by
    rw [read] at same
    cases same
    exact ended
  rwa [read] at grown

theorem Stable.deep {scan : List Char → Except PyError (PyVal × List Char)} (stable : Stable scan) {cs : List Char}
    (read : scan cs = .error tooDeep) (q : List Char) : scan (cs ++ q) = .error tooDeep := by
  have grown := @Stable.grown _ stable cs q fun v' rest' same => by
    rw [read] at same
    cases same
  rw [read] at grown
  exact grown rfl

theorem skip_more {cs rest : List Char} {c : Char} (skipped : skipSpace cs = c :: rest) (q : List Char) :
    skipSpace (cs ++ q) = c :: (rest ++ q) := by
  rw [Embedded.skipSpace_append,if_neg (by simp [skipped]),skipped,List.cons_append]

/-- A mark behind a value ends it. -/
theorem ended_skip {rest more : List Char} {c : Char} (skipped : skipSpace rest = c :: more) (mark : c ∈ [',',']','\x7d']) :
    Ended rest := by
  have marks : ∀ c ∈ [',',']','\x7d'], c.isDigit = false ∧ c ≠ '.' ∧ c ≠ 'e' ∧ c ≠ 'E' := Writing.of_all (by decide)
  have spaces : ∀ c ∈ [' ','\t','\n','\r'], c.isDigit = false ∧ c ≠ '.' ∧ c ≠ 'e' ∧ c ≠ 'E' := Writing.of_all (by decide)
  cases rest with
  | nil => cases skipped
  | cons d rest =>
    refine ended_iff.mpr ⟨d,rest,rfl,?_⟩
    by_cases space : jsonSpace d = true
    · refine spaces d ?_
      simpa [jsonSpace,or_assoc] using space
    · rw [skip_unspaced (Bool.eq_false_iff.mpr space)] at skipped
      rw [(List.cons.inj skipped).1]
      exact marks c mark

/-! ### Texts -/

theorem hexCode_more {cs rest : List Char} {n : Nat} (read : hexCode cs = some (n,rest)) (q : List Char) :
    hexCode (cs ++ q) = some (n,rest ++ q) := by
  rcases cs with _ | ⟨a,_ | ⟨b,_ | ⟨c,_ | ⟨d,more⟩⟩⟩⟩
  all_goals first | cases read | skip
  simp only [hexCode,List.cons_append,Option.bind_eq_bind,Option.bind_eq_some_iff,Option.some.injEq,Prod.mk.injEq] at read ⊢
  obtain ⟨x,hx,y,hy,z,hz,w,hw,sum,rfl⟩ := read
  exact ⟨x,hx,y,hy,z,hz,w,hw,sum,rfl⟩

/-- A literal that cannot be read on from here. -/
def Unread (rest : List Char) : Prop := ∀ fuel done read, scanString fuel rest done ≠ .ok read

theorem unread_nil : Unread [] := by
  intro fuel done read
  cases fuel <;> simp [scanString]

theorem unread_escape {cs : List Char} (broken : escape cs = none) : Unread ('\\' :: cs) := by
  intro fuel done read
  cases fuel with
  | zero => simp [scanString]
  | succ fuel => simp [scanString,broken]

/-- What a high surrogate becomes, with what stands behind it. -/
def joined (code : Nat) (behind : List Char) : Char × List Char :=
  match behind with
  | '\\' :: 'u' :: more =>
    match hexCode more with
    | some (low,rest) =>
      if 0xdc00 ≤ low ∧ low ≤ 0xdfff then (Char.ofNat (0x10000 + (code - 0xd800) * 0x400 + (low - 0xdc00)),rest)
      else (Char.ofNat 0xfffd,behind)
    | none => (Char.ofNat 0xfffd,behind)
  | _ => (Char.ofNat 0xfffd,behind)

theorem joined_plain {behind : List Char} (code : Nat) (other : ∀ more, behind = '\\' :: 'u' :: more → False) :
    joined code behind = (Char.ofNat 0xfffd,behind) := by
  unfold joined
  split
  · next more => exact absurd rfl (other more)
  · rfl

theorem unicode_eq (cs : List Char) : unicodeEscape cs = (hexCode cs).map fun (code,behind) =>
    if 0xd800 ≤ code ∧ code ≤ 0xdbff then joined code behind
    else if 0xdc00 ≤ code ∧ code ≤ 0xdfff then (Char.ofNat 0xfffd,behind) else (Char.ofNat code,behind) := by
  unfold unicodeEscape
  rcases hexCode cs with _ | ⟨code,behind⟩
  · rfl
  · simp only [Option.bind_eq_bind,Option.bind_some,Option.map_some]
    split_ifs with high low
    · split
      · next more =>
        unfold joined
        cases four : hexCode more with
        | none => simp only [four]
        | some found =>
          simp only [four]
          split_ifs <;> simp only
      · next other => rw [joined_plain code other]
    · simp only
    · simp only

theorem joined_more (code : Nat) (behind q : List Char) :
    joined code (behind ++ q) = ((joined code behind).1,(joined code behind).2 ++ q) ∨ Unread (joined code behind).2 := by
  rcases behind with _ | ⟨c,_ | ⟨d,more⟩⟩
  · exact .inr unread_nil
  · by_cases slash : c = '\\'
    · rw [slash]
      exact .inr (unread_escape rfl)
    · exact .inl (by simp [joined,slash])
  · by_cases marks : c = '\\' ∧ d = 'u'
    · obtain ⟨rfl,rfl⟩ := marks
      cases four : hexCode more with
      | none =>
        refine .inr ?_
        have same : joined code ('\\' :: 'u' :: more) = (Char.ofNat 0xfffd,'\\' :: 'u' :: more) := by simp [joined,four]
        rw [same]
        exact unread_escape (show unicodeEscape more = none by rw [unicode_eq,four]; rfl)
      | some found =>
        refine .inl ?_
        simp only [joined,List.cons_append,four,hexCode_more four q]
        split_ifs <;> simp only [List.cons_append]
    · refine .inl ?_
      have other : ∀ more, joined code (c :: d :: more) = (Char.ofNat 0xfffd,c :: d :: more) := by
        intro more
        unfold joined
        split
        · next same =>
          obtain ⟨slash,same⟩ := List.cons.inj same
          exact absurd ⟨slash,(List.cons.inj same).1⟩ marks
        · simp only
      rw [List.cons_append,List.cons_append,other,other]
      simp only [List.cons_append]

/-- An escape is read in the same way, unless the text ends within it. -/
theorem escape_more {cs rest : List Char} {e : Char} (read : escape cs = some (e,rest)) (q : List Char) :
    escape (cs ++ q) = some (e,rest ++ q) ∨ Unread rest := by
  unfold escape at read
  split at read
  all_goals first | (cases read; exact .inl rfl) | cases read | skip
  rename_i more
  show unicodeEscape (more ++ q) = _ ∨ _
  rw [unicode_eq] at read ⊢
  obtain ⟨⟨code,behind⟩,four,read⟩ := Option.map_eq_some_iff.mp read
  rw [hexCode_more four q,Option.map_some]
  by_cases high : 0xd800 ≤ code ∧ code ≤ 0xdbff
  · simp only [if_pos high] at read ⊢
    rcases joined_more code behind q with same | stuck
    · rw [same,read]
      exact .inl rfl
    · rw [read] at stuck
      exact .inr stuck
  · simp only [if_neg high] at read ⊢
    refine .inl ?_
    split_ifs at read ⊢ <;> (cases read; rfl)

theorem string_more {fuel : Nat} {cs done rest : List Char} {s : String} (read : scanString fuel cs done = .ok (s,rest))
    {fuel' : Nat} (more : fuel ≤ fuel') (q : List Char) : scanString fuel' (cs ++ q) done = .ok (s,rest ++ q) := by
  induction fuel generalizing cs done fuel' with
  | zero => cases read
  | succ fuel ih =>
    obtain ⟨fuel',rfl⟩ := Nat.exists_eq_succ_of_ne_zero (Nat.ne_of_gt (Nat.zero_lt_of_lt more))
    have enough : fuel ≤ fuel' := Nat.le_of_succ_le_succ more
    cases cs with
    | nil => cases read
    | cons c cs =>
      rw [scanString] at read
      rw [List.cons_append,scanString]
      split_ifs at read ⊢ with quote slash
      · cases read
        rfl
      · split at read
        · next e behind escaped =>
          rcases escape_more escaped q with same | stuck
          · rw [same]
            exact ih read enough
          · exact absurd read (stuck _ _ _)
        · cases read
      · exact ih read enough

theorem string_refused {fuel : Nat} {cs done : List Char} {exc : PyError} (raised : scanString fuel cs done = .error exc) :
    ∃ message, exc = decodeError message := by
  induction fuel generalizing cs done with
  | zero =>
    cases raised
    exact ⟨_,rfl⟩
  | succ fuel ih =>
    cases cs with
    | nil =>
      cases raised
      exact ⟨_,rfl⟩
    | cons c cs =>
      rw [scanString] at raised
      split_ifs at raised
      · split at raised
        · exact ih raised
        · cases raised
          exact ⟨_,rfl⟩
      · cases raised
        exact ⟨_,rfl⟩
      · exact ih raised

/-! ### Numbers -/

/-- The digits in front are the same when something else stands behind them. -/
theorem digits_more {cs : List Char} (some : cs.dropWhile Char.isDigit ≠ []) (q : List Char) :
    (cs ++ q).takeWhile Char.isDigit = cs.takeWhile Char.isDigit ∧
      (cs ++ q).dropWhile Char.isDigit = cs.dropWhile Char.isDigit ++ q := by
  have behind : ∀ cs : List Char, cs.dropWhile Char.isDigit ≠ [] → (cs ++ q).takeWhile Char.isDigit = cs.takeWhile Char.isDigit ∧
      (cs ++ q).dropWhile Char.isDigit = cs.dropWhile Char.isDigit ++ q := by
    intro cs some
    induction cs with
    | nil => exact absurd rfl some
    | cons c cs ih =>
      by_cases digit : c.isDigit = true
      · rw [List.dropWhile_cons_of_pos digit] at some
        simp [digit,ih some]
      · simp [digit]
  exact behind cs some

/-- The digits of an integer behind its sign. -/
def digitsOf (sign body : List Char) : Option (List Char × List Char) :=
  match body with
  | '0' :: rest => some (sign ++ ['0'],rest)
  | c :: _ => if c.isDigit then some (sign ++ body.takeWhile Char.isDigit,body.dropWhile Char.isDigit) else none
  | [] => none

theorem integer_eq (c : Char) (cs : List Char) :
    scanInteger (c :: cs) = if c = '-' then digitsOf ['-'] cs else digitsOf [] (c :: cs) := by
  split_ifs with minus
  · subst minus
    rfl
  · unfold scanInteger
    split
    next sign body parts =>
    split at parts
    · next same => exact absurd (List.cons.inj same).1 minus
    · cases parts
      rfl

theorem digitsOf_more {sign cs whole rest : List Char} (read : digitsOf sign cs = some (whole,rest)) (behind : rest ≠ [])
    (q : List Char) : digitsOf sign (cs ++ q) = some (whole,rest ++ q) := by
  rcases cs with _ | ⟨c,cs⟩
  · cases read
  · by_cases zero : c = '0'
    · subst zero
      cases read
      rfl
    · have spelled : ∀ more, digitsOf sign (c :: more) =
          if c.isDigit then some (sign ++ (c :: more).takeWhile Char.isDigit,(c :: more).dropWhile Char.isDigit) else none := by
        intro more
        unfold digitsOf
        split
        · next same => exact absurd (List.cons.inj same).1 zero
        · next same => obtain ⟨rfl,rfl⟩ := List.cons.inj same; rfl
        · next same => cases same
      rw [spelled] at read
      split_ifs at read with digit
      obtain ⟨rfl,rfl⟩ := Prod.mk.inj (Option.some.inj read)
      obtain ⟨taken,dropped⟩ := digits_more behind q
      rw [List.cons_append] at taken dropped ⊢
      rw [spelled,if_pos digit,taken,dropped]

theorem integer_more {cs whole rest : List Char} (read : scanInteger cs = some (whole,rest)) (behind : rest ≠ [])
    (q : List Char) : scanInteger (cs ++ q) = some (whole,rest ++ q) := by
  rcases cs with _ | ⟨c,cs⟩
  · cases read
  · rw [integer_eq] at read
    rw [List.cons_append,integer_eq]
    split_ifs at read ⊢
    · exact digitsOf_more read behind q
    · exact digitsOf_more read behind q

theorem fraction_more {cs : List Char} (behind : (scanFraction cs).2 ≠ []) (dotted : (scanFraction cs).2.head? ≠ some '.')
    (q : List Char) : scanFraction (cs ++ q) = ((scanFraction cs).1,(scanFraction cs).2 ++ q) := by
  rcases cs with _ | ⟨c,cs⟩
  · exact absurd rfl behind
  · by_cases point : c = '.'
    · subst point
      rcases cs with _ | ⟨d,cs⟩
      · exact absurd rfl dotted
      · by_cases digit : d.isDigit = true
        · simp only [scanFraction,if_pos digit] at behind
          obtain ⟨taken,dropped⟩ := digits_more behind q
          rw [List.cons_append] at taken dropped
          simp only [List.cons_append,scanFraction,if_pos digit,taken,dropped]
        · simp [scanFraction,digit] at dotted
    · have other : ∀ more, scanFraction (c :: more) = ([],c :: more) := by
        intro more
        unfold scanFraction
        split
        · next same => exact absurd (List.cons.inj same).1 point
        · rfl
      rw [List.cons_append,other,other]
      rfl

/-- The digits of an exponent behind its letter and its sign; without them there is no exponent. -/
def powerOf (cs lead digits : List Char) : List Char × List Char :=
  match digits with
  | d :: _ => if d.isDigit then (lead ++ digits.takeWhile Char.isDigit,digits.dropWhile Char.isDigit) else ([],cs)
  | [] => ([],cs)

theorem exponent_eq {e : Char} (letter : e = 'e' ∨ e = 'E') (c : Char) (cs : List Char) :
    scanExponent (e :: c :: cs) =
      if c = '-' ∨ c = '+' then powerOf (e :: c :: cs) [e,c] cs else powerOf (e :: c :: cs) [e] (c :: cs) := by
  unfold scanExponent
  dsimp only
  rw [if_pos letter]
  split_ifs with sign
  · rcases sign with rfl | rfl <;> rfl
  · obtain ⟨minus,plus⟩ := not_or.mp sign
    simp [minus,plus,powerOf]

theorem powerOf_more {cs lead digits : List Char} (ended : Ended (powerOf cs lead digits).2) (letter : ¬ Ended cs)
    (q more : List Char) :
    powerOf more lead (digits ++ q) = ((powerOf cs lead digits).1,(powerOf cs lead digits).2 ++ q) := by
  rcases digits with _ | ⟨d,digits⟩
  · exact absurd ended letter
  · unfold powerOf at ended ⊢
    by_cases digit : d.isDigit = true
    · simp only [if_pos digit,List.cons_append] at ended ⊢
      obtain ⟨taken,dropped⟩ := digits_more ended.1 q
      rw [List.cons_append] at taken dropped
      rw [taken,dropped]
    · simp only [if_neg digit] at ended
      exact absurd ended letter

theorem exponent_more {cs : List Char} (ended : Ended (scanExponent cs).2) (q : List Char) :
    scanExponent (cs ++ q) = ((scanExponent cs).1,(scanExponent cs).2 ++ q) := by
  rcases cs with _ | ⟨e,cs⟩
  · exact absurd rfl ended.1
  · by_cases letter : e = 'e' ∨ e = 'E'
    · have open_ : ∀ cs, ¬ Ended (e :: cs) := by
        intro cs ended
        have apart := (ended.2 e rfl).2.2
        exact letter.elim apart.1 apart.2
      rcases cs with _ | ⟨c,cs⟩
      · refine absurd ended ?_
        have alone : scanExponent [e] = ([],[e]) := by simp [scanExponent]
        rw [alone]
        exact open_ []
      · rw [exponent_eq letter] at ended ⊢
        rw [List.cons_append,List.cons_append,exponent_eq letter]
        split_ifs at ended ⊢
        · exact powerOf_more ended (open_ _) q _
        · exact powerOf_more ended (open_ _) q _
    · simp only [scanExponent,if_neg letter,List.cons_append]

/-- The first characters of a number are a digit, or a sign and a digit. -/
theorem number_starts {interp : Interpreter} {cs : List Char} {read : Except PyError (PyVal × List Char)}
    (number : scanNumber interp cs = some read) : ∃ c more, cs = c :: more ∧
      (c.isDigit = true ∨ c = '-' ∧ ∃ d rest, more = d :: rest ∧ d.isDigit = true) := by
  have digits : ∀ sign body found, digitsOf sign body = some found → ∃ d rest, body = d :: rest ∧ d.isDigit = true := by
    intro sign body found same
    unfold digitsOf at same
    split at same
    · exact ⟨'0',_,rfl,rfl⟩
    · split_ifs at same with digit
      exact ⟨_,_,rfl,digit⟩
    · cases same
  simp only [scanNumber,Option.bind_eq_bind,Option.bind_eq_some_iff] at number
  obtain ⟨found,whole,-⟩ := number
  rcases cs with _ | ⟨c,more⟩
  · cases whole
  · rw [integer_eq] at whole
    split_ifs at whole with minus
    · exact ⟨c,more,rfl,.inr ⟨minus,digits _ _ _ whole⟩⟩
    · obtain ⟨d,rest,same,digit⟩ := digits _ _ _ whole
      exact ⟨c,more,rfl,.inl ((List.cons.inj same).1 ▸ digit)⟩

theorem number_shallow {interp : Interpreter} {cs : List Char} : scanNumber interp cs ≠ some (.error tooDeep) := by
  intro number
  simp only [scanNumber,Option.bind_eq_bind,Option.bind_eq_some_iff] at number
  obtain ⟨found,whole,read⟩ := number
  split_ifs at read <;> cases read

theorem number_more {interp : Interpreter} {cs rest : List Char} {v : PyVal}
    (number : scanNumber interp cs = some (.ok (v,rest))) (ended : Ended rest) (q : List Char) :
    scanNumber interp (cs ++ q) = some (.ok (v,rest ++ q)) := by
  simp only [scanNumber,Option.bind_eq_bind,Option.bind_eq_some_iff] at number ⊢
  obtain ⟨⟨whole,behind⟩,integer,read⟩ := number
  dsimp only at read
  have last : (scanExponent (scanFraction behind).2).2 = rest := by
    split_ifs at read
    · cases read
    · cases read
      rfl
    · cases read
      rfl
  have power := exponent_more (last ▸ ended) q
  have undotted : (scanFraction behind).2 ≠ [] ∧ (scanFraction behind).2.head? ≠ some '.' := by
    constructor
    · intro none
      rw [none] at last
      exact ended.1 last.symm
    · intro dot
      obtain ⟨more,split⟩ := List.head?_eq_some_iff.mp dot
      rw [split] at last
      have same : rest = '.' :: more := last.symm.trans (by simp [scanExponent])
      exact (ended.2 '.' (by rw [same]; rfl)).2.1 rfl
  have fraction := fraction_more undotted.1 undotted.2 q
  have some_ : behind ≠ [] := by
    rintro rfl
    exact undotted.1 rfl
  refine ⟨(whole,behind ++ q),integer_more integer some_ q,?_⟩
  dsimp only
  rw [fraction]
  dsimp only
  rw [power,last]
  split_ifs at read ⊢
  · cases read
  · cases read
    rfl
  · cases read
    rfl

/-! ### Values -/

/-- White space in front of a text that is not empty. -/
theorem skip_some {cs : List Char} (some : skipSpace cs ≠ []) (q : List Char) : skipSpace (cs ++ q) = skipSpace cs ++ q := by
  rw [Embedded.skipSpace_append,if_neg some]

section
variable {scan : List Char → Except PyError (PyVal × List Char)} (stable : Stable scan)
include stable

theorem items_grown (fuel : Nat) : ∀ (cs : List Char) (done : List PyVal) (fuel' : Nat), fuel ≤ fuel' → ∀ q,
    Grown q (scanItems scan fuel cs done) (scanItems scan fuel' (cs ++ q) done) := by
  induction fuel with
  | zero => exact fun cs done fuel' more q => shallow _ q
  | succ fuel ih =>
    intro cs done fuel' more q
    obtain ⟨fuel',rfl⟩ := Nat.exists_eq_succ_of_ne_zero (Nat.ne_of_gt (Nat.zero_lt_of_lt more))
    have enough : fuel ≤ fuel' := Nat.le_of_succ_le_succ more
    rw [scanItems,scanItems]
    rcases item : scan cs with exc | ⟨value,behind⟩
    · rintro rfl
      rw [stable.deep item q]
      rfl
    · simp only [bind,Except.bind]
      split
      · next others closes =>
        rw [stable.more item (ended_skip closes (by decide)) q]
        simp only [skip_more closes q]
        rfl
      · next others comma =>
        rw [stable.more item (ended_skip comma (by decide)) q]
        simp only [skip_more comma q]
        by_cases there : skipSpace others = []
        · rw [there]
          cases fuel with
          | zero => exact shallow _ q
          | succ fuel =>
            rw [scanItems,stable.empty]
            exact shallow _ q
        · rw [skip_some there]
          exact ih _ _ _ enough q
      · exact shallow _ q

theorem members_grown (fuel : Nat) : ∀ (cs : List Char) (done : Fields) (fuel' : Nat), fuel ≤ fuel' → ∀ q,
    Grown q (scanMembers scan fuel cs done) (scanMembers scan fuel' (cs ++ q) done) := by
  induction fuel with
  | zero => exact fun cs done fuel' more q => shallow _ q
  | succ fuel ih =>
    intro cs done fuel' more q
    obtain ⟨fuel',rfl⟩ := Nat.exists_eq_succ_of_ne_zero (Nat.ne_of_gt (Nat.zero_lt_of_lt more))
    have enough : fuel ≤ fuel' := Nat.le_of_succ_le_succ more
    have other : ∀ cs, cs.head? ≠ some '\"' → Grown q (scanMembers scan (fuel + 1) cs done)
        (scanMembers scan (fuel' + 1) (cs ++ q) done) := by
      intro cs unquoted
      unfold scanMembers
      split
      · exact shallow _ q
      · exact absurd rfl unquoted
      · exact shallow _ q
    rcases cs with _ | ⟨c,text⟩
    · exact other [] nofun
    by_cases quote : c = '\"'
    · subst quote
      rw [List.cons_append,scanMembers,scanMembers]
      rcases literal : scanString (text.length + 1) text [] with exc | ⟨name,behind⟩
      · rintro rfl
        obtain ⟨message,same⟩ := string_refused literal
        cases same
      · rw [string_more literal (by simp) q]
        simp only [bind,Except.bind]
        split
        · next value colon =>
          simp only [skip_more colon q]
          by_cases there : skipSpace value = []
          · rw [there,stable.empty]
            exact shallow _ q
          rw [skip_some there]
          rcases item : scan (skipSpace value) with exc | ⟨value',after⟩
          · rintro rfl
            rw [stable.deep item q]
          · simp only
            split
            · next others closes =>
              simp only [stable.more item (ended_skip closes (by decide)) q,skip_more closes q]
              rfl
            · next others comma =>
              simp only [stable.more item (ended_skip comma (by decide)) q,skip_more comma q]
              by_cases there : skipSpace others = []
              · rw [there]
                cases fuel with
                | zero => exact shallow _ q
                | succ fuel => exact shallow _ q
              · rw [skip_some there]
                exact ih _ _ _ enough q
            · exact shallow _ q
        · exact shallow _ q
    · exact other _ fun same => quote (Option.some.inj same)

theorem kind_grown (k : Kind) (cs q : List Char) : Grown q (scanKind scan k cs) (scanKind scan k (cs ++ q)) := by
  by_cases there : skipSpace cs = []
  · cases k with
    | array =>
      have nothing : scanKind scan .array cs = .error (decodeError "Expecting value") := by
        rw [scanKind,scanArray,there]
        show scanItems scan 1 [] [] = _
        rw [scanItems,stable.empty]
        rfl
      rw [nothing]
      exact shallow _ q
    | object =>
      rw [scanKind,scanObject,there]
      exact shallow _ q
  · obtain ⟨c,items,head⟩ := List.exists_cons_of_ne_nil there
    have more : skipSpace (cs ++ q) = c :: (items ++ q) := skip_more head q
    by_cases closes : c = k.closes
    · rw [closes] at head more
      rw [scanKind_hollow head,scanKind_hollow more]
      rfl
    · rw [scanKind_full head closes,scanKind_full more closes,← List.cons_append]
      cases k with
      | array => exact items_grown stable _ _ _ _ (by simp) q
      | object => exact members_grown stable _ _ _ _ (by simp) q

end

theorem word_more {interp : Interpreter} {cs rest : List Char} {v : PyVal} (word : scanWord interp cs = some (v,rest))
    (q : List Char) : scanWord interp (cs ++ q) = some (v,rest ++ q) := by
  unfold scanWord at word
  split at word
  all_goals first | (cases word; rfl) | cases word

/-- A number is no word, whatever comes behind it. -/
theorem number_wordless {interp : Interpreter} {cs : List Char} {read : Except PyError (PyVal × List Char)}
    (number : scanNumber interp cs = some read) (q : List Char) : scanWord interp (cs ++ q) = none := by
  obtain ⟨c,more,rfl,digit | ⟨rfl,d,digits,rfl,digit⟩⟩ := number_starts number
  · have apart : ∀ e : Char, e.isDigit = false → c ≠ e := fun e no same => by rw [same,no] at digit; cases digit
    simp [scanWord,apart 'n' rfl,apart 't' rfl,apart 'f' rfl,apart 'N' rfl,apart 'I' rfl,apart '-' rfl]
  · have apart : d ≠ 'I' := by rintro rfl; revert digit; decide
    simp [scanWord,apart]

/-- A container is read in the same way, whatever comes behind it. -/
theorem container_grown {interp : Interpreter} {depth : Nat} (stable : ∀ less < depth, Stable (scanOnce interp less))
    (k : Kind) (cs q : List Char) :
    Grown q (scanOnce interp depth (k.opens :: cs)) (scanOnce interp depth (k.opens :: (cs ++ q))) := by
  cases depth with
  | zero =>
    rw [opens_exceeds,opens_exceeds]
    exact fun _ => rfl
  | succ depth =>
    rw [opens_descends,opens_descends]
    exact kind_grown (stable depth (Nat.lt_succ_self depth)) k cs q

theorem string_grown (interp : Interpreter) (depth : Nat) (cs q : List Char) :
    Grown q (scanOnce interp depth ('\"' :: cs)) (scanOnce interp depth ('\"' :: (cs ++ q))) := by
  have spelled : ∀ more, scanOnce interp depth ('\"' :: more) =
      scanString (more.length + 1) more [] >>= fun read => .ok (.str read.1,read.2) := by
    intro more
    cases depth <;> rfl
  rw [spelled,spelled]
  rcases literal : scanString (cs.length + 1) cs [] with exc | ⟨s,rest⟩
  · obtain ⟨message,rfl⟩ := string_refused literal
    exact shallow _ q
  · rw [string_more literal (by simp) q]
    rfl

theorem bare_grown {interp : Interpreter} {depth : Nat} {c : Char} {cs q : List Char} (bare : c ∉ ['\"','\x7b','['])
    (ended : ∀ v rest, scanOnce interp depth (c :: cs) = .ok (v,rest) → Ended rest) :
    Grown q (scanOnce interp depth (c :: cs)) (scanOnce interp depth (c :: (cs ++ q))) := by
  have spelled : ∀ more, scanOnce interp depth (c :: more) = (scanWord interp (c :: more)).elim
      ((scanNumber interp (c :: more)).getD (.error (decodeError "Expecting value"))) .ok := by
    intro more
    rw [scanOnce.eq_def]
    split
    · next same => exact absurd (by simp [(List.cons.inj same).1]) bare
    · next same => exact absurd (by simp [(List.cons.inj same).1]) bare
    · next same => exact absurd (by simp [(List.cons.inj same).1]) bare
    · cases scanWord interp (c :: more) <;> rfl
  rw [spelled] at ended ⊢
  rw [spelled,← List.cons_append]
  cases word : scanWord interp (c :: cs) with
  | some found =>
    rw [word_more word q]
    rfl
  | none =>
    rw [word] at ended
    rcases number : scanNumber interp (c :: cs) with _ | exc | ⟨v,rest⟩
    · exact shallow _ q
    · rintro rfl
      exact absurd number number_shallow
    · rw [number_wordless number q,number_more number (ended v rest (by rw [number]; rfl)) q]
      rfl

theorem scan_stable (interp : Interpreter) (depth : Nat) : Stable (scanOnce interp depth) := by
  induction depth using Nat.strong_induction_on with
  | _ depth ih =>
    refine ⟨by rw [scanOnce.eq_def]; rfl,fun {cs q} ended => ?_⟩
    rcases cs with _ | ⟨c,cs⟩
    · rw [show scanOnce interp depth [] = .error (decodeError "Expecting value") by rw [scanOnce.eq_def]; rfl]
      exact shallow _ q
    by_cases bare : c ∈ ['\"','\x7b','[']
    · simp only [List.mem_cons,List.not_mem_nil,or_false] at bare
      rcases bare with rfl | rfl | rfl
      · exact string_grown interp depth cs q
      · exact container_grown ih .object cs q
      · exact container_grown ih .array cs q
    · exact bare_grown bare ended

/-! ### Texts cut off -/

/-- A text that begins with a container is refused when some of the end of the container is missing: it is no JSON,
    or an integer at its end is too long. -/
theorem cut_refused {interp : Interpreter} {d : Doc} {k : Kind} {cs p q : List Char} (container : d.text = k.opens :: cs)
    (within : d.Within interp.recursion_limit) (clean : d.Clean) (split : d.text = p ++ q) (missing : q ≠ []) :
    ∃ exc, loads interp p = .error exc ∧ (Refusal exc ∨ ∃ message, exc = .ValueError message) := by
  rcases p with _ | ⟨c,p⟩
  · have empty : loads interp [] = .error (decodeError "Expecting value") := by
      show raw_decode interp [] >>= _ = _
      rw [raw_decode,(scan_stable interp _).empty]
      rfl
    exact ⟨_,empty,.inl ⟨_,rfl⟩⟩
  have judged := scan_doc interp d interp.recursion_limit [] (follows_delimited (fun c member => by cases member) d)
  rw [List.append_nil] at judged
  have whole := judged.read within clean
  rw [split,List.cons_append] at container whole
  obtain rfl := (List.cons.inj container).1
  have grown := @container_grown interp interp.recursion_limit (fun less _ => scan_stable interp less) k p q
  have leads : Leads k.opens := by cases k <;> exact .inr (by decide)
  rw [Broken.loads_leads leads]
  rw [whole] at grown
  rcases read : raw_decode interp (k.opens :: p) with exc | ⟨v,rest⟩
  · rw [show scanOnce interp interp.recursion_limit (k.opens :: p) = .error exc from read] at grown
    refine ⟨exc,rfl,?_⟩
    rcases Embedded.tame_scan interp _ _ exc read with refusal | deep | long
    · exact .inl refusal
    · cases grown deep
    · exact .inr long
  · rw [show scanOnce interp interp.recursion_limit (k.opens :: p) = .ok (v,rest) from read] at grown
    exact absurd (List.append_eq_nil_iff.mp (Prod.mk.inj (Except.ok.inj grown)).2.symm).2 missing

end HexAgent.Cuts
