import HexAgent.Stubs
import HexAgent.Bookkeeping

/-!
Objects with broken text: commas behind the last items, or closing brackets that are missing
at the end, in a markdown fence or without one. The gate returns the object of such a text
unless one of its string literals has a comma in front of a closing bracket.
-/
namespace HexAgent.Broken
open HexAgent.Values HexAgent.Json HexAgent.JsonGate HexAgent.Bookkeeping HexAgent.Documents HexAgent.Repair HexAgent.Stubs
open HexAgent.Scripted

/-! ### Stripping -/

/-- White space, as `str.strip` takes it. -/
def Spaces (cs : List Char) : Prop := ∀ c ∈ cs, isSpace c = true

/-- White space removed at the end. -/
def stripEnd (cs : List Char) : List Char := (cs.reverse.dropWhile isSpace).reverse

theorem stripChars_eq (cs : List Char) : stripChars cs = stripEnd (cs.dropWhile isSpace) := rfl

theorem stripEnd_spaces {b : List Char} (spaces : Spaces b) (cs : List Char) : stripEnd (cs ++ b) = stripEnd cs := by
  unfold stripEnd
  rw [List.reverse_append,List.dropWhile_append_of_pos fun c member => spaces c (List.mem_reverse.mp member)]

theorem stripEnd_hard {c : Char} (hard : isSpace c = false) (cs : List Char) : stripEnd (cs ++ [c]) = cs ++ [c] := by
  simp [stripEnd,hard]

theorem stripEnd_behind {c : Char} (hard : isSpace c = false) (cs : List Char) :
    ∀ rest, stripEnd (cs ++ c :: rest) = cs ++ stripEnd (c :: rest) := by
  intro rest
  induction rest using List.reverseRecOn with
  | nil => rw [stripEnd_hard hard,← List.nil_append [c],stripEnd_hard hard]
  | append_singleton rest d ih =>
    rw [← List.cons_append,← List.append_assoc]
    by_cases space : isSpace d = true
    · have spaces : Spaces [d] := by simpa [Spaces] using space
      rw [stripEnd_spaces spaces,stripEnd_spaces spaces,ih]
    · have hard' : isSpace d = false := Bool.eq_false_iff.mpr space
      rw [stripEnd_hard hard',stripEnd_hard hard',List.append_assoc]

/-- What is removed at the end is white space. -/
theorem stripEnd_split (cs : List Char) : ∃ b, Spaces b ∧ cs = stripEnd cs ++ b := by
  refine ⟨(cs.reverse.takeWhile isSpace).reverse,fun c member => List.mem_takeWhile_imp (List.mem_reverse.mp member),?_⟩
  unfold stripEnd
  rw [← List.reverse_append,List.takeWhile_append_dropWhile,List.reverse_reverse]

theorem stripChars_spaces {a b : List Char} (lead : Spaces a) (trail : Spaces b) {c : Char} (hard : isSpace c = false)
    (cs : List Char) : stripChars (a ++ (c :: cs ++ b)) = stripEnd (c :: cs) := by
  rw [stripChars_eq,List.dropWhile_append_of_pos lead,List.cons_append,List.dropWhile_cons_of_neg (by simp [hard]),
    ← List.cons_append,stripEnd_spaces trail]

def grave : Char := Char.ofNat 96

theorem fence_eq : fence = [grave,grave,grave] := rfl

theorem unfenced {c : Char} (other : c ≠ grave) (cs : List Char) : ¬ fence <+: c :: cs := by
  rintro ⟨rest,same⟩
  rw [fence_eq] at same
  exact other (List.cons.inj same).1.symm

/-- A text that begins with no grave accent is only stripped. -/
theorem strip_plain {text cs : List Char} {c : Char} (stripped : stripChars text = c :: cs) (other : c ≠ grave) :
    strip_fences text = c :: cs := by
  unfold strip_fences
  rw [stripped]
  exact if_neg (unfenced other cs)

/-- The ways in which a text is handed over: as it is, or in a markdown fence, with white space
    around it. -/
inductive Wrapped (inner : List Char) : List Char → Prop where
  | plain {lead trail : List Char} (before : Spaces lead) (behind : Spaces trail) : Wrapped inner (lead ++ (inner ++ trail))
  | fenced {lead language gap gap' trail : List Char} (before : Spaces lead)
    (named : ∀ c ∈ language, c.isAlphanum = true) (above : Spaces gap) (below : Spaces gap') (behind : Spaces trail) :
    Wrapped inner (lead ++ (fence ++ (language ++ (gap ++ (inner ++ (gap' ++ (fence ++ trail)))))))

theorem space_not_alphanum {c : Char} (space : isSpace c = true) : c.isAlphanum = false := by
  refine Bool.eq_false_iff.mpr fun alphanum => ?_
  have hard : isSpace c = false := by
    change (decide (c.val ≥ 'A'.val ∧ c.val ≤ 'Z'.val) || (decide (c.val ≥ 'a'.val) && decide (c.val ≤ 'z'.val)) ||
      (decide (c.val ≥ '0'.val) && decide (c.val ≤ '9'.val))) = true at alphanum
    simp only [Bool.or_eq_true,Bool.and_eq_true,decide_eq_true_eq,ge_iff_le,UInt32.le_iff_toNat_le] at alphanum
    have bounds : 48 ≤ c.toNat ∧ c.toNat ≤ 57 ∨ 65 ≤ c.toNat ∧ c.toNat ≤ 90 ∨ 97 ≤ c.toNat ∧ c.toNat ≤ 122 := by
      rcases alphanum with (upper | lower) | digit
      · exact .inr (.inl upper)
      · exact .inr (.inr lower)
      · exact .inl digit
    simp only [isSpace,Bool.or_eq_false_iff,Bool.and_eq_false_iff,decide_eq_false_iff_not,beq_eq_false_iff_ne]
    omega
  rw [hard] at space
  cases space

theorem stripEnd_leads {c : Char} (hard : isSpace c = false) (cs : List Char) : ∃ more, stripEnd (c :: cs) = c :: more := by
  obtain ⟨b,spaces,split⟩ := stripEnd_split (c :: cs)
  rcases stripped : stripEnd (c :: cs) with _ | ⟨d,more⟩
  · rw [stripped,List.nil_append] at split
    rw [spaces c (by rw [← split]; exact List.mem_cons_self)] at hard
    cases hard
  · rw [stripped] at split
    exact ⟨more,by rw [(List.cons.inj split).1]⟩

/-- The wrapping of an object is removed, and the white space behind it. -/
theorem strip_wrapped {cs text : List Char} (wrapped : Wrapped ('\x7b' :: cs) text) :
    strip_fences text = stripEnd ('\x7b' :: cs) := by
  have hard : isSpace '\x7b' = false := rfl
  cases wrapped with
  | plain before behind =>
    obtain ⟨more,begins⟩ := stripEnd_leads hard cs
    have stripped := stripChars_spaces before behind hard cs
    rw [begins] at stripped ⊢
    exact strip_plain stripped (by decide)
  | @fenced lead language gap gap' trail before named above below behind =>
    have outer : stripChars (lead ++ (fence ++ (language ++ (gap ++ ('\x7b' :: cs ++ (gap' ++ (fence ++ trail))))))) =
        fence ++ (language ++ (gap ++ ('\x7b' :: cs ++ (gap' ++ fence)))) := by
      have hard' : isSpace grave = false := rfl
      have stripped := stripChars_spaces before behind hard'
        ([grave,grave] ++ (language ++ (gap ++ ('\x7b' :: cs ++ (gap' ++ fence)))))
      have last := stripEnd_hard hard' (fence ++ (language ++ (gap ++ ('\x7b' :: cs ++ (gap' ++ [grave,grave])))))
      simp only [fence_eq,List.cons_append,List.nil_append,List.append_assoc] at stripped last ⊢
      rw [stripped,last]
    have language' : ((language ++ (gap ++ ('\x7b' :: cs ++ (gap' ++ fence)))).dropWhile Char.isAlphanum) =
        gap ++ ('\x7b' :: cs ++ (gap' ++ fence)) := by
      rw [List.dropWhile_append_of_pos named]
      rcases gap with _ | ⟨c,gap⟩
      · rfl
      · exact List.dropWhile_cons_of_neg (by simp [space_not_alphanum (above c List.mem_cons_self)])
    have inner : stripChars (gap ++ ('\x7b' :: cs ++ (gap' ++ fence))) = '\x7b' :: cs ++ (gap' ++ fence) := by
      have stripped := stripChars_spaces (b := []) above (fun c member => by cases member) hard (cs ++ (gap' ++ fence))
      have last := stripEnd_hard (c := grave) rfl ('\x7b' :: cs ++ (gap' ++ [grave,grave]))
      simp only [fence_eq,List.cons_append,List.nil_append,List.append_assoc,List.append_nil] at stripped last ⊢
      rw [stripped,last]
    have closed : fence <:+ '\x7b' :: cs ++ (gap' ++ fence) := ⟨'\x7b' :: cs ++ gap',by simp⟩
    have body : ('\x7b' :: cs ++ (gap' ++ fence)).take (('\x7b' :: cs ++ (gap' ++ fence)).length - 3) = '\x7b' :: cs ++ gap' := by
      have size : ('\x7b' :: cs ++ (gap' ++ fence)).length - 3 = ('\x7b' :: cs ++ gap').length := by
        simp [fence_eq]
        omega
      rw [size,← List.append_assoc,List.take_left]
    unfold strip_fences
    simp only [outer]
    rw [if_pos (List.prefix_append fence _)]
    have dropped : (fence ++ (language ++ (gap ++ ('\x7b' :: cs ++ (gap' ++ fence))))).drop 3 =
        language ++ (gap ++ ('\x7b' :: cs ++ (gap' ++ fence))) := rfl
    rw [dropped,language',inner,if_pos closed,body]
    exact stripChars_spaces (a := []) (fun c member => by cases member) below hard cs

/-! ### Whole texts -/

section
variable {interp : Interpreter}

theorem loads_leads {c : Char} (leads : Leads c) (cs : List Char) : loads interp (c :: cs) =
    (raw_decode interp (c :: cs)).bind fun read =>
      if skipSpace read.2 = [] then .ok read.1 else .error (decodeError "Extra data") := by
  have mark : ¬ (c :: cs).head? = some (Char.ofNat 0xfeff) := fun same =>
    leads.ne (by decide) (Option.some.inj same)
  unfold loads
  rw [if_neg mark,skip_unspaced leads.unspaced]
  rfl

/-- The text of a document is read whole. -/
theorem loads_doc (d : Doc) : Judged (d.Within interp.recursion_limit) d.Clean (d.value interp) (loads interp d.text) := by
  have judged := scan_doc interp d interp.recursion_limit [] (follows_delimited (fun c member => by cases member) d)
  obtain ⟨c,cs,split,leads⟩ := d.head
  rw [List.append_nil] at judged
  rw [split] at judged ⊢
  rw [loads_leads leads]
  exact judged.bind id id fun within clean => ⟨within,clean,rfl⟩

/-- The text of a stub is never read. -/
theorem loads_stub (s : Stub) (v : PyVal) : Judged (s.heal.Within interp.recursion_limit) False v (loads interp s.text) := by
  have judged := scan_stub interp (v,[]) s interp.recursion_limit
  obtain ⟨c,cs,split,leads⟩ := s.head
  rw [split] at judged ⊢
  rw [loads_leads leads]
  exact judged.bind id id fun _ never => never.elim

theorem not_refusal {error : PyError} (other : ¬ Refusal error) : objectOf (.error error) = .error error :=
  objectOf_error_iff.mpr ⟨rfl,fun message same => other ⟨message,same⟩⟩

theorem refusal_passed {error : PyError} (refusal : Refusal error) : Passed (.error error) := by
  obtain ⟨message,rfl⟩ := refusal
  rfl

/-- A text that is read as one object, or else as another one when it is repaired. -/
theorem parse_repaired {text : String} {o o' r : Fields} {within clean : Prop}
    (whole : Judged within clean (.dict o) (loads interp (strip_fences text.toList)))
    (repaired : Judged within True (.dict o') (loads interp (repair (strip_fences text.toList)))) :
    parse_json_object interp text = .ok r ↔ within ∧ (clean → r = o) ∧ (¬ clean → r = o') := by
  rw [parse_json_object_eq,readings]
  rcases first : loads interp (strip_fences text.toList) with error | read
  · rw [first] at whole
    by_cases w : within
    · have never : ¬ clean := fun c => whole.2 c (whole.1 w)
      have read := repaired.read w trivial
      have found : firstObject (.error error :: loads interp (repair (strip_fences text.toList)) ::
          braceReadings interp (strip_fences text.toList)) = .ok (some o') := by
        rw [firstObject,show objectOf (.error error) = .ok none from refusal_passed (whole.1 w),read]
        rfl
      simp [found,w,never,eq_comm]
    · have raised : ∃ error', firstObject (.error error :: loads interp (repair (strip_fences text.toList)) ::
          braceReadings interp (strip_fences text.toList)) = .error error' := by
        by_cases refusal : Refusal error
        · rcases second : loads interp (repair (strip_fences text.toList)) with error' | read
          · rw [second] at repaired
            refine ⟨error',?_⟩
            rw [firstObject,show objectOf (.error error) = .ok none from refusal_passed refusal]
            simp only [bind,Except.bind]
            rw [firstObject,not_refusal (repaired.2 trivial)]
            rfl
          · rw [second] at repaired
            exact absurd repaired.1 w
        · exact ⟨error,by rw [firstObject,not_refusal refusal]; rfl⟩
      obtain ⟨error',raised⟩ := raised
      simp [raised,w]
  · rw [first] at whole
    obtain ⟨w,c,rfl⟩ := whole
    have found : firstObject (.ok (.dict o) :: loads interp (repair (strip_fences text.toList)) ::
        braceReadings interp (strip_fences text.toList)) = .ok (some o) := rfl
    simp [found,w,c,eq_comm]

theorem object_head {d : Doc} {o : Fields} (object : d.value interp = .dict o) : ∃ cs, d.text = '\x7b' :: cs := by
  cases d with
  | null => cases object
  | bool b => cases object
  | number n =>
    rw [Doc.value,Number.value] at object
    split at object <;> cases object
  | string s => cases object
  | hollow k blank comma => cases k <;> [cases object; exact ⟨_,rfl⟩]
  | full k entries => cases k <;> [cases object; exact ⟨_,rfl⟩]

theorem mend_object {d : Doc} {o : Fields} (object : d.value interp = .dict o) :
    ∃ o', (mend d).value interp = .dict o' := by
  cases d with
  | null => cases object
  | bool b => cases object
  | number n => exact ⟨o,object⟩
  | string s => cases object
  | hollow k blank comma => cases k <;> [cases object; exact ⟨_,rfl⟩]
  | full k entries => cases k <;> [cases object; exact ⟨_,rfl⟩]

/-- A document does not end with white space. -/
theorem stripEnd_doc (d : Doc) : stripEnd d.text = d.text := by
  obtain ⟨b,spaces,split⟩ := stripEnd_split d.text
  have soft : Soft b := fun c member => .inl (spaces c member)
  have hard : ∀ (cs : List Char) (c : Char), isSpace c = false → cs ++ [c] = stripEnd d.text ++ b → b = [] := by
    intro cs c unspaced cut
    rcases cut_last cut with empty | ⟨q,rfl,-⟩
    · exact empty
    · rw [spaces c (List.mem_append_right _ List.mem_cons_self)] at unspaced
      cases unspaced
  have closes : ∀ k : Kind, isSpace k.closes = false := fun k => by cases k <;> rfl
  have none : b = [] := by
    cases d with
    | null => exact cut_bare (word_bare (by decide)) split soft
    | bool value => cases value <;> exact cut_bare (word_bare (by decide)) split soft
    | number n => exact cut_bare (number_bare n) split soft
    | string s => exact hard ('\"' :: s.body) '\"' rfl split
    | hollow k blank comma => exact hard (k.opens :: (blank.1 ++ commaText comma)) k.closes (closes k) (by simpa [Doc.text] using split)
    | full k entries => exact hard (k.opens :: entries.text) k.closes (closes k) split
  rw [none,List.append_nil] at split
  exact split.symm

theorem loads_mend (d : Doc) : Judged (d.Within interp.recursion_limit) True ((mend d).value interp)
    (loads interp (repair d.text)) := by
  rw [repair_doc]
  exact (loads_doc (mend d)).widen (within_mend d _).mpr (fun _ => clean_mend d) fun within _ => ⟨(within_mend d _).mp within,trivial⟩

theorem loads_healed (s : Stub) : Judged (s.heal.Within interp.recursion_limit) True ((mend s.heal).value interp)
    (loads interp (repair s.text)) := by
  rw [repair_stub,← repair_doc]
  exact loads_mend s.heal

/-- A document with commas behind last items is read after the repair, if it has any. -/
theorem parse_commas {d : Doc} {o : Fields} {text : String} (object : d.value interp = .dict o)
    (stripped : strip_fences text.toList = d.text) : parse_json_object interp text = .ok o ↔
      d.Within interp.recursion_limit ∧ (d.Clean ∨ (mend d).value interp = .dict o) := by
  obtain ⟨o',mended⟩ := mend_object object
  have whole := @loads_doc interp d
  have repaired := @loads_mend interp d
  rw [object,← stripped] at whole
  rw [mended,← stripped] at repaired
  rw [parse_repaired whole repaired,mended,PyVal.dict.injEq]
  refine and_congr_right fun _ => ?_
  by_cases clean : d.Clean
  · simp [clean]
  · simp [clean,eq_comm]

/-- A stub is read after the repair. -/
theorem parse_stub {s : Stub} {o : Fields} {text : String} (object : s.heal.value interp = .dict o)
    (stripped : strip_fences text.toList = s.text) : parse_json_object interp text = .ok o ↔
      s.heal.Within interp.recursion_limit ∧ (mend s.heal).value interp = .dict o := by
  obtain ⟨o',mended⟩ := mend_object object
  have broken := @loads_stub interp s (.dict o)
  have repaired := @loads_healed interp s
  rw [← stripped] at broken
  rw [mended,← stripped] at repaired
  rw [parse_repaired broken repaired,mended,PyVal.dict.injEq]
  simp [eq_comm]

end

/-! ### What the rewriting leaves alone -/

/-- No comma of a literal comes with white space in front of a closing bracket. -/
def FreeLiteral (s : Literal) : Prop := mendLiteral s = s

def FreeLabel {k : Kind} : Label k → Prop
  | .bare => True
  | .named name _ _ => FreeLiteral name

mutual
/-- No literal of a document has such a comma. -/
def Free : Doc → Prop
  | .string s => FreeLiteral s
  | .full _ entries => FreeEntries entries
  | _ => True
def FreeEntries {k : Kind} : Entries k → Prop
  | .last _ label value _ _ => FreeLabel label ∧ Free value
  | .more _ label value _ rest => FreeLabel label ∧ Free value ∧ FreeEntries rest
end

/-- The names of an object differ. -/
def Kind.Apart (items : List (String × PyVal)) : Kind → Prop
  | .array => True
  | .object => (items.map Prod.fst).Nodup

section
variable (interp : Interpreter)
mutual
/-- The names of every object in a document differ. -/
def Distinct : Doc → Prop
  | .full k entries => Kind.Apart (entries.items interp) k ∧ DistinctEntries entries
  | _ => True
def DistinctEntries {k : Kind} : Entries k → Prop
  | .last _ _ value _ _ => Distinct value
  | .more _ _ value _ rest => Distinct value ∧ DistinctEntries rest
end
end

theorem decode_plain (c : Char) (own : Plain c) (s : Literal) : Literal.decode (.plain c own :: s) = c :: s.decode := by
  rw [Literal.decode]

/-- White space is removed from the characters with the pieces. -/
theorem decode_dropWhile (s : Literal) : (Literal.decode (s.dropWhile (itself isSpace))).length ≤ s.decode.length := by
  induction s with
  | nil => exact Nat.le_refl _
  | cons piece s ih =>
    by_cases space : itself isSpace piece = true
    · rw [List.dropWhile_cons_of_pos space]
      cases piece with
      | plain c own => rw [decode_plain,List.length_cons]; omega
      | short e known => cases space
      | code u => cases space
    · rw [List.dropWhile_cons_of_neg space]

theorem itself_apart {piece : Piece} (soft : itself isSpace piece = true ∨ itself isCloser piece = true) :
    itself isComma piece = false := by
  cases piece with
  | plain c own => exact space_not_comma soft
  | short e known => rfl
  | code u => rfl

theorem itself_hard {piece : Piece} (closer : itself isCloser piece = true) : itself isSpace piece = false := by
  cases piece with
  | plain c own => exact closer_unspaced closer
  | short e known => rfl
  | code u => rfl

/-- The rewriting puts no code in front. -/
theorem mend_head {s : Literal} {v : Code} {rest : List Piece} (head : mendLiteral s = .code v :: rest) :
    ∃ rest', s = .code v :: rest' := by
  cases s with
  | nil => cases head
  | cons piece s =>
    cases piece with
    | plain c own =>
      rw [mendLiteral,tidy] at head
      split at head
      · next drop =>
        obtain ⟨-,closing⟩ := Bool.and_eq_true_iff.mp drop
        obtain ⟨d,more,behind,closer⟩ := tidy_closing (fun _ => itself_apart) (fun _ => itself_hard) closing
        rw [behind] at head
        obtain ⟨rfl,-⟩ := List.cons.inj head
        cases closer
      · cases head
    | short e known =>
      rw [mendLiteral,tidy_other rfl] at head
      cases head
    | code u =>
      rw [mendLiteral,tidy_other rfl] at head
      obtain ⟨same,-⟩ := List.cons.inj head
      cases same
      exact ⟨s,rfl⟩

theorem mend_piece {piece : Piece} (other : itself isComma piece = false) (s : Literal) :
    mendLiteral (piece :: s) = piece :: mendLiteral s :=
  tidy_other other s

/-- The rewriting shortens every literal that it changes. -/
theorem mended_shorter (s : Literal) : mendLiteral s = s ∨ (mendLiteral s).decode.length < s.decode.length := by
  induction s using Literal.decode.induct with
  | case1 => exact .inl rfl
  | case2 c own s ih =>
    have less : (mendLiteral s).decode.length ≤ (Literal.decode s).length := by
      rcases ih with same | shorter
      · rw [same]
      · exact Nat.le_of_lt shorter
    by_cases drop : (itself isComma (.plain c own) && Closing (itself isSpace) (itself isCloser) s) = true
    · right
      have fewer := decode_dropWhile (mendLiteral s)
      have mended : mendLiteral (.plain c own :: s) = (mendLiteral s).dropWhile (itself isSpace) := by
        rw [mendLiteral,tidy,if_pos drop]
        rfl
      rw [mended,decode_plain,List.length_cons]
      omega
    · have mended : mendLiteral (.plain c own :: s) = .plain c own :: mendLiteral s := by
        rw [mendLiteral,tidy,if_neg drop]
        rfl
      rw [mended,decode_plain,decode_plain,List.length_cons,List.length_cons]
      exact ih.imp (fun same => by rw [same]) Nat.succ_lt_succ
  | case3 e known s ih =>
    rw [mend_piece rfl,Literal.decode,Literal.decode,List.length_cons,List.length_cons]
    exact ih.imp (fun same => by rw [same]) Nat.succ_lt_succ
  | case4 u v s pair ih =>
    rw [mend_piece rfl,mend_piece rfl,Literal.decode,Literal.decode,if_pos pair,if_pos pair,List.length_cons,List.length_cons]
    exact ih.imp (fun same => by rw [same]) Nat.succ_lt_succ
  | case5 u v s alone ih =>
    rw [mend_piece rfl] at ih ⊢
    rw [mend_piece rfl,Literal.decode,Literal.decode,if_neg alone,if_neg alone,List.length_cons,List.length_cons]
    exact ih.imp (fun same => by rw [same]) Nat.succ_lt_succ
  | case6 u s other ih =>
    have other' : ∀ v rest, mendLiteral s = .code v :: rest → False := by
      intro v rest head
      obtain ⟨rest',split⟩ := mend_head head
      exact other v rest' split
    rw [mend_piece rfl,Literal.decode.eq_5 _ _ other',Literal.decode.eq_5 _ _ other,List.length_cons,List.length_cons]
    exact ih.imp (fun same => by rw [same]) Nat.succ_lt_succ

/-- A literal that keeps its value is free of such commas. -/
theorem free_literal {s : Literal} (same : (mendLiteral s).value = s.value) : FreeLiteral s := by
  have decoded : (mendLiteral s).decode = s.decode := by
    have chars := congrArg String.toList same
    simpa [Literal.value] using chars
  rcases mended_shorter s with free | shorter
  · exact free
  · rw [decoded] at shorter
    exact absurd shorter (Nat.lt_irrefl _)

theorem label_mend {k : Kind} {label : Label k} (free : FreeLabel label) : mendLabel label = label := by
  cases label with
  | bare => rfl
  | named name gap lead => rw [mendLabel,show mendLiteral name = name from free]

mutual
/-- The rewriting only drops the commas behind last items of a document without such commas. -/
theorem mend_free : (d : Doc) → Free d → mend d = uncomma d
  | .null,_ => rfl
  | .bool _,_ => rfl
  | .number _,_ => rfl
  | .string s,free => by rw [mend,show mendLiteral s = s from free]; rfl
  | .hollow _ _ _,_ => rfl
  | .full k entries,free => by rw [mend,uncomma,mend_freed entries free]
theorem mend_freed : {k : Kind} → (entries : Entries k) → FreeEntries entries → mendEntries entries = uncommaEntries entries
  | _,.last before label value after comma,free => by
    rw [mendEntries,uncommaEntries,label_mend free.1,mend_free value free.2]
  | _,.more before label value after rest,free => by
    rw [mendEntries,uncommaEntries,label_mend free.1,mend_free value free.2.1,mend_freed rest free.2.2]
end

theorem mend_count {interp : Interpreter} {k : Kind} (entries : Entries k) :
    ((mendEntries entries).items interp).length = (entries.items interp).length := by
  refine mendEntries.induct (fun _ => True) (fun entries => ((mendEntries entries).items interp).length = (entries.items interp).length)
    (fun _ => trivial) (fun _ _ _ => trivial) (fun _ _ _ => trivial) (fun _ _ _ _ => trivial) ?last ?more entries
  case last => exact fun _ _ _ _ _ _ _ => rfl
  case more => exact fun _ _ _ _ _ rest _ ih => congrArg Nat.succ ih

/-- A container whose value is kept keeps its items. -/
theorem items_kept {k : Kind} {items items' : List (String × PyVal)} (apart : Kind.Apart items k)
    (count : items'.length = items.length) (same : k.build items' = k.build items) :
    items'.map Prod.snd = items.map Prod.snd ∧ (k = .object → items' = items) := by
  cases k with
  | array => exact ⟨PyVal.list.inj same,fun other => by cases other⟩
  | object =>
    have merged := PyVal.dict.inj same
    rw [Dicts.merge_distinct apart] at merged
    have whole : items' = items := (Dicts.merge_whole (by rw [merged,count])).symm.trans merged
    exact ⟨by rw [whole],fun _ => whole⟩

section
variable (interp : Interpreter)
mutual
/-- A document with distinct names whose value is kept by the rewriting is free. -/
theorem free_of_value : (d : Doc) → Distinct interp d → (mend d).value interp = d.value interp → Free d
  | .null,_,_ => trivial
  | .bool _,_,_ => trivial
  | .number _,_,_ => trivial
  | .string _,_,same => free_literal (PyVal.str.inj same)
  | .hollow _ _ _,_,_ => trivial
  | .full k entries,distinct,same => by
    obtain ⟨values,fields⟩ := items_kept distinct.1 (mend_count entries) same
    exact free_of_items entries distinct.2 values fields
theorem free_of_items : {k : Kind} → (entries : Entries k) → DistinctEntries interp entries →
    ((mendEntries entries).items interp).map Prod.snd = (entries.items interp).map Prod.snd →
    (k = .object → (mendEntries entries).items interp = entries.items interp) → FreeEntries entries
  | k,.last before label value after comma,distinct,values,fields => by
    refine ⟨?_,free_of_value value distinct (List.cons.inj values).1⟩
    cases label with
    | bare => trivial
    | named name gap lead => exact free_literal (congrArg Prod.fst (List.cons.inj (fields rfl)).1)
  | k,.more before label value after rest,distinct,values,fields => by
    refine ⟨?_,free_of_value value distinct.1 (List.cons.inj values).1,
      free_of_items rest distinct.2 (List.cons.inj values).2 fun object => (List.cons.inj (fields object)).2⟩
    cases label with
    | bare => trivial
    | named name gap lead => exact free_literal (congrArg Prod.fst (List.cons.inj (fields rfl)).1)
end

/-- The rewriting keeps the value of a document with distinct names exactly when no literal
    has a comma in front of a closing bracket. -/
theorem value_kept_iff {d : Doc} (distinct : Distinct interp d) : (mend d).value interp = d.value interp ↔ Free d := by
  refine ⟨free_of_value interp d distinct,fun free => ?_⟩
  rw [mend_free d free]
  exact same_value (compact_uncomma d) interp

end

/-! ### Broken texts -/

section
variable {interp : Interpreter}

/-- Commas are put behind the last items of some containers, or white space and closing
    brackets are cut off at the end. -/
inductive Edited (j : Doc) : List Char → Prop where
  | commas (d : Doc) (same : uncomma d = j) : Edited j d.text
  | cut {p q : List Char} (soft : Soft q) (split : j.text = p ++ q) : Edited j p

/-- No stub is a document. -/
theorem stub_unlike {s : Stub} {j : Doc} (clean : j.Clean) (within : j.Within interp.recursion_limit) : s.text ≠ j.text := by
  intro same
  have broken := @loads_stub interp s .null
  rw [same,(@loads_doc interp j).read within clean] at broken
  exact broken.2.1

/-- The gate returns the object of a broken document exactly when the document is within the
    limits of the reader, and it is not broken at all or the rewriting of the repair leaves
    its object alone. -/
theorem edited_object_iff {j : Doc} {o : Fields} {edited : List Char} {text : String} (clean : j.Clean)
    (object : j.value interp = .dict o) (edit : Edited j edited) (wrapped : Wrapped edited text.toList) :
    parse_json_object interp text = .ok o ↔
      j.Within interp.recursion_limit ∧ (edited = j.text ∨ (mend j).value interp = .dict o) := by
  cases edit with
  | commas d same =>
    have alike : compact d = compact j := by rw [← same,compact_uncomma]
    have object' : d.value interp = .dict o := (same_value alike interp).trans object
    obtain ⟨cs,head⟩ := object_head object'
    have stripped : strip_fences text.toList = d.text := by
      rw [head] at wrapped
      rw [strip_wrapped wrapped,← head,stripEnd_doc]
    rw [parse_commas object' stripped,same_within alike,same_mended alike]
    refine and_congr_right fun within => or_congr_left' fun changed => ⟨fun unbroken => ?_,fun unedited => ?_⟩
    · rw [← same,uncomma_clean d unbroken]
    · have whole := @loads_doc interp d
      rw [unedited,(@loads_doc interp j).read within clean] at whole
      exact whole.2.1
  | @cut _ q soft split =>
    obtain ⟨cs,head⟩ := object_head object
    have begins : [] ++ '\x7b' :: cs = edited ++ q := by rw [← split,head,List.nil_append]
    obtain ⟨p,start,-⟩ := cut_behind begins (leads_not_soft (.inr (by decide)) soft)
    rw [List.nil_append] at start
    obtain ⟨b,spaces,rest⟩ := stripEnd_split edited
    have stripped : strip_fences text.toList = stripEnd edited := by
      rw [start] at wrapped ⊢
      exact strip_wrapped wrapped
    have soft' : Soft (b ++ q) := fun c member => (List.mem_append.mp member).elim (fun m => .inl (spaces c m)) (soft c)
    have split' : j.text = stripEnd edited ++ (b ++ q) := by rw [split,← List.append_assoc,← rest]
    rcases stub_of_cut j _ (b ++ q) clean split' soft' with whole | ⟨s,same,healed⟩
    · obtain ⟨rfl,rfl⟩ := List.append_eq_nil_iff.mp whole
      simp only [List.append_nil] at split' split
      rw [parse_commas object (stripped.trans split'.symm)]
      exact and_congr_right fun _ => ⟨fun _ => .inl split.symm,fun _ => .inl clean⟩
    · have object' : s.heal.value interp = .dict o := (same_value healed interp).trans object
      rw [parse_stub object' (stripped.trans same.symm),same_within healed,same_mended healed]
      refine and_congr_right fun within => ⟨.inr,fun found => found.resolve_left fun unedited => ?_⟩
      exact stub_unlike (s := s) clean within (by rw [same,unedited,stripEnd_doc])

/-- The gate returns the object of a broken document exactly when the document is within the
    limits of the reader, and it is not broken at all or the object is the same without the
    commas that its literals have in front of closing brackets. With distinct names, that is
    when no literal has such a comma. -/
theorem broken_object_iff {j : Doc} {o : Fields} {edited : List Char} {text : String} (clean : j.Clean)
    (object : j.value interp = .dict o) (edit : Edited j edited) (wrapped : Wrapped edited text.toList) :
    (parse_json_object interp text = .ok o ↔
      j.Within interp.recursion_limit ∧ (edited = j.text ∨ (mend j).value interp = .dict o)) ∧
    (Distinct interp j → (parse_json_object interp text = .ok o ↔
      j.Within interp.recursion_limit ∧ (edited = j.text ∨ Free j))) := by
  have returns := edited_object_iff clean object edit wrapped
  refine ⟨returns,fun distinct => ?_⟩
  rw [returns,← object,value_kept_iff interp distinct]

end

/-! ### A note -/

theorem plain_a : Plain 'a' := by unfold Plain; decide
theorem plain_comma : Plain ',' := by unfold Plain; decide
theorem plain_bracket : Plain ']' := by unfold Plain; decide

/-- A note under one name, with or without a comma behind it. -/
def note (s : Literal) (comma : Option Layout) : Doc :=
  .full .object (.last noSpace (.named [.plain 'a' plain_a] noSpace noSpace) (.string s) noSpace comma)

/-- A note in a fence, with a comma behind it, is read. -/
theorem fenced_note_read : parse_json_object plainJson "\x60\x60\x60json\n\x7b\"a\":\"a\",\x7d\n\x60\x60\x60" =
    .ok [("a",.str "a")] := by
  have line : Spaces ['\n'] := List.all_eq_true.mp rfl
  have nothing : Spaces [] := List.all_eq_true.mp rfl
  have info : ∀ c ∈ ['j','s','o','n'], c.isAlphanum = true := List.all_eq_true.mp rfl
  have wrapped : Wrapped (note [.plain 'a' plain_a] (some noSpace)).text
      "\x60\x60\x60json\n\x7b\"a\":\"a\",\x7d\n\x60\x60\x60".toList :=
    .fenced nothing info line line nothing
  have within : (note [.plain 'a' plain_a] none).Within plainJson.recursion_limit := ⟨by decide,trivial⟩
  exact (broken_object_iff (j := note [.plain 'a' plain_a] none) ⟨trivial,rfl⟩ rfl (.commas _ rfl) wrapped).1.mpr
    ⟨within,.inr rfl⟩

/-- The comma that a note has in front of a bracket is lost when the note is repaired. -/
theorem comma_in_note_lost : ∃ j : Doc, j.Clean ∧ j.value plainJson = .dict [("a",.str ",]")] ∧
    Edited j "\x7b\"a\":\",]\",\x7d".toList ∧
    parse_json_object plainJson "\x7b\"a\":\",]\",\x7d" = .ok [("a",.str "]")] := by
  refine ⟨note [.plain ',' plain_comma,.plain ']' plain_bracket] none,⟨trivial,rfl⟩,rfl,?_,by decide +kernel⟩
  exact .commas (note [.plain ',' plain_comma,.plain ']' plain_bracket] (some noSpace)) rfl

end HexAgent.Broken
