import HexAgent.Broken

/-!
Objects inside of a text. An object is found behind any text without an opening brace and in
front of any text. A document that is no object is refused only when no object begins at one of
its braces: the object in an array is returned, and so is one that a string literal holds.
-/
namespace HexAgent.Embedded
open HexAgent.Values HexAgent.Json HexAgent.JsonGate HexAgent.Bookkeeping HexAgent.Documents HexAgent.Repair HexAgent.Stubs
open HexAgent.Broken HexAgent.Scripted

/-! ### Embedded objects -/

theorem dropWhile_before {p : Char → Bool} {c : Char} (stays : p c = false) (cs rest : List Char) :
    (cs ++ c :: rest).dropWhile p = cs.dropWhile p ++ c :: rest := by
  induction cs with
  | nil => exact List.dropWhile_cons_of_neg (by simp [stays])
  | cons d cs ih =>
    by_cases goes : p d = true
    · simpa [goes] using ih
    · simp [goes]

section
variable {before core after : List Char} (noBrace : '\x7b' ∉ before)
include noBrace

theorem stripChars_around : ∃ before' after', stripChars (before ++ '\x7b' :: (core ++ '\x7d' :: after)) =
    before' ++ '\x7b' :: (core ++ '\x7d' :: after') ∧ '\x7b' ∉ before' := by
  obtain ⟨after',stripped⟩ := stripEnd_leads (c := '\x7d') rfl after
  refine ⟨before.dropWhile isSpace,after',?_,fun member => noBrace (List.dropWhile_subset _ member)⟩
  have behind := stripEnd_behind (c := '\x7d') rfl (before.dropWhile isSpace ++ '\x7b' :: core) after
  rw [stripChars_eq,dropWhile_before rfl]
  simpa [stripped] using behind

/-- A text stays around an object when its fences are stripped. -/
theorem strip_around : ∃ before' after', strip_fences (before ++ '\x7b' :: (core ++ '\x7d' :: after)) =
    before' ++ '\x7b' :: (core ++ '\x7d' :: after') ∧ '\x7b' ∉ before' := by
  obtain ⟨b,a,stripped,noBrace⟩ := @stripChars_around before core after noBrace
  unfold strip_fences
  simp only [stripped]
  by_cases fenced : fence <+: b ++ '\x7b' :: (core ++ '\x7d' :: a)
  · obtain ⟨t,opened⟩ := fenced
    have outside : ∃ b', b = fence ++ b' := by
      rcases List.append_eq_append_iff.mp opened with ⟨b',rfl,-⟩ | ⟨c,inside,tail⟩
      · exact ⟨b',rfl⟩
      · cases c with
        | nil => exact ⟨[],by simpa using inside.symm⟩
        | cons d c =>
          obtain ⟨rfl,-⟩ := List.cons.inj tail
          have member : '\x7b' ∈ fence := by rw [inside]; exact List.mem_append_right _ List.mem_cons_self
          exact absurd member (by decide)
    obtain ⟨b',rfl⟩ := outside
    have noBrace' : '\x7b' ∉ b'.dropWhile Char.isAlphanum := fun member =>
      noBrace (List.mem_append_right _ (List.dropWhile_subset _ member))
    have dropped : (fence ++ b' ++ '\x7b' :: (core ++ '\x7d' :: a)).drop 3 = b' ++ '\x7b' :: (core ++ '\x7d' :: a) := rfl
    obtain ⟨b'',a',stripped',noBrace''⟩ := @stripChars_around _ core a noBrace'
    rw [if_pos ⟨t,opened⟩,dropped,dropWhile_before rfl,stripped']
    by_cases closed : fence <:+ b'' ++ '\x7b' :: (core ++ '\x7d' :: a')
    · rw [if_pos closed]
      obtain ⟨t',closed⟩ := closed
      have cut : (b'' ++ '\x7b' :: core) ++ '\x7d' :: a' = t' ++ fence := by rw [closed]; simp
      obtain ⟨a'',rfl,rfl⟩ := cut_behind cut (by decide)
      rw [← closed,List.length_append,show fence.length = 3 from rfl,Nat.add_sub_cancel,List.take_left]
      simpa using @stripChars_around _ core a'' noBrace''
    · rw [if_neg closed]
      exact stripChars_around noBrace''
  · rw [if_neg fenced]
    exact ⟨b,a,rfl,noBrace⟩

end

theorem scanItems_list {scan : List Char → Except PyError (PyVal × List Char)} {fuel : Nat} {cs rest : List Char}
    {done : List PyVal} {v : PyVal} (read : scanItems scan fuel cs done = .ok (v,rest)) : ∃ items, v = .list items := by
  induction fuel generalizing cs done with
  | zero => cases read
  | succ fuel ih =>
    rw [scanItems] at read
    rcases first : scan cs with error | ⟨item,more⟩
    · rw [first] at read
      cases read
    · rw [first] at read
      simp only [bind,Except.bind] at read
      split at read
      · cases read
        exact ⟨_,rfl⟩
      · exact ih read
      · cases read

section
variable {interp : Interpreter} {cs rest : List Char} {o : Fields}

theorem scanWord_object : scanWord interp cs ≠ some (.dict o,rest) := by
  intro read
  unfold scanWord at read
  split at read <;> cases read

theorem scanNumber_object : scanNumber interp cs ≠ some (.ok (.dict o,rest)) := by
  intro read
  unfold scanNumber at read
  rcases whole : scanInteger cs with _ | ⟨digits,more⟩
  · rw [whole] at read
    cases read
  · rw [whole] at read
    simp only [Option.bind_eq_bind,Option.bind_some] at read
    split at read
    · split at read <;> cases read
    · cases read

/-- No object begins with another character than a brace. -/
theorem scan_object {depth : Nat} (read : scanOnce interp depth cs = .ok (.dict o,rest)) : ∃ more, cs = '\x7b' :: more := by
  rw [scanOnce.eq_def] at read
  split at read
  · next more =>
    rcases literal : scanString (more.length + 1) more [] with error | ⟨s,after⟩
    · rw [literal] at read; cases read
    · rw [literal] at read; cases read
  · exact ⟨_,rfl⟩
  · next more =>
    split at read
    · cases read
    · next depth =>
      unfold scanArray at read
      split at read
      · cases read
      · obtain ⟨items,same⟩ := scanItems_list read
        cases same
  · split at read
    · next found word =>
      cases read
      exact absurd word scanWord_object
    · rcases number : scanNumber interp cs with _ | r
      · rw [number] at read; cases read
      · rw [number,Option.getD_some] at read
        rw [read] at number
        exact absurd number scanNumber_object

/-- A text that is read whole as an object. -/
theorem loads_object (read : loads interp cs = .ok (.dict o)) :
    ∃ more rest, skipSpace cs = '\x7b' :: more ∧ raw_decode interp ('\x7b' :: more) = .ok (.dict o,rest) ∧ skipSpace rest = [] := by
  unfold loads at read
  split at read
  · cases read
  · rcases decoded : raw_decode interp (skipSpace cs) with error | ⟨v,rest⟩
    · rw [decoded] at read; cases read
    · rw [decoded] at read
      simp only [bind,Except.bind] at read
      split at read
      · next ends =>
        cases read
        obtain ⟨more,begins⟩ := scan_object decoded
        rw [begins] at decoded
        exact ⟨more,rest,begins,decoded,ends⟩
      · cases read

end

theorem unspaced_of_hard {c : Char} (hard : isSpace c = false) : jsonSpace c = false :=
  Bool.eq_false_iff.mpr fun space => Bool.false_ne_true (hard.symm.trans (space_of_json space))

/-- The first character that is no white space stays, or becomes a closing bracket. -/
theorem tidied_head {cs rest : List Char} {c : Char} (head : skipSpace cs = c :: rest) :
    ∃ d rest', skipSpace (tidied cs) = d :: rest' ∧ (d = c ∨ isCloser d = true) := by
  have blank : ∀ b ∈ cs.takeWhile jsonSpace, jsonSpace b = true := fun b member => List.mem_takeWhile_imp member
  have split : cs = cs.takeWhile jsonSpace ++ c :: rest := by
    rw [← head]
    exact List.takeWhile_append_dropWhile.symm
  have unspaced : jsonSpace c = false := by
    have first := List.head?_dropWhile_not jsonSpace cs
    rw [show cs.dropWhile jsonSpace = c :: rest from head] at first
    simpa using first
  have skipped : skipSpace (tidied cs) = skipSpace (tidied (c :: rest)) := by
    rw [split,tidied_append (layout_commaless ⟨_,blank⟩)]
    exact List.dropWhile_append_of_pos blank
  rw [skipped]
  by_cases drop : (isComma c && Closing isSpace isCloser rest) = true
  · obtain ⟨comma,closing⟩ := Bool.and_eq_true_iff.mp drop
    rcases behind : rest.dropWhile isSpace with _ | ⟨d,after⟩
    · simp [Closing,behind] at closing
    · have closer : isCloser d = true := by simpa [Closing,behind] using closing
      have split' : rest = rest.takeWhile isSpace ++ d :: after := by
        rw [← behind]
        exact List.takeWhile_append_dropWhile.symm
      have dropped := @tidied_dropped (rest.takeWhile isSpace) d (fun b member => List.mem_takeWhile_imp member) closer after
      rw [of_decide_eq_true comma,split',dropped]
      exact ⟨d,_,skip_unspaced (unspaced_of_hard (closer_unspaced closer)) _,.inr closer⟩
  · rw [tidied,tidy,if_neg drop]
    exact ⟨c,_,skip_unspaced unspaced _,.inl rfl⟩

theorem braceReadings_skip {interp : Interpreter} {before : List Char} (noBrace : '\x7b' ∉ before) (cs : List Char) :
    braceReadings interp (before ++ cs) = braceReadings interp cs := by
  induction before with
  | nil => rfl
  | cons c before ih =>
    have other : c ≠ '\x7b' := fun same => noBrace (by rw [same]; exact List.mem_cons_self)
    rw [List.cons_append,braceReadings,if_neg other,ih fun member => noBrace (List.mem_cons_of_mem _ member)]

theorem object_text {interp : Interpreter} {d : Doc} {o : Fields} (object : d.value interp = .dict o) :
    ∃ core, d.text = '\x7b' :: (core ++ ['\x7d']) := by
  cases d with
  | null => cases object
  | bool b => cases object
  | number n =>
    rw [Doc.value,Number.value] at object
    split at object <;> cases object
  | string s => cases object
  | hollow k blank comma =>
    cases k with
    | array => cases object
    | object => exact ⟨blank.1 ++ commaText comma,by simp [Doc.text,Kind.opens,Kind.closes]⟩
  | full k entries =>
    cases k with
    | array => cases object
    | object => exact ⟨entries.text,rfl⟩

/-- Every reading of a text reads a value or refuses the text, as JSON readers do. -/
def Readable (interp : Interpreter) (text : String) : Prop :=
  ∀ r ∈ readings interp text, ∀ error, r = .error error → Refusal error

theorem passed_of {r : Except PyError PyVal} (other : ∀ o, r ≠ .ok (.dict o)) (refused : ∀ error, r = .error error → Refusal error) :
    Passed r := by
  rcases r with error | v
  · exact refusal_passed (refused error rfl)
  · cases v with
    | dict o => exact absurd rfl (other o)
    | _ => rfl

section
variable {interp : Interpreter} {j : Doc} {o : Fields} {before after : List Char}

theorem skipSpace_append (cs rest : List Char) : skipSpace (cs ++ rest) = if skipSpace cs = [] then skipSpace rest else
    skipSpace cs ++ rest := by
  unfold skipSpace
  rw [List.dropWhile_append]
  simp

/-- White space stays in front of a text. -/
theorem skipped_brace (noBrace : '\x7b' ∉ before) {rest more : List Char} (head : skipSpace (before ++ rest) = '\x7b' :: more) :
    skipSpace before = [] := by
  by_contra some
  rw [skipSpace_append,if_neg some] at head
  obtain ⟨c,cs,split⟩ := List.exists_cons_of_ne_nil some
  rw [split] at head
  obtain ⟨rfl,-⟩ := List.cons.inj head
  exact noBrace (List.dropWhile_subset _ (by rw [show before.dropWhile jsonSpace = _ from split]; exact List.mem_cons_self))

/-- The whole text is read as the object, or not as an object at all. -/
theorem whole_embedded (noBrace : '\x7b' ∉ before) (read : raw_decode interp (j.text ++ after) = .ok (.dict o,after)) {f : Fields}
    (whole : loads interp (before ++ (j.text ++ after)) = .ok (.dict f)) : f = o := by
  obtain ⟨more,rest,head,decoded,-⟩ := loads_object whole
  have blank := skipped_brace noBrace head
  obtain ⟨c,cs,split,leads⟩ := j.head
  rw [skipSpace_append,if_pos blank,split,List.cons_append,skip_unspaced leads.unspaced] at head
  rw [← head,← List.cons_append,← split,read] at decoded
  cases decoded
  rfl

/-- With only white space around the object, the whole text is read. -/
theorem whole_alone (blank : skipSpace before = []) (blank' : skipSpace after = [])
    (read : raw_decode interp (j.text ++ after) = .ok (.dict o,after)) :
    loads interp (before ++ (j.text ++ after)) = .ok (.dict o) := by
  obtain ⟨c,cs,split,leads⟩ := j.head
  have mark : ¬ (before ++ (j.text ++ after)).head? = some (Char.ofNat 0xfeff) := by
    rw [split]
    rcases before with _ | ⟨b,before⟩
    · exact fun same => leads.ne (by decide) (Option.some.inj same)
    · have space : jsonSpace b = true := List.dropWhile_eq_nil_iff.mp blank b List.mem_cons_self
      intro same
      rw [Option.some.inj same] at space
      revert space
      decide
  have skipped : skipSpace (before ++ (j.text ++ after)) = j.text ++ after := by
    rw [skipSpace_append,if_pos blank,split,List.cons_append,skip_unspaced leads.unspaced]
  unfold loads
  rw [if_neg mark,skipped,read]
  simp [bind,Except.bind,blank']

theorem follows_object (object : j.value interp = .dict o) (rest : List Char) : Follows j rest := by
  cases j with
  | number n =>
    rw [Doc.value,Number.value] at object
    split at object <;> cases object
  | _ => trivial

/-- The repaired text is read as an object only when nothing stands around the object. -/
theorem whole_repaired (object : j.value interp = .dict o) (noBrace : '\x7b' ∉ before) {f : Fields}
    (whole : loads interp (repair (before ++ (j.text ++ after))) = .ok (.dict f)) :
    skipSpace before = [] ∧ skipSpace after = [] := by
  obtain ⟨more,rest,head,decoded,ends⟩ := loads_object whole
  rw [repair_eq] at head
  have blank : skipSpace before = [] := by
    by_contra some
    obtain ⟨c,cs,split⟩ := List.exists_cons_of_ne_nil some
    have first : skipSpace (before ++ (j.text ++ after)) = c :: (cs ++ (j.text ++ after)) := by
      rw [skipSpace_append,if_neg some,split,List.cons_append]
    obtain ⟨d,rest',tidy,kind⟩ := tidied_head first
    rw [skipSpace_append,if_neg (by rw [tidy]; exact List.cons_ne_nil d rest'),tidy] at head
    obtain ⟨rfl,-⟩ := List.cons.inj head
    rcases kind with rfl | closer
    · exact noBrace (List.dropWhile_subset _ (by rw [show before.dropWhile jsonSpace = _ from split]; exact List.mem_cons_self))
    · cases closer
  refine ⟨blank,?_⟩
  have blanks : ∀ c ∈ before, jsonSpace c = true := List.dropWhile_eq_nil_iff.mp blank
  obtain ⟨o',mended⟩ := mend_object object
  rw [tidied_append (layout_commaless ⟨before,blanks⟩),tidied_doc,List.append_assoc,List.append_assoc,skipSpace_append,
    if_pos blank] at head
  generalize (opened (before ++ ((mend j).text ++ tidied after)) []).map closing = closers at head
  obtain ⟨c,cs,split,leads⟩ := (mend j).head
  have judged := scan_doc interp (mend j) interp.recursion_limit (tidied after ++ closers) (follows_object mended _)
  rw [split,List.cons_append,skip_unspaced leads.unspaced] at head
  rw [split,List.cons_append,head,← raw_decode,decoded] at judged
  rw [show rest = tidied after ++ closers from congrArg Prod.snd judged.2.2] at ends
  by_contra some
  obtain ⟨d,ds,first⟩ := List.exists_cons_of_ne_nil some
  obtain ⟨e,es,tidy,-⟩ := tidied_head first
  rw [skipSpace_append,if_neg (by rw [tidy]; exact List.cons_ne_nil e es),tidy] at ends
  cases ends

end

/-- The gate returns the object of a document behind a text without an opening brace and in
    front of any text. -/
theorem embedded_object_found {interp : Interpreter} {j : Doc} {o : Fields} {before text : String} {after : String}
    (clean : j.Clean) (object : j.value interp = .dict o) (noBrace : '\x7b' ∉ before.toList)
    (embedded : text.toList = before.toList ++ (j.text ++ after.toList)) (readable : Readable interp text) :
    parse_json_object interp text = .ok o := by
  obtain ⟨core,split⟩ := object_text object
  obtain ⟨b,a,stripped,noBrace'⟩ := @strip_around before.toList core after.toList noBrace
  have raw : strip_fences text.toList = b ++ (j.text ++ a) := by
    rw [embedded,split]
    simpa using stripped
  have begins : j.text ++ a = '\x7b' :: (core ++ '\x7d' :: a) := by rw [split]; simp
  have braces : braceReadings interp (b ++ (j.text ++ a)) = (raw_decode interp (j.text ++ a)).map Prod.fst ::
      (raw_decode interp (repair (j.text ++ a))).map Prod.fst :: braceReadings interp (core ++ '\x7d' :: a) := by
    rw [braceReadings_skip noBrace',begins,braceReadings,if_pos rfl]
  have all : readings interp text = loads interp (b ++ (j.text ++ a)) :: loads interp (repair (b ++ (j.text ++ a))) ::
      (raw_decode interp (j.text ++ a)).map Prod.fst :: (raw_decode interp (repair (j.text ++ a))).map Prod.fst ::
        braceReadings interp (core ++ '\x7d' :: a) := by
    rw [readings,raw,braces]
  unfold Readable at readable
  rw [all] at readable
  have read : raw_decode interp (j.text ++ a) = .ok (.dict o,a) := by
    have judged := scan_doc interp j interp.recursion_limit a (follows_object object a)
    rw [← raw_decode,object] at judged
    rcases decoded : raw_decode interp (j.text ++ a) with error | found
    · rw [decoded] at judged
      refine absurd (readable (.error error) ?_ error rfl) (judged.2 clean)
      simp [decoded,Except.map]
    · rw [decoded] at judged
      rw [judged.2.2]
  rw [parse_object_ok_iff]
  by_cases first : ∃ f, loads interp (b ++ (j.text ++ a)) = .ok (.dict f)
  · obtain ⟨f,first⟩ := first
    obtain rfl := whole_embedded noBrace' read first
    exact ⟨[],_,by rw [all,first]; rfl,by simp⟩
  · have passed : Passed (loads interp (b ++ (j.text ++ a))) :=
      passed_of (fun f found => first ⟨f,found⟩) (readable _ List.mem_cons_self)
    have passed' : Passed (loads interp (repair (b ++ (j.text ++ a)))) := by
      refine passed_of (fun f found => ?_) (readable _ (List.mem_cons_of_mem _ List.mem_cons_self))
      obtain ⟨blank,blank'⟩ := whole_repaired object noBrace' found
      exact first ⟨o,whole_alone blank blank' read⟩
    refine ⟨[_,_],_,by rw [all,read]; rfl,?_⟩
    simpa using ⟨passed,passed'⟩

/-- What can be checked of the readings. -/
def readable (interp : Interpreter) (text : String) : Bool := (readings interp text).all fun r => match r with
  | .ok _ => true
  | .error (.JSONDecodeError _) => true
  | .error _ => false

theorem readable_of_check {interp : Interpreter} {text : String} (checked : readable interp text = true) :
    Readable interp text := by
  intro r member error raised
  have here := List.all_eq_true.mp checked r member
  subst raised
  cases error with
  | JSONDecodeError message => exact ⟨message,rfl⟩
  | _ => cases here

/-- A note among brackets and braces is found. -/
theorem note_found : parse_json_object plainJson "Sure [1,]: \x7b\"a\":\"a\"\x7d\x7d,] ok" = .ok [("a",.str "a")] := by
  have embedded : "Sure [1,]: \x7b\"a\":\"a\"\x7d\x7d,] ok".toList =
      "Sure [1,]: ".toList ++ ((note [.plain 'a' plain_a] none).text ++ "\x7d,] ok".toList) := rfl
  refine embedded_object_found ?_ rfl ?_ embedded (readable_of_check ?_)
  · exact ⟨trivial,rfl⟩
  · decide
  · decide +kernel

/-! ### Documents that are no objects -/

theorem scanMembers_dict {scan : List Char → Except PyError (PyVal × List Char)} {fuel : Nat} {cs rest : List Char}
    {done : Fields} {v : PyVal} (read : scanMembers scan fuel cs done = .ok (v,rest)) : ∃ o, v = .dict o := by
  induction fuel generalizing cs done with
  | zero => cases read
  | succ fuel ih =>
    unfold scanMembers at read
    split at read
    · cases read
    · next fuel' more same =>
      obtain rfl := Nat.succ.inj same
      rcases name : scanString (more.length + 1) more [] with error | ⟨s,behind⟩
      · rw [name] at read; cases read
      · rw [name] at read
        simp only [bind,Except.bind] at read
        split at read
        · next behind' _ =>
          rcases value : scan (skipSpace behind') with error | ⟨item,behind''⟩
          · rw [value] at read; cases read
          · rw [value] at read
            simp only at read
            split at read
            · cases read
              exact ⟨_,rfl⟩
            · exact ih read
            · cases read
        · cases read
    · cases read

/-- Behind an opening brace, only objects are read. -/
theorem scan_braced {interp : Interpreter} {depth : Nat} {cs rest : List Char} {v : PyVal}
    (read : scanOnce interp depth ('\x7b' :: cs) = .ok (v,rest)) : ∃ o, v = .dict o := by
  cases depth with
  | zero => cases read
  | succ depth =>
    have members : scanObject (scanOnce interp depth) cs = .ok (v,rest) := read
    unfold scanObject at members
    split at members
    · cases members
      exact ⟨[],rfl⟩
    · exact scanMembers_dict members

/-- What a reader raises: its refusal, a nesting that is too deep, or an integer that is too long. -/
def ReaderError (error : PyError) : Prop := Refusal error ∨ error = tooDeep ∨ ∃ message, error = .ValueError message

/-- A reading that raises nothing else. -/
def Tame {α : Type} (r : Except PyError α) : Prop := ∀ error, r = .error error → ReaderError error

section
variable {α β : Type}

theorem tame_ok (v : α) : Tame (.ok v : Except PyError α) := fun _ same => by cases same

theorem tame_refusal (message : String) : Tame (.error (.JSONDecodeError message) : Except PyError α) := by
  intro error same
  cases same
  exact .inl ⟨message,rfl⟩

theorem Tame.bind {r : Except PyError α} {f : α → Except PyError β} (first : Tame r) (next : ∀ v, Tame (f v)) : Tame (r.bind f) := by
  rcases r with error | v
  · intro error' same
    cases same
    exact first error rfl
  · exact next v

end

theorem tame_string (fuel : Nat) : ∀ cs done, Tame (scanString fuel cs done) := by
  induction fuel with
  | zero => exact fun cs done => tame_refusal _
  | succ fuel ih =>
    intro cs done
    rcases cs with _ | ⟨c,cs⟩
    · exact tame_refusal _
    · rw [scanString]
      split
      · exact tame_ok _
      · split
        · split
          · exact ih _ _
          · exact tame_refusal _
        · split
          · exact tame_refusal _
          · exact ih _ _

theorem tame_number (interp : Interpreter) (cs : List Char) :
    Tame ((scanNumber interp cs).getD (.error (decodeError "Expecting value"))) := by
  unfold scanNumber
  rcases scanInteger cs with _ | ⟨digits,more⟩
  · exact tame_refusal _
  · simp only [Option.bind_eq_bind,Option.bind_some]
    split
    · split
      · rintro error ⟨⟩
        exact .inr (.inr ⟨_,rfl⟩)
      · exact tame_ok _
    · exact tame_ok _

section
variable {scan : List Char → Except PyError (PyVal × List Char)} (tame : ∀ cs, Tame (scan cs))
include tame

theorem tame_items (fuel : Nat) : ∀ cs done, Tame (scanItems scan fuel cs done) := by
  induction fuel with
  | zero => exact fun cs done => tame_refusal _
  | succ fuel ih =>
    intro cs done
    rw [scanItems]
    refine (tame cs).bind ?_
    rintro ⟨value,rest⟩
    dsimp only
    split
    · exact tame_ok _
    · exact ih _ _
    · exact tame_refusal _

theorem tame_members (fuel : Nat) : ∀ cs done, Tame (scanMembers scan fuel cs done) := by
  induction fuel with
  | zero => exact fun cs done => tame_refusal _
  | succ fuel ih =>
    intro cs done
    unfold scanMembers
    split
    · exact tame_refusal _
    · next fuel' more same =>
      obtain rfl := Nat.succ.inj same
      refine (tame_string _ _ _).bind ?_
      rintro ⟨name,rest⟩
      dsimp only
      split
      · refine (tame _).bind ?_
        rintro ⟨value,rest⟩
        dsimp only
        split
        · exact tame_ok _
        · exact ih _ _
        · exact tame_refusal _
      · exact tame_refusal _
    · exact tame_refusal _

theorem tame_array (cs : List Char) : Tame (scanArray scan cs) := by
  unfold scanArray
  split
  · exact tame_ok _
  · exact tame_items tame _ _ _

theorem tame_object (cs : List Char) : Tame (scanObject scan cs) := by
  unfold scanObject
  split
  · exact tame_ok _
  · exact tame_members tame _ _ _

end

/-- The reader never raises the refusal of the gate. -/
theorem tame_scan (interp : Interpreter) (depth : Nat) : ∀ cs, Tame (scanOnce interp depth cs) := by
  have deep : Tame (.error tooDeep : Except PyError (PyVal × List Char)) := by
    rintro error ⟨⟩
    exact .inr (.inl rfl)
  induction depth with
  | zero =>
    intro cs
    unfold scanOnce
    split
    · exact (tame_string _ _ _).bind fun read => tame_ok _
    · exact deep
    · exact deep
    · split
      · exact tame_ok _
      · exact tame_number interp cs
  | succ depth ih =>
    intro cs
    unfold scanOnce
    split
    · exact (tame_string _ _ _).bind fun read => tame_ok _
    · exact tame_object ih _
    · exact tame_array ih _
    · split
      · exact tame_ok _
      · exact tame_number interp cs

theorem tame_loads (interp : Interpreter) (cs : List Char) : Tame (loads interp cs) := by
  unfold loads
  split
  · exact tame_refusal _
  · refine (tame_scan interp _ _).bind ?_
    rintro ⟨value,rest⟩
    dsimp only
    split
    · exact tame_ok _
    · exact tame_refusal _

theorem tame_raw (interp : Interpreter) (cs : List Char) : Tame ((raw_decode interp cs).map Prod.fst) := by
  have tame := tame_scan interp interp.recursion_limit cs
  rw [← raw_decode] at tame
  rcases read : raw_decode interp cs with error | found
  · rw [read] at tame
    rintro error' ⟨⟩
    exact tame error rfl
  · exact tame_ok _

theorem tame_readings (interp : Interpreter) (text : String) : ∀ r ∈ readings interp text, Tame r := by
  have braces : ∀ cs, ∀ r ∈ braceReadings interp cs, Tame r := by
    intro cs
    induction cs with
    | nil => exact fun r member => by cases member
    | cons c cs ih =>
      rw [braceReadings]
      split
      · exact List.forall_mem_cons.mpr ⟨tame_raw interp _,List.forall_mem_cons.mpr ⟨tame_raw interp _,ih⟩⟩
      · exact ih
  unfold readings
  exact List.forall_mem_cons.mpr ⟨tame_loads interp _,List.forall_mem_cons.mpr ⟨tame_loads interp _,braces _⟩⟩

theorem firstObject_none_iff {attempts : List (Except PyError PyVal)} :
    firstObject attempts = .ok none ↔ ∀ r ∈ attempts, Passed r := by
  induction attempts with
  | nil => simp [firstObject]
  | cons attempt rest ih =>
    rw [firstObject,List.forall_mem_cons,← ih]
    unfold Passed
    rcases objectOf attempt with error | _ | fields
    · simp [bind,Except.bind]
    · simp [bind,Except.bind]
    · simp [bind,Except.bind]

/-- The gate refuses a text exactly when every reading of it is passed over. -/
theorem refused_iff {interp : Interpreter} {text : String} :
    (∃ message stage candidate, parse_json_object interp text = .error (.JsonGateError message stage candidate)) ↔
      ∀ r ∈ readings interp text, Passed r := by
  rw [← firstObject_none_iff,parse_json_object_eq]
  rcases first : firstObject (readings interp text) with error | _ | fields
  · obtain ⟨before,r,later,split,-,here⟩ := (firstObject_iff (by simp)).mp first
    obtain ⟨rfl,-⟩ := objectOf_error_iff.mp here
    have kind := tame_readings interp text (.error error) (by rw [split]; simp) error rfl
    refine ⟨?_,fun found => by cases found⟩
    rintro ⟨message,stage,candidate,same⟩
    rw [show error = _ from Except.error.inj same] at kind
    rcases kind with ⟨_,same⟩ | same | ⟨_,same⟩ <;> cases same
  · simp
  · simp

/-- From no opening brace of a text on, the reader accepts what is there, as it stands or
    repaired; nor does it raise anything but its refusal. -/
def Objectless (interp : Interpreter) (cs : List Char) : Prop := ∀ tail, '\x7b' :: tail <:+ cs →
  (∃ error, raw_decode interp ('\x7b' :: tail) = .error error ∧ Refusal error) ∧
  (∃ error, raw_decode interp (repair ('\x7b' :: tail)) = .error error ∧ Refusal error)

theorem braced_passed_iff {interp : Interpreter} {cs : List Char} : Passed ((raw_decode interp ('\x7b' :: cs)).map Prod.fst) ↔
    ∃ error, raw_decode interp ('\x7b' :: cs) = .error error ∧ Refusal error := by
  rcases read : raw_decode interp ('\x7b' :: cs) with error | ⟨v,rest⟩
  · constructor
    · intro passed
      by_contra other
      have foreign : ¬ Refusal error := fun refusal => other ⟨error,rfl,refusal⟩
      have raised : objectOf (.error error) = .error error := not_refusal foreign
      rw [Passed,Except.map,raised] at passed
      cases passed
    · rintro ⟨error',same,refusal⟩
      cases same
      exact refusal_passed refusal
  · obtain ⟨o,rfl⟩ := scan_braced read
    constructor
    · intro passed
      cases passed
    · rintro ⟨error,same,-⟩
      cases same

theorem repair_braced (cs : List Char) : ∃ more, repair ('\x7b' :: cs) = '\x7b' :: more := by
  have brace : isComma '\x7b' = false := rfl
  rw [repair_eq,tidied,tidy_other brace]
  exact ⟨_,rfl⟩

theorem objectless_iff {interp : Interpreter} {cs : List Char} :
    (∀ r ∈ braceReadings interp cs, Passed r) ↔ Objectless interp cs := by
  induction cs with
  | nil => simp [braceReadings,Objectless]
  | cons c cs ih =>
    have others : Objectless interp (c :: cs) ↔ (c = '\x7b' → (∃ error, raw_decode interp (c :: cs) = .error error ∧ Refusal error) ∧
        ∃ error, raw_decode interp (repair (c :: cs)) = .error error ∧ Refusal error) ∧ Objectless interp cs := by
      unfold Objectless
      constructor
      · refine fun all => ⟨?_,fun tail behind => all tail (behind.trans (List.suffix_cons c cs))⟩
        rintro rfl
        exact all cs (List.suffix_refl _)
      · rintro ⟨here,later⟩ tail behind
        rcases List.suffix_cons_iff.mp behind with same | behind
        · obtain ⟨rfl,rfl⟩ := List.cons.inj same
          exact here rfl
        · exact later tail behind
    rw [others,← ih,braceReadings]
    by_cases brace : c = '\x7b'
    · subst brace
      obtain ⟨more,repaired⟩ := repair_braced cs
      rw [if_pos rfl,List.forall_mem_cons,List.forall_mem_cons,braced_passed_iff,repaired,braced_passed_iff]
      simp [and_assoc]
    · simp [brace]

theorem strip_document {d : Doc} (lead trail : Layout) {text : String} (document : text.toList = lead.1 ++ (d.text ++ trail.1)) :
    strip_fences text.toList = d.text := by
  obtain ⟨c,cs,split,leads⟩ := d.head
  have spaces : ∀ l : Layout, Spaces l.1 := fun l b member => space_of_json (l.2 b member)
  have stripped := stripChars_spaces (spaces lead) (spaces trail) leads.hard cs
  rw [← split,stripEnd_doc,← document] at stripped
  rw [split] at stripped ⊢
  exact strip_plain stripped (leads.ne (by decide))

theorem passed_iff_within {v : PyVal} {within : Prop} {r : Except PyError PyVal}
    (other : ∀ o, v ≠ .dict o) (judged : Judged within True v r) : Passed r ↔ within := by
  rcases r with error | read
  · refine ⟨fun passed => ?_,fun w => refusal_passed (judged.1 w)⟩
    rw [Passed,not_refusal (judged.2 trivial)] at passed
    cases passed
  · obtain ⟨w,-,rfl⟩ := judged
    exact ⟨fun _ => w,fun _ => passed_of (fun o same => other o (Except.ok.inj same)) fun _ same => by cases same⟩

theorem mend_other {interp : Interpreter} {d : Doc} (other : ∀ o, d.value interp ≠ .dict o) :
    ∀ o, (mend d).value interp ≠ .dict o := by
  intro o mended
  cases d with
  | null => cases mended
  | bool b => cases mended
  | number n => exact other o mended
  | string s => cases mended
  | hollow k blank comma => cases k <;> [cases mended; exact other _ rfl]
  | full k entries => cases k <;> [cases mended; exact other _ rfl]

/-- A document that is no object is refused when the reader takes it and no object begins at
    one of its braces. -/
theorem document_passed_iff {interp : Interpreter} {d : Doc} {lead trail : Layout} {text : String} (clean : d.Clean)
    (other : ∀ o, d.value interp ≠ .dict o) (document : text.toList = lead.1 ++ (d.text ++ trail.1)) :
    (∀ r ∈ readings interp text, Passed r) ↔ d.Within interp.recursion_limit ∧ Objectless interp d.text := by
  have whole : Judged (d.Within interp.recursion_limit) True (d.value interp) (loads interp d.text) :=
    (@loads_doc interp d).widen id (fun _ => clean) fun within _ => ⟨within,trivial⟩
  rw [readings,strip_document lead trail document,List.forall_mem_cons,List.forall_mem_cons,
    passed_iff_within other whole,passed_iff_within (mend_other other) (@loads_mend interp d),objectless_iff,← and_assoc,
    and_self]

/-! ### Nested objects -/

mutual
/-- An object occurs in a document, outside of its literals. -/
def Holds : Doc → Prop
  | .hollow k _ _ => k = .object
  | .full k entries => k = .object ∨ HoldsEntries entries
  | _ => False
def HoldsEntries {k : Kind} : Entries k → Prop
  | .last _ _ value _ _ => Holds value
  | .more _ _ value _ rest => Holds value ∨ HoldsEntries rest
end

mutual
theorem within_mono : (d : Doc) → {depth depth' : Nat} → depth ≤ depth' → d.Within depth → d.Within depth'
  | .null,_,_,_,_ => trivial
  | .bool _,_,_,_,_ => trivial
  | .number _,_,_,_,fits => fits
  | .string _,_,_,_,_ => trivial
  | .hollow _ _ _,_,_,less,within => Nat.lt_of_lt_of_le within less
  | .full _ entries,_,_,less,within =>
    ⟨Nat.lt_of_lt_of_le within.1 less,within_mono_entries entries (Nat.sub_le_sub_right less 1) within.2⟩
theorem within_mono_entries : {k : Kind} → (entries : Entries k) → {depth depth' : Nat} → depth ≤ depth' →
    entries.Within depth → entries.Within depth'
  | _,.last _ _ value _ _,_,_,less,within => within_mono value less within
  | _,.more _ _ value _ rest,_,_,less,within => ⟨within_mono value less within.1,within_mono_entries rest less within.2⟩
end

section
variable (interp : Interpreter)

/-- An object that occurs in a text, within the limits of the reader. -/
def Occurs (depth : Nat) (cs : List Char) : Prop := ∃ (e : Doc) (before after : List Char) (o : Fields),
  cs = before ++ (e.text ++ after) ∧ e.Clean ∧ e.Within depth ∧ e.value interp = .dict o

theorem Occurs.around {depth depth' : Nat} {cs : List Char} (occurs : Occurs interp depth cs) (less : depth ≤ depth')
    (lead trail : List Char) : Occurs interp depth' (lead ++ (cs ++ trail)) := by
  obtain ⟨e,before,after,o,rfl,clean,within,object⟩ := occurs
  exact ⟨e,lead ++ before,after ++ trail,o,by simp,clean,within_mono e less within,object⟩

mutual
theorem occurs_doc : (d : Doc) → (depth : Nat) → Holds d → d.Clean → d.Within depth → Occurs interp depth d.text
  | .hollow k blank comma,depth,holds,clean,within => by
    cases (holds : k = .object)
    exact ⟨.hollow .object blank comma,[],[],_,by simp,clean,within,rfl⟩
  | .full k entries,depth,holds,clean,within => by
    by_cases object : k = .object
    · cases object
      exact ⟨.full .object entries,[],[],_,by simp,clean,within,rfl⟩
    · have inner := occurs_entries entries (depth - 1) (holds.resolve_left object) clean within.2
      exact inner.around interp (Nat.sub_le depth 1) [k.opens] [k.closes]
theorem occurs_entries : {k : Kind} → (entries : Entries k) → (depth : Nat) → HoldsEntries entries → entries.Clean →
    entries.Within depth → Occurs interp depth entries.text
  | _,.last before label value after comma,depth,holds,clean,within => by
    have inner := (occurs_doc value depth holds clean.1 within).around interp (Nat.le_refl depth) (before.1 ++ label.text)
      (after.1 ++ commaText comma)
    simpa [Entries.text] using inner
  | _,.more before label value after rest,depth,holds,clean,within => by
    rcases holds with here | later
    · have inner := (occurs_doc value depth here clean.1 within.1).around interp (Nat.le_refl depth) (before.1 ++ label.text)
        (after.1 ++ ',' :: rest.text)
      simpa [Entries.text] using inner
    · have inner := (occurs_entries rest depth later clean.2 within.2).around interp (Nat.le_refl depth)
        (before.1 ++ (label.text ++ (value.text ++ (after.1 ++ [','])))) []
      simpa [Entries.text] using inner
end

/-- A document that holds an object is never refused. -/
theorem holder_not_objectless {d : Doc} (holds : Holds d) (clean : d.Clean) (within : d.Within interp.recursion_limit) :
    ¬ Objectless interp d.text := by
  intro objectless
  obtain ⟨e,before,after,o,split,clean',within',object⟩ := occurs_doc interp d interp.recursion_limit holds clean within
  obtain ⟨core,text⟩ := object_text object
  have read := (scan_doc interp e interp.recursion_limit after (follows_object object after)).read within' clean'
  obtain ⟨⟨error,raised,-⟩,-⟩ := objectless (core ++ '\x7d' :: after) ⟨before,by rw [split,text]; simp⟩
  have same : e.text ++ after = '\x7b' :: (core ++ '\x7d' :: after) := by rw [text]; simp
  rw [same,← raw_decode,raised] at read
  cases read

end

/-- A document that is no object is refused exactly when it is within the limits of the reader,
    no object occurs in it, and no object begins at a brace in its literals, neither as the
    text stands nor when it is repaired. -/
theorem document_refused_iff {interp : Interpreter} {d : Doc} {lead trail : Layout} {text : String} (clean : d.Clean)
    (other : ∀ o, d.value interp ≠ .dict o) (document : text.toList = lead.1 ++ (d.text ++ trail.1)) :
    (∃ message stage candidate, parse_json_object interp text = .error (.JsonGateError message stage candidate)) ↔
      d.Within interp.recursion_limit ∧ ¬ Holds d ∧ Objectless interp d.text := by
  rw [refused_iff,document_passed_iff clean other document]
  refine and_congr_right fun within => ⟨fun objectless => ⟨fun holds => ?_,objectless⟩,And.right⟩
  exact holder_not_objectless interp holds clean within objectless

/-- A document without braces is refused. -/
theorem braceless_refused : ∃ message stage candidate,
    parse_json_object plainJson " [\"a\"]" = .error (.JsonGateError message stage candidate) := by
  have space : ∀ c ∈ [' '], jsonSpace c = true := List.all_eq_true.mp rfl
  have objectless : Objectless plainJson ['[','\"','a','\"',']'] :=
    fun _ behind => absurd (behind.subset List.mem_cons_self) (by decide)
  have document : " [\"a\"]".toList = (⟨[' '],space⟩ : Layout).1 ++
      ((Doc.full .array (.last noSpace .bare (.string [.plain 'a' plain_a]) noSpace none)).text ++ noSpace.1) := rfl
  refine (document_refused_iff ?_ ?_ document).mpr ⟨⟨by decide,trivial⟩,by simp [Holds,HoldsEntries],objectless⟩
  · exact ⟨trivial,rfl⟩
  · exact fun _ same => by cases same

theorem plain_brace : Plain '\x7b' := by unfold Plain; decide
theorem plain_brace' : Plain '\x7d' := by unfold Plain; decide

/-- The object in an array is returned, and the one that a string holds. -/
theorem fragments_returned :
    (∃ d : Doc, d.Clean ∧ d.value plainJson = .list [.dict [("a",.str "a")]] ∧ d.text = "[\x7b\"a\":\"a\"\x7d]".toList ∧
      parse_json_object plainJson "[\x7b\"a\":\"a\"\x7d]" = .ok [("a",.str "a")]) ∧
    ∃ d : Doc, d.Clean ∧ d.value plainJson = .str "\x7b\x7d" ∧ d.text = "\"\x7b\x7d\"".toList ∧
      parse_json_object plainJson "\"\x7b\x7d\"" = .ok [] :=
  ⟨⟨.full .array (.last noSpace .bare (note [.plain 'a' plain_a] none) noSpace none),⟨⟨trivial,rfl⟩,rfl⟩,rfl,rfl,by decide +kernel⟩,
    ⟨.string [.plain '\x7b' plain_brace,.plain '\x7d' plain_brace'],trivial,rfl,rfl,by decide +kernel⟩⟩

end HexAgent.Embedded
