import HexAgent.Documents
import Mathlib.Data.List.TakeWhile

/-!
What the repair of a text does to the text of a document. Commas in front of a closing
bracket are dropped, inside of string literals as well; the brackets that are open at the
end are closed. A document loses the commas behind the last items of its containers, and a
document that lacks closing brackets at its end gets them back.
-/
namespace HexAgent.Repair
open HexAgent.Values HexAgent.Json HexAgent.JsonGate HexAgent.Documents

/-! ### Dropping commas -/

section
variable {α : Type} (comma space closer : α → Bool)

/-- A closing bracket comes next, behind white space. -/
def Closing (xs : List α) : Bool := match xs.dropWhile space with
  | x :: _ => closer x
  | [] => false

/-- Commas dropped where a closing bracket comes next, with the white space up to it. -/
def tidy : List α → List α
  | [] => []
  | x :: rest => if comma x && Closing space closer rest then (tidy rest).dropWhile space else x :: tidy rest

end

section
variable {α : Type} {comma space closer : α → Bool}

theorem tidy_other {x : α} (other : comma x = false) (rest : List α) :
    tidy comma space closer (x :: rest) = x :: tidy comma space closer rest := by
  simp [tidy,other]

theorem tidy_append {xs : List α} (others : ∀ x ∈ xs, comma x = false) (rest : List α) :
    tidy comma space closer (xs ++ rest) = xs ++ tidy comma space closer rest := by
  induction xs with
  | nil => rfl
  | cons x xs ih =>
    obtain ⟨other,others⟩ := List.forall_mem_cons.mp others
    rw [List.cons_append,tidy_other other,ih others,List.cons_append]

theorem tidy_kept {x : α} {rest : List α} (open_ : Closing space closer rest = false) :
    tidy comma space closer (x :: rest) = x :: tidy comma space closer rest := by
  simp [tidy,open_]

section
variable (apart : ∀ b, space b = true ∨ closer b = true → comma b = false)
include apart

theorem tidy_closer {c : α} {blank : List α} (blanks : ∀ b ∈ blank, space b = true) (closes : closer c = true) (rest : List α) :
    tidy comma space closer (blank ++ c :: rest) = blank ++ c :: tidy comma space closer rest := by
  rw [tidy_append fun b member => apart b (.inl (blanks b member)),tidy_other (apart c (.inr closes))]

/-- A comma, white space and a closing bracket become the bracket. -/
theorem tidy_dropped {x c : α} {blank : List α} (isComma : comma x = true) (blanks : ∀ b ∈ blank, space b = true)
    (hard : space c = false) (closes : closer c = true) (rest : List α) :
    tidy comma space closer (x :: (blank ++ c :: rest)) = c :: tidy comma space closer rest := by
  have skipped : ∀ more, (blank ++ c :: more).dropWhile space = c :: more := by
    intro more
    rw [List.dropWhile_append_of_pos blanks,List.dropWhile_cons_of_neg (by simp [hard])]
  have closing : Closing space closer (blank ++ c :: rest) = true := by
    unfold Closing
    rw [skipped]
    exact closes
  rw [tidy,isComma,closing,Bool.and_self,if_pos rfl,tidy_closer apart blanks closes,skipped]

/-- Behind a dropped comma comes the closing bracket. -/
theorem tidy_closing (hard : ∀ b, closer b = true → space b = false) {xs : List α} (closing : Closing space closer xs = true) :
    ∃ c rest, (tidy comma space closer xs).dropWhile space = c :: rest ∧ closer c = true := by
  unfold Closing at closing
  split at closing
  · next c after behind =>
    have blanks : ∀ b ∈ xs.takeWhile space, space b = true := fun b member => List.mem_takeWhile_imp member
    have split : xs = xs.takeWhile space ++ c :: after := by
      rw [← behind]
      exact List.takeWhile_append_dropWhile.symm
    refine ⟨c,tidy comma space closer after,?_,closing⟩
    rw [split,tidy_closer apart blanks closing,List.dropWhile_append_of_pos blanks,
      List.dropWhile_cons_of_neg (by simp [hard c closing])]
  · cases closing

end

end

def isComma (c : Char) : Bool := c = ','
def isCloser (c : Char) : Bool := c = '\x7d' || c = ']'

/-- The commas of a text dropped. -/
abbrev tidied : List Char → List Char := tidy isComma isSpace isCloser

theorem space_not_comma {c : Char} (soft : isSpace c = true ∨ isCloser c = true) : isComma c = false := by
  refine Bool.eq_false_iff.mpr fun comma => ?_
  rw [of_decide_eq_true comma] at soft
  revert soft
  decide

theorem closer_unspaced {c : Char} (closer : isCloser c = true) : isSpace c = false := by
  simp only [isCloser,Bool.or_eq_true,decide_eq_true_eq] at closer
  rcases closer with rfl | rfl <;> decide

theorem tidied_dropped {blank : List Char} {c : Char} (blanks : ∀ b ∈ blank, isSpace b = true) (closer : isCloser c = true)
    (rest : List Char) : tidied (',' :: (blank ++ c :: rest)) = c :: tidied rest :=
  tidy_dropped (fun _ => space_not_comma) rfl blanks (closer_unspaced closer) closer rest

/-- The rewriting of the repair drops commas, whatever its bound above the length of the text. -/
theorem dropCommas_eq : ∀ fuel cs, cs.length < fuel → dropCommas fuel cs = tidied cs := by
  intro fuel
  induction fuel with
  | zero => exact fun cs short => absurd short (Nat.not_lt_zero _)
  | succ fuel ih =>
    intro cs short
    cases cs with
    | nil => rfl
    | cons c rest =>
      have shorter : rest.length < fuel := Nat.lt_of_succ_lt_succ short
      by_cases comma : c = ','
      · subst comma
        have split : rest = rest.takeWhile isSpace ++ rest.dropWhile isSpace := (List.takeWhile_append_dropWhile).symm
        rw [dropCommas,if_pos rfl]
        rcases skipped : rest.dropWhile isSpace with _ | ⟨bracket,after⟩
        · have open_ : Closing isSpace isCloser rest = false := by simp [Closing,skipped]
          simp only
          rw [ih rest shorter]
          exact (tidy_kept open_).symm
        · simp only
          by_cases closes : bracket = '\x7d' ∨ bracket = ']'
          · have closer : isCloser bracket = true := by simpa [isCloser] using closes
            have fewer : after.length < fuel := by
              have shorter' : (bracket :: after).length ≤ rest.length := by
                rw [← skipped]
                exact (List.dropWhile_sublist isSpace).length_le
              simp only [List.length_cons] at shorter'
              omega
            have dropped : tidied (',' :: (rest.takeWhile isSpace ++ bracket :: after)) = bracket :: tidied after :=
              tidied_dropped (fun b member => List.mem_takeWhile_imp member) closer after
            rw [if_pos closes,ih after fewer,split,skipped]
            exact dropped.symm
          · have open_ : Closing isSpace isCloser rest = false := by simpa [Closing,skipped,isCloser] using closes
            rw [if_neg closes,ih rest shorter]
            exact (tidy_kept open_).symm
      · have other : isComma c = false := decide_eq_false comma
        rw [dropCommas,if_neg comma,ih rest shorter]
        exact (tidy_other other rest).symm

/-- The brackets that remain open behind a text, outside of strings. -/
abbrev opened (cs stack : List Char) : List Char := openBrackets cs stack false false

theorem repair_eq (text : List Char) : repair text = tidied text ++ (opened (tidied text) []).map closing := by
  unfold repair
  rw [dropCommas_eq _ _ (Nat.lt_succ_self _)]

/-! ### Mended documents -/

/-- A test of the characters that stand for themselves in a literal. -/
def itself (test : Char → Bool) : Piece → Bool
  | .plain c _ => test c
  | _ => false

/-- What the rewriting makes of a literal. -/
def mendLiteral (s : Literal) : Literal := tidy (itself isComma) (itself isSpace) (itself isCloser) s

def mendLabel {k : Kind} : Label k → Label k
  | .bare => .bare
  | .named name gap lead => .named (mendLiteral name) gap lead

mutual
/-- What the rewriting makes of a document: the commas behind the last items are dropped, and
    those in front of closing brackets inside of literals. -/
def mend : Doc → Doc
  | .string s => .string (mendLiteral s)
  | .hollow k blank _ => .hollow k blank none
  | .full k entries => .full k (mendEntries entries)
  | d => d
def mendEntries {k : Kind} : Entries k → Entries k
  | .last before label value after _ => .last before (mendLabel label) (mend value) after none
  | .more before label value after rest => .more before (mendLabel label) (mend value) after (mendEntries rest)
end

/-- No comma. -/
def Commaless (cs : List Char) : Prop := ∀ c ∈ cs, isComma c = false

theorem layout_commaless (l : Layout) : Commaless l.1 := fun c member => space_not_comma (.inl (space_of_json (l.2 c member)))

theorem hex_not_comma (h : Hex) : isComma h.1 = false := by
  refine Bool.eq_false_iff.mpr fun comma => ?_
  have digit := h.2
  rw [of_decide_eq_true comma] at digit
  revert digit
  decide

theorem tidied_append {xs : List Char} (plain : Commaless xs) (rest : List Char) : tidied (xs ++ rest) = xs ++ tidied rest :=
  tidy_append plain rest

theorem code_commaless (u : Code) : Commaless u.text := by
  unfold Commaless
  simp only [Code.text,List.forall_mem_cons,hex_not_comma]
  simp [isComma]

theorem short_commaless {e : Char × Char} (known : e ∈ shortEscapes) : isComma e.1 = false := by
  simp only [shortEscapes,List.mem_cons,List.not_mem_nil,or_false] at known
  rcases known with rfl | rfl | rfl | rfl | rfl | rfl | rfl | rfl <;> rfl

theorem skip_body (s : Literal) (rest : List Char) : (s.body ++ '\"' :: rest).dropWhile isSpace =
    Literal.body (s.dropWhile (itself isSpace)) ++ '\"' :: rest := by
  induction s with
  | nil => rfl
  | cons piece s ih =>
    cases piece with
    | plain c own =>
      rw [body_plain,List.cons_append]
      by_cases space : isSpace c = true
      · simp [itself,space,ih]
      · simp [itself,space]
    | short e known => rfl
    | code u => rfl

theorem closing_body (s : Literal) (rest : List Char) : Closing isSpace isCloser (s.body ++ '\"' :: rest) =
    Closing (itself isSpace) (itself isCloser) s := by
  unfold Closing
  rw [skip_body]
  rcases s.dropWhile (itself isSpace) with _ | ⟨_ | _ | _,s⟩ <;> rfl

/-- The rewriting of a text rewrites the pieces of a literal in it. -/
theorem tidied_literal (s : Literal) (rest : List Char) : tidied (s.body ++ '\"' :: rest) =
    (mendLiteral s).body ++ '\"' :: tidied rest := by
  induction s with
  | nil => exact tidy_other rfl rest
  | cons piece s ih =>
    cases piece with
    | plain c own =>
      have ahead := closing_body s rest
      rw [body_plain,List.cons_append,mendLiteral,tidied,tidy,tidy,ahead]
      by_cases drop : (isComma c && Closing (itself isSpace) (itself isCloser) s) = true
      · rw [if_pos drop,if_pos (by exact drop)]
        rw [← tidied,ih,skip_body]
        rfl
      · rw [if_neg drop,if_neg (by exact drop)]
        rw [← tidied,ih]
        rfl
    | short e known =>
      have plain : Commaless ['\\',e.1] := by
        intro c member
        simp only [List.mem_cons,List.not_mem_nil,or_false] at member
        rcases member with rfl | rfl
        · rfl
        · exact short_commaless known
      have kept : mendLiteral (.short e known :: s) = .short e known :: mendLiteral s := tidy_other rfl s
      rw [kept,body_short,body_short]
      exact (tidied_append plain _).trans (congrArg _ ih)
    | code u =>
      have kept : mendLiteral (.code u :: s) = .code u :: mendLiteral s := tidy_other rfl s
      have split : Literal.body (.code u :: s) ++ '\"' :: rest = u.text ++ (Literal.body s ++ '\"' :: rest) := by simp [Code.text]
      have split' : Literal.body (.code u :: mendLiteral s) ++ '\"' :: tidied rest =
          u.text ++ ((mendLiteral s).body ++ '\"' :: tidied rest) := by simp [Code.text]
      rw [kept,split,split',tidied_append (code_commaless u),ih]

/-- A character that is no white space and no mark of the grammar. -/
def Bare (c : Char) : Prop := isSpace c = false ∧ c ∉ [',','\"','\\','[',']','\x7b','\x7d']

theorem digit_bare {c : Char} (digit : c.isDigit = true) : Bare c := by
  refine ⟨digit_hard digit,fun member => ?_⟩
  simp only [List.mem_cons,List.not_mem_nil,or_false] at member
  rcases member with rfl | rfl | rfl | rfl | rfl | rfl | rfl <;> (revert digit; decide)

theorem bare_of_mem {c : Char} (member : c ∈ "nulltruefalse-+.eE".toList) : Bare c := by
  have all : ∀ c ∈ "nulltruefalse-+.eE".toList,
      decide (isSpace c = false ∧ c ∉ [',','\"','\\','[',']','\x7b','\x7d']) = true := List.all_eq_true.mp (by decide)
  have bare := of_decide_eq_true (all c member)
  exact bare

/-- A number is written with digits, signs, points and exponents. -/
theorem number_bare (n : Number) : ∀ c ∈ n.text, Bare c := by
  have digits : ∀ (d : Digits), ∀ c ∈ d.1, Bare c := fun d c member => digit_bare (d.2.2 c member)
  intro c member
  simp only [Number.text,Number.integer,List.mem_append] at member
  rcases member with (sign | whole) | fraction | power
  · refine bare_of_mem ?_
    split at sign <;> simp_all
  · exact digits n.whole c whole
  · unfold Number.fractionText at fraction
    split at fraction
    · cases fraction
    · next ds _ =>
      rcases List.mem_cons.mp fraction with rfl | more
      · exact bare_of_mem (by decide)
      · exact digits ds c more
  · unfold Number.powerText at power
    split at power
    · cases power
    · next p _ =>
      obtain ⟨capital,sign,ds⟩ := p
      simp only [Power.text,List.mem_cons,List.mem_append] at power
      rcases power with rfl | sign' | more
      · exact bare_of_mem (by cases capital <;> simp)
      · refine bare_of_mem ?_
        rcases sign with _ | _ | _ <;> simp_all
      · exact digits ds c more

theorem Bare.commaless {cs : List Char} (bare : ∀ c ∈ cs, Bare c) : Commaless cs :=
  fun _ member => decide_eq_false fun comma => (bare _ member).2 (by simp [comma])

theorem word_bare {word : List Char} (part : word ⊆ "nulltruefalse-+.eE".toList) : ∀ c ∈ word, Bare c :=
  fun _ member => bare_of_mem (part member)

theorem closes_closer (k : Kind) : isCloser k.closes = true := by cases k <;> rfl

theorem opens_not_comma (k : Kind) : isComma k.opens = false := by cases k <;> rfl

theorem tidied_label {k : Kind} (label : Label k) (rest : List Char) :
    tidied (label.text ++ rest) = (mendLabel label).text ++ tidied rest := by
  cases label with
  | bare => rfl
  | named name gap lead =>
    have text : Label.text (.named name gap lead) ++ rest =
        '\"' :: (name.body ++ '\"' :: (gap.1 ++ ':' :: (lead.1 ++ rest))) := by
      simp [Label.text,Literal.text]
    have mended : (mendLabel (.named name gap lead)).text ++ tidied rest =
        '\"' :: ((mendLiteral name).body ++ '\"' :: (gap.1 ++ ':' :: (lead.1 ++ tidied rest))) := by
      simp [Label.text,Literal.text,mendLabel]
    have quote : isComma '\"' = false := rfl
    have colon : isComma ':' = false := rfl
    rw [text,mended,tidied,tidy_other quote,← tidied,tidied_literal,tidied_append (layout_commaless gap),tidied,
      tidy_other colon,← tidied,tidied_append (layout_commaless lead)]

/-- No closing bracket comes next where an item begins. -/
theorem closing_item {k : Kind} (before : Layout) (label : Label k) {c : Char} (leads : Leads c) (cs : List Char) :
    Closing isSpace isCloser (before.1 ++ (label.text ++ c :: cs)) = false := by
  have blanks : ∀ b ∈ before.1, isSpace b = true := fun b member => space_of_json (before.2 b member)
  unfold Closing
  rw [List.dropWhile_append_of_pos blanks]
  cases label with
  | bare =>
    have other : isCloser c = false := by
      simp [isCloser,leads.ne (show ']'.isDigit = false ∧ ']' ∉ _ by decide),leads.ne (show '\x7d'.isDigit = false ∧ '\x7d' ∉ _ by decide)]
    simpa [Label.text,leads.hard] using other
  | named name gap lead => rfl

theorem closing_entries {k : Kind} (entries : Entries k) (rest : List Char) :
    Closing isSpace isCloser (entries.text ++ rest) = false := by
  cases entries with
  | last before label value after comma =>
    obtain ⟨c,more,split,leads⟩ := value.head
    simpa [Entries.text,split] using closing_item before label leads (more ++ (after.1 ++ (commaText comma ++ rest)))
  | more before label value after others =>
    obtain ⟨c,more,split,leads⟩ := value.head
    simpa [Entries.text,split] using closing_item before label leads (more ++ (after.1 ++ ',' :: (others.text ++ rest)))

mutual
/-- The rewriting of a text mends a document in it. -/
theorem tidied_doc : (d : Doc) → (rest : List Char) → tidied (d.text ++ rest) = (mend d).text ++ tidied rest
  | .null,rest => tidied_append (Bare.commaless (word_bare (by decide))) rest
  | .bool true,rest => tidied_append (Bare.commaless (word_bare (by decide))) rest
  | .bool false,rest => tidied_append (Bare.commaless (word_bare (by decide))) rest
  | .number n,rest => tidied_append (Bare.commaless (number_bare n)) rest
  | .string s,rest => by
    have quote : isComma '\"' = false := rfl
    have text : (Doc.string s).text ++ rest = '\"' :: (s.body ++ '\"' :: rest) := by simp [Doc.text,Literal.text]
    rw [text,tidied,tidy_other quote,← tidied,tidied_literal]
    simp [mend,Doc.text,Literal.text]
  | .hollow k blank none,rest => by
    have text : (Doc.hollow k blank none).text ++ rest = k.opens :: (blank.1 ++ k.closes :: rest) := by
      simp [Doc.text,commaText]
    rw [text,tidied,tidy_other (opens_not_comma k),← tidied,tidied_append (layout_commaless blank),tidied,
      tidy_other (space_not_comma (.inr (closes_closer k))),← tidied]
    simp [mend,Doc.text,commaText]
  | .hollow k blank (some trail),rest => by
    have text : (Doc.hollow k blank (some trail)).text ++ rest =
        k.opens :: (blank.1 ++ ',' :: (trail.1 ++ k.closes :: rest)) := by
      simp [Doc.text,commaText]
    rw [text,tidied,tidy_other (opens_not_comma k),← tidied,tidied_append (layout_commaless blank),
      tidied_dropped (fun b member => space_of_json (trail.2 b member)) (closes_closer k)]
    simp [mend,Doc.text,commaText]
  | .full k entries,rest => by
    have text : (Doc.full k entries).text ++ rest = k.opens :: (entries.text ++ k.closes :: rest) := by simp [Doc.text]
    rw [text,tidied,tidy_other (opens_not_comma k),← tidied,tidied_entries]
    simp [mend,Doc.text]
theorem tidied_entries : {k : Kind} → (entries : Entries k) → (rest : List Char) →
    tidied (entries.text ++ k.closes :: rest) = (mendEntries entries).text ++ k.closes :: tidied rest
  | k,.last before label value after none,rest => by
    have text : (Entries.last before label value after none).text ++ k.closes :: rest =
        before.1 ++ (label.text ++ (value.text ++ (after.1 ++ k.closes :: rest))) := by
      simp [Entries.text,commaText]
    rw [text,tidied_append (layout_commaless before),tidied_label,tidied_doc,tidied_append (layout_commaless after),tidied,
      tidy_other (space_not_comma (.inr (closes_closer k))),← tidied]
    simp [mendEntries,Entries.text,commaText]
  | k,.last before label value after (some trail),rest => by
    have text : (Entries.last before label value after (some trail)).text ++ k.closes :: rest =
        before.1 ++ (label.text ++ (value.text ++ (after.1 ++ ',' :: (trail.1 ++ k.closes :: rest)))) := by
      simp [Entries.text,commaText]
    rw [text,tidied_append (layout_commaless before),tidied_label,tidied_doc,tidied_append (layout_commaless after),
      tidied_dropped (fun b member => space_of_json (trail.2 b member)) (closes_closer k)]
    simp [mendEntries,Entries.text,commaText]
  | k,.more before label value after others,rest => by
    have text : (Entries.more before label value after others).text ++ k.closes :: rest =
        before.1 ++ (label.text ++ (value.text ++ (after.1 ++ ',' :: (others.text ++ k.closes :: rest)))) := by
      simp [Entries.text]
    rw [text,tidied_append (layout_commaless before),tidied_label,tidied_doc,tidied_append (layout_commaless after),tidied,
      tidy_kept (closing_entries others _),← tidied,tidied_entries]
    simp [mendEntries,Entries.text]
end

/-! ### Brackets -/

section
variable (stack rest : List Char)

theorem opened_bare {cs : List Char} (bare : ∀ c ∈ cs, Bare c) : opened (cs ++ rest) stack = opened rest stack := by
  induction cs with
  | nil => rfl
  | cons c cs ih =>
    obtain ⟨⟨-,other⟩,others⟩ := List.forall_mem_cons.mp bare
    simp only [List.mem_cons,List.not_mem_nil,or_false,not_or] at other
    obtain ⟨-,quote,backslash,lead,close,lead',close'⟩ := other
    rw [List.cons_append,opened,openBrackets]
    simpa [quote,backslash,lead,close,lead',close'] using ih others

theorem opened_skip {c : Char} (neutral : c ∉ ['\"','\\','[',']','\x7b','\x7d']) : opened (c :: rest) stack = opened rest stack := by
  simp only [List.mem_cons,List.not_mem_nil,or_false,not_or] at neutral
  obtain ⟨quote,backslash,lead,close,lead',close'⟩ := neutral
  simp [opened,openBrackets,quote,backslash,lead,close,lead',close']

theorem opened_layout (l : Layout) : opened (l.1 ++ rest) stack = opened rest stack := by
  obtain ⟨cs,blank⟩ := l
  induction cs with
  | nil => rfl
  | cons c cs ih =>
    obtain ⟨space,blank⟩ := List.forall_mem_cons.mp blank
    simp only [jsonSpace,Bool.or_eq_true,decide_eq_true_eq] at space
    refine (opened_skip stack (cs ++ rest) ?_).trans (ih blank)
    rcases space with ((rfl | rfl) | rfl) | rfl <;> decide

theorem opened_opens (k : Kind) : opened (k.opens :: rest) stack = opened rest (k.opens :: stack) := by cases k <;> rfl

theorem opened_closes (k : Kind) : opened (k.closes :: rest) (k.opens :: stack) = opened rest stack := by cases k <;> rfl

/-- A literal leaves the open brackets alone, whatever it holds. -/
theorem opened_literal (s : Literal) : openBrackets (s.body ++ '\"' :: rest) stack true false = opened rest stack := by
  induction s with
  | nil => rfl
  | cons piece s ih =>
    cases piece with
    | plain c own => simpa [openBrackets,own.1,own.2.1] using ih
    | short e known => simpa [openBrackets] using ih
    | code u =>
      have digit : ∀ h : Hex, h.1 ≠ '\"' ∧ h.1 ≠ '\\' := by
        intro h
        have some := h.2
        refine ⟨fun same => ?_,fun same => ?_⟩ <;> (rw [same] at some; revert some; decide)
      simpa [openBrackets,Code.text,digit] using ih

theorem opened_label {k : Kind} (label : Label k) : opened (label.text ++ rest) stack = opened rest stack := by
  cases label with
  | bare => rfl
  | named name gap lead =>
    have text : Label.text (.named name gap lead) ++ rest =
        '\"' :: (name.body ++ '\"' :: (gap.1 ++ ':' :: (lead.1 ++ rest))) := by
      simp [Label.text,Literal.text]
    have quote : ∀ cs, opened ('\"' :: cs) stack = openBrackets cs stack true false := fun cs => rfl
    rw [text,quote,opened_literal,opened_layout,opened_skip _ _ (by decide),opened_layout]

theorem opened_comma (comma : Option Layout) : opened (commaText comma ++ rest) stack = opened rest stack := by
  cases comma with
  | none => rfl
  | some trail => exact (opened_skip stack _ (by decide)).trans (opened_layout stack rest trail)

end

mutual
/-- The brackets of a document are closed behind it. -/
theorem opened_doc : (d : Doc) → (stack rest : List Char) → opened (d.text ++ rest) stack = opened rest stack
  | .null,stack,rest => opened_bare stack rest (word_bare (by decide))
  | .bool true,stack,rest => opened_bare stack rest (word_bare (by decide))
  | .bool false,stack,rest => opened_bare stack rest (word_bare (by decide))
  | .number n,stack,rest => opened_bare stack rest (number_bare n)
  | .string s,stack,rest => by
    have text : (Doc.string s).text ++ rest = '\"' :: (s.body ++ '\"' :: rest) := by simp [Doc.text,Literal.text]
    rw [text]
    exact opened_literal stack rest s
  | .hollow k blank comma,stack,rest => by
    have text : (Doc.hollow k blank comma).text ++ rest =
        k.opens :: (blank.1 ++ (commaText comma ++ k.closes :: rest)) := by
      simp [Doc.text]
    rw [text,opened_opens,opened_layout,opened_comma,opened_closes]
  | .full k entries,stack,rest => by
    have text : (Doc.full k entries).text ++ rest = k.opens :: (entries.text ++ k.closes :: rest) := by simp [Doc.text]
    rw [text,opened_opens,opened_entries,opened_closes]
theorem opened_entries : {k : Kind} → (entries : Entries k) → (stack rest : List Char) →
    opened (entries.text ++ rest) stack = opened rest stack
  | _,.last before label value after comma,stack,rest => by
    have text : (Entries.last before label value after comma).text ++ rest =
        before.1 ++ (label.text ++ (value.text ++ (after.1 ++ (commaText comma ++ rest)))) := by
      simp [Entries.text]
    rw [text,opened_layout,opened_label,opened_doc,opened_layout,opened_comma]
  | _,.more before label value after others,stack,rest => by
    have text : (Entries.more before label value after others).text ++ rest =
        before.1 ++ (label.text ++ (value.text ++ (after.1 ++ ',' :: (others.text ++ rest)))) := by
      simp [Entries.text]
    rw [text,opened_layout,opened_label,opened_doc,opened_layout,opened_skip _ _ (by decide),opened_entries]
end

mutual
theorem within_mend : (d : Doc) → (depth : Nat) → ((mend d).Within depth ↔ d.Within depth)
  | .null,_ => Iff.rfl
  | .bool _,_ => Iff.rfl
  | .number _,_ => Iff.rfl
  | .string _,_ => Iff.rfl
  | .hollow _ _ _,_ => Iff.rfl
  | .full _ entries,depth => and_congr_right fun _ => within_mended entries (depth - 1)
theorem within_mended : {k : Kind} → (entries : Entries k) → (depth : Nat) →
    ((mendEntries entries).Within depth ↔ entries.Within depth)
  | _,.last _ _ value _ _,depth => within_mend value depth
  | _,.more _ _ value _ rest,depth => and_congr (within_mend value depth) (within_mended rest depth)
end

mutual
theorem clean_mend : (d : Doc) → (mend d).Clean
  | .null => trivial
  | .bool _ => trivial
  | .number _ => trivial
  | .string _ => trivial
  | .hollow _ _ _ => rfl
  | .full _ entries => clean_mended entries
theorem clean_mended : {k : Kind} → (entries : Entries k) → (mendEntries entries).Clean
  | _,.last _ _ value _ _ => ⟨clean_mend value,rfl⟩
  | _,.more _ _ value _ rest => ⟨clean_mend value,clean_mended rest⟩
end

/-- The repair of a document mends it, and closes nothing. -/
theorem repair_doc (d : Doc) : repair d.text = (mend d).text := by
  have tidy := tidied_doc d []
  have closed := opened_doc (mend d) [] []
  rw [List.append_nil] at tidy closed
  rw [repair_eq,tidy,show tidied [] = [] from rfl,List.append_nil,closed]
  exact List.append_nil _

end HexAgent.Repair
