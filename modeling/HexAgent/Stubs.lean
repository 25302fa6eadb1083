import HexAgent.Repair

/-!
Documents that lack closing brackets at their end. Cutting white space and closing brackets
off the text of a JSON document leaves the text of a stub, which is never read; the repair
gives it the brackets that it lacks.
-/
namespace HexAgent.Stubs
open HexAgent.Values HexAgent.Json HexAgent.JsonGate HexAgent.Documents HexAgent.Repair

mutual
/-- A container that is not closed. -/
inductive Stub where
  | hollow (k : Kind) (blank : Layout)
  | full (k : Kind) (entries : Stumps k)
/-- The items of a container that is not closed: the last one is whole, or a stub itself. -/
inductive Stumps : Kind → Type where
  | whole {k : Kind} (before : Layout) (label : Label k) (value : Doc) (after : Layout) : Stumps k
  | part {k : Kind} (before : Layout) (label : Label k) (value : Stub) : Stumps k
  | more {k : Kind} (before : Layout) (label : Label k) (value : Doc) (after : Layout) (rest : Stumps k) : Stumps k
end

mutual
def Stub.text : Stub → List Char
  | .hollow k blank => k.opens :: blank.1
  | .full k entries => k.opens :: entries.text
def Stumps.text {k : Kind} : Stumps k → List Char
  | .whole before label value after => before.1 ++ (label.text ++ (value.text ++ after.1))
  | .part before label value => before.1 ++ (label.text ++ value.text)
  | .more before label value after rest => before.1 ++ (label.text ++ (value.text ++ (after.1 ++ ',' :: rest.text)))
end

mutual
/-- The containers that are not closed, innermost first. -/
def Stub.lacks : Stub → List Kind
  | .hollow k _ => [k]
  | .full k entries => entries.lacks ++ [k]
def Stumps.lacks {k : Kind} : Stumps k → List Kind
  | .whole _ _ _ _ => []
  | .part _ _ value => value.lacks
  | .more _ _ _ _ rest => rest.lacks
end

def noSpace : Layout := ⟨[],fun _ member => absurd member List.not_mem_nil⟩

mutual
/-- The document with its brackets closed. -/
def Stub.heal : Stub → Doc
  | .hollow k blank => .hollow k blank none
  | .full k entries => .full k entries.heal
def Stumps.heal {k : Kind} : Stumps k → Entries k
  | .whole before label value after => .last before label value after none
  | .part before label value => .last before label value.heal noSpace none
  | .more before label value after rest => .more before label value after rest.heal
end

mutual
/-- What the rewriting of the repair makes of a stub. -/
def Stub.mend : Stub → Stub
  | .hollow k blank => .hollow k blank
  | .full k entries => .full k entries.mend
def Stumps.mend {k : Kind} : Stumps k → Stumps k
  | .whole before label value after => .whole before (mendLabel label) (Repair.mend value) after
  | .part before label value => .part before (mendLabel label) value.mend
  | .more before label value after rest => .more before (mendLabel label) (Repair.mend value) after rest.mend
end

/-! ### Repaired stubs -/

mutual
theorem heal_text : (s : Stub) → s.heal.text = s.text ++ s.lacks.map Kind.closes
  | .hollow k blank => by simp [Stub.heal,Doc.text,commaText,Stub.text,Stub.lacks]
  | .full k entries => by simp [Stub.heal,Doc.text,Stub.text,Stub.lacks,heal_stumps entries]
theorem heal_stumps : {k : Kind} → (entries : Stumps k) → entries.heal.text = entries.text ++ entries.lacks.map Kind.closes
  | _,.whole before label value after => by simp [Stumps.heal,Entries.text,commaText,Stumps.text,Stumps.lacks]
  | _,.part before label value => by
    simp [Stumps.heal,Entries.text,commaText,Stumps.text,Stumps.lacks,noSpace,heal_text value]
  | _,.more before label value after rest => by
    simp [Stumps.heal,Entries.text,Stumps.text,Stumps.lacks,heal_stumps rest]
end

mutual
theorem mend_lacks : (s : Stub) → s.mend.lacks = s.lacks
  | .hollow k blank => rfl
  | .full k entries => by rw [Stub.mend,Stub.lacks,Stub.lacks,mend_lacking entries]
theorem mend_lacking : {k : Kind} → (entries : Stumps k) → entries.mend.lacks = entries.lacks
  | _,.whole _ _ _ _ => rfl
  | _,.part _ _ value => mend_lacks value
  | _,.more _ _ _ _ rest => mend_lacking rest
end

mutual
theorem mend_heal : (s : Stub) → s.mend.heal = Repair.mend s.heal
  | .hollow k blank => rfl
  | .full k entries => by rw [Stub.mend,Stub.heal,Stub.heal,Repair.mend,mend_healed entries]
theorem mend_healed : {k : Kind} → (entries : Stumps k) → entries.mend.heal = mendEntries entries.heal
  | _,.whole _ _ _ _ => rfl
  | _,.part _ _ value => by rw [Stumps.mend,Stumps.heal,Stumps.heal,mendEntries,mend_heal value]
  | _,.more _ _ _ _ rest => by rw [Stumps.mend,Stumps.heal,Stumps.heal,mendEntries,mend_healed rest]
end

theorem tidied_layout (l : Layout) : tidied l.1 = l.1 := by
  have plain := tidied_append (layout_commaless l) []
  rwa [List.append_nil,show tidied [] = [] from rfl,List.append_nil] at plain

theorem Stub.head (s : Stub) : ∃ c cs, s.text = c :: cs ∧ Leads c := by
  have leads : ∀ k : Kind, Leads k.opens := fun k => by cases k <;> exact .inr (by decide)
  cases s with
  | hollow k blank => exact ⟨k.opens,_,rfl,leads k⟩
  | full k entries => exact ⟨k.opens,_,rfl,leads k⟩

theorem closing_stumps {k : Kind} (entries : Stumps k) : Closing isSpace isCloser entries.text = false := by
  cases entries with
  | whole before label value after =>
    obtain ⟨c,more,split,leads⟩ := value.head
    simpa [Stumps.text,split] using closing_item before label leads (more ++ after.1)
  | part before label value =>
    obtain ⟨c,more,split,leads⟩ := value.head
    simpa [Stumps.text,split] using closing_item before label leads more
  | more before label value after rest =>
    obtain ⟨c,more,split,leads⟩ := value.head
    simpa [Stumps.text,split] using closing_item before label leads (more ++ (after.1 ++ ',' :: rest.text))

mutual
theorem tidied_stub : (s : Stub) → tidied s.text = s.mend.text
  | .hollow k blank => by
    rw [Stub.text,tidied,tidy_other (opens_not_comma k),← tidied,tidied_layout]
    rfl
  | .full k entries => by
    rw [Stub.text,tidied,tidy_other (opens_not_comma k),← tidied,tidied_stumps entries]
    rfl
theorem tidied_stumps : {k : Kind} → (entries : Stumps k) → tidied entries.text = entries.mend.text
  | _,.whole before label value after => by
    rw [Stumps.text,tidied_append (layout_commaless before),tidied_label,tidied_doc,tidied_layout]
    rfl
  | _,.part before label value => by
    rw [Stumps.text,tidied_append (layout_commaless before),tidied_label,tidied_stub value]
    rfl
  | _,.more before label value after rest => by
    rw [Stumps.text,tidied_append (layout_commaless before),tidied_label,tidied_doc,tidied_append (layout_commaless after),
      tidied,tidy_kept (closing_stumps rest),← tidied,tidied_stumps rest]
    rfl
end

mutual
theorem opened_stub : (s : Stub) → (stack : List Char) → opened s.text stack = s.lacks.map Kind.opens ++ stack
  | .hollow k blank,stack => by
    have blanks := opened_layout (k.opens :: stack) [] blank
    rw [List.append_nil] at blanks
    rw [Stub.text,opened_opens,blanks]
    rfl
  | .full k entries,stack => by
    rw [Stub.text,opened_opens,opened_stumps entries]
    simp [Stub.lacks]
theorem opened_stumps : {k : Kind} → (entries : Stumps k) → (stack : List Char) →
    opened entries.text stack = entries.lacks.map Kind.opens ++ stack
  | _,.whole before label value after,stack => by
    have blanks := opened_layout stack [] after
    rw [List.append_nil] at blanks
    rw [Stumps.text,opened_layout,opened_label,opened_doc,blanks]
    rfl
  | _,.part before label value,stack => by
    rw [Stumps.text,opened_layout,opened_label,opened_stub value]
    rfl
  | _,.more before label value after rest,stack => by
    rw [Stumps.text,opened_layout,opened_label,opened_doc,opened_layout,opened_skip _ _ (by decide),opened_stumps rest]
    rfl
end

theorem closing_opens (k : Kind) : closing k.opens = k.closes := by cases k <;> rfl

/-- The repair mends a stub and closes its brackets. -/
theorem repair_stub (s : Stub) : repair s.text = (Repair.mend s.heal).text := by
  rw [repair_eq,tidied_stub,opened_stub,← mend_heal,heal_text,List.append_nil,List.map_map]
  congr 2
  exact funext closing_opens

/-! ### Cutting -/

def compactLabel {k : Kind} : Label k → Label k
  | .bare => .bare
  | .named name _ _ => .named name noSpace noSpace

mutual
/-- A document without the white space between its tokens, and without the commas behind
    its last items. -/
def compact : Doc → Doc
  | .hollow k _ _ => .hollow k noSpace none
  | .full k entries => .full k (compactEntries entries)
  | d => d
def compactEntries {k : Kind} : Entries k → Entries k
  | .last _ label value _ _ => .last noSpace (compactLabel label) (compact value) noSpace none
  | .more _ label value _ rest => .more noSpace (compactLabel label) (compact value) noSpace (compactEntries rest)
end

theorem name_compact {k : Kind} (label : Label k) : (compactLabel label).name = label.name := by cases label <;> rfl

section
variable (interp : Interpreter)
mutual
theorem value_compact : (d : Doc) → (compact d).value interp = d.value interp
  | .null => rfl
  | .bool _ => rfl
  | .number _ => rfl
  | .string _ => rfl
  | .hollow _ _ _ => rfl
  | .full k entries => by rw [compact,Doc.value,Doc.value,items_compact entries]
theorem items_compact : {k : Kind} → (entries : Entries k) → (compactEntries entries).items interp = entries.items interp
  | _,.last _ label value _ _ => by
    rw [compactEntries,Entries.items,Entries.items,name_compact,value_compact value]
  | _,.more _ label value _ rest => by
    rw [compactEntries,Entries.items,Entries.items,name_compact,value_compact value,items_compact rest]
end
end

mutual
theorem within_compact : (d : Doc) → (depth : Nat) → ((compact d).Within depth ↔ d.Within depth)
  | .null,_ => Iff.rfl
  | .bool _,_ => Iff.rfl
  | .number _,_ => Iff.rfl
  | .string _,_ => Iff.rfl
  | .hollow _ _ _,_ => Iff.rfl
  | .full _ entries,depth => and_congr_right fun _ => within_compacted entries (depth - 1)
theorem within_compacted : {k : Kind} → (entries : Entries k) → (depth : Nat) →
    ((compactEntries entries).Within depth ↔ entries.Within depth)
  | _,.last _ _ value _ _,depth => within_compact value depth
  | _,.more _ _ value _ rest,depth => and_congr (within_compact value depth) (within_compacted rest depth)
end

theorem mend_compact_label {k : Kind} (label : Label k) : mendLabel (compactLabel label) = compactLabel (mendLabel label) := by
  cases label <;> rfl

mutual
theorem mend_compact : (d : Doc) → Repair.mend (compact d) = compact (Repair.mend d)
  | .null => rfl
  | .bool _ => rfl
  | .number _ => rfl
  | .string _ => rfl
  | .hollow _ _ _ => rfl
  | .full k entries => by rw [compact,Repair.mend,Repair.mend,compact,mend_compacted entries]
theorem mend_compacted : {k : Kind} → (entries : Entries k) →
    mendEntries (compactEntries entries) = compactEntries (mendEntries entries)
  | _,.last _ label value _ _ => by
    rw [compactEntries,mendEntries,mendEntries,compactEntries,mend_compact_label,mend_compact value]
  | _,.more _ label value _ rest => by
    rw [compactEntries,mendEntries,mendEntries,compactEntries,mend_compact_label,mend_compact value,mend_compacted rest]
end

mutual
/-- A document without the commas behind its last items. -/
def uncomma : Doc → Doc
  | .hollow k blank _ => .hollow k blank none
  | .full k entries => .full k (uncommaEntries entries)
  | d => d
def uncommaEntries {k : Kind} : Entries k → Entries k
  | .last before label value after _ => .last before label (uncomma value) after none
  | .more before label value after rest => .more before label (uncomma value) after (uncommaEntries rest)
end

mutual
theorem compact_uncomma : (d : Doc) → compact (uncomma d) = compact d
  | .null => rfl
  | .bool _ => rfl
  | .number _ => rfl
  | .string _ => rfl
  | .hollow _ _ _ => rfl
  | .full k entries => by rw [uncomma,compact,compact,compacted_uncomma entries]
theorem compacted_uncomma : {k : Kind} → (entries : Entries k) → compactEntries (uncommaEntries entries) = compactEntries entries
  | _,.last _ _ value _ _ => by rw [uncommaEntries,compactEntries,compactEntries,compact_uncomma value]
  | _,.more _ _ value _ rest => by
    rw [uncommaEntries,compactEntries,compactEntries,compact_uncomma value,compacted_uncomma rest]
end

mutual
theorem uncomma_clean : (d : Doc) → d.Clean → uncomma d = d
  | .null,_ => rfl
  | .bool _,_ => rfl
  | .number _,_ => rfl
  | .string _,_ => rfl
  | .hollow k blank comma,clean => by rw [show comma = none from clean]; rfl
  | .full k entries,clean => by rw [uncomma,uncommaed_clean entries clean]
theorem uncommaed_clean : {k : Kind} → (entries : Entries k) → entries.Clean → uncommaEntries entries = entries
  | _,.last before label value after comma,clean => by
    rw [show comma = none from clean.2,uncommaEntries,uncomma_clean value clean.1]
  | _,.more before label value after rest,clean => by
    rw [uncommaEntries,uncomma_clean value clean.1,uncommaed_clean rest clean.2]
end

section
variable {d e : Doc} (same : compact d = compact e) (interp : Interpreter)
include same

theorem same_value : d.value interp = e.value interp := by
  rw [← value_compact,same,value_compact]

theorem same_within (depth : Nat) : d.Within depth ↔ e.Within depth := by
  rw [← within_compact,same,within_compact]

theorem same_mended : (Repair.mend d).value interp = (Repair.mend e).value interp := by
  rw [← value_compact,← mend_compact,same,mend_compact,value_compact]

end

/-- White space and closing brackets. -/
def Soft (cs : List Char) : Prop := ∀ c ∈ cs, isSpace c = true ∨ isCloser c = true

theorem leads_not_soft {c : Char} (leads : Leads c) {q : List Char} (soft : Soft q) : c ∉ q := by
  intro member
  rcases soft c member with space | closer
  · rw [leads.hard] at space; cases space
  · simp only [isCloser,Bool.or_eq_true,decide_eq_true_eq] at closer
    exact closer.elim (leads.ne (by decide)) (leads.ne (by decide))

/-- A character that is not cut off stays in front. -/
theorem cut_behind {a b p q : List Char} {c : Char} (cut : a ++ c :: b = p ++ q) (kept : c ∉ q) :
    ∃ p', p = a ++ c :: p' ∧ b = p' ++ q := by
  rcases List.append_eq_append_iff.mp cut with ⟨p',rfl,tail⟩ | ⟨q',rfl,tail⟩
  · cases p' with
    | nil => exact absurd (by rw [← show c :: b = q from tail]; exact List.mem_cons_self) kept
    | cons d p' =>
      obtain ⟨rfl,rfl⟩ := List.cons.inj tail
      exact ⟨p',rfl,rfl⟩
  · exact absurd (by rw [tail]; exact List.mem_append_right _ List.mem_cons_self) kept

/-- A last character is kept, or cut off after all that is cut off in front of it. -/
theorem cut_last {a p q : List Char} {c : Char} (cut : a ++ [c] = p ++ q) : q = [] ∨ ∃ q', q = q' ++ [c] ∧ a = p ++ q' := by
  rcases List.eq_nil_or_concat q with rfl | ⟨q',d,rfl⟩
  · exact .inl rfl
  · rw [List.concat_eq_append,← List.append_assoc] at cut
    obtain ⟨rfl,same⟩ := List.append_inj' cut rfl
    obtain ⟨rfl,-⟩ := List.cons.inj same
    exact .inr ⟨q',List.concat_eq_append,rfl⟩

theorem cut_bare {cs p q : List Char} (bare : ∀ c ∈ cs, Bare c) (cut : cs = p ++ q) (soft : Soft q) : q = [] := by
  refine List.eq_nil_iff_forall_not_mem.mpr fun c member => ?_
  obtain ⟨unspaced,other⟩ := bare c (by rw [cut]; exact List.mem_append_right _ member)
  rcases soft c member with space | closer
  · rw [unspaced] at space; cases space
  · simp only [isCloser,Bool.or_eq_true,decide_eq_true_eq] at closer
    exact other (by rcases closer with rfl | rfl <;> decide)

mutual
/-- A document whose white space and closing brackets are cut off at its end is a stub of the
    same document. -/
theorem stub_of_cut : (d : Doc) → (p q : List Char) → d.Clean → d.text = p ++ q → Soft q →
    q = [] ∨ ∃ s : Stub, s.text = p ∧ compact s.heal = compact d
  | .null,p,q,_,cut,soft => .inl (cut_bare (word_bare (by decide)) cut soft)
  | .bool true,p,q,_,cut,soft => .inl (cut_bare (word_bare (by decide)) cut soft)
  | .bool false,p,q,_,cut,soft => .inl (cut_bare (word_bare (by decide)) cut soft)
  | .number n,p,q,_,cut,soft => .inl (cut_bare (number_bare n) cut soft)
  | .string s,p,q,_,cut,soft => by
    obtain ⟨p',-,tail⟩ := cut_behind (a := '\"' :: s.body) (b := []) cut (leads_not_soft (.inr (by decide)) soft)
    exact .inl (List.append_eq_nil_iff.mp tail.symm).2
  | .hollow k blank comma,p,q,clean,cut,soft => by
    cases (clean : comma = none)
    have leads : Leads k.opens := by cases k <;> exact .inr (by decide)
    obtain ⟨p',rfl,tail⟩ := cut_behind (a := []) cut (leads_not_soft leads soft)
    rcases cut_last tail with rfl | ⟨q',rfl,same⟩
    · exact .inl rfl
    · have blanks : ∀ c ∈ p', jsonSpace c = true := fun c member => blank.2 c (by
        rw [show blank.1 = p' ++ q' from same]
        exact List.mem_append_left _ member)
      exact .inr ⟨.hollow k ⟨p',blanks⟩,rfl,rfl⟩
  | .full k entries,p,q,clean,cut,soft => by
    have leads : Leads k.opens := by cases k <;> exact .inr (by decide)
    obtain ⟨p',rfl,tail⟩ := cut_behind (a := []) cut (leads_not_soft leads soft)
    rcases cut_last tail with rfl | ⟨q',rfl,same⟩
    · exact .inl rfl
    · obtain ⟨s,text,healed⟩ := stumps_of_cut entries p' q' clean same fun c member => soft c (List.mem_append_left _ member)
      exact .inr ⟨.full k s,by rw [Stub.text,text,List.nil_append],by rw [Stub.heal,compact,compact,healed]⟩
theorem stumps_of_cut : {k : Kind} → (entries : Entries k) → (p q : List Char) → entries.Clean → entries.text = p ++ q →
    Soft q → ∃ s : Stumps k, s.text = p ∧ compactEntries s.heal = compactEntries entries
  | k,.last before label value after comma,p,q,clean,cut,soft => by
    cases (clean.2 : comma = none)
    obtain ⟨c,more,split,leads⟩ := value.head
    have begins : before.1 ++ label.text ++ c :: (more ++ after.1) = p ++ q := by
      rw [← cut]
      simp [Entries.text,commaText,split]
    obtain ⟨p',rfl,tail⟩ := cut_behind begins (leads_not_soft leads soft)
    rcases List.append_eq_append_iff.mp tail with ⟨cs,rfl,within⟩ | ⟨cs,rest,rfl⟩
    · have blanks : ∀ c ∈ cs, jsonSpace c = true := fun c member => after.2 c (by
        rw [show after.1 = cs ++ q from within]
        exact List.mem_append_left _ member)
      refine ⟨.whole before label value ⟨cs,blanks⟩,?_,rfl⟩
      simp [Stumps.text,split]
    · have cut' : value.text = c :: p' ++ cs := by rw [split,rest,List.cons_append]
      rcases stub_of_cut value (c :: p') cs clean.1 cut' fun d member => soft d (List.mem_append_left _ member) with
        rfl | ⟨s,text,healed⟩
      · refine ⟨.whole before label value noSpace,?_,rfl⟩
        simp [Stumps.text,noSpace,cut']
      · refine ⟨.part before label s,?_,?_⟩
        · simp [Stumps.text,text]
        · rw [Stumps.heal,compactEntries,compactEntries,healed]
  | k,.more before label value after rest,p,q,clean,cut,soft => by
    have begins : before.1 ++ (label.text ++ (value.text ++ after.1)) ++ ',' :: rest.text = p ++ q := by
      rw [← cut]
      simp [Entries.text]
    have kept : ',' ∉ q := fun member => by
      have other := space_not_comma (soft ',' member)
      cases other
    obtain ⟨p',rfl,tail⟩ := cut_behind begins kept
    obtain ⟨s,text,healed⟩ := stumps_of_cut rest p' q clean.2 tail soft
    refine ⟨.more before label value after s,?_,?_⟩
    · simp [Stumps.text,text]
    · rw [Stumps.heal,compactEntries,compactEntries,healed]
end

/-! ### Reading -/

/-- No item begins at the end of a text. -/
theorem scanOn_end (interp : Interpreter) (depth : Nat) (k : Kind) (fuel : Nat) (items : List (String × PyVal)) :
    ∃ message, scanOn (scanOnce interp depth) fuel [] items k = .error (.JSONDecodeError message) := by
  cases fuel with
  | zero => cases k <;> exact ⟨_,rfl⟩
  | succ fuel => cases k <;> cases depth <;> exact ⟨_,rfl⟩

theorem scanKind_end {scan : List Char → Except PyError (PyVal × List Char)} {k : Kind} {cs : List Char}
    (ends : skipSpace cs = []) : scanKind scan k cs = scanOn scan 1 [] [] k := by
  cases k
  · simp [scanKind,scanArray,ends,scanOn]
  · simp [scanKind,scanObject,ends,scanOn,Dicts.merge]

theorem skip_all (l : Layout) : skipSpace l.1 = [] := by
  have skipped := skip_layout l []
  rwa [List.append_nil] at skipped

theorem Stumps.head {k : Kind} (entries : Stumps k) : ∃ c cs, skipSpace entries.text = c :: cs ∧ Leads c := by
  cases entries with
  | whole before label value after =>
    obtain ⟨c,more,split,leads⟩ := value.head
    obtain ⟨d,ds,item,leads'⟩ := label_leads label leads (more ++ after.1)
    exact ⟨d,ds,by simpa [Stumps.text,split] using (skip_label before label leads.unspaced _).trans item,leads'⟩
  | part before label value =>
    obtain ⟨c,more,split,leads⟩ := value.head
    obtain ⟨d,ds,item,leads'⟩ := label_leads label leads more
    exact ⟨d,ds,by simpa [Stumps.text,split] using (skip_label before label leads.unspaced _).trans item,leads'⟩
  | more before label value after rest =>
    obtain ⟨c,more,split,leads⟩ := value.head
    obtain ⟨d,ds,item,leads'⟩ := label_leads label leads (more ++ (after.1 ++ ',' :: rest.text))
    exact ⟨d,ds,by simpa [Stumps.text,split] using (skip_label before label leads.unspaced _).trans item,leads'⟩

mutual
/-- A stub is never read. -/
theorem scan_stub (interp : Interpreter) (v : PyVal × List Char) : (s : Stub) → (depth : Nat) →
    Judged (s.heal.Within depth) False v (scanOnce interp depth s.text)
  | .hollow k blank,depth => by
    cases depth with
    | zero =>
      rw [Stub.text,opens_exceeds]
      exact judged_exceeded (Nat.lt_irrefl 0)
    | succ depth =>
      obtain ⟨message,refused⟩ := scanOn_end interp depth k 1 []
      rw [Stub.text,opens_descends,scanKind_end (skip_all blank),refused]
      exact judged_refused id
  | .full k entries,depth => by
    cases depth with
    | zero =>
      rw [Stub.text,opens_exceeds]
      exact judged_exceeded fun within => Nat.lt_irrefl 0 within.1
    | succ depth =>
      obtain ⟨c,cs,items,leads⟩ := entries.head
      have other : c ≠ k.closes := by cases k <;> exact leads.ne (by decide)
      have judged := scan_stumps interp v entries depth _ [] (Nat.lt_succ_self _)
      rw [Stub.text,opens_descends,scanKind_full items other]
      rw [items] at judged
      exact judged.widen And.right id fun _ never => never.elim
theorem scan_stumps (interp : Interpreter) (v : PyVal × List Char) : {k : Kind} → (entries : Stumps k) → (depth : Nat) →
    (fuel : Nat) → (items : List (String × PyVal)) → (skipSpace entries.text).length < fuel →
    Judged (entries.heal.Within depth) False v (scanOn (scanOnce interp depth) fuel (skipSpace entries.text) items k)
  | k,.whole before label value after,depth,fuel,items,enough => by
    obtain ⟨fuel,rfl⟩ := Nat.exists_eq_succ_of_ne_zero (Nat.ne_of_gt (Nat.zero_lt_of_lt enough))
    obtain ⟨c,more,split,leads⟩ := value.head
    have text : (Stumps.whole before label value after).text = before.1 ++ (label.text ++ c :: (more ++ after.1)) := by
      simp [Stumps.text,split]
    have delimits : Delimits after.1 := by
      have ends : Delimits [] := fun c member => by cases member
      have blanks := delimits_layout after ends
      rwa [List.append_nil] at blanks
    have judged := scan_doc interp value depth after.1 (follows_delimited delimits value)
    rw [split,List.cons_append] at judged
    rw [text,skip_label before label leads.unspaced,scanOn_step label fuel items _ leads.unspaced]
    refine judged.bind id False.elim fun within clean => ?_
    rw [skip_all]
    exact judged_refused id
  | k,.part before label value,depth,fuel,items,enough => by
    obtain ⟨fuel,rfl⟩ := Nat.exists_eq_succ_of_ne_zero (Nat.ne_of_gt (Nat.zero_lt_of_lt enough))
    obtain ⟨c,more,split,leads⟩ := value.head
    have text : (Stumps.part before label value).text = before.1 ++ (label.text ++ c :: more) := by
      simp [Stumps.text,split]
    have judged := scan_stub interp v value depth
    rw [split] at judged
    rw [text,skip_label before label leads.unspaced,scanOn_step label fuel items _ leads.unspaced]
    exact judged.bind id id fun _ never => never.elim
  | k,.more before label value after rest,depth,fuel,items,enough => by
    obtain ⟨fuel,rfl⟩ := Nat.exists_eq_succ_of_ne_zero (Nat.ne_of_gt (Nat.zero_lt_of_lt enough))
    obtain ⟨c,more,split,leads⟩ := value.head
    have text : (Stumps.more before label value after rest).text =
        before.1 ++ (label.text ++ c :: (more ++ (after.1 ++ ',' :: rest.text))) := by
      simp [Stumps.text,split]
    have fewer : (skipSpace rest.text).length < fuel := by
      have shorter : (skipSpace rest.text).length ≤ rest.text.length := (List.dropWhile_sublist jsonSpace).length_le
      rw [text,skip_label before label leads.unspaced] at enough
      simp only [List.length_append,List.length_cons] at enough shorter
      omega
    have judged := scan_doc interp value depth _ (follows_delimited (delimits_layout after (delimits_comma rest.text)) value)
    rw [split,List.cons_append] at judged
    rw [text,skip_label before label leads.unspaced,scanOn_step label fuel items _ leads.unspaced]
    refine judged.bind And.left False.elim fun within clean => ?_
    have comma : ',' ≠ k.closes := by cases k <;> decide
    rw [skip_layout,skip_comma,scanNext,if_neg comma,if_pos rfl]
    have onward := scan_stumps interp v rest depth fuel (items ++ [(label.name,value.value interp)]) fewer
    exact onward.widen And.right id fun _ never => never.elim
end

end HexAgent.Stubs
