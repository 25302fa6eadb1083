import HexAgent.Rag

/-!
What the windows of a text keep of it. The blanks at the ends of a window are dropped and a
blank window is left out, and the windows overlap or touch: so every visible character is kept.
-/
namespace HexAgent.Chunks
open HexAgent.Values HexAgent.Rag

/-- What a window keeps: the characters from `start` up to `stop`, between the blanks at its ends. -/
structure Piece (chars : List Char) (size : Nat) where
  window : Nat
  start : Nat
  stop : Nat
  opens : window ≤ start
  nonempty : start < stop
  closes : stop ≤ window + size
  within : stop ≤ chars.length
  before : ∀ i c, window ≤ i → i < start → chars[i]? = some c → isSpace c = true
  behind : ∀ i c, stop ≤ i → i < window + size → chars[i]? = some c → isSpace c = true
  visible : ∀ c, chars[start]? = some c → isSpace c = false

section
variable {chars : List Char} {size : Nat}

def Piece.text (p : Piece chars size) : String := String.ofList ((chars.drop p.start).take (p.stop - p.start))

theorem Piece.text_length (p : Piece chars size) : p.text.toList.length = p.stop - p.start := by
  have := p.within
  simp only [Piece.text,String.toList_ofList,List.length_take,List.length_drop]
  omega

theorem Piece.text_infix (p : Piece chars size) : p.text.toList <:+: chars := by
  rw [Piece.text,String.toList_ofList]
  exact (List.take_prefix _ _).isInfix.trans (List.drop_suffix _ _).isInfix

/-- A visible character of the window is kept. -/
theorem Piece.keeps (p : Piece chars size) {i : Nat} {c : Char} (since : p.window ≤ i) (upTo : i < p.window + size)
    (here : chars[i]? = some c) (plain : isSpace c = false) : p.start ≤ i ∧ i < p.stop := by
  constructor
  · by_contra early
    have blank := p.before i c since (Nat.lt_of_not_le early) here
    rw [plain] at blank
    cases blank
  · by_contra late
    have blank := p.behind i c (Nat.le_of_not_lt late) upTo here
    rw [plain] at blank
    cases blank

/-- A later window keeps nothing that stands before what an earlier one keeps. -/
theorem Piece.start_mono {p q : Piece chars size} (order : p.window ≤ q.window) : p.start ≤ q.start := by
  by_contra early
  have inside : q.start < chars.length := Nat.lt_of_lt_of_le q.nonempty q.within
  have here : chars[q.start]? = some chars[q.start] := List.getElem?_eq_getElem inside
  have blank := p.before q.start _ (order.trans q.opens) (Nat.lt_of_not_le early) here
  rw [q.visible _ here] at blank
  cases blank

/-- Trimming takes blanks off both ends. -/
theorem stripChars_split (cs : List Char) : ∃ lead trail, cs = lead ++ stripChars cs ++ trail ∧
    (∀ c ∈ lead, isSpace c = true) ∧ ∀ c ∈ trail, isSpace c = true := by
  refine ⟨cs.takeWhile isSpace,(cs.dropWhile isSpace).rtakeWhile isSpace,?_,?_,?_⟩
  · have inner : stripChars cs ++ (cs.dropWhile isSpace).rtakeWhile isSpace = cs.dropWhile isSpace :=
      List.rdropWhile_append_rtakeWhile
    rw [List.append_assoc,inner,List.takeWhile_append_dropWhile]
  · exact fun c member => List.mem_takeWhile_imp member
  · exact fun c member => List.mem_rtakeWhile_imp member

variable {pos i : Nat} {c : Char}

theorem window_get (small : i < size) : ((chars.drop pos).take size)[i]? = chars[pos+i]? := by
  rw [List.getElem?_take_of_lt small,List.getElem?_drop]

theorem blank_window (blank : stripChars ((chars.drop pos).take size) = []) (since : pos ≤ i) (upTo : i < pos + size)
    (here : chars[i]? = some c) : isSpace c = true := by
  obtain ⟨j,rfl⟩ := Nat.exists_eq_add_of_le since
  rw [← window_get (Nat.lt_of_add_lt_add_left upTo)] at here
  exact stripChars_eq_nil.mp blank c (List.mem_of_getElem? here)

/-- What a window that is not blank keeps. -/
theorem piece_of_window (filled : stripChars ((chars.drop pos).take size) ≠ []) :
    ∃ p : Piece chars size, p.window = pos ∧ p.text = String.ofList (stripChars ((chars.drop pos).take size)) := by
  obtain ⟨lead,trail,split,leadBlank,trailBlank⟩ := stripChars_split ((chars.drop pos).take size)
  obtain ⟨first,more,kept⟩ := List.exists_cons_of_ne_nil filled
  have firstVisible := stripChars_head kept
  generalize stripChars ((chars.drop pos).take size) = mid at *
  have length : lead.length + mid.length + trail.length = min size (chars.length - pos) := by
    have := congrArg List.length split
    simp only [List.length_append,List.length_take,List.length_drop] at this
    omega
  have midLength : 0 < mid.length := List.length_pos_of_ne_nil filled
  have get : ∀ i, pos ≤ i → i < pos + size → chars[i]? = (lead ++ mid ++ trail)[i - pos]? := by
    intro i since upTo
    rw [← split,window_get (by omega)]
    congr 1
    omega
  refine ⟨⟨pos,pos + lead.length,pos + lead.length + mid.length,by omega,by omega,by omega,by omega,?_,?_,?_⟩,rfl,?_⟩
  · intro i c since upTo here
    rw [get i since (by omega),List.append_assoc,List.getElem?_append_left (by omega)] at here
    exact leadBlank c (List.mem_of_getElem? here)
  · intro i c since upTo here
    rw [get i (by omega) upTo,List.getElem?_append_right (by simp only [List.length_append]; omega)] at here
    exact trailBlank c (List.mem_of_getElem? here)
  · intro c here
    rw [get _ (by omega) (by omega),List.append_assoc,List.getElem?_append_right (by omega),kept] at here
    simp only [Nat.add_sub_cancel_left,Nat.sub_self,List.cons_append,List.getElem?_cons_zero,Option.some.injEq] at here
    rwa [← here]
  · obtain ⟨rest,whole⟩ : ∃ rest, chars.drop pos = lead ++ mid ++ trail ++ rest :=
      ⟨(chars.drop pos).drop size,by rw [← split,List.take_append_drop]⟩
    have front : chars.drop (pos + lead.length) = mid ++ trail ++ rest := by
      rw [← List.drop_drop,whole]
      simp
    unfold Piece.text
    rw [front]
    simp

/-- The pieces of a text from a place on: the chunks come from them in order, and no visible character is lost. -/
structure Cut (chars : List Char) (size pos : Nat) (chunks : List String) (pieces : List (Piece chars size)) : Prop where
  texts : chunks = pieces.map Piece.text
  later : ∀ p ∈ pieces, pos ≤ p.window
  ordered : pieces.Pairwise fun p q => p.window < q.window
  kept : ∀ i c, pos ≤ i → chars[i]? = some c → isSpace c = false → ∃ p ∈ pieces, p.start ≤ i ∧ i < p.stop

variable {step fuel : Nat}

/-- The loop cuts what is left of the text. -/
theorem windows_cut (moves : 0 < step) (touches : step ≤ size) (enough : chars.length - pos ≤ fuel) :
    ∃ pieces, Cut chars size pos (windows size step fuel (chars.drop pos)) pieces := by
  induction fuel generalizing pos with
  | zero =>
    have past : ∀ i, pos ≤ i → chars[i]? = none := fun i since => List.getElem?_eq_none (by omega)
    refine ⟨[],rfl,by simp,.nil,fun i c since here _ => ?_⟩
    rw [past i since] at here
    cases here
  | succ fuel ih =>
    -- the window here, and what it keeps
    have window : ∃ pieces : List (Piece chars size),
        (if stripChars ((chars.drop pos).take size) = [] then [] else [String.ofList (stripChars ((chars.drop pos).take size))]) =
          pieces.map Piece.text ∧ (∀ p ∈ pieces, p.window = pos) ∧ pieces.length ≤ 1 ∧
          ∀ i c, pos ≤ i → i < pos + size → chars[i]? = some c → isSpace c = false → ∃ p ∈ pieces, p.start ≤ i ∧ i < p.stop := by
      by_cases blank : stripChars ((chars.drop pos).take size) = []
      · refine ⟨[],by rw [if_pos blank]; rfl,by simp,by simp,fun i c since upTo here plain => ?_⟩
        rw [blank_window blank since upTo here] at plain
        cases plain
      · obtain ⟨p,placement,text⟩ := piece_of_window blank
        refine ⟨[p],by rw [if_neg blank,List.map_singleton,text],by simp [placement],by simp,fun i c since upTo here plain => ?_⟩
        exact ⟨p,List.mem_singleton_self p,p.keeps (placement ▸ since) (placement ▸ upTo) here plain⟩
    obtain ⟨pieces,texts,placed,single,keeps⟩ := window
    have alone : pieces.Pairwise fun p q => p.window < q.window := by
      rcases pieces with _ | ⟨p,_ | ⟨q,rest⟩⟩
      · exact .nil
      · exact List.pairwise_singleton ..
      · simp at single
    have beyond : ∀ i c, chars[i]? = some c → i < chars.length := fun i c here => (List.getElem?_eq_some_iff.mp here).1
    unfold windows
    by_cases ended : chars.drop pos = []
    · rw [if_pos ended]
      refine ⟨[],rfl,by simp,.nil,fun i c since here _ => ?_⟩
      have := beyond i c here
      have := List.drop_eq_nil_iff.mp ended
      omega
    · rw [if_neg ended]
      dsimp only
      by_cases last : (chars.drop pos).length ≤ size
      · rw [if_pos last]
        refine ⟨pieces,texts,fun p member => (placed p member).ge,alone,fun i c since here plain => keeps i c since ?_ here plain⟩
        have := beyond i c here
        rw [List.length_drop] at last
        omega
      · rw [if_neg last,List.drop_drop]
        obtain ⟨rest,tail⟩ := @ih (pos + step) (by omega)
        refine ⟨pieces ++ rest,by rw [texts,tail.texts,List.map_append],?_,?_,?_⟩
        · intro p member
          rcases List.mem_append.mp member with here | there
          · exact (placed p here).ge
          · exact (Nat.le_add_right pos step).trans (tail.later p there)
        · refine List.pairwise_append.mpr ⟨alone,tail.ordered,fun p here q there => ?_⟩
          have := placed p here
          have := tail.later q there
          omega
        · intro i c since here plain
          by_cases near : i < pos + size
          · obtain ⟨p,member,inside⟩ := keeps i c since near here plain
            exact ⟨p,List.mem_append_left _ member,inside⟩
          · obtain ⟨p,member,inside⟩ := tail.kept i c (by omega) here plain
            exact ⟨p,List.mem_append_right _ member,inside⟩

end

/-- Nothing of a text is lost in its chunks. -/
structure Lossless (text : String) (size overlap : Int) (pieces : List (Piece (stripChars text.toList) size.toNat)) : Prop where
  ends : ∀ fuel, (stripChars text.toList).length ≤ fuel → chunk_text text size overlap =
    windows size.toNat (max 1 (size - max 0 overlap)).toNat fuel (stripChars text.toList)
  texts : chunk_text text size overlap = pieces.map Piece.text
  small : ∀ chunk ∈ chunk_text text size overlap,
    chunk ≠ "" ∧ chunk.toList <:+: stripChars text.toList ∧ (chunk.toList.length : Int) ≤ size
  ordered : pieces.Pairwise fun p q => p.window < q.window ∧ p.start ≤ q.start
  kept : ∀ i c, (stripChars text.toList)[i]? = some c → isSpace c = false → ∃ p ∈ pieces, p.start ≤ i ∧ i < p.stop

section
variable {text : String} {size overlap : Int}

/-- The chunks of a text are parts of it in order, not empty and no longer than `size`, and every visible character
    stands in what is kept of one of them. -/
theorem chunks_lossless (sized : 1 ≤ size) : ∃ pieces, Lossless text size overlap pieces := by
  have moves : 0 < (max 1 (size - max 0 overlap)).toNat := by omega
  have touches : (max 1 (size - max 0 overlap)).toNat ≤ size.toNat := by omega
  have ends : ∀ fuel, (stripChars text.toList).length ≤ fuel → chunk_text text size overlap =
      windows size.toNat (max 1 (size - max 0 overlap)).toNat fuel (stripChars text.toList) := by
    intro fuel enough
    unfold chunk_text
    by_cases empty : stripChars text.toList = []
    · rw [if_pos empty,empty]
      cases fuel <;> rfl
    · rw [if_neg empty,if_neg (by omega)]
      exact windows_fuel moves le_rfl enough
  obtain ⟨pieces,cut⟩ := @windows_cut (stripChars text.toList) size.toNat 0 _ _ moves touches (Nat.sub_le ..)
  rw [List.drop_zero,← ends _ le_rfl] at cut
  refine ⟨pieces,ends,cut.texts,fun chunk member => ?_,?_,fun i c => cut.kept i c (Nat.zero_le i)⟩
  · rw [cut.texts] at member
    obtain ⟨p,-,rfl⟩ := List.mem_map.mp member
    have length := p.text_length
    have := p.nonempty
    have := p.opens
    have := p.closes
    refine ⟨fun empty => ?_,p.text_infix,by omega⟩
    rw [empty] at length
    simp at length
    omega
  · exact cut.ordered.imp fun less => ⟨less,Piece.start_mono less.le⟩

end

/-- Windows that touch, with blanks between the words. -/
theorem words_lossless : ∃ pieces, Lossless "one  two" 4 0 pieces := chunks_lossless (by decide)

example : chunk_text " one  two " 4 0 = ["one","two"] := by decide +kernel

end HexAgent.Chunks
