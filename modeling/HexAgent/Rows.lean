import Mathlib.Data.List.Basic

/-!
Texts read one after another. A text that is told from the others, together with where it ends, stays
so in a row of such texts between separators, up to the character that closes the row.
-/
namespace Rows

section
variable {α : Type} (stops : List Char)

/-- What comes next ends a text: nothing, or one of the stops. -/
def Stops (rest : List Char) : Prop := ∀ c ∈ rest.head?, c ∈ stops

/-- The text of `a` is told from the texts of these values, and so is where it ends. -/
def Told (among : α → Prop) (text : α → List Char) (a : α) : Prop :=
  ∀ b, among b → ∀ s t, Stops stops s → Stops stops t → text a ++ s = text b ++ t → a = b ∧ s = t

end

section
variable {α : Type} {stops : List Char}

/-- Texts without stops end at the first one. -/
theorem run_ends {a b s t : List Char} (free : ∀ c ∈ a, c ∉ stops) (free' : ∀ c ∈ b, c ∉ stops) (ends : Stops stops s)
    (ends' : Stops stops t) (same : a ++ s = b ++ t) : a = b ∧ s = t := by
  rcases List.append_eq_append_iff.mp same with ⟨gap,rfl,rfl⟩ | ⟨gap,rfl,rfl⟩
  · cases gap with
    | nil => exact ⟨(List.append_nil _).symm,rfl⟩
    | cons c gap => exact (free' c (List.mem_append_right _ (List.mem_cons_self ..)) (ends c rfl)).elim
  · cases gap with
    | nil => exact ⟨List.append_nil _,rfl⟩
    | cons c gap => exact (free c (List.mem_append_right _ (List.mem_cons_self ..)) (ends' c rfl)).elim

/-- A row is its first text and the others, each one after a separator. -/
theorem intercalate_cons (sep a : List Char) (rest : List (List Char)) :
    sep.intercalate (a :: rest) = a ++ rest.flatMap fun b => sep ++ b := by
  induction rest generalizing a with
  | nil => simp
  | cons b rest ih => rw [List.intercalate_cons_cons,ih,List.flatMap_cons,List.append_assoc,List.append_assoc]

variable {among : α → Prop} {text : α → List Char} {c close : Char} {sep : List Char}

/-- After a text of a row comes a separator or the end of the row. -/
theorem stops_tail (comma : c ∈ stops) (closes : close ∈ stops) (items : List α) (s : List Char) :
    Stops stops ((items.flatMap fun a => c :: sep ++ text a) ++ close :: s) := by
  cases items with
  | nil => rintro d ⟨⟩; exact closes
  | cons a items => rintro d ⟨⟩; exact comma

theorem tail_told (comma : c ∈ stops) (closes : close ∈ stops) (other : c ≠ close) {items others : List α}
    {s t : List Char} (told : ∀ a ∈ items, Told stops among text a) (known : ∀ b ∈ others, among b)
    (same : (items.flatMap fun a => c :: sep ++ text a) ++ close :: s =
      (others.flatMap fun a => c :: sep ++ text a) ++ close :: t) : items = others ∧ s = t := by
  induction items generalizing others with
  | nil =>
    cases others with
    | nil => exact ⟨rfl,(List.cons.inj same).2⟩
    | cons b others => exact (other (List.cons.inj same).1.symm).elim
  | cons a items ih =>
    cases others with
    | nil => exact (other (List.cons.inj same).1).elim
    | cons b others =>
      simp only [List.flatMap_cons,List.cons_append,List.append_assoc,List.cons.injEq,true_and,
        List.append_cancel_left_eq] at same
      obtain ⟨first,remaining⟩ := List.forall_mem_cons.mp known
      obtain ⟨rfl,rest⟩ := told a (List.mem_cons_self ..) b first _ _ (stops_tail comma closes items s)
        (stops_tail comma closes others t) same
      obtain ⟨rfl,after⟩ := ih (fun a inside => told a (List.mem_cons_of_mem _ inside)) remaining rest
      exact ⟨rfl,after⟩

/-- A row is told from the other rows, up to the character that closes it. -/
theorem row_told (comma : c ∈ stops) (closes : close ∈ stops) (other : c ≠ close)
    (starts : ∀ a, among a → ∃ d rest, text a = d :: rest ∧ d ≠ close) {items others : List α} {s t : List Char}
    (told : ∀ a ∈ items, Told stops among text a) (known : ∀ a ∈ items, among a) (known' : ∀ b ∈ others, among b)
    (same : (c :: sep).intercalate (items.map text) ++ close :: s = (c :: sep).intercalate
      (others.map text) ++ close :: t) :
    items = others ∧ s = t := by
  cases items with
  | nil =>
    cases others with
    | nil => exact ⟨rfl,(List.cons.inj same).2⟩
    | cons b others =>
      obtain ⟨d,rest,spelled,apart⟩ := starts b (known' b (List.mem_cons_self ..))
      rw [List.map_cons,intercalate_cons,spelled] at same
      exact (apart (List.cons.inj same).1.symm).elim
  | cons a items =>
    cases others with
    | nil =>
      obtain ⟨d,rest,spelled,apart⟩ := starts a (known a (List.mem_cons_self ..))
      rw [List.map_cons,intercalate_cons,spelled] at same
      exact (apart (List.cons.inj same).1).elim
    | cons b others =>
      obtain ⟨first,remaining⟩ := List.forall_mem_cons.mp known'
      simp only [List.map_cons,intercalate_cons,List.flatMap_map,List.append_assoc] at same
      obtain ⟨rfl,rest⟩ := told a (List.mem_cons_self ..) b first _ _ (stops_tail comma closes items s)
        (stops_tail comma closes others t) same
      obtain ⟨rfl,after⟩ := tail_told comma closes other (fun a inside => told a (List.mem_cons_of_mem _ inside))
        remaining rest
      exact ⟨rfl,after⟩

end
end Rows
