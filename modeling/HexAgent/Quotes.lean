import Mathlib.Data.List.Basic

/-!
Reading a JSON text for its quotes only. A text that is complete, and in which no backslash is
outside of a string and a space follows each colon there, does not end in another such text right
after a colon: read from its own start, that text would have its quotes the other way round.
-/
namespace Quotes

/-- Where a reader is: outside of strings, right after a colon there, inside of a string, or right
    after a backslash in one. -/
inductive Mode where
  | outside
  | colon
  | inside
  | escaped
  deriving DecidableEq

/-- Read a character. -/
def step : Mode → Char → Option Mode
  | .outside,c =>
    if c = '\"' then some .inside else if c = '\\' then none else if c = ':' then some .colon else some .outside
  | .colon,c => if c = ' ' then some .outside else none
  | .inside,c => if c = '\"' then some .outside else if c = '\\' then some .escaped else some .inside
  | .escaped,_ => some .inside

/-- Read a text. -/
def reads : Mode → List Char → Option Mode
  | m,[] => some m
  | m,c :: cs => (step m c).bind fun m => reads m cs

theorem reads_append (m : Mode) (cs ds : List Char) : reads m (cs ++ ds) = (reads m cs).bind fun m => reads m ds := by
  induction cs generalizing m with
  | nil => rfl
  | cons c cs ih =>
    rw [List.cons_append,reads,reads,Option.bind_assoc]
    exact congrArg _ (funext ih)

/-- The texts after each other. -/
theorem reads_through {m n : Mode} {cs ds : List Char} (first : reads m cs = some n) :
    reads m (cs ++ ds) = reads n ds := by
  rw [reads_append,first]
  rfl

/-- One reader is inside of a string, the other one outside. -/
def Apart (m n : Mode) : Prop :=
  m = .inside ∧ (n = .outside ∨ n = .colon) ∨ n = .inside ∧ (m = .outside ∨ m = .colon)

/-- Inside and outside stay apart: a quote ends the string of one reader and starts one of the other, and a backslash
    stops the one that is outside. -/
theorem apart_step {m n m' n' : Mode} {c : Char} (apart : Apart m n) (first : step m c = some m')
    (second : step n c = some n') : Apart m' n' := by
  by_cases quote : c = '\"'
  · subst quote
    rcases apart with ⟨rfl,rfl | rfl⟩ | ⟨rfl,rfl | rfl⟩ <;> simp_all [step,Apart]
  · by_cases backslash : c = '\\'
    · subst backslash
      rcases apart with ⟨rfl,rfl | rfl⟩ | ⟨rfl,rfl | rfl⟩ <;> simp_all [step]
    · rcases apart with ⟨rfl,rfl | rfl⟩ | ⟨rfl,rfl | rfl⟩
      all_goals
        simp only [step,quote,backslash,if_false] at first second
        split_ifs at first second <;> simp_all [Apart]

theorem apart_reads {m n m' n' : Mode} {cs : List Char} (apart : Apart m n) (first : reads m cs = some m')
    (second : reads n cs = some n') : Apart m' n' := by
  induction cs generalizing m n with
  | nil =>
    cases first
    cases second
    exact apart
  | cons c cs ih =>
    obtain ⟨m₁,stepped,rest⟩ := Option.bind_eq_some_iff.mp first
    obtain ⟨n₁,stepped',rest'⟩ := Option.bind_eq_some_iff.mp second
    exact ih (apart_step apart stepped stepped') rest rest'

/-- A complete text that does not begin with a space. -/
structure Complete (text : List Char) : Prop where
  closes : reads .outside text = some .outside
  tight : text.head? ≠ some ' '

/-- No complete text ends in another one right after a colon. -/
theorem not_after_colon {before text : List Char} (whole : reads .outside (before ++ ':' :: text) = some .outside)
    (complete : Complete text) : False := by
  rw [reads_append] at whole
  obtain ⟨m,-,rest⟩ := Option.bind_eq_some_iff.mp whole
  obtain ⟨n,stepped,ends⟩ := Option.bind_eq_some_iff.mp rest
  have string : n = .inside → False := by
    rintro rfl
    rcases apart_reads (.inl ⟨rfl,.inl rfl⟩) ends complete.closes with ⟨wrong,-⟩ | ⟨wrong,-⟩ <;> cases wrong
  cases m with
  | outside =>
    cases stepped
    cases text with
    | nil => cases ends
    | cons c text =>
      obtain ⟨n,stepped,-⟩ := Option.bind_eq_some_iff.mp ends
      have space : c = ' ' := by
        by_contra other
        rw [step,if_neg other] at stepped
        cases stepped
      exact complete.tight (by rw [space]; rfl)
  | colon => cases stepped
  | inside => exact string (Option.some.inj stepped).symm
  | escaped => exact string (Option.some.inj stepped).symm

/-- A name and a complete text with a colon between them are told apart, whatever the name is. -/
theorem separated {name name' text text' : List Char} (complete : Complete text) (complete' : Complete text')
    (same : name ++ ':' :: text = name' ++ ':' :: text') : name = name' ∧ text = text' := by
  rcases List.append_eq_append_iff.mp same with ⟨gap,rfl,tail⟩ | ⟨gap,rfl,tail⟩
  · cases gap with
    | nil => exact ⟨(List.append_nil _).symm,(List.cons.inj tail).2⟩
    | cons c gap =>
      obtain ⟨rfl,inside⟩ := List.cons.inj tail
      exact (not_after_colon (inside ▸ complete.closes) complete').elim
  · cases gap with
    | nil => exact ⟨List.append_nil _,(List.cons.inj tail).2.symm⟩
    | cons c gap =>
      obtain ⟨rfl,inside⟩ := List.cons.inj tail
      exact (not_after_colon (inside ▸ complete'.closes) complete).elim

end Quotes
