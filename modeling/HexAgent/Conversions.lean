import HexAgent.Values

/-!
What the conversions of Python accept: `dict` takes dictionaries and sequences of pairs. JSON
values, the values that a reader of JSON gives, have a text wherever they are true.
-/
namespace HexAgent.Conversions
open HexAgent.Values

/-- A sequence of computations returns when each returns. -/
theorem bind_ok_iff {ε α β : Type} {x : Except ε α} {k : α → Except ε β} {b : β} :
    x.bind k = .ok b ↔ ∃ a, x = .ok a ∧ k a = .ok b := by
  cases x with
  | error error =>
    constructor
    · intro done
      cases done
    · rintro ⟨a,same,-⟩
      cases same
  | ok a =>
    constructor
    · exact fun done => ⟨a,rfl,done⟩
    · rintro ⟨a',same,done⟩
      cases same
      exact done

/-! ### Dictionaries -/

/-- Two items, the first of which can be a key. -/
def Pair (v : PyVal) : Prop := ∃ key value hash, v.iter = .ok [key,value] ∧ key.hashKey = .ok hash

theorem pairsOf_ok_iff (index : Nat) (items : List PyVal) (acc : KeyedItems) :
    (∃ entries, pairsOf index items acc = .ok entries) ↔ ∀ item ∈ items, Pair item := by
  induction items generalizing index acc with
  | nil => simp [pairsOf]
  | cons item rest ih =>
    rw [List.forall_mem_cons]
    unfold pairsOf
    split
    · next error failed =>
      constructor
      · rintro ⟨_,done⟩
        cases done
      · rintro ⟨⟨key,value,hash,iterates,-⟩,-⟩
        rw [failed] at iterates
        cases iterates
    · next key value iterates =>
      split
      · next error unhashable =>
        constructor
        · rintro ⟨_,done⟩
          cases done
        · rintro ⟨⟨key',value',hash,iterates',hashed⟩,-⟩
          rw [iterates] at iterates'
          cases iterates'
          rw [unhashable] at hashed
          cases hashed
      · next hash hashed =>
        rw [ih]
        exact ⟨fun others => ⟨⟨key,value,hash,iterates,hashed⟩,others⟩,fun both => both.2⟩
    · next items longer iterates =>
      constructor
      · rintro ⟨_,done⟩
        cases done
      · rintro ⟨⟨key,value,hash,iterates',-⟩,-⟩
        rw [iterates] at iterates'
        exact absurd (Except.ok.inj iterates') (longer key value)

theorem toDict_ok_iff (v : PyVal) :
    (∃ fields, v.toDict = .ok fields) ↔ (∃ fields, v = .dict fields) ∨ ∃ items, v.iter = .ok items ∧ ∀ item ∈ items, Pair item := by
  unfold PyVal.toDict
  split
  · next fields => exact ⟨fun _ => .inl ⟨fields,rfl⟩,fun _ => ⟨fields,rfl⟩⟩
  · next other =>
    have noDict : ¬ ∃ fields, v = .dict fields := fun ⟨fields,same⟩ => other fields same
    split
    · next error failed =>
      constructor
      · rintro ⟨_,done⟩
        cases done
      · rintro (dict | ⟨items,iterates,-⟩)
        · exact absurd dict noDict
        · rw [failed] at iterates
          cases iterates
    · next items iterates =>
      have named : (∃ fields, (pairsOf 0 items []).map KeyedItems.named = .ok fields) ↔
          ∃ entries, pairsOf 0 items [] = .ok entries := by
        cases pairsOf 0 items [] <;> simp [Except.map]
      rw [named,pairsOf_ok_iff]
      constructor
      · exact fun pairs => .inr ⟨items,iterates,pairs⟩
      · rintro (dict | ⟨items',iterates',pairs⟩)
        · exact absurd dict noDict
        · rw [iterates] at iterates'
          cases iterates'
          exact pairs

/-- `dict(v or {})` gives a dictionary: the value is false, a dictionary or a sequence of pairs. -/
def DictLike (v : PyVal) : Prop :=
  v.truthy = false ∨ (∃ fields, v = .dict fields) ∨ ∃ items, v.iter = .ok items ∧ ∀ item ∈ items, Pair item

theorem dictLike_iff (v : PyVal) : DictLike v ↔ ∃ fields, (v.orElse (.dict [])).toDict = .ok fields := by
  unfold DictLike PyVal.orElse
  rcases truth : v.truthy with _ | _
  · rw [if_neg Bool.false_ne_true]
    exact ⟨fun _ => ⟨[],rfl⟩,fun _ => .inl rfl⟩
  · rw [if_pos rfl,toDict_ok_iff]
    simp

/-! ### JSON values -/

mutual
/-- A value that a reader of JSON gives: it reads no integer with too many digits. -/
def Json : PyVal → Prop
  | .int i => i.natAbs < intLimit
  | .float x => x.text ≠ ""
  | .list items => JsonItems items
  | .dict fields => JsonFields fields
  | .tuple _ => False
  | .object _ => False
  | _ => True
def JsonItems : List PyVal → Prop
  | [] => True
  | v :: rest => Json v ∧ JsonItems rest
def JsonFields : List (String × PyVal) → Prop
  | [] => True
  | (_,v) :: rest => Json v ∧ JsonFields rest
end

theorem jsonFields_get {fields : Fields} (json : JsonFields fields) (key : String) : Json (fields.get key) := by
  induction fields with
  | nil => exact trivial
  | cons field rest ih =>
    obtain ⟨name,v⟩ := field
    unfold JsonFields at json
    unfold Fields.get Fields.getD at ih ⊢
    rw [Dicts.get]
    split
    · exact json.1
    · exact ih json.2

/-- A JSON value that is true has a text. -/
theorem json_text {v : PyVal} (json : Json v) (truth : v.truthy = true) : v.text ≠ "" := by
  cases v with
  | null => cases truth
  | bool b => cases b <;> decide
  | int i =>
    cases i with
    | ofNat n => exact Nat.repr_ne_empty
    | negSucc n => simp [PyVal.text,PyVal.repr,toString,Int.repr,String.append_eq_empty_iff]
  | float x => exact json
  | str s => simpa using truth
  | list items => simp [PyVal.text,PyVal.repr,String.append_eq_empty_iff]
  | tuple items => exact absurd json id
  | dict fields => simp [PyVal.text,PyVal.repr,String.append_eq_empty_iff]
  | object o => exact absurd json id

end HexAgent.Conversions
