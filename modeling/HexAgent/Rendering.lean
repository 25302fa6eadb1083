import HexAgent.Json
import HexAgent.Quotes
import Mathlib.Data.List.Sort
import Mathlib.Data.String.Basic

/-!
The canonical text of a JSON value. Keys are sorted at every level, so the text says the value up to
the order of keys: two values have one text exactly when they are alike, and the text of an object is
complete for its quotes.
-/
namespace HexAgent.Rendering
open HexAgent.Values HexAgent.Json Quotes

/-! ### JSON values -/

/-- The `repr` of a finite float: it begins with a digit or a sign and has a point or an exponent. -/
structure Numeral (cs : List Char) : Prop where
  starts : ∃ c rest, cs = c :: rest ∧ (c.isDigit = true ∨ c = '-')
  made : ∀ c ∈ cs, c.isDigit = true ∨ c ∈ ['-','+','.','e']
  fractional : '.' ∈ cs ∨ 'e' ∈ cs

section
-- the float of a text
variable (float : String → PyFloat)

/-- A float that its own text stands for. -/
structure Standard (x : PyFloat) : Prop where
  back : float x.text = x
  spelled : x.text ∈ ["nan","inf","-inf"] ∨ Numeral x.text.toList

mutual
/-- A value that JSON has; the keys of an object are distinct. -/
def IsJson : PyVal → Prop
  | .null | .bool _ | .int _ | .str _ => True
  | .float x => Standard float x
  | .list items => AllJson items
  | .dict fields => (fields.map Prod.fst).Nodup ∧ FieldsJson fields
  | .tuple _ | .object _ => False
def AllJson : List PyVal → Prop
  | [] => True
  | v :: rest => IsJson v ∧ AllJson rest
def FieldsJson : List (String × PyVal) → Prop
  | [] => True
  | (_,v) :: rest => IsJson v ∧ FieldsJson rest
end

end

mutual
/-- A value of lists and of objects with distinct keys, whatever its floats are. -/
def Tidy : PyVal → Prop
  | .list items => AllTidy items
  | .dict fields => (fields.map Prod.fst).Nodup ∧ FieldsTidy fields
  | .tuple _ | .object _ => False
  | .null | .bool _ | .int _ | .float _ | .str _ => True
def AllTidy : List PyVal → Prop
  | [] => True
  | v :: rest => Tidy v ∧ AllTidy rest
def FieldsTidy : List (String × PyVal) → Prop
  | [] => True
  | (_,v) :: rest => Tidy v ∧ FieldsTidy rest
end

section
variable {float : String → PyFloat}

mutual
theorem json_tidy : ∀ v : PyVal, IsJson float v → Tidy v
  | .list items,json => allJson_tidy items json
  | .dict fields,json => ⟨json.1,fieldsJson_tidy fields json.2⟩
  | .null,_ | .bool _,_ | .int _,_ | .float _,_ | .str _,_ => trivial
  | .tuple _,json | .object _,json => json
theorem allJson_tidy : ∀ items : List PyVal, AllJson float items → AllTidy items
  | [],_ => trivial
  | v :: rest,json => ⟨json_tidy v json.1,allJson_tidy rest json.2⟩
theorem fieldsJson_tidy : ∀ fields : Fields, FieldsJson float fields → FieldsTidy fields
  | [],_ => trivial
  | (_,v) :: rest,json => ⟨json_tidy v json.1,fieldsJson_tidy rest json.2⟩
end

end

mutual
/-- Equal up to the order of the keys of objects, at every level. -/
def Alike : PyVal → PyVal → Prop
  | .list items,w => ∃ others, w = .list others ∧ AlikeItems items others
  | .dict fields,w => ∃ others, w = .dict others ∧ AlikeFields fields others
  | v,w => v = w
def AlikeItems : List PyVal → List PyVal → Prop
  | [],others => others = []
  | v :: rest,others => ∃ w more, others = w :: more ∧ Alike v w ∧ AlikeItems rest more
/-- Each field has its counterpart somewhere among the others. -/
def AlikeFields : List (String × PyVal) → List (String × PyVal) → Prop
  | [],others => others = []
  | (k,v) :: rest,others =>
    ∃ before w after, others = before ++ (k,w) :: after ∧ Alike v w ∧ AlikeFields rest (before ++ after)
end

/-! ### The canonical order -/

/-- The fields in the order of their keys. -/
def sortFields (fields : Fields) : Fields := fields.insertionSort fun a b => a.1 ≤ b.1

mutual
/-- The value with its keys sorted at every level. -/
def canon : PyVal → PyVal
  | .list items => .list (canonItems items)
  | .dict fields => .dict (sortFields (canonFields fields))
  | v => v
def canonItems : List PyVal → List PyVal
  | [] => []
  | v :: rest => canon v :: canonItems rest
def canonFields : List (String × PyVal) → Fields
  | [] => []
  | (k,v) :: rest => (k,canon v) :: canonFields rest
end

theorem canonFields_eq (fields : Fields) : canonFields fields = fields.map fun field => (field.1,canon field.2) := by
  induction fields with
  | nil => rfl
  | cons field rest ih =>
    obtain ⟨k,v⟩ := field
    rw [canonFields,ih]
    rfl

theorem canon_keys (fields : Fields) : (canonFields fields).map Prod.fst = fields.map Prod.fst := by
  rw [canonFields_eq,List.map_map]
  rfl

theorem sortFields_perm (fields : Fields) : (sortFields fields).Perm fields := List.perm_insertionSort _ _

/-- Fields with distinct keys have one order. -/
theorem sortFields_eq {fields others : Fields} (distinct : (fields.map Prod.fst).Nodup) (perm : fields.Perm others) :
    sortFields fields = sortFields others := by
  have sorted (fields : Fields) : (sortFields fields).Pairwise fun a b => a.1 ≤ b.1 :=
    List.pairwise_insertionSort _ _
  have joined : (sortFields fields).Perm (sortFields others) :=
    (sortFields_perm fields).trans (perm.trans (sortFields_perm others).symm)
  refine List.Perm.eq_of_pairwise (fun a b inside inside' below above => ?_) (sorted fields) (sorted others) joined
  have there : a ∈ fields := (sortFields_perm fields).mem_iff.mp inside
  have there' : b ∈ fields := perm.mem_iff.mpr ((sortFields_perm others).mem_iff.mp inside')
  exact List.inj_on_of_nodup_map distinct there there' (le_antisymm below above)

mutual
/-- Alike values have one canonical form. -/
theorem canon_of_alike : ∀ v w : PyVal, Tidy v → Alike v w → canon v = canon w
  | .list items,w,tidy,alike => by
    obtain ⟨others,rfl,same⟩ := alike
    rw [canon,canon,canonItems_of_alike items others tidy same]
  | .dict fields,w,tidy,alike => by
    obtain ⟨others,rfl,same⟩ := alike
    rw [canon,canon]
    have distinct : ((canonFields fields).map Prod.fst).Nodup := by rw [canon_keys]; exact tidy.1
    rw [sortFields_eq distinct (canonFields_of_alike fields others tidy.2 same)]
  | .null,w,_,alike | .bool _,w,_,alike | .int _,w,_,alike | .float _,w,_,alike | .str _,w,_,alike
  | .tuple _,w,_,alike | .object _,w,_,alike => by
    unfold Alike at alike
    rw [alike]
theorem canonItems_of_alike : ∀ items others : List PyVal, AllTidy items → AlikeItems items others →
    canonItems items = canonItems others
  | [],others,_,alike => by
    unfold AlikeItems at alike
    rw [alike]
  | v :: rest,others,tidy,alike => by
    obtain ⟨w,more,rfl,same,remaining⟩ := alike
    rw [canonItems,canonItems,canon_of_alike v w tidy.1 same,canonItems_of_alike rest more tidy.2 remaining]
theorem canonFields_of_alike : ∀ fields others : Fields, FieldsTidy fields → AlikeFields fields others →
    (canonFields fields).Perm (canonFields others)
  | [],others,_,alike => by
    unfold AlikeFields at alike
    rw [alike]
  | (k,v) :: rest,others,tidy,alike => by
    obtain ⟨before,w,after,rfl,same,remaining⟩ := alike
    have step := canonFields_of_alike rest (before ++ after) tidy.2 remaining
    rw [canonFields,canon_of_alike v w tidy.1 same]
    simp only [canonFields_eq,List.map_append,List.map_cons] at step ⊢
    exact (List.Perm.cons _ step).trans List.perm_middle.symm
end

mutual
/-- Values of one canonical form are alike. -/
theorem alike_of_canon : ∀ v w : PyVal, canon v = canon w → Alike v w
  | .list items,w,same => by
    cases w with
    | list others => exact ⟨others,rfl,alikeItems_of_canon items others (PyVal.list.inj same)⟩
    | _ => cases same
  | .dict fields,w,same => by
    cases w with
    | dict others =>
      have sorted : sortFields (canonFields fields) = sortFields (canonFields others) := PyVal.dict.inj same
      have perm : (canonFields fields).Perm (canonFields others) :=
        (sortFields_perm _).symm.trans (sorted ▸ sortFields_perm _)
      exact ⟨others,rfl,alikeFields_of_canon fields others perm⟩
    | _ => cases same
  | .null,w,same | .bool _,w,same | .int _,w,same | .float _,w,same | .str _,w,same | .tuple _,w,same
  | .object _,w,same => by
    cases w with
    | list _ => cases same
    | dict _ => cases same
    | _ => exact same
theorem alikeItems_of_canon : ∀ items others : List PyVal, canonItems items = canonItems others →
    AlikeItems items others
  | [],others,same => by
    cases others with
    | nil => rfl
    | cons w more => cases same
  | v :: rest,others,same => by
    cases others with
    | nil => cases same
    | cons w more =>
      obtain ⟨first,remaining⟩ := List.cons.inj same
      exact ⟨w,more,rfl,alike_of_canon v w first,alikeItems_of_canon rest more remaining⟩
theorem alikeFields_of_canon : ∀ fields others : Fields, (canonFields fields).Perm (canonFields others) →
    AlikeFields fields others
  | [],others,perm => by
    cases others with
    | nil => rfl
    | cons field more => cases perm.length_eq
  | (k,v) :: rest,others,perm => by
    have found : (k,canon v) ∈ canonFields others := perm.subset (List.mem_cons_self ..)
    rw [canonFields_eq,List.mem_map] at found
    obtain ⟨⟨k',w⟩,member,same⟩ := found
    obtain ⟨rfl,alike⟩ := Prod.mk.inj same
    obtain ⟨before,after,rfl⟩ := List.append_of_mem member
    refine ⟨before,w,after,rfl,alike_of_canon v w alike.symm,alikeFields_of_canon rest (before ++ after) ?_⟩
    simp only [canonFields_eq,List.map_append,List.map_cons] at perm ⊢
    rw [← alike] at perm
    exact List.Perm.cons_inv (perm.trans List.perm_middle)
end

section
variable {float : String → PyFloat}

theorem canon_eq_iff {v w : PyVal} (json : IsJson float v) : canon v = canon w ↔ Alike v w :=
  ⟨alike_of_canon v w,canon_of_alike v w (json_tidy v json)⟩

end
end HexAgent.Rendering
