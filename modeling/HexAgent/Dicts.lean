import Mathlib.Data.List.Induction
import Mathlib.Data.List.Nodup
import Mathlib.Data.List.Lookmap

/-!
Insertion-ordered dictionaries. `put` on a list of pairs replaces the value of a
key in place or appends a new pair; a `Dict` is such a list whose keys are
distinct, and `put` keeps them so.
-/
namespace Dicts

section
variable {κ α : Type} [DecidableEq κ]

/-! ### Lists of pairs -/

/-- The value of the first pair with the key. -/
def get (k : κ) : List (κ × α) → Option α
  | [] => none
  | (j,v) :: rest => if j = k then some v else get k rest
/-- Replace the value of the key in place, or append the pair. -/
def put (k : κ) (v : α) : List (κ × α) → List (κ × α)
  | [] => [(k,v)]
  | (j,u) :: rest => if j = k then (j,v) :: rest else (j,u) :: put k v rest
/-- The left pairs overwritten and extended by the right ones, in order. -/
def merge (pairs : List (κ × α)) (more : List (κ × α)) : List (κ × α) :=
  more.foldl (fun acc pair => put pair.1 pair.2 acc) pairs

theorem get_put (k j : κ) (v : α) (pairs : List (κ × α)) :
    get j (put k v pairs) = if j = k then some v else get j pairs := by
  induction pairs with
  | nil =>
    by_cases same : j = k
    · simp [put,get,same]
    · simp [put,get,same,Ne.symm same]
  | cons pair rest ih =>
    obtain ⟨i,u⟩ := pair
    by_cases here : i = k
    · subst here
      by_cases same : j = i
      · simp [put,get,same]
      · simp [put,get,same,Ne.symm same]
    · by_cases same : i = j
      · subst same
        simp [put,get,here]
      · simp [put,get,here,same,ih]

theorem get_put_self (k : κ) (v : α) (pairs : List (κ × α)) : get k (put k v pairs) = some v := by
  simp [get_put]

theorem get_put_other {k j : κ} (other : j ≠ k) (v : α) (pairs : List (κ × α)) :
    get j (put k v pairs) = get j pairs := by
  simp [get_put,other]

theorem put_put (k : κ) (v u : α) (pairs : List (κ × α)) : put k v (put k u pairs) = put k v pairs := by
  induction pairs with
  | nil => simp [put]
  | cons pair rest ih =>
    obtain ⟨j,w⟩ := pair
    by_cases same : j = k <;> simp [put,same,ih]

/-- The value that a key has is put there without a change. -/
theorem put_same {k : κ} {v : α} {pairs : List (κ × α)} (there : get k pairs = some v) : put k v pairs = pairs := by
  induction pairs with
  | nil => cases there
  | cons pair rest ih =>
    obtain ⟨j,w⟩ := pair
    by_cases same : j = k
    · simp_all [get,put]
    · simp_all [get,put]

theorem keys_put (k : κ) (v : α) (pairs : List (κ × α)) :
    (put k v pairs).map Prod.fst =
      if k ∈ pairs.map Prod.fst then pairs.map Prod.fst else pairs.map Prod.fst ++ [k] := by
  induction pairs with
  | nil => simp [put]
  | cons pair rest ih =>
    obtain ⟨i,u⟩ := pair
    by_cases here : i = k
    · simp [put,here]
    · simp only [put,here,↓reduceIte,List.map_cons,ih,List.mem_cons,Ne.symm here,false_or]
      split
      · rfl
      · rfl

theorem mem_keys_put {k j : κ} {v : α} {pairs : List (κ × α)} :
    j ∈ (put k v pairs).map Prod.fst ↔ j = k ∨ j ∈ pairs.map Prod.fst := by
  rw [keys_put]
  split
  · next present =>
    constructor
    · exact .inr
    · rintro (rfl | member)
      · exact present
      · exact member
  · simp [or_comm]

theorem nodup_put {k : κ} {v : α} {pairs : List (κ × α)} (nodup : (pairs.map Prod.fst).Nodup) :
    ((put k v pairs).map Prod.fst).Nodup := by
  rw [keys_put]
  split
  · exact nodup
  · next absent => exact nodup.append (List.nodup_singleton k) (by simpa using absent)

theorem put_new {k : κ} {v : α} {pairs : List (κ × α)} (new : k ∉ pairs.map Prod.fst) : put k v pairs = pairs ++ [(k,v)] := by
  induction pairs with
  | nil => rfl
  | cons pair rest ih =>
    obtain ⟨j,u⟩ := pair
    have other : j ≠ k := fun same => new (by simp [same])
    simp only [put,other,↓reduceIte,List.cons_append]
    rw [ih (fun member => new (List.mem_cons_of_mem _ member))]

theorem merge_snoc (pairs more : List (κ × α)) (pair : κ × α) :
    merge pairs (more ++ [pair]) = put pair.1 pair.2 (merge pairs more) := by
  simp [merge]

/-- The right pairs are looked up first. -/
theorem get_merge (k : κ) (pairs more : List (κ × α)) :
    get k (merge pairs more) = (get k (merge [] more)).or (get k pairs) := by
  induction more using List.reverseRecOn with
  | nil => rfl
  | append_singleton more pair ih =>
    rw [merge_snoc,merge_snoc,get_put,get_put]
    by_cases same : k = pair.1
    · rw [if_pos same,if_pos same,Option.some_or]
    · rw [if_neg same,if_neg same,ih]

/-- What a search by key finds after a pair is put. -/
theorem find_put (keep : κ → Bool) (k : κ) (v : α) (pairs : List (κ × α)) :
    (put k v pairs).find? (fun pair => keep pair.1) =
      match pairs.find? fun pair => keep pair.1 with
      | some found => if found.1 = k then some (k,v) else some found
      | none => if keep k then some (k,v) else none := by
  induction pairs with
  | nil => simp [put,List.find?_singleton]
  | cons pair rest ih =>
    obtain ⟨j,u⟩ := pair
    by_cases here : j = k
    · subst here
      cases kept : keep j with
      | true => simp [put,kept]
      | false =>
        have elsewhere : ∀ found, rest.find? (fun pair => keep pair.1) = some found → found.1 ≠ j := by
          rintro found hit rfl
          have := List.find?_some hit
          simp [kept] at this
        rw [put,if_pos rfl,List.find?_cons_of_neg (by simp [kept]),List.find?_cons_of_neg (by simp [kept])]
        cases hit : rest.find? (fun pair => keep pair.1) with
        | none => simp
        | some found => simp [elsewhere found hit]
    · cases kept : keep j with
      | true => simp [put,here,kept]
      | false =>
        rw [put,if_neg here,List.find?_cons_of_neg (by simp [kept]),List.find?_cons_of_neg (by simp [kept]),ih]

/-- A search by key in merged pairs finds the first key, with its last value. -/
theorem find_merge (keep : κ → Bool) (pairs : List (κ × α)) :
    (merge [] pairs).find? (fun pair => keep pair.1) =
      (pairs.find? fun pair => keep pair.1).bind fun first => pairs.reverse.find? fun pair => pair.1 = first.1 := by
  induction pairs using List.reverseRecOn with
  | nil => rfl
  | append_singleton pairs pair ih =>
    rw [merge_snoc,find_put,ih,List.find?_append,List.reverse_append]
    cases hit : pairs.find? fun pair => keep pair.1 with
    | none => cases kept : keep pair.1 <;> simp [kept]
    | some first =>
      obtain ⟨last,back⟩ : ∃ last, (pairs.reverse.find? fun pair => pair.1 = first.1) = some last := by
        rw [← Option.isSome_iff_exists,List.find?_isSome]
        exact ⟨first,List.mem_reverse.mpr (List.mem_of_find?_eq_some hit),by simp⟩
      have same : last.1 = first.1 := by simpa using List.find?_some back
      by_cases again : pair.1 = first.1
      · have renamed : (first.1,pair.2) = pair := Prod.ext again.symm rfl
        simp [back,same,again,renamed]
      · simp [back,same,again,Ne.symm again]

/-- Pairs with distinct keys are merged as they are. -/
theorem merge_distinct {pairs : List (κ × α)} (distinct : (pairs.map Prod.fst).Nodup) : merge [] pairs = pairs := by
  induction pairs using List.reverseRecOn with
  | nil => rfl
  | append_singleton pairs pair ih =>
    rw [List.map_append] at distinct
    obtain ⟨before,-,apart⟩ := List.nodup_append.mp distinct
    have new : pair.1 ∉ pairs.map Prod.fst := fun member => apart _ member _ List.mem_cons_self rfl
    rw [merge_snoc,ih before,put_new new]

theorem length_put (k : κ) (v : α) (pairs : List (κ × α)) :
    (put k v pairs).length = if k ∈ pairs.map Prod.fst then pairs.length else pairs.length + 1 := by
  have keys := congrArg List.length (keys_put k v pairs)
  rw [List.length_map] at keys
  rw [keys]
  split <;> simp

theorem length_merge (pairs : List (κ × α)) : (merge [] pairs).length ≤ pairs.length := by
  induction pairs using List.reverseRecOn with
  | nil => exact Nat.le_refl 0
  | append_singleton pairs pair ih =>
    rw [merge_snoc,length_put,List.length_append,List.length_singleton]
    split <;> omega

/-- Pairs of which none is lost are merged as they are. -/
theorem merge_whole {pairs : List (κ × α)} (whole : (merge [] pairs).length = pairs.length) : merge [] pairs = pairs := by
  induction pairs using List.reverseRecOn with
  | nil => rfl
  | append_singleton pairs pair ih =>
    have less := length_merge pairs
    rw [merge_snoc,length_put,List.length_append,List.length_singleton] at whole
    split at whole
    · omega
    · next new =>
      rw [merge_snoc,put_new new,ih (Nat.succ.inj whole)]

theorem get_isSome_iff {k : κ} {pairs : List (κ × α)} : (get k pairs).isSome ↔ k ∈ pairs.map Prod.fst := by
  induction pairs with
  | nil => simp [get]
  | cons pair rest ih =>
    obtain ⟨i,u⟩ := pair
    by_cases here : i = k
    · simp [get,here]
    · simp [get,here,ih,Ne.symm here]

theorem get_eq_none_iff {k : κ} {pairs : List (κ × α)} : get k pairs = none ↔ k ∉ pairs.map Prod.fst := by
  rw [← get_isSome_iff]
  simp

/-- With distinct keys the pairs are what is looked up. -/
theorem get_eq_some_iff {k : κ} {v : α} {pairs : List (κ × α)} (distinct : (pairs.map Prod.fst).Nodup) :
    get k pairs = some v ↔ (k,v) ∈ pairs := by
  induction pairs with
  | nil => simp [get]
  | cons pair rest ih =>
    obtain ⟨j,u⟩ := pair
    obtain ⟨new,distinct'⟩ := List.nodup_cons.mp distinct
    by_cases here : j = k
    · subst here
      have absent : (j,v) ∉ rest := fun member => new (List.mem_map.mpr ⟨(j,v),member,rfl⟩)
      simp [get,absent,eq_comm]
    · simp [get,here,ih distinct',Ne.symm here]

end

/-! ### Dictionaries -/

/-- An insertion-ordered dictionary: pairs whose keys are distinct. -/
@[ext] structure Dict (κ α : Type) where
  pairs : List (κ × α)
  nodup : (pairs.map Prod.fst).Nodup

namespace Dict
section
variable {κ α : Type}

instance [DecidableEq κ] [DecidableEq α] : DecidableEq (Dict κ α) := fun a b =>
  decidable_of_iff (a.pairs = b.pairs) Dict.ext_iff.symm

/-- The dictionary without keys. -/
def empty : Dict κ α := ⟨[],List.nodup_nil⟩
instance : EmptyCollection (Dict κ α) := ⟨empty⟩

def keys (d : Dict κ α) : List κ := d.pairs.map Prod.fst
def size (d : Dict κ α) : Nat := d.pairs.length

@[simp] theorem keys_empty : (∅ : Dict κ α).keys = [] := rfl
@[simp] theorem size_empty : (∅ : Dict κ α).size = 0 := rfl
theorem size_eq_keys (d : Dict κ α) : d.size = d.keys.length := by simp [size,keys]
end

variable {κ α : Type} [DecidableEq κ]

def get (d : Dict κ α) (k : κ) : Option α := Dicts.get k d.pairs
def put (d : Dict κ α) (k : κ) (v : α) : Dict κ α := ⟨Dicts.put k v d.pairs,nodup_put d.nodup⟩
/-- The dictionary of a list of pairs: a later pair overwrites an earlier one. -/
def ofPairs (pairs : List (κ × α)) : Dict κ α := pairs.foldl (fun d pair => d.put pair.1 pair.2) ∅

/-- The pairs whose value passes. -/
def filter (keep : α → Bool) (d : Dict κ α) : Dict κ α :=
  ⟨d.pairs.filter fun pair => keep pair.2,d.nodup.sublist (List.filter_sublist.map Prod.fst)⟩
/-- The dictionary overwritten and extended by the pairs, in order. -/
def update (d : Dict κ α) (pairs : List (κ × α)) : Dict κ α := pairs.foldl (fun d pair => d.put pair.1 pair.2) d

@[simp] theorem get_empty (k : κ) : (∅ : Dict κ α).get k = none := rfl

theorem get_put (d : Dict κ α) (k j : κ) (v : α) : (d.put k v).get j = if j = k then some v else d.get j :=
  Dicts.get_put k j v d.pairs

@[simp] theorem get_put_self (d : Dict κ α) (k : κ) (v : α) : (d.put k v).get k = some v :=
  Dicts.get_put_self k v d.pairs

theorem get_put_other {k j : κ} (other : j ≠ k) (d : Dict κ α) (v : α) : (d.put k v).get j = d.get j :=
  Dicts.get_put_other other v d.pairs

@[simp] theorem mem_keys_put {d : Dict κ α} {k j : κ} {v : α} : j ∈ (d.put k v).keys ↔ j = k ∨ j ∈ d.keys :=
  Dicts.mem_keys_put

theorem keys_put (d : Dict κ α) (k : κ) (v : α) : (d.put k v).keys = if k ∈ d.keys then d.keys else d.keys ++ [k] :=
  Dicts.keys_put k v d.pairs

theorem get_eq_none_iff {d : Dict κ α} {k : κ} : d.get k = none ↔ k ∉ d.keys := Dicts.get_eq_none_iff

theorem mem_keys_of_get {d : Dict κ α} {k : κ} {v : α} (found : d.get k = some v) : k ∈ d.keys :=
  get_isSome_iff.mp (by rw [show Dicts.get k d.pairs = some v from found]; rfl)

theorem get_of_mem_keys {d : Dict κ α} {k : κ} (present : k ∈ d.keys) : ∃ v, d.get k = some v :=
  Option.isSome_iff_exists.mp (get_isSome_iff.mpr present)

theorem keys_put_subset (d : Dict κ α) (k : κ) (v : α) : ∀ j ∈ d.keys, j ∈ (d.put k v).keys :=
  fun _ member => mem_keys_put.mpr (.inr member)

theorem size_put_new {d : Dict κ α} {k : κ} (new : k ∉ d.keys) (v : α) : (d.put k v).size = d.size + 1 := by
  rw [size_eq_keys,size_eq_keys]
  have keysPut : (d.put k v).keys = d.keys ++ [k] := (keys_put d k v).trans (if_neg new)
  simp [keysPut]

theorem size_put_present {d : Dict κ α} {k : κ} (present : k ∈ d.keys) (v : α) : (d.put k v).size = d.size := by
  rw [size_eq_keys,size_eq_keys]
  have keysPut : (d.put k v).keys = d.keys := (keys_put d k v).trans (if_pos present)
  simp [keysPut]

theorem size_le_put (d : Dict κ α) (k : κ) (v : α) : d.size ≤ (d.put k v).size := by
  by_cases present : k ∈ d.keys
  · exact Nat.le_of_eq (size_put_present present v).symm
  · rw [size_put_new present]; omega

theorem get_filter (keep : α → Bool) (d : Dict κ α) (k : κ) : (d.filter keep).get k = (d.get k).filter keep := by
  obtain ⟨pairs,nodup⟩ := d
  induction pairs with
  | nil => rfl
  | cons pair rest ih =>
    obtain ⟨j,u⟩ := pair
    obtain ⟨new,nodup'⟩ := List.nodup_cons.mp nodup
    have tail : Dicts.get k (rest.filter fun pair => keep pair.2) = (Dicts.get k rest).filter keep := ih nodup'
    show Dicts.get k (((j,u) :: rest).filter fun pair => keep pair.2) = (Dicts.get k ((j,u) :: rest)).filter keep
    by_cases here : j = k
    · subst here
      have none : Dicts.get j rest = none := Dicts.get_eq_none_iff.mpr new
      by_cases kept : keep u = true
      · simp [Dicts.get,kept,Option.filter]
      · simp [Dicts.get,kept,tail,none,Option.filter]
    · by_cases kept : keep u = true
      · simp [Dicts.get,kept,here,tail]
      · simp [Dicts.get,kept,here,tail]

/-- Every value of an update is one of the pairs' or was there. -/
theorem of_get_update {pairs : List (κ × α)} {d : Dict κ α} {k : κ} {v : α} (found : (d.update pairs).get k = some v) :
    (k,v) ∈ pairs ∨ d.get k = some v := by
  induction pairs generalizing d with
  | nil => exact .inr found
  | cons pair rest ih =>
    obtain ⟨j,u⟩ := pair
    have later : ((d.put j u).update rest).get k = some v := found
    rcases ih later with member | there
    · exact .inl (List.mem_cons_of_mem _ member)
    · rw [get_put] at there
      split at there
      · next here =>
        cases there
        exact .inl (by rw [here]; exact List.mem_cons_self ..)
      · exact .inr there

/-- Pairs with distinct keys take precedence over what was there. -/
theorem get_update {pairs : List (κ × α)} (distinct : (pairs.map Prod.fst).Nodup) (d : Dict κ α) (k : κ) :
    (d.update pairs).get k = (Dicts.get k pairs).or (d.get k) := by
  induction pairs generalizing d with
  | nil => rfl
  | cons pair rest ih =>
    obtain ⟨j,u⟩ := pair
    obtain ⟨new,distinct'⟩ := List.nodup_cons.mp distinct
    show ((d.put j u).update rest).get k = _
    rw [ih distinct',get_put]
    by_cases here : k = j
    · subst here
      have none : Dicts.get k rest = none := Dicts.get_eq_none_iff.mpr new
      simp [Dicts.get,none]
    · simp [Dicts.get,here,Ne.symm here]

/-- A dictionary is the dictionary of its own pairs. -/
theorem ofPairs_pairs (d : Dict κ α) : ofPairs d.pairs = d := by
  have grows : ∀ (rest : List (κ × α)) (acc : Dict κ α),
      ((acc.pairs ++ rest).map Prod.fst).Nodup →
        (rest.foldl (fun d pair => d.put pair.1 pair.2) acc).pairs = acc.pairs ++ rest := by
    intro rest
    induction rest with
    | nil => intro acc _; simp
    | cons pair rest ih =>
      intro acc distinct
      have new : pair.1 ∉ acc.pairs.map Prod.fst := by
        rw [List.map_append,List.map_cons] at distinct
        exact fun member => (List.nodup_append.mp distinct).2.2 _ member _ (List.mem_cons_self ..) rfl
      have put : (acc.put pair.1 pair.2).pairs = acc.pairs ++ [pair] := put_new new
      rw [List.foldl_cons,ih _ (by rw [put]; simpa using distinct),put]
      simp
  apply Dict.ext
  exact grows d.pairs ∅ d.nodup

end Dict
end Dicts
