import HexAgent.Events

/-!
What the redaction of payloads hides. Two payloads agree when they differ at most
in values stored under secret names; redaction is a boundary for a payload when it
makes all payloads that agree with it look the same. That is so exactly when no
secret name sits inside a tuple, since the redactor enters dictionaries and lists
only.
-/
namespace HexAgent.Redaction
open HexAgent.Values HexAgent.Events

/-- The redactor, with the names it was given. -/
structure Redactor where
  secret_keys : List String := SECRET_KEYS

/-- The names it compares with, lowered when it is built. -/
def Redactor.lowered (redactor : Redactor) : List String := redactor.secret_keys.map lower

/-- The event with its `ui_payload` and redaction; its own level is kept when none is given. -/
def Redactor.apply (redactor : Redactor) (event : RuntimeEvent) (level : Option Visibility) : RuntimeEvent :=
  redactEvent redactor.lowered event (level.getD event.redaction.level)

section
variable (secret_keys : List String)

/-! ### Agreement -/

mutual
/-- The values are the same, except below secret names. -/
def Agree : PyVal → PyVal → Prop
  | .list as,.list bs => AgreeItems as bs
  | .tuple as,.tuple bs => AgreeItems as bs
  | .dict as,.dict bs => AgreeFields as bs
  | a,b => a = b
def AgreeItems : List PyVal → List PyVal → Prop
  | [],[] => True
  | a :: as,b :: bs => Agree a b ∧ AgreeItems as bs
  | _,_ => False
def AgreeFields : Fields → Fields → Prop
  | [],[] => True
  | (key,a) :: as,(key',b) :: bs => key = key' ∧ (is_secret secret_keys key = true ∨ Agree a b) ∧ AgreeFields as bs
  | _,_ => False
end

mutual
/-- No secret name occurs in the value. -/
def Nameless : PyVal → Prop
  | .list items => NamelessItems items
  | .tuple items => NamelessItems items
  | .dict fields => NamelessFields fields
  | _ => True
def NamelessItems : List PyVal → Prop
  | [] => True
  | item :: rest => Nameless item ∧ NamelessItems rest
def NamelessFields : Fields → Prop
  | [] => True
  | (key,item) :: rest => is_secret secret_keys key = false ∧ Nameless item ∧ NamelessFields rest
end

mutual
/-- No secret name occurs inside a tuple, unless the tuple is itself below a secret name. -/
def Untupled : PyVal → Prop
  | .list items => UntupledItems items
  | .tuple items => NamelessItems secret_keys items
  | .dict fields => UntupledFields fields
  | _ => True
def UntupledItems : List PyVal → Prop
  | [] => True
  | item :: rest => Untupled item ∧ UntupledItems rest
def UntupledFields : Fields → Prop
  | [] => True
  | (key,item) :: rest => (is_secret secret_keys key = true ∨ Untupled item) ∧ UntupledFields rest
end

variable {secret_keys}

mutual
theorem agree_refl : ∀ v : PyVal, Agree secret_keys v v
  | .list items | .tuple items => by simpa [Agree] using agreeItems_refl items
  | .dict fields => by simpa [Agree] using agreeFields_refl fields
  | .null | .bool _ | .int _ | .float _ | .str _ | .object _ => by simp [Agree]
theorem agreeItems_refl : ∀ items : List PyVal, AgreeItems secret_keys items items
  | [] => trivial
  | item :: rest => ⟨agree_refl item,agreeItems_refl rest⟩
theorem agreeFields_refl : ∀ fields : Fields, AgreeFields secret_keys fields fields
  | [] => trivial
  | (_,item) :: rest => ⟨rfl,.inr (agree_refl item),agreeFields_refl rest⟩
end

mutual
/-- A value without secret names agrees with itself only. -/
theorem Nameless.eq : ∀ {a b : PyVal}, Nameless secret_keys a → Agree secret_keys a b → a = b
  | .list as,b,nameless,agree => by
    cases b <;> simp only [Agree,reduceCtorEq] at agree
    rw [NamelessItems.eq nameless agree]
  | .tuple as,b,nameless,agree => by
    cases b <;> simp only [Agree,reduceCtorEq] at agree
    rw [NamelessItems.eq nameless agree]
  | .dict as,b,nameless,agree => by
    cases b <;> simp only [Agree,reduceCtorEq] at agree
    rw [NamelessFields.eq nameless agree]
  | .null,b,_,agree | .bool _,b,_,agree | .int _,b,_,agree | .float _,b,_,agree | .str _,b,_,agree
  | .object _,b,_,agree => by
    cases b <;> exact agree
theorem NamelessItems.eq : ∀ {as bs : List PyVal}, NamelessItems secret_keys as → AgreeItems secret_keys as bs → as = bs
  | [],[],_,_ => rfl
  | _ :: _,_ :: _,⟨nameless,others⟩,⟨agree,rest⟩ => by rw [Nameless.eq nameless agree,NamelessItems.eq others rest]
theorem NamelessFields.eq : ∀ {as bs : Fields}, NamelessFields secret_keys as → AgreeFields secret_keys as bs → as = bs
  | [],[],_,_ => rfl
  | (key,a) :: as,(key',b) :: bs,⟨plain,nameless,others⟩,⟨same,agree,rest⟩ => by
    rcases agree with secret | agree
    · rw [plain] at secret
      cases secret
    · rw [same,Nameless.eq nameless agree,NamelessFields.eq others rest]
end

/-! ### What the redactor does -/

theorem walk_list (path : String) (items : List PyVal) :
    walk secret_keys path (.list items) =
      (.list (walkItems secret_keys path 0 items).1,(walkItems secret_keys path 0 items).2) := by
  simp [walk]

theorem walk_dict (path : String) (fields : Fields) :
    walk secret_keys path (.dict fields) = (.dict (walkFields secret_keys path fields).1,(walkFields secret_keys path fields).2) := by
  simp [walk]

theorem walkItems_cons (path : String) (index : Nat) (item : PyVal) (rest : List PyVal) :
    walkItems secret_keys path index (item :: rest) =
      ((walk secret_keys (path ++ "[" ++ toString index ++ "]") item).1 :: (walkItems secret_keys path (index + 1) rest).1,
        (walk secret_keys (path ++ "[" ++ toString index ++ "]") item).2 ++ (walkItems secret_keys path (index + 1) rest).2) := by
  simp [walkItems]

theorem walkFields_secret {key : String} (secret : is_secret secret_keys key = true) (path : String) (item : PyVal)
    (rest : Fields) :
    walkFields secret_keys path ((key,item) :: rest) =
      ((key,.str "[REDACTED]") :: (walkFields secret_keys path rest).1,
        childPath path key :: (walkFields secret_keys path rest).2) := by
  simp [walkFields,secret]

theorem walkFields_plain {key : String} (plain : is_secret secret_keys key = false) (path : String) (item : PyVal)
    (rest : Fields) :
    walkFields secret_keys path ((key,item) :: rest) =
      ((key,(walk secret_keys (childPath path key) item).1) :: (walkFields secret_keys path rest).1,
        (walk secret_keys (childPath path key) item).2 ++ (walkFields secret_keys path rest).2) := by
  simp [walkFields,plain]

mutual
/-- The masked copy agrees with the value: only what is below secret names is replaced. -/
theorem walk_agree : ∀ (path : String) (v : PyVal), Agree secret_keys v (walk secret_keys path v).1
  | path,.list items => by
    rw [walk_list]
    simpa [Agree] using walkItems_agree path 0 items
  | path,.dict fields => by
    rw [walk_dict]
    simpa [Agree] using walkFields_agree path fields
  | _,.tuple _ | _,.null | _,.bool _ | _,.int _ | _,.float _ | _,.str _ | _,.object _ => by
    simpa [walk] using agree_refl _
theorem walkItems_agree : ∀ (path : String) (index : Nat) (items : List PyVal),
    AgreeItems secret_keys items (walkItems secret_keys path index items).1
  | _,_,[] => trivial
  | path,index,item :: rest => by
    rw [walkItems_cons]
    exact ⟨walk_agree _ item,walkItems_agree path (index + 1) rest⟩
theorem walkFields_agree : ∀ (path : String) (fields : Fields),
    AgreeFields secret_keys fields (walkFields secret_keys path fields).1
  | _,[] => trivial
  | path,(key,item) :: rest => by
    by_cases secret : is_secret secret_keys key = true
    · rw [walkFields_secret secret]
      exact ⟨rfl,.inl secret,walkFields_agree path rest⟩
    · rw [walkFields_plain (Bool.eq_false_iff.mpr secret)]
      exact ⟨rfl,.inr (walk_agree _ item),walkFields_agree path rest⟩
end

mutual
/-- Values that agree look the same when no secret name is inside a tuple. -/
theorem walk_hides : ∀ (path : String) {a b : PyVal}, Untupled secret_keys a → Agree secret_keys a b →
    walk secret_keys path b = walk secret_keys path a
  | path,.list as,b,untupled,agree => by
    cases b <;> simp only [Agree,reduceCtorEq] at agree
    rw [walk_list,walk_list,walkItems_hides path 0 untupled agree]
  | path,.dict as,b,untupled,agree => by
    cases b <;> simp only [Agree,reduceCtorEq] at agree
    rw [walk_dict,walk_dict,walkFields_hides path untupled agree]
  | path,.tuple as,b,untupled,agree => by
    cases b <;> simp only [Agree,reduceCtorEq] at agree
    rw [NamelessItems.eq untupled agree]
  | _,.null,b,_,agree | _,.bool _,b,_,agree | _,.int _,b,_,agree | _,.float _,b,_,agree | _,.str _,b,_,agree
  | _,.object _,b,_,agree => by
    cases b <;> exact congrArg _ (Eq.symm agree)
theorem walkItems_hides : ∀ (path : String) (index : Nat) {as bs : List PyVal}, UntupledItems secret_keys as →
    AgreeItems secret_keys as bs → walkItems secret_keys path index bs = walkItems secret_keys path index as
  | _,_,[],[],_,_ => rfl
  | path,index,_ :: _,_ :: _,⟨untupled,others⟩,⟨agree,rest⟩ => by
    rw [walkItems_cons,walkItems_cons,walk_hides _ untupled agree,walkItems_hides path (index + 1) others rest]
theorem walkFields_hides : ∀ (path : String) {as bs : Fields}, UntupledFields secret_keys as →
    AgreeFields secret_keys as bs → walkFields secret_keys path bs = walkFields secret_keys path as
  | _,[],[],_,_ => rfl
  | path,(key,a) :: as,(key',b) :: bs,⟨untupled,others⟩,⟨same,agree,rest⟩ => by
    have tail := walkFields_hides path others rest
    subst same
    by_cases secret : is_secret secret_keys key = true
    · rw [walkFields_secret secret,walkFields_secret secret,tail]
    · have plain := Bool.eq_false_iff.mpr secret
      rw [walkFields_plain plain,walkFields_plain plain,
        walk_hides _ (untupled.resolve_left secret) (agree.resolve_left secret),tail]
end

/-! ### A payload with other secrets -/

variable (secret_keys) in
mutual
/-- The value with everything below secret names replaced by something else. -/
def alter : PyVal → PyVal
  | .list items => .list (alterItems items)
  | .tuple items => .tuple (alterItems items)
  | .dict fields => .dict (alterFields fields)
  | v => v
def alterItems : List PyVal → List PyVal
  | [] => []
  | item :: rest => alter item :: alterItems rest
def alterFields : Fields → Fields
  | [] => []
  | (key,item) :: rest => (key,if is_secret secret_keys key then .list [item] else alter item) :: alterFields rest
end

theorem wrapped_ne (v : PyVal) : PyVal.list [v] ≠ v := by
  intro same
  have size := congrArg sizeOf same
  simp at size
  omega

mutual
theorem agree_alter : ∀ v : PyVal, Agree secret_keys v (alter secret_keys v)
  | .list items | .tuple items => by simpa [Agree,alter] using agreeItems_alter items
  | .dict fields => by simpa [Agree,alter] using agreeFields_alter fields
  | .null | .bool _ | .int _ | .float _ | .str _ | .object _ => by simp [Agree,alter]
theorem agreeItems_alter : ∀ items : List PyVal, AgreeItems secret_keys items (alterItems secret_keys items)
  | [] => trivial
  | item :: rest => ⟨agree_alter item,agreeItems_alter rest⟩
theorem agreeFields_alter : ∀ fields : Fields, AgreeFields secret_keys fields (alterFields secret_keys fields)
  | [] => trivial
  | (key,item) :: rest => by
    refine ⟨rfl,?_,agreeFields_alter rest⟩
    by_cases secret : is_secret secret_keys key = true
    · exact .inl secret
    · rw [if_neg secret]
      exact .inr (agree_alter item)
end

mutual
/-- Only a value without secret names stays as it is. -/
theorem nameless_of_alter : ∀ {v : PyVal}, alter secret_keys v = v → Nameless secret_keys v
  | .list items,same | .tuple items,same => by
    simp only [alter,PyVal.list.injEq,PyVal.tuple.injEq] at same
    simpa only [Nameless] using namelessItems_of_alter same
  | .dict fields,same => by
    simp only [alter,PyVal.dict.injEq] at same
    simpa only [Nameless] using namelessFields_of_alter same
  | .null,_ | .bool _,_ | .int _,_ | .float _,_ | .str _,_ | .object _,_ => trivial
theorem namelessItems_of_alter : ∀ {items : List PyVal}, alterItems secret_keys items = items →
    NamelessItems secret_keys items
  | [],_ => trivial
  | item :: rest,same => by
    simp only [alterItems,List.cons.injEq] at same
    exact ⟨nameless_of_alter same.1,namelessItems_of_alter same.2⟩
theorem namelessFields_of_alter : ∀ {fields : Fields}, alterFields secret_keys fields = fields →
    NamelessFields secret_keys fields
  | [],_ => trivial
  | (key,item) :: rest,same => by
    simp only [alterFields,List.cons.injEq,Prod.mk.injEq,true_and] at same
    by_cases secret : is_secret secret_keys key = true
    · rw [if_pos secret] at same
      exact absurd same.1 (wrapped_ne item)
    · rw [if_neg secret] at same
      exact ⟨Bool.eq_false_iff.mpr secret,nameless_of_alter same.1,namelessFields_of_alter same.2⟩
end

mutual
/-- A value that looks the same with other secrets has no secret name inside a tuple. -/
theorem untupled_of_alter : ∀ {path : String} {v : PyVal},
    (walk secret_keys path (alter secret_keys v)).1 = (walk secret_keys path v).1 → Untupled secret_keys v
  | path,.list items,same => by
    simp only [alter,walk_list,PyVal.list.injEq] at same
    simpa only [Untupled] using untupledItems_of_alter same
  | path,.dict fields,same => by
    simp only [alter,walk_dict,PyVal.dict.injEq] at same
    simpa only [Untupled] using untupledFields_of_alter same
  | path,.tuple items,same => by
    simp only [alter,walk,PyVal.tuple.injEq] at same
    simpa only [Untupled] using namelessItems_of_alter same
  | _,.null,_ | _,.bool _,_ | _,.int _,_ | _,.float _,_ | _,.str _,_ | _,.object _,_ => trivial
theorem untupledItems_of_alter : ∀ {path : String} {index : Nat} {items : List PyVal},
    (walkItems secret_keys path index (alterItems secret_keys items)).1 = (walkItems secret_keys path index items).1 →
      UntupledItems secret_keys items
  | _,_,[],_ => trivial
  | path,index,item :: rest,same => by
    simp only [alterItems,walkItems_cons,List.cons.injEq] at same
    exact ⟨untupled_of_alter same.1,untupledItems_of_alter same.2⟩
theorem untupledFields_of_alter : ∀ {path : String} {fields : Fields},
    (walkFields secret_keys path (alterFields secret_keys fields)).1 = (walkFields secret_keys path fields).1 →
      UntupledFields secret_keys fields
  | _,[],_ => trivial
  | path,(key,item) :: rest,same => by
    by_cases secret : is_secret secret_keys key = true
    · simp only [alterFields,walkFields_secret secret,List.cons.injEq,true_and] at same
      exact ⟨.inl secret,untupledFields_of_alter same⟩
    · have plain := Bool.eq_false_iff.mpr secret
      simp only [alterFields,walkFields_plain plain,if_neg secret,List.cons.injEq,Prod.mk.injEq,true_and] at same
      exact ⟨.inr (untupled_of_alter same.1),untupledFields_of_alter same.2⟩
end

end

/-! ### The boundary -/

/-- Nothing in the redacted event tells it from an event that agrees with it, and what is
    not secret is shown as it is. -/
structure Boundary (redactor : Redactor) (event : RuntimeEvent) : Prop where
  hidden : ∀ (other : RuntimeEvent) (level level' : Option Visibility),
    AgreeFields redactor.lowered event.payload other.payload →
      (redactor.apply other level').ui_payload = (redactor.apply event level).ui_payload ∧
      (redactor.apply other level').redaction.has_secret = (redactor.apply event level).redaction.has_secret ∧
      (redactor.apply other level').redaction.redacted_fields = (redactor.apply event level).redaction.redacted_fields
  shown : ∀ level : Option Visibility, ∃ ui_payload, (redactor.apply event level).ui_payload = some ui_payload ∧
    AgreeFields redactor.lowered event.payload ui_payload

/-- Redaction is a boundary for a payload exactly when no secret name is inside one of its tuples. -/
theorem boundary_iff (redactor : Redactor) (event : RuntimeEvent) :
    Boundary redactor event ↔ UntupledFields redactor.lowered event.payload := by
  constructor
  · intro boundary
    have other := boundary.hidden { event with payload := alterFields redactor.lowered event.payload } none none
      (agreeFields_alter event.payload)
    have same : (walkFields redactor.lowered "" (alterFields redactor.lowered event.payload)).1 =
        (walkFields redactor.lowered "" event.payload).1 := Option.some.inj other.1
    exact untupledFields_of_alter same
  · intro untupled
    constructor
    · intro other level level' agree
      have same := walkFields_hides "" untupled agree
      simp [Redactor.apply,redactEvent,redact,same]
    · intro level
      exact ⟨_,rfl,walkFields_agree "" event.payload⟩

/-- An event with a token in a dictionary of a tuple. -/
def tokenEvent (token : String) : RuntimeEvent where
  event_type := "tool.after_call"
  session_id := "s"
  actor := ⟨.tool,"t",by decide⟩
  trace := ⟨"r","p",none,by decide,by decide⟩
  redaction := {}
  event_id := "e"
  created_at := "2024"
  schema_version := 1
  seq := 1
  round_no := none
  workflow_id := none
  task_id := none
  source := "tool"
  payload := [("items",.tuple [.dict [("token",.str token)]])]
  ui_payload := none
  event_id_nonempty := by decide
  event_type_nonempty := by decide
  session_id_nonempty := by decide
  created_at_nonempty := by decide
  source_nonempty := by decide
  schema_version_positive := Int.one_pos
  seq_nonneg := by decide

/-- The token is shown. -/
theorem tuple_shows_token :
    AgreeFields ({} : Redactor).lowered (tokenEvent "t1").payload (tokenEvent "t2").payload ∧
      (({} : Redactor).apply (tokenEvent "t1") none).ui_payload ≠ (({} : Redactor).apply (tokenEvent "t2") none).ui_payload ∧
      (({} : Redactor).apply (tokenEvent "t1") none).redaction.has_secret = false := by
  have secret : is_secret ({} : Redactor).lowered "token" = true := by decide +kernel
  refine ⟨?_,by decide +kernel,by decide +kernel⟩
  simp [tokenEvent,AgreeFields,Agree,AgreeItems,secret]

end HexAgent.Redaction
