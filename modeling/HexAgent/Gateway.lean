import HexAgent.Commands
import HexAgent.Conversions

/-!
The gateway for commands. A mapping that is submitted is refused with the one exception that
callers catch, or becomes a command that is read back from its dictionary; but the payload and
the version are converted before they are checked, and raise exceptions of their own.
-/
namespace HexAgent.Gateway
open HexAgent.Values HexAgent.Commands HexAgent.Conversions

/-! ### Issuers -/

theorem ofValue_iff {s : String} {type : IssuerType} : IssuerType.ofValue s = some type ↔ type.value = s := by
  constructor
  · intro found
    simpa using List.find?_some found
  · rintro rfl
    exact ofValue_value type

/-- The type of an issuer is known, and a human names a user, an agent an agent. -/
def NamesIssuer (d : Fields) : Prop := ∃ type : IssuerType, type.value = d.textOf "type" ∧
  (type = .human → (d.get "user_id").truthy = true) ∧ (type = .agent → (d.get "agent_id").truthy = true)

/-- Of a JSON value an optional text is given exactly when the value is true. -/
theorem given_iff {d : Fields} (json : JsonFields d) (key : String) : Given (textIfGiven d key) ↔ (d.get key).truthy = true := by
  unfold textIfGiven
  constructor
  · rintro ⟨s,given,-⟩
    by_contra absent
    rw [if_neg absent] at given
    cases given
  · intro truth
    rw [if_pos truth]
    exact ⟨_,rfl,json_text (jsonFields_get json key) truth⟩

theorem given_nonempty {d : Fields} (json : JsonFields d) (key : String) : textIfGiven d key ≠ some "" := by
  unfold textIfGiven
  by_cases truth : (d.get key).truthy = true
  · rw [if_pos truth]
    exact fun empty => json_text (jsonFields_get json key) truth (Option.some.inj empty)
  · rw [if_neg truth]
    nofun

/-- An issuer is made, with the names that were given, or refused. -/
theorem issuer_cases (type : String) (user_id agent_id : Option String) :
    (∃ issuer, IssuedBy.make type user_id agent_id = .ok issuer ∧ issuer.type.value = type ∧ issuer.user_id = user_id ∧
      issuer.agent_id = agent_id) ∨
    (∃ message, IssuedBy.make type user_id agent_id = .error (.ControlContractError message)) ∧
      ¬ ∃ known : IssuerType, known.value = type ∧ (known = .human → Given user_id) ∧ (known = .agent → Given agent_id) := by
  unfold IssuedBy.make
  rcases found : IssuerType.ofValue type with _ | known
  · refine .inr ⟨⟨_,rfl⟩,?_⟩
    rintro ⟨known,named,-⟩
    rw [ofValue_iff.mpr named] at found
    cases found
  · have named := ofValue_iff.mp found
    have unique : ∀ other : IssuerType, other.value = type → other = known := fun other same => by
      rw [ofValue_iff.mpr same] at found
      exact Option.some.inj found
    by_cases human : known = .human → Given user_id
    · by_cases agent : known = .agent → Given agent_id
      · simp only [dif_pos human,dif_pos agent]
        exact .inl ⟨_,rfl,named,rfl,rfl⟩
      · simp only [dif_pos human,dif_neg agent]
        refine .inr ⟨⟨_,rfl⟩,?_⟩
        rintro ⟨other,same,-,agent'⟩
        apply agent
        rw [← unique other same]
        exact agent'
    · simp only [dif_neg human]
      refine .inr ⟨⟨_,rfl⟩,?_⟩
      rintro ⟨other,same,human',-⟩
      apply human
      rw [← unique other same]
      exact human'

/-! ### Commands -/

/-- What has to convert: where a key and an issuer are named, the payload is a mapping, or pairs, or
    false, and the version an integer, or what `int` takes for one. -/
def Convertible (data : Fields) : Prop :=
  (data.get "idempotency_key").truthy = true → ∀ issuer, data.get "issued_by" = .dict issuer → NamesIssuer issuer →
    DictLike (data.get "payload") ∧ ∃ version, (data.getD "schema_version" (.int 1)).toInt = .ok version

section
variable {stamp : Stamp} {data : Fields}

theorem issuer_read (issuer : Fields) : IssuedBy.from_dict ((PyVal.dict issuer).orElse (.dict [])) =
    IssuedBy.make (Fields.textOf issuer "type") (textIfGiven issuer "user_id") (textIfGiven issuer "agent_id") := by
  cases issuer <;> rfl

/-- What is submitted with a key and an issuer is made into a command of its parts, as far as they convert. -/
theorem parse_command_eq {issuer : Fields} (keyed : (data.get "idempotency_key").truthy = true)
    (issued : data.get "issued_by" = .dict issuer) : parse_command stamp data =
      (IssuedBy.make (Fields.textOf issuer "type") (textIfGiven issuer "user_id") (textIfGiven issuer "agent_id")).bind fun issued_by =>
        ((data.get "payload").orElse (.dict [])).toDict.bind fun payload =>
          ((data.getD "schema_version" (.int 1)).toInt).bind fun schema_version =>
            RuntimeCommand.make (data.textOf "command_type") (data.textOf "session_id") issued_by
              (data.textOf "idempotency_key") payload (orText (data.textOf "command_id") stamp.id)
              (orText (data.textOf "created_at") stamp.time) schema_version := by
  unfold parse_command
  rw [if_neg (not_not.mpr keyed),issued]
  simp only [RuntimeCommand.from_dict,issued,issuer_read]
  rfl

/-- Exceptions of the conversions are not the gateway's own. -/
theorem pairs_foreign {index : Nat} {items : List PyVal} {acc : KeyedItems} {message : String} :
    pairsOf index items acc ≠ .error (.ControlContractError message) := by
  induction items generalizing index acc with
  | nil =>
    intro same
    cases same
  | cons item rest ih =>
    unfold pairsOf
    split
    · intro same
      cases same
    · next key value iterates =>
      split
      · next error unhashable =>
        intro same
        cases same
        cases key <;> cases unhashable
      · exact ih
    · intro same
      cases same

theorem dict_foreign {v : PyVal} {message : String} : v.toDict ≠ .error (.ControlContractError message) := by
  unfold PyVal.toDict
  split
  · intro same
    cases same
  · split
    · next error failed =>
      intro same
      cases same
      cases v <;> cases failed
    · next items iterates =>
      intro same
      rcases paired : pairsOf 0 items [] with error | entries
      · rw [paired] at same
        cases same
        exact pairs_foreign paired
      · rw [paired] at same
        cases same

theorem int_foreign {v : PyVal} {message : String} : v.toInt ≠ .error (.ControlContractError message) := by
  unfold PyVal.toInt
  intro same
  split at same
  case h_3 =>
    split at same
    · cases same
    · split at same <;> cases same
  case h_4 =>
    unfold parseInt at same
    split at same
    · cases same
    · split at same <;> cases same
  all_goals cases same

/-! ### What the gateway answers -/

theorem unkeyed_refused (unkeyed : ¬ (data.get "idempotency_key").truthy = true) :
    ∃ message, parse_command stamp data = .error (.ControlContractError message) := by
  unfold parse_command
  rw [if_pos unkeyed]
  exact ⟨_,rfl⟩

theorem unissued_refused (keyed : (data.get "idempotency_key").truthy = true)
    (unissued : ¬ ∃ issuer, data.get "issued_by" = .dict issuer) :
    ∃ message, parse_command stamp data = .error (.ControlContractError message) := by
  unfold parse_command
  rw [if_neg (not_not.mpr keyed)]
  split
  · next issuer issued => exact absurd ⟨issuer,issued⟩ unissued
  · exact ⟨_,rfl⟩

/-- What is accepted is read back from its dictionary. -/
theorem accepted_again (json : JsonFields data) {c : RuntimeCommand} (accepted : parse_command stamp data = .ok c)
    (again : Stamp) : parse_command again c.as_dict = .ok c := by
  have keyed : (data.get "idempotency_key").truthy = true := by
    by_contra unkeyed
    obtain ⟨message,refused⟩ := @unkeyed_refused stamp data unkeyed
    rw [refused] at accepted
    cases accepted
  have issued : ∃ issuer, data.get "issued_by" = .dict issuer := by
    by_contra unissued
    obtain ⟨message,refused⟩ := @unissued_refused stamp data keyed unissued
    rw [refused] at accepted
    cases accepted
  obtain ⟨issuer,issued⟩ := issued
  have inside : JsonFields issuer := by
    have whole := jsonFields_get json "issued_by"
    rw [issued] at whole
    exact whole
  rw [parse_command_eq keyed issued] at accepted
  obtain ⟨by',made,accepted⟩ := bind_ok_iff.mp accepted
  obtain ⟨payload,-,accepted⟩ := bind_ok_iff.mp accepted
  obtain ⟨version,-,accepted⟩ := bind_ok_iff.mp accepted
  have same := (make_fields accepted).2.2.1
  rcases issuer_cases (Fields.textOf issuer "type") (textIfGiven issuer "user_id") (textIfGiven issuer "agent_id") with
    ⟨found,made',-,user,agent⟩ | ⟨⟨message,refused⟩,-⟩
  · rw [made] at made'
    cases made'
    have key : ¬ ¬ (Fields.get c.as_dict "idempotency_key").truthy = true :=
      not_not.mpr (by simpa [RuntimeCommand.as_dict,Fields.get,Fields.getD,Dicts.get] using c.idempotency_key_nonempty)
    unfold parse_command
    rw [if_neg key]
    refine from_dict_as_dict again c ?_ ?_
    · rw [same,user]
      exact given_nonempty inside "user_id"
    · rw [same,agent]
      exact given_nonempty inside "agent_id"
  · rw [refused] at made
    cases made

/-- A mapping is refused with the gateway's exception or accepted, and what is accepted is read back from its
    dictionary, exactly when what has to convert converts. -/
theorem answered_iff (json : JsonFields data) :
    ((∃ c, parse_command stamp data = .ok c) ∨ ∃ message, parse_command stamp data = .error (.ControlContractError message)) ∧
      (∀ c, parse_command stamp data = .ok c → ∀ again, parse_command again c.as_dict = .ok c) ↔ Convertible data := by
  constructor
  · rintro ⟨answered,-⟩ keyed issuer issued named
    have inside : JsonFields issuer := by
      have whole := jsonFields_get json "issued_by"
      rw [issued] at whole
      exact whole
    obtain ⟨type,typed,human,agent⟩ := named
    rcases issuer_cases (Fields.textOf issuer "type") (textIfGiven issuer "user_id") (textIfGiven issuer "agent_id") with
      ⟨by',made,-⟩ | ⟨-,unnamed⟩
    · rw [parse_command_eq keyed issued,made] at answered
      rw [dictLike_iff]
      rcases payload : ((data.get "payload").orElse (.dict [])).toDict with error | fields
      · rw [payload] at answered
        rcases answered with ⟨c,done⟩ | ⟨message,refused⟩
        · cases done
        · rw [Except.error.inj refused] at payload
          exact absurd payload dict_foreign
      · rw [payload] at answered
        refine ⟨⟨_,rfl⟩,?_⟩
        rcases version : (data.getD "schema_version" (.int 1)).toInt with error | i
        · rw [version] at answered
          rcases answered with ⟨c,done⟩ | ⟨message,refused⟩
          · cases done
          · rw [Except.error.inj refused] at version
            exact absurd version int_foreign
        · exact ⟨i,rfl⟩
    · refine absurd ⟨type,typed,fun same => ?_,fun same => ?_⟩ unnamed
      · exact (given_iff inside "user_id").mpr (human same)
      · exact (given_iff inside "agent_id").mpr (agent same)
  · intro convertible
    refine ⟨?_,fun c accepted again => accepted_again json accepted again⟩
    by_cases keyed : (data.get "idempotency_key").truthy = true
    · by_cases issued : ∃ issuer, data.get "issued_by" = .dict issuer
      · obtain ⟨issuer,issued⟩ := issued
        have inside : JsonFields issuer := by
          have whole := jsonFields_get json "issued_by"
          rw [issued] at whole
          exact whole
        rw [parse_command_eq keyed issued]
        rcases issuer_cases (Fields.textOf issuer "type") (textIfGiven issuer "user_id") (textIfGiven issuer "agent_id") with
          ⟨by',made,typed,user,agent⟩ | ⟨⟨message,refused⟩,-⟩
        · have named : NamesIssuer issuer := by
            refine ⟨by'.type,typed,fun human => ?_,fun isAgent => ?_⟩
            · exact (given_iff inside "user_id").mp (user ▸ by'.human_named human)
            · exact (given_iff inside "agent_id").mp (agent ▸ by'.agent_named isAgent)
          obtain ⟨payload,version,versioned⟩ := convertible keyed issuer issued named
          obtain ⟨fields,converted⟩ := (dictLike_iff _).mp payload
          rw [made,converted,versioned]
          simp only [Except.bind]
          rcases done : RuntimeCommand.make (data.textOf "command_type") (data.textOf "session_id") by'
            (data.textOf "idempotency_key") fields (orText (data.textOf "command_id") stamp.id)
            (orText (data.textOf "created_at") stamp.time) version with error | c
          · obtain ⟨message,rfl⟩ := make_fails done
            exact .inr ⟨message,rfl⟩
          · exact .inl ⟨c,rfl⟩
        · rw [refused]
          exact .inr ⟨message,rfl⟩
      · exact .inr (unissued_refused keyed issued)
    · exact .inr (unkeyed_refused keyed)

end

/-! ### Two commands -/

/-- A command of the system with the payload. -/
def submitted (payload : PyVal) : Fields :=
  [("idempotency_key",.str "key"),("issued_by",.dict [("type",.str "system")]),("command_type",.str "PauseWorkflow"),
    ("session_id",.str "session"),("payload",payload)]

def drawn : Stamp := ⟨"id","time",by decide,by decide⟩

/-- A command with pairs for its payload is accepted. -/
theorem pairs_accepted : (∃ c, parse_command drawn (submitted (.list [.list [.str "a",.int 1]])) = .ok c) ∨
    ∃ message, parse_command drawn (submitted (.list [.list [.str "a",.int 1]])) = .error (.ControlContractError message) := by
  have json : JsonFields (submitted (.list [.list [.str "a",.int 1]])) := by
    simp only [submitted,JsonFields,JsonItems,Json,and_true,true_and]
    exact digit_short (by decide)
  have convertible : Convertible (submitted (.list [.list [.str "a",.int 1]])) := fun _ _ _ _ =>
    ⟨(dictLike_iff _).mpr ⟨[("a",.int 1)],rfl⟩,1,rfl⟩
  exact ((answered_iff json).mpr convertible).1

/-- A payload that is a text escapes the gateway as another exception. -/
theorem text_payload_escapes : ¬ ((∃ c, parse_command drawn (submitted (.str "now")) = .ok c) ∨
    ∃ message, parse_command drawn (submitted (.str "now")) = .error (.ControlContractError message)) := by
  have raised : parse_command drawn (submitted (.str "now")) =
      .error (.ValueError "dictionary update sequence element #0 has length 1; 2 is required") := by
    decide +kernel
  rw [raised]
  rintro (⟨c,done⟩ | ⟨message,refused⟩)
  · cases done
  · cases refused

end HexAgent.Gateway
