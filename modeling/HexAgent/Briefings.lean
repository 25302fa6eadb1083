import HexAgent.Bookkeeping

/-!
The broker that asks a model for the briefing. What the code guards is the size of the
briefing, the ids it cites and the agent it is for; a text of the model that cannot be
read at all falls back to the objective. A text that is read as an object whose cited ids
are no sequence makes the broker raise.
-/
namespace HexAgent.Briefings
open HexAgent.Values HexAgent.Json HexAgent.JsonGate HexAgent.Contracts HexAgent.Bookkeeping
open HexAgent.Scripted (plainJson)

/-! ### The broker -/

def BROKER_SYSTEM : String :=
  "You are the Context Broker. Write a just-enough briefing for the next agent using ONLY " ++
  "the provided context items — do not invent facts. Cite the ids of the items you used. " ++
  "Do NOT request tools or permissions. Reply with EXACTLY ONE JSON object:\n" ++
  "\x7b\"briefing\":\"<text>\",\"source_ids\":[\"<item id>\"]\x7d"

/-- A broker: the text its model completes messages with, and its size cap. -/
structure LLMBroker where
  complete : List Fields → String
  char_budget : Int := 1200

/-- `s[:n]`. -/
def upTo (s : String) (n : Int) : String :=
  String.ofList (if 0 ≤ n then s.toList.take n.toNat else s.toList.take (s.length - n.natAbs))

/-- What the model is told of the assignment. -/
def requestOf (assignment : AgentAssignment) (store_slice : List Fields) : PyVal :=
  .dict [("objective",.str assignment.objective),("scope_of_work",.str assignment.scope_of_work),
    ("context_items",.list (store_slice.map .dict))]

def messagesOf (content : String) : List Fields :=
  [[("role",.str "system"),("content",.str BROKER_SYSTEM)],[("role",.str "user"),("content",.str content)]]

/-- The ids of the items that have one. -/
def slice_ids (store_slice : List Fields) : List String :=
  (store_slice.filter fun item => (item.get "id").truthy).map fun item => (item.get "id").text

/-- The briefing of a model output and the ids it cites. -/
def briefingOf (interp : Interpreter) (raw : String) : Except PyError (String × List String) := do
  let obj ← parse_json_object interp raw
  let briefing := strip (obj.textOf "briefing")
  let cited ← as_str_tuple (obj.get "source_ids")
  .ok (briefing,cited)

/-- The packet of a briefing and cited ids: without a briefing it gives the objective, and
    of the ids it keeps those of the slice. -/
def packetOf (broker : LLMBroker) (assignment : AgentAssignment) (store_slice : List Fields) (briefing : String)
    (cited : List String) : ContextPacket where
  target_agent_id := assignment.agent_id
  objective := assignment.objective
  briefing := upTo (if briefing = "" then "Objective: " ++ assignment.objective else briefing) broker.char_budget
  source_ids := cited.filter fun id => id ∈ slice_ids store_slice

/-- The packet for a model output: one that is refused gives no briefing and cites nothing. -/
def answered (broker : LLMBroker) (assignment : AgentAssignment) (store_slice : List Fields) :
    Except PyError (String × List String) → Except PyError ContextPacket
  | .ok (briefing,cited) => .ok (packetOf broker assignment store_slice briefing cited)
  | .error (.JsonGateError ..) => .ok (packetOf broker assignment store_slice "" [])
  | .error error => .error error

def LLMBroker.write_packet (broker : LLMBroker) (interp : Interpreter) (assignment : AgentAssignment) (store_slice : List Fields) :
    Except PyError ContextPacket := do
  let content ← dumpsAscii (requestOf assignment store_slice)
  answered broker assignment store_slice (briefingOf interp (broker.complete (messagesOf content)))

/-! ### What it promises -/

/-- The text that its model returns for the assignment. -/
def Replies (broker : LLMBroker) (assignment : AgentAssignment) (store_slice : List Fields) (raw : String) : Prop :=
  ∃ content, dumpsAscii (requestOf assignment store_slice) = .ok content ∧ broker.complete (messagesOf content) = raw

/-- No object with a briefing is read from the text. -/
def Unusable (interp : Interpreter) (raw : String) : Prop :=
  ∀ obj, Finds interp raw obj → strip (obj.textOf "briefing") = ""

/-- The text is refused, or read as an object whose cited ids are a sequence. -/
def Legible (interp : Interpreter) (raw : String) : Prop :=
  ¬ Chokes interp raw ∧ ∀ obj, Finds interp raw obj → Sequence (obj.get "source_ids")

/-- A packet within the guards of the broker. -/
structure Guarded (broker : LLMBroker) (interp : Interpreter) (assignment : AgentAssignment) (store_slice : List Fields)
    (raw : String) (packet : ContextPacket) : Prop where
  target : packet.target_agent_id = assignment.agent_id
  objective : packet.objective = assignment.objective
  grounded : ∀ id ∈ packet.source_ids, ∃ item ∈ store_slice, (item.get "id").truthy = true ∧ (item.get "id").text = id
  capped : (packet.briefing.length : Int) ≤ broker.char_budget
  fallback : Unusable interp raw →
    packet.briefing = upTo ("Objective: " ++ assignment.objective) broker.char_budget

section
variable {broker : LLMBroker} {interp : Interpreter} {assignment : AgentAssignment} {store_slice : List Fields} {raw : String}

theorem mem_slice_ids {id : String} : id ∈ slice_ids store_slice ↔
    ∃ item ∈ store_slice, (item.get "id").truthy = true ∧ (item.get "id").text = id := by
  simp [slice_ids,and_assoc]

theorem upTo_length (s : String) {n : Int} (natural : 0 ≤ n) : ((upTo s n).length : Int) ≤ n := by
  unfold upTo
  rw [if_pos natural,String.length_ofList,List.length_take]
  omega

theorem legible_of_read {obj : Fields} (read : parse_json_object interp raw = .ok obj) (cites : Sequence (obj.get "source_ids")) :
    Legible interp raw := by
  refine ⟨fun chokes => ?_,fun other found => ?_⟩
  · obtain ⟨error,raised,-⟩ := parse_object_raises_iff.mpr chokes
    rw [read] at raised
    cases raised
  · rw [← parse_object_ok_iff,read] at found
    cases found
    exact cites

/-- A text is read, with a sequence of cited ids or without one; or it is refused; or it
    raises an exception of its own. -/
theorem briefingOf_cases (interp : Interpreter) (raw : String) :
    (∃ obj cited, Finds interp raw obj ∧ as_str_tuple (obj.get "source_ids") = .ok cited ∧
      briefingOf interp raw = .ok (strip (obj.textOf "briefing"),cited)) ∨
    ((∀ obj, ¬ Finds interp raw obj) ∧ ¬ Chokes interp raw ∧
      ∃ message stage candidate, briefingOf interp raw = .error (.JsonGateError message stage candidate)) ∨
    (¬ Legible interp raw ∧ ∃ error, briefingOf interp raw = .error error ∧ Foreign error) := by
  unfold briefingOf
  rcases parsed : parse_json_object interp raw with error | obj
  · have unread : ∀ obj, ¬ Finds interp raw obj := fun obj found => by
      rw [← parse_object_ok_iff,parsed] at found
      cases found
    by_cases foreign : Foreign error
    · exact .inr (.inr ⟨fun legible => legible.1 (parse_object_raises_iff.mp ⟨error,parsed,foreign⟩),error,rfl,foreign⟩)
    · refine .inr (.inl ⟨unread,fun chokes => ?_,?_⟩)
      · obtain ⟨other,raised,foreign'⟩ := parse_object_raises_iff.mpr chokes
        rw [parsed] at raised
        cases raised
        exact foreign foreign'
      · unfold Foreign at foreign
        push Not at foreign
        obtain ⟨message,stage,candidate,rfl⟩ := foreign
        exact ⟨message,stage,candidate,rfl⟩
  · have found := parse_object_ok_iff.mp parsed
    rcases cited : as_str_tuple (obj.get "source_ids") with error | ids
    · refine .inr (.inr ⟨fun legible => ?_,error,by simp [bind,Except.bind,cited],as_str_tuple_foreign cited⟩)
      have sequence := as_str_tuple_ok.mpr (legible.2 obj found)
      rw [cited] at sequence
      cases sequence
    · exact .inl ⟨obj,ids,found,cited,by simp [bind,Except.bind,cited]⟩

theorem answered_foreign {error : PyError} (foreign : Foreign error) :
    answered broker assignment store_slice (.error error) = .error error := by
  cases error with
  | JsonGateError message stage candidate => exact absurd rfl (foreign message stage candidate)
  | _ => rfl

/-- Whatever is cited, the packet is within the guards. -/
theorem packetOf_guarded (natural : 0 ≤ broker.char_budget) {briefing : String} (cited : List String)
    (fallback : Unusable interp raw → briefing = "") :
    Guarded broker interp assignment store_slice raw (packetOf broker assignment store_slice briefing cited) where
  target := rfl
  objective := rfl
  grounded id kept := mem_slice_ids.mp (of_decide_eq_true (List.mem_filter.mp kept).2)
  capped := upTo_length _ natural
  fallback unusable := by
    unfold packetOf
    rw [if_pos (fallback unusable)]

/-- The broker returns a packet within its guards exactly when the slice can be written as
    JSON and the text of the model is legible. -/
theorem packet_guarded_iff (natural : 0 ≤ broker.char_budget) :
    (∃ raw packet, Replies broker assignment store_slice raw ∧ broker.write_packet interp assignment store_slice = .ok packet ∧
      Guarded broker interp assignment store_slice raw packet) ↔
    ∃ raw, Replies broker assignment store_slice raw ∧ Legible interp raw := by
  have asked : ∀ {content}, dumpsAscii (requestOf assignment store_slice) = .ok content →
      broker.write_packet interp assignment store_slice = answered broker assignment store_slice
        (briefingOf interp (broker.complete (messagesOf content))) := by
    intro content written
    unfold LLMBroker.write_packet
    rw [written]
    rfl
  constructor
  · rintro ⟨raw,packet,⟨content,written,rfl⟩,returned,-⟩
    refine ⟨_,⟨content,written,rfl⟩,?_⟩
    rw [asked written] at returned
    rcases briefingOf_cases interp (broker.complete (messagesOf content)) with
      ⟨obj,cited,found,tuple,-⟩ | ⟨unread,calm,-⟩ | ⟨-,error,raised,foreign⟩
    · exact legible_of_read (parse_object_ok_iff.mpr found) (as_str_tuple_ok.mp (by rw [tuple]; rfl))
    · exact ⟨calm,fun obj found => absurd found (unread obj)⟩
    · rw [raised,answered_foreign foreign] at returned
      cases returned
  · rintro ⟨raw,⟨content,written,rfl⟩,legible⟩
    refine ⟨broker.complete (messagesOf content),?_⟩
    rw [asked written]
    rcases briefingOf_cases interp (broker.complete (messagesOf content)) with
      ⟨obj,cited,found,-,read⟩ | ⟨-,-,message,stage,candidate,refused⟩ | ⟨illegible,-⟩
    · rw [read]
      exact ⟨_,⟨content,written,rfl⟩,rfl,packetOf_guarded natural cited fun unusable => unusable obj found⟩
    · rw [refused]
      exact ⟨_,⟨content,written,rfl⟩,rfl,packetOf_guarded natural [] fun _ => rfl⟩
    · exact absurd legible illegible

end

/-- A model that always answers with this text. -/
def constantBroker (raw : String) : LLMBroker := { complete := fun _ => raw }

theorem cited_packet_guarded :
    ∃ raw packet, Replies (constantBroker "\x7b\"briefing\": \"b\", \"source_ids\": [\"a1\", \"ghost\"]\x7d")
        { agent_id := "code", objective := "obj" } [[("id",.str "a1")]] raw ∧
      (constantBroker "\x7b\"briefing\": \"b\", \"source_ids\": [\"a1\", \"ghost\"]\x7d").write_packet plainJson
        { agent_id := "code", objective := "obj" } [[("id",.str "a1")]] = .ok packet ∧
      Guarded (constantBroker "\x7b\"briefing\": \"b\", \"source_ids\": [\"a1\", \"ghost\"]\x7d") plainJson
        { agent_id := "code", objective := "obj" } [[("id",.str "a1")]] raw packet := by
  have read : parse_json_object plainJson "\x7b\"briefing\": \"b\", \"source_ids\": [\"a1\", \"ghost\"]\x7d" =
      .ok [("briefing",.str "b"),("source_ids",.list [.str "a1",.str "ghost"])] := by
    decide +kernel
  exact (packet_guarded_iff (by decide)).mpr ⟨_,⟨_,rfl,rfl⟩,legible_of_read read fun _ => rfl⟩

/-- A number for the cited ids is no refusal of the gate: the broker raises. -/
theorem numeric_citation_raises :
    (constantBroker "\x7b\"briefing\": \"b\", \"source_ids\": 7\x7d").write_packet plainJson
      { agent_id := "code", objective := "obj" } [] = .error (.TypeError "'int' object is not iterable") := by
  decide +kernel

end HexAgent.Briefings
