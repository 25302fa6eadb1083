import HexAgent.Entries
import HexAgent.Scripted

/-!
Who the artifacts on the Blackboard are attributed to. A turn merges each artifact of a
worker under its id, with the assigned agent and the kind of its envelope, and the payload
of the artifact on top: a payload that names an agent or a kind of its own overrides both,
and of two records under one id the later one stays.
-/
namespace HexAgent.Attribution
open HexAgent.Values HexAgent.Board HexAgent.Contracts HexAgent.Schemas HexAgent.Graph HexAgent.Loop HexAgent.Supervisor
open HexAgent.Entries HexAgent.Scripted Journals Programs

/-! ### A turn in two parts -/

section
variable (ctx : SupervisorContext)

/-- The first part of a turn: the packet and the delegation. -/
def delegated (assignment : AgentAssignment) : Sup (String × DelegationResult) := do
  let state ← currentBoard
  let slice ← store_slice ctx assignment state
  let packet ← ask ctx (.write_packet assignment slice)
  if packet.target_agent_id ≠ assignment.agent_id then
    raise (.PermissionError ("Broker packet target '" ++ packet.target_agent_id ++ "' does not match assigned agent '" ++
      assignment.agent_id ++ "'."))
  else do
    let packet_id ← post "context_packet" (packetFields packet)
    let result ← ask ctx (.delegate assignment.agent_id packet.to_spec (policyOf assignment))
    pure (packet_id,result)

/-- The second part: the artifacts and the result are recorded. -/
def recorded (assignment : AgentAssignment) (packet_id : String) (result : DelegationResult) : Sup Unit := do
  each (merge assignment.agent_id) result.artifacts
  let result_id ← post "delegation_result" (resultFields assignment.agent_id result)
  write fun s => { s with turns := s.turns ++ [turnOf s.round_no assignment packet_id result result_id] }
  emit ctx "loop.turn" [("agent_id",.str assignment.agent_id),("outcome",.str result.outcome.value)]
  save ctx

end

section
variable {ctx : SupervisorContext} {a : AgentAssignment}

theorem worker_turn_delegated {w w' : World} {packet_id : String} {result : DelegationResult}
    (ran : (delegated ctx a).run w = (.ok (packet_id,result),w')) :
    (worker_turn ctx a).run w = (recorded ctx a packet_id result).run w' := by
  unfold delegated at ran
  obtain ⟨state,w₁,looked,ran⟩ := bind_returned ran
  obtain ⟨slice,w₂,sliced,ran⟩ := bind_returned ran
  obtain ⟨packet,w₃,packed,ran⟩ := bind_returned ran
  by_cases redirected : packet.target_agent_id ≠ a.agent_id
  · rw [if_pos redirected] at ran
    cases ran
  · rw [if_neg redirected] at ran
    obtain ⟨id,w₄,posted,ran⟩ := bind_returned ran
    obtain ⟨answer,w₅,answered,ran⟩ := bind_returned ran
    cases ran
    unfold worker_turn
    rw [bind_run_ok looked,bind_run_ok sliced,bind_run_ok packed,if_neg redirected,bind_run_ok posted,bind_run_ok answered]
    rfl

/-! ### What is on the Blackboard afterwards -/

/-- The Blackboard after the artifacts of a worker were merged. -/
def mergedBoard (agent_id : String) (artifacts : List ArtifactEnvelope) (s : TaskLoopState) : TaskLoopState :=
  artifacts.foldl (fun s art => s.add_artifact art.artifact_id (workerPayload agent_id art)) s

theorem merges_run (agent_id : String) (artifacts : List ArtifactEnvelope) (w : World) :
    ∃ w', (each (merge agent_id) artifacts).run w = (.ok (),w') ∧ w'.board = mergedBoard agent_id artifacts w.board := by
  induction artifacts generalizing w with
  | nil => exact ⟨w,rfl,rfl⟩
  | cons art rest ih =>
    obtain ⟨w',ran,board⟩ := ih (w.wrote (.merged agent_id art) (w.board.add_artifact art.artifact_id (workerPayload agent_id art)))
    exact ⟨w',ran,board⟩

/-- The last artifact under an id. -/
def staying (artifacts : List ArtifactEnvelope) (id : String) : Option ArtifactEnvelope :=
  artifacts.reverse.find? fun art => art.artifact_id = id

theorem merged_get (agent_id : String) (artifacts : List ArtifactEnvelope) (s : TaskLoopState) (id : String) :
    (mergedBoard agent_id artifacts s).artifacts.get id =
      ((staying artifacts id).map (workerPayload agent_id)).or (s.artifacts.get id) := by
  induction artifacts generalizing s with
  | nil => rfl
  | cons art rest ih =>
    rw [mergedBoard,List.foldl_cons,← mergedBoard,ih,staying,staying,List.reverse_cons,List.find?_append]
    rcases later : rest.reverse.find? (fun art => art.artifact_id = id) with _ | last
    · by_cases same : art.artifact_id = id
      · simp [TaskLoopState.add_artifact,same]
      · simp [TaskLoopState.add_artifact,same,Dicts.Dict.get_put_other (Ne.symm same)]
    · rw [later]
      rfl

theorem staying_mem {artifacts : List ArtifactEnvelope} {art : ArtifactEnvelope} (member : art ∈ artifacts) :
    ∃ last ∈ artifacts, staying artifacts art.artifact_id = some last ∧ last.artifact_id = art.artifact_id := by
  rcases found : staying artifacts art.artifact_id with _ | last
  · have none := List.find?_eq_none.mp found art (List.mem_reverse.mpr member)
    simp at none
  · exact ⟨last,List.mem_reverse.mp (List.mem_of_find?_eq_some found),rfl,by simpa using List.find?_some found⟩

/-- What a dictionary written with these pairs has under a name: of a repeated name the last value. -/
def entry (key : String) (payload : Fields) : Option PyVal := Dicts.get key (Dicts.merge [] payload)

theorem workerPayload_get (agent_id : String) (art : ArtifactEnvelope) (key : String) :
    Dicts.get key (workerPayload agent_id art) =
      (entry key art.payload).or (Dicts.get key [("kind",.str art.kind),("agent_id",.str agent_id)]) := Dicts.get_merge ..

/-- The artifact is on the Blackboard under its id, with the agent and the kind of its envelope. -/
def Attributed (agent_id : String) (art : ArtifactEnvelope) (s : TaskLoopState) : Prop :=
  ∃ payload, s.artifacts.get art.artifact_id = some payload ∧
    Dicts.get "agent_id" payload = some (.str agent_id) ∧ Dicts.get "kind" payload = some (.str art.kind)

/-- Of the artifacts that stay under their ids, the payload names no other agent, and no other kind than
    any artifact under that id has; and what has the id `taken` is a delegation result. -/
structure Honest (agent_id taken : String) (artifacts : List ArtifactEnvelope) : Prop where
  agent : ∀ art ∈ artifacts, art.artifact_id ≠ taken → ∀ last, staying artifacts art.artifact_id = some last →
    ∀ v, entry "agent_id" last.payload = some v → v = .str agent_id
  kind : ∀ art ∈ artifacts, art.artifact_id ≠ taken → ∀ last, staying artifacts art.artifact_id = some last →
    (entry "kind" last.payload).getD (.str last.kind) = .str art.kind
  result : ∀ art ∈ artifacts, art.artifact_id = taken → art.kind = "delegation_result"

theorem recorded_get (packet_id : String) (result : DelegationResult) (w : World) (id : String) :
    ((recorded ctx a packet_id result).run w).2.board.artifacts.get id =
      if id = next_id "delegation_result" (mergedBoard a.agent_id result.artifacts w.board) then
        some (ofKind "delegation_result" (resultFields a.agent_id result))
      else (mergedBoard a.agent_id result.artifacts w.board).artifacts.get id := by
  obtain ⟨w₁,merged,board⟩ := merges_run a.agent_id result.artifacts w
  have calm : Undisturbed fun w' : World => w'.board.artifacts = (mergedBoard a.agent_id result.artifacts w.board).artifacts.put
      (next_id "delegation_result" (mergedBoard a.agent_id result.artifacts w.board))
      (ofKind "delegation_result" (resultFields a.agent_id result)) := ⟨fun _ _ _ same => same,fun _ _ _ same => same⟩
  have kept : ((recorded ctx a packet_id result).run w).2.board.artifacts =
      (mergedBoard a.agent_id result.artifacts w.board).artifacts.put
        (next_id "delegation_result" (mergedBoard a.agent_id result.artifacts w.board))
        (ofKind "delegation_result" (resultFields a.agent_id result)) := by
    unfold recorded
    rw [bind_run_ok merged]
    refine (calm.emit "loop.turn" _).bind (fun _ => calm.save) _ ?_
    simp only [board]
    rfl
  rw [kept,Dicts.Dict.get_put]

theorem attributed_recorded_iff (packet_id : String) (result : DelegationResult) (w : World) {art : ArtifactEnvelope}
    (member : art ∈ result.artifacts) {taken : String}
    (next : taken = next_id "delegation_result" (mergedBoard a.agent_id result.artifacts w.board)) :
    Attributed a.agent_id art ((recorded ctx a packet_id result).run w).2.board ↔
      (art.artifact_id = taken → art.kind = "delegation_result") ∧
      (art.artifact_id ≠ taken → ∀ last, staying result.artifacts art.artifact_id = some last →
        (∀ v, entry "agent_id" last.payload = some v → v = .str a.agent_id) ∧
          (entry "kind" last.payload).getD (.str last.kind) = .str art.kind) := by
  unfold Attributed
  rw [recorded_get,← next]
  by_cases same : art.artifact_id = taken
  · rw [if_pos same]
    constructor
    · rintro ⟨payload,found,-,kind⟩
      cases found
      exact ⟨fun _ => (PyVal.str.inj (Option.some.inj kind)).symm,fun other => absurd same other⟩
    · rintro ⟨kind,-⟩
      exact ⟨_,rfl,rfl,by rw [kind same]; rfl⟩
  · obtain ⟨last,-,found,-⟩ := staying_mem member
    rw [if_neg same,merged_get,found]
    have agent := workerPayload_get a.agent_id last "agent_id"
    have kind := workerPayload_get a.agent_id last "kind"
    constructor
    · rintro ⟨payload,here,whose,what⟩
      cases here
      refine ⟨fun equal => absurd equal same,fun _ last' found' => ?_⟩
      cases found'
      rw [agent] at whose
      rw [kind] at what
      refine ⟨fun v named => ?_,?_⟩
      · rw [named] at whose
        simpa using whose
      · rcases named : entry "kind" last.payload with _ | v
        · rw [named] at what
          exact Option.some.inj what
        · rw [named] at what
          exact Option.some.inj what
    · rintro ⟨-,honest⟩
      obtain ⟨whose,what⟩ := honest same last rfl
      refine ⟨_,rfl,?_,?_⟩
      · rw [agent]
        rcases named : entry "agent_id" last.payload with _ | v
        · rfl
        · rw [whose v named]
          rfl
      · rw [kind]
        rcases named : entry "kind" last.payload with _ | v
        · rw [named] at what
          exact congrArg some what
        · rw [named] at what
          exact congrArg some what

/-- After a turn every artifact that the worker brought is attributed to the agent that was assigned and has
    its kind, exactly when the worker is honest: no payload that stays names another agent or kind, and the
    id that the loop gives to the result is left to it. -/
theorem attributed_iff {w w' : World} {packet_id : String} {result : DelegationResult}
    (ran : (delegated ctx a).run w = (.ok (packet_id,result),w')) :
    (∀ art ∈ result.artifacts, Attributed a.agent_id art ((worker_turn ctx a).run w).2.board) ↔
      Honest a.agent_id (next_id "delegation_result" (mergedBoard a.agent_id result.artifacts w'.board)) result.artifacts := by
  rw [worker_turn_delegated ran]
  constructor
  · intro attributed
    have each := fun art member => (attributed_recorded_iff packet_id result w' member rfl).mp (attributed art member)
    refine ⟨fun art member other last found => ?_,fun art member other last found => ?_,fun art member => ?_⟩
    · exact ((each art member).2 other last found).1
    · exact ((each art member).2 other last found).2
    · exact (each art member).1
  · rintro ⟨agent,kind,result⟩ art member
    refine (attributed_recorded_iff packet_id _ w' member rfl).mpr ⟨result art member,fun other last found => ?_⟩
    exact ⟨agent art member other last found,kind art member other last found⟩

end

/-! ### A worker that poses as the writer -/

/-- One turn of the reviewer, who brings an artifact with the payload. -/
def reviewTurn (payload : Fields) : SupervisorContext :=
  scriptedContext (scripted reviewScript (fun _ => succeeds [⟨"report","report",payload,1⟩]) fun _ => []) none

def reviewCall : AgentAssignment := { agent_id := "reviewer", objective := "review" }

def reviewWorld (payload : Fields) : World := freshWorld (start_state (reviewTurn payload) 3 []) none

/-- What a reviewer brings without a payload is the reviewer's. -/
theorem report_attributed : Attributed "reviewer" ⟨"report","report",[],1⟩
    ((worker_turn (reviewTurn []) reviewCall).run (reviewWorld [])).2.board := by
  refine (@attributed_iff (reviewTurn []) reviewCall (reviewWorld []) _ "context_packet-0000" _ rfl).mpr ?_ _ List.mem_cons_self
  refine ⟨fun art member _ last found v named => ?_,fun art member _ last found => ?_,fun art member taken => ?_⟩
  all_goals obtain rfl := List.mem_singleton.mp member
  · cases found
    cases named
  · cases found
    rfl
  · exact absurd taken (by decide)

/-- A payload makes the reviewer's artifact a packet of the writer. -/
theorem report_poses_as_packet : ¬ ∀ art ∈ (succeeds [⟨"report","report",[("kind",.str "context_packet"),
    ("agent_id",.str "writer")],1⟩]).artifacts, Attributed "reviewer" art
      ((worker_turn (reviewTurn [("kind",.str "context_packet"),("agent_id",.str "writer")]) reviewCall).run
        (reviewWorld [("kind",.str "context_packet"),("agent_id",.str "writer")])).2.board := by
  intro attributed
  obtain ⟨payload,here,whose,-⟩ := attributed _ List.mem_cons_self
  cases here
  exact absurd whose (by decide)

end HexAgent.Attribution
