import HexAgent.Restarts

/-!
The offline counterparts of the outside: an orchestrator that plays a script of
decisions and a broker that grounds its briefing in the slice it is handed. With
workers and tools given as functions they make an outside that can be run, as in
the review at the end.
-/
namespace HexAgent.Scripted
open HexAgent.Values HexAgent.Board HexAgent.Commands HexAgent.Contracts HexAgent.Schemas HexAgent.Supervisor
open HexAgent.Loop HexAgent.Events HexAgent.Json HexAgent.Moves HexAgent.Restarts Journals Programs

/-- A canned team and a queue of decisions. -/
structure ScriptedOrchestrator where
  compose : String
  decisions : List String

def exhausted : String := "\x7b\"decision\": \"blocked\", \"reason\": \"orchestrator script exhausted\"\x7d"

/-- The answer to the call of that number; past the script the loop is blocked. -/
def ScriptedOrchestrator.decide (orchestrator : ScriptedOrchestrator) (call : Nat) : String :=
  orchestrator.decisions.getD call exhausted

/-- One line of the briefing for an item of the slice that has an id. -/
def sliceLine (item : Fields) : Option (String × String) :=
  let item_id := ((item.get "id").orElse (.str "")).text
  if item_id = "" then none
  else some (item_id,"[" ++ item_id ++ "] " ++ ((item.get "text").orElse (.str "")).text)

/-- `DeterministicBroker.write_packet`. -/
def write_packet (char_budget : Nat) (assignment : AgentAssignment) (store_slice : List Fields) : ContextPacket :=
  let cited := store_slice.filterMap sliceLine
  let scope := if assignment.scope_of_work = "" then [] else ["Scope of work: " ++ assignment.scope_of_work]
  let lines := ["Objective: " ++ assignment.objective] ++ scope ++ cited.map Prod.snd
  { target_agent_id := assignment.agent_id, objective := assignment.objective,
    briefing := String.ofList ((join "\n" lines).toList.take char_budget), source_ids := cited.map Prod.fst }

/-- The packet goes to the assigned agent, and cites only what the slice holds. -/
theorem write_packet_grounded (char_budget : Nat) (assignment : AgentAssignment) (store_slice : List Fields) :
    (write_packet char_budget assignment store_slice).target_agent_id = assignment.agent_id ∧
      ∀ id ∈ (write_packet char_budget assignment store_slice).source_ids,
        ∃ item ∈ store_slice, ((item.get "id").orElse (.str "")).text = id := by
  refine ⟨rfl,fun id cited => ?_⟩
  obtain ⟨line,member,rfl⟩ := List.mem_map.mp cited
  obtain ⟨item,inSlice,lined⟩ := List.mem_filterMap.mp member
  refine ⟨item,inSlice,?_⟩
  unfold sliceLine at lined
  simp only at lined
  split at lined
  · cases lined
  · cases lined; rfl

/-! ### An outside that can be run -/

theorem time_filled : "time" ≠ "" := by decide

/-- A stamp for every number. -/
def numbered (n : Nat) : Stamp := ⟨"id" ++ toString n,"time",by simp [String.append_eq_empty_iff],time_filled⟩

/-- The outside of a script, with the results of workers and tools. -/
def scripted (orchestrator : ScriptedOrchestrator) (work : String → DelegationResult) (tool : String → Fields) : Env where
  answer _ journal op := match op with
    | .compose_team .. => .ok orchestrator.compose
    | .decide _ => .ok (orchestrator.decide (decideCalls journal - 1))
    | .store_slice .. => .ok []
    | .write_packet assignment slice => .ok (write_packet 1200 assignment slice)
    | .delegate target _ _ => .ok (work target)
    | .execute_tool name _ => .ok (tool name)
    | .save _ => .ok ()
  command_stamp := numbered
  event_stamp := numbered

/-- A worker that succeeds with these artifacts. -/
def succeeds (artifacts : List ArtifactEnvelope) : DelegationResult where
  delegation_id := "delegation"
  parent_task_id := "task"
  outcome := .success
  artifacts

def rootIdentity : SessionIdentity where
  session_id := "session"
  run_id := "run"
  task_id := "task"
  agent_id := "agent:root"
  session_id_nonempty := by decide

/-- A reader of texts without floats. -/
def plainJson : Interpreter := { recursion_limit := 100, float := fun text => ⟨text,true,none⟩ }

/-- The context of a script, saving to a database. -/
def scriptedContext (env : Env) (agent_registry : Option Roles.AgentRegistry) : SupervisorContext where
  identity := rootIdentity
  agent_registry
  checkpoint := some "run"
  interp := plainJson
  env

/-! ### A run to look at -/

/-- One reviewer, one round, and a finish that cites the reviewer's report. -/
def reviewScript : ScriptedOrchestrator where
  compose := "\x7b\"selected_agents\": [\x7b\"agent_id\": \"reviewer\"\x7d]\x7d"
  decisions := [
    "\x7b\"decision\": \"continue\", \"next_agent_calls\": [\x7b\"agent_id\": \"reviewer\", \"objective\": \"review\"\x7d]\x7d",
    "\x7b\"decision\": \"finished\", \"acceptance_status\": [\x7b\"id\": \"C1\", \"status\": \"passed\", " ++
      "\"evidence_ids\": [\"report\"]\x7d]\x7d"]

def reviewContext : SupervisorContext :=
  scriptedContext (scripted reviewScript (fun _ => succeeds [⟨"report","report",[],1⟩]) fun _ => []) none

def reviewCriteria : List PyVal := [.dict [("id",.str "C1"),("text",.str "reviewed")]]

/-- The process of the whole review. -/
def reviewProcess : Process TaskLoopState Event where
  start := start_state reviewContext 3 [{ id := "C1", text := "reviewed" }]
  journal := (run_task_loop reviewContext "review" (reviewCriteria.map .item) 3 3 {} none).2.journal

theorem review_runs : Run (fun _ => True) (reviewCriteria.map .item) [reviewProcess] :=
  Survives.first ⟨reviewContext,trivial,"review",3,3,{},none,_,rfl,rfl,rfl⟩ List.prefix_rfl

/-! ### A crew that may grow -/

/-- A writer, and a reviewer in a department of its own. -/
def crewRegistry : Roles.AgentRegistry where
  roles := [⟨"writer","Writer","authors","",[],[]⟩,⟨"reviewer","Reviewer","quality","",[],[]⟩]
  unique := by decide

/-- One round of the writer alone, with the given decision. -/
def crewContext (decision : String) : SupervisorContext :=
  scriptedContext (scripted ⟨"\x7b\"selected_agents\": [\x7b\"agent_id\": \"writer\"\x7d]\x7d",[decision]⟩
    (fun _ => succeeds []) fun _ => []) (some crewRegistry)

def crewProcess (decision : String) : Process TaskLoopState Event where
  start := start_state (crewContext decision) 1 []
  journal := (run_task_loop (crewContext decision) "write" [] 1 3 {} none).2.journal

theorem crew_runs (decision : String) : Run (fun _ => True) [] [crewProcess decision] :=
  Survives.first ⟨crewContext decision,trivial,"write",1,3,{},none,[],rfl,rfl,rfl⟩ List.prefix_rfl

/-- The decision that an entry takes, if it takes one. -/
def acceptedAt : Entry TaskLoopState Event → Option OrchestratorDecision
  | .noted (.accepted decision) => some decision
  | _ => none

/-- The place of a journal at which a decision is taken. -/
theorem accepted_split {journal : Journal} {k : Nat} {decision : OrchestratorDecision}
    (taken : (journal[k]?).bind acceptedAt = some decision) :
    journal = journal.take k ++ .noted (.accepted decision) :: journal.drop (k + 1) := by
  obtain ⟨entry,here,accepted⟩ := Option.bind_eq_some_iff.mp taken
  have same : entry = .noted (.accepted decision) := by
    unfold acceptedAt at accepted
    split at accepted
    · cases accepted; rfl
    · cases accepted
  obtain ⟨inside,get⟩ := List.getElem?_eq_some_iff.mp here
  rw [← same,← get,List.getElem_cons_drop,List.take_append_drop]

end HexAgent.Scripted
