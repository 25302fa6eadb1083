import HexAgent.Entries
import HexAgent.Scripted
import Mathlib.Data.List.DropRight

/-!
The guard against repeats. The loop counts consecutive decisions with the same signature;
a signature leaves out what a call is for, the arguments of a tool and most of a command,
and the count goes on over a round that grew the roster.
-/
namespace HexAgent.Repeats
open HexAgent.Values HexAgent.Board HexAgent.Budgets HexAgent.Contracts HexAgent.Supervisor HexAgent.Graph HexAgent.Loop
open HexAgent.Entries HexAgent.Scripted HexAgent.CommandBridge Journals Programs

/-! ### The decisions of a journal -/

/-- A decision that was taken, and the roster at the time. -/
structure Turning where
  decision : OrchestratorDecision
  roster : List String
  deriving DecidableEq

/-- The decisions that a journal takes, in order. -/
def decisionsOf : TaskLoopState → Journal → List Turning
  | _,[] => []
  | _,.wrote _ t :: rest => decisionsOf t rest
  | s,.saved _ :: rest => decisionsOf s rest
  | s,.noted event :: rest => match event with
    | .accepted decision => ⟨decision,s.selected_agents⟩ :: decisionsOf s rest
    | _ => decisionsOf s rest

theorem decisionsOf_append (s : TaskLoopState) (journal more : Journal) :
    decisionsOf s (journal ++ more) = decisionsOf s journal ++ decisionsOf (after s journal) more := by
  induction journal generalizing s with
  | nil => rfl
  | cons entry rest ih =>
    cases entry with
    | wrote cause t => exact ih t
    | saved t => exact ih s
    | noted event => cases event <;> simp [decisionsOf,after,ih]

theorem decisionsOf_entry (s : TaskLoopState) {entry : Entry TaskLoopState Event} (other : ¬ Takes entry) : decisionsOf s [entry] = [] := by
  cases entry with
  | noted event =>
    cases event with
    | accepted decision => exact absurd trivial other
    | _ => rfl
  | _ => rfl

/-- From `w₀` to the world these decisions were taken. -/
def Since (w₀ : World) (taken : List Turning) (w : World) : Prop :=
  ∃ more, w.journal = w₀.journal ++ more ∧ decisionsOf w₀.board more = taken

section
variable {w₀ w : World} {taken : List Turning}

theorem since_entry (since : Since w₀ taken w) {entry : Entry TaskLoopState Event} (other : ¬ Takes entry) {w' : World}
    (journal : w'.journal = w.journal ++ [entry]) : Since w₀ taken w' := by
  obtain ⟨more,same,decisions⟩ := since
  refine ⟨more ++ [entry],by rw [journal,same,List.append_assoc],?_⟩
  rw [decisionsOf_append,decisionsOf_entry _ other,List.append_nil,decisions]

/-- Nothing but the loop adds to the decisions. -/
theorem since_steady (w₀ : World) (taken : List Turning) : Steady (Since w₀ taken) where
  notes _ _ other since := since_entry since other rfl
  unseen _ _ _ since := since
  writes _ _ _ since := since_entry since id rfl

/-! ### What is the same -/

/-- What a request asks for: the tool and its arguments. -/
def requestOf (t : Fields) : String × PyVal := ((((t.get "tool").orElse (t.get "name")).orElse (.str "")).text,t.get "args")

/-- Two decisions ask for the same work, of the same roster. -/
structure SameWork (x y : Turning) : Prop where
  kind : x.decision.decision = y.decision.decision
  calls : x.decision.next_agent_calls.Perm y.decision.next_agent_calls
  requests : (x.decision.tool_requests.map requestOf).Perm (y.decision.tool_requests.map requestOf)
  commands : x.decision.commands.Perm y.decision.commands
  roster : x.roster = y.roster

instance : DecidableRel SameWork := fun x y =>
  decidable_of_iff (x.decision.decision = y.decision.decision ∧
      x.decision.next_agent_calls.Perm y.decision.next_agent_calls ∧
      (x.decision.tool_requests.map requestOf).Perm (y.decision.tool_requests.map requestOf) ∧
      x.decision.commands.Perm y.decision.commands ∧ x.roster = y.roster)
    ⟨fun ⟨kind,calls,requests,commands,roster⟩ => ⟨kind,calls,requests,commands,roster⟩,
      fun same => ⟨same.kind,same.calls,same.requests,same.commands,same.roster⟩⟩

instance : IsTrans Turning SameWork where
  trans _ _ _ f g := ⟨f.kind.trans g.kind,f.calls.trans g.calls,f.requests.trans g.requests,f.commands.trans g.commands,
    f.roster.trans g.roster⟩

/-- The last decisions, as many as the guard counts, have the signature that the loop keeps. -/
structure Counts (vars : DriveVars) (taken : List Turning) : Prop where
  nonneg : 0 ≤ vars.repeat_count
  fresh : vars.last_signature = none → vars.repeat_count = 0
  last : ∀ signature, vars.last_signature = some signature → vars.repeat_count.toNat + 1 ≤ taken.length ∧
    ∀ x ∈ taken.rtake (vars.repeat_count.toNat + 1), decision_signature x.decision = .ok signature

/-- One more decision with the signature lengthens the repeat, another one starts anew. -/
theorem counts_step {vars vars' : DriveVars} {x : Turning} {signature : String} (counts : Counts vars taken)
    (signed : decision_signature x.decision = .ok signature) (kept : vars'.last_signature = some signature)
    (count : vars'.repeat_count = 0 ∨ vars.last_signature = some signature ∧ vars'.repeat_count = vars.repeat_count + 1) :
    Counts vars' (taken ++ [x]) := by
  have nonneg := counts.nonneg
  refine ⟨by omega,fun none => ?_,fun s same => ?_⟩
  · rw [kept] at none
    cases none
  · rw [kept] at same
    cases same
    rcases count with zero | ⟨before,more⟩
    · rw [zero]
      refine ⟨by simp,fun y member => ?_⟩
      rw [Int.toNat_zero,List.rtake_concat_succ,List.rtake_zero,List.nil_append,List.mem_singleton] at member
      rw [member,signed]
    · obtain ⟨enough,same⟩ := counts.last signature before
      have next : vars'.repeat_count.toNat = vars.repeat_count.toNat + 1 := by omega
      rw [next]
      refine ⟨by simpa using enough,fun y member => ?_⟩
      rw [List.rtake_concat_succ,List.mem_append,List.mem_singleton] at member
      rcases member with earlier | rfl
      · exact same y earlier
      · exact signed

/-! ### How the parts of the loop end -/

variable {ctx : SupervisorContext}

/-- The reason of the guard against repeats. -/
abbrev repeated : String := "orchestrator repeated the same decision"

/-- The loop ends with the status and the reason that it was given. -/
theorem terminate_board {status : TaskLoopStatus} {reason : String} {w' : World}
    (ran : (terminate ctx status reason).run w = (.ok (),w')) : w'.board = { w.board with status, reason } := by
  have calm : Undisturbed (fun v : World => v.board = { w.board with status, reason }) := ⟨fun _ _ _ same => same,fun _ _ _ same => same⟩
  obtain ⟨_,w₁,written,rest⟩ := bind_returned ran
  obtain ⟨state,w₂,found,rest⟩ := bind_returned rest
  obtain ⟨_,w₃,emitted,saved⟩ := bind_returned rest
  cases written
  cases found
  exact calm.save.ran ((calm.emit _ _).ran rfl emitted) saved

/-- A decision that ends the loop as blocked says so, and gives the reason. -/
theorem carryOut_ended {decision : OrchestratorDecision} {w' : World} (ran : (carryOut ctx decision).run w = (.ok false,w'))
    (blocked : w'.board.status = .BLOCKED) :
    decision.decision = .blocked ∧ w'.board.reason = orText decision.reason decision.decision.value := by
  unfold carryOut at ran
  rcases kind : decision.decision with _ | _ | _ | _ | _
  all_goals rw [kind] at ran
  · obtain ⟨_,_,_,ran⟩ := bind_returned ran
    obtain ⟨_,_,_,ran⟩ := bind_returned ran
    cases ran
  · obtain ⟨_,_,_,ran⟩ := bind_returned ran
    obtain ⟨_,_,_,ran⟩ := bind_returned ran
    cases ran
  · obtain ⟨_,_,_,ran⟩ := bind_returned ran
    obtain ⟨state,_,_,ran⟩ := bind_returned ran
    split at ran
    · obtain ⟨_,_,_,ran⟩ := bind_returned ran
      obtain ⟨_,w₂,ended,ran⟩ := bind_returned ran
      cases ran
      rw [terminate_board ended] at blocked
      cases blocked
    · obtain ⟨_,_,_,ran⟩ := bind_returned ran
      cases ran
  · obtain ⟨_,w₂,ended,ran⟩ := bind_returned ran
    cases ran
    rw [terminate_board ended]
    exact ⟨rfl,rfl⟩
  · obtain ⟨_,w₂,ended,ran⟩ := bind_returned ran
    cases ran
    rw [terminate_board ended] at blocked
    cases blocked

/-- Applying commands and closing a round leave the status alone. -/
theorem closeRound_status (status : TaskLoopStatus) : Keeps (fun v => v.board.status = status) (closeRound ctx) := by
  have calm : Undisturbed (fun v : World => v.board.status = status) := ⟨fun _ _ _ same => same,fun _ _ _ same => same⟩
  have told : ∀ (topic : String) (payload : Values.Fields) (applied : Nat), Keeps (fun v : World => v.board.status = status)
      (do emit ctx topic payload; pure applied) := fun topic payload _ => (calm.emit topic payload).bind fun _ => Keeps.pure _
  have one : ∀ registry catalog applied raw, Keeps (fun v : World => v.board.status = status)
      (applyOne ctx registry catalog applied raw) := by
    intro registry catalog applied raw
    refine calm.drawStamp.bind fun stamp => (Keeps.lift _).bind fun cmd => keeps_board.bind fun state => ?_
    refine Keeps.ite (Keeps.pure _) ?_
    split
    · exact told _ _ _
    · refine Keeps.ite (told _ _ _) (Keeps.ite (told _ _ _) (Keeps.ite (told _ _ _) (Keeps.ite (told _ _ _) ?_)))
      refine Keeps.ite (Keeps.bind (fun _ same => same) fun _ => Keeps.pure _) ?_
      exact Keeps.bind (fun _ same => same) fun _ => (calm.emit _ _).bind fun _ => Keeps.pure _
  refine keeps_board.bind fun state => (Keeps.lift _).bind fun catalog => Keeps.bind ?_ fun applied => ?_
  · exact keeps_board.bind fun _ => (Keeps.fold (one _ _) _ _).bind fun _ => Keeps.bind (fun _ same => same) fun _ => Keeps.pure _
  · refine Keeps.bind (fun _ same => same) fun _ => calm.save.bind fun _ => keeps_board.bind fun state => ?_
    exact Keeps.ite ((calm.emit _ _).bind fun _ => Keeps.pure _) (Keeps.pure _)

/-- A round that goes on has judged the acceptance. -/
theorem carryOut_goes {decision : OrchestratorDecision} {w' : World} (ran : (carryOut ctx decision).run w = (.ok true,w')) :
    w'.board.status = .REVIEWING_AC := by
  have judged : ∀ {v v' : World}, (judge_acceptance decision).run v = (.ok (),v') → v'.board.status = .REVIEWING_AC := by
    intro v v' ran
    obtain ⟨_,v₁,_,ran⟩ := bind_returned ran
    cases ran
    rfl
  unfold carryOut at ran
  split at ran
  · obtain ⟨_,v₁,judge,ran⟩ := bind_returned ran
    obtain ⟨state,_,found,ran⟩ := bind_returned ran
    cases found
    split at ran
    · obtain ⟨_,_,_,ran⟩ := bind_returned ran
      obtain ⟨_,_,_,ran⟩ := bind_returned ran
      cases ran
    · obtain ⟨_,_,wrote,ran⟩ := bind_returned ran
      have status := judged judge
      cases wrote
      cases ran
      exact status
  · obtain ⟨_,_,_,ran⟩ := bind_returned ran
    obtain ⟨_,_,judge,ran⟩ := bind_returned ran
    cases ran
    exact judged judge
  · obtain ⟨_,_,_,ran⟩ := bind_returned ran
    obtain ⟨_,_,judge,ran⟩ := bind_returned ran
    cases ran
    exact judged judge
  · obtain ⟨_,_,_,ran⟩ := bind_returned ran
    cases ran
  · obtain ⟨_,_,_,ran⟩ := bind_returned ran
    cases ran

/-- Taking a decision adds it to the decisions; either the loop ends on it, or its signature
    is the one that the loop keeps. -/
theorem takeDecision_returned {decision : OrchestratorDecision} {vars : DriveVars} {next : Option (DriveVars × Nat)} {w' : World}
    (since : Since w₀ taken w) (ran : (takeDecision ctx decision vars).run w = (.ok next,w')) :
    ∃ x signature, x.decision = decision ∧ Since w₀ (taken ++ [x]) w' ∧ decision_signature decision = .ok signature ∧
      (next = none → w'.board.status = .BLOCKED →
        decision.decision = .blocked ∧ w'.board.reason = orText decision.reason decision.decision.value) ∧
      ∀ vars' applied, next = some (vars',applied) → w'.board.status = .REVIEWING_AC ∧ vars'.last_signature = some signature ∧
        (vars'.repeat_count = 0 ∨ vars.last_signature = some signature ∧ vars'.repeat_count = vars.repeat_count + 1) := by
  unfold takeDecision at ran
  obtain ⟨_,w₁,noted,ran⟩ := bind_returned ran
  obtain ⟨_,w₂,queued,ran⟩ := bind_returned ran
  obtain ⟨signature,w₃,lifted,ran⟩ := bind_returned ran
  obtain ⟨goesOn,w₄,carried,ran⟩ := bind_returned ran
  cases noted
  obtain ⟨more,same,decisions⟩ := since
  have first : Since w₀ (taken ++ [⟨decision,(after w₀.board more).selected_agents⟩])
      { w with journal := w.journal ++ [.noted (.accepted decision)] } := by
    refine ⟨more ++ [.noted (.accepted decision)],by rw [same,List.append_assoc],?_⟩
    rw [decisionsOf_append,decisions]
    rfl
  have steady := since_steady w₀ (taken ++ [⟨decision,(after w₀.board more).selected_agents⟩])
  have second := (steady.enqueue_commands decision).ran first queued
  have third := (Keeps.lift _).ran second lifted
  have fourth := (steady.carryOut decision).ran third carried
  have signed : decision_signature decision = .ok signature := by
    rcases made : decision_signature decision with error | text
    · rw [made] at lifted
      cases lifted
    · rw [made] at lifted
      cases lifted
      rfl
  cases goesOn with
  | false =>
    cases ran
    exact ⟨_,signature,rfl,fourth,signed,fun _ blocked => carryOut_ended carried blocked,nofun⟩
  | true =>
    obtain ⟨applied,w₅,closed,ran⟩ := bind_returned ran
    have fifth := steady.closeRound.ran fourth closed
    cases ran
    refine ⟨_,signature,rfl,fifth,signed,nofun,?_⟩
    rintro vars' applied' ⟨⟩
    refine ⟨(closeRound_status _).ran (carryOut_goes carried) closed,rfl,?_⟩
    by_cases grew : 0 < applied
    · exact .inl (if_pos grew)
    · by_cases same : some signature = vars.last_signature
      · exact .inr ⟨same.symm,by rw [if_neg grew,if_pos same]⟩
      · exact .inl (by rw [if_neg grew,if_neg same])

/-- The guard lets the loop go on as it is, or ends it; as a repeat only after enough of them. -/
theorem guardRound_returned {max_decision_repeats : Int} {before : TaskLoopState} {applied : Nat} {vars : DriveVars}
    {next : DriveVars ⊕ Unit} {w' : World}
    (ran : (guardRound ctx max_decision_repeats before applied vars).run w = (.ok next,w')) :
    next = .inl vars ∧ w' = w ∨ next = .inr () ∧
      (w'.board.reason = repeated → max_decision_repeats ≤ vars.repeat_count) := by
  obtain ⟨state,_,found,ran⟩ := bind_returned ran
  cases found
  dsimp only at ran
  split at ran
  · obtain ⟨_,_,ended,ran⟩ := bind_returned ran
    cases ran
    refine .inr ⟨rfl,fun same => ?_⟩
    rw [terminate_board ended] at same
    exact absurd (show "no progress this round" = repeated from same) (by decide)
  · split at ran
    · next many =>
      obtain ⟨_,_,ended,ran⟩ := bind_returned ran
      cases ran
      exact .inr ⟨rfl,fun _ => many⟩
    · cases ran
      exact .inl ⟨rfl,rfl⟩

/-- A loop that ended as repeated: the orchestrator itself said so, or the last decisions, one
    more than the guard allows to repeat, have the same signature. -/
def Closes (max_decision_repeats : Int) (taken : List Turning) (board : TaskLoopState) : Prop :=
  board.status = .BLOCKED → board.reason = repeated →
    (∃ x ∈ taken, x.decision.decision = .blocked ∧ x.decision.reason = repeated) ∨
    (max_decision_repeats + 1).toNat ≤ taken.length ∧
      ∃ signature, ∀ x ∈ taken.rtake (max_decision_repeats + 1).toNat, decision_signature x.decision = .ok signature

theorem rtake_subset {m n : Nat} (fewer : m ≤ n) : taken.rtake m ⊆ taken.rtake n :=
  List.drop_subset_drop_left taken (Nat.sub_le_sub_left fewer _)

/-- One turn of the loop: it goes on with the decisions counted, or ends. -/
theorem driveRound_returned {max_decision_repeats : Int} {vars : DriveVars} {next : DriveVars ⊕ Unit} {w' : World}
    (going : w.board.is_terminal = false) (since : Since w₀ taken w) (counts : Counts vars taken)
    (ran : (driveRound ctx max_decision_repeats vars).run w = (.ok next,w')) :
    (∃ vars' more, next = .inl vars' ∧ w'.board.is_terminal = false ∧ Since w₀ more w' ∧ Counts vars' more) ∨
      next = .inr () ∧ ∃ more, Since w₀ more w' ∧ Closes max_decision_repeats more w'.board := by
  have steady := since_steady w₀ taken
  obtain ⟨state,_,found,ran⟩ := bind_returned ran
  cases found
  dsimp only at ran
  rw [if_neg (by rw [going]; exact Bool.false_ne_true)] at ran
  split at ran
  · obtain ⟨_,w₁,ended,ran⟩ := bind_returned ran
    cases ran
    refine .inr ⟨rfl,taken,(steady.terminate _ _).ran since ended,fun _ reason => ?_⟩
    rw [terminate_board ended] at reason
    exact absurd (show "max_rounds reached" = repeated from reason) (by decide)
  · obtain ⟨⟨decision,budget⟩,w₁,asked,ran⟩ := bind_returned ran
    have since₁ := (steady.o_decide _).ran since asked
    cases decision with
    | none =>
      obtain ⟨_,w₂,ended,ran⟩ := bind_returned ran
      cases ran
      refine .inr ⟨rfl,taken,(steady.terminate _ _).ran since₁ ended,fun blocked => ?_⟩
      rw [terminate_board ended] at blocked
      cases blocked
    | some decision =>
      obtain ⟨went,w₂,taking,ran⟩ := bind_returned ran
      obtain ⟨x,signature,rfl,since₂,signed,ends,goes⟩ := takeDecision_returned since₁ taking
      have steady₂ := since_steady w₀ (taken ++ [x])
      cases went with
      | none =>
        cases ran
        refine .inr ⟨rfl,_,since₂,fun blocked reason => .inl ⟨x,List.mem_append_right _ List.mem_cons_self,?_⟩⟩
        obtain ⟨kind,given⟩ := ends rfl blocked
        rw [given,kind,orText] at reason
        split at reason
        · exact absurd (show "blocked" = repeated from reason) (by decide)
        · exact ⟨kind,reason⟩
      | some kept =>
        obtain ⟨vars',applied⟩ := kept
        obtain ⟨status,last,count⟩ := goes vars' applied rfl
        have counts₂ : Counts vars' (taken ++ [x]) := counts_step counts signed last count
        have since₃ := (steady₂.guardRound max_decision_repeats _ applied vars').ran since₂ ran
        rcases guardRound_returned ran with ⟨rfl,rfl⟩ | ⟨rfl,many⟩
        · refine .inl ⟨vars',_,rfl,?_,since₃,counts₂⟩
          rw [TaskLoopState.is_terminal,status]
          rfl
        · refine .inr ⟨rfl,_,since₃,fun _ reason => .inr ?_⟩
          obtain ⟨enough,same⟩ := counts₂.last signature last
          have := many reason
          have := counts₂.nonneg
          have fewer : (max_decision_repeats + 1).toNat ≤ vars'.repeat_count.toNat + 1 := by omega
          exact ⟨fewer.trans enough,signature,fun y member => same y (rtake_subset fewer member)⟩

/-- The whole loop. -/
theorem driveLoop_returned {max_decision_repeats : Int} {fuel : Nat} {vars : DriveVars} {w' : World}
    (going : w.board.is_terminal = false) (since : Since w₀ taken w) (counts : Counts vars taken)
    (ran : (loop (driveRound ctx max_decision_repeats) fuel vars).run w = (.ok (),w')) :
    ∃ more, Since w₀ more w' ∧ Closes max_decision_repeats more w'.board := by
  induction fuel generalizing vars w taken with
  | zero => cases ran
  | succ fuel ih =>
    obtain ⟨next,w₁,first,ran⟩ := bind_returned ran
    rcases driveRound_returned going since counts first with ⟨vars',more,rfl,going',since',counts'⟩ | ⟨rfl,ended⟩
    · exact ih going' since' counts' ran
    · cases ran
      exact ended

/-- Decisions that have the same signature only where they are the same work are the same
    work as long as the signature stays. -/
theorem same_work (apart : taken.IsChain fun x y => decision_signature x.decision = decision_signature y.decision → SameWork x y)
    {n : Nat} {signature : String} (same : ∀ x ∈ taken.rtake n, decision_signature x.decision = .ok signature) :
    (taken.rtake n).Pairwise SameWork := by
  rw [← List.isChain_iff_pairwise]
  refine (apart.drop (taken.length - n)).imp_of_mem_imp fun x y inX inY work => work ?_
  rw [same x inX,same y inY]

/-- A loop that ended as repeated has accepted the same work, one time more than the guard
    allows to repeat, of the same roster; provided that decisions that follow each other
    have the same signature only then, and the orchestrator never gives that reason itself. -/
theorem repeated_same {budget : Budget} {max_decision_repeats : Int} {r : Values.Fields} (going : w.board.is_terminal = false)
    (returned : ((drive ctx budget max_decision_repeats).run w).1 = .ok r)
    (blocked : ((drive ctx budget max_decision_repeats).run w).2.board.status = .BLOCKED)
    (reason : ((drive ctx budget max_decision_repeats).run w).2.board.reason = "orchestrator repeated the same decision")
    (taken_eq : decisionsOf w.board (((drive ctx budget max_decision_repeats).run w).2.journal.drop w.journal.length) = taken)
    (own : ∀ x ∈ taken, x.decision.decision = .blocked → x.decision.reason ≠ "orchestrator repeated the same decision")
    (apart : taken.IsChain fun x y => decision_signature x.decision = decision_signature y.decision → SameWork x y) :
    (max_decision_repeats + 1).toNat ≤ taken.length ∧ (taken.rtake (max_decision_repeats + 1).toNat).Pairwise SameWork ∧
      (1 ≤ max_decision_repeats → ¬ taken.IsChain fun x y => ¬ SameWork x y) := by
  rcases ended : (drive ctx budget max_decision_repeats).run w with ⟨stop | fields,w'⟩
  · rw [ended] at returned
    cases returned
  rw [ended] at blocked reason taken_eq
  obtain ⟨state,_,found,ran⟩ := bind_returned ended
  cases found
  obtain ⟨_,w₁,looped,ran⟩ := bind_returned ran
  obtain ⟨state,_,found,ran⟩ := bind_returned ran
  cases found
  cases ran
  have since : Since w [] w := ⟨[],(List.append_nil _).symm,rfl⟩
  have counts : Counts { budget } [] := ⟨le_refl _,fun _ => rfl,nofun⟩
  obtain ⟨more,⟨journal,same,decisions⟩,closes⟩ := driveLoop_returned going since counts looped
  rw [same,List.drop_left,decisions] at taken_eq
  subst taken_eq
  rcases closes blocked reason with ⟨x,member,kind,given⟩ | ⟨enough,signature,signed⟩
  · exact absurd given (own x member kind)
  · have work := same_work apart signed
    refine ⟨enough,work,fun some differ => ?_⟩
    have two : 2 ≤ (more.rtake (max_decision_repeats + 1).toNat).length := by
      rw [List.rtake,List.length_drop]
      omega
    rcases last : more.rtake (max_decision_repeats + 1).toNat with _ | ⟨x,_ | ⟨y,rest⟩⟩
    · simp [last] at two
    · simp [last] at two
    · have apart' := differ.drop (more.length - (max_decision_repeats + 1).toNat)
      rw [show more.drop (more.length - (max_decision_repeats + 1).toNat) = x :: y :: rest from last] at apart'
      rw [last] at work
      exact (List.isChain_cons_cons.mp apart').1 ((List.pairwise_cons.mp work).1 y List.mem_cons_self)

end

/-! ### Different work with the same signature -/

/-- Two rounds that ask the reviewer for two different reviews. -/
def twiceScript (first second : String) : ScriptedOrchestrator where
  compose := "\x7b\"selected_agents\": [\x7b\"agent_id\": \"reviewer\"\x7d]\x7d"
  decisions := [
    "\x7b\"decision\": \"continue\", \"next_agent_calls\": [\x7b\"agent_id\": \"reviewer\", \"objective\": \"" ++ first ++ "\"\x7d]\x7d",
    "\x7b\"decision\": \"continue\", \"next_agent_calls\": [\x7b\"agent_id\": \"reviewer\", \"objective\": \"" ++ second ++ "\"\x7d]\x7d"]

def twiceContext (first second : String) : SupervisorContext :=
  scriptedContext (scripted (twiceScript first second) (fun _ => succeeds [⟨"report","report",[],1⟩]) fun _ => []) none

/-- The world of a run whose team is composed. -/
def twiceWorld (first second : String) : World where
  board := { start_state (twiceContext first second) 5 [] with selected_agents := ["reviewer"] }

/-- The same review asked for twice is blocked, and is the same work. -/
theorem twice_same :
    ((decisionsOf (twiceWorld "the proofs" "the proofs").board ((drive (twiceContext "the proofs" "the proofs") {} 1).run
      (twiceWorld "the proofs" "the proofs")).2.journal).rtake 2).Pairwise SameWork := by
  have runs : ((drive (twiceContext "the proofs" "the proofs") {} 1).run (twiceWorld "the proofs" "the proofs")).1.isOk = true ∧
      ((drive (twiceContext "the proofs" "the proofs") {} 1).run (twiceWorld "the proofs" "the proofs")).2.board.status =
        .BLOCKED ∧
      ((drive (twiceContext "the proofs" "the proofs") {} 1).run (twiceWorld "the proofs" "the proofs")).2.board.reason =
        "orchestrator repeated the same decision" ∧
      (∀ x ∈ decisionsOf (twiceWorld "the proofs" "the proofs").board ((drive (twiceContext "the proofs" "the proofs") {} 1).run
        (twiceWorld "the proofs" "the proofs")).2.journal,
        x.decision.decision = .blocked → x.decision.reason ≠ "orchestrator repeated the same decision") ∧
      (decisionsOf (twiceWorld "the proofs" "the proofs").board ((drive (twiceContext "the proofs" "the proofs") {} 1).run
        (twiceWorld "the proofs" "the proofs")).2.journal).IsChain fun x y =>
        decision_signature x.decision = decision_signature y.decision → SameWork x y := by
    decide +kernel
  obtain ⟨returns,blocked,reason,own,apart⟩ := runs
  obtain ⟨r,returned⟩ : ∃ r, ((drive (twiceContext "the proofs" "the proofs") {} 1).run
      (twiceWorld "the proofs" "the proofs")).1 = .ok r := by
    rcases ended : ((drive (twiceContext "the proofs" "the proofs") {} 1).run (twiceWorld "the proofs" "the proofs")).1 with stop | r
    · rw [ended] at returns
      cases returns
    · exact ⟨r,rfl⟩
  exact (repeated_same (by decide) returned blocked reason rfl own apart).2.1

/-- Two different reviews are blocked as a repeat. -/
theorem different_reviews_blocked :
    ((drive (twiceContext "the introduction" "the proofs") {} 1).run (twiceWorld "the introduction" "the proofs")).1.isOk = true ∧
    ((drive (twiceContext "the introduction" "the proofs") {} 1).run (twiceWorld "the introduction" "the proofs")).2.board.status =
      .BLOCKED ∧
    ((drive (twiceContext "the introduction" "the proofs") {} 1).run (twiceWorld "the introduction" "the proofs")).2.board.reason =
      "orchestrator repeated the same decision" ∧
    ¬ ((decisionsOf (twiceWorld "the introduction" "the proofs").board ((drive (twiceContext "the introduction" "the proofs") {} 1).run
      (twiceWorld "the introduction" "the proofs")).2.journal).rtake 2).Pairwise SameWork := by
  decide +kernel

end HexAgent.Repeats
