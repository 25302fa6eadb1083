import Mathlib.Data.List.Chain
import Mathlib.Order.Defs.Unbundled

/-!
Journals of a state that is written, saved and lost. A process starts from a
state and journals every state it writes with the event that wrote it, every state
it saves durably, and the events it takes part in; a crash keeps only the entries
journalled so far, and the next process starts from what the last save reloads. `Follows` says that a
journal obeys the rules of the process, and the theorems carry an invariant of
the rules to every state of every process (`survives_invariant`), and a preorder
along the rules to the saved states in order (`survives_chain`).
-/
namespace Journals

section
variable {σ ε : Type}

/-- One entry of a journal: a state written by an event, a state saved, or an event
    that wrote nothing. -/
inductive Entry (σ ε : Type) where
  | wrote (cause : ε) (state : σ)
  | saved (state : σ)
  | noted (event : ε)

/-- What a process may do: the writes it may make, the events it may take part in,
    in a given state, and the states it may save. -/
structure Rules (σ ε : Type) where
  move : ε → σ → σ → Prop
  allows : σ → ε → Prop
  saves : σ → Prop

/-- The state after a journal that began in `s`. -/
def after (s : σ) : List (Entry σ ε) → σ
  | [] => s
  | .wrote _ t :: rest => after t rest
  | .saved _ :: rest => after s rest
  | .noted _ :: rest => after s rest

/-- A journal that begins in `s` and obeys the rules; only the current state is saved. -/
def Follows (rules : Rules σ ε) (s : σ) : List (Entry σ ε) → Prop
  | [] => True
  | .wrote cause t :: rest => rules.move cause s t ∧ Follows rules t rest
  | .saved t :: rest => (t = s ∧ rules.saves s) ∧ Follows rules s rest
  | .noted event :: rest => rules.allows s event ∧ Follows rules s rest

/-- The states of a journal that began in `s`, in order. -/
def states (s : σ) : List (Entry σ ε) → List σ
  | [] => [s]
  | .wrote _ t :: rest => s :: states t rest
  | .saved _ :: rest => states s rest
  | .noted _ :: rest => states s rest

/-- The saved states of a journal, in order. -/
def checkpoints : List (Entry σ ε) → List σ
  | [] => []
  | .saved t :: rest => t :: checkpoints rest
  | .wrote _ _ :: rest => checkpoints rest
  | .noted _ :: rest => checkpoints rest

@[simp] theorem after_append (s : σ) (journal more : List (Entry σ ε)) :
    after s (journal ++ more) = after (after s journal) more := by
  induction journal generalizing s with
  | nil => rfl
  | cons entry rest ih => cases entry <;> simp [after,ih]

theorem follows_append {rules : Rules σ ε} {s : σ} {journal more : List (Entry σ ε)} :
    Follows rules s (journal ++ more) ↔ Follows rules s journal ∧ Follows rules (after s journal) more := by
  induction journal generalizing s with
  | nil => simp [Follows,after]
  | cons entry rest ih => cases entry <;> simp [Follows,after,ih,and_assoc]

@[simp] theorem checkpoints_append (journal more : List (Entry σ ε)) :
    checkpoints (journal ++ more) = checkpoints journal ++ checkpoints more := by
  induction journal with
  | nil => rfl
  | cons entry rest ih => cases entry <;> simp [checkpoints,ih]

theorem follows_cut {rules : Rules σ ε} {s : σ} {journal cut : List (Entry σ ε)}
    (follows : Follows rules s journal) (kept : cut <+: journal) : Follows rules s cut := by
  obtain ⟨lost,rfl⟩ := kept
  exact (follows_append.mp follows).1

theorem follows_mono {rules rules' : Rules σ ε} (moves : ∀ c s t, rules.move c s t → rules'.move c s t)
    (events : ∀ s e, rules.allows s e → rules'.allows s e) (saves : ∀ s, rules.saves s → rules'.saves s) {s : σ} {journal : List (Entry σ ε)}
    (follows : Follows rules s journal) : Follows rules' s journal := by
  induction journal generalizing s with
  | nil => trivial
  | cons entry rest ih =>
    cases entry with
    | wrote cause t => exact ⟨moves cause s t follows.1,ih follows.2⟩
    | saved t => exact ⟨⟨follows.1.1,saves s follows.1.2⟩,ih follows.2⟩
    | noted event => exact ⟨events s event follows.1,ih follows.2⟩

/-- What is journalled was allowed in some state. -/
theorem follows_noted {rules : Rules σ ε} {s : σ} {journal : List (Entry σ ε)} (follows : Follows rules s journal)
    {event : ε} (noted : .noted event ∈ journal) : ∃ t, rules.allows t event := by
  induction journal generalizing s with
  | nil => cases noted
  | cons entry rest ih =>
    cases entry with
    | wrote cause t => exact ih follows.2 (by simpa using noted)
    | saved t => exact ih follows.2 (by simpa using noted)
    | noted other =>
      rcases List.mem_cons.mp noted with same | later
      · cases same
        exact ⟨s,follows.1⟩
      · exact ih follows.2 later

theorem start_mem_states (s : σ) (journal : List (Entry σ ε)) : s ∈ states s journal := by
  induction journal with
  | nil => exact List.mem_singleton_self s
  | cons entry rest ih =>
    cases entry with
    | wrote cause t => exact List.mem_cons_self ..
    | saved t => exact ih
    | noted event => exact ih

theorem after_mem_states (s : σ) (journal : List (Entry σ ε)) : after s journal ∈ states s journal := by
  induction journal generalizing s with
  | nil => exact List.mem_singleton_self s
  | cons entry rest ih =>
    cases entry with
    | wrote cause t => exact List.mem_cons_of_mem _ (ih t)
    | saved t => exact ih s
    | noted event => exact ih s

theorem after_prefix_mem_states (s : σ) (before rest : List (Entry σ ε)) : after s before ∈ states s (before ++ rest) := by
  induction before generalizing s with
  | nil => exact start_mem_states s rest
  | cons entry before ih =>
    cases entry with
    | wrote cause t => exact List.mem_cons_of_mem _ (ih t)
    | saved t => exact ih s
    | noted event => exact ih s

/-! ### One process -/

/-- An invariant of the rules holds in every state of a journal. -/
theorem follows_invariant {rules : Rules σ ε} {I : σ → Prop} (kept : ∀ c s t, rules.move c s t → I s → I t)
    {s : σ} {journal : List (Entry σ ε)} (follows : Follows rules s journal) (init : I s) :
    ∀ t ∈ states s journal, I t := by
  induction journal generalizing s with
  | nil => intro t member; rw [List.mem_singleton.mp member]; exact init
  | cons entry rest ih =>
    cases entry with
    | wrote cause u =>
      intro t member
      rcases List.mem_cons.mp member with rfl | later
      · exact init
      · exact ih follows.2 (kept cause s u follows.1 init) t later
    | saved u => exact ih follows.2 init
    | noted event => exact ih follows.2 init

/-- The saved states of a journal are among its states. -/
theorem checkpoints_subset_states {rules : Rules σ ε} {s : σ} {journal : List (Entry σ ε)}
    (follows : Follows rules s journal) : ∀ t ∈ checkpoints journal, t ∈ states s journal := by
  induction journal generalizing s with
  | nil => intro t member; cases member
  | cons entry rest ih =>
    intro t member
    cases entry with
    | wrote cause u => exact List.mem_cons_of_mem _ (ih follows.2 t member)
    | saved u =>
      rcases List.mem_cons.mp member with rfl | later
      · rw [follows.1.1]; exact start_mem_states s rest
      · exact ih follows.2 t later
    | noted event => exact ih follows.2 t member

/-- Only states that may be saved are saved. -/
theorem checkpoints_saves {rules : Rules σ ε} {s : σ} {journal : List (Entry σ ε)} (follows : Follows rules s journal) :
    ∀ t ∈ checkpoints journal, rules.saves t := by
  induction journal generalizing s with
  | nil => intro t member; cases member
  | cons entry rest ih =>
    intro t member
    cases entry with
    | wrote cause u => exact ih follows.2 t member
    | saved u =>
      rcases List.mem_cons.mp member with rfl | later
      · rw [follows.1.1]; exact follows.1.2
      · exact ih follows.2 t later
    | noted event => exact ih follows.2 t member

/-- A preorder along the rules orders the states of a journal from its start. -/
theorem follows_above {rules : Rules σ ε} {R : σ → σ → Prop} [IsPreorder σ R]
    (along : ∀ c s t, rules.move c s t → R s t) {s : σ} {journal : List (Entry σ ε)}
    (follows : Follows rules s journal) : ∀ t ∈ states s journal, R s t :=
  follows_invariant (I := R s) (fun c t u move above => Trans.trans above (along c t u move)) follows (refl s)

/-- A preorder along the rules orders the saved states of a journal. -/
theorem follows_chain {rules : Rules σ ε} {R : σ → σ → Prop} [IsPreorder σ R]
    (along : ∀ c s t, rules.move c s t → R s t) {s s' : σ} {journal : List (Entry σ ε)}
    (follows : Follows rules s' journal) (above : R s s') : (s :: checkpoints journal).IsChain R := by
  induction journal generalizing s s' with
  | nil => exact List.isChain_singleton s
  | cons entry rest ih =>
    cases entry with
    | wrote cause u => exact ih follows.2 (Trans.trans above (along cause s' u follows.1))
    | saved u =>
      rw [follows.1.1]
      exact List.isChain_cons_cons.mpr ⟨above,ih follows.2 (refl s')⟩
    | noted event => exact ih follows.2 above

/-- Where a property that the start lacks holds later, some write before
    established it. -/
theorem follows_established {rules : Rules σ ε} {R : σ → σ → Prop} [IsPreorder σ R]
    (along : ∀ c s t, rules.move c s t → R s t) (P : σ → Prop) {s : σ} {journal : List (Entry σ ε)}
    (follows : Follows rules s journal) (lacks : ¬ P s) {t : σ} (later : t ∈ states s journal) (holds : P t) :
    ∃ before ∈ states s journal, ∃ next ∈ states s journal,
      (∃ cause, rules.move cause before next) ∧ ¬ P before ∧ P next ∧ R next t := by
  induction journal generalizing s with
  | nil => rw [List.mem_singleton.mp later] at holds; exact absurd holds lacks
  | cons entry rest ih =>
    cases entry with
    | wrote cause u =>
      rcases List.mem_cons.mp later with rfl | later
      · exact absurd holds lacks
      · by_cases here : P u
        · exact ⟨s,List.mem_cons_self ..,u,List.mem_cons_of_mem _ (start_mem_states u rest),⟨cause,follows.1⟩,lacks,here,
            follows_above along follows.2 t later⟩
        · obtain ⟨before,inBefore,next,inNext,step⟩ := ih follows.2 here later
          exact ⟨before,List.mem_cons_of_mem _ inBefore,next,List.mem_cons_of_mem _ inNext,step⟩
    | saved u => exact ih follows.2 lacks later
    | noted event => exact ih follows.2 lacks later

/-- A preorder along every write of a journal relates any state of it to any later one. -/
theorem after_related {R : σ → σ → Prop} [IsPreorder σ R] {s : σ} {journal : List (Entry σ ε)}
    (step : ∀ before cause t rest, journal = before ++ .wrote cause t :: rest → R (after s before) t)
    (before later rest : List (Entry σ ε)) (split : journal = before ++ later ++ rest) :
    R (after s before) (after s (before ++ later)) := by
  induction later generalizing before with
  | nil => rw [List.append_nil]; exact refl _
  | cons entry later ih =>
    have onward := ih (before ++ [entry]) (by rw [split]; simp)
    rw [List.append_assoc,List.singleton_append,after_append] at onward
    cases entry with
    | wrote cause t => exact Trans.trans (step before cause t (later ++ rest) (by rw [split]; simp)) onward
    | saved t => exact onward
    | noted event => exact onward

/-- The rules with the causes of the writes restricted. -/
def Rules.within (rules : Rules σ ε) (causes : ε → Prop) : Rules σ ε :=
  ⟨fun c s t => rules.move c s t ∧ causes c,rules.allows,rules.saves⟩

theorem follows_within {rules : Rules σ ε} {causes : ε → Prop} {s : σ} {journal : List (Entry σ ε)}
    (follows : Follows rules s journal) (caused : ∀ cause t, .wrote cause t ∈ journal → causes cause) :
    Follows (rules.within causes) s journal := by
  induction journal generalizing s with
  | nil => trivial
  | cons entry rest ih =>
    have later : ∀ cause t, .wrote cause t ∈ rest → causes cause :=
      fun cause t member => caused cause t (List.mem_cons_of_mem _ member)
    cases entry with
    | wrote cause t => exact ⟨⟨follows.1,caused cause t (List.mem_cons_self ..)⟩,ih follows.2 later⟩
    | saved t => exact ⟨follows.1,ih follows.2 later⟩
    | noted event => exact ⟨follows.1,ih follows.2 later⟩

/-! ### Crashes and restarts -/

/-- One process: the state it began in and the journal it left, up to its crash. -/
structure Process (σ ε : Type) where
  start : σ
  journal : List (Entry σ ε)

def Process.states (process : Process σ ε) : List σ := Journals.states process.start process.journal

/-- Every state saved by the processes, in order. -/
def saves (processes : List (Process σ ε)) : List σ := processes.flatMap fun process => checkpoints process.journal

/-- The processes of one run: the first one `launches` from its start, each later
    one `resumes` from what the last save of the earlier ones reloads, and each
    is cut short at any point of its journal. -/
inductive Survives (launches : σ → List (Entry σ ε) → Prop) (resumes : σ → List (Entry σ ε) → Prop)
    (reload : σ → σ → Prop) : List (Process σ ε) → Prop where
  | first {s : σ} {journal cut : List (Entry σ ε)} (ran : launches s journal) (kept : cut <+: journal) :
      Survives launches resumes reload [⟨s,cut⟩]
  | again {processes : List (Process σ ε)} {last s : σ} {journal cut : List (Entry σ ε)}
      (earlier : Survives launches resumes reload processes) (lastSave : (saves processes).getLast? = some last)
      (reloaded : reload last s) (ran : resumes s journal) (kept : cut <+: journal) :
      Survives launches resumes reload (processes ++ [⟨s,cut⟩])

section
variable {launches resumes : σ → List (Entry σ ε) → Prop} {reload : σ → σ → Prop} {rules : Rules σ ε}

theorem mem_saves {processes : List (Process σ ε)} {s : σ} :
    s ∈ saves processes ↔ ∃ process ∈ processes, s ∈ checkpoints process.journal := List.mem_flatMap

/-- A process that is not the first one began from what the last save before it loads as. -/
theorem survives_reload {processes : List (Process σ ε)} (run : Survives launches resumes reload processes)
    {earlier rest : List (Process σ ε)} {process : Process σ ε} (split : processes = earlier ++ process :: rest)
    {last : σ} (lastSave : (saves earlier).getLast? = some last) : reload last process.start := by
  induction run generalizing rest with
  | first ran kept =>
    cases earlier with
    | nil => cases lastSave
    | cons head earlier => simp at split
  | @again processes last' s journal cut run' lastSave' reloaded ran kept ih =>
    rcases List.eq_nil_or_concat rest with rfl | ⟨rest',final,rfl⟩
    · obtain ⟨rfl,same⟩ := List.append_inj' split rfl
      cases same
      rw [lastSave'] at lastSave
      cases lastSave
      exact reloaded
    · rw [List.concat_eq_append,← List.cons_append,← List.append_assoc] at split
      exact ih (List.append_inj' split rfl).1

/-- Every process of a run obeys the rules, where a launched process does and so
    does one that resumes from what a state that may be saved reloads as. -/
theorem survives_follows (launched : ∀ s journal, launches s journal → Follows rules s journal)
    (resumed : ∀ last s journal, rules.saves last → reload last s → resumes s journal → Follows rules s journal)
    {processes : List (Process σ ε)} (run : Survives launches resumes reload processes) :
    ∀ process ∈ processes, Follows rules process.start process.journal := by
  induction run with
  | first ran kept =>
    intro process member
    rw [List.mem_singleton.mp member]
    exact follows_cut (launched _ _ ran) kept
  | again earlier lastSave reloaded ran kept ih =>
    intro process member
    rcases List.mem_append.mp member with before | here
    · exact ih process before
    · rw [List.mem_singleton.mp here]
      obtain ⟨owner,inRun,saved⟩ := mem_saves.mp (List.mem_of_getLast? lastSave)
      exact follows_cut (resumed _ _ _ (checkpoints_saves (ih owner inRun) _ saved) reloaded ran) kept

/-- Every state saved in a run may be saved. -/
theorem survives_saves {processes : List (Process σ ε)}
    (follows : ∀ process ∈ processes, Follows rules process.start process.journal) :
    ∀ s ∈ saves processes, rules.saves s := by
  intro s saved
  obtain ⟨owner,inRun,member⟩ := mem_saves.mp saved
  exact checkpoints_saves (follows owner inRun) s member

/-- An invariant of the rules that the first start has and reloading keeps holds
    in every state of every process. -/
theorem survives_invariant {I : σ → Prop} (kept : ∀ c s t, rules.move c s t → I s → I t)
    (init : ∀ s journal, launches s journal → I s) (reloads : ∀ s t, reload s t → I s → I t)
    {processes : List (Process σ ε)} (run : Survives launches resumes reload processes)
    (follows : ∀ process ∈ processes, Follows rules process.start process.journal) :
    ∀ process ∈ processes, ∀ s ∈ process.states, I s := by
  induction run with
  | first ran cut =>
    intro process member
    have obeys := follows process member
    rw [List.mem_singleton.mp member] at obeys ⊢
    exact follows_invariant kept obeys (init _ _ ran)
  | @again processes last s journal cut earlier lastSave reloaded ran prefixed ih =>
    have before := ih fun process member => follows process (List.mem_append_left _ member)
    intro process member
    rcases List.mem_append.mp member with early | here
    · exact before process early
    · have obeys := follows process member
      rw [List.mem_singleton.mp here] at obeys ⊢
      obtain ⟨owner,inRun,saved⟩ := mem_saves.mp (List.mem_of_getLast? lastSave)
      have lastInv : I last :=
        before owner inRun last (checkpoints_subset_states (follows owner (List.mem_append_left _ inRun)) last saved)
      exact follows_invariant kept obeys (reloads last s reloaded lastInv)

/-- What holds somewhere in a run, where no launched process starts with it and
    reloading does not make it up, was established by some write before. -/
theorem survives_established {R : σ → σ → Prop} [IsPreorder σ R] (along : ∀ c s t, rules.move c s t → R s t)
    (reloads : ∀ s t, reload s t → R s t) (P : σ → Prop) (lacks : ∀ s journal, launches s journal → ¬ P s)
    (back : ∀ s t, reload s t → P t → P s) {processes : List (Process σ ε)}
    (run : Survives launches resumes reload processes)
    (follows : ∀ process ∈ processes, Follows rules process.start process.journal) :
    ∀ process ∈ processes, ∀ t ∈ process.states, P t → ∃ owner ∈ processes, ∃ before ∈ owner.states,
      ∃ next ∈ owner.states, (∃ cause, rules.move cause before next) ∧ ¬ P before ∧ P next ∧ R next t := by
  induction run with
  | @first s journal cut ran kept =>
    intro process member t inStates holds
    have obeys := follows process member
    rw [List.mem_singleton.mp member] at inStates obeys
    obtain ⟨before,inBefore,next,inNext,found⟩ := follows_established along P obeys (lacks _ _ ran) inStates holds
    exact ⟨⟨s,cut⟩,List.mem_singleton_self _,before,inBefore,next,inNext,found⟩
  | @again processes last s journal cut earlier lastSave reloaded ran kept ih =>
    have before := ih fun process member => follows process (List.mem_append_left _ member)
    intro process member t inStates holds
    rcases List.mem_append.mp member with early | here
    · obtain ⟨owner,inRun,found⟩ := before process early t inStates holds
      exact ⟨owner,List.mem_append_left _ inRun,found⟩
    · have obeys := follows process member
      rw [List.mem_singleton.mp here] at inStates obeys
      by_cases start : P s
      · obtain ⟨saver,inRun,saved⟩ := mem_saves.mp (List.mem_of_getLast? lastSave)
        have inSaver := checkpoints_subset_states (follows saver (List.mem_append_left _ inRun)) last saved
        obtain ⟨owner,inRun',early,inEarly,next,inNext,move,lacked,has,above⟩ :=
          before saver inRun last inSaver (back last s reloaded start)
        have onward : R last t := Trans.trans (reloads last s reloaded) (follows_above along obeys t inStates)
        exact ⟨owner,List.mem_append_left _ inRun',early,inEarly,next,inNext,move,lacked,has,Trans.trans above onward⟩
      · obtain ⟨early,inEarly,next,inNext,found⟩ := follows_established along P obeys start inStates holds
        exact ⟨⟨s,cut⟩,List.mem_append_right _ (List.mem_singleton_self _),early,inEarly,next,inNext,found⟩

/-- A preorder along the rules and along reloading orders the saved states of a run. -/
theorem survives_chain {R : σ → σ → Prop} [IsPreorder σ R] (along : ∀ c s t, rules.move c s t → R s t)
    (reloads : ∀ s t, reload s t → R s t) {processes : List (Process σ ε)}
    (run : Survives launches resumes reload processes)
    (follows : ∀ process ∈ processes, Follows rules process.start process.journal) : (saves processes).IsChain R := by
  induction run with
  | @first s journal cut ran kept =>
    have chain := follows_chain along (follows ⟨s,cut⟩ (List.mem_singleton_self _)) (refl s)
    simpa [saves] using chain.tail
  | @again processes last s journal cut earlier lastSave reloaded ran kept ih =>
    have before := ih fun process member => follows process (List.mem_append_left _ member)
    have obeys := follows ⟨s,cut⟩ (List.mem_append_right _ (List.mem_singleton_self _))
    have chain := follows_chain along obeys (reloads last s reloaded)
    have split : saves (processes ++ [⟨s,cut⟩]) = saves processes ++ checkpoints cut := by
      simp [saves]
    rw [split]
    refine List.isChain_append.mpr ⟨before,chain.tail,?_⟩
    intro x lastX y firstY
    rw [lastSave] at lastX
    cases lastX
    exact List.isChain_cons.mp chain |>.1 y firstY

end

end
end Journals
