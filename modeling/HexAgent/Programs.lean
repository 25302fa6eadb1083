import Mathlib.Order.Defs.PartialOrder
import Mathlib.Order.Defs.Unbundled

/-!
Programs over a mutable world that may raise an exception, and the rules to
reason about them. A world only grows with what happens in it, and a program
never takes anything back. `Runs` follows one run from one world: no loop is cut
short, the world only moves along a preorder however the run ends, and a returned
value meets a postcondition. `Agrees` compares the runs from two related worlds.
-/
namespace Programs

/-- Why a program ended without a value: it raised an exception, or one of its
    loops used up its fuel. -/
inductive Stop (ε : Type) where
  | raised (error : ε)
  | outOfFuel
  deriving DecidableEq, Repr

/-- A program over the worlds `W`: a value or a stop, and the world it leaves,
    which extends the one it began in. -/
structure Prog (W : Type) [Preorder W] (ε α : Type) where
  run : W → Except (Stop ε) α × W
  onward : ∀ w, w ≤ (run w).2

section
variable {W ε α β σ : Type} [Preorder W]

/-- Run one program and then the one that its value chooses. -/
def Prog.andThen (m : Prog W ε α) (k : α → Prog W ε β) (w : W) : Except (Stop ε) β × W :=
  match m.run w with
  | (.ok a,w') => (k a).run w'
  | (.error stop,w') => (.error stop,w')

theorem Prog.andThen_onward (m : Prog W ε α) (k : α → Prog W ε β) (w : W) : w ≤ (m.andThen k w).2 := by
  have first := m.onward w
  unfold Prog.andThen
  rcases ran : m.run w with ⟨stop | a,w'⟩
  · rw [ran] at first
    exact first
  · rw [ran] at first
    exact le_trans first ((k a).onward w')

instance : Monad (Prog W ε) where
  pure a := ⟨fun w => (.ok a,w),fun w => le_refl w⟩
  bind m k := ⟨m.andThen k,m.andThen_onward k⟩

/-- Raise an exception. -/
def raise (error : ε) : Prog W ε α := ⟨fun w => (.error (.raised error),w),fun w => le_refl w⟩
/-- Read something of the world. -/
def read (f : W → α) : Prog W ε α := ⟨fun w => (.ok (f w),w),fun w => le_refl w⟩
/-- Change the world. -/
def update (f : W → W) (grows : ∀ w, w ≤ f w) : Prog W ε Unit := ⟨fun w => (.ok (),f w),grows⟩
/-- Return the value of a pure computation, or raise its exception. -/
def lift : Except ε α → Prog W ε α
  | .ok a => pure a
  | .error error => raise error
/-- Run a program and catch its exception. -/
def caught (m : Prog W ε α) : Prog W ε (Except ε α) where
  run w := match m.run w with
    | (.ok a,w') => (.ok (.ok a),w')
    | (.error (.raised error),w') => (.ok (.error error),w')
    | (.error .outOfFuel,w') => (.error .outOfFuel,w')
  onward w := by
    have first := m.onward w
    rcases ran : m.run w with ⟨(error | _) | a,w'⟩
    all_goals rw [ran] at first; exact first
/-- Run the body on every item, in order, with a loop variable. -/
def fold (body : σ → β → Prog W ε σ) : σ → List β → Prog W ε σ
  | vars,[] => pure vars
  | vars,item :: rest => do
    let next ← body vars item
    fold body next rest
/-- Run the body on every item, in order. -/
def each (body : β → Prog W ε Unit) (items : List β) : Prog W ε Unit := fold (fun _ item => body item) () items
/-- A loop: the body either goes round again with new loop variables or leaves
    with a value. -/
def loop (body : σ → Prog W ε (σ ⊕ α)) : Nat → σ → Prog W ε α
  | 0,_ => ⟨fun w => (.error .outOfFuel,w),fun w => le_refl w⟩
  | fuel+1,vars => do
    match ← body vars with
    | .inl next => loop body fuel next
    | .inr value => pure value

@[simp] theorem pure_run (a : α) (w : W) : (pure a : Prog W ε α).run w = (.ok a,w) := rfl
@[simp] theorem raise_run (error : ε) (w : W) :
    (raise error : Prog W ε α).run w = (.error (.raised error),w) := rfl
@[simp] theorem read_run (f : W → α) (w : W) : (read f : Prog W ε α).run w = (.ok (f w),w) := rfl
@[simp] theorem lift_ok (a : α) : (lift (.ok a) : Prog W ε α) = pure a := rfl
@[simp] theorem lift_error (error : ε) : (lift (.error error) : Prog W ε α) = raise error := rfl

theorem bind_run_ok {m : Prog W ε α} {k : α → Prog W ε β} {w w' : W} {a : α} (ran : m.run w = (.ok a,w')) :
    (m >>= k).run w = (k a).run w' := by
  simp only [bind,Prog.andThen,ran]

theorem bind_run_error {m : Prog W ε α} {k : α → Prog W ε β} {w w' : W} {stop : Stop ε}
    (ran : m.run w = (.error stop,w')) : (m >>= k).run w = (.error stop,w') := by
  simp only [bind,Prog.andThen,ran]

theorem caught_run_ok {m : Prog W ε α} {w w' : W} {a : α} (ran : m.run w = (.ok a,w')) :
    (caught m).run w = (.ok (.ok a),w') := by
  simp only [caught,ran]

theorem caught_run_raised {m : Prog W ε α} {w w' : W} {error : ε} (ran : m.run w = (.error (.raised error),w')) :
    (caught m).run w = (.ok (.error error),w') := by
  simp only [caught,ran]

theorem caught_returned {m : Prog W ε α} {w w' : W} {a : α} (ran : (caught m).run w = (.ok (.ok a),w')) :
    m.run w = (.ok a,w') := by
  rcases done : m.run w with ⟨(error | _) | b,left⟩
  all_goals
    simp only [caught,done] at ran
    cases ran
  rfl

/-- A sequence that returns ran its two parts, and both returned. -/
theorem bind_returned {m : Prog W ε α} {k : α → Prog W ε β} {w w'' : W} {b : β}
    (ran : (m >>= k).run w = (.ok b,w'')) : ∃ a w', m.run w = (.ok a,w') ∧ (k a).run w' = (.ok b,w'') := by
  rcases first : m.run w with ⟨stop | a,w'⟩
  · rw [bind_run_error first] at ran
    cases ran
  · rw [bind_run_ok first] at ran
    exact ⟨a,w',rfl,ran⟩

/-- What comes after the first part only adds to the world that it left. -/
theorem bind_onward {m : Prog W ε α} {k : α → Prog W ε β} {w w' : W} {a : α} (ran : m.run w = (.ok a,w')) :
    w' ≤ ((m >>= k).run w).2 := by
  rw [bind_run_ok ran]
  exact (k a).onward w'

/-! ### Programs that return -/

/-- From `w` the program returns a value. -/
def Returns (m : Prog W ε α) (w : W) : Prop := ∃ a w', m.run w = (.ok a,w')

theorem returns_bind_iff {m : Prog W ε α} {k : α → Prog W ε β} {w : W} :
    Returns (m >>= k) w ↔ ∃ a w', m.run w = (.ok a,w') ∧ Returns (k a) w' := by
  constructor
  · rintro ⟨b,w'',ran⟩
    obtain ⟨a,w',first,rest⟩ := bind_returned ran
    exact ⟨a,w',first,b,w'',rest⟩
  · rintro ⟨a,w',first,b,w'',rest⟩
    exact ⟨b,w'',by rw [bind_run_ok first]; exact rest⟩

theorem returns_bind_lift_iff {x : Except ε α} {k : α → Prog W ε β} {w : W} :
    Returns (lift x >>= k) w ↔ ∃ a, x = .ok a ∧ Returns (k a) w := by
  rw [returns_bind_iff]
  cases x with
  | ok a =>
    constructor
    · rintro ⟨_,_,ran,rest⟩
      cases ran
      exact ⟨a,rfl,rest⟩
    · rintro ⟨_,same,rest⟩
      cases same
      exact ⟨a,w,rfl,rest⟩
  | error error => simp

/-- A loop over a list returns exactly when every item passes, where an invariant
    makes that what the body returns on. -/
theorem returns_fold_iff {body : σ → β → Prog W ε σ} {I : σ → W → Prop} {P : β → Prop}
    (step : ∀ item vars w, I vars w → (Returns (body vars item) w ↔ P item))
    (kept : ∀ item vars w next w', I vars w → (body vars item).run w = (.ok next,w') → I next w')
    {items : List β} {vars : σ} {w : W} (init : I vars w) : Returns (fold body vars items) w ↔ ∀ item ∈ items, P item := by
  induction items generalizing vars w with
  | nil => exact ⟨fun _ => by simp,fun _ => ⟨vars,w,rfl⟩⟩
  | cons item rest ih =>
    rw [fold,returns_bind_iff,List.forall_mem_cons,← step item vars w init]
    constructor
    · rintro ⟨next,w',first,others⟩
      exact ⟨⟨next,w',first⟩,(ih (kept item vars w next w' init first)).mp others⟩
    · rintro ⟨⟨next,w',first⟩,others⟩
      exact ⟨next,w',first,(ih (kept item vars w next w' init first)).mpr others⟩

/-- A loop over a list whose body always returns does. -/
theorem returns_fold {body : σ → β → Prog W ε σ} {items : List β}
    (step : ∀ item ∈ items, ∀ vars w, Returns (body vars item) w) (vars : σ) (w : W) : Returns (fold body vars items) w := by
  induction items generalizing vars w with
  | nil => exact ⟨vars,w,rfl⟩
  | cons item rest ih =>
    obtain ⟨here,others⟩ := List.forall_mem_cons.mp step
    obtain ⟨next,w',ran⟩ := here vars w
    exact returns_bind_iff.mpr ⟨next,w',ran,ih others next w'⟩

/-! ### Runs along a preorder -/

/-- From `w` no loop of the program is cut short, it moves the world along `R`
    however it ends, and a value it returns meets `Q` in the world it leaves. -/
structure Runs (R : W → W → Prop) (m : Prog W ε α) (w : W) (Q : α → W → Prop) : Prop where
  moves : R w (m.run w).2
  halts : (m.run w).1 ≠ .error .outOfFuel
  post : ∀ a, (m.run w).1 = .ok a → Q a (m.run w).2

namespace Runs
variable {R : W → W → Prop} {m : Prog W ε α} {k : α → Prog W ε β} {w : W} {Q : α → W → Prop}

theorem mono {Q' : α → W → Prop} (runs : Runs R m w Q)
    (weaker : ∀ a w', R w w' → Q a w' → Q' a w') : Runs R m w Q' :=
  ⟨runs.moves,runs.halts,fun a ok => weaker a _ runs.moves (runs.post a ok)⟩

theorem coarsen {R' : W → W → Prop} (runs : Runs R m w Q) (coarser : ∀ w', R w w' → R' w w') : Runs R' m w Q :=
  ⟨coarser _ runs.moves,runs.halts,runs.post⟩

theorem moving {R' : W → W → Prop} (runs : Runs R m w Q) (moves : R' w (m.run w).2) : Runs R' m w Q :=
  ⟨moves,runs.halts,runs.post⟩

theorem both {Q' : α → W → Prop} (runs : Runs R m w Q) (also : Runs R m w Q') :
    Runs R m w (fun a w' => Q a w' ∧ Q' a w') :=
  ⟨runs.moves,runs.halts,fun a ok => ⟨runs.post a ok,also.post a ok⟩⟩

theorem returned {a : α} {w' : W} (runs : Runs R m w Q) (ran : m.run w = (.ok a,w')) : R w w' ∧ Q a w' := by
  have moved := runs.moves
  have post := runs.post a (by rw [ran])
  rw [ran] at moved post
  exact ⟨moved,post⟩

theorem update {f : W → W} {grows : ∀ w, w ≤ f w} {Q : Unit → W → Prop} (moves : R w (f w)) (post : Q () (f w)) :
    Runs R (update f grows : Prog W ε Unit) w Q :=
  ⟨moves,nofun,fun _ _ => post⟩

theorem ite {c : Prop} [Decidable c] {m n : Prog W ε α} (yes : c → Runs R m w Q) (no : ¬ c → Runs R n w Q) :
    Runs R (if c then m else n) w Q := by
  split
  · next holds => exact yes holds
  · next fails => exact no fails

theorem bind_read {f : W → α} {Q : β → W → Prop} (rest : Runs R (k (f w)) w Q) : Runs R (Programs.read f >>= k) w Q :=
  ⟨rest.moves,rest.halts,rest.post⟩

/-- A program that is caught returns. -/
theorem caught_returns (runs : Runs R m w Q) : ∃ outcome w', (Programs.caught m).run w = (.ok outcome,w') ∧
    R w w' ∧ ∀ a, outcome = .ok a → Q a w' := by
  obtain ⟨moved,halts,post⟩ := runs
  rcases ran : m.run w with ⟨(error | _) | a,w'⟩
  · rw [ran] at moved
    exact ⟨.error error,w',caught_run_raised ran,moved,nofun⟩
  · rw [ran] at halts
    exact absurd rfl halts
  · rw [ran] at moved post
    exact ⟨.ok a,w',caught_run_ok ran,moved,fun b same => by cases same; exact post a rfl⟩

/-- What is caught has returned or raised. -/
theorem caught {Q : α → W → Prop} (runs : Runs R m w Q) :
    Runs R (caught m) w fun outcome w' => ∀ a, outcome = .ok a → Q a w' := by
  obtain ⟨outcome,w',ran,moved,post⟩ := runs.caught_returns
  refine ⟨by rw [ran]; exact moved,by rw [ran]; exact nofun,fun result ok => ?_⟩
  rw [ran] at ok ⊢
  cases ok
  exact post

variable [IsPreorder W R]

theorem pure {a : α} (post : Q a w) : Runs R (pure a : Prog W ε α) w Q :=
  ⟨refl w,nofun,fun b ok => by cases ok; exact post⟩

theorem raise {error : ε} : Runs R (raise error : Prog W ε α) w Q :=
  ⟨refl w,nofun,fun _ ok => by cases ok⟩

theorem read {f : W → α} (post : Q (f w) w) : Runs R (read f : Prog W ε α) w Q :=
  ⟨refl w,nofun,fun b ok => by cases ok; exact post⟩

theorem lift {x : Except ε α} (post : ∀ a, x = .ok a → Q a w) : Runs R (lift x : Prog W ε α) w Q := by
  cases x with
  | ok a => exact pure (post a rfl)
  | error error => exact raise

theorem bind {Q : β → W → Prop} {M : α → W → Prop} (first : Runs R m w M)
    (rest : ∀ a w', R w w' → M a w' → Runs R (k a) w' Q) : Runs R (m >>= k) w Q := by
  obtain ⟨moved,halts,post⟩ := first
  rcases ran : m.run w with ⟨stop | a,w'⟩
  · rw [ran] at moved halts
    refine ⟨?_,?_,?_⟩
    · rw [bind_run_error ran]; exact moved
    · rw [bind_run_error ran]; exact fun same => halts (by cases same; rfl)
    · rw [bind_run_error ran]; exact nofun
  · rw [ran] at moved post
    have later := rest a w' moved (post a rfl)
    refine ⟨?_,?_,?_⟩
    · rw [bind_run_ok ran]; exact Trans.trans moved later.moves
    · rw [bind_run_ok ran]; exact later.halts
    · rw [bind_run_ok ran]; exact later.post

theorem bind_update {f : W → W} {grows : ∀ w, w ≤ f w} {k : Unit → Prog W ε β} {Q : β → W → Prop} (moves : R w (f w))
    (rest : Runs R (k ()) (f w) Q) : Runs R (Programs.update f grows >>= k) w Q :=
  ⟨Trans.trans moves rest.moves,rest.halts,rest.post⟩

theorem bind_lift {x : Except ε α} {Q : β → W → Prop} (rest : ∀ a, x = .ok a → Runs R (k a) w Q) :
    Runs R (Programs.lift x >>= k) w Q := by
  cases x with
  | ok a => exact rest a rfl
  | error error => exact ⟨refl w,nofun,nofun⟩

/-- A loop over a list keeps an invariant of the items done, its variable and the
    world that its body keeps. -/
theorem fold_done {body : σ → β → Prog W ε σ} {items : List β} {I : List β → σ → W → Prop} {vars : σ} (init : I [] vars w)
    (step : ∀ done item rest, items = done ++ item :: rest → ∀ vars' w', R w w' → I done vars' w' →
      Runs R (body vars' item) w' (I (done ++ [item]))) : Runs R (Programs.fold body vars items) w (I items) := by
  induction items generalizing w vars I with
  | nil => exact pure init
  | cons item rest ih =>
    refine bind (step [] item rest rfl vars w (refl w) init) fun next w' moved kept => ?_
    refine ih (I := fun done => I (item :: done)) kept fun done item' rest' split vars' w'' later => ?_
    exact step (item :: done) item' rest' (by rw [split,List.cons_append]) vars' w'' (Trans.trans moved later)

/-- A loop over a list keeps an invariant of its variable and the world that its
    body keeps. -/
theorem fold {body : σ → β → Prog W ε σ} {items : List β} {I : σ → W → Prop} {vars : σ} (init : I vars w)
    (step : ∀ item ∈ items, ∀ vars' w', R w w' → I vars' w' → Runs R (body vars' item) w' I) :
    Runs R (Programs.fold body vars items) w I :=
  fold_done (I := fun _ => I) init fun _ item _ split vars' w' moved kept =>
    step item (by rw [split]; exact List.mem_append_right _ (List.mem_cons_self ..)) vars' w' moved kept

/-- A loop over a list keeps an invariant of the items left and the world that its
    body keeps. -/
theorem each_left {body : β → Prog W ε Unit} {items : List β} {I : List β → W → Prop} (init : I items w)
    (step : ∀ item rest w', R w w' → I (item :: rest) w' → Runs R (body item) w' (fun _ w'' => I rest w'')) :
    Runs R (Programs.each body items) w (fun _ w' => I [] w') := by
  induction items generalizing w with
  | nil => exact pure init
  | cons item rest ih =>
    refine bind (step item rest w (refl w) init) fun _ w' moved kept => ?_
    exact ih kept fun item' rest' w'' later => step item' rest' w'' (Trans.trans moved later)

theorem each {body : β → Prog W ε Unit} {items : List β} {I : W → Prop} (init : I w)
    (step : ∀ item ∈ items, ∀ w', R w w' → I w' → Runs R (body item) w' (fun _ w'' => I w'')) :
    Runs R (each body items) w (fun _ w' => I w') :=
  fold (I := fun _ w' => I w') init fun item member _ w' moved kept => step item member w' moved kept

/-- A loop keeps an invariant of its variables and the world that its body keeps,
    and a variant that its body lowers bounds its turns: a fuel above the variant
    is not used up. -/
theorem loop {body : σ → Prog W ε (σ ⊕ α)} {I : σ → W → Prop} (variant : σ → W → Nat)
    (step : ∀ vars w', R w w' → I vars w' → Runs R (body vars) w' (fun next w'' => match next with
      | .inl vars' => I vars' w'' ∧ variant vars' w'' < variant vars w'
      | .inr a => Q a w''))
    (fuel : Nat) {vars : σ} (init : I vars w) (enough : variant vars w < fuel) : Runs R (loop body fuel vars) w Q := by
  induction fuel generalizing w vars with
  | zero => omega
  | succ fuel ih =>
    refine bind (step vars w (refl w) init) fun next w' moved post => ?_
    cases next with
    | inl vars' =>
      exact ih (fun v w'' later => step v w'' (Trans.trans moved later)) post.1 (by have := post.2; omega)
    | inr a => exact pure post

end Runs

/-! ### Outcomes -/

/-- A run along `R` whose exceptions are all of the kind `E`. -/
structure Ends (R : W → W → Prop) (E : ε → Prop) (m : Prog W ε α) (w : W) (Q : α → W → Prop) : Prop extends
    Runs R m w Q where
  raised : ∀ error, (m.run w).1 = .error (.raised error) → E error

namespace Ends
variable {R : W → W → Prop} {E : ε → Prop} {m : Prog W ε α} {k : α → Prog W ε β} {w : W} {Q : α → W → Prop}

theorem mono {Q' : α → W → Prop} (ends : Ends R E m w Q) (weaker : ∀ a w', R w w' → Q a w' → Q' a w') : Ends R E m w Q' :=
  ⟨ends.toRuns.mono weaker,ends.raised⟩

/-- With no exception to raise it returns. -/
theorem returns (ends : Ends R (fun _ => False) m w Q) : ∃ a w', m.run w = (.ok a,w') ∧ R w w' ∧ Q a w' := by
  rcases ran : m.run w with ⟨(error | _) | a,w'⟩
  · exact (ends.raised error (by rw [ran])).elim
  · exact absurd (by rw [ran]) ends.halts
  · exact ⟨a,w',rfl,ends.returned ran⟩

theorem update {f : W → W} {grows : ∀ w, w ≤ f w} {Q : Unit → W → Prop} (moves : R w (f w)) (post : Q () (f w)) :
    Ends R E (update f grows : Prog W ε Unit) w Q :=
  ⟨Runs.update moves post,nofun⟩

theorem ite {c : Prop} [Decidable c] {m n : Prog W ε α} (yes : c → Ends R E m w Q) (no : ¬ c → Ends R E n w Q) :
    Ends R E (if c then m else n) w Q := by
  split
  · next holds => exact yes holds
  · next fails => exact no fails

theorem bind_read {f : W → α} {Q : β → W → Prop} (rest : Ends R E (k (f w)) w Q) : Ends R E (read f >>= k) w Q :=
  ⟨Runs.bind_read rest.toRuns,rest.raised⟩

variable [IsPreorder W R]

theorem pure {a : α} (post : Q a w) : Ends R E (pure a : Prog W ε α) w Q := ⟨Runs.pure post,nofun⟩

theorem raise {error : ε} (kind : E error) : Ends R E (raise error : Prog W ε α) w Q :=
  ⟨Runs.raise,fun other same => by cases same; exact kind⟩

theorem lift {x : Except ε α} (kind : ∀ error, x = .error error → E error) (post : ∀ a, x = .ok a → Q a w) :
    Ends R E (lift x : Prog W ε α) w Q := by
  cases x with
  | ok a => exact pure (post a rfl)
  | error error => exact raise (kind error rfl)

theorem bind {Q : β → W → Prop} {M : α → W → Prop} (first : Ends R E m w M)
    (rest : ∀ a w', R w w' → M a w' → Ends R E (k a) w' Q) : Ends R E (m >>= k) w Q := by
  refine ⟨first.toRuns.bind fun a w' moved met => (rest a w' moved met).toRuns,fun error stopped => ?_⟩
  rcases ran : m.run w with ⟨stop | a,w'⟩
  · rw [bind_run_error ran] at stopped
    cases stopped
    exact first.raised error (by rw [ran])
  · rw [bind_run_ok ran] at stopped
    obtain ⟨moved,met⟩ := first.returned ran
    exact (rest a w' moved met).raised error stopped

theorem bind_update {f : W → W} {grows : ∀ w, w ≤ f w} {k : Unit → Prog W ε β} {Q : β → W → Prop} (moves : R w (f w))
    (rest : Ends R E (k ()) (f w) Q) : Ends R E (Programs.update f grows >>= k) w Q :=
  ⟨Runs.bind_update moves rest.toRuns,rest.raised⟩

theorem bind_lift {x : Except ε α} {Q : β → W → Prop} (kind : ∀ error, x = .error error → E error)
    (rest : ∀ a, x = .ok a → Ends R E (k a) w Q) : Ends R E (Programs.lift x >>= k) w Q := by
  cases x with
  | ok a => exact rest a rfl
  | error error => exact raise (kind error rfl)

/-- A loop over a list keeps an invariant of the items done, its variable and the world
    that its body keeps. -/
theorem fold_done {body : σ → β → Prog W ε σ} {items : List β} {I : List β → σ → W → Prop} {vars : σ} (init : I [] vars w)
    (step : ∀ done item rest, items = done ++ item :: rest → ∀ vars' w', R w w' → I done vars' w' →
      Ends R E (body vars' item) w' (I (done ++ [item]))) : Ends R E (Programs.fold body vars items) w (I items) := by
  induction items generalizing w vars I with
  | nil => exact pure init
  | cons item rest ih =>
    refine bind (step [] item rest rfl vars w (refl w) init) fun next w' moved kept => ?_
    refine ih (I := fun done => I (item :: done)) kept fun done item' rest' split vars' w'' later => ?_
    exact step (item :: done) item' rest' (by rw [split,List.cons_append]) vars' w'' (Trans.trans moved later)

theorem each_done {body : β → Prog W ε Unit} {items : List β} {I : List β → W → Prop} (init : I [] w)
    (step : ∀ done item rest, items = done ++ item :: rest → ∀ w', R w w' → I done w' →
      Ends R E (body item) w' (fun _ w'' => I (done ++ [item]) w'')) :
    Ends R E (Programs.each body items) w (fun _ w' => I items w') :=
  fold_done (I := fun done _ => I done) init fun done item rest split _ => step done item rest split

end Ends

/-! ### Invariants -/

/-- However the program ends, it keeps the invariant. -/
def Keeps (I : W → Prop) (m : Prog W ε α) : Prop := ∀ w, I w → I (m.run w).2

namespace Keeps
variable {I : W → Prop} {m : Prog W ε α} {k : α → Prog W ε β}

theorem pure (a : α) : Keeps I (pure a : Prog W ε α) := fun _ holds => holds
theorem raise (error : ε) : Keeps I (raise error : Prog W ε α) := fun _ holds => holds
theorem read (f : W → α) : Keeps I (read f : Prog W ε α) := fun _ holds => holds

theorem lift (x : Except ε α) : Keeps I (lift x : Prog W ε α) := by
  cases x with
  | ok a => exact pure a
  | error error => exact raise error

theorem ite {c : Prop} [Decidable c] {m n : Prog W ε α} (yes : Keeps I m) (no : Keeps I n) : Keeps I (if c then m else n) := by
  split
  · exact yes
  · exact no

/-- What is kept holds in the world that a run leaves. -/
theorem ran {w w' : W} {x : Except (Stop ε) α} (keeps : Keeps I m) (holds : I w) (run : m.run w = (x,w')) : I w' := by
  have kept := keeps w holds
  rwa [run] at kept

/-- What holds after the first part and is kept from there holds in the end. -/
theorem bind_at {w : W} (first : I (m.run w).2) (rest : ∀ a w', m.run w = (.ok a,w') → I w' → I ((k a).run w').2) :
    I ((m >>= k).run w).2 := by
  rcases ran : m.run w with ⟨stop | a,w'⟩
  · rw [ran] at first
    rw [bind_run_error ran]
    exact first
  · rw [ran] at first
    rw [bind_run_ok ran]
    exact rest a w' ran first

theorem bind (first : Keeps I m) (rest : ∀ a, Keeps I (k a)) : Keeps I (m >>= k) :=
  fun w holds => bind_at (first w holds) fun a w' _ kept => rest a w' kept

theorem caught_at {w : W} (kept : I (m.run w).2) : I ((Programs.caught m).run w).2 := by
  rcases ran : m.run w with ⟨(error | _) | a,w'⟩
  all_goals
    rw [ran] at kept
    simp only [Programs.caught,ran]
    exact kept

theorem caught (keeps : Keeps I m) : Keeps I (caught m) := fun w holds => caught_at (keeps w holds)

theorem update {f : W → W} {grows : ∀ w, w ≤ f w} (kept : ∀ w, I w → I (f w)) : Keeps I (update f grows : Prog W ε Unit) := kept

theorem fold {body : σ → β → Prog W ε σ} (kept : ∀ vars item, Keeps I (body vars item)) (items : List β) (vars : σ) :
    Keeps I (fold body vars items) := by
  induction items generalizing vars with
  | nil => exact pure vars
  | cons item rest ih => exact bind (kept vars item) ih

theorem each {body : β → Prog W ε Unit} (kept : ∀ item, Keeps I (body item)) (items : List β) : Keeps I (each body items) :=
  fold (fun _ => kept) items ()

theorem loop {body : σ → Prog W ε (σ ⊕ α)} (kept : ∀ vars, Keeps I (body vars)) (fuel : Nat) (vars : σ) :
    Keeps I (loop body fuel vars) := by
  induction fuel generalizing vars with
  | zero => exact fun _ holds => holds
  | succ fuel ih =>
    refine bind (kept vars) fun next => ?_
    cases next with
    | inl next => exact ih next
    | inr value => exact pure value

end Keeps

/-! ### Runs from two related worlds -/

/-- From worlds related by `S` the program ends alike, in worlds related by `S`,
    provided that the world it leaves on the second side satisfies `ok`. -/
def Agrees (S : W → W → Prop) (ok : W → Prop) (m : Prog W ε α) : Prop :=
  ∀ w v, S w v → ok (m.run v).2 → (m.run w).1 = (m.run v).1 ∧ S (m.run w).2 (m.run v).2

namespace Agrees
variable {S : W → W → Prop} {ok : W → Prop} {m : Prog W ε α} {k : α → Prog W ε β}

theorem pure {a : α} : Agrees S ok (pure a : Prog W ε α) := fun _ _ same _ => ⟨rfl,same⟩
theorem raise {error : ε} : Agrees S ok (raise error : Prog W ε α) := fun _ _ same _ => ⟨rfl,same⟩

theorem read {f : W → α} (alike : ∀ w v, S w v → f w = f v) : Agrees S ok (read f : Prog W ε α) :=
  fun w v same _ => ⟨by simp [alike w v same],same⟩

theorem update {f : W → W} {grows : ∀ w, w ≤ f w} (alike : ∀ w v, S w v → S (f w) (f v)) :
    Agrees S ok (update f grows : Prog W ε Unit) :=
  fun w v same _ => ⟨rfl,alike w v same⟩

theorem lift {x : Except ε α} : Agrees S ok (lift x : Prog W ε α) := by
  cases x with
  | ok a => exact pure
  | error error => exact raise

theorem ite {c : Prop} [Decidable c] {m n : Prog W ε α} (yes : Agrees S ok m) (no : Agrees S ok n) :
    Agrees S ok (if c then m else n) := by
  split
  · exact yes
  · exact no

variable (down : ∀ w w', w ≤ w' → ok w' → ok w)
include down

theorem bind (first : Agrees S ok m) (rest : ∀ a, Agrees S ok (k a)) : Agrees S ok (m >>= k) := by
  intro w v same fine
  rcases ran : m.run v with ⟨stop | a,v'⟩
  · rw [bind_run_error ran] at fine
    obtain ⟨result,left⟩ := first w v same (by rw [ran]; exact fine)
    rw [ran] at result left
    have stopped : m.run w = (.error stop,(m.run w).2) := Prod.ext result rfl
    rw [bind_run_error ran,bind_run_error stopped]
    exact ⟨rfl,left⟩
  · rw [bind_run_ok ran] at fine
    obtain ⟨result,left⟩ := first w v same (by rw [ran]; exact down _ _ ((k a).onward v') fine)
    rw [ran] at result left
    have returned : m.run w = (.ok a,(m.run w).2) := Prod.ext result rfl
    rw [bind_run_ok ran,bind_run_ok returned]
    exact rest a _ _ left fine

theorem fold {body : σ → β → Prog W ε σ} (alike : ∀ vars item, Agrees S ok (body vars item)) (items : List β)
    (vars : σ) : Agrees S ok (fold body vars items) := by
  induction items generalizing vars with
  | nil => exact pure
  | cons item rest ih => exact bind down (alike vars item) fun next => ih next

theorem each {body : β → Prog W ε Unit} (alike : ∀ item, Agrees S ok (body item)) (items : List β) :
    Agrees S ok (each body items) :=
  fold down (fun _ => alike) items ()

theorem loop {body : σ → Prog W ε (σ ⊕ α)} (alike : ∀ vars, Agrees S ok (body vars)) (fuel : Nat) (vars : σ) :
    Agrees S ok (loop body fuel vars) := by
  induction fuel generalizing vars with
  | zero => exact fun _ _ same _ => ⟨rfl,same⟩
  | succ fuel ih =>
    refine bind down (alike vars) fun next => ?_
    cases next with
    | inl vars' => exact ih vars'
    | inr a => exact pure

end Agrees

end
end Programs
