import Mathlib.Logic.Function.Basic
import Mathlib.Logic.Relation

/-!
Threads that take their steps in any order over a state that they share. An invariant has a
part that every thread keeps of the shared state and a part that each thread knows of its own;
it holds in every run when no step of a thread breaks what another one knows (`Outlook.kept`).
-/
namespace Interleavings

section
variable {ι σ τ : Type*} [DecidableEq ι]

/-- A shared state, and a state of each thread. -/
structure Config (ι σ τ : Type*) where
  shared : σ
  thread : ι → τ

/-- One thread takes a step: it changes the shared state and its own. -/
inductive Step (move : ι → σ → τ → σ → τ → Prop) (c : Config ι σ τ) : Config ι σ τ → Prop where
  | mk {i : ι} {s : σ} {t : τ} (moved : move i c.shared (c.thread i) s t) : Step move c ⟨s,Function.update c.thread i t⟩

/-- Any number of steps of any threads. -/
def Runs (move : ι → σ → τ → σ → τ → Prop) : Config ι σ τ → Config ι σ τ → Prop := Relation.ReflTransGen (Step move)

variable {move : ι → σ → τ → σ → τ → Prop} {c d : Config ι σ τ}

/-- Follow a schedule: which thread takes its next step, and with which answer from outside. -/
def follow {ρ : Type*} (step : ι → ρ → σ → τ → Option (σ × τ)) (c : Config ι σ τ) : List (ι × ρ) → Option (Config ι σ τ)
  | [] => some c
  | (i,r) :: rest =>
    match step i r c.shared (c.thread i) with
    | some (s,t) => follow step ⟨s,Function.update c.thread i t⟩ rest
    | none => none

/-- A schedule that can be followed is a run. -/
theorem follow_runs {ρ : Type*} {step : ι → ρ → σ → τ → Option (σ × τ)} {schedule : List (ι × ρ)}
    (followed : follow step c schedule = some d) : Runs (fun i s t s' t' => ∃ r, step i r s t = some (s',t')) c d := by
  induction schedule generalizing c with
  | nil =>
    cases followed
    exact .refl
  | cons turn rest ih =>
    obtain ⟨i,r⟩ := turn
    rcases stepped : step i r c.shared (c.thread i) with _ | ⟨s,t⟩
    · simp [follow,stepped] at followed
    · simp only [follow,stepped] at followed
      exact .head (.mk ⟨r,stepped⟩) (ih followed)

/-! ### What the threads keep together -/

/-- What holds of the shared state, and what each thread knows of it. -/
structure Outlook (move : ι → σ → τ → σ → τ → Prop) (common : σ → Prop) (knows : ι → σ → τ → Prop) : Prop where
  own {i : ι} {s s' : σ} {t t' : τ} (moved : move i s t s' t') (before : common s) (mine : knows i s t) : knows i s' t'
  shared {i : ι} {s s' : σ} {t t' : τ} (moved : move i s t s' t') (before : common s) (mine : knows i s t) : common s'
  others {i j : ι} {s s' : σ} {t t' u : τ} (apart : j ≠ i) (moved : move i s t s' t') (before : common s)
    (mine : knows i s t) (theirs : knows j s u) : knows j s' u

variable {common : σ → Prop} {knows : ι → σ → τ → Prop}

theorem Outlook.step (outlook : Outlook move common knows) (stepped : Step move c d)
    (before : common c.shared ∧ ∀ i, knows i c.shared (c.thread i)) :
    common d.shared ∧ ∀ i, knows i d.shared (d.thread i) := by
  cases stepped with
  | @mk i s t moved =>
    refine ⟨outlook.shared moved before.1 (before.2 i),fun j => ?_⟩
    show knows j s (Function.update c.thread i t j)
    by_cases same : j = i
    · subst same
      rw [Function.update_self]
      exact outlook.own moved before.1 (before.2 j)
    · rw [Function.update_of_ne same]
      exact outlook.others same moved before.1 (before.2 i) (before.2 j)

/-- What the threads keep holds after any steps in any order. -/
theorem Outlook.kept (outlook : Outlook move common knows) (run : Runs move c d)
    (start : common c.shared ∧ ∀ i, knows i c.shared (c.thread i)) :
    common d.shared ∧ ∀ i, knows i d.shared (d.thread i) := by
  induction run with
  | refl => exact start
  | tail _ stepped ih => exact outlook.step stepped ih

end
end Interleavings
