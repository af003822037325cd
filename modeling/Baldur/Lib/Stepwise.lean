import Mathlib.Data.List.Basic

/-!
Runs of a step function. What each step keeps, under a condition on the state it acts on, holds
along every run whose steps all meet the condition.
-/

namespace Stepwise

variable {σ ι : Type}

/-- Every move of the run meets the condition in the state it acts on. -/
def Always (step : σ → ι → σ) (side : σ → ι → Prop) : σ → List ι → Prop
  | _, [] => True
  | state, move :: rest => side state move ∧ Always step side (step state move) rest

variable {step : σ → ι → σ} {side : σ → ι → Prop} {inv : σ → Prop} {state : σ} {moves : List ι}

instance decidableAlways [∀ state move, Decidable (side state move)] (state : σ) :
    ∀ moves, Decidable (Always step side state moves)
  | [] => isTrue trivial
  | move :: rest =>
      have := decidableAlways (step state move) rest
      inferInstanceAs (Decidable (_ ∧ _))

theorem keeps (kept : ∀ state move, inv state → inv (step state move)) (holds : inv state)
    (moves : List ι) : inv (moves.foldl step state) := by
  induction moves generalizing state with
  | nil => exact holds
  | cons move rest ih => exact ih (kept state move holds)

theorem always_of (inv : σ → Prop) (kept : ∀ state move, inv state → inv (step state move))
    (meets : ∀ state move, inv state → side state move) (holds : inv state) : Always step side state moves := by
  induction moves generalizing state with
  | nil => trivial
  | cons move rest ih => exact ⟨meets state move holds, ih (kept state move holds)⟩

theorem always_append {first second : List ι} :
    Always step side state (first ++ second) ↔
      Always step side state first ∧ Always step side (first.foldl step state) second := by
  induction first generalizing state with
  | nil => simp [Always]
  | cons move rest ih => simp [Always, ih, and_assoc]

theorem always_under (inv : σ → Prop) {cond : σ → ι → Prop}
    (kept : ∀ state move, inv state → cond state move → inv (step state move))
    (meets : ∀ state move, inv state → cond state move → side state move) (holds : inv state)
    (run : Always step cond state moves) : Always step side state moves := by
  induction moves generalizing state with
  | nil => trivial
  | cons move rest ih => exact ⟨meets state move holds run.1, ih (kept state move holds run.1) run.2⟩

/-- A goal that a step keeps exactly under a condition holds after a run exactly when every move met it. -/
theorem goal_iff {goal : σ → Prop} (kept : ∀ state move, inv state → inv (step state move))
    (exact : ∀ state move, inv state → (goal (step state move) ↔ goal state ∧ side state move))
    (holds : inv state) : goal (moves.foldl step state) ↔ goal state ∧ Always step side state moves := by
  induction moves generalizing state with
  | nil => simp [Always]
  | cons move rest ih => rw [List.foldl_cons, ih (kept state move holds), exact state move holds, and_assoc, Always]

theorem always_congr (inv : σ → Prop) {other : σ → ι → Prop}
    (agree : ∀ state move, inv state → (side state move ↔ other state move))
    (kept : ∀ state move, inv state → other state move → inv (step state move)) (holds : inv state) :
    Always step side state moves ↔ Always step other state moves := by
  induction moves generalizing state with
  | nil => rfl
  | cons move rest ih =>
    rw [Always, Always, agree state move holds]
    exact and_congr_right fun meets => ih (kept state move holds meets)

end Stepwise
