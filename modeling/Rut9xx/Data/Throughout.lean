import Mathlib.Logic.Relation

namespace Rut9xx.Data

/-! # What holds of every state a run passes through -/

variable {State : Type} {step : State → State → Prop} {good other : State → Prop} {start : State}

def Throughout (step : State → State → Prop) (good : State → Prop) (start : State) : Prop :=
  ∀ visited, Relation.ReflTransGen step start visited → good visited

/-- The run from `start` is `start` and the runs from the states one step on. -/
theorem throughout_iff :
    Throughout step good start ↔
      good start ∧ ∀ next, step start next → Throughout step good next := by
  constructor
  · intro always
    refine ⟨always start Relation.ReflTransGen.refl, ?_⟩
    intro next taken visited onward
    exact always visited (Relation.ReflTransGen.head taken onward)
  · intro split visited onward
    obtain ⟨here, later⟩ := split
    cases onward.cases_head with
    | inl same => exact same ▸ here
    | inr further =>
        obtain ⟨next, taken, onward⟩ := further
        exact later next taken visited onward

theorem throughout_of_stuck (stuck : ∀ next, ¬ step start next) :
    Throughout step good start ↔ good start := by
  rw [throughout_iff]
  constructor
  · intro split
    exact split.1
  · intro here
    exact ⟨here, fun next taken => absurd taken (stuck next)⟩

/-- With one way on, there is one run to follow. -/
theorem throughout_of_step {next : State} (taken : step start next)
    (only : ∀ other, step start other → other = next) :
    Throughout step good start ↔ good start ∧ Throughout step good next := by
  rw [throughout_iff]
  constructor
  · intro split
    exact ⟨split.1, split.2 next taken⟩
  · intro split
    refine ⟨split.1, ?_⟩
    intro other onward
    rw [only other onward]
    exact split.2

end Rut9xx.Data
