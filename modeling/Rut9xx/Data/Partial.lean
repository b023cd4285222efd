import Mathlib.Data.Option.Basic
import Mathlib.Data.List.Forall2

namespace Rut9xx.Data

/-! # Computations that may not complete -/

/-- An error return, taken when `condition` fails. -/
def require (condition : Bool) : Option Unit := if condition then some () else none

@[simp] theorem require_eq_some {condition : Bool} {done : Unit} :
    require condition = some done ↔ condition = true := by
  cases condition <;> simp [require]

theorem bind_eq_ok {Error Middle Result : Type} {first : Except Error Middle}
    {next : Middle → Except Error Result} {result : Result} :
    first >>= next = .ok result ↔ ∃ middle, first = .ok middle ∧ next middle = .ok result := by
  cases first with
  | error error =>
      constructor
      · intro impossible
        cases impossible
      · rintro ⟨middle, impossible, -⟩
        cases impossible
  | ok middle =>
      constructor
      · intro done
        exact ⟨middle, rfl, done⟩
      · rintro ⟨middle, same, done⟩
        cases same
        exact done

theorem toOption_eq_some {Error Result : Type} {call : Except Error Result} {result : Result} :
    call.toOption = some result ↔ call = .ok result := by
  cases call <;> simp [Except.toOption]

theorem mapM_eq_some_iff {α β : Type} {f : α → Option β} {g : α → β} {items : List α} :
    items.mapM f = some (items.map g) ↔ ∀ item ∈ items, f item = some (g item) := by
  induction items with
  | nil => simp
  | cons item rest ih =>
      rw [List.mapM_cons, List.map_cons, List.forall_mem_cons, ← ih]
      cases f item with
      | none => simp
      | some value =>
          cases rest.mapM f with
          | none => simp
          | some values => simp

theorem forall₂_of_mapM {α β : Type} {f : α → Option β} {items : List α} {results : List β}
    (done : items.mapM f = some results) :
    List.Forall₂ (fun item result => f item = some result) items results := by
  induction items generalizing results with
  | nil =>
      cases done
      exact List.Forall₂.nil
  | cons item rest ih =>
      rw [List.mapM_cons] at done
      obtain ⟨result, first, done⟩ := Option.bind_eq_some_iff.mp done
      obtain ⟨others, later, done⟩ := Option.bind_eq_some_iff.mp done
      cases done
      exact List.Forall₂.cons first (ih later)

/-! ## Runs -/

variable {State Event : Type} {step : State → Event → Option State}

def run (step : State → Event → Option State) (state : State) : List Event → Option State
  | [] => some state
  | event :: rest => (step state event).bind fun next => run step next rest

/-- Every step from a good state completes in a good state, so every run does. -/
theorem run_invariant (Good : State → Prop) (Allowed : Event → Prop) {state : State}
    {events : List Event} (good : Good state) (allowed : ∀ event ∈ events, Allowed event)
    (preserved : ∀ state event, Good state → Allowed event →
      ∃ next, step state event = some next ∧ Good next) :
    ∃ final, run step state events = some final ∧ Good final := by
  induction events generalizing state with
  | nil => exact ⟨state, rfl, good⟩
  | cons event rest ih =>
      obtain ⟨next, stepped, goodNext⟩ := preserved state event good (allowed event (by simp))
      obtain ⟨final, ran, goodFinal⟩ :=
        ih goodNext fun other member => allowed other (List.mem_cons_of_mem _ member)
      refine ⟨final, ?_, goodFinal⟩
      rw [run, stepped]
      exact ran

/-- What each step keeps, a run keeps. -/
theorem run_keeps {Kept : State → Prop} {state final : State} {events : List Event}
    (stepped : ∀ state event next, Kept state → step state event = some next → Kept next)
    (kept : Kept state) (ran : run step state events = some final) : Kept final := by
  induction events generalizing state with
  | nil =>
      cases ran
      exact kept
  | cons event rest ih =>
      obtain ⟨next, taken, onward⟩ := Option.bind_eq_some_iff.mp ran
      exact ih (stepped state event next kept taken) onward

/-- Each step of the run is taken where `fine` allows it. -/
def EveryStep (step : State → Event → Option State) (fine : State → Event → Prop) (state : State) :
    List Event → Prop
  | [] => True
  | event :: rest =>
      fine state event ∧ ∀ next, step state event = some next → EveryStep step fine next rest

/-- What each step keeps that is fine, a run of such steps keeps. -/
theorem run_keeps_fine {Kept : State → Prop} {fine : State → Event → Prop} {state final : State}
    {events : List Event}
    (stepped : ∀ state event next, Kept state → fine state event → step state event = some next →
      Kept next)
    (kept : Kept state) (careful : EveryStep step fine state events)
    (ran : run step state events = some final) : Kept final := by
  induction events generalizing state with
  | nil =>
      cases ran
      exact kept
  | cons event rest ih =>
      obtain ⟨next, taken, onward⟩ := Option.bind_eq_some_iff.mp ran
      obtain ⟨here, later⟩ := careful
      exact ih (stepped state event next kept here taken) (later next taken) onward

/-- Where a step stays good if and only if it is fine, so does a run. -/
theorem run_iff_everyStep {Kept Good : State → Prop} {fine : State → Event → Prop}
    {state final : State} {events : List Event}
    (stepped : ∀ state event next, Kept state → step state event = some next →
      Kept next ∧ (Good next ↔ Good state ∧ fine state event))
    (kept : Kept state) (ran : run step state events = some final) :
    Good final ↔ Good state ∧ EveryStep step fine state events := by
  induction events generalizing state with
  | nil =>
      cases ran
      simp [EveryStep]
  | cons event rest ih =>
      obtain ⟨next, taken, onward⟩ := Option.bind_eq_some_iff.mp ran
      obtain ⟨keptNext, here⟩ := stepped state event next kept taken
      have later := ih keptNext onward
      have once : (∀ other, step state event = some other → EveryStep step fine other rest) ↔
          EveryStep step fine next rest := by
        simp [taken]
      rw [later, here, EveryStep, once]
      exact and_assoc

end Rut9xx.Data
