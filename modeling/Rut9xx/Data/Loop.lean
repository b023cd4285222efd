import Mathlib.Data.Fintype.Pigeonhole
import Mathlib.Data.Nat.Find
import Mathlib.Logic.Relation
import Mathlib.Order.WellFounded

namespace Rut9xx.Data

/-! # Walks that end

A walk takes steps of `next` until there is none.  Among finitely many places it
ends exactly when it never comes back to one.
-/

section

open Relation

variable {Place : Type} {next : Place → Place → Prop} {start place : Place}

/-- Every walk from `start` ends. -/
def Ends (next : Place → Place → Prop) (start : Place) : Prop := Acc (flip next) start

/-- A place that the walk leaves and comes back to. -/
def Returns (next : Place → Place → Prop) (place : Place) : Prop := TransGen next place place

theorem Ends.of_reach (ends : Ends next start) (reached : ReflTransGen next start place) :
    Ends next place := by
  induction reached with
  | refl => exact ends
  | tail _ step ih => exact ih.inv step

theorem Ends.not_returns (ends : Ends next start) : ¬ Returns next start := by
  intro loop
  have walk : Acc (TransGen (flip next)) start := ends.transGen
  induction walk with
  | intro place _ ih =>
      have back : TransGen (flip next) place place := transGen_swap.mpr loop
      exact ih place back ends loop

/-- A chain of steps joins its places. -/
theorem transGen_of_chain {chain : Nat → Place} (steps : ∀ index, next (chain index) (chain (index + 1)))
    {first : Nat} (count : Nat) : TransGen next (chain first) (chain (first + count + 1)) := by
  induction count with
  | zero => exact .single (steps first)
  | succ count ih => exact ih.tail (steps (first + count + 1))

theorem reflTransGen_of_chain {chain : Nat → Place}
    (steps : ∀ index, next (chain index) (chain (index + 1))) (count : Nat) :
    ReflTransGen next (chain 0) (chain count) := by
  induction count with
  | zero => exact .refl
  | succ count ih => exact ih.tail (steps count)

theorem ends_of_never_returns [Finite Place]
    (once : ∀ place, ReflTransGen next start place → ¬ Returns next place) : Ends next start := by
  unfold Ends
  by_contra endless
  obtain ⟨chain, rfl, steps⟩ := not_acc_iff_exists_descending_chain.mp endless
  obtain ⟨first, second, differ, same⟩ := Finite.exists_ne_map_eq_of_infinite chain
  have loops {low high : Nat} (below : low < high) (meets : chain low = chain high) : False := by
    obtain ⟨count, rfl⟩ := Nat.exists_eq_add_of_lt below
    have loop := @transGen_of_chain Place next chain steps low count
    rw [← meets] at loop
    exact once _ (reflTransGen_of_chain steps low) loop
  rcases Nat.lt_or_gt_of_ne differ with below | above
  · exact loops below same
  · exact loops above same.symm

theorem ends_iff_never_returns [Finite Place] :
    Ends next start ↔ ∀ place, ReflTransGen next start place → ¬ Returns next place :=
  ⟨fun ends _ reached => (ends.of_reach reached).not_returns, ends_of_never_returns⟩

end

/-! # Loops whose body can leave its memory

A round of the loop goes on with a new state, ends it with a result, or reads outside.
-/

section

open Relation

variable {State Result Other : Type} {body : State → Option (State ⊕ Result)} {start place : State}
  {fuel : Nat} {result : Result}

inductive Outcome (Result : Type) where
  | outside
  | endless
  | done (result : Result)
  deriving DecidableEq

def Outcome.bind (outcome : Outcome Result) (rest : Result → Outcome Other) : Outcome Other :=
  match outcome with
  | .outside => .outside
  | .endless => .endless
  | .done result => rest result

theorem Outcome.bind_done_iff {outcome : Outcome Result} {rest : Result → Outcome Other}
    {final : Other} : outcome.bind rest = .done final ↔
      ∃ result, outcome = .done result ∧ rest result = .done final := by
  cases outcome <;> simp [Outcome.bind]

def loop (body : State → Option (State ⊕ Result)) : Nat → State → Outcome Result
  | 0, _ => .endless
  | fuel + 1, state =>
      match body state with
      | none => .outside
      | some (.inl next) => loop body fuel next
      | some (.inr result) => .done result

theorem loop_succ : loop body (fuel + 1) start =
    match body start with
    | none => .outside
    | some (.inl next) => loop body fuel next
    | some (.inr result) => .done result := rfl

/-- From a state to the one that the body goes on with. -/
def Follows (body : State → Option (State ⊕ Result)) (state next : State) : Prop :=
  body state = some (.inl next)

theorem Follows.unique {first second : State} (left : Follows body start first)
    (right : Follows body start second) : first = second := by
  rw [Follows, left] at right
  cases right
  rfl

/-- No round from `start` on reads outside. -/
def NeverOutside (body : State → Option (State ⊕ Result)) (start : State) : Prop :=
  ∀ place, ReflTransGen (Follows body) start place → body place ≠ none

theorem loop_ended (done : loop body fuel start = .done result) :
    Ends (Follows body) start ∧ NeverOutside body start := by
  induction fuel generalizing start with
  | zero => cases done
  | succ fuel ih =>
      rw [loop_succ] at done
      cases round : body start with
      | none =>
          rw [round] at done
          cases done
      | some reached =>
          rw [round] at done
          cases reached with
          | inl next =>
              obtain ⟨ends, inside⟩ := ih done
              constructor
              · exact Acc.intro start fun other step => Follows.unique round step ▸ ends
              · intro place reached
                rcases ReflTransGen.cases_head reached with rfl | ⟨other, step, rest⟩
                · rw [round]
                  intro impossible
                  cases impossible
                · exact inside place (Follows.unique step round ▸ rest)
          | inr final =>
              have stopped (other : State) : ¬ Follows body start other := by
                intro step
                rw [Follows, round] at step
                cases step
              constructor
              · exact Acc.intro start fun other step => absurd step (stopped other)
              · intro place reached
                rcases ReflTransGen.cases_head reached with rfl | ⟨other, step, -⟩
                · rw [round]
                  intro impossible
                  cases impossible
                · exact absurd step (stopped other)

theorem loop_ends (ends : Ends (Follows body) start) (inside : NeverOutside body start) :
    ∃ fuel result, loop body fuel start = .done result := by
  induction ends with
  | intro start _ ih =>
      cases round : body start with
      | none => exact absurd round (inside start .refl)
      | some reached =>
          cases reached with
          | inl next =>
              obtain ⟨fuel, result, done⟩ := ih next round
                (fun place rest => inside place (.head round rest))
              exact ⟨fuel + 1, result, by simp only [loop_succ, round, done]⟩
          | inr final => exact ⟨1, final, by simp only [loop_succ, round]⟩

/-- Among finitely many states the loop ends exactly when it neither comes back to one nor reads
outside on its way. -/
theorem loop_ended_iff [Finite State] : (∃ fuel result, loop body fuel start = .done result) ↔
    (∀ place, ReflTransGen (Follows body) start place → ¬ Returns (Follows body) place) ∧
      NeverOutside body start := by
  constructor
  · intro ⟨fuel, result, done⟩
    obtain ⟨ends, inside⟩ := loop_ended done
    exact ⟨ends_iff_never_returns.mp ends, inside⟩
  · intro ⟨once, inside⟩
    exact loop_ends (ends_iff_never_returns.mpr once) inside

theorem loop_more (done : loop body fuel start = .done result) (extra : Nat) :
    loop body (fuel + extra) start = .done result := by
  induction fuel generalizing start with
  | zero => cases done
  | succ fuel ih =>
      rw [Nat.add_right_comm]
      rw [loop_succ] at done ⊢
      cases round : body start with
      | none =>
          rw [round] at done
          cases done
      | some reached =>
          rw [round] at done
          cases reached with
          | inl next => exact ih done
          | inr final => exact done

theorem loop_unique {other : Result} {more : Nat} (done : loop body fuel start = .done result)
    (again : loop body more start = .done other) : result = other := by
  have first := loop_more done more
  have second := loop_more again fuel
  rw [Nat.add_comm, second] at first
  cases first
  rfl

/-- What holds at the start and what the rounds keep holds of the result. -/
theorem loop_invariant {Inv : State → Prop} {Post : Result → Prop}
    (keeps : ∀ state next, Inv state → Follows body state next → Inv next)
    (ends : ∀ state result, Inv state → body state = some (.inr result) → Post result)
    (holds : Inv start) (done : loop body fuel start = .done result) : Post result := by
  induction fuel generalizing start with
  | zero => cases done
  | succ fuel ih =>
      rw [loop_succ] at done
      cases round : body start with
      | none =>
          rw [round] at done
          cases done
      | some reached =>
          rw [round] at done
          cases reached with
          | inl next => exact ih (keeps _ _ holds round) done
          | inr final =>
              cases done
              exact ends _ _ holds round

/-- A body that never reads outside and makes a measure smaller comes to an end. -/
theorem loop_terminates (measure : State → Nat) (inside : ∀ state, body state ≠ none)
    (smaller : ∀ state next, Follows body state next → measure next < measure state) :
    ∃ fuel result, loop body fuel start = .done result := by
  apply loop_ends
  · exact Subrelation.accessible (fun step => smaller _ _ step) ((InvImage.wf measure Nat.lt_wfRel.wf).apply start)
  · exact fun place _ => inside place

/-- A loop that comes back to where it is never ends. -/
theorem loop_endless (back : Follows body start start) (fuel : Nat) :
    loop body fuel start = .endless := by
  induction fuel with
  | zero => rfl
  | succ fuel ih =>
      rw [loop_succ, back]
      exact ih

end

/-! # A machine that is driven by an endless sequence of inputs

Some inputs move it on, others leave what is seen of it as it was.
-/

section

variable {State Input View : Type} {step : Input → State → State} {inputs : Nat → Input}
  {start : State} {view : State → View} {Good : State → Prop} {Ended : View → Prop}
  {Moves : Input → View → Prop} {smaller : View → View → Prop} {count later final : Nat}

def rounds (step : Input → State → State) (inputs : Nat → Input) (start : State) : Nat → State
  | 0 => start
  | count + 1 => step (inputs count) (rounds step inputs start count)

theorem rounds_good (kept : ∀ input state, Good state → Good (step input state)) (good : Good start)
    (count : Nat) : Good (rounds step inputs start count) := by
  induction count with
  | zero => exact good
  | succ count ih => exact kept _ _ ih

/-- Where an end has been reached, and where an input does not move, the view stays. -/
structure Stutters (step : Input → State → State) (view : State → View) (Ended : View → Prop)
    (Moves : Input → View → Prop) : Prop where
  ended : ∀ input state, Ended (view state) → view (step input state) = view state
  still : ∀ input state, ¬ Moves input (view state) → view (step input state) = view state

theorem Stutters.rounds_over (stutters : Stutters step view Ended Moves)
    (ended : Ended (view (rounds step inputs start count))) (behind : count ≤ later) :
    view (rounds step inputs start later) = view (rounds step inputs start count) := by
  induction later, behind using Nat.le_induction with
  | base => rfl
  | succ later _ ih => exact (stutters.ended _ _ (ih ▸ ended)).trans ih

theorem Stutters.rounds_still (stutters : Stutters step view Ended Moves) (behind : count ≤ later)
    (unmoved : ∀ round, count ≤ round → round < later →
      ¬ Moves (inputs round) (view (rounds step inputs start count))) :
    view (rounds step inputs start later) = view (rounds step inputs start count) := by
  induction later, behind using Nat.le_induction with
  | base => rfl
  | succ later behind ih =>
      have before := ih fun round low high => unmoved round low (Nat.lt_succ_of_lt high)
      have still := unmoved later behind (Nat.lt_succ_self later)
      rw [← before] at still
      exact (stutters.still _ _ still).trans before

/-- Up to the first input that moves it, the machine stays. -/
theorem Stutters.first_move (stutters : Stutters step view Ended Moves)
    (moved : ∃ later, count ≤ later ∧ Moves (inputs later) (view (rounds step inputs start count))) :
    ∃ later, count ≤ later ∧
      view (rounds step inputs start later) = view (rounds step inputs start count) ∧
      Moves (inputs later) (view (rounds step inputs start later)) := by
  classical
  obtain ⟨behind, moves⟩ := Nat.find_spec moved
  have same := stutters.rounds_still behind fun round low high moves =>
    Nat.find_min moved high ⟨low, moves⟩
  refine ⟨Nat.find moved, behind, same, ?_⟩
  rw [same]
  exact moves

/-- A machine that comes to an end is moved on wherever it is before. -/
theorem Stutters.moves_of_ends (stutters : Stutters step view Ended Moves)
    (ends : Ended (view (rounds step inputs start final)))
    (running : ¬ Ended (view (rounds step inputs start count))) :
    ∃ later, count ≤ later ∧ Moves (inputs later) (view (rounds step inputs start count)) := by
  by_contra unmoved
  rcases Nat.le_total count final with before | behind
  · have same := stutters.rounds_still before fun round low _ moves => unmoved ⟨round, low, moves⟩
    exact running (same ▸ ends)
  · exact running ((stutters.rounds_over ends behind).symm ▸ ends)

/-- A machine that is always moved on, to something smaller, comes to an end. -/
theorem Stutters.ends_of_moves (stutters : Stutters step view Ended Moves)
    (wellFounded : WellFounded smaller)
    (kept : ∀ input state, Good state → Good (step input state)) (good : Good start)
    (onward : ∀ input state, Good state → ¬ Ended (view state) → Moves input (view state) →
      smaller (view (step input state)) (view state))
    (moved : ∀ count, ¬ Ended (view (rounds step inputs start count)) →
      ∃ later, count ≤ later ∧ Moves (inputs later) (view (rounds step inputs start count))) :
    ∃ count, Ended (view (rounds step inputs start count)) := by
  have each : ∀ seen count, view (rounds step inputs start count) = seen →
      ∃ final, Ended (view (rounds step inputs start final)) := by
    intro seen
    induction seen using wellFounded.induction with
    | _ seen ih =>
        intro count same
        by_cases ended : Ended (view (rounds step inputs start count))
        · exact ⟨count, ended⟩
        · obtain ⟨later, -, stays, moves⟩ := stutters.first_move (moved count ended)
          refine ih _ ?_ (later + 1) rfl
          rw [← same, ← stays]
          exact onward _ _ (rounds_good kept good later) (stays ▸ ended) moves
  exact each _ 0 rfl

end

end Rut9xx.Data
