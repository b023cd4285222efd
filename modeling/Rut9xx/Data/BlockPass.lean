import Rut9xx.Data.Memory
import Mathlib.Data.List.Basic
import Mathlib.Data.List.OfFn
import Mathlib.Tactic.Ring

namespace Rut9xx.Data

/-! # Machines that turn a stream into another, element by element -/

section

variable {State α β : Type} {step : State → α → β × State} {back : State → β → α × State}
  {state : State} {input front : List α}

def transduce (step : State → α → β × State) (state : State) : List α → List β × State
  | [] => ([], state)
  | element :: rest =>
      let (out, next) := step state element
      let (outs, last) := transduce step next rest
      (out :: outs, last)

@[simp] theorem transduce_length : (transduce step state input).1.length = input.length := by
  induction input generalizing state with
  | nil => rfl
  | cons element rest ih => rw [transduce, List.length_cons, List.length_cons, ih]

/-- A stream may be fed in pieces, as long as the state is kept between them. -/
theorem transduce_append : transduce step state (front ++ input) =
    ((transduce step state front).1 ++ (transduce step (transduce step state front).2 input).1,
      (transduce step (transduce step state front).2 input).2) := by
  induction front generalizing state with
  | nil => rfl
  | cons element rest ih => simp only [List.cons_append, transduce, ih]

/-- A machine whose steps undo those of another, and that goes through the same states, undoes
its runs. -/
theorem transduce_back
    (undoes : ∀ state element, back state (step state element).1 = (element, (step state element).2)) :
    transduce back state (transduce step state input).1 =
      (input, (transduce step state input).2) := by
  induction input generalizing state with
  | nil => rfl
  | cons element rest ih => simp only [transduce, undoes, ih]

end

/-! # Passes over memory, one block after the other in place -/

section

abbrev Block (size : Nat) (α : Type) := Fin size → α

variable {α : Type} {size count place address index : Nat} {f g : Block size α → Block size α}
  {memory other : Memory α}

def readBlock (size : Nat) (memory : Memory α) (place : Nat) : Block size α :=
  fun offset => memory (place + offset)

def onBlock (f : Block size α → Block size α) (place : Nat) (memory : Memory α) : Memory α :=
  store memory place (List.ofFn (f (readBlock size memory place)))

/-- The first of `count` blocks is at `place`. -/
def passBlocks (f : Block size α → Block size α) : Nat → Nat → Memory α → Memory α
  | 0, _, memory => memory
  | count + 1, place, memory => passBlocks f count (place + size) (onBlock f place memory)

theorem onBlock_inside (offset : Fin size) :
    onBlock f place memory (place + offset) = f (readBlock size memory place) offset := by
  rw [onBlock, store_inside (by rw [List.length_ofFn]; exact offset.isLt), List.getElem_ofFn]

theorem onBlock_outside (outside : address < place ∨ place + size ≤ address) :
    onBlock f place memory address = memory address :=
  store_outside (by rw [List.length_ofFn]; exact outside)

theorem passBlocks_outside (outside : address < place ∨ place + count * size ≤ address) :
    passBlocks f count place memory address = memory address := by
  induction count generalizing place memory with
  | zero => rfl
  | succ count ih =>
      rw [Nat.succ_mul] at outside
      rw [passBlocks, ih (by omega), onBlock_outside (by omega)]

/-- Every block is the function's value at what it was before the pass. -/
theorem passBlocks_inside (inside : index < count) (offset : Fin size) :
    passBlocks f count place memory (place + index * size + offset) =
      f (readBlock size memory (place + index * size)) offset := by
  induction count generalizing place memory index with
  | zero => exact absurd inside (Nat.not_lt_zero index)
  | succ count ih =>
      rw [passBlocks]
      cases index with
      | zero =>
          have within := offset.isLt
          rw [Nat.zero_mul, Nat.add_zero, passBlocks_outside (by omega), onBlock_inside]
      | succ index =>
          have behind : place + (index + 1) * size = place + size + index * size := by ring
          have untouched : readBlock size (onBlock f place memory) (place + size + index * size) =
              readBlock size memory (place + size + index * size) := by
            funext offset
            exact onBlock_outside (by omega)
          rw [behind, ih (by omega), untouched]

theorem readBlock_passBlocks (inside : index < count) :
    readBlock size (passBlocks f count place memory) (place + index * size) =
      f (readBlock size memory (place + index * size)) :=
  funext fun offset => passBlocks_inside inside offset

/-- The block that an address between the ends of a pass belongs to. -/
theorem block_of_inside (above : place ≤ address) (below : address < place + count * size) :
    ∃ index, index < count ∧ ∃ offset : Fin size, address = place + index * size + offset := by
  have positive : 0 < size := by
    rcases Nat.eq_zero_or_pos size with rfl | positive
    · rw [Nat.mul_zero] at below
      omega
    · exact positive
  have split := Nat.div_add_mod (address - place) size
  rw [Nat.mul_comm] at split
  refine ⟨(address - place) / size, ?_, ⟨(address - place) % size, Nat.mod_lt _ positive⟩, ?_⟩
  · rw [Nat.div_lt_iff_lt_mul positive]
    omega
  · simp only
    omega

/-- A pass with the inverse function undoes a pass. -/
theorem passBlocks_back (undoes : ∀ block, g (f block) = block) :
    passBlocks g count place (passBlocks f count place memory) = memory := by
  funext address
  by_cases inside : place ≤ address ∧ address < place + count * size
  · obtain ⟨index, within, offset, rfl⟩ := block_of_inside inside.1 inside.2
    rw [passBlocks_inside within, readBlock_passBlocks within, undoes]
    rfl
  · rw [passBlocks_outside (by omega), passBlocks_outside (by omega)]

/-- A pass reads its blocks and what it leaves alone. -/
theorem passBlocks_congr
    (same : ∀ address, place ≤ address ∧ address < place + count * size →
      memory address = other address) (here : memory address = other address) :
    passBlocks f count place memory address = passBlocks f count place other address := by
  by_cases inside : place ≤ address ∧ address < place + count * size
  · obtain ⟨index, within, offset, rfl⟩ := block_of_inside inside.1 inside.2
    have block : readBlock size memory (place + index * size) =
        readBlock size other (place + index * size) := by
      funext offset
      have last : (index + 1) * size ≤ count * size := Nat.mul_le_mul_right size within
      have short := offset.isLt
      rw [Nat.succ_mul] at last
      exact same _ (by omega)
    rw [passBlocks_inside within, passBlocks_inside within, block]
  · rw [passBlocks_outside (by omega), passBlocks_outside (by omega), here]

/-- The blocks that two passes with one function share come out the same. -/
theorem passBlocks_more {more : Nat} (fewer : count ≤ more) (below : address < place + count * size) :
    passBlocks f count place memory address = passBlocks f more place memory address := by
  by_cases above : place ≤ address
  · obtain ⟨index, within, offset, rfl⟩ := block_of_inside above below
    rw [passBlocks_inside within, passBlocks_inside (by omega)]
  · rw [passBlocks_outside (by omega), passBlocks_outside (by omega)]

/-- What a pass leaves in its first blocks depends on nothing behind them. -/
theorem passBlocks_front {more : Nat} (fewer : count ≤ more)
    (same : ∀ address, address < place + count * size → memory address = other address)
    (below : address < place + count * size) :
    passBlocks f count place memory address = passBlocks f more place other address := by
  rw [passBlocks_congr (fun address inside => same address inside.2) (same address below),
    passBlocks_more fewer below]

end

end Rut9xx.Data
