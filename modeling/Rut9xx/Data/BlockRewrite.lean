import Rut9xx.Data.Buffer
import Rut9xx.Data.Memory
import Rut9xx.Data.FlashLog
import Mathlib.Logic.Function.Basic

namespace Rut9xx.Data

/-! # Rewriting an erase block from a changed copy of it

A block that is read, changed in memory, erased and programmed again ends up
as if the changes had been stored in place.
-/

variable {α : Type} {cells : Memory α} {start count place inner more : Nat} {data buffer after : List α}

/-- A read in an allocation, defined only inside it. -/
def readAt (buffer : List α) (offset count : Nat) : Option (List α) :=
  if offset + count ≤ buffer.length then some (slice buffer offset count) else none

theorem slice_load (within : inner + more ≤ count) :
    slice (load cells start count) inner more = load cells (start + inner) more := by
  apply List.ext_getElem?
  intro index
  rw [slice, load_getElem?]
  split
  · rename_i below
    rw [List.getElem?_take_of_lt below, List.getElem?_drop, load_getElem?, if_pos (by omega),
      Nat.add_assoc]
  · rename_i above
    exact List.getElem?_eq_none (by simp only [List.length_take]; omega)

theorem readAt_load : readAt (load cells start count) inner more =
    if inner + more ≤ count then some (load cells (start + inner) more) else none := by
  rw [readAt, load_length]
  split
  · rename_i within
    rw [slice_load within]
  · rfl

/-- A store into a copy gives the copy of a store. -/
theorem writeAt_load : writeAt (load cells start count) place data =
    if place + data.length ≤ count then some (load (store cells (start + place) data) start count)
    else none := by
  cases written : writeAt (load cells start count) place data with
  | none =>
      rw [writeAt, load_length] at written
      split at written
      · cases written
      · rename_i overrun
        rw [if_neg overrun]
  | some after =>
      have fits := writeAt_fits written
      rw [load_length] at fits
      rw [if_pos fits]
      congr 1
      apply List.ext_getElem?
      intro index
      rw [writeAt_getElem? written, load_getElem?, load_getElem?, laidAt]
      by_cases inside : place ≤ index ∧ index < place + data.length
      · rw [if_pos inside.1, if_pos (by omega), if_pos (by omega),
          List.getElem?_eq_getElem (by omega), Option.some_or]
        have stored := @store_inside α cells data (start + place) (index - place) (by omega)
        rw [show start + place + (index - place) = start + index by omega] at stored
        rw [stored]
      · have laid : (if place ≤ index then data[index - place]? else none) = none := by
          split
          · exact List.getElem?_eq_none (by omega)
          · rfl
        rw [laid, Option.none_or, store_outside (by omega)]

/-! ## On flash -/

variable {memory : FlashMemory} {slot : Slot} {size : Nat} {bytes : Memory UInt8}

theorem replay_fillSlot_load
    (same : ∀ place, place < slot.block * size ∨ slot.block * size + size ≤ place →
      bytes place = memory slot.dev place) :
    replay memory (fillSlot size slot (load bytes (slot.block * size) size)) =
      Function.update memory slot.dev bytes := by
  have refilled := @readSlot_fillSlot memory size slot _ (@load_length _ bytes (slot.block * size) size)
  funext dev place
  have touched : ∀ event ∈ fillSlot size slot (load bytes (slot.block * size) size),
      event.dev = slot.dev ∧ event.start = slot.block * size ∧ event.len = size := by
    intro event member
    simp only [fillSlot, List.mem_cons, List.not_mem_nil, or_false] at member
    rcases member with rfl | rfl
    · exact ⟨rfl, rfl, rfl⟩
    · exact ⟨rfl, rfl, load_length⟩
  by_cases onDev : dev = slot.dev
  · subst onDev
    rw [Function.update_self]
    by_cases inside : slot.block * size ≤ place ∧ place < slot.block * size + size
    · obtain ⟨index, rfl⟩ := Nat.exists_eq_add_of_le inside.1
      have here := congrArg (fun list => list[index]?) refilled
      simp only [readSlot] at here
      change (load (replay memory _ slot.dev) _ _)[index]? = _ at here
      rw [load_getElem?, load_getElem?, if_pos (by omega), if_pos (by omega)] at here
      exact Option.some.inj here
    · rw [same place (by omega)]
      refine replay_of_outside fun event member _ => ?_
      obtain ⟨-, startEq, lenEq⟩ := touched event member
      omega
  · rw [Function.update_of_ne onDev]
    refine replay_of_outside fun event member onIt => ?_
    exact absurd (onIt.symm.trans (touched event member).1) onDev

end Rut9xx.Data
