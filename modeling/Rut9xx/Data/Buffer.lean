import Mathlib.Data.List.Basic

namespace Rut9xx.Data

/-! # Bounded writes into a byte buffer

`writeAt` is a `memcpy` into an allocation: it is defined only when the bytes
fit, so a program that writes past its buffer has no result.
-/

variable {α : Type} {buffer after data : List α} {offset start count : Nat}

def writeAt (buffer : List α) (offset : Nat) (data : List α) : Option (List α) :=
  if offset + data.length ≤ buffer.length then
    some (buffer.take offset ++ data ++ buffer.drop (offset + data.length))
  else none

/-- The `count` elements from `start` on, fewer if the list ends before. -/
def slice (buffer : List α) (start count : Nat) : List α := (buffer.drop start).take count

theorem writeAt_some_iff :
    writeAt buffer offset data = some after ↔
      offset + data.length ≤ buffer.length ∧
        buffer.take offset ++ data ++ buffer.drop (offset + data.length) = after := by
  unfold writeAt
  split
  · rename_i fits
    simp [fits]
  · rename_i overrun
    simp [overrun]

theorem writeAt_fits (written : writeAt buffer offset data = some after) :
    offset + data.length ≤ buffer.length := (Iff.mp writeAt_some_iff written).1

theorem writeAt_exists (fits : offset + data.length ≤ buffer.length) :
    ∃ after, writeAt buffer offset data = some after :=
  ⟨_, Iff.mpr writeAt_some_iff ⟨fits, rfl⟩⟩

theorem writeAt_length (written : writeAt buffer offset data = some after) :
    after.length = buffer.length := by
  obtain ⟨fits, rfl⟩ := Iff.mp writeAt_some_iff written
  simp only [List.length_append, List.length_take, List.length_drop]
  omega

theorem writeAt_take (written : writeAt buffer offset data = some after) (below : count ≤ offset) :
    after.take count = buffer.take count := by
  obtain ⟨fits, rfl⟩ := Iff.mp writeAt_some_iff written
  rw [List.append_assoc, List.take_append_of_le_length (by simp; omega), List.take_take,
    Nat.min_eq_left below]

theorem writeAt_drop (written : writeAt buffer offset data = some after)
    (above : offset + data.length ≤ start) : after.drop start = buffer.drop start := by
  obtain ⟨fits, rfl⟩ := Iff.mp writeAt_some_iff written
  have front : (buffer.take offset ++ data).length = offset + data.length := by
    simp only [List.length_append, List.length_take]
    omega
  rw [List.drop_append, List.drop_of_length_le (by omega), List.nil_append, List.drop_drop, front,
    Nat.add_sub_cancel' above]

theorem slice_writeAt (written : writeAt buffer offset data = some after) :
    slice after offset data.length = data := by
  obtain ⟨fits, rfl⟩ := Iff.mp writeAt_some_iff written
  have front : (buffer.take offset).length = offset := by
    simp only [List.length_take]
    omega
  simp only [slice, List.append_assoc]
  rw [List.drop_append_of_le_length (by omega), List.drop_of_length_le (by omega),
    List.nil_append, List.take_left]

theorem slice_writeAt_before (written : writeAt buffer offset data = some after)
    (below : start + count ≤ offset) : slice after start count = slice buffer start count := by
  have same := congrArg (List.drop start) (writeAt_take written below)
  simpa only [slice, List.drop_take, Nat.add_sub_cancel_left] using same

theorem slice_writeAt_after (written : writeAt buffer offset data = some after)
    (above : offset + data.length ≤ start) : slice after start count = slice buffer start count := by
  rw [slice, writeAt_drop written above, slice]

/-- The element that `data`, laid down at `offset`, has at `place`. -/
def laidAt (offset : Nat) (data : List α) (place : Nat) : Option α :=
  if offset ≤ place then data[place - offset]? else none

theorem laidAt_eq_none_iff {place : Nat} :
    laidAt offset data place = none ↔ place < offset ∨ offset + data.length ≤ place := by
  unfold laidAt
  split
  · rw [List.getElem?_eq_none_iff]
    omega
  · simp only [true_iff]
    omega

/-- A write shows where it reaches, the buffer elsewhere. -/
theorem writeAt_getElem? (written : writeAt buffer offset data = some after) (place : Nat) :
    after[place]? = (laidAt offset data place).or buffer[place]? := by
  obtain ⟨fits, rfl⟩ := Iff.mp writeAt_some_iff written
  have front : (buffer.take offset).length = offset := by
    simp only [List.length_take]
    omega
  unfold laidAt
  by_cases below : place < offset
  · rw [if_neg (by omega), Option.none_or, List.append_assoc,
      List.getElem?_append_left (by omega), List.getElem?_take_of_lt below]
  · rw [if_pos (by omega), List.append_assoc, List.getElem?_append_right (by omega), front]
    by_cases inside : place - offset < data.length
    · rw [List.getElem?_append_left inside, List.getElem?_eq_getElem inside, Option.some_or]
    · have missing : data[place - offset]? = none := List.getElem?_eq_none (by omega)
      rw [List.getElem?_append_right (by omega), missing, Option.none_or, List.getElem?_drop]
      congr 1
      omega

theorem slice_eq_iff :
    slice buffer start data.length = data ↔
      ∀ index, index < data.length → buffer[start + index]? = data[index]? := by
  constructor
  · intro same index below
    have here := congrArg (fun list => list[index]?) same
    simpa only [slice, List.getElem?_take_of_lt below, List.getElem?_drop] using here
  · intro same
    apply List.ext_getElem?
    intro index
    by_cases below : index < data.length
    · rw [slice, List.getElem?_take_of_lt below, List.getElem?_drop, same index below]
    · rw [List.getElem?_eq_none (by simp only [slice, List.length_take]; omega),
        List.getElem?_eq_none (by omega)]

theorem slice_add (start count more : Nat) :
    slice buffer start (count + more) =
      slice buffer start count ++ slice buffer (start + count) more := by
  rw [slice, slice, slice, List.take_add, List.drop_drop]

theorem slice_slice {inner more : Nat} (within : inner + more ≤ count) :
    slice (slice buffer start count) inner more = slice buffer (start + inner) more := by
  rw [slice, slice, slice, List.drop_take, List.take_take, List.drop_drop, Nat.min_eq_left (by omega)]

/-- Cutting the tail off does not change a slice that ends before the cut. -/
theorem slice_take (within : start + count ≤ offset) :
    slice (buffer.take offset) start count = slice buffer start count := by
  rw [slice, slice, List.drop_take, List.take_take, Nat.min_eq_left (by omega)]

/-- A slice of a prefix is a slice of the whole. -/
theorem slice_append_left (within : start + count ≤ buffer.length) :
    slice (buffer ++ data) start count = slice buffer start count := by
  rw [slice, slice, List.drop_append_of_le_length (by omega),
    List.take_append_of_le_length (by simp only [List.length_drop]; omega)]

end Rut9xx.Data
