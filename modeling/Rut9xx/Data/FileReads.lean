import Rut9xx.Data.Buffer

namespace Rut9xx.Data

/-! # Files that are read from front to back, into buffers of a fixed size -/

section

variable {α : Type} {size count : Nat}

/-- What is still to be read; `eof` is set by a read that comes up short. -/
structure ReadStream where
  rest : List UInt8
  eof : Bool

def ReadStream.fread (count : Nat) (file : ReadStream) : List UInt8 × ReadStream :=
  (file.rest.take count, ⟨file.rest.drop count, file.eof || decide (file.rest.length < count)⟩)

/-- Behind the mark there is nothing. -/
def ReadStream.Settled (file : ReadStream) : Prop := file.eof = true → file.rest = []

variable {file : ReadStream}

@[simp] theorem ReadStream.fread_data : (file.fread count).1 = file.rest.take count := rfl

@[simp] theorem ReadStream.fread_rest : (file.fread count).2.rest = file.rest.drop count := rfl

theorem ReadStream.fread_settled (settled : file.Settled) : (file.fread count).2.Settled := by
  intro short
  rw [ReadStream.fread, Bool.or_eq_true, decide_eq_true_eq] at short
  rcases short with eof | short
  · rw [ReadStream.fread_rest, settled eof, List.drop_nil]
  · rw [ReadStream.fread_rest, List.drop_of_length_le (Nat.le_of_lt short)]

abbrev Cells (size : Nat) := { bytes : List UInt8 // bytes.length = size }

/-- Data laid over the front of a buffer; what does not fit is cut. -/
def Cells.fill (cells : Cells size) (data : List UInt8) : Cells size :=
  ⟨(data ++ cells.val.drop data.length).take size, by
    rw [List.length_take, List.length_append, List.length_drop, cells.property]
    omega⟩

end

/-! # Calls on a file that may fail

A read or a write may come up short, and a seek may leave the file where it is.
-/

section

/-- How much a call lets through at most; `none` is a call that does not fail. -/
abbrev Limit := Option Nat

def Limit.cut (limit : Limit) (count : Nat) : Nat := min count (limit.getD count)

/-- What a read of `count` bytes at `pos` gives. -/
def freadAt (file : List UInt8) (pos count : Nat) (limit : Limit) : List UInt8 :=
  slice file pos (limit.cut count)

def seekFrom (succeeds : Bool) (pos offset : Nat) : Nat := bif succeeds then pos + offset else pos

variable {file : List UInt8} {pos count more : Nat} {limit : Limit}

theorem Limit.cut_le : limit.cut count ≤ count := Nat.min_le_left _ _

@[simp] theorem freadAt_length : (freadAt file pos count limit).length =
    min (limit.cut count) (file.length - pos) := by
  rw [freadAt, slice, List.length_take, List.length_drop]

theorem freadAt_slice : slice file pos (freadAt file pos count limit).length =
    freadAt file pos count limit := by
  rw [freadAt_length, freadAt, slice, slice, ← List.length_drop, ← List.take_eq_take_min]

theorem slice_front : (slice file pos count).take more = slice file pos (min more count) := by
  rw [slice, slice, List.take_take]

theorem freadAt_whole_iff : (freadAt file pos count limit).length = count ↔
    limit.cut count = count ∧ (pos + count ≤ file.length ∨ count = 0) := by
  have := @Limit.cut_le count limit
  rw [freadAt_length]
  omega

end

end Rut9xx.Data
