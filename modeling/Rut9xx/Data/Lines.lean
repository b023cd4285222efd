import Mathlib.Data.List.Basic
import Mathlib.Data.UInt

namespace Rut9xx.Data

/-! # Lines printed into a buffer -/

/-- A buffer's text, and what `len += snprintf(buf + len, size - len, ...)` has counted. -/
structure Printed where
  text : List UInt8
  len : Nat

/-- What does not fit in front of the terminator is cut off, but counted. Behind the end of the
buffer the size that is left is negative: nothing is printed then, and nothing counted. -/
def snprintf (size : Nat) (out : Printed) (piece : List UInt8) : Printed :=
  if out.len ≤ size then
    { text := out.text ++ piece.take (size - out.len - 1), len := out.len + piece.length }
  else out

/-- The lines of a text, each up to a newline. What is behind the last newline is no line. -/
def linesOf (line : List UInt8) : List UInt8 → List (List UInt8)
  | [] => []
  | byte :: rest =>
      if byte = 0x0a then line :: linesOf [] rest else linesOf (line ++ [byte]) rest

def endLine (line : List UInt8) : List UInt8 := line ++ [0x0a]

variable {size count : Nat} {out : Printed} {piece whole line rest : List UInt8}
  {pieces lines : List (List UInt8)}

/-! ## Printing -/

/-- The buffer has what fits of the whole text. -/
structure Shows (size : Nat) (out : Printed) (whole : List UInt8) : Prop where
  text : out.text = whole.take (size - 1)
  inside : out.len < size → out.len = whole.length
  outside : size ≤ out.len → size ≤ whole.length

theorem Shows.snprintf (shows : Shows size out whole) (piece : List UInt8) :
    Shows size (snprintf size out piece) (whole ++ piece) := by
  rw [Data.snprintf]
  by_cases full : size ≤ out.len
  · have long := shows.outside full
    have same : (whole ++ piece).take (size - 1) = whole.take (size - 1) :=
      List.take_append_of_le_length (by omega)
    split
    · rw [show size - out.len - 1 = 0 by omega, List.take_zero, List.append_nil]
      exact ⟨shows.text.trans same.symm, fun below => absurd below (by simp only; omega), fun _ => by
        rw [List.length_append]
        omega⟩
    · exact ⟨shows.text.trans same.symm, fun below => absurd full (by omega), fun _ => by
        rw [List.length_append]
        omega⟩
  · have counted := shows.inside (by omega)
    rw [if_pos (by omega)]
    constructor
    · simp only
      rw [shows.text, List.take_append, List.take_of_length_le (by omega), counted,
        show size - whole.length - 1 = size - 1 - whole.length by omega]
    · intro below
      simp only at below
      rw [List.length_append, ← counted]
    · intro above
      simp only at above
      rw [List.length_append, ← counted]
      exact above

theorem foldl_snprintf_shows (shows : Shows size out whole) :
    Shows size (pieces.foldl (snprintf size) out) (whole ++ pieces.flatten) := by
  induction pieces generalizing out whole with
  | nil => simpa using shows
  | cons piece rest ih =>
      rw [List.foldl_cons, List.flatten_cons, ← List.append_assoc]
      exact ih (shows.snprintf piece)

/-- Of pieces printed one behind the other, the buffer has the front. -/
theorem foldl_snprintf_text :
    (pieces.foldl (snprintf size) ⟨[], 0⟩).text = pieces.flatten.take (size - 1) := by
  have start : Shows size ⟨[], 0⟩ [] := ⟨by simp, fun _ => rfl, fun full => full⟩
  exact (foldl_snprintf_shows start).text

/-! ## Lines -/

theorem linesOf_plain (plain : 0x0a ∉ rest) : linesOf line rest = [] := by
  induction rest generalizing line with
  | nil => rfl
  | cons byte rest ih =>
      rw [List.mem_cons, not_or] at plain
      rw [linesOf, if_neg fun same => plain.1 same.symm]
      exact ih plain.2

theorem linesOf_line (plain : 0x0a ∉ piece) (rest : List UInt8) :
    linesOf line (piece ++ 0x0a :: rest) = (line ++ piece) :: linesOf [] rest := by
  induction piece generalizing line with
  | nil =>
      rw [List.nil_append, List.append_nil, linesOf, if_pos rfl]
  | cons byte piece ih =>
      rw [List.mem_cons, not_or] at plain
      rw [List.cons_append, linesOf, if_neg fun same => plain.1 same.symm, ih plain.2, List.append_assoc,
        List.singleton_append]

/-- Of a text of lines that is cut off, the first lines are left; all of them only if nothing was
cut. -/
theorem linesOf_take (plain : ∀ line ∈ lines, 0x0a ∉ line) (count : Nat) :
    ∃ kept, linesOf [] ((lines.map endLine).flatten.take count) = lines.take kept ∧
      (lines.length ≤ kept ↔ (lines.map endLine).flatten.length ≤ count) := by
  induction lines generalizing count with
  | nil => exact ⟨0, by simp [linesOf], by simp⟩
  | cons line rest ih =>
      have here := plain line List.mem_cons_self
      rw [List.map_cons, List.flatten_cons, List.length_append, endLine, List.length_append,
        List.length_singleton]
      by_cases whole : line.length + 1 ≤ count
      · obtain ⟨kept, lines, all⟩ := ih (fun other member => plain other (List.mem_cons_of_mem line member))
          (count - (line.length + 1))
        refine ⟨kept + 1, ?_, ?_⟩
        · rw [List.take_append, List.take_of_length_le (by simpa using whole), List.length_append,
            List.length_singleton, List.append_assoc, List.singleton_append, linesOf_line here, lines,
            List.nil_append, List.take_succ_cons]
        · rw [List.length_cons]
          omega
      · refine ⟨0, ?_, ?_⟩
        · have cut : (line ++ [0x0a] ++ (rest.map endLine).flatten).take count = line.take count := by
            rw [List.append_assoc, List.take_append_of_le_length (by omega)]
          rw [cut, List.take_zero]
          exact linesOf_plain fun member => here (List.mem_of_mem_take member)
        · rw [List.length_cons]
          omega

end Rut9xx.Data
