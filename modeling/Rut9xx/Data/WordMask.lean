import Mathlib.Data.UInt

namespace Rut9xx.Data

/-! # Masks that are set and cleared in a word -/

section

variable {word other mask set clear : UInt32}

theorem word_ext (same : ∀ bit (_ : bit < 32), word.toBitVec[bit] = other.toBitVec[bit]) : word = other :=
  UInt32.eq_of_toBitVec_eq (BitVec.eq_of_getElem_eq same)

theorem bit_of_eq (same : word = other) {bit : Nat} (below : bit < 32) :
    word.toBitVec[bit] = other.toBitVec[bit] := by
  rw [same]

theorem and_masked (off : word &&& mask = 0) : word &&& other &&& mask = 0 := by
  rw [UInt32.and_assoc, UInt32.and_comm other, ← UInt32.and_assoc, off, UInt32.zero_and]

theorem or_masked (off : other &&& mask = 0) : (word ||| other) &&& mask = word &&& mask := by
  refine word_ext fun bit below => ?_
  have off := bit_of_eq off below
  simp only [UInt32.toBitVec_and, UInt32.toBitVec_or, BitVec.getElem_and, BitVec.getElem_or,
    UInt32.toBitVec_ofNat, BitVec.getElem_zero] at off ⊢
  rw [Bool.and_or_distrib_right, off, Bool.or_false]

theorem set_masked (apart : set &&& clear = 0) : (word ||| set) &&& ~~~clear &&& set = set := by
  refine word_ext fun bit below => ?_
  have apart := bit_of_eq apart below
  simp only [UInt32.toBitVec_and, UInt32.toBitVec_or, UInt32.toBitVec_not, BitVec.getElem_and,
    BitVec.getElem_or, BitVec.getElem_not, UInt32.toBitVec_ofNat, BitVec.getElem_zero] at apart ⊢
  grind

/-- One mask set and another cleared, and back. -/
theorem set_restored (off : word &&& set = 0) (on : word &&& clear = clear) :
    (word ||| set) &&& ~~~clear &&& ~~~set ||| clear = word := by
  refine word_ext fun bit below => ?_
  have off := bit_of_eq off below
  have on := bit_of_eq on below
  simp only [UInt32.toBitVec_and, UInt32.toBitVec_or, UInt32.toBitVec_not, BitVec.getElem_and,
    BitVec.getElem_or, BitVec.getElem_not, UInt32.toBitVec_ofNat, BitVec.getElem_zero] at off on ⊢
  grind

end

end Rut9xx.Data
