import Mathlib.Data.Nat.Bitwise
import Mathlib.Logic.Function.Basic

namespace Rut9xx.Data

/-! # Fields packed into a word -/

section

variable {shift width otherShift otherWidth size word value other : Nat}

/-- `(word >> shift) & mask`, with a mask of `width` bits. -/
def getField (shift width word : Nat) : Nat := (word >>> shift) &&& (2 ^ width - 1)

/-- `(value & mask) << shift` -/
def putField (shift width value : Nat) : Nat := (value &&& (2 ^ width - 1)) <<< shift

theorem testBit_getField (index : Nat) :
    (getField shift width word).testBit index =
      (decide (index < width) && word.testBit (shift + index)) := by
  rw [getField, Nat.testBit_and, Nat.testBit_shiftRight, Nat.testBit_two_pow_sub_one, Bool.and_comm]

theorem testBit_putField (index : Nat) :
    (putField shift width value).testBit index =
      (decide (shift ≤ index) && (value.testBit (index - shift) && decide (index - shift < width))) := by
  rw [putField, Nat.testBit_shiftLeft, Nat.testBit_and, Nat.testBit_two_pow_sub_one]

theorem getField_lt : getField shift width word < 2 ^ width :=
  Nat.and_lt_two_pow _ (Nat.sub_lt (Nat.two_pow_pos width) Nat.one_pos)

theorem getField_or :
    getField shift width (word ||| other) = getField shift width word ||| getField shift width other := by
  rw [getField, getField, getField, Nat.shiftRight_or_distrib, Nat.and_or_distrib_right]

/-- A field reads back the low bits of what was put into it. -/
theorem getField_putField :
    getField shift width (putField shift width value) = getField 0 width value := by
  apply Nat.eq_of_testBit_eq
  intro index
  rw [testBit_getField, testBit_getField, testBit_putField, Nat.add_sub_cancel_left, Nat.zero_add]
  by_cases inside : index < width
  · simp [inside]
  · simp [inside]

theorem getField_of_lt (fits : value < 2 ^ width) : getField 0 width value = value := by
  rw [getField, Nat.shiftRight_zero, Nat.and_two_pow_sub_one_eq_mod, Nat.mod_eq_of_lt fits]

/-- Another field is not seen. -/
theorem getField_putField_of_disjoint
    (disjoint : shift + width ≤ otherShift ∨ otherShift + otherWidth ≤ shift) :
    getField shift width (putField otherShift otherWidth value) = 0 := by
  apply Nat.eq_of_testBit_eq
  intro index
  rw [testBit_getField, testBit_putField, Nat.zero_testBit]
  by_cases inside : index < width
  · rcases disjoint with below | above
    · have outside : ¬ otherShift ≤ shift + index := by omega
      simp [outside]
    · have outside : ¬ shift + index - otherShift < otherWidth := by omega
      simp [outside]
  · simp [inside]

/-- A register of `size` bits holds every field that ends in it. -/
theorem getField_mod (ends : shift + width ≤ size) :
    getField shift width (word % 2 ^ size) = getField shift width word := by
  apply Nat.eq_of_testBit_eq
  intro index
  rw [testBit_getField, testBit_getField, Nat.testBit_mod_two_pow]
  by_cases inside : index < width
  · have low : shift + index < size := by omega
    simp [low]
  · simp [inside]

/-- A value split in two, the low part first. -/
theorem getField_or_shiftLeft : getField 0 width value ||| value >>> width <<< width = value := by
  apply Nat.eq_of_testBit_eq
  intro index
  rw [Nat.testBit_or, Nat.testBit_shiftLeft, testBit_getField, Nat.testBit_shiftRight, Nat.zero_add]
  by_cases low : index < width
  · simp [low, Nat.not_le_of_lt low]
  · have split : width + (index - width) = index := by omega
    simp [low, Nat.le_of_not_lt low, split]

end

/-! # Sets of small numbers as bits of a word -/

section

variable {w : Nat} {word mask bits : BitVec w} {index other : Nat}

/-- `1 << index` -/
def bit (w index : Nat) : BitVec w := 1#w <<< index

theorem getLsbD_bit : (bit w index).getLsbD other = (decide (index < w) && decide (index = other)) := by
  rw [bit, ← BitVec.twoPow_eq, BitVec.getLsbD_twoPow]

theorem getLsbD_bit_self (inside : index < w) : (bit w index).getLsbD index = true := by
  rw [getLsbD_bit, decide_eq_true inside, decide_eq_true rfl, Bool.and_true]

theorem getLsbD_insert (inside : index < w) :
    (word ||| bit w index).getLsbD other = (word.getLsbD other || decide (index = other)) := by
  rw [BitVec.getLsbD_or, getLsbD_bit, decide_eq_true inside, Bool.true_and]

theorem getLsbD_erase :
    (word &&& ~~~bit w index).getLsbD other = (word.getLsbD other && !decide (index = other)) := by
  rw [BitVec.getLsbD_and, BitVec.getLsbD_not, getLsbD_bit]
  by_cases inside : other < w
  · rw [decide_eq_true inside, Bool.true_and]
    by_cases same : index = other
    · subst same
      rw [decide_eq_true inside, Bool.true_and]
    · rw [decide_eq_false same, Bool.and_false]
  · rw [BitVec.getLsbD_of_ge _ _ (Nat.le_of_not_lt inside), Bool.false_and, Bool.false_and]

/-- A register read, changed under a mask and written. -/
def rmw (word mask bits : BitVec w) : BitVec w := word &&& ~~~mask ||| bits

/-- A bit under the mask is the new one. -/
theorem getLsbD_rmw (masked : mask.getLsbD index = true) :
    (rmw word mask bits).getLsbD index = bits.getLsbD index := by
  rw [rmw, BitVec.getLsbD_or, BitVec.getLsbD_and, BitVec.getLsbD_not, masked]
  simp

end

end Rut9xx.Data
