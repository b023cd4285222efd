import Mathlib.Data.UInt

namespace Rut9xx.Data

/-! # Rounding up to a boundary in 32-bit arithmetic -/

/-- `((x) + a - 1) & ~(a - 1)` on `uint32_t`, for any `a`. -/
def alignUp (x a : UInt32) : UInt32 := (x + a - 1) &&& ~~~(a - 1)

/-- Masking with `m` and with its complement splits a word in two summands. -/
theorem toNat_and_add_and_not (v m : UInt32) :
    (v &&& m).toNat + (v &&& ~~~m).toNat = v.toNat := by
  have disjoint : (v &&& m).toBitVec &&& (v &&& ~~~m).toBitVec = 0#32 := by
    ext i
    simp
    grind
  have whole : (v &&& m).toBitVec ||| (v &&& ~~~m).toBitVec = v.toBitVec := by
    ext i
    simp
    grind
  have sum := BitVec.toNat_add_of_and_eq_zero disjoint
  rw [BitVec.add_eq_or_of_and_eq_zero _ _ disjoint, whole] at sum
  exact sum.symm

/-- Short of wrapping, the boundary is not below the value, whatever `a` is. -/
theorem le_alignUp {x a : UInt32} (positive : 0 < a.toNat) (fits : x.toNat + a.toNat ≤ 2 ^ 32) :
    x.toNat ≤ (alignUp x a).toNat := by
  have split := toNat_and_add_and_not (x + a - 1) (a - 1)
  have low : ((x + a - 1) &&& (a - 1)).toNat ≤ (a - 1).toNat := by
    rw [UInt32.toNat_and]
    exact Nat.and_le_right
  simp only [alignUp]
  simp only [UInt32.toNat_sub, UInt32.toNat_add, UInt32.reduceToNat] at split low
  have bound := x.toNat_lt
  have alignBound := a.toNat_lt
  omega

/-- When the sum wraps the result falls below the value. -/
theorem alignUp_lt_of_wrap {x a : UInt32} (wraps : 2 ^ 32 < x.toNat + a.toNat) :
    (alignUp x a).toNat < x.toNat := by
  have masked : (alignUp x a).toNat ≤ (x + a - 1).toNat := by
    rw [alignUp, UInt32.toNat_and]
    exact Nat.and_le_left
  simp only [UInt32.toNat_sub, UInt32.toNat_add, UInt32.reduceToNat] at masked
  have bound := x.toNat_lt
  have alignBound := a.toNat_lt
  omega

/-! ## Powers of two -/

/-- The first multiple of `unit` from `len` on. -/
def roundUp (len unit : Nat) : Nat := (len + unit - 1) / unit * unit

theorem dvd_roundUp (len unit : Nat) : unit ∣ roundUp len unit := Nat.dvd_mul_left _ _

theorem le_roundUp (len : Nat) {unit : Nat} (positive : 0 < unit) : len ≤ roundUp len unit := by
  have split := Nat.div_add_mod (len + unit - 1) unit
  have rest := Nat.mod_lt (len + unit - 1) positive
  rw [Nat.mul_comm] at split
  unfold roundUp
  omega

theorem roundUp_lt (len : Nat) {unit : Nat} (positive : 0 < unit) : roundUp len unit < len + unit := by
  have below := Nat.div_mul_le_self (len + unit - 1) unit
  unfold roundUp
  omega

/-- A multiple of `unit` less than `unit` above `len` is the one rounding finds. -/
theorem roundUp_eq {len unit boundary : Nat} (multiple : unit ∣ boundary) (reached : len ≤ boundary)
    (near : boundary < len + unit) : roundUp len unit = boundary := by
  obtain ⟨count, rfl⟩ := multiple
  have quotient : (len + unit - 1) / unit = count := by
    rw [Nat.div_eq_iff (by omega), Nat.mul_comm count unit]
    omega
  rw [roundUp, quotient, Nat.mul_comm]

theorem roundUp_le {len unit boundary : Nat} (multiple : unit ∣ boundary) (reached : len ≤ boundary) :
    roundUp len unit ≤ boundary := by
  rcases Nat.eq_zero_or_pos unit with rfl | positive
  · simp only [roundUp, Nat.mul_zero]
    exact Nat.zero_le _
  · have near := roundUp_lt len positive
    obtain ⟨gap, same⟩ := dvd_roundUp len unit
    obtain ⟨count, rfl⟩ := multiple
    rw [same] at near ⊢
    apply Nat.mul_le_mul_left
    by_contra above
    have step : unit * (count + 1) ≤ unit * gap := Nat.mul_le_mul_left _ (by omega)
    rw [Nat.mul_succ] at step
    omega

theorem and_mask_toNat {x a : UInt32} {bits : Nat} (power : a.toNat = 2 ^ bits) :
    (x &&& (a - 1)).toNat = x.toNat % 2 ^ bits := by
  have low : (a - 1).toNat = 2 ^ bits - 1 := by
    have positive : 0 < a.toNat := power ▸ Nat.two_pow_pos bits
    have bound := a.toNat_lt
    rw [UInt32.toNat_sub, ← power]
    simp only [UInt32.reduceToNat]
    omega
  rw [UInt32.toNat_and, low, Nat.and_two_pow_sub_one_eq_mod]

theorem and_not_mask_toNat {x a : UInt32} {bits : Nat} (power : a.toNat = 2 ^ bits) :
    (x &&& ~~~(a - 1)).toNat = x.toNat / a.toNat * a.toNat := by
  have split := toNat_and_add_and_not x (a - 1)
  have divided := Nat.div_add_mod x.toNat a.toNat
  rw [and_mask_toNat power, ← power] at split
  rw [Nat.mul_comm] at divided
  omega

theorem alignUp_toNat {x a : UInt32} (bits : Nat) (power : a.toNat = 2 ^ bits)
    (fits : x.toNat + a.toNat ≤ 2 ^ 32) : (alignUp x a).toNat = roundUp x.toNat a.toNat := by
  have positive : 0 < a.toNat := power ▸ Nat.two_pow_pos bits
  have bound := x.toNat_lt
  have sum : (x + a - 1).toNat = x.toNat + a.toNat - 1 := by
    simp only [UInt32.toNat_sub, UInt32.toNat_add, UInt32.reduceToNat]
    omega
  have split := toNat_and_add_and_not (x + a - 1) (a - 1)
  rw [and_mask_toNat power, sum, ← power] at split
  have divided := Nat.div_add_mod (x.toNat + a.toNat - 1) a.toNat
  rw [Nat.mul_comm] at divided
  unfold alignUp roundUp
  omega

end Rut9xx.Data
