import Rut9xx.Data.Align
import Mathlib.Tactic.SplitIfs

namespace Rut9xx.Chilli

open Rut9xx.Data

/-! # Addresses in a subnet, and the networks `option_aton` reads -/

/-- A run of ones and then zeros, as `option_aton` insists. -/
def IsNetmask (mask : UInt32) : Prop := ∃ bits, bits ≤ 32 ∧ mask.toNat = 2 ^ 32 - 2 ^ bits

/-- `masklog`, and whether `1 << masklog` is the complement plus one; at 32 the shift is undefined. -/
def masklogLoop (hosts : UInt32) : Nat → Nat → Option Nat
  | 0, _ => none
  | fuel + 1, masklog =>
      if (1 : UInt32) <<< UInt32.ofNat masklog < hosts then masklogLoop hosts fuel (masklog + 1)
      else if hosts = (1 : UInt32) <<< UInt32.ofNat masklog then some masklog
      else none

/-- The address and the mask, from the numbers that `sscanf` finds. -/
def optionAton (fields : List UInt32) : Option (UInt32 × UInt32) :=
  let address := fun (a1 a2 a3 a4 mask : UInt32) =>
    if 256 ≤ a1 ∨ 256 ≤ a2 ∨ 256 ≤ a3 ∨ 256 ≤ a4 then none
    else some (a1 * 0x1000000 + a2 * 0x10000 + a3 * 0x100 + a4, mask)
  match fields with
  | [a1, a2, a3, a4] => address a1 a2 a3 a4 0xffffff00
  | [a1, a2, a3, a4, m1] =>
      if 32 < m1 then none
      else address a1 a2 a3 a4 (if 0 < m1 then 0xffffffff <<< (32 - m1) else 0)
  | [a1, a2, a3, a4, m1, m2, m3, m4] =>
      if 256 ≤ m1 ∨ 256 ≤ m2 ∨ 256 ≤ m3 ∨ 256 ≤ m4 then none
      else
        let m := m1 * 0x1000000 + m2 * 0x10000 + m3 * 0x100 + m4
        (masklogLoop (~~~m + 1) 32 0).bind fun _ => address a1 a2 a3 a4 m
  | _ => none

theorem not_mask_toNat (mask : UInt32) : (~~~mask).toNat = 2 ^ 32 - 1 - mask.toNat := by
  rw [UInt32.toNat_not]
  rfl

theorem prefix_isNetmask {m1 : UInt32} (bound : ¬32 < m1) (some' : 0 < m1) :
    ((0xffffffff : UInt32) <<< (32 - m1)).toNat = 2 ^ 32 - 2 ^ (32 - m1.toNat) := by
  have table : ∀ m, m < 33 → 0 < m → ((0xffffffff : UInt32) <<< (32 - UInt32.ofNat m)).toNat =
      2 ^ 32 - 2 ^ (32 - m) := by decide
  have small : m1.toNat < 33 := by
    rw [UInt32.lt_iff_toNat_lt] at bound
    have : (32 : UInt32).toNat = 32 := rfl
    omega
  have here := table m1.toNat small (by rw [UInt32.lt_iff_toNat_lt] at some'; exact some')
  rw [UInt32.ofNat_toNat] at here
  exact here

theorem masklogLoop_power {hosts : UInt32} {fuel masklog found : Nat}
    (bound : fuel + masklog ≤ 32) (done : masklogLoop hosts fuel masklog = some found) :
    found < 32 ∧ hosts.toNat = 2 ^ found := by
  induction fuel generalizing masklog with
  | zero => cases done
  | succ fuel ih =>
      rw [masklogLoop] at done
      split_ifs at done with below same
      · exact ih (by omega) done
      · cases done
        have table : ∀ amount, amount < 32 → ((1 : UInt32) <<< UInt32.ofNat amount).toNat =
            2 ^ amount := by decide
        exact ⟨by omega, by rw [same]; exact table found (by omega)⟩

theorem optionAton_isNetmask {fields : List UInt32} {addr mask : UInt32}
    (parsed : optionAton fields = some (addr, mask)) : IsNetmask mask := by
  have final : ∀ a1 a2 a3 a4 given : UInt32,
      (if 256 ≤ a1 ∨ 256 ≤ a2 ∨ 256 ≤ a3 ∨ 256 ≤ a4 then none
        else some (a1 * 0x1000000 + a2 * 0x10000 + a3 * 0x100 + a4, given)) = some (addr, mask) →
      given = mask := by
    intro a1 a2 a3 a4 given same
    split_ifs at same
    cases same
    rfl
  unfold optionAton at parsed
  split at parsed
  · rw [← final _ _ _ _ _ parsed]
    exact ⟨8, by omega, by decide⟩
  · rename_i m1
    split_ifs at parsed with large some'
    · rw [← final _ _ _ _ _ parsed]
      exact ⟨32 - m1.toNat, by omega, prefix_isNetmask large some'⟩
    · rw [← final _ _ _ _ _ parsed]
      exact ⟨32, by omega, by decide⟩
  · split_ifs at parsed
    obtain ⟨masklog, found, parsed⟩ := Option.bind_eq_some_iff.mp parsed
    obtain ⟨small, power⟩ := masklogLoop_power (Nat.le_refl 32) found
    rw [← final _ _ _ _ _ parsed]
    refine ⟨masklog, by omega, ?_⟩
    rename_i m1 m2 m3 m4 _ _
    generalize m1 * 0x1000000 + m2 * 0x10000 + m3 * 0x100 + m4 = m at power
    have positive : 0 < 2 ^ masklog := Nat.pow_pos (by omega)
    have below : 2 ^ masklog < 2 ^ 32 := Nat.pow_lt_pow_right (by omega) small
    have one : (1 : UInt32).toNat = 1 := rfl
    rw [UInt32.toNat_add, not_mask_toNat, one] at power
    have bound := m.toNat_lt
    omega
  · cases parsed

/-! ## Membership -/

section

variable {mask addr : UInt32}

/-- Masking takes off what is left over a multiple of the number of hosts. -/
theorem and_netmask (netmask : IsNetmask mask) (addr : UInt32) :
    (addr &&& mask).toNat = addr.toNat - addr.toNat % (2 ^ 32 - mask.toNat) := by
  obtain ⟨bits, small, value⟩ := netmask
  have positive : 0 < 2 ^ bits := Nat.pow_pos (by omega)
  have fits : 2 ^ bits ≤ 2 ^ 32 := Nat.pow_le_pow_right (by omega) small
  have hosts : 2 ^ 32 - mask.toNat = 2 ^ bits := by omega
  have rest : (addr &&& ~~~mask).toNat = addr.toNat % 2 ^ bits := by
    have ones : (~~~mask).toNat = 2 ^ bits - 1 := by
      rw [not_mask_toNat]
      omega
    rw [UInt32.toNat_and, ones, Nat.and_two_pow_sub_one_eq_mod]
  have split := toNat_and_add_and_not addr mask
  rw [hosts, ← rest]
  omega

theorem netmask_hosts (netmask : IsNetmask mask) :
    0 < 2 ^ 32 - mask.toNat ∧ (2 ^ 32 - mask.toNat) ∣ 2 ^ 32 := by
  obtain ⟨bits, small, value⟩ := netmask
  have positive : 0 < 2 ^ bits := Nat.pow_pos (by omega)
  have fits : 2 ^ bits ≤ 2 ^ 32 := Nat.pow_le_pow_right (by omega) small
  have hosts : 2 ^ 32 - mask.toNat = 2 ^ bits := by omega
  rw [hosts]
  exact ⟨positive, Nat.pow_dvd_pow 2 small⟩

/-- The addresses of a network are those less than the number of hosts behind its base. -/
theorem inSubnet_iff (netmask : IsNetmask mask) {offset : UInt32} :
    ((addr &&& mask) + offset) &&& mask = addr &&& mask ↔ offset.toNat < 2 ^ 32 - mask.toNat := by
  obtain ⟨positive, divides⟩ := netmask_hosts netmask
  have base := and_netmask netmask addr
  have masked := and_netmask netmask ((addr &&& mask) + offset)
  rw [← UInt32.toNat_inj, masked, UInt32.toNat_add]
  have baseBound := (addr &&& mask).toNat_lt
  have offsetBound := offset.toNat_lt
  generalize 2 ^ 32 - mask.toNat = hosts at *
  have multiple : hosts ∣ (addr &&& mask).toNat := by
    rw [base]
    exact Nat.dvd_sub_mod _
  generalize (addr &&& mask).toNat = network at *
  have room : network + hosts ≤ 2 ^ 32 := by
    obtain ⟨q, rfl⟩ := multiple
    obtain ⟨p, whole⟩ := divides
    rw [whole, ← Nat.mul_succ]
    rw [whole] at baseBound
    exact Nat.mul_le_mul_left _ (Nat.lt_of_mul_lt_mul_left baseBound)
  constructor
  · intro same
    have := Nat.mod_lt ((network + offset.toNat) % 2 ^ 32) positive
    omega
  · intro below
    rw [Nat.mod_eq_of_lt (by omega : network + offset.toNat < 2 ^ 32), Nat.add_mod,
      Nat.mod_eq_zero_of_dvd multiple, Nat.zero_add, Nat.mod_mod, Nat.mod_eq_of_lt below]
    omega

end

end Rut9xx.Chilli
