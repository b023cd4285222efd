import Rut9xx.Data.BitField
import Rut9xx.Data.PairedParity
import Mathlib.Data.List.FinRange
import Mathlib.Tactic.IntervalCases

namespace Rut9xx.Nand

open Data

/-! # The error-correcting code of a NAND block -/

abbrev Block := Fin 256 → BitVec 8

def nandEccPrecalcTable : List (BitVec 8) :=
  [0x00, 0x55, 0x56, 0x03, 0x59, 0x0c, 0x0f, 0x5a, 0x5a, 0x0f, 0x0c, 0x59, 0x03, 0x56, 0x55, 0x00,
   0x65, 0x30, 0x33, 0x66, 0x3c, 0x69, 0x6a, 0x3f, 0x3f, 0x6a, 0x69, 0x3c, 0x66, 0x33, 0x30, 0x65,
   0x66, 0x33, 0x30, 0x65, 0x3f, 0x6a, 0x69, 0x3c, 0x3c, 0x69, 0x6a, 0x3f, 0x65, 0x30, 0x33, 0x66,
   0x03, 0x56, 0x55, 0x00, 0x5a, 0x0f, 0x0c, 0x59, 0x59, 0x0c, 0x0f, 0x5a, 0x00, 0x55, 0x56, 0x03,
   0x69, 0x3c, 0x3f, 0x6a, 0x30, 0x65, 0x66, 0x33, 0x33, 0x66, 0x65, 0x30, 0x6a, 0x3f, 0x3c, 0x69,
   0x0c, 0x59, 0x5a, 0x0f, 0x55, 0x00, 0x03, 0x56, 0x56, 0x03, 0x00, 0x55, 0x0f, 0x5a, 0x59, 0x0c,
   0x0f, 0x5a, 0x59, 0x0c, 0x56, 0x03, 0x00, 0x55, 0x55, 0x00, 0x03, 0x56, 0x0c, 0x59, 0x5a, 0x0f,
   0x6a, 0x3f, 0x3c, 0x69, 0x33, 0x66, 0x65, 0x30, 0x30, 0x65, 0x66, 0x33, 0x69, 0x3c, 0x3f, 0x6a,
   0x6a, 0x3f, 0x3c, 0x69, 0x33, 0x66, 0x65, 0x30, 0x30, 0x65, 0x66, 0x33, 0x69, 0x3c, 0x3f, 0x6a,
   0x0f, 0x5a, 0x59, 0x0c, 0x56, 0x03, 0x00, 0x55, 0x55, 0x00, 0x03, 0x56, 0x0c, 0x59, 0x5a, 0x0f,
   0x0c, 0x59, 0x5a, 0x0f, 0x55, 0x00, 0x03, 0x56, 0x56, 0x03, 0x00, 0x55, 0x0f, 0x5a, 0x59, 0x0c,
   0x69, 0x3c, 0x3f, 0x6a, 0x30, 0x65, 0x66, 0x33, 0x33, 0x66, 0x65, 0x30, 0x6a, 0x3f, 0x3c, 0x69,
   0x03, 0x56, 0x55, 0x00, 0x5a, 0x0f, 0x0c, 0x59, 0x59, 0x0c, 0x0f, 0x5a, 0x00, 0x55, 0x56, 0x03,
   0x66, 0x33, 0x30, 0x65, 0x3f, 0x6a, 0x69, 0x3c, 0x3c, 0x69, 0x6a, 0x3f, 0x65, 0x30, 0x33, 0x66,
   0x65, 0x30, 0x33, 0x66, 0x3c, 0x69, 0x6a, 0x3f, 0x3f, 0x6a, 0x69, 0x3c, 0x66, 0x33, 0x30, 0x65,
   0x00, 0x55, 0x56, 0x03, 0x59, 0x0c, 0x0f, 0x5a, 0x5a, 0x0f, 0x0c, 0x59, 0x03, 0x56, 0x55, 0x00]

def precalc (byte : BitVec 8) : BitVec 8 := nandEccPrecalcTable.getD byte.toNat 0

/-- The three registers of the loop. -/
@[ext] structure Parity where
  reg1 : BitVec 8
  reg2 : BitVec 8
  reg3 : BitVec 8

def Parity.zero : Parity := ⟨0, 0, 0⟩

/-- One turn of the loop. -/
def accumulate (dat : Block) (regs : Parity) (i : Fin 256) : Parity :=
  let idx := precalc (dat i)
  let reg1 := regs.reg1 ^^^ (idx &&& 0x3f)
  if idx &&& 0x40 ≠ 0 then
    ⟨reg1, regs.reg2 ^^^ ~~~BitVec.ofFin i, regs.reg3 ^^^ BitVec.ofFin i⟩
  else ⟨reg1, regs.reg2, regs.reg3⟩

def lineParity (dat : Block) : Parity := (List.finRange 256).foldl (accumulate dat) Parity.zero

def tmp1 (regs : Parity) : BitVec 8 :=
  (regs.reg3 &&& 0x80) >>> 0 ||| (regs.reg2 &&& 0x80) >>> 1 |||
  (regs.reg3 &&& 0x40) >>> 1 ||| (regs.reg2 &&& 0x40) >>> 2 |||
  (regs.reg3 &&& 0x20) >>> 2 ||| (regs.reg2 &&& 0x20) >>> 3 |||
  (regs.reg3 &&& 0x10) >>> 3 ||| (regs.reg2 &&& 0x10) >>> 4

def tmp2 (regs : Parity) : BitVec 8 :=
  (regs.reg3 &&& 0x08) <<< 4 ||| (regs.reg2 &&& 0x08) <<< 3 |||
  (regs.reg3 &&& 0x04) <<< 3 ||| (regs.reg2 &&& 0x04) <<< 2 |||
  (regs.reg3 &&& 0x02) <<< 2 ||| (regs.reg2 &&& 0x02) <<< 1 |||
  (regs.reg3 &&& 0x01) <<< 1 ||| (regs.reg2 &&& 0x01) <<< 0

/-- `ecc_code`, built without `CONFIG_MTD_NAND_ECC_SMC`. -/
structure EccCode where
  ecc0 : BitVec 8
  ecc1 : BitVec 8
  ecc2 : BitVec 8

def eccOf (regs : Parity) : EccCode := ⟨~~~tmp1 regs, ~~~tmp2 regs, (~~~regs.reg1) <<< 2 ||| 0x03⟩

def nandCalculateEcc (dat : Block) : EccCode := eccOf (lineParity dat)

/-- The three bytes in a row, the first one in front. -/
def EccCode.word (code : EccCode) : BitVec 24 := code.ecc0 ++ code.ecc1 ++ code.ecc2

/-! ## The bits of the code -/

variable {regs other : Parity} {dat : Block} {byte : BitVec 8} {i : Fin 256} {pair : Nat}

/-- The upper parity of a pair: three of columns, from `reg1`, and eight of lines. -/
def Parity.high (regs : Parity) (pair : Nat) : Bool :=
  if pair < 3 then regs.reg1.getLsbD (2 * pair + 1) else regs.reg3.getLsbD (pair - 3)

def Parity.low (regs : Parity) (pair : Nat) : Bool :=
  if pair < 3 then regs.reg1.getLsbD (2 * pair) else regs.reg2.getLsbD (pair - 3)

theorem EccCode.word_bit (code : EccCode) (index : Nat) : code.word.getLsbD index =
    if index < 8 then code.ecc2.getLsbD index
    else if index - 8 < 8 then code.ecc1.getLsbD (index - 8) else code.ecc0.getLsbD (index - 8 - 8) := by
  change (code.ecc0 ++ code.ecc1 ++ code.ecc2).getLsbD index = _
  rw [BitVec.getLsbD_append, BitVec.getLsbD_append]

theorem word_high (inside : pair < 11) :
    (eccOf regs).word.getLsbD (2 * pair + 3) = !regs.high pair := by
  rw [EccCode.word_bit]
  interval_cases pair <;> simp [eccOf, tmp1, tmp2, Parity.high]

theorem word_low (inside : pair < 11) :
    (eccOf regs).word.getLsbD (2 * pair + 2) = !regs.low pair := by
  rw [EccCode.word_bit]
  interval_cases pair <;> simp [eccOf, tmp1, tmp2, Parity.low]

/-! ## Flipping a bit of the block -/

structure Place where
  byte : Fin 256
  bit : Fin 8
  deriving DecidableEq

variable {place : Place}

def Place.position (place : Place) : Nat := 8 * place.byte + place.bit

def flip (dat : Block) (place : Place) : Block :=
  Function.update dat place.byte (dat place.byte ^^^ bit 8 place.bit)

def Parity.xor (regs other : Parity) : Parity :=
  ⟨regs.reg1 ^^^ other.reg1, regs.reg2 ^^^ other.reg2, regs.reg3 ^^^ other.reg3⟩

instance : Std.Associative Parity.xor where
  assoc := by
    intro first second third
    simp only [Parity.xor, BitVec.xor_assoc]

instance : Std.Commutative Parity.xor where
  comm := by
    intro first second
    simp only [Parity.xor, BitVec.xor_comm]

theorem Parity.xor_high : (regs.xor other).high pair = (regs.high pair ^^ other.high pair) := by
  unfold Parity.high Parity.xor
  split <;> rw [BitVec.getLsbD_xor]

theorem Parity.xor_low : (regs.xor other).low pair = (regs.low pair ^^ other.low pair) := by
  unfold Parity.low Parity.xor
  split <;> rw [BitVec.getLsbD_xor]

/-- What one byte adds to the registers. -/
def contribution (i : Fin 256) (byte : BitVec 8) : Parity :=
  if precalc byte &&& 0x40 ≠ 0 then ⟨precalc byte &&& 0x3f, ~~~BitVec.ofFin i, BitVec.ofFin i⟩
  else ⟨precalc byte &&& 0x3f, 0, 0⟩

theorem accumulate_eq (dat : Block) (regs : Parity) (i : Fin 256) :
    accumulate dat regs i = regs.xor (contribution i (dat i)) := by
  unfold accumulate contribution Parity.xor
  dsimp only
  split <;> simp

def flipParity (place : Place) : Parity :=
  ⟨precalc (bit 8 place.bit) &&& 0x3f, ~~~BitVec.ofFin place.byte, BitVec.ofFin place.byte⟩

theorem precalc_flip : ∀ (byte : BitVec 8) (column : Fin 8),
    precalc (byte ^^^ bit 8 column) = precalc byte ^^^ precalc (bit 8 column) := by
  decide +kernel

theorem and_xor (first second mask : BitVec 8) :
    (first ^^^ second) &&& mask = (first &&& mask) ^^^ (second &&& mask) := by
  apply BitVec.eq_of_getLsbD_eq
  intro index _
  simp only [BitVec.getLsbD_and, BitVec.getLsbD_xor, Bool.and_xor_distrib_right]

/-- A flip turns the parity of the whole byte. -/
theorem precalc_odd : precalc (byte ^^^ bit 8 place.bit) &&& 0x40 ≠ 0 ↔
    ¬ precalc byte &&& 0x40 ≠ 0 := by
  have single : ∀ column : Fin 8, precalc (bit 8 column) &&& 0x40 = 0x40 := by decide
  have turned : ∀ parity : BitVec 8, (parity &&& 0x40) ^^^ 0x40 ≠ 0 ↔ ¬ parity &&& 0x40 ≠ 0 := by
    decide
  rw [precalc_flip, and_xor, single]
  exact turned (precalc byte)

theorem contribution_flip : contribution place.byte (byte ^^^ bit 8 place.bit) =
    (contribution place.byte byte).xor (flipParity place) := by
  unfold contribution
  by_cases odd : precalc byte &&& 0x40 ≠ 0
  · rw [if_pos odd, if_neg fun both => Iff.mp precalc_odd both odd, precalc_flip, and_xor]
    simp [Parity.xor, flipParity]
  · rw [if_neg odd, if_pos (Iff.mpr precalc_odd odd), precalc_flip, and_xor]
    simp [Parity.xor, flipParity]

theorem lineParity_eq (dat : Block) : lineParity dat =
    (List.finRange 256).foldl (fun regs i => regs.xor (contribution i (dat i))) Parity.zero := by
  apply List.foldl_ext
  intro regs i _
  exact accumulate_eq dat regs i

theorem lineParity_flip : lineParity (flip dat place) = (lineParity dat).xor (flipParity place) := by
  rw [lineParity_eq, lineParity_eq]
  apply foldl_changed (List.nodup_finRange 256) (List.mem_finRange place.byte)
  · rw [flip, Function.update_self]
    exact contribution_flip
  · intro other apart
    rw [flip, Function.update_of_ne apart]

/-! ## The law -/

theorem precalc_pairs : ∀ (column : Fin 8) (pair : Fin 3),
    (precalc (bit 8 column) &&& 0x3f).getLsbD (2 * pair + 1) = column.val.testBit pair ∧
      (precalc (bit 8 column) &&& 0x3f).getLsbD (2 * pair) = !column.val.testBit pair := by
  decide +kernel

theorem flipParity_spells :
    Spells (flipParity place).low (flipParity place).high 11 place.position := by
  intro pair inside
  have split : place.position.testBit pair =
      if pair < 3 then place.bit.val.testBit pair else place.byte.val.testBit (pair - 3) :=
    @Nat.testBit_two_pow_mul_add place.byte.val place.bit.val 3 place.bit.isLt pair
  unfold Parity.high Parity.low
  rw [split]
  by_cases column : pair < 3
  · rw [if_pos column, if_pos column, if_pos column]
    exact precalc_pairs place.bit ⟨pair, column⟩
  · rw [if_neg column, if_neg column, if_neg column]
    simp only [flipParity, BitVec.getLsbD_not, decide_eq_true (show pair - 3 < 8 by omega),
      Bool.true_and]
    exact ⟨rfl, rfl⟩

theorem Place.position_lt : place.position < 2 ^ 11 := by
  have byteBound := place.byte.isLt
  have bitBound := place.bit.isLt
  unfold Place.position
  omega

theorem Place.position_ne {another : Place} (apart : place ≠ another) :
    place.position ≠ another.position := by
  intro same
  apply apart
  have bitBound := place.bit.isLt
  have bitBound' := another.bit.isLt
  unfold Place.position at same
  cases place
  cases another
  congr 1 <;> apply Fin.ext <;> simp only at * <;> omega

/-- The upper and the lower bit of each of the 11 pairs in the exclusive or of two codes. -/
def upper (difference : BitVec 24) (pair : Nat) : Bool := difference.getLsbD (2 * pair + 3)
def lower (difference : BitVec 24) (pair : Nat) : Bool := difference.getLsbD (2 * pair + 2)

theorem upper_eccOf (inside : pair < 11) :
    upper ((eccOf regs).word ^^^ (eccOf other).word) pair = (regs.high pair ^^ other.high pair) := by
  rw [upper, BitVec.getLsbD_xor, word_high inside, word_high inside, Bool.not_xor_not]

theorem lower_eccOf (inside : pair < 11) :
    lower ((eccOf regs).word ^^^ (eccOf other).word) pair = (regs.low pair ^^ other.low pair) := by
  rw [lower, BitVec.getLsbD_xor, word_low inside, word_low inside, Bool.not_xor_not]

theorem once_spells : Spells
    (lower ((eccOf (lineParity dat)).word ^^^ (eccOf (lineParity (flip dat place))).word))
    (upper ((eccOf (lineParity dat)).word ^^^ (eccOf (lineParity (flip dat place))).word))
    11 place.position := by
  intro pair inside
  rw [upper_eccOf inside, lower_eccOf inside, lineParity_flip, Parity.xor_high, Parity.xor_low,
    ← Bool.xor_assoc, ← Bool.xor_assoc, Bool.xor_self, Bool.xor_self, Bool.false_xor,
    Bool.false_xor]
  exact flipParity_spells pair inside

variable {another : Place}

theorem upper_twice (inside : pair < 11) :
    upper ((eccOf (lineParity dat)).word ^^^
      (eccOf (lineParity (flip (flip dat place) another))).word) pair =
      ((flipParity place).high pair ^^ (flipParity another).high pair) := by
  rw [upper_eccOf inside, lineParity_flip, lineParity_flip, Parity.xor_high, Parity.xor_high,
    Bool.xor_assoc, ← Bool.xor_assoc, Bool.xor_self, Bool.false_xor]

theorem lower_twice (inside : pair < 11) :
    lower ((eccOf (lineParity dat)).word ^^^
      (eccOf (lineParity (flip (flip dat place) another))).word) pair =
      ((flipParity place).low pair ^^ (flipParity another).low pair) := by
  rw [lower_eccOf inside, lineParity_flip, lineParity_flip, Parity.xor_low, Parity.xor_low,
    Bool.xor_assoc, ← Bool.xor_assoc, Bool.xor_self, Bool.false_xor]

/-- One flip sets one bit of every pair, and they spell where it was; two flips never do so, and
never go unseen. -/
theorem nandCalculateEcc_law (dat : Block) (place another : Place) :
    let code := (nandCalculateEcc dat).word
    let once := code ^^^ (nandCalculateEcc (flip dat place)).word
    let twice := code ^^^ (nandCalculateEcc (flip (flip dat place) another)).word
    Single (lower once) (upper once) 11 ∧ Spells (lower once) (upper once) 11 place.position ∧
      (place ≠ another → twice ≠ 0 ∧ ¬ Single (lower twice) (upper twice) 11) := by
  dsimp only [nandCalculateEcc]
  refine ⟨once_spells.single, once_spells, fun apart => ⟨?_, ?_⟩⟩
  · intro none
    obtain ⟨pair, inside, set⟩ := flipParity_spells.twice_set (@flipParity_spells another)
      Place.position_lt Place.position_lt (Place.position_ne apart)
    have twice := @upper_twice dat pair place another inside
    rw [none, set, upper] at twice
    simp at twice
  · intro single
    apply (@flipParity_spells place).twice_not_single (@flipParity_spells another) (by decide)
    intro pair inside
    have differs := single pair inside
    rwa [upper_twice inside, lower_twice inside] at differs

end Rut9xx.Nand
