import Rut9xx.Data.Align
import Rut9xx.Data.BitField
import Rut9xx.Data.Buffer
import Mathlib.Algebra.Group.Nat.Defs

namespace Rut9xx.Padjffs2

open Rut9xx.Data

/-! # `padjffs2`: end marks behind an image

The host has 64-bit offsets, and `uint32_t` pad sizes. -/

section

def BUF_SIZE : Nat := 64 * 1024

/-- What the options `-J` and `-j` select. -/
inductive Pad where
  | eofMark
  | jffs2PadBe
  | jffs2PadLe
  deriving DecidableEq

def Pad.bytes : Pad → List UInt8
  | eofMark => [0xde, 0xad, 0xc0, 0xde]
  | jffs2PadBe => [0x19, 0x85, 0x20, 0x04, 0x04, 0x00, 0x00, 0x00, 0xc4, 0x94, 0xdb, 0xf4]
  | jffs2PadLe => [0x85, 0x19, 0x04, 0x20, 0x00, 0x00, 0x00, 0x04, 0xa8, 0xfb, 0xa0, 0xb4]

structure Settings where
  xtraOffset : UInt32
  pad : Pad
  padToStdout : Bool

/-- `ALIGN`; the complement is one of 32 bits. -/
def align (x mask : Nat) : Nat := (x + (mask - 1)) &&& (2 ^ 32 - mask)

/-- The lowest bit of the mask, or the last one that is looked at. -/
def lowestBit (padMask : BitVec 32) : Nat :=
  ((List.range' 10 22).find? fun i => padMask.getLsbD i).getD 31

def clearBit (inLen : Nat) (padMask : BitVec 32) (i : Nat) : BitVec 32 :=
  if inLen &&& (2 ^ i - 1) = 0 then padMask &&& ~~~bit 32 i else padMask

def clearBits (padMask : BitVec 32) (inLen : Nat) : BitVec 32 :=
  (List.range' 10 22).foldl (clearBit inLen) padMask

/-! ## Output -/

structure Output where
  calls : Nat
  bytes : List UInt8
  outLen : Nat

/-- A `write`; `complete` tells which calls take all their bytes. -/
def Output.write (complete : Nat → Bool) (out : Output) (data : List UInt8) : Except Output Output :=
  if complete out.calls then .ok ⟨out.calls + 1, out.bytes ++ data, out.outLen + data.length⟩
  else .error { out with calls := out.calls + 1 }

/-- Fills up to `inLen`, a buffer at a time. A round writes a byte or more, so that `fuel` for the
bytes is not used up. -/
def fillLoop (complete : Nat → Bool) (inLen : Nat) : Nat → Output → Except Output Output
  | 0, out => .ok out
  | fuel + 1, out =>
      if out.outLen < inLen then do
        let out ← out.write complete (List.replicate (min (inLen - out.outLen) BUF_SIZE) 0xff)
        fillLoop complete inLen fuel out
      else .ok out

/-- The loop over the pad sizes; `none` is a loop that has not ended. -/
def padLoop (complete : Nat → Bool) (pad : Pad) :
    Nat → BitVec 32 → Nat → Output → Option (Except Output Output)
  | 0, _, _, _ => none
  | fuel + 1, padMask, inLen, out =>
      if padMask = 0 then some (.ok out)
      else
        let aligned := align inLen (2 ^ lowestBit padMask)
        match fillLoop complete aligned (aligned - out.outLen) out with
        | .error out => some (.error out)
        | .ok out =>
            match out.write complete pad.bytes with
            | .error out => some (.error out)
            | .ok out => padLoop complete pad fuel (clearBits padMask aligned) aligned out

structure Padding where
  ret : Int
  file : List UInt8
  stdout : List UInt8

/-- `pad_image` on a file that can be opened. -/
def padImage (settings : Settings) (complete : Nat → Bool) (fuel : Nat) (image : List UInt8)
    (padMask : BitVec 32) : Option Padding :=
  let inLen := image.length + settings.xtraOffset.toNat
  (padLoop complete settings.pad fuel padMask inLen ⟨0, [], inLen⟩).map fun result =>
    let (ret, out) : Int × Output := match result with
      | .ok out => (0, out)
      | .error out => (-1, out)
    if settings.padToStdout then ⟨ret, image, out.bytes⟩ else ⟨ret, image ++ out.bytes, []⟩

/-- The mask that `main` makes of pad sizes in bytes. -/
def padMaskOf (sizes : List Nat) : BitVec 32 :=
  sizes.foldl (fun padMask size => padMask ||| BitVec.ofNat 32 size) 0

end

/-! # Where `padjffs2` leaves its marks -/

section

variable {padMask : BitVec 32} {complete : Nat → Bool} {pad : Pad} {out : Output}
  {inLen count i j : Nat}

/-! ## The pad sizes as bits -/

/-- No bit that the loops do not look at. -/
def Kibibytes (padMask : BitVec 32) : Prop := ∀ j, padMask.getLsbD j = true → 10 ≤ j

theorem lowestBit_spec (sizes : Kibibytes padMask) (some' : padMask ≠ 0) :
    10 ≤ lowestBit padMask ∧ lowestBit padMask < 32 ∧
      padMask.getLsbD (lowestBit padMask) = true ∧
      ∀ j, padMask.getLsbD j = true → lowestBit padMask ≤ j := by
  have inside : ∃ j, padMask.getLsbD j = true := by
    by_contra none'
    apply some'
    apply BitVec.eq_of_getLsbD_eq
    intro j _
    rw [show (0 : BitVec 32) = 0#32 from rfl, BitVec.getLsbD_zero]
    exact Bool.eq_false_iff.mpr fun set => none' ⟨j, set⟩
  obtain ⟨j, set⟩ := inside
  have below := BitVec.lt_of_getLsbD set
  cases found : (List.range' 10 22).find? fun i => padMask.getLsbD i with
  | none =>
      have unset := List.find?_eq_none.mp found j (List.mem_range'_1.mpr ⟨sizes j set, by omega⟩)
      exact absurd set unset
  | some i =>
      have lowest : lowestBit padMask = i := by rw [lowestBit, found, Option.getD_some]
      obtain ⟨here, member, first⟩ := List.find?_range'_eq_some.mp found
      have range := List.mem_range'_1.mp member
      rw [lowest]
      refine ⟨range.1, by omega, here, ?_⟩
      intro other otherSet
      by_contra before
      have unset := first other (sizes other otherSet) (by omega)
      rw [otherSet] at unset
      cases unset

theorem getLsbD_clearBit : (clearBit inLen padMask i).getLsbD j =
    (padMask.getLsbD j && !decide (i = j ∧ inLen % 2 ^ i = 0)) := by
  rw [clearBit, Nat.and_two_pow_sub_one_eq_mod]
  split
  · rename_i aligned
    rw [getLsbD_erase]
    simp only [aligned, and_true]
  · rename_i between
    simp only [between, and_false, decide_false, Bool.not_false, Bool.and_true]

theorem getLsbD_clearBits_list {indices : List Nat} :
    (indices.foldl (clearBit inLen) padMask).getLsbD j =
      (padMask.getLsbD j && !decide (j ∈ indices ∧ inLen % 2 ^ j = 0)) := by
  induction indices generalizing padMask with
  | nil => simp
  | cons i rest ih =>
      rw [List.foldl_cons, ih, getLsbD_clearBit, Bool.and_assoc, ← Bool.not_or, ← Bool.decide_or]
      congr 3
      rw [List.mem_cons]
      by_cases here : i = j
      · subst here
        simp only [true_and, true_or]
        exact propext ⟨fun either => either.elim id And.right, fun aligned => .inl aligned⟩
      · simp only [here, false_and, false_or, Ne.symm here]

/-- What is left are the sizes that the length is not aligned to. -/
theorem getLsbD_clearBits (sizes : Kibibytes padMask) : (clearBits padMask inLen).getLsbD j = true ↔
    padMask.getLsbD j = true ∧ ¬ 2 ^ j ∣ inLen := by
  rw [clearBits, getLsbD_clearBits_list, Bool.and_eq_true, Bool.not_eq_true', decide_eq_false_iff_not,
    Nat.dvd_iff_mod_eq_zero]
  constructor
  · intro ⟨set, between⟩
    have below := BitVec.lt_of_getLsbD set
    exact ⟨set, fun aligned => between ⟨List.mem_range'_1.mpr ⟨sizes j set, by omega⟩, aligned⟩⟩
  · intro ⟨set, between⟩
    exact ⟨set, fun both => between both.2⟩

/-! ## Boundaries -/

theorem align_eq (inside : i < 32) (below : roundUp inLen (2 ^ i) < 2 ^ 32) :
    align inLen (2 ^ i) = roundUp inLen (2 ^ i) := by
  have positive : 0 < 2 ^ i := Nat.two_pow_pos i
  have room : roundUp inLen (2 ^ i) + 2 ^ i ≤ 2 ^ 32 := by
    obtain ⟨blocks, same⟩ := dvd_roundUp inLen (2 ^ i)
    obtain ⟨most, whole⟩ := Nat.pow_dvd_pow 2 (Nat.le_of_lt inside)
    rw [same, whole] at below ⊢
    have fewer := Nat.lt_of_mul_lt_mul_left below
    calc 2 ^ i * blocks + 2 ^ i = 2 ^ i * (blocks + 1) := (Nat.mul_succ _ _).symm
      _ ≤ 2 ^ i * most := Nat.mul_le_mul_left _ fewer
  have reached := le_roundUp inLen positive
  have sum : inLen + (2 ^ i - 1) = inLen + 2 ^ i - 1 := by omega
  have small : inLen + 2 ^ i - 1 < 2 ^ 32 := by omega
  rw [align, roundUp, sum]
  generalize inLen + 2 ^ i - 1 = value at small ⊢
  have mask : 2 ^ 32 - 2 ^ i = (2 ^ (32 - i) - 1) * 2 ^ i := by
    rw [Nat.sub_mul, ← Nat.pow_add, Nat.sub_add_cancel (Nat.le_of_lt inside), Nat.one_mul]
  apply Nat.eq_of_testBit_eq
  intro place
  rw [mask, Nat.testBit_and, ← Nat.shiftLeft_eq, ← Nat.shiftLeft_eq, Nat.testBit_shiftLeft,
    Nat.testBit_shiftLeft, Nat.testBit_two_pow_sub_one, ← Nat.shiftRight_eq_div_pow,
    Nat.testBit_shiftRight]
  by_cases behind : i ≤ place
  · rw [Nat.add_sub_cancel' behind]
    by_cases high : place < 32
    · simp only [behind, decide_true, Bool.true_and, show place - i < 32 - i by omega, Bool.and_true]
    · rw [Nat.testBit_lt_two_pow (Nat.lt_of_lt_of_le small (Nat.pow_le_pow_right (by omega) (by omega)))]
      simp
  · simp [behind]

/-- A boundary of a fine size is passed on the way to one of a coarse size. -/
theorem roundUp_roundUp {fine coarse : Nat} (positive : 0 < fine) (divides : fine ∣ coarse)
    (some' : 0 < coarse) : roundUp (roundUp inLen fine) coarse = roundUp inLen coarse := by
  have reached := le_roundUp inLen positive
  have passed : roundUp inLen fine ≤ roundUp inLen coarse :=
    roundUp_le (Nat.dvd_trans divides (dvd_roundUp inLen coarse)) (le_roundUp inLen some')
  have near := roundUp_lt inLen some'
  exact roundUp_eq (dvd_roundUp inLen coarse) passed (by omega)

theorem roundUp_apart {fine coarse : Nat} (divides : fine ∣ coarse) (aligned : fine ∣ inLen)
    (some' : 0 < coarse) (between : ¬ coarse ∣ inLen) : inLen + fine ≤ roundUp inLen coarse := by
  have reached := le_roundUp inLen some'
  have other : inLen ≠ roundUp inLen coarse := by
    intro same
    exact between (same ▸ dvd_roundUp inLen coarse)
  have gap := Nat.dvd_sub (Nat.dvd_trans divides (dvd_roundUp inLen coarse)) aligned
  have least := Nat.le_of_dvd (by omega) gap
  omega

/-! ## The loops -/

/-- A loop that ends has either met a write that was cut short, or done what it is for. -/
def Completed (complete : Nat → Bool) (done : Output → Prop) : Except Output Output → Prop
  | .error _ => ∃ call, complete call = false
  | .ok out => done out

theorem fillLoop_completed (enough : inLen ≤ out.outLen + count) (reached : out.outLen ≤ inLen) :
    Completed complete
      (fun filled => filled.bytes = out.bytes ++ List.replicate (inLen - out.outLen) 0xff ∧
        filled.outLen = inLen)
      (fillLoop complete inLen count out) := by
  induction count generalizing out with
  | zero =>
      have same : out.outLen = inLen := by omega
      rw [fillLoop]
      exact ⟨by rw [same, Nat.sub_self, List.replicate_zero, List.append_nil], same⟩
  | succ count ih =>
      rw [fillLoop]
      by_cases short : out.outLen < inLen
      · rw [if_pos short]
        generalize full : min (inLen - out.outLen) BUF_SIZE = len
        have some' : 0 < len := by
          rw [BUF_SIZE] at full
          omega
        cases taken : complete out.calls with
        | false =>
            simp only [Output.write, taken, Bool.false_eq_true, if_false]
            exact ⟨out.calls, taken⟩
        | true =>
            simp only [Output.write, taken, if_true, List.length_replicate]
            have rest := @ih ⟨out.calls + 1, out.bytes ++ List.replicate len 0xff, out.outLen + len⟩
              (by dsimp only; omega) (by dsimp only; omega)
            show Completed complete _ (fillLoop complete inLen count _)
            simp only [List.append_assoc, List.replicate_append_replicate] at rest
            rw [show len + (inLen - (out.outLen + len)) = inLen - out.outLen by omega] at rest
            exact rest
      · have same : out.outLen = inLen := by omega
        rw [if_neg short]
        exact ⟨by rw [same, Nat.sub_self, List.replicate_zero, List.append_nil], same⟩

theorem Pad.length_bounds (pad : Pad) : 0 < pad.bytes.length ∧ pad.bytes.length ≤ 1024 := by
  cases pad <;> decide

/-- `tail` stands at `start`: marks on the next boundary of each size, and else ones. -/
structure Marked (pad : Pad) (padMask : BitVec 32) (inLen start : Nat) (tail : List UInt8) : Prop where
  marks : ∀ j, padMask.getLsbD j = true →
    slice tail (roundUp inLen (2 ^ j) - start) pad.bytes.length = pad.bytes
  ones : ∀ place, place < tail.length →
    (∀ j, padMask.getLsbD j = true →
      laidAt (roundUp inLen (2 ^ j) - start) pad.bytes place = none) → tail[place]? = some 0xff

/-- One round: ones up to a boundary, the mark of the sizes it is for, and the rest. -/
theorem Marked.round {padMask left : BitVec 32} {start aligned : Nat} {tail : List UInt8}
    (behind : Marked pad left aligned (aligned + pad.bytes.length) tail) (reached : start ≤ aligned)
    (sizes : ∀ j, padMask.getLsbD j = true → roundUp inLen (2 ^ j) = aligned ∨ left.getLsbD j = true)
    (later : ∀ j, left.getLsbD j = true → padMask.getLsbD j = true ∧
      roundUp inLen (2 ^ j) = roundUp aligned (2 ^ j) ∧
        aligned + pad.bytes.length ≤ roundUp aligned (2 ^ j))
    (here : ∃ j, padMask.getLsbD j = true ∧ roundUp inLen (2 ^ j) = aligned) :
    Marked pad padMask inLen start (List.replicate (aligned - start) 0xff ++ (pad.bytes ++ tail)) := by
  have filled : (List.replicate (aligned - start) (0xff : UInt8)).length = aligned - start :=
    List.length_replicate
  constructor
  · intro j set
    rcases sizes j set with now | setLeft
    · rw [now, slice, List.drop_left' filled, List.take_left]
    · obtain ⟨-, same, far⟩ := later j setLeft
      have mark := behind.marks j setLeft
      have place : roundUp inLen (2 ^ j) - start = (aligned - start) + (pad.bytes.length +
          (roundUp aligned (2 ^ j) - (aligned + pad.bytes.length))) := by omega
      rw [slice, place, ← List.drop_drop, List.drop_left' filled, ← List.drop_drop, List.drop_left]
      exact mark
  · intro place inside apart
    rw [List.length_append, List.length_append, filled] at inside
    by_cases before : place < aligned - start
    · rw [List.getElem?_append_left (by omega), List.getElem?_replicate, if_pos before]
    · obtain ⟨j, set, boundary⟩ := here
      have unmarked := laidAt_eq_none_iff.mp (apart j set)
      rw [boundary] at unmarked
      rw [List.getElem?_append_right (by omega), filled, List.getElem?_append_right (by omega)]
      apply behind.ones
      · omega
      · intro other otherLeft
        obtain ⟨otherSet, same, far⟩ := later other otherLeft
        have otherApart := laidAt_eq_none_iff.mp (apart other otherSet)
        rw [laidAt_eq_none_iff]
        omega

/-- What `padLoop` is for. -/
def MarksLaid (pad : Pad) (padMask : BitVec 32) (inLen : Nat) (out done : Output) : Prop :=
  ∃ tail, done.bytes = out.bytes ++ tail ∧ Marked pad padMask inLen out.outLen tail

theorem padLoop_completed {fuel low : Nat} (coarse : 10 ≤ low)
    (sizes : ∀ j, padMask.getLsbD j = true → low ≤ j) (enough : 32 < fuel + low) (few : low ≤ 32)
    (below : ∀ j, padMask.getLsbD j = true → roundUp inLen (2 ^ j) < 2 ^ 32)
    (reached : ∀ j, padMask.getLsbD j = true → out.outLen ≤ roundUp inLen (2 ^ j)) :
    ∃ result, padLoop complete pad fuel padMask inLen out = some result ∧
      Completed complete (MarksLaid pad padMask inLen out) result := by
  induction fuel generalizing low padMask inLen out with
  | zero => omega
  | succ fuel ih =>
      have kibibytes : Kibibytes padMask := fun j set => Nat.le_trans coarse (sizes j set)
      rw [padLoop]
      by_cases done : padMask = 0
      · rw [if_pos done]
        refine ⟨_, rfl, [], (List.append_nil _).symm, ?_, ?_⟩
        · intro j set
          simp [done] at set
        · intro place inside
          exact absurd inside (Nat.not_lt_zero place)
      · rw [if_neg done]
        obtain ⟨least, inside, set, lowest⟩ := lowestBit_spec kibibytes done
        generalize lowestBit padMask = i at least inside set lowest ⊢
        simp only [align_eq inside (below i set)]
        have positive : 0 < 2 ^ i := Nat.two_pow_pos i
        have reachedHere := reached i set
        have notBefore := le_roundUp inLen positive
        have passes : ∀ j, padMask.getLsbD j = true →
            roundUp (roundUp inLen (2 ^ i)) (2 ^ j) = roundUp inLen (2 ^ j) := fun j setJ =>
          roundUp_roundUp positive (Nat.pow_dvd_pow 2 (lowest j setJ)) (Nat.two_pow_pos j)
        have onBoundary := dvd_roundUp inLen (2 ^ i)
        have boundary : ∃ j, padMask.getLsbD j = true ∧ roundUp inLen (2 ^ j) = roundUp inLen (2 ^ i) :=
          ⟨i, set, rfl⟩
        generalize roundUp inLen (2 ^ i) = aligned at reachedHere notBefore passes onBoundary boundary ⊢
        have later : ∀ j, (clearBits padMask aligned).getLsbD j = true → padMask.getLsbD j = true ∧
            roundUp inLen (2 ^ j) = roundUp aligned (2 ^ j) ∧
              aligned + pad.bytes.length ≤ roundUp aligned (2 ^ j) := by
          intro j setLeft
          obtain ⟨setJ, between⟩ := (getLsbD_clearBits kibibytes).mp setLeft
          have apart := roundUp_apart (Nat.pow_dvd_pow 2 (lowest j setJ)) onBoundary
            (Nat.two_pow_pos j) between
          have short := pad.length_bounds.2
          have wide : 2 ^ 10 ≤ 2 ^ i := Nat.pow_le_pow_right (by decide) least
          exact ⟨setJ, (passes j setJ).symm, by omega⟩
        have left : ∀ j, padMask.getLsbD j = true →
            roundUp inLen (2 ^ j) = aligned ∨ (clearBits padMask aligned).getLsbD j = true := by
          intro j setJ
          by_cases divides : 2 ^ j ∣ aligned
          · left
            rw [← passes j setJ]
            exact roundUp_eq divides (Nat.le_refl _) (Nat.lt_add_of_pos_right (Nat.two_pow_pos j))
          · right
            exact (getLsbD_clearBits kibibytes).mpr ⟨setJ, divides⟩
        have filled := @fillLoop_completed complete out aligned (aligned - out.outLen)
          (by omega) reachedHere
        cases ran : fillLoop complete aligned (aligned - out.outLen) out with
        | error out =>
            rw [ran] at filled
            exact ⟨_, rfl, filled⟩
        | ok full =>
            rw [ran] at filled
            obtain ⟨ones, length⟩ := filled
            simp only [Output.write]
            cases taken : complete full.calls with
            | false => exact ⟨_, rfl, full.calls, taken⟩
            | true =>
                have leftSizes : ∀ j, (clearBits padMask aligned).getLsbD j = true → i + 1 ≤ j := by
                  intro j setLeft
                  obtain ⟨setJ, between⟩ := (getLsbD_clearBits kibibytes).mp setLeft
                  have other : j ≠ i := by
                    intro same
                    exact between (same ▸ onBoundary)
                  have least := lowest j setJ
                  omega
                obtain ⟨result, rest, completed⟩ := @ih (clearBits padMask aligned)
                  ⟨full.calls + 1, full.bytes ++ pad.bytes, full.outLen + pad.bytes.length⟩ aligned
                  (i + 1) (by omega) leftSizes (by have := sizes i set; omega) (by omega)
                  (fun j setLeft => (later j setLeft).2.1 ▸ below j (later j setLeft).1)
                  (fun j setLeft => length ▸ (later j setLeft).2.2)
                refine ⟨result, rest, ?_⟩
                cases result with
                | error out => exact completed
                | ok last =>
                    obtain ⟨tail, bytes, marked⟩ := completed
                    refine ⟨_, ?_, Marked.round (length ▸ marked) reachedHere left later boundary⟩
                    rw [bytes, ones]
                    simp only [List.append_assoc]

end

end Rut9xx.Padjffs2
