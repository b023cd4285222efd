import Rut9xx.Padjffs2.Marks

namespace Rut9xx.Padjffs2

open Rut9xx.Data

/-! # The file that `pad_image` leaves -/

variable {settings : Settings} {complete : Nat → Bool} {image : List UInt8} {sizes : List Nat}

/-- A padded file for alignments, counted from `offset` before the file. -/
structure Layout (pad : Pad) (alignments : Nat → Prop) (image : List UInt8) (offset : Nat)
    (file : List UInt8) : Prop where
  original : image <+: file
  marks : ∀ p, alignments p →
    slice file (roundUp (image.length + offset) p - offset) pad.bytes.length = pad.bytes
  ones : ∀ place, image.length ≤ place → place < file.length →
    (∀ p, alignments p →
      laidAt (roundUp (image.length + offset) p - offset) pad.bytes place = none) →
    file[place]? = some 0xff

theorem Marked.layout {pad : Pad} {padMask : BitVec 32} {alignments : Nat → Prop} {offset : Nat}
    {tail : List UInt8} (powers : ∀ p, alignments p ↔ ∃ j, p = 2 ^ j ∧ padMask.getLsbD j = true)
    (marked : Marked pad padMask (image.length + offset) (image.length + offset) tail) :
    Layout pad alignments image offset (image ++ tail) := by
  have behind : ∀ j, roundUp (image.length + offset) (2 ^ j) - offset =
      image.length + (roundUp (image.length + offset) (2 ^ j) - (image.length + offset)) := by
    intro j
    have reached := le_roundUp (image.length + offset) (Nat.two_pow_pos j)
    omega
  constructor
  · exact List.prefix_append image tail
  · intro p requested
    obtain ⟨j, rfl, set⟩ := (powers p).mp requested
    rw [behind, slice, ← List.drop_drop, List.drop_left]
    exact marked.marks j set
  · intro place added inside apart
    rw [List.length_append] at inside
    rw [List.getElem?_append_right added]
    apply marked.ones
    · omega
    · intro j set
      have unmarked := laidAt_eq_none_iff.mp (apart (2 ^ j) ((powers _).mpr ⟨j, rfl, set⟩))
      rw [behind] at unmarked
      rw [laidAt_eq_none_iff]
      omega

/-- A padding that succeeded leaves the file in `Layout`, or with `-c` hands out what it lacks. -/
def Padded (settings : Settings) (alignments : Nat → Prop) (image : List UInt8) (padding : Padding) :
    Prop :=
  Layout settings.pad alignments image settings.xtraOffset.toNat (padding.file ++ padding.stdout) ∧
    if settings.padToStdout then padding.file = image else padding.stdout = []

theorem padImage_padded {padMask : BitVec 32} {alignments : Nat → Prop}
    (powers : ∀ p, alignments p ↔ ∃ j, p = 2 ^ j ∧ padMask.getLsbD j = true)
    (kibibytes : Kibibytes padMask)
    (below : ∀ p, alignments p → roundUp (image.length + settings.xtraOffset.toNat) p < 2 ^ 32) :
    ∃ fuel padding, padImage settings complete fuel image padMask = some padding ∧
      (padding.ret ≠ 0 → ∃ call, complete call = false) ∧
      (padding.ret = 0 → Padded settings alignments image padding) := by
  generalize start : image.length + settings.xtraOffset.toNat = inLen at below
  obtain ⟨result, ended, completed⟩ := @padLoop_completed padMask complete settings.pad
    ⟨0, [], inLen⟩ inLen 23 10 (by omega) kibibytes (by omega) (by omega)
    (fun j set => below (2 ^ j) ((powers _).mpr ⟨j, rfl, set⟩))
    (fun j _ => le_roundUp inLen (Nat.two_pow_pos j))
  refine ⟨23, ?_⟩
  rw [padImage, start]
  simp only [ended, Option.map_some]
  refine ⟨_, rfl, ?_⟩
  cases result with
  | error out =>
      split
      · exact ⟨fun _ => completed, fun zero => by cases zero⟩
      · exact ⟨fun _ => completed, fun zero => by cases zero⟩
  | ok out =>
      obtain ⟨tail, bytes, marked⟩ := completed
      rw [← start] at marked
      have layout := Marked.layout powers marked
      have written : out.bytes = tail := bytes
      split
      · rename_i toStdout
        refine ⟨fun failed => absurd rfl failed, fun _ => ?_⟩
        rw [Padded, if_pos toStdout, written]
        exact ⟨layout, rfl⟩
      · rename_i toFile
        refine ⟨fun failed => absurd rfl failed, fun _ => ?_⟩
        rw [Padded, if_neg toFile, written, List.append_nil]
        exact ⟨layout, rfl⟩

/-! ## Requested sizes -/

/-- The powers of two that a requested size is the sum of. -/
def Summand (sizes : List Nat) (p : Nat) : Prop :=
  ∃ j, p = 2 ^ j ∧ ∃ size ∈ sizes, size.testBit j = true

/-- A size that is a power of two is its own summand. -/
theorem summand_iff_mem (powers : ∀ size ∈ sizes, ∃ i, size = 2 ^ i) {p : Nat} :
    Summand sizes p ↔ p ∈ sizes := by
  constructor
  · intro ⟨j, same, size, member, digit⟩
    obtain ⟨i, power⟩ := powers size member
    rw [power, Nat.testBit_two_pow, decide_eq_true_eq] at digit
    rw [same, ← digit, ← power]
    exact member
  · intro member
    obtain ⟨i, power⟩ := powers p member
    exact ⟨i, power, p, member, by rw [power, Nat.testBit_two_pow, decide_eq_true_eq]⟩

theorem getLsbD_padMaskOf {j : Nat} (small : ∀ size ∈ sizes, size < 2 ^ 32) :
    (padMaskOf sizes).getLsbD j = true ↔ ∃ size ∈ sizes, size.testBit j = true := by
  have general : ∀ padMask : BitVec 32,
      (sizes.foldl (fun padMask size => padMask ||| BitVec.ofNat 32 size) padMask).getLsbD j = true ↔
        padMask.getLsbD j = true ∨ ∃ size ∈ sizes, size.testBit j = true := by
    induction sizes with
    | nil => simp
    | cons size rest ih =>
        intro padMask
        have fits := small size List.mem_cons_self
        have same : (BitVec.ofNat 32 size).getLsbD j = size.testBit j := by
          rw [BitVec.getLsbD_ofNat]
          by_cases inside : j < 32
          · rw [decide_eq_true inside, Bool.true_and]
          · rw [Nat.testBit_lt_two_pow (Nat.lt_of_lt_of_le fits
              (Nat.pow_le_pow_right (by decide) (Nat.le_of_not_lt inside))), Bool.and_false]
        rw [List.foldl_cons, ih (fun other member => small other (List.mem_cons_of_mem _ member)),
          BitVec.getLsbD_or, same, Bool.or_eq_true, or_assoc]
        simp only [List.mem_cons, exists_eq_or_imp]
  rw [padMaskOf, general]
  simp

theorem padMaskOf_kibibytes (kibibytes : ∀ size ∈ sizes, 1024 ∣ size ∧ size < 2 ^ 32) :
    Kibibytes (padMaskOf sizes) := by
  intro j set
  obtain ⟨size, member, digit⟩ := (getLsbD_padMaskOf fun size member => (kibibytes size member).2).mp set
  obtain ⟨count, rfl⟩ := (kibibytes size member).1
  rw [show 1024 * count = 2 ^ 10 * count from rfl, Nat.testBit_two_pow_mul, Bool.and_eq_true,
    decide_eq_true_eq] at digit
  exact digit.1

/-- Whatever is requested, there is a mark behind the image for each power of two in it. -/
theorem padImage_marks (kibibytes : ∀ size ∈ sizes, 1024 ∣ size ∧ size < 2 ^ 32)
    (below : ∀ p, Summand sizes p →
      roundUp (image.length + settings.xtraOffset.toNat) p < 2 ^ 32) :
    ∃ fuel padding, padImage settings complete fuel image (padMaskOf sizes) = some padding ∧
      (padding.ret ≠ 0 → ∃ call, complete call = false) ∧
      (padding.ret = 0 → Padded settings (Summand sizes) image padding) := by
  apply padImage_padded
  · intro p
    simp only [Summand, getLsbD_padMaskOf fun size member => (kibibytes size member).2]
  · exact padMaskOf_kibibytes kibibytes
  · exact below

theorem summand_le {p most : Nat} (bound : ∀ size ∈ sizes, size ≤ most) (summand : Summand sizes p) :
    p ≤ most := by
  obtain ⟨j, rfl, size, member, digit⟩ := summand
  exact Nat.le_trans (Nat.ge_two_pow_of_testBit digit) (bound size member)

theorem padImage_marks_default :
    ∃ fuel padding, padImage ⟨0, .eofMark, false⟩ (fun _ => true) fuel [0x41]
        (padMaskOf [4 * 1024, 8 * 1024, 64 * 1024, 128 * 1024]) = some padding ∧
      (padding.ret ≠ 0 → ∃ call, (fun _ : Nat => true) call = false) ∧
      (padding.ret = 0 → Padded ⟨0, .eofMark, false⟩
        (Summand [4 * 1024, 8 * 1024, 64 * 1024, 128 * 1024]) [0x41] padding) := by
  apply padImage_marks
  · decide
  · intro p summand
    have small := @summand_le [4 * 1024, 8 * 1024, 64 * 1024, 128 * 1024] p (128 * 1024)
      (by decide) summand
    obtain ⟨j, rfl, -⟩ := summand
    have near := roundUp_lt ([0x41].length + (0 : UInt32).toNat) (Nat.two_pow_pos j)
    exact Nat.lt_of_lt_of_le near (by simp; omega)

/-- 12 KiB asks for what 4 KiB and 8 KiB ask for, and not for a mark at 12 KiB. -/
theorem padImage_twelve :
    ∃ fuel padding, padImage ⟨0, .eofMark, false⟩ (fun _ => true) fuel [0x41]
        (padMaskOf [12 * 1024]) = some padding ∧ padding.ret = 0 ∧
      ¬ Padded ⟨0, .eofMark, false⟩ (· ∈ [12 * 1024]) [0x41] padding := by
  have mask : padMaskOf [12 * 1024] = padMaskOf [4 * 1024, 8 * 1024] := by decide
  have small : ∀ size ∈ [4 * 1024, 8 * 1024], 1024 ∣ size ∧ size < 2 ^ 32 := by decide
  have powers : ∀ p, p ∈ [4 * 1024, 8 * 1024] ↔
      ∃ j, p = 2 ^ j ∧ (padMaskOf [12 * 1024]).getLsbD j = true := by
    intro p
    rw [← summand_iff_mem (by
      intro size member
      simp only [List.mem_cons, List.not_mem_nil, or_false] at member
      exact member.elim (fun same => ⟨12, same⟩) (fun same => ⟨13, same⟩))]
    simp only [mask, Summand, getLsbD_padMaskOf fun size member => (small size member).2]
  obtain ⟨fuel, padding, ended, failed, done⟩ := @padImage_padded ⟨0, .eofMark, false⟩
    (fun _ => true) [0x41] _ _ powers (padMaskOf_kibibytes (by decide)) (by decide)
  have zero : padding.ret = 0 := by
    by_contra nonzero
    obtain ⟨call, short⟩ := failed nonzero
    cases short
  refine ⟨fuel, padding, ended, zero, ?_⟩
  intro claimed
  have first := slice_eq_iff.mp (claimed.1.marks _ List.mem_cons_self) 0 (by decide)
  change (padding.file ++ padding.stdout)[12288]? = some 0xde at first
  have inside : 12288 < (padding.file ++ padding.stdout).length := by
    by_contra outside
    rw [List.getElem?_eq_none (Nat.le_of_not_lt outside)] at first
    cases first
  have other := (done zero).1.ones 12288 (by decide) inside (by decide)
  rw [first] at other
  exact absurd other (by decide)

end Rut9xx.Padjffs2
