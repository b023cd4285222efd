import Rut9xx.Tplink.Agreement

namespace Rut9xx.Tplink

open Rut9xx.Data

/-! # The end marks of `pad_jffs2`

The loop asks whether `len` is below the limit before it aligns it, so a round
that begins inside the buffer may put its mark behind it.
-/

variable {buf padded : List UInt8} {len currlen maxlen padMask : UInt32}

def clearPad (len remaining : UInt32) (index : Nat) : UInt32 :=
  let mask : UInt32 := 1 <<< UInt32.ofNat (index + 10)
  if len &&& (mask - 1) = 0 then remaining &&& ~~~mask else remaining

theorem clearPads_eq (padMask len : UInt32) :
    clearPads padMask len = (List.range 22).foldl (clearPad len) padMask := rfl

theorem clearPad_foldl {indices : List Nat}
    (unset : ∀ index ∈ indices, padMask &&& ~~~((1 : UInt32) <<< UInt32.ofNat (index + 10)) = padMask) :
    indices.foldl (clearPad len) padMask = padMask := by
  induction indices with
  | nil => rfl
  | cons index rest ih =>
      have here : clearPad len padMask index = padMask := by
        simp only [clearPad]
        split
        · exact unset index List.mem_cons_self
        · rfl
      rw [List.foldl_cons, here]
      exact ih fun later member => unset later (List.mem_cons_of_mem index member)

/-- A length on a 4 KiB boundary leaves the 64 KiB bit unless it is on that
boundary too. -/
theorem clearPads_marks (aligned : len &&& 4095 = 0)
    (marks : padMask = 4 * 1024 ||| 64 * 1024 ∨ padMask = 64 * 1024) :
    clearPads padMask len = if len &&& 65535 = 0 then 0 else 64 * 1024 := by
  have indices : List.range 22 =
      [0, 1] ++ 2 :: ([3, 4, 5] ++ 6 :: [7, 8, 9, 10, 11, 12, 13, 14, 15, 16, 17, 18, 19, 20, 21]) := by
    decide
  have front : [0, 1].foldl (clearPad len) padMask = padMask := by
    apply clearPad_foldl
    rcases marks with rfl | rfl <;> decide
  have small : clearPad len padMask 2 = 64 * 1024 := by
    have mask : (1 : UInt32) <<< UInt32.ofNat (2 + 10) - 1 = 4095 := by decide
    simp only [clearPad]
    rw [mask, if_pos aligned]
    rcases marks with rfl | rfl <;> decide
  have middle : [3, 4, 5].foldl (clearPad len) (64 * 1024) = 64 * 1024 :=
    clearPad_foldl (by decide)
  have large : clearPad len (64 * 1024) 6 = if len &&& 65535 = 0 then 0 else 64 * 1024 := rfl
  rw [clearPads_eq, indices, List.foldl_append, List.foldl_cons, List.foldl_append, List.foldl_cons,
    front, small, middle, large]
  apply clearPad_foldl
  split <;> decide

/-- The boundary behind the first mark is the one behind the contents. -/
theorem roundUp_again {len : Nat} (between : ¬ 65536 ∣ roundUp len 4096) :
    roundUp (roundUp len 4096 + 4) 65536 = roundUp len 65536 := by
  have reached := @le_roundUp len 4096 (by decide)
  have near := @roundUp_lt len 65536 (by decide)
  have aligned := dvd_roundUp len 4096
  have below : roundUp len 4096 ≤ roundUp len 65536 :=
    roundUp_le (Nat.dvd_trans (Dvd.intro 16 rfl) (dvd_roundUp len 65536)) (le_roundUp _ (by decide))
  have multiple := dvd_roundUp len 65536
  apply roundUp_eq multiple
  · have apart : roundUp len 4096 ≠ roundUp len 65536 := by
      intro same
      rw [same] at between
      exact between multiple
    have coarse : 4096 ∣ roundUp len 65536 := Nat.dvd_trans (Dvd.intro 16 rfl) multiple
    omega
  · omega

theorem roundUp_same {len : Nat} (aligned : 65536 ∣ roundUp len 4096) :
    roundUp len 65536 = roundUp len 4096 := by
  have near := @roundUp_lt len 4096 (by decide)
  exact roundUp_eq aligned (le_roundUp _ (by decide)) (by omega)

/-! ## The two rounds -/

/-- What the comment at `pad_mask` asks for: an end mark at 4 KiB and at 64 KiB,
and nothing else changed. -/
structure Padded (buf padded : List UInt8) (currlen after : Nat) : Prop where
  length : padded.length = buf.length
  small : slice padded (roundUp currlen 4096) 4 = jffs2EofMark
  large : slice padded (roundUp currlen 65536) 4 = jffs2EofMark
  elsewhere : ∀ place,
    laidAt (roundUp currlen 4096) jffs2EofMark place = none →
    laidAt (roundUp currlen 65536) jffs2EofMark place = none → padded[place]? = buf[place]?
  returned : after = roundUp currlen 65536 + 4

/-- `pad_jffs2` stays in the buffer and leaves both marks. -/
def MarksBoth (buf : List UInt8) (currlen maxlen : UInt32) : Prop :=
  ∃ padded after, padJffs2 buf currlen maxlen = some (padded, after) ∧
    Padded buf padded currlen.toNat after.toNat

theorem and_4095 (len : UInt32) : len &&& 4095 = 0 ↔ 4096 ∣ len.toNat := by
  have masked := @and_mask_toNat len 4096 12 rfl
  rw [← UInt32.toNat_inj, Nat.dvd_iff_mod_eq_zero]
  exact Eq.congr_left masked

theorem and_65535 (len : UInt32) : len &&& 65535 = 0 ↔ 65536 ∣ len.toNat := by
  have masked := @and_mask_toNat len 65536 16 rfl
  rw [← UInt32.toNat_inj, Nat.dvd_iff_mod_eq_zero]
  exact Eq.congr_left masked

/-- The round for the 64 KiB mark. -/
theorem padJffs2Loop_large (fuel : Nat) (short : maxlen.toNat < 2 ^ 31) (below : len < maxlen) :
    padJffs2Loop (fuel + 2) buf len maxlen (64 * 1024) =
      (writeAt buf (roundUp len.toNat 65536) jffs2EofMark).map
        fun marked => (marked, alignUp len 65536 + 4) := by
  have aligned : (alignUp len 65536).toNat = roundUp len.toNat 65536 := by
    have bound := UInt32.lt_iff_toNat_lt.mp below
    exact alignUp_toNat 16 rfl (by simp only [UInt32.reduceToNat]; omega)
  have lowest : lowestPad (64 * 1024) = 65536 := by decide
  have cleared : clearPads (64 * 1024) (alignUp len 65536) = 0 := by
    have multiple : 65536 ∣ (alignUp len 65536).toNat := aligned ▸ dvd_roundUp _ _
    have fine : 4096 ∣ (alignUp len 65536).toNat := Nat.dvd_trans (Dvd.intro 16 rfl) multiple
    rw [clearPads_marks ((and_4095 _).mpr fine) (.inr rfl), if_pos ((and_65535 _).mpr multiple)]
  rw [padJffs2Loop, if_pos ⟨below, by decide⟩]
  simp only [lowest, cleared, aligned]
  cases writeAt buf (roundUp len.toNat 65536) jffs2EofMark with
  | none => rfl
  | some marked => simp only [Option.bind_some, Option.map_some, padJffs2Loop, ne_eq, not_true,
      and_false, if_false]

/-- The round for the 4 KiB mark. -/
theorem padJffs2_small (short : maxlen.toNat < 2 ^ 31) (below : currlen < maxlen) :
    padJffs2 buf currlen maxlen =
      (writeAt buf (roundUp currlen.toNat 4096) jffs2EofMark).bind fun marked =>
        padJffs2Loop 21 marked (alignUp currlen 4096 + 4) maxlen
          (if 65536 ∣ roundUp currlen.toNat 4096 then 0 else 64 * 1024) := by
  have aligned : (alignUp currlen 4096).toNat = roundUp currlen.toNat 4096 := by
    have bound := UInt32.lt_iff_toNat_lt.mp below
    exact alignUp_toNat 12 rfl (by simp only [UInt32.reduceToNat]; omega)
  have lowest : lowestPad (4 * 1024 ||| 64 * 1024) = 4096 := by decide
  have fine : 4096 ∣ (alignUp currlen 4096).toNat := aligned ▸ dvd_roundUp _ _
  have cleared := clearPads_marks ((and_4095 _).mpr fine) (.inl rfl)
  simp only [and_65535, aligned] at cleared
  rw [padJffs2, padJffs2Loop, if_pos ⟨below, by decide⟩]
  simp only [lowest, cleared, aligned]

theorem alignUp_4096 (short : maxlen.toNat < 2 ^ 31) (below : currlen < maxlen) :
    (alignUp currlen 4096 + 4).toNat = roundUp currlen.toNat 4096 + 4 := by
  have bound := UInt32.lt_iff_toNat_lt.mp below
  have near := @roundUp_lt currlen.toNat 4096 (by decide)
  have aligned : (alignUp currlen 4096).toNat = roundUp currlen.toNat 4096 :=
    alignUp_toNat 12 rfl (by simp only [UInt32.reduceToNat]; omega)
  rw [UInt32.toNat_add, aligned]
  simp only [UInt32.reduceToNat]
  omega

theorem jffs2EofMark_length : jffs2EofMark.length = 4 := rfl

/-- A mark on a boundary of both sizes is the only one. -/
theorem padded_once (aligned : 65536 ∣ roundUp currlen.toNat 4096)
    (written : writeAt buf (roundUp currlen.toNat 4096) jffs2EofMark = some padded) :
    Padded buf padded currlen.toNat (roundUp currlen.toNat 4096 + 4) := by
  have same := roundUp_same aligned
  have mark := slice_writeAt written
  rw [jffs2EofMark_length] at mark
  constructor
  · exact writeAt_length written
  · exact mark
  · rwa [same]
  · intro place outside _
    rw [writeAt_getElem? written, outside, Option.none_or]
  · rw [same]

theorem padded_twice {marked : List UInt8}
    (apart : roundUp currlen.toNat 4096 + 4 ≤ roundUp currlen.toNat 65536)
    (small : writeAt buf (roundUp currlen.toNat 4096) jffs2EofMark = some marked)
    (large : writeAt marked (roundUp currlen.toNat 65536) jffs2EofMark = some padded) :
    Padded buf padded currlen.toNat (roundUp currlen.toNat 65536 + 4) := by
  constructor
  · rw [writeAt_length large, writeAt_length small]
  · rw [slice_writeAt_before large apart]
    exact slice_writeAt small
  · exact slice_writeAt large
  · intro place outsideSmall outsideLarge
    rw [writeAt_getElem? large, outsideLarge, Option.none_or, writeAt_getElem? small, outsideSmall,
      Option.none_or]
  · rfl

/-- Room for the mark on the 64 KiB boundary is room for both. -/
theorem marksBoth_of_room (short : maxlen.toNat < 2 ^ 31) (allocated : buf.length = maxlen.toNat)
    (room : roundUp currlen.toNat 65536 + 4 ≤ maxlen.toNat) : MarksBoth buf currlen maxlen := by
  have reached := @le_roundUp currlen.toNat 65536 (by decide)
  have below : currlen < maxlen := UInt32.lt_iff_toNat_lt.mpr (by omega)
  have after := alignUp_4096 short below
  have coarse : roundUp currlen.toNat 4096 ≤ roundUp currlen.toNat 65536 :=
    roundUp_le (Nat.dvd_trans (Dvd.intro 16 rfl) (dvd_roundUp _ _)) reached
  obtain ⟨marked, small⟩ := @writeAt_exists _ buf jffs2EofMark
    (roundUp currlen.toNat 4096) (by rw [jffs2EofMark_length]; omega)
  unfold MarksBoth
  rw [padJffs2_small short below, small, Option.bind_some]
  split
  · rename_i aligned
    refine ⟨marked, alignUp currlen 4096 + 4, ?_, after ▸ padded_once aligned small⟩
    simp only [padJffs2Loop, ne_eq, not_true, and_false, if_false]
  · rename_i between
    have again := roundUp_again between
    have apart := @le_roundUp (roundUp currlen.toNat 4096 + 4) 65536 (by decide)
    rw [again] at apart
    have belowAgain : alignUp currlen 4096 + 4 < maxlen := UInt32.lt_iff_toNat_lt.mpr (by omega)
    obtain ⟨padded, large⟩ := @writeAt_exists _ marked jffs2EofMark (roundUp currlen.toNat 65536)
      (by rw [jffs2EofMark_length, writeAt_length small]; omega)
    rw [padJffs2Loop_large 19 short belowAgain, after, again, large]
    refine ⟨padded, _, rfl, ?_⟩
    have aligned := @alignUp_toNat (alignUp currlen 4096 + 4) 65536 16 rfl
      (by simp only [UInt32.reduceToNat]; omega)
    rw [after] at aligned
    replace aligned := aligned.trans again
    have returned : (alignUp (alignUp currlen 4096 + 4) 65536 + 4).toNat =
        roundUp currlen.toNat 65536 + 4 := by
      rw [UInt32.toNat_add, aligned]
      simp only [UInt32.reduceToNat]
      omega
    rw [returned]
    exact padded_twice apart small large

theorem room_of_marksBoth (allocated : buf.length = maxlen.toNat)
    (both : MarksBoth buf currlen maxlen) : roundUp currlen.toNat 65536 + 4 ≤ maxlen.toNat := by
  obtain ⟨padded, after, -, done⟩ := both
  have inside := congrArg List.length done.large
  rw [slice, List.length_take, List.length_drop, done.length, jffs2EofMark_length] at inside
  omega

/-- `pad_jffs2` on the image buffer does what it is for exactly when the mark on
the 64 KiB boundary at or behind the contents ends inside the buffer. -/
theorem padJffs2_marksBoth_iff (short : maxlen.toNat < 2 ^ 31)
    (allocated : buf.length = maxlen.toNat) :
    MarksBoth buf currlen maxlen ↔ roundUp currlen.toNat 65536 + 4 ≤ maxlen.toNat :=
  ⟨room_of_marksBoth allocated, marksBoth_of_room short allocated⟩

theorem padJffs2_marksBoth_small :
    (0x3c0000 : UInt32).toNat < 2 ^ 31 ∧
      (MarksBoth (List.replicate 0x3c0000 0xff) 0x2a1234 0x3c0000 ↔
        roundUp (0x2a1234 : UInt32).toNat 65536 + 4 ≤ (0x3c0000 : UInt32).toNat) :=
  ⟨by decide, padJffs2_marksBoth_iff (by decide) List.length_replicate⟩

/-- In the layout `4M`, contents that end in the last 4 KiB get their mark right
behind the buffer. -/
theorem padJffs2_overrun :
    ¬ ∀ (buf : List UInt8) (currlen maxlen : UInt32), maxlen.toNat < 2 ^ 31 → currlen ≤ maxlen →
      buf.length = maxlen.toNat → MarksBoth buf currlen maxlen := by
  intro always
  have both := always (List.replicate 0x3c0000 0xff) 0x3bffff 0x3c0000 (by decide) (by decide)
    List.length_replicate
  exact absurd (room_of_marksBoth List.length_replicate both) (by decide)

end Rut9xx.Tplink
