import Rut9xx.Brnimg.Builder
import Rut9xx.Data.Endian
import Rut9xx.Mtdsplit.UimageSplit
import Rut9xx.Tplink.Agreement
import Rut9xx.Tplink.Builder

namespace Rut9xx.Mtdsplit

section

open Rut9xx.Data Rut9xx.Tplink

/-! # `mtdsplit`: the BRN image parser

An `unsigned long` has 32 bits here, the size of the master has 64.
-/

def BRNIMAGE_ALIGN_BYTES : Nat := 0x400
def BRNIMAGE_FOOTER_SIZE : Nat := 12
def BRNIMAGE_MIN_OVERHEAD : Nat := BRNIMAGE_FOOTER_SIZE
def BRNIMAGE_MAX_OVERHEAD : Nat := BRNIMAGE_ALIGN_BYTES + BRNIMAGE_FOOTER_SIZE

/-- A difference of two `unsigned long`s. -/
def ulongSub (x y : Nat) : Nat := (2 ^ 32 + x - y) % 2 ^ 32

/-- The search for a root file system, with `rootfs_offset` and `ret` at its end. -/
def findBrnRootfs (master : MtdInfo) :
    Nat → Nat → Except Errno Unit → Option (Nat × Except Errno Unit)
  | 0, _, _ => none
  | fuel + 1, rootfsOffset, ret =>
      if rootfsOffset < master.size then
        match mtdCheckRootfsMagic master rootfsOffset with
        | .ok _ => some (rootfsOffset, .ok ())
        | .error err =>
            findBrnRootfs master fuel ((rootfsOffset + BRNIMAGE_ALIGN_BYTES) % 2 ^ 32) (.error err)
      else some (rootfsOffset, ret)

/-- What is made of the footer in front of the root file system. -/
def brnimageParts (kzalloc : Bool) (master : MtdInfo) (rootfsOffset : Nat) :
    Except Errno (List MtdPartition) := do
  let buf ← mtdRead master (ulongSub rootfsOffset BRNIMAGE_FOOTER_SIZE) 4
  let kernelSize := (le32At buf 0).toNat
  if ulongSub rootfsOffset BRNIMAGE_MIN_OVERHEAD < kernelSize then .error .EINVAL
  else if kernelSize < ulongSub rootfsOffset BRNIMAGE_MAX_OVERHEAD then .error .EINVAL
  else
    let rootfsSize := (2 ^ 32 + master.size - rootfsOffset - BRNIMAGE_FOOTER_SIZE) % 2 ^ 32
    if !kzalloc then .error .ENOMEM
    else .ok [⟨KERNEL_PART_NAME, 0, kernelSize⟩, ⟨ROOTFS_PART_NAME, rootfsOffset, rootfsSize⟩]

/-- `mtdsplit_parse_brnimage`.  As long as offsets below the size do not repeat, `size + 1` rounds
are enough. -/
def mtdsplitParseBrnimage (kzalloc : Bool) (master : MtdInfo) :
    Option (Except Errno (List MtdPartition)) :=
  (findBrnRootfs master (master.size + 1) 0 (.ok ())).map fun (rootfsOffset, ret) => do
    ret
    if master.size ≤ rootfsOffset then .error .EINVAL
    else brnimageParts kzalloc master rootfsOffset

end

section

open Rut9xx.Data Rut9xx.Tplink
open Rut9xx.Brnimg (mkbrnimg padded paddedLen footerSize padded_length paddedLen_bounds footer_word

  mkbrnimg_pair_eq_some lzmaSignature defaultOptions)

/-! # The parts that the BRN parser finds in a built image -/

variable {master : MtdInfo} {opts : Brnimg.Options} {kernel rootfs image : List UInt8}
  {ret : Except Errno Unit} {type : MtdsplitPartType} {fuel count : Nat}

/-! ## The search -/

theorem findBrnRootfs_found {index : Nat} (reached : index ≤ count) (enough : count - index < fuel)
    (small : BRNIMAGE_ALIGN_BYTES * count < 2 ^ 32)
    (clear : ∀ earlier, earlier < count → ∀ type,
      mtdCheckRootfsMagic master (BRNIMAGE_ALIGN_BYTES * earlier) ≠ .ok type)
    (below : BRNIMAGE_ALIGN_BYTES * count < master.size)
    (found : mtdCheckRootfsMagic master (BRNIMAGE_ALIGN_BYTES * count) = .ok type) :
    findBrnRootfs master fuel (BRNIMAGE_ALIGN_BYTES * index) ret =
      some (BRNIMAGE_ALIGN_BYTES * count, .ok ()) := by
  simp only [BRNIMAGE_ALIGN_BYTES] at *
  induction fuel generalizing index ret with
  | zero => exact absurd enough (Nat.not_lt_zero _)
  | succ fuel ih =>
      rw [findBrnRootfs, if_pos (by omega)]
      rcases Nat.eq_or_lt_of_le reached with rfl | earlier
      · rw [found]
      · cases checked : mtdCheckRootfsMagic master (0x400 * index) with
        | ok other => exact absurd checked (clear index earlier other)
        | error err =>
            simp only [BRNIMAGE_ALIGN_BYTES]
            rw [Nat.mod_eq_of_lt (by omega), ← Nat.mul_succ]
            exact ih earlier (by omega)

/-- Without a root file system below 4 GiB in a larger master the offset starts again at 0. -/
theorem findBrnRootfs_endless {offset : Nat} (large : 2 ^ 32 ≤ master.size)
    (clear : ∀ index, BRNIMAGE_ALIGN_BYTES * index < 2 ^ 32 → ∀ type,
      mtdCheckRootfsMagic master (BRNIMAGE_ALIGN_BYTES * index) ≠ .ok type)
    (boundary : BRNIMAGE_ALIGN_BYTES ∣ offset) (small : offset < 2 ^ 32) :
    findBrnRootfs master fuel offset ret = none := by
  induction fuel generalizing offset ret with
  | zero => rfl
  | succ fuel ih =>
      rw [findBrnRootfs, if_pos (by omega)]
      cases checked : mtdCheckRootfsMagic master offset with
      | ok type =>
          obtain ⟨index, rfl⟩ := boundary
          exact absurd checked (clear index small type)
      | error err =>
          apply ih _ (Nat.mod_lt _ (by decide))
          obtain ⟨index, rfl⟩ := boundary
          simp only [BRNIMAGE_ALIGN_BYTES]
          exact Nat.dvd_of_mod_eq_zero (by omega)

theorem brnimageParts_of_read {kzalloc : Bool} {rootfsOffset : Nat} {buf : List UInt8}
    (read : mtdRead master (ulongSub rootfsOffset BRNIMAGE_FOOTER_SIZE) 4 = .ok buf) :
    brnimageParts kzalloc master rootfsOffset =
      if ulongSub rootfsOffset BRNIMAGE_MIN_OVERHEAD < (le32At buf 0).toNat then .error .EINVAL
      else if (le32At buf 0).toNat < ulongSub rootfsOffset BRNIMAGE_MAX_OVERHEAD then .error .EINVAL
      else if !kzalloc then .error .ENOMEM
      else .ok [⟨KERNEL_PART_NAME, 0, (le32At buf 0).toNat⟩, ⟨ROOTFS_PART_NAME, rootfsOffset,
        (2 ^ 32 + master.size - rootfsOffset - BRNIMAGE_FOOTER_SIZE) % 2 ^ 32⟩] := by
  rw [brnimageParts, read]
  rfl

/-! ## A built image at the start of the master -/

/-- The boundary behind the kernel and its footer. -/
def rootfsStart (kernel : List UInt8) : Nat := roundUp (kernel.length + footerSize) 0x400

/-- An image of a kernel and a squashfs, with no root file system at an earlier boundary. -/
structure BrnPlaced (opts : Brnimg.Options) (kernel rootfs : List UInt8) (master : MtdInfo) :
    Prop where
  built : ∃ image, mkbrnimg opts [kernel, rootfs] = some image ∧ image <+: master.flash
  squashfs : squashfsMagic <+: rootfs
  clear : ∀ index, BRNIMAGE_ALIGN_BYTES * index < rootfsStart kernel → ∀ type,
    mtdCheckRootfsMagic master (BRNIMAGE_ALIGN_BYTES * index) ≠ .ok type

/-- The kernel part has the kernel, the rootfs part begins with the root file system. -/
structure BrnSplit (kernel rootfs : List UInt8) (master : MtdInfo) (parts : List MtdPartition)
    (rootfsSize : Nat) : Prop where
  shape : parts = [⟨KERNEL_PART_NAME, 0, kernel.length⟩,
    ⟨ROOTFS_PART_NAME, rootfsStart kernel, rootfsSize⟩]
  kernelHere : slice master.flash 0 kernel.length = kernel
  rootfsHere : slice master.flash (rootfsStart kernel) rootfs.length = rootfs
  disjoint : kernel.length ≤ rootfsStart kernel
  inside : rootfsStart kernel + rootfsSize ≤ master.size

namespace BrnPlaced

theorem flash_eq (placed : BrnPlaced opts kernel rootfs master) :
    0 < kernel.length ∧ ∃ behind, master.flash =
      padded opts kernel ++ (padded opts rootfs ++ (opts.signature ++ [0] ++ behind)) := by
  obtain ⟨image, built, behind, whole⟩ := placed.built
  obtain ⟨⟨some', -⟩, -, rfl⟩ := mkbrnimg_pair_eq_some.mp built
  exact ⟨by omega, behind, by rw [← whole]; simp only [List.append_assoc]⟩

theorem kernel_here (placed : BrnPlaced opts kernel rootfs master) :
    slice master.flash 0 kernel.length = kernel := by
  obtain ⟨-, behind, flash⟩ := placed.flash_eq
  rw [flash, padded, slice, List.drop_zero, List.append_assoc, List.append_assoc, List.take_left]

theorem rootfs_here (placed : BrnPlaced opts kernel rootfs master) :
    slice master.flash (rootfsStart kernel) rootfs.length = rootfs := by
  obtain ⟨-, behind, flash⟩ := placed.flash_eq
  have start : rootfsStart kernel = (padded opts kernel).length := padded_length.symm
  rw [flash, start, slice, List.drop_left, padded, List.append_assoc, List.append_assoc, List.take_left]

theorem size_room (placed : BrnPlaced opts kernel rootfs master) :
    rootfsStart kernel + rootfs.length + footerSize ≤ master.size := by
  obtain ⟨-, behind, flash⟩ := placed.flash_eq
  have reached := le_roundUp (rootfs.length + footerSize) (show 0 < 0x400 by decide)
  have size := congrArg List.length flash
  simp only [List.length_append, padded_length] at size
  rw [rootfsStart, MtdInfo.size]
  omega

theorem footer_read (placed : BrnPlaced opts kernel rootfs master) :
    le32At (slice master.flash (paddedLen kernel.length) 4) 0 = UInt32.ofNat kernel.length := by
  obtain ⟨-, behind, flash⟩ := placed.flash_eq
  rw [le32At_slice (by decide), Nat.add_zero, flash, footer_word]

theorem found (placed : BrnPlaced opts kernel rootfs master) :
    mtdCheckRootfsMagic master (rootfsStart kernel) = .ok .squashfs := by
  have room := placed.size_room
  have magic := placed.squashfs
  have four : squashfsMagic.length = 4 := rfl
  have long := magic.length_le
  exact mtdCheckRootfsMagic_squashfs (by omega) ( slice_prefix placed.rootfs_here magic)

theorem start_cases (kernel : List UInt8) : ∃ count, rootfsStart kernel = 0x400 * count ∧
    rootfsStart kernel = paddedLen kernel.length + footerSize ∧
    kernel.length ≤ paddedLen kernel.length ∧ paddedLen kernel.length < kernel.length + 0x400 := by
  obtain ⟨reached, near, boundary⟩ := paddedLen_bounds kernel.length
  obtain ⟨count, multiple⟩ := dvd_roundUp (kernel.length + footerSize) 0x400
  exact ⟨count, multiple, boundary.symm, reached, near⟩

theorem search (placed : BrnPlaced opts kernel rootfs master) (small : rootfsStart kernel < 2 ^ 32) :
    findBrnRootfs master (master.size + 1) 0 (.ok ()) = some (rootfsStart kernel, .ok ()) := by
  obtain ⟨count, start, -⟩ := start_cases kernel
  have room := placed.size_room
  have here := placed.found
  have clear := placed.clear
  rw [footerSize] at room
  rw [start] at room small here clear ⊢
  have none' : ∀ earlier, earlier < count → ∀ type,
      mtdCheckRootfsMagic master (BRNIMAGE_ALIGN_BYTES * earlier) ≠ .ok type :=
    fun earlier before => clear earlier (by rw [BRNIMAGE_ALIGN_BYTES]; omega)
  have searched := @findBrnRootfs_found master (.ok ()) _ _ count 0 (Nat.zero_le count)
    (show count - 0 < master.size + 1 by omega) small none' (by rw [BRNIMAGE_ALIGN_BYTES]; omega) here
  rw [Nat.mul_zero] at searched
  exact searched

/-- The footer that the parser reads. -/
theorem read (placed : BrnPlaced opts kernel rootfs master) :
    mtdRead master (paddedLen kernel.length) 4 =
      .ok (slice master.flash (paddedLen kernel.length) 4) := by
  obtain ⟨count, -, start, -⟩ := start_cases kernel
  have room := placed.size_room
  rw [footerSize] at start
  exact mtdRead_slice (by decide) (by omega)

theorem parts_of_small (placed : BrnPlaced opts kernel rootfs master)
    (small : rootfsStart kernel < 2 ^ 32) :
    mtdsplitParseBrnimage true master =
      some (if kernel.length ≤ 1012 then .error .EINVAL
        else .ok [⟨KERNEL_PART_NAME, 0, kernel.length⟩,
          ⟨ROOTFS_PART_NAME, rootfsStart kernel,
            (master.size - rootfsStart kernel - footerSize) % 2 ^ 32⟩]) := by
  obtain ⟨count, boundary, start, reached, near⟩ := start_cases kernel
  have room := placed.size_room
  have some' := placed.flash_eq.1
  have word := placed.footer_read
  rw [footerSize] at start room
  have place : ulongSub (rootfsStart kernel) BRNIMAGE_FOOTER_SIZE = paddedLen kernel.length := by
    rw [ulongSub, BRNIMAGE_FOOTER_SIZE]
    omega
  have length : (UInt32.ofNat kernel.length).toNat = kernel.length := by
    rw [UInt32.toNat_ofNat']
    exact Nat.mod_eq_of_lt (by omega)
  have rest : (2 ^ 32 + master.size - rootfsStart kernel - BRNIMAGE_FOOTER_SIZE) % 2 ^ 32 =
      (master.size - rootfsStart kernel - footerSize) % 2 ^ 32 := by
    rw [BRNIMAGE_FOOTER_SIZE, footerSize]
    omega
  rw [mtdsplitParseBrnimage, placed.search small, Option.map_some]
  change some (if master.size ≤ rootfsStart kernel then _ else _) = _
  have read : mtdRead master (ulongSub (rootfsStart kernel) BRNIMAGE_FOOTER_SIZE) 4 =
      .ok (slice master.flash (paddedLen kernel.length) 4) := by rw [place, placed.read]
  rw [if_neg (by omega), brnimageParts_of_read read, word, length, rest,
    show ulongSub (rootfsStart kernel) BRNIMAGE_MIN_OVERHEAD = _ from place,
    if_neg (Nat.not_lt.mpr reached)]
  by_cases least : kernel.length ≤ 1012
  · -- The lower bound is a difference that wraps.
    have wraps : kernel.length < ulongSub (rootfsStart kernel) BRNIMAGE_MAX_OVERHEAD := by
      rw [ulongSub, BRNIMAGE_MAX_OVERHEAD, BRNIMAGE_ALIGN_BYTES, BRNIMAGE_FOOTER_SIZE]
      omega
    rw [if_pos wraps, if_pos least]
  · have within : ¬ kernel.length < ulongSub (rootfsStart kernel) BRNIMAGE_MAX_OVERHEAD := by
      rw [ulongSub, BRNIMAGE_MAX_OVERHEAD, BRNIMAGE_ALIGN_BYTES, BRNIMAGE_FOOTER_SIZE]
      omega
    rw [if_neg within, if_neg least, if_neg (by decide)]

theorem endless (placed : BrnPlaced opts kernel rootfs master)
    (large : 2 ^ 32 ≤ rootfsStart kernel) : mtdsplitParseBrnimage true master = none := by
  have room := placed.size_room
  rw [mtdsplitParseBrnimage, findBrnRootfs_endless (by omega)
    (fun index small => placed.clear index (by omega)) (Nat.dvd_zero _) (by decide), Option.map_none]

end BrnPlaced

/-- The parser finds the parts of a built image exactly when the boundary behind the kernel is
neither the first one nor beyond 32 bits. -/
theorem mtdsplitParseBrnimage_split_iff (placed : BrnPlaced opts kernel rootfs master) :
    (∃ parts rootfsSize, mtdsplitParseBrnimage true master = some (.ok parts) ∧
      BrnSplit kernel rootfs master parts rootfsSize) ↔
    1012 < kernel.length ∧ kernel.length ≤ 2 ^ 32 - 1036 := by
  obtain ⟨count, boundary, start, reached, near⟩ := BrnPlaced.start_cases kernel
  have room := placed.size_room
  rw [footerSize] at start room
  constructor
  · intro given
    obtain ⟨parts, rootfsSize, parsed, split⟩ := given
    rcases Nat.lt_or_ge (rootfsStart kernel) (2 ^ 32) with small | large
    · rw [placed.parts_of_small small] at parsed
      by_cases least : kernel.length ≤ 1012
      · rw [if_pos least] at parsed
        cases parsed
      · omega
    · rw [placed.endless large] at parsed
      cases parsed
  · intro given
    obtain ⟨more, less⟩ := given
    have small : rootfsStart kernel < 2 ^ 32 := by omega
    refine ⟨_, (master.size - rootfsStart kernel - footerSize) % 2 ^ 32, ?_, ⟨rfl, ?_, ?_, ?_, ?_⟩⟩
    · rw [placed.parts_of_small small, if_neg (by omega)]
    · exact placed.kernel_here
    · exact placed.rootfs_here
    · omega
    · have part := Nat.mod_le (master.size - rootfsStart kernel - footerSize) (2 ^ 32)
      omega

/-! ## A kernel that fills the first 1 KiB and one that does not -/

def zerosKernel (count : Nat) : List UInt8 := lzmaSignature ++ List.replicate count 0

def brnMaster (kernel : List UInt8) : MtdInfo where
  flash := padded defaultOptions kernel ++ (padded defaultOptions squashfsMagic ++
    (defaultOptions.signature ++ [0]))
  erasesize := 0x10000
  order := .big

theorem brnMaster_placed (count : Nat)
    (clear : ∀ index, BRNIMAGE_ALIGN_BYTES * index < rootfsStart (zerosKernel count) → ∀ type,
      mtdCheckRootfsMagic (brnMaster (zerosKernel count)) (BRNIMAGE_ALIGN_BYTES * index) ≠ .ok type) :
    BrnPlaced defaultOptions (zerosKernel count) squashfsMagic (brnMaster (zerosKernel count)) where
  built := ⟨_, mkbrnimg_pair_eq_some.mpr ⟨⟨by simp [zerosKernel, lzmaSignature], rfl⟩, by decide, rfl⟩,
    List.prefix_refl _⟩
  squashfs := List.prefix_refl _
  clear := clear

theorem fullKernel_placed :
    BrnPlaced defaultOptions (zerosKernel 1009) squashfsMagic (brnMaster (zerosKernel 1009)) := by
  apply brnMaster_placed
  intro index before type
  have start : rootfsStart (zerosKernel 1009) = 2048 := by decide +kernel
  rw [start, BRNIMAGE_ALIGN_BYTES] at before
  rcases (by omega : index = 0 ∨ index = 1) with rfl | rfl
  · have other : mtdCheckRootfsMagic (brnMaster (zerosKernel 1009)) (BRNIMAGE_ALIGN_BYTES * 0) =
        .error .EINVAL := by decide +kernel
    rw [other]
    exact fun impossible => nomatch impossible
  · have other : mtdCheckRootfsMagic (brnMaster (zerosKernel 1009)) (BRNIMAGE_ALIGN_BYTES * 1) =
        .error .EINVAL := by decide +kernel
    rw [other]
    exact fun impossible => nomatch impossible

theorem smallKernel_placed :
    BrnPlaced defaultOptions (zerosKernel 0) squashfsMagic (brnMaster (zerosKernel 0)) := by
  apply brnMaster_placed
  intro index before type
  have start : rootfsStart (zerosKernel 0) = 1024 := by rfl
  rw [start, BRNIMAGE_ALIGN_BYTES] at before
  obtain rfl : index = 0 := by omega
  have other : mtdCheckRootfsMagic (brnMaster (zerosKernel 0)) (BRNIMAGE_ALIGN_BYTES * 0) =
      .error .EINVAL := by decide +kernel
  rw [other]
  exact fun impossible => nomatch impossible

theorem mtdsplitParseBrnimage_split_iff_full :
    (∃ parts rootfsSize, mtdsplitParseBrnimage true (brnMaster (zerosKernel 1009)) = some (.ok parts) ∧
      BrnSplit (zerosKernel 1009) squashfsMagic (brnMaster (zerosKernel 1009)) parts rootfsSize) ↔
    1012 < (zerosKernel 1009).length ∧ (zerosKernel 1009).length ≤ 2 ^ 32 - 1036 :=
  mtdsplitParseBrnimage_split_iff fullKernel_placed

theorem mtdsplitParseBrnimage_smallKernel :
    ¬ ∀ (opts : Brnimg.Options) (kernel rootfs : List UInt8) (master : MtdInfo),
      BrnPlaced opts kernel rootfs master → ∃ parts rootfsSize,
        mtdsplitParseBrnimage true master = some (.ok parts) ∧
        BrnSplit kernel rootfs master parts rootfsSize := by
  intro always
  obtain ⟨parts, rootfsSize, parsed, -⟩ := always _ _ _ _ smallKernel_placed
  rw [BrnPlaced.parts_of_small smallKernel_placed (by decide), if_pos (by decide)] at parsed
  cases parsed

end

end Rut9xx.Mtdsplit
