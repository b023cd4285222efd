import Rut9xx.Tplink.Marks

namespace Rut9xx.Tplink

open Rut9xx.Data

/-! # What the size check of `check_options` is worth

`check_options` compares 32-bit differences as `int`, leaves out what `-a` adds
in front of the rootfs, and knows nothing of the end marks of `-j`.
-/

variable {opts : Options} {plan : Plan} {layout : FlashLayout} {md5 : List UInt8 → Md5Sum}
  {kernel rootfs : List UInt8}

/-! ## What is accepted -/

/-- Where the rootfs goes: on the boundary of `-a`, else at the offset of `-R`
or of the layout. -/
def rootfsStart (opts : Options) (layout : FlashLayout) (kernelLen : UInt32) : UInt32 :=
  if opts.rootfsAlign ≠ 0 then alignUp (kernelLen + fwHeaderSize) opts.rootfsAlign
  else orDefault opts.rootfsOfs layout.rootfsOfs

structure AcceptedLayout (opts : Options) (plan : Plan) (layout : FlashLayout) : Prop where
  layoutEq : plan.layout = some layout
  found : findLayout layouts (opts.layoutId.getD []) = some layout
  reserved : opts.reservedSpace ≤ layout.fwMaxLen
  kernelRead : statFile opts.kernel = some plan.kernel
  rootfsRead : statFile opts.rootfs = some plan.rootfs
  placed : placeRootfs (layout.fwMaxLen - opts.reservedSpace)
    (orDefault opts.rootfsOfs layout.rootfsOfs) opts.rootfsAlign plan.kernelLen
    (fileSize plan.rootfs) = some plan.rootfsOfs

theorem checkOptions_layout (accepted : checkOptions opts = some plan)
    (separate : opts.combined = false) : ∃ layout, AcceptedLayout opts plan layout := by
  simp only [checkOptions, checkLayout, finishPlan, separate, Option.bind_eq_bind,
    Option.bind_eq_some_iff, require_eq_some, Bool.false_eq_true, if_false,
    Option.some.injEq] at accepted
  obtain ⟨-, -, hwId, -, -, -, region, -, layout, found, -, reserved, kernel, kernelRead, rootfs,
    rootfsRead, rootfsOfs, placed, -, -, fwVer, -, hdrVer, -, rfl⟩ := accepted
  exact ⟨layout, {
    layoutEq := rfl
    found := found
    reserved := by simpa using reserved
    kernelRead := kernelRead
    rootfsRead := rootfsRead
    placed := placed }⟩

theorem checkOptions_combined (accepted : checkOptions opts = some plan)
    (combined : opts.combined = true) :
    plan.layout = none ∧ statFile opts.kernel = some plan.kernel := by
  simp only [checkOptions, checkCombined, finishPlan, combined, Option.bind_eq_bind,
    Option.bind_eq_some_iff, require_eq_some, if_true, Option.some.injEq] at accepted
  obtain ⟨-, -, hwId, -, -, -, region, -, -, -, kernel, kernelRead, -, -, fwVer, -, hdrVer, -, rfl⟩ :=
    accepted
  exact ⟨rfl, kernelRead⟩

theorem layouts_fwMaxLen_dvd : ∀ layout ∈ layouts, 65536 ∣ layout.fwMaxLen.toNat := by decide

theorem placeRootfs_start {kernelLen rootfsLen fwMaxLen placed : UInt32}
    (chosen : placeRootfs fwMaxLen (orDefault opts.rootfsOfs layout.rootfsOfs) opts.rootfsAlign
      kernelLen rootfsLen = some placed) : placed = rootfsStart opts layout kernelLen := by
  unfold placeRootfs at chosen
  unfold rootfsStart
  split at chosen
  · rename_i aligned
    rw [if_pos aligned]
    dsimp only at chosen
    split at chosen
    · cases chosen
    · exact (Option.some.inj chosen).symm
  · rename_i plain
    rw [if_neg plain]
    split at chosen
    · cases chosen
    · split at chosen
      · cases chosen
      · exact (Option.some.inj chosen).symm

/-! ## What the check is for -/

/-- Kernel and rootfs apart, the rootfs below the reserved space, and an image
built without leaving the buffer. -/
structure Suffices (md5 : List UInt8 → Md5Sum) (opts : Options) (plan : Plan) : Prop where
  apart : ∀ layout, plan.layout = some layout → 512 + plan.kernel.length ≤ plan.rootfsOfs.toNat
  below : ∀ layout, plan.layout = some layout →
    plan.rootfsOfs.toNat + plan.rootfs.length ≤ layout.fwMaxLen.toNat - opts.reservedSpace.toNat
  inside : ∃ image, buildFw md5 opts plan = some image

/-- With `-a` the boundary is not wrapped around, and the space it leaves in
front of the rootfs is there; without, no difference is longer than an `int`. -/
def PlacementFits (opts : Options) (layout : FlashLayout) (kernelLen rootfsLen : Nat) : Prop :=
  if opts.rootfsAlign ≠ 0 then
    512 + kernelLen + opts.rootfsAlign.toNat ≤ 2 ^ 32 ∧
      (alignUp (UInt32.ofNat kernelLen + fwHeaderSize) opts.rootfsAlign).toNat + rootfsLen ≤
        layout.fwMaxLen.toNat - opts.reservedSpace.toNat
  else 512 + kernelLen < 2 ^ 31 ∧
    (orDefault opts.rootfsOfs layout.rootfsOfs).toNat + rootfsLen < 2 ^ 31

/-- The marks of `-j` need the next 64 KiB boundary, unless the rootfs ends with
the layout. -/
def MarksFit (opts : Options) (layout : FlashLayout) (kernelLen rootfsLen : Nat) : Prop :=
  let ends := (rootfsStart opts layout (UInt32.ofNat kernelLen)).toNat + rootfsLen
  opts.addJffs2Eof → roundUp ends 65536 + 4 ≤ layout.fwMaxLen.toNat ∨ ends = layout.fwMaxLen.toNat

/-- The options and files for which the check is enough. -/
def CheckCovers (opts : Options) : Prop :=
  ∀ kernel, statFile opts.kernel = some kernel →
    if opts.combined then 512 + kernel.length < 2 ^ 32
    else ∀ layout rootfs, findLayout layouts (opts.layoutId.getD []) = some layout →
      statFile opts.rootfs = some rootfs →
      PlacementFits opts layout kernel.length rootfs.length ∧
        MarksFit opts layout kernel.length rootfs.length

/-! ## The placement -/

/-- Sizes that the model of the firmware keeps below `2 ^ 32`. -/
structure SmallLayout (layout : FlashLayout) (reserved : UInt32) : Prop where
  small : layout.fwMaxLen.toNat ≤ 0xf80000
  boundary : 65536 ∣ layout.fwMaxLen.toNat
  room : (layout.fwMaxLen - reserved).toNat = layout.fwMaxLen.toNat - reserved.toNat

theorem AcceptedLayout.smallLayout (accepted : AcceptedLayout opts plan layout) :
    SmallLayout layout opts.reservedSpace where
  small := layouts_fwMaxLen layout (List.mem_of_find?_eq_some accepted.found)
  boundary := layouts_fwMaxLen_dvd layout (List.mem_of_find?_eq_some accepted.found)
  room := UInt32.toNat_sub_of_le _ _ accepted.reserved

theorem noWrap_of_le_alignUp {x a : UInt32} (reached : x.toNat ≤ (alignUp x a).toNat) :
    x.toNat + a.toNat ≤ 2 ^ 32 := by
  by_contra wraps
  have below := alignUp_lt_of_wrap (x := x) (a := a) (by omega)
  omega

theorem toNat_pos_of_ne_zero {value : UInt32} (nonzero : value ≠ 0) : 0 < value.toNat := by
  rcases Nat.eq_zero_or_pos value.toNat with zero | positive
  · exact absurd (UInt32.toNat_inj.mp (by simpa using zero)) nonzero
  · exact positive

theorem placement_iff {kernelLen rootfsLen placed : UInt32}
    (sizes : SmallLayout layout opts.reservedSpace)
    (chosen : placeRootfs (layout.fwMaxLen - opts.reservedSpace)
      (orDefault opts.rootfsOfs layout.rootfsOfs) opts.rootfsAlign kernelLen rootfsLen = some placed) :
    (512 + kernelLen.toNat ≤ placed.toNat ∧
      placed.toNat + rootfsLen.toNat ≤ layout.fwMaxLen.toNat - opts.reservedSpace.toNat) ↔
      PlacementFits opts layout kernelLen.toNat rootfsLen.toNat := by
  have small := sizes.small
  have room := sizes.room
  have kernelBound := kernelLen.toNat_lt
  have rootfsBound := rootfsLen.toNat_lt
  have header : (kernelLen + fwHeaderSize).toNat = (512 + kernelLen.toNat) % 2 ^ 32 := by
    simp only [fwHeaderSize, UInt32.toNat_add, UInt32.reduceToNat]
    omega
  unfold PlacementFits
  rw [placeRootfs_start chosen, UInt32.ofNat_toNat, rootfsStart]
  split
  · rename_i aligned
    have positive := toNat_pos_of_ne_zero aligned
    constructor
    · rintro ⟨apart, below⟩
      refine ⟨?_, below⟩
      have reached := @noWrap_of_le_alignUp (kernelLen + fwHeaderSize) opts.rootfsAlign
        (by omega)
      omega
    · rintro ⟨noWrap, below⟩
      refine ⟨?_, below⟩
      have reached := le_alignUp (x := kernelLen + fwHeaderSize) positive (by omega)
      omega
  · rename_i plain
    rw [placeRootfs, if_neg plain] at chosen
    split at chosen
    · cases chosen
    rename_i kernelFits
    split at chosen
    · cases chosen
    rename_i rootfsFits
    have offsetBound := (orDefault opts.rootfsOfs layout.rootfsOfs).toNat_lt
    simp only [exceeds, fwHeaderSize, UInt32.toNat_sub, UInt32.reduceToNat, Bool.and_eq_true,
      decide_eq_true_eq, not_and, Nat.not_lt] at kernelFits rootfsFits room
    omega

/-! ## The image buffer -/

theorem padJffs2_inside_iff {buf : List UInt8} {currlen maxlen : UInt32}
    (short : maxlen.toNat < 2 ^ 31) (boundary : 65536 ∣ maxlen.toNat) (within : currlen ≤ maxlen)
    (allocated : buf.length = maxlen.toNat) :
    (∃ padded after, padJffs2 buf currlen maxlen = some (padded, after)) ↔
      roundUp currlen.toNat 65536 + 4 ≤ maxlen.toNat ∨ currlen = maxlen := by
  by_cases below : currlen < maxlen
  · have differ : currlen ≠ maxlen := UInt32.ne_of_lt below
    constructor
    · rintro ⟨padded, after, done⟩
      left
      rw [padJffs2_small short below] at done
      obtain ⟨marked, small, rest⟩ := Option.bind_eq_some_iff.mp done
      have fits := writeAt_fits small
      rw [jffs2EofMark_length] at fits
      split at rest
      · rename_i aligned
        rw [roundUp_same aligned]
        omega
      · rename_i between
        have fine := dvd_roundUp currlen.toNat 4096
        have coarse : 4096 ∣ maxlen.toNat := Nat.dvd_trans (Dvd.intro 16 rfl) boundary
        have after4 := alignUp_4096 short below
        rw [padJffs2Loop_large 19 short (UInt32.lt_iff_toNat_lt.mpr (by omega)), after4,
          roundUp_again between] at rest
        obtain ⟨_, large, -⟩ := Option.map_eq_some_iff.mp rest
        have fitsLarge := writeAt_fits large
        rw [jffs2EofMark_length, writeAt_length small] at fitsLarge
        omega
    · rintro (room | same)
      · obtain ⟨padded, after, done, -⟩ := marksBoth_of_room short allocated room
        exact ⟨padded, after, done⟩
      · exact absurd same differ
  · have same : currlen = maxlen := UInt32.le_antisymm within (UInt32.not_lt.mp below)
    simp only [same, or_true, iff_true]
    refine ⟨buf, maxlen, ?_⟩
    rw [padJffs2, padJffs2Loop, if_neg (by simp)]

theorem padJffs2_after_le {buf padded : List UInt8} {currlen maxlen after : UInt32}
    (short : maxlen.toNat < 2 ^ 31) (boundary : 65536 ∣ maxlen.toNat) (within : currlen ≤ maxlen)
    (allocated : buf.length = maxlen.toNat)
    (done : padJffs2 buf currlen maxlen = some (padded, after)) : after.toNat ≤ maxlen.toNat := by
  rcases (padJffs2_inside_iff short boundary within allocated).mp ⟨padded, after, done⟩ with
    room | same
  · obtain ⟨marked, ends, both, marks⟩ := marksBoth_of_room short allocated room
    rw [done] at both
    cases both
    rw [marks.returned]
    exact room
  · rw [padJffs2, padJffs2Loop, if_neg (by simp [same])] at done
    cases done
    exact UInt32.le_iff_toNat_le.mp within

theorem writelen_toNat (short : plan.rootfs.length < 2 ^ 32)
    (below : plan.rootfsOfs.toNat + plan.rootfs.length < 2 ^ 32) :
    (plan.rootfsOfs + fileSize plan.rootfs).toNat = plan.rootfsOfs.toNat + plan.rootfs.length := by
  rw [UInt32.toNat_add, fileSize_toNat short]
  omega

/-- The rootfs of an accepted plan goes into the buffer, and the marks where they
fit. -/
theorem addRootfs_iff {buf : List UInt8} (sizes : SmallLayout layout opts.reservedSpace)
    (allocated : buf.length = layout.fwMaxLen.toNat) (short : plan.rootfs.length < 2 ^ 32)
    (below : plan.rootfsOfs.toNat + plan.rootfs.length ≤ layout.fwMaxLen.toNat) :
    (∃ content, addRootfs opts plan layout buf = some content) ↔
      (opts.addJffs2Eof →
        roundUp (plan.rootfsOfs.toNat + plan.rootfs.length) 65536 + 4 ≤ layout.fwMaxLen.toNat ∨
          plan.rootfsOfs.toNat + plan.rootfs.length = layout.fwMaxLen.toNat) := by
  have small := sizes.small
  have writelen := @writelen_toNat plan short (by omega)
  obtain ⟨filled, written⟩ := @writeAt_exists _ buf plan.rootfs plan.rootfsOfs.toNat (by omega)
  have filledLength := writeAt_length written
  cases marks : opts.addJffs2Eof with
  | false =>
      simp only [addRootfs, written, marks, Bool.false_eq_true, if_false, Option.bind_eq_bind,
        Option.bind_some, false_implies, iff_true]
      exact ⟨_, rfl⟩
  | true =>
      have within : plan.rootfsOfs + fileSize plan.rootfs ≤ layout.fwMaxLen :=
        UInt32.le_iff_toNat_le.mpr (by omega)
      have inside := @padJffs2_inside_iff filled _ _ (by omega) sizes.boundary within (by omega)
      rw [← UInt32.toNat_inj, writelen] at inside
      simp only [addRootfs, written, marks, if_true, Option.bind_eq_bind, Option.bind_some,
        true_implies, ← inside, Option.map_eq_some_iff]
      constructor
      · rintro ⟨content, ⟨padded, after⟩, done, -⟩
        exact ⟨padded, after, done⟩
      · rintro ⟨padded, after, done⟩
        exact ⟨_, (padded, after), done, rfl⟩

theorem addRootfs_within {buf : List UInt8} {content : List UInt8 × Nat}
    (sizes : SmallLayout layout opts.reservedSpace)
    (allocated : buf.length = layout.fwMaxLen.toNat) (short : plan.rootfs.length < 2 ^ 32)
    (below : plan.rootfsOfs.toNat + plan.rootfs.length ≤ layout.fwMaxLen.toNat)
    (added : addRootfs opts plan layout buf = some content) : content.2 ≤ buf.length := by
  have small := sizes.small
  have writelen := @writelen_toNat plan short (by omega)
  simp only [addRootfs, Option.bind_eq_bind, Option.bind_eq_some_iff] at added
  obtain ⟨filled, written, added⟩ := added
  have filledLength := writeAt_length written
  split at added
  · obtain ⟨⟨padded, after⟩, done, rfl⟩ := Option.map_eq_some_iff.mp added
    have within : plan.rootfsOfs + fileSize plan.rootfs ≤ layout.fwMaxLen :=
      UInt32.le_iff_toNat_le.mpr (by omega)
    rw [allocated]
    exact padJffs2_after_le (by omega) sizes.boundary within (by omega) done
  · cases added
    rw [allocated, writelen]
    exact below

theorem fillHeader_exists {content : List UInt8} {len : Nat} (room : 512 ≤ content.length)
    (inside : len ≤ content.length) :
    ∃ filled, fillHeader md5 opts plan content len = some filled ∧
      filled.length = content.length := by
  cases layoutEq : plan.layout with
  | none =>
      obtain ⟨filled, written⟩ := @writeAt_exists _ content (headerBytes opts plan []) 0
        (by rw [headerBytes_length]; omega)
      exact ⟨filled, by simp only [fillHeader, layoutEq, written], writeAt_length written⟩
  | some layout =>
      obtain ⟨salted, first⟩ := @writeAt_exists _ content
        (headerBytes opts plan md5saltNormal) 0 (by rw [headerBytes_length]; omega)
      have saltedLength := writeAt_length first
      obtain ⟨filled, second⟩ := @writeAt_exists _ salted
        (headerBytes opts plan (md5 (salted.take len)).1) 0 (by rw [headerBytes_length]; omega)
      refine ⟨filled, ?_, by rw [writeAt_length second, saltedLength]⟩
      simp only [fillHeader, layoutEq, first, Option.bind_eq_bind, Option.bind_some]
      rw [(@require_eq_some _ ()).mpr (by rw [decide_eq_true_eq]; omega), Option.bind_some, second]

/-- With kernel and rootfs placed apart inside the layout, the image is built when
the marks fit. -/
theorem buildFw_layout_iff (sizes : SmallLayout layout opts.reservedSpace)
    (layoutEq : plan.layout = some layout) (short : plan.rootfs.length < 2 ^ 32)
    (apart : 512 + plan.kernel.length ≤ plan.rootfsOfs.toNat)
    (below : plan.rootfsOfs.toNat + plan.rootfs.length ≤ layout.fwMaxLen.toNat) :
    (∃ image, buildFw md5 opts plan = some image) ↔
      (opts.addJffs2Eof →
        roundUp (plan.rootfsOfs.toNat + plan.rootfs.length) 65536 + 4 ≤ layout.fwMaxLen.toNat ∨
          plan.rootfsOfs.toNat + plan.rootfs.length = layout.fwMaxLen.toNat) := by
  have header : fwHeaderSize.toNat = 512 := rfl
  obtain ⟨withKernel, kernelWritten⟩ := @writeAt_exists _
    (List.replicate layout.fwMaxLen.toNat (0xff : UInt8)) plan.kernel fwHeaderSize.toNat
    (by rw [List.length_replicate]; omega)
  have allocated := writeAt_length kernelWritten
  rw [List.length_replicate] at allocated
  rw [← addRootfs_iff sizes allocated short below]
  simp only [buildFw, layoutEq, Option.bind_eq_bind, Option.map_some, Option.getD_some,
    kernelWritten, Option.bind_some, Option.bind_eq_some_iff]
  constructor
  · rintro ⟨image, content, added, -⟩
    exact ⟨content, added⟩
  · rintro ⟨content, added⟩
    have len := addRootfs_within sizes allocated short below added
    obtain ⟨filled, -, contentLength, -⟩ := addRootfs_spec sizes.small allocated short added
    have inside : (if opts.stripPadding then content.2 else layout.fwMaxLen.toNat) ≤
        content.1.length := by
      split <;> omega
    obtain ⟨image, headed, imageLength⟩ := @fillHeader_exists opts plan md5 _ _ (by omega) inside
    refine ⟨_, content, added, image, headed, (), ?_, rfl⟩
    rw [require_eq_some, decide_eq_true_eq, imageLength]
    exact inside

theorem buildFw_combined_iff (combined : plan.layout = none) (short : plan.kernel.length < 2 ^ 32) :
    (∃ image, buildFw md5 opts plan = some image) ↔ 512 + plan.kernel.length < 2 ^ 32 := by
  have header : fwHeaderSize.toNat = 512 := rfl
  have writelen : (fwHeaderSize + plan.kernelLen).toNat = (512 + plan.kernel.length) % 2 ^ 32 := by
    rw [UInt32.toNat_add, Plan.kernelLen, fileSize_toNat short, header]
  simp only [buildFw, combined, Option.bind_eq_bind, Option.map_none, Option.getD_none,
    Option.bind_some, Option.bind_eq_some_iff]
  constructor
  · rintro ⟨image, withKernel, kernelWritten, -⟩
    have fits := writeAt_fits kernelWritten
    rw [List.length_replicate, header] at fits
    omega
  · intro small
    obtain ⟨withKernel, kernelWritten⟩ := @writeAt_exists _
      (List.replicate (fwHeaderSize + plan.kernelLen).toNat (0xff : UInt8)) plan.kernel
      fwHeaderSize.toNat (by rw [List.length_replicate]; omega)
    have allocated := writeAt_length kernelWritten
    rw [List.length_replicate] at allocated
    have inside : (if opts.stripPadding then (fwHeaderSize + plan.kernelLen).toNat
        else (fwHeaderSize + plan.kernelLen).toNat) ≤ withKernel.length := by
      split <;> omega
    obtain ⟨image, headed, imageLength⟩ := @fillHeader_exists opts plan md5 _ _ (by omega) inside
    refine ⟨_, withKernel, kernelWritten, image, headed, (), ?_, rfl⟩
    rw [require_eq_some, decide_eq_true_eq, imageLength]
    exact inside

/-! ## The check against what it is for -/

theorem suffices_combined_iff (accepted : checkOptions opts = some plan)
    (combined : opts.combined = true) : Suffices md5 opts plan ↔ CheckCovers opts := by
  obtain ⟨noLayout, kernelRead⟩ := checkOptions_combined accepted combined
  have built := @buildFw_combined_iff opts plan md5 noLayout (statFile_length kernelRead)
  simp only [CheckCovers, combined, if_true]
  constructor
  · intro enough kernel read
    cases kernelRead.symm.trans read
    exact built.mp enough.inside
  · intro covers
    constructor
    · intro layout same
      cases noLayout.symm.trans same
    · intro layout same
      cases noLayout.symm.trans same
    · exact built.mpr (covers plan.kernel kernelRead)

theorem suffices_layout_iff (accepted : AcceptedLayout opts plan layout)
    (separate : opts.combined = false) : Suffices md5 opts plan ↔ CheckCovers opts := by
  have sizes := accepted.smallLayout
  have kernelShort := statFile_length accepted.kernelRead
  have rootfsShort := statFile_length accepted.rootfsRead
  have kernelLen : plan.kernelLen.toNat = plan.kernel.length := fileSize_toNat kernelShort
  have placement := placement_iff sizes accepted.placed
  rw [kernelLen, fileSize_toNat rootfsShort] at placement
  have start := placeRootfs_start accepted.placed
  have marks : MarksFit opts layout plan.kernel.length plan.rootfs.length ↔
      (opts.addJffs2Eof →
        roundUp (plan.rootfsOfs.toNat + plan.rootfs.length) 65536 + 4 ≤ layout.fwMaxLen.toNat ∨
          plan.rootfsOfs.toNat + plan.rootfs.length = layout.fwMaxLen.toNat) := by
    rw [MarksFit, start, ← kernelLen, UInt32.ofNat_toNat]
  constructor
  · intro enough kernel read
    cases accepted.kernelRead.symm.trans read
    simp only [separate, Bool.false_eq_true, if_false]
    intro found rootfs foundEq rootfsRead
    cases accepted.found.symm.trans foundEq
    cases accepted.rootfsRead.symm.trans rootfsRead
    have apart := enough.apart layout accepted.layoutEq
    have below := enough.below layout accepted.layoutEq
    refine ⟨placement.mp ⟨apart, below⟩, marks.mpr ?_⟩
    exact (buildFw_layout_iff sizes accepted.layoutEq rootfsShort apart (by omega)).mp enough.inside
  · intro covers
    have fits := covers plan.kernel accepted.kernelRead
    simp only [separate, Bool.false_eq_true, if_false] at fits
    obtain ⟨placed, marked⟩ := fits layout plan.rootfs accepted.found accepted.rootfsRead
    obtain ⟨apart, below⟩ := placement.mpr placed
    constructor
    · intro other same
      exact apart
    · intro other same
      cases accepted.layoutEq.symm.trans same
      exact below
    · exact (buildFw_layout_iff sizes accepted.layoutEq rootfsShort apart (by omega)).mpr
        (marks.mp marked)

/-- What `check_options` accepts is placed and built as it should be exactly when
the space that `-a` and `-j` add is there and no size outgrows an `int`. -/
theorem checkOptions_suffices_iff (accepted : checkOptions opts = some plan) :
    Suffices md5 opts plan ↔ CheckCovers opts := by
  cases combined : opts.combined with
  | true => exact suffices_combined_iff accepted combined
  | false =>
      obtain ⟨layout, settled⟩ := checkOptions_layout accepted combined
      exact suffices_layout_iff settled combined

/-- `-F 4M` with a kernel of one byte. -/
def options4M (rootfs : List UInt8) (rootfsAlign : UInt32) : Options :=
  { extract := false, hwId := some 1, hwRev := none, layoutId := some ['4', 'M'], country := none,
    combined := false, kernelLa := 0, kernelEp := 0, kernel := .file [0], rootfs := .file rootfs,
    rootfsOfs := 0, rootfsAlign, reservedSpace := 0, ofname := true, fwVer := some (0, 0, 0),
    optHdrVer := 1, vendor := [], version := [], stripPadding := false, addJffs2Eof := false,
    endianSwap := false, rootfsOfsCalc := false }

def plan4M (rootfs : List UInt8) (rootfsOfs : UInt32) : Plan :=
  { hwId := 1, hwRev := 1, region := none,
    layout := some ⟨['4', 'M'], 0x3c0000, 0x80060000, 0x80060000, 0x140000⟩,
    kernelLa := 0x80060000, kernelEp := 0x80060000, kernel := [0], rootfs, rootfsOfs,
    fwVer := (0, 0, 0), hdrVer := HEADER_VERSION_V1 }

theorem checkOptions_suffices_small :
    checkOptions (options4M [1, 2] 0) = some (plan4M [1, 2] 0x140000) ∧
      (Suffices (fun _ => ⟨List.replicate 16 0, rfl⟩) (options4M [1, 2] 0)
          (plan4M [1, 2] 0x140000) ↔ CheckCovers (options4M [1, 2] 0)) :=
  ⟨rfl, checkOptions_suffices_iff rfl⟩

theorem padded_overruns (size : rootfs.length = 0x3bfdff) :
    checkOptions (options4M rootfs 0x10000) = some (plan4M rootfs 0x10000) ∧
      ∀ md5 : List UInt8 → Md5Sum, ¬ Suffices md5 (options4M rootfs 0x10000) (plan4M rootfs 0x10000) ∧
        buildFw md5 (options4M rootfs 0x10000) (plan4M rootfs 0x10000) = none := by
  have read : statFile (.file rootfs) = some rootfs := by
    rw [statFile, List.take_of_length_le]
    omega
  have placed : placeRootfs (0x3c0000 - 0) (orDefault 0 0x140000) 0x10000 (fileSize [0])
      (fileSize rootfs) = some 0x10000 := by
    rw [fileSize, fileSize, size]
    decide
  have accepted : checkOptions (options4M rootfs 0x10000) = some (plan4M rootfs 0x10000) := by
    change checkLayout (options4M rootfs 0x10000) 1 none = _
    have found : findLayout layouts ['4', 'M'] =
        some ⟨['4', 'M'], 0x3c0000, 0x80060000, 0x80060000, 0x140000⟩ := by decide
    have kernelRead : statFile (.file [0]) = some [0] := by decide
    simp only [checkLayout, options4M, Option.getD_some, found, kernelRead, read,
      Option.bind_eq_bind, Option.bind_some, placed]
    rfl
  have outside : 0x3c0000 < (0x10000 : UInt32).toNat + rootfs.length := by
    rw [size]
    decide
  refine ⟨accepted, fun md5 => ⟨?_, ?_⟩⟩
  · intro enough
    exact absurd (enough.below _ rfl) (Nat.not_le_of_lt outside)
  · cases built : buildFw md5 (options4M rootfs 0x10000) (plan4M rootfs 0x10000) with
    | none => rfl
    | some image =>
        obtain ⟨layout, settled⟩ := checkOptions_settled accepted rfl
        cases settled.layoutEq
        exact absurd (buildFw_fits settled built).2 (Nat.not_le_of_lt outside)

/-- The check takes kernel, header and rootfs for all there is: with `-a` 64 KiB
they fill the layout, and the rootfs behind the boundary leaves the buffer. -/
theorem checkOptions_padded :
    checkOptions (options4M (List.replicate 0x3bfdff 0) 0x10000) =
        some (plan4M (List.replicate 0x3bfdff 0) 0x10000) ∧
      ∀ md5 : List UInt8 → Md5Sum,
        ¬ Suffices md5 (options4M (List.replicate 0x3bfdff 0) 0x10000)
            (plan4M (List.replicate 0x3bfdff 0) 0x10000) ∧
          buildFw md5 (options4M (List.replicate 0x3bfdff 0) 0x10000)
            (plan4M (List.replicate 0x3bfdff 0) 0x10000) = none :=
  padded_overruns List.length_replicate

end Rut9xx.Tplink
