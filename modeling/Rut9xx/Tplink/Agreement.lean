import Rut9xx.Tplink.Builder

namespace Rut9xx.Tplink

open Rut9xx.Data

/-! # The splitter finds what the builder laid down -/

variable {opts : Options} {plan : Plan} {layout : FlashLayout} {md5 : List UInt8 → Md5Sum}
  {image : List UInt8} {master : MtdInfo}

/-! ## What `check_options` settles -/

theorem layouts_fwMaxLen : ∀ layout ∈ layouts, layout.fwMaxLen.toNat ≤ 0xf80000 := by decide

theorem statFile_length {arg : FileArg} {content : List UInt8} (read : statFile arg = some content) :
    content.length < 2 ^ 32 := by
  cases arg with
  | unset => simp [statFile] at read
  | unreadable => simp [statFile] at read
  | file bytes =>
      simp only [statFile, Option.some.injEq] at read
      subst read
      simp only [List.length_take]
      omega

theorem fileSize_toNat {content : List UInt8} (short : content.length < 2 ^ 32) :
    (fileSize content).toNat = content.length := by
  simp only [fileSize, UInt32.toNat_ofNat']
  omega

/-- What is left of `check_options` in the non-combined layout. -/
structure Settled (opts : Options) (plan : Plan) (layout : FlashLayout) : Prop where
  layoutEq : plan.layout = some layout
  small : layout.fwMaxLen.toNat ≤ 0xf80000
  placed : placeRootfs (layout.fwMaxLen - opts.reservedSpace)
    (orDefault opts.rootfsOfs layout.rootfsOfs) opts.rootfsAlign plan.kernelLen
    (fileSize plan.rootfs) = some plan.rootfsOfs
  kernelShort : plan.kernel.length < 2 ^ 32
  rootfsShort : plan.rootfs.length < 2 ^ 32
  version : hdrVersion opts.optHdrVer = some plan.hdrVer

theorem checkOptions_settled (checked : checkOptions opts = some plan)
    (separate : opts.combined = false) : ∃ layout, Settled opts plan layout := by
  simp only [checkOptions, checkLayout, finishPlan, separate, Option.bind_eq_bind,
    Option.bind_eq_some_iff, require_eq_some, Bool.false_eq_true, if_false,
    Option.some.injEq] at checked
  obtain ⟨-, -, hwId, -, -, -, region, -, layout, found, -, -, kernel, kernelRead, rootfs,
    rootfsRead, rootfsOfs, placed, -, -, fwVer, -, hdrVer, version, rfl⟩ := checked
  exact ⟨layout, {
    layoutEq := rfl
    small := layouts_fwMaxLen layout (List.mem_of_find?_eq_some found)
    placed := placed
    kernelShort := statFile_length kernelRead
    rootfsShort := statFile_length rootfsRead
    version := version }⟩

/-! ## What `build_fw` writes -/

theorem strncpy_length (text : List UInt8) (size : Nat) : (strncpy text size).length = size := by
  simp only [strncpy, List.length_append, List.length_take, List.length_replicate]
  omega

theorem swapIf_length (swap : Bool) (bytes : List UInt8) :
    (swapIf swap bytes).length = bytes.length := by
  cases swap <;> simp [swapIf]

theorem headerFront_length (sum : List UInt8) : (headerFront opts plan sum).length = 124 := by
  simp only [headerFront, List.length_append, be32_length, strncpy_length, swapIf_length,
    List.length_replicate, MD5SUM_LEN]

theorem headerBytes_length (sum : List UInt8) : (headerBytes opts plan sum).length = 512 := by
  simp only [headerBytes, headerBack, List.length_append, headerFront_length, be32_length,
    be16_length, strncpy_length, List.length_replicate]

theorem lowestPad_toNat (padMask : UInt32) :
    0 < (lowestPad padMask).toNat ∧ (lowestPad padMask).toNat ≤ 2 ^ 31 := by
  have masks : ∀ index < 22, 0 < ((1 : UInt32) <<< UInt32.ofNat (index + 10)).toNat ∧
      ((1 : UInt32) <<< UInt32.ofNat (index + 10)).toNat ≤ 2 ^ 31 := by decide
  unfold lowestPad
  cases found : List.find? _ _ with
  | none => decide
  | some mask =>
      obtain ⟨index, inside, rfl⟩ := List.mem_map.mp (List.mem_of_find?_eq_some found)
      exact masks index (List.mem_range.mp inside)

/-- The end marks go behind what is there, and the length only grows. -/
theorem padJffs2Loop_spec {fuel : Nat} {buf padded : List UInt8} {len maxlen padMask after : UInt32}
    (short : maxlen.toNat ≤ 2 ^ 31) (lenShort : len.toNat ≤ 2 ^ 31)
    (looped : padJffs2Loop fuel buf len maxlen padMask = some (padded, after))
    (bufShort : buf.length ≤ 2 ^ 31) :
    padded.length = buf.length ∧ len ≤ after ∧ padded.take len.toNat = buf.take len.toNat := by
  induction fuel generalizing buf len padMask with
  | zero =>
      simp only [padJffs2Loop, Option.some.injEq, Prod.mk.injEq] at looped
      obtain ⟨rfl, rfl⟩ := looped
      exact ⟨rfl, UInt32.le_refl _, rfl⟩
  | succ fuel ih =>
      rw [padJffs2Loop] at looped
      split at looped
      · rename_i going
        obtain ⟨marked, written, rest⟩ := Option.bind_eq_some_iff.mp looped
        have mask := lowestPad_toNat padMask
        have below := UInt32.lt_iff_toNat_lt.mp going.1
        have up := le_alignUp mask.1 (x := len) (by omega)
        have fits := writeAt_fits written
        simp only [jffs2EofMark, List.length_cons, List.length_nil] at fits
        have next : (alignUp len (lowestPad padMask) + 4).toNat =
            (alignUp len (lowestPad padMask)).toNat + 4 := by
          simp only [UInt32.toNat_add, UInt32.reduceToNat]
          omega
        obtain ⟨lengthEq, grows, same⟩ := ih (by omega) rest (by rw [writeAt_length written]; omega)
        rw [writeAt_length written] at lengthEq
        refine ⟨lengthEq, ?_, ?_⟩
        · rw [UInt32.le_iff_toNat_le] at grows ⊢
          omega
        · have cut := congrArg (List.take len.toNat) same
          rw [List.take_take, List.take_take, Nat.min_eq_left (by omega)] at cut
          rw [cut, writeAt_take written up]
      · simp only [Option.some.injEq, Prod.mk.injEq] at looped
        obtain ⟨rfl, rfl⟩ := looped
        exact ⟨rfl, UInt32.le_refl _, rfl⟩

theorem addRootfs_spec {buf : List UInt8} {content : List UInt8 × Nat}
    (small : layout.fwMaxLen.toNat ≤ 0xf80000) (bufLength : buf.length = layout.fwMaxLen.toNat)
    (short : plan.rootfs.length < 2 ^ 32) (added : addRootfs opts plan layout buf = some content) :
    ∃ filled, writeAt buf plan.rootfsOfs.toNat plan.rootfs = some filled ∧
      content.1.length = buf.length ∧ plan.rootfsOfs.toNat + plan.rootfs.length ≤ content.2 ∧
      content.1.take (plan.rootfsOfs.toNat + plan.rootfs.length) =
        filled.take (plan.rootfsOfs.toNat + plan.rootfs.length) := by
  simp only [addRootfs, Option.bind_eq_bind, Option.bind_eq_some_iff] at added
  obtain ⟨filled, written, added⟩ := added
  have fits := writeAt_fits written
  have writelen : (plan.rootfsOfs + fileSize plan.rootfs).toNat =
      plan.rootfsOfs.toNat + plan.rootfs.length := by
    rw [UInt32.toNat_add, fileSize_toNat short]
    omega
  refine ⟨filled, written, ?_⟩
  split at added
  · obtain ⟨⟨padded, after⟩, looped, rfl⟩ := Option.map_eq_some_iff.mp added
    obtain ⟨lengthEq, grows, same⟩ := padJffs2Loop_spec (by omega) (by omega) looped
      (by rw [writeAt_length written]; omega)
    rw [UInt32.le_iff_toNat_le, writelen] at grows
    rw [writelen] at same
    exact ⟨lengthEq.trans (writeAt_length written), grows, same⟩
  · simp only [Option.some.injEq] at added
    subst added
    exact ⟨writeAt_length written, by simp only [writelen]; exact Nat.le_refl _, rfl⟩

theorem fillHeader_spec {content filled : List UInt8} {len : Nat}
    (layoutEq : plan.layout = some layout)
    (done : fillHeader md5 opts plan content len = some filled) :
    filled.length = content.length ∧ len ≤ content.length ∧
      (∃ sum, slice filled 0 512 = headerBytes opts plan sum) ∧
      filled.drop 512 = content.drop 512 := by
  simp only [fillHeader, layoutEq, Option.bind_eq_bind, Option.bind_eq_some_iff,
    require_eq_some, decide_eq_true_eq] at done
  obtain ⟨salted, first, -, inside, second⟩ := done
  have lengthEq := writeAt_length first
  have header := slice_writeAt second
  rw [headerBytes_length] at header
  refine ⟨(writeAt_length second).trans lengthEq, by omega, ⟨_, header⟩, ?_⟩
  rw [writeAt_drop second (by rw [headerBytes_length]), writeAt_drop first
    (by rw [headerBytes_length])]

/-- The parts of the image, when kernel and rootfs do not collide. -/
structure Laid (opts : Options) (plan : Plan) (image : List UInt8) : Prop where
  long : plan.rootfsOfs.toNat + plan.rootfs.length ≤ image.length
  header : ∃ sum, slice image 0 512 = headerBytes opts plan sum
  kernel : slice image 512 plan.kernel.length = plan.kernel
  rootfs : slice image plan.rootfsOfs.toNat plan.rootfs.length = plan.rootfs

theorem slice_of_drop_eq {left right : List UInt8} {start count : Nat}
    (same : left.drop 512 = right.drop 512) (behind : 512 ≤ start) :
    slice left start count = slice right start count := by
  have cut := congrArg (fun bytes => (bytes.drop (start - 512)).take count) same
  simpa only [List.drop_drop, Nat.add_sub_cancel' behind, slice] using cut

/-- A successful build fits both files in the flash layout. -/
theorem buildFw_fits (settled : Settled opts plan layout)
    (built : buildFw md5 opts plan = some image) :
    512 + plan.kernel.length ≤ layout.fwMaxLen.toNat ∧
      plan.rootfsOfs.toNat + plan.rootfs.length ≤ layout.fwMaxLen.toNat := by
  simp only [buildFw, settled.layoutEq, Option.bind_eq_bind, Option.bind_eq_some_iff,
    Option.map_some, Option.getD_some] at built
  obtain ⟨withKernel, kernelWritten, content, added, -⟩ := built
  have kernelFits := writeAt_fits kernelWritten
  have kernelLength := writeAt_length kernelWritten
  rw [List.length_replicate] at kernelFits kernelLength
  obtain ⟨filled, rootfsWritten, -⟩ := addRootfs_spec settled.small kernelLength
    settled.rootfsShort added
  have rootfsFits := writeAt_fits rootfsWritten
  exact ⟨kernelFits, by omega⟩

theorem buildFw_laid (settled : Settled opts plan layout)
    (apart : 512 + plan.kernel.length ≤ plan.rootfsOfs.toNat)
    (built : buildFw md5 opts plan = some image) : Laid opts plan image := by
  have fits := buildFw_fits settled built
  simp only [buildFw, settled.layoutEq, Option.bind_eq_bind, Option.bind_eq_some_iff,
    Option.map_some, Option.getD_some, require_eq_some, decide_eq_true_eq, Option.some.injEq] at built
  obtain ⟨withKernel, kernelWritten, content, added, full, headed, -, -, rfl⟩ := built
  have kernelLength := writeAt_length kernelWritten
  rw [List.length_replicate] at kernelLength
  obtain ⟨filled, rootfsWritten, contentLength, writelen, same⟩ :=
    addRootfs_spec settled.small kernelLength settled.rootfsShort added
  obtain ⟨fullLength, lenFits, header, behind⟩ := fillHeader_spec settled.layoutEq headed
  have long : plan.rootfsOfs.toNat + plan.rootfs.length ≤
      if opts.stripPadding then content.2 else layout.fwMaxLen.toNat := by
    split
    · exact writelen
    · exact fits.2
  -- Slices below the end of the rootfs are those of the buffer before the end marks.
  have plain (start count : Nat) (below : start + count ≤ plan.rootfsOfs.toNat + plan.rootfs.length) :
      slice content.1 start count = slice filled start count := by
    rw [← slice_take below, same, slice_take below]
  constructor
  · rw [List.length_take]
    omega
  · obtain ⟨sum, header⟩ := header
    exact ⟨sum, by rw [slice_take (by omega), header]⟩
  · rw [slice_take (by omega), slice_of_drop_eq behind (Nat.le_refl _), plain _ _ (by omega),
      slice_writeAt_before rootfsWritten apart]
    exact slice_writeAt kernelWritten
  · rw [slice_take long, slice_of_drop_eq behind (by omega), plain _ _ (Nat.le_refl _)]
    exact slice_writeAt rootfsWritten

/-! ## What the parser reads back -/

theorem le32_headerBytes {bytes sum : List UInt8} (version : opts.optHdrVer = 1)
    (hdrVer : hdrVersion opts.optHdrVer = some plan.hdrVer)
    (header : bytes = headerBytes opts plan sum) : le32 bytes = 1 := by
  have first : plan.hdrVer = HEADER_VERSION_V1 := by simpa [hdrVersion, version] using hdrVer.symm
  have front : bytes.take 4 = be32 HEADER_VERSION_V1 := by
    simp only [header, headerBytes, headerFront, first, List.append_assoc]
    rfl
  rw [le32, front]
  decide

theorem headerBytes_fields (sum : List UInt8) (layoutEq : plan.layout = some layout) :
    be32At (headerBytes opts plan sum) 128 = fwHeaderSize ∧
      be32At (headerBytes opts plan sum) 132 = plan.kernelLen ∧
      be32At (headerBytes opts plan sum) 136 = plan.rootfsOfs := by
  have front : (headerFront opts plan sum).length = 124 := headerFront_length sum
  have kernelOfs := be32At_append
    (headerFront opts plan sum ++ be32 ((plan.layout.map FlashLayout.fwMaxLen).getD 0))
    (be32 plan.kernelLen ++ (be32 (headerRootfsOfs opts plan) ++
      (be32 (fileSize plan.rootfs) ++ (be32 0 ++ (be32 0 ++ headerBack plan))))) fwHeaderSize
  have kernelLen := be32At_append
    (headerFront opts plan sum ++ be32 ((plan.layout.map FlashLayout.fwMaxLen).getD 0) ++
      be32 fwHeaderSize)
    (be32 (headerRootfsOfs opts plan) ++
      (be32 (fileSize plan.rootfs) ++ (be32 0 ++ (be32 0 ++ headerBack plan)))) plan.kernelLen
  have rootfsOfs := be32At_append
    (headerFront opts plan sum ++ be32 ((plan.layout.map FlashLayout.fwMaxLen).getD 0) ++
      be32 fwHeaderSize ++ be32 plan.kernelLen)
    (be32 (fileSize plan.rootfs) ++ (be32 0 ++ (be32 0 ++ headerBack plan)))
    (headerRootfsOfs opts plan)
  simp only [List.append_assoc, List.length_append, front, be32_length] at kernelOfs kernelLen rootfsOfs
  have rootfsOfsEq : headerRootfsOfs opts plan = plan.rootfsOfs := by
    simp only [headerRootfsOfs, layoutEq]
  exact ⟨kernelOfs, kernelLen, rootfsOfs.trans rootfsOfsEq⟩

theorem mtdRead_slice {start len : Nat} (positive : 0 < len) (inside : start + len ≤ master.size) :
    mtdRead master start len = .ok (slice master.flash start len) := by
  rw [mtdRead, if_pos ⟨by omega, by omega⟩]

theorem slice_placed {start count : Nat} (placed : image <+: master.flash)
    (inside : start + count ≤ image.length) :
    slice master.flash start count = slice image start count := by
  obtain ⟨rest, whole⟩ := placed
  rw [← whole, slice_append_left inside]

theorem slice_prefix {bytes front : List UInt8} {start count : Nat}
    (whole : slice bytes start count = image) (begins : front <+: image) :
    slice bytes start front.length = front := by
  obtain ⟨rest, rfl⟩ := begins
  have size : (front ++ rest).length ≤ count := by
    rw [← whole, slice, List.length_take]
    omega
  have cut := congrArg (List.take front.length) whole
  rw [List.take_left, slice, List.take_take, Nat.min_eq_left (by simp at size; omega)] at cut
  exact cut

theorem mtdCheckRootfsMagic_squashfs {offset : Nat} (inside : offset + 4 ≤ master.size)
    (magic : slice master.flash offset 4 = squashfsMagic) :
    mtdCheckRootfsMagic master offset = .ok .squashfs := by
  rw [mtdCheckRootfsMagic, mtdRead_slice (by decide) inside, magic]
  rfl

/-! ## The agreement -/

/-- The splitter's view of an image: a kernel part of header and kernel, and a
rootfs part from the first rootfs byte to the end of the master. -/
structure Agrees (plan : Plan) (master : MtdInfo) (parts : List MtdPartition) : Prop where
  shape : parts = [⟨KERNEL_PART_NAME, 0, 512 + plan.kernel.length⟩,
    ⟨ROOTFS_PART_NAME, plan.rootfsOfs.toNat, master.size - plan.rootfsOfs.toNat⟩]
  kernel : slice master.flash 512 plan.kernel.length = plan.kernel
  rootfs : slice master.flash plan.rootfsOfs.toNat plan.rootfs.length = plan.rootfs
  disjoint : 512 + plan.kernel.length ≤ plan.rootfsOfs.toNat
  within : plan.rootfsOfs.toNat + plan.rootfs.length ≤ master.size

/-- Without a wrap of the aligned offset, `check_options` keeps the rootfs clear
of the kernel. -/
theorem placeRootfs_apart {fwMaxLen rootfsOfs rootfsAlign kernelLen rootfsLen placed : UInt32}
    (chosen : placeRootfs fwMaxLen rootfsOfs rootfsAlign kernelLen rootfsLen = some placed)
    (kernelSmall : 512 + kernelLen.toNat ≤ 0xf80000) (placedSmall : placed.toNat ≤ 0xf80000)
    (noWrap : 512 + kernelLen.toNat + rootfsAlign.toNat ≤ 2 ^ 32) :
    512 + kernelLen.toNat ≤ placed.toNat := by
  have headed : (kernelLen + fwHeaderSize).toNat = 512 + kernelLen.toNat := by
    simp only [fwHeaderSize, UInt32.toNat_add, UInt32.reduceToNat]
    omega
  unfold placeRootfs at chosen
  split at chosen
  · rename_i aligned
    dsimp only at chosen
    split at chosen
    · cases chosen
    · simp only [Option.some.injEq] at chosen
      rw [← headed, ← chosen]
      have positive : 0 < rootfsAlign.toNat := by
        rcases Nat.eq_zero_or_pos rootfsAlign.toNat with zero | positive
        · exact absurd (UInt32.toNat_inj.mp (by simpa using zero)) aligned
        · exact positive
      exact le_alignUp positive (by omega)
  · split at chosen
    · cases chosen
    · rename_i fits
      split at chosen
      · cases chosen
      · simp only [Option.some.injEq] at chosen
        subst chosen
        simp only [exceeds, fwHeaderSize, Bool.and_eq_true, decide_eq_true_eq, UInt32.toNat_sub,
          UInt32.reduceToNat] at fits
        omega

theorem placeRootfs_wrapped {fwMaxLen rootfsOfs rootfsAlign kernelLen rootfsLen placed : UInt32}
    (chosen : placeRootfs fwMaxLen rootfsOfs rootfsAlign kernelLen rootfsLen = some placed)
    (kernelSmall : 512 + kernelLen.toNat ≤ 0xf80000)
    (wraps : 2 ^ 32 < 512 + kernelLen.toNat + rootfsAlign.toNat) :
    placed.toNat < 512 + kernelLen.toNat := by
  have headed : (kernelLen + fwHeaderSize).toNat = 512 + kernelLen.toNat := by
    simp only [fwHeaderSize, UInt32.toNat_add, UInt32.reduceToNat]
    omega
  unfold placeRootfs at chosen
  split at chosen
  · dsimp only at chosen
    split at chosen
    · cases chosen
    · simp only [Option.some.injEq] at chosen
      rw [← headed, ← chosen]
      exact alignUp_lt_of_wrap (by omega)
  · rename_i unaligned
    simp only [ne_eq, Decidable.not_not] at unaligned
    simp only [unaligned, UInt32.reduceToNat] at wraps
    omega

theorem mtdsplitParseTplink_laid (settled : Settled opts plan layout)
    (built : buildFw md5 opts plan = some image) (version : opts.optHdrVer = 1)
    (magic : squashfsMagic <+: plan.rootfs) (placed : image <+: master.flash)
    (apart : 512 + plan.kernel.length ≤ plan.rootfsOfs.toNat) :
    mtdsplitParseTplink true master =
        some (.ok (tplinkParts master (512 + plan.kernel.length) plan.rootfsOfs.toNat)) ∧
      Laid opts plan image := by
  have laid := buildFw_laid settled apart built
  have fits := buildFw_fits settled built
  have small := settled.small
  have long := laid.long
  have imageLong : image.length ≤ master.size := placed.length_le
  have magicLong : 4 ≤ plan.rootfs.length := magic.length_le
  obtain ⟨sum, header⟩ := laid.header
  obtain ⟨kernelOfs, kernelLen, rootfsOfs⟩ :=
    @headerBytes_fields opts plan layout sum settled.layoutEq
  have magicAt : slice master.flash plan.rootfsOfs.toNat 4 = squashfsMagic := by
    rw [slice_placed placed (by omega)]
    exact slice_prefix laid.rootfs magic
  have kernelLenEq : plan.kernelLen.toNat = plan.kernel.length := fileSize_toNat settled.kernelShort
  have kernelSize : (tplinkFwHeaderSize + plan.kernelLen.toNat) % 2 ^ 32 =
      512 + plan.kernel.length := by
    simp only [kernelLenEq, tplinkFwHeaderSize]
    omega
  have hdr : mtdRead master 0 tplinkFwHeaderSize = .ok (headerBytes opts plan sum) := by
    have inside : 0 + 512 ≤ image.length := by omega
    rw [tplinkFwHeaderSize, mtdRead_slice (by decide) (by omega), slice_placed placed inside,
      header]
  have located : locateRootfs master plan.rootfsOfs.toNat = some (.ok plan.rootfsOfs.toNat) := by
    rw [locateRootfs, mtdCheckRootfsMagic_squashfs (by omega) magicAt]
  have offsets : headerOffsets (le32 (headerBytes opts plan sum)) = some (128, 132, 136) := by
    rw [le32_headerBytes version settled.version rfl, headerOffsets, if_pos rfl]
  refine ⟨?_, laid⟩
  simp only [mtdsplitParseTplink, hdr, offsets, kernelOfs, kernelLen, rootfsOfs, kernelSize, located]
  rw [if_neg (by decide), if_neg (by omega)]
  rfl

/-- For every accepted non-combined version-1 build, the splitter agrees with
the builder exactly when aligning the rootfs behind the kernel does not wrap. -/
theorem builder_splitter_agree_iff (checked : checkOptions opts = some plan)
    (separate : opts.combined = false) (version : opts.optHdrVer = 1)
    (built : buildFw md5 opts plan = some image) (magic : squashfsMagic <+: plan.rootfs)
    (placed : image <+: master.flash) :
    (∃ parts, mtdsplitParseTplink true master = some (.ok parts) ∧ Agrees plan master parts) ↔
      512 + plan.kernel.length + opts.rootfsAlign.toNat ≤ 2 ^ 32 := by
  obtain ⟨layout, settled⟩ := checkOptions_settled checked separate
  have fits := buildFw_fits settled built
  have small := settled.small
  have kernelLenEq : plan.kernelLen.toNat = plan.kernel.length := fileSize_toNat settled.kernelShort
  constructor
  · rintro ⟨parts, -, agrees⟩
    by_contra wraps
    have below := placeRootfs_wrapped settled.placed (by omega) (by omega)
    have disjoint := agrees.disjoint
    omega
  · intro noWrap
    have apart := placeRootfs_apart settled.placed (by omega) (by omega) (by omega)
    rw [kernelLenEq] at apart
    obtain ⟨parsed, laid⟩ := mtdsplitParseTplink_laid settled built version magic placed apart
    have imageLong : image.length ≤ master.size := placed.length_le
    have long := laid.long
    exact ⟨_, parsed, {
      shape := rfl
      kernel := (slice_placed placed (by omega)).trans laid.kernel
      rootfs := (slice_placed placed long).trans laid.rootfs
      disjoint := apart
      within := by omega }⟩

/-! ## Concrete builds -/

theorem buildFw_exists (md5 : List UInt8 → Md5Sum) (layoutEq : plan.layout = some layout)
    (noMarks : opts.addJffs2Eof = false) (noStrip : opts.stripPadding = false)
    (kernelFits : 512 + plan.kernel.length ≤ layout.fwMaxLen.toNat)
    (rootfsFits : plan.rootfsOfs.toNat + plan.rootfs.length ≤ layout.fwMaxLen.toNat) :
    ∃ image, buildFw md5 opts plan = some image := by
  let blank := List.replicate layout.fwMaxLen.toNat (0xff : UInt8)
  have blankLength : blank.length = layout.fwMaxLen.toNat := List.length_replicate
  obtain ⟨withKernel, kernelWritten⟩ : ∃ after, writeAt blank 512 plan.kernel = some after :=
    writeAt_exists (by omega)
  have kernelLength := writeAt_length kernelWritten
  obtain ⟨filled, rootfsWritten⟩ :
      ∃ after, writeAt withKernel plan.rootfsOfs.toNat plan.rootfs = some after :=
    writeAt_exists (by omega)
  have filledLength := writeAt_length rootfsWritten
  obtain ⟨salted, saltedWritten⟩ :
      ∃ after, writeAt filled 0 (headerBytes opts plan md5saltNormal) = some after :=
    writeAt_exists (by rw [headerBytes_length]; omega)
  have saltedLength := writeAt_length saltedWritten
  obtain ⟨image, imageWritten⟩ : ∃ after, writeAt salted 0 (headerBytes opts plan
      (md5 (salted.take layout.fwMaxLen.toNat)).1) = some after :=
    writeAt_exists (by rw [headerBytes_length]; omega)
  have imageLength := writeAt_length imageWritten
  refine ⟨image.take layout.fwMaxLen.toNat, ?_⟩
  simp only [buildFw, layoutEq, Option.bind_eq_bind, Option.bind_eq_some_iff, Option.map_some,
    Option.getD_some, require_eq_some, decide_eq_true_eq, Option.some.injEq, noStrip,
    Bool.false_eq_true, if_false]
  refine ⟨withKernel, kernelWritten, (filled, (plan.rootfsOfs + fileSize plan.rootfs).toNat), ?_,
    image, ?_, (), by omega, rfl⟩
  · simp [addRootfs, rootfsWritten, noMarks]
  · simp only [fillHeader, layoutEq, Option.bind_eq_bind, Option.bind_eq_some_iff, require_eq_some,
      decide_eq_true_eq]
    exact ⟨salted, saltedWritten, (), by omega, imageWritten⟩

/-- Kernel of one byte and a rootfs of the bare magic, in the 4M layout. -/
def sampleOptions (rootfsAlign : UInt32) : Options where
  extract := false
  hwId := some 0x09010001
  hwRev := none
  layoutId := some ['4', 'm']
  country := none
  combined := false
  kernelLa := 0
  kernelEp := 0
  kernel := .file [0x5d]
  rootfs := .file squashfsMagic
  rootfsOfs := 0
  rootfsAlign := rootfsAlign
  reservedSpace := 0
  ofname := true
  fwVer := some (1, 2, 3)
  optHdrVer := 1
  vendor := []
  version := []
  stripPadding := false
  addJffs2Eof := false
  endianSwap := false
  rootfsOfsCalc := false

def samplePlan (rootfsOfs : UInt32) : Plan where
  hwId := 0x09010001
  hwRev := 1
  region := none
  layout := some ⟨['4', 'M'], 0x3c0000, 0x80060000, 0x80060000, 0x140000⟩
  kernelLa := 0x80060000
  kernelEp := 0x80060000
  kernel := [0x5d]
  rootfs := squashfsMagic
  rootfsOfs := rootfsOfs
  fwVer := (1, 2, 3)
  hdrVer := HEADER_VERSION_V1

theorem zeroSum_length : (List.replicate MD5SUM_LEN (0 : UInt8)).length = MD5SUM_LEN :=
  List.length_replicate

def zeroMd5 : List UInt8 → Md5Sum := fun _ => ⟨List.replicate MD5SUM_LEN 0, zeroSum_length⟩

theorem sample_builds (align rootfsOfs : UInt32) (small : rootfsOfs.toNat ≤ 0x10000) :
    ∃ image, buildFw zeroMd5 (sampleOptions align) (samplePlan rootfsOfs) = some image := by
  have kernelFits : 512 + (samplePlan rootfsOfs).kernel.length ≤ 0x3c0000 := by
    simp [samplePlan]
  have rootfsFits : rootfsOfs.toNat + (samplePlan rootfsOfs).rootfs.length ≤ 0x3c0000 := by
    simp only [samplePlan, squashfsMagic, List.length_cons, List.length_nil]
    omega
  exact buildFw_exists zeroMd5 rfl rfl rfl kernelFits rootfsFits

/-- A 64 KiB alignment is the ordinary case of `builder_splitter_agree_iff`. -/
theorem builder_splitter_agree_sample : ∃ (image : List UInt8) (parts : List MtdPartition),
    buildFw zeroMd5 (sampleOptions 0x10000) (samplePlan 0x10000) = some image ∧
      mtdsplitParseTplink true ⟨image, 0x10000, .big⟩ = some (.ok parts) ∧
      Agrees (samplePlan 0x10000) ⟨image, 0x10000, .big⟩ parts := by
  obtain ⟨image, built⟩ := sample_builds 0x10000 0x10000 (by decide)
  have checked : checkOptions (sampleOptions 0x10000) = some (samplePlan 0x10000) := rfl
  have placed : image <+: (MtdInfo.mk image 0x10000 .big).flash := List.prefix_refl _
  have agreed := builder_splitter_agree_iff checked rfl rfl built (List.prefix_refl _) placed
  obtain ⟨parts, parsed, agrees⟩ := agreed.mpr (by decide)
  exact ⟨image, parts, built, parsed, agrees⟩

/-- No erase block between the kernel's start and the rootfs begins with a
rootfs magic. -/
def NoEarlierRootfs (plan : Plan) (master : MtdInfo) : Prop :=
  ∀ block, 512 ≤ block * master.erasesize → block * master.erasesize < plan.rootfsOfs.toNat →
    ∀ type, mtdCheckRootfsMagic master (block * master.erasesize) ≠ .ok type

/-- With `-a 0xfffffe00` the aligned offset wraps to 0 and the rootfs is laid
under the header. -/
theorem wrapped_alignment_disagrees :
    ¬ ∀ (opts : Options) (plan : Plan) (md5 : List UInt8 → Md5Sum) (image : List UInt8)
        (master : MtdInfo), checkOptions opts = some plan → opts.combined = false →
      opts.optHdrVer = 1 → buildFw md5 opts plan = some image → squashfsMagic <+: plan.rootfs →
      image <+: master.flash → NoEarlierRootfs plan master →
      ∃ parts, mtdsplitParseTplink true master = some (.ok parts) ∧ Agrees plan master parts := by
  intro agree
  obtain ⟨image, built⟩ := sample_builds 0xfffffe00 0 (by decide)
  have nothingEarlier : NoEarlierRootfs (samplePlan 0) ⟨image, 0x10000, .big⟩ := by
    intro block _ below
    exact absurd below (by simp [samplePlan])
  obtain ⟨parts, -, agrees⟩ := agree (sampleOptions 0xfffffe00) (samplePlan 0) zeroMd5 image
    ⟨image, 0x10000, .big⟩ rfl rfl rfl built (List.prefix_refl _) (List.prefix_refl _) nothingEarlier
  exact absurd agrees.disjoint (by decide)

end Rut9xx.Tplink
