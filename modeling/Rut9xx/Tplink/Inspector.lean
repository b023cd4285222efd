import Rut9xx.Tplink.Agreement

namespace Rut9xx.Tplink

open Rut9xx.Data

/-! # `mktplinkfw -i -x`: inspecting and extracting an image -/

def md5saltBoot : List UInt8 :=
  [0x8c, 0xef, 0x33, 0x5b, 0xd5, 0xc5, 0xce, 0xfa, 0xa7, 0x9c, 0x28, 0xda, 0xb2, 0xe9, 0x0f, 0x42]

/-- What `inspect_fw` prints about the sum, and the files it extracts. -/
structure Inspection where
  md5Ok : Bool
  kernel : List UInt8
  rootfs : List UInt8

/-- `fwrite` from the buffer; none when it would read past the end. -/
def extractPart (buf : List UInt8) (ofs len : UInt32) : Option (List UInt8) := do
  require (ofs.toNat + len.toNat ≤ buf.length)
  some (slice buf ofs.toNat len.toNat)

def md5sum1Ofs : Nat := 76

/-- No result when the header is read past the end of the buffer, or refused. -/
def inspectFw (md5 : List UInt8 → Md5Sum) (file : List UInt8) : Option Inspection := do
  require (fwHeaderSize.toNat ≤ file.length)
  require (be32At file 0 = HEADER_VERSION_V1 ∨ be32At file 0 = HEADER_VERSION_V2)
  let md5sum := slice file md5sum1Ofs MD5SUM_LEN
  let salted ← writeAt file md5sum1Ofs (if be32At file 148 = 0 then md5saltNormal else md5saltBoot)
  let computed ← writeAt salted md5sum1Ofs (md5 salted).1
  let kernel ← extractPart computed (be32At file 128) (be32At file 132)
  let rootfs ← extractPart computed (be32At file 136) (be32At file 140)
  some { md5Ok := md5sum = (md5 salted).1, kernel, rootfs }

variable {opts : Options} {plan : Plan} {layout : FlashLayout} {md5 : List UInt8 → Md5Sum}
  {image : List UInt8}

/-! ## What the builder lays down, byte by byte -/

/-- The places of the end marks, the length they leave behind being the loop's. -/
def padPositions : Nat → UInt32 → UInt32 → UInt32 → List UInt32 × UInt32
  | 0, len, _, _ => ([], len)
  | fuel + 1, len, maxlen, padMask =>
      if len < maxlen ∧ padMask ≠ 0 then
        let aligned := alignUp len (lowestPad padMask)
        let rest := padPositions fuel (aligned + 4) maxlen (clearPads padMask aligned)
        (aligned :: rest.1, rest.2)
      else ([], len)

/-- The byte of a mark at `place`, the later mark showing. -/
def markAt : List UInt32 → Nat → Option UInt8
  | [], _ => none
  | position :: rest, place => (markAt rest place).or (laidAt position.toNat jffs2EofMark place)

theorem padJffs2Loop_bytes {fuel : Nat} {buf padded : List UInt8} {len maxlen padMask after : UInt32}
    (looped : padJffs2Loop fuel buf len maxlen padMask = some (padded, after)) :
    after = (padPositions fuel len maxlen padMask).2 ∧
      ∀ place, padded[place]? = (markAt (padPositions fuel len maxlen padMask).1 place).or buf[place]? := by
  induction fuel generalizing buf len padMask with
  | zero =>
      simp only [padJffs2Loop, Option.some.injEq, Prod.mk.injEq] at looped
      obtain ⟨rfl, rfl⟩ := looped
      exact ⟨rfl, fun place => rfl⟩
  | succ fuel ih =>
      rw [padJffs2Loop] at looped
      rw [padPositions]
      split at looped
      · rename_i going
        rw [if_pos going]
        obtain ⟨marked, written, rest⟩ := Option.bind_eq_some_iff.mp looped
        obtain ⟨ended, bytes⟩ := ih rest
        refine ⟨ended, fun place => ?_⟩
        rw [bytes place, writeAt_getElem? written place]
        simp only [markAt, Option.or_assoc]
      · rename_i stopped
        rw [if_neg stopped]
        simp only [Option.some.injEq, Prod.mk.injEq] at looped
        obtain ⟨rfl, rfl⟩ := looped
        exact ⟨rfl, fun place => rfl⟩

/-- `padPositions` as `pad_jffs2` is called, nothing without `-j`. -/
def endMarks (opts : Options) (plan : Plan) (layout : FlashLayout) : List UInt32 × UInt32 :=
  let writelen := plan.rootfsOfs + fileSize plan.rootfs
  if opts.addJffs2Eof then padPositions 22 writelen layout.fwMaxLen (4 * 1024 ||| 64 * 1024)
  else ([], writelen)

/-- The length of the file that `build_fw` writes. -/
def builtLength (opts : Options) (plan : Plan) (layout : FlashLayout) : Nat :=
  if opts.stripPadding then (endMarks opts plan layout).2.toNat else layout.fwMaxLen.toNat

theorem addRootfs_bytes {buf : List UInt8} {content : List UInt8 × Nat}
    (added : addRootfs opts plan layout buf = some content) :
    content.2 = (endMarks opts plan layout).2.toNat ∧ ∀ place, content.1[place]? =
      ((markAt (endMarks opts plan layout).1 place).or
        (laidAt plan.rootfsOfs.toNat plan.rootfs place)).or buf[place]? := by
  simp only [addRootfs, Option.bind_eq_bind, Option.bind_eq_some_iff] at added
  obtain ⟨filled, written, added⟩ := added
  unfold endMarks
  split at added
  · rename_i marks
    obtain ⟨⟨padded, after⟩, looped, rfl⟩ := Option.map_eq_some_iff.mp added
    obtain ⟨ended, bytes⟩ := padJffs2Loop_bytes looped
    rw [if_pos marks]
    refine ⟨congrArg UInt32.toNat ended, fun place => ?_⟩
    rw [bytes place, writeAt_getElem? written place, Option.or_assoc]
  · rename_i noMarks
    rw [if_neg noMarks]
    simp only [Option.some.injEq] at added
    subst added
    exact ⟨rfl, fun place => writeAt_getElem? written place⟩

/-- The file a build writes, its header taken apart from the buffer behind it. -/
structure Built (md5 : List UInt8 → Md5Sum) (opts : Options) (plan : Plan) (layout : FlashLayout)
    (image content : List UInt8) : Prop where
  length : image.length = builtLength opts plan layout
  enough : builtLength opts plan layout ≤ content.length
  headed : ∃ sum : List UInt8, sum.length = MD5SUM_LEN ∧
    image = (headerBytes opts plan sum ++ content.drop 512).take (builtLength opts plan layout) ∧
    sum = (md5 ((headerBytes opts plan md5saltNormal ++ content.drop 512).take
      (builtLength opts plan layout))).1
  rootfsEnd : plan.rootfsOfs.toNat + plan.rootfs.length ≤ builtLength opts plan layout
  rootfs : ∀ index, index < plan.rootfs.length →
    content[plan.rootfsOfs.toNat + index]? = plan.rootfs[index]?
  kernel : ∀ index, index < plan.kernel.length → content[512 + index]? =
    ((markAt (endMarks opts plan layout).1 (512 + index)).or
      (laidAt plan.rootfsOfs.toNat plan.rootfs (512 + index))).or plan.kernel[index]?

theorem writeAt_front {buffer data after : List UInt8} (written : writeAt buffer 0 data = some after) :
    after = data ++ buffer.drop data.length := by
  obtain ⟨-, rfl⟩ := writeAt_some_iff.mp written
  simp only [List.take_zero, List.nil_append, Nat.zero_add]

theorem buildFw_built (settled : Settled opts plan layout)
    (built : buildFw md5 opts plan = some image) :
    ∃ content, Built md5 opts plan layout image content := by
  have fits := buildFw_fits settled built
  simp only [buildFw, settled.layoutEq, Option.bind_eq_bind, Option.bind_eq_some_iff,
    Option.map_some, Option.getD_some, require_eq_some, decide_eq_true_eq, Option.some.injEq] at built
  obtain ⟨withKernel, kernelWritten, content, added, full, headed, -, -, rfl⟩ := built
  have kernelLength := writeAt_length kernelWritten
  rw [List.length_replicate] at kernelLength
  obtain ⟨filled, rootfsWritten, contentLength, writelen, same⟩ :=
    addRootfs_spec settled.small kernelLength settled.rootfsShort added
  obtain ⟨ended, bytes⟩ := addRootfs_bytes added
  obtain ⟨fullLength, lenFits, -⟩ := fillHeader_spec settled.layoutEq headed
  have lengthIs : (if opts.stripPadding = true then content.2 else layout.fwMaxLen.toNat) =
      builtLength opts plan layout := by
    rw [builtLength, ended]
  rw [lengthIs] at headed lenFits ⊢
  have rootfsEnd : plan.rootfsOfs.toNat + plan.rootfs.length ≤ builtLength opts plan layout := by
    rw [← lengthIs]
    split
    · exact writelen
    · exact fits.2
  simp only [fillHeader, settled.layoutEq, Option.bind_eq_bind, Option.bind_eq_some_iff,
    require_eq_some] at headed
  obtain ⟨salted, saltWritten, -, -, sumWritten⟩ := headed
  have saltedIs := writeAt_front saltWritten
  have fullIs := writeAt_front sumWritten
  rw [headerBytes_length] at saltedIs fullIs
  have behind : salted.drop 512 = content.1.drop 512 := by
    rw [saltedIs, List.drop_left' (headerBytes_length _)]
  rw [behind] at fullIs
  refine ⟨content.1, ?_, lenFits, ⟨(md5 (salted.take (builtLength opts plan layout))).1,
    (md5 (salted.take (builtLength opts plan layout))).2, ?_, ?_⟩, rootfsEnd, ?_, ?_⟩
  · rw [List.length_take, fullLength]
    omega
  · rw [fullIs]
  · rw [saltedIs]
  · intro index below
    have here := congrArg (fun list => list[plan.rootfsOfs.toNat + index]?) same
    simp only [List.getElem?_take_of_lt (show plan.rootfsOfs.toNat + index <
      plan.rootfsOfs.toNat + plan.rootfs.length by omega)] at here
    rw [here, writeAt_getElem? rootfsWritten, laidAt, if_pos (by omega), Nat.add_sub_cancel_left,
      List.getElem?_eq_getElem below, Option.some_or]
  · intro index below
    rw [bytes, writeAt_getElem? kernelWritten]
    have laid : laidAt fwHeaderSize.toNat plan.kernel (512 + index) = plan.kernel[index]? := by
      rw [laidAt, show fwHeaderSize.toNat = 512 from rfl, if_pos (by omega), Nat.add_sub_cancel_left]
    rw [laid, List.getElem?_eq_getElem below, Option.some_or]

/-! ## What the inspector finds -/

def headerAhead (opts : Options) (plan : Plan) : List UInt8 :=
  be32 plan.hdrVer ++ strncpy opts.vendor 24 ++ strncpy opts.version 36 ++ be32 plan.hwId ++
    be32 plan.hwRev ++ be32 ((plan.region.map FwRegion.code).getD 0)

def headerBehind (opts : Options) (plan : Plan) : List UInt8 :=
  be32 0 ++ List.replicate MD5SUM_LEN 0 ++ be32 0 ++ swapIf opts.endianSwap (be32 plan.kernelLa) ++
    swapIf opts.endianSwap (be32 plan.kernelEp) ++
    (be32 ((plan.layout.map FlashLayout.fwMaxLen).getD 0) ++
      (be32 fwHeaderSize ++ (be32 plan.kernelLen ++ (be32 (headerRootfsOfs opts plan) ++
        (be32 (fileSize plan.rootfs) ++ (be32 0 ++ (be32 0 ++ headerBack plan)))))))

theorem headerAhead_length : (headerAhead opts plan).length = md5sum1Ofs := by
  simp only [headerAhead, List.length_append, be32_length, strncpy_length, md5sum1Ofs]

/-- The sum is the only part of the header that depends on it. -/
theorem headerBytes_split {sum : List UInt8} (whole : sum.length = MD5SUM_LEN) :
    headerBytes opts plan sum = headerAhead opts plan ++ (sum ++ headerBehind opts plan) := by
  have copied : strncpy sum MD5SUM_LEN = sum := by
    rw [strncpy, whole, Nat.sub_self, List.take_of_length_le (by omega), List.replicate_zero,
      List.append_nil]
  simp only [headerBytes, headerFront, headerAhead, headerBehind, copied, List.append_assoc]

theorem writeAt_middle {front old new back : List UInt8} (same : new.length = old.length) :
    writeAt (front ++ (old ++ back)) front.length new = some (front ++ (new ++ back)) := by
  rw [writeAt_some_iff]
  constructor
  · simp only [List.length_append]
    omega
  · rw [List.take_left, ← List.append_assoc front old back,
      List.drop_left' (by rw [List.length_append, same]), List.append_assoc]

theorem slice_middle {front middle back : List UInt8} :
    slice (front ++ (middle ++ back)) front.length middle.length = middle := by
  rw [slice, List.drop_left, List.take_left]

theorem headerBytes_more {sum : List UInt8} :
    be32At (headerBytes opts plan sum) 0 = plan.hdrVer ∧
      be32At (headerBytes opts plan sum) 140 = fileSize plan.rootfs ∧
      be32At (headerBytes opts plan sum) 148 = 0 := by
  have front : (headerFront opts plan sum).length = 124 := headerFront_length sum
  refine ⟨?_, ?_, ?_⟩
  · simp only [headerBytes, headerFront, List.append_assoc]
    exact be32At_here _ _
  · have placed := be32At_skip (headerFront opts plan sum)
      (be32 ((plan.layout.map FlashLayout.fwMaxLen).getD 0) ++ (be32 fwHeaderSize ++
        (be32 plan.kernelLen ++ (be32 (headerRootfsOfs opts plan) ++ (be32 (fileSize plan.rootfs) ++
          (be32 0 ++ (be32 0 ++ headerBack plan))))))) 16
    rw [front] at placed
    rw [headerBytes, placed, be32At_past32 _ _ 12, be32At_past32 _ _ 8, be32At_past32 _ _ 4,
      be32At_past32 _ _ 0, be32At_here]
  · have placed := be32At_skip (headerFront opts plan sum)
      (be32 ((plan.layout.map FlashLayout.fwMaxLen).getD 0) ++ (be32 fwHeaderSize ++
        (be32 plan.kernelLen ++ (be32 (headerRootfsOfs opts plan) ++ (be32 (fileSize plan.rootfs) ++
          (be32 0 ++ (be32 0 ++ headerBack plan))))))) 24
    rw [front] at placed
    rw [headerBytes, placed, be32At_past32 _ _ 20, be32At_past32 _ _ 16, be32At_past32 _ _ 12,
      be32At_past32 _ _ 8, be32At_past32 _ _ 4, be32At_past32 _ _ 0, be32At_here]

theorem hdrVersion_known {optHdrVer hdrVer : UInt32} (version : hdrVersion optHdrVer = some hdrVer) :
    hdrVer = HEADER_VERSION_V1 ∨ hdrVer = HEADER_VERSION_V2 := by
  unfold hdrVersion at version
  split at version
  · cases version
    exact Or.inl rfl
  · split at version
    · cases version
      exact Or.inr rfl
    · cases version

/-- The sum is always right; what is extracted is what lies in the file at the two extents. -/
theorem inspectFw_built {content : List UInt8} (settled : Settled opts plan layout)
    (built : Built md5 opts plan layout image content) (headerFits : 512 ≤ builtLength opts plan layout) :
    inspectFw md5 image = (extractPart image fwHeaderSize plan.kernelLen).bind fun kernel =>
      (extractPart image plan.rootfsOfs (fileSize plan.rootfs)).bind fun rootfs =>
        some { md5Ok := true, kernel, rootfs } := by
  obtain ⟨sum, whole, imageIs, sumIs⟩ := built.headed
  have cut (other : List UInt8) : (headerBytes opts plan other ++ content.drop 512).take
      (builtLength opts plan layout) =
        headerBytes opts plan other ++ (content.drop 512).take (builtLength opts plan layout - 512) := by
    rw [List.take_append, headerBytes_length, List.take_of_length_le (by rw [headerBytes_length]; omega)]
  rw [cut] at imageIs sumIs
  generalize (content.drop 512).take (builtLength opts plan layout - 512) = tail at imageIs sumIs
  have field (offset : Nat) (bound : offset + 4 ≤ 512) :
      be32At image offset = be32At (headerBytes opts plan sum) offset := by
    refine be32At_of_take ?_ bound
    rw [imageIs, List.take_left' (headerBytes_length _),
      List.take_of_length_le (by rw [headerBytes_length])]
  obtain ⟨kernelOfs, kernelLen, rootfsOfs⟩ := @headerBytes_fields opts plan layout sum settled.layoutEq
  obtain ⟨version, rootfsLen, bootLen⟩ := @headerBytes_more opts plan sum
  have split : image = headerAhead opts plan ++ (sum ++ (headerBehind opts plan ++ tail)) := by
    rw [imageIs, headerBytes_split whole, List.append_assoc, List.append_assoc]
  have salted : writeAt image md5sum1Ofs md5saltNormal =
      some (headerBytes opts plan md5saltNormal ++ tail) := by
    rw [split, ← @headerAhead_length opts plan, writeAt_middle (by rw [whole]; rfl),
      headerBytes_split rfl, List.append_assoc, List.append_assoc]
  have resummed : writeAt (headerBytes opts plan md5saltNormal ++ tail) md5sum1Ofs sum =
      some image := by
    rw [headerBytes_split rfl, List.append_assoc, List.append_assoc, ← @headerAhead_length opts plan,
      writeAt_middle (by rw [whole]; rfl), split]
  have stored : slice image md5sum1Ofs MD5SUM_LEN = sum := by
    rw [split, ← @headerAhead_length opts plan, ← whole]
    exact slice_middle
  rw [inspectFw]
  simp only [field 0 (by decide), field 128 (by decide), field 132 (by decide),
    field 136 (by decide), field 140 (by decide), field 148 (by decide), version, kernelOfs,
    kernelLen, rootfsOfs, rootfsLen, bootLen, if_true, salted, stored, Option.bind_eq_bind,
    Option.bind_some, ← sumIs, resummed, decide_true]
  have long : require (decide (fwHeaderSize.toNat ≤ image.length)) = some () := by
    rw [require_eq_some, decide_eq_true_eq, built.length]
    exact headerFits
  have known : require (decide (plan.hdrVer = HEADER_VERSION_V1 ∨ plan.hdrVer = HEADER_VERSION_V2)) =
      some () := require_eq_some.mpr (decide_eq_true (hdrVersion_known settled.version))
  rw [long, known]
  rfl

/-! ## The agreement -/

/-- A right sum, and both files as they were put in. -/
def Recovers (md5 : List UInt8 → Md5Sum) (plan : Plan) (image : List UInt8) : Prop :=
  inspectFw md5 image = some { md5Ok := true, kernel := plan.kernel, rootfs := plan.rootfs }

theorem extractPart_eq_some {buf bytes : List UInt8} {ofs len : UInt32} :
    extractPart buf ofs len = some bytes ↔
      ofs.toNat + len.toNat ≤ buf.length ∧ slice buf ofs.toNat len.toNat = bytes := by
  simp only [extractPart, Option.bind_eq_bind, Option.bind_eq_some_iff, require_eq_some,
    decide_eq_true_eq, Option.some.injEq]
  constructor
  · intro extracted
    obtain ⟨-, fits, same⟩ := extracted
    exact ⟨fits, same⟩
  · intro both
    exact ⟨(), both.1, both.2⟩

theorem recovers_iff {content : List UInt8} (settled : Settled opts plan layout)
    (built : Built md5 opts plan layout image content) : Recovers md5 plan image ↔
      512 + plan.kernel.length ≤ builtLength opts plan layout ∧
        slice image 512 plan.kernel.length = plan.kernel ∧
          slice image plan.rootfsOfs.toNat plan.rootfs.length = plan.rootfs := by
  have kernelLen : plan.kernelLen.toNat = plan.kernel.length := fileSize_toNat settled.kernelShort
  have rootfsLen : (fileSize plan.rootfs).toNat = plan.rootfs.length :=
    fileSize_toNat settled.rootfsShort
  have rootfsEnd := built.rootfsEnd
  by_cases headerFits : 512 ≤ builtLength opts plan layout
  · rw [Recovers, inspectFw_built settled built headerFits]
    simp only [Option.bind_eq_some_iff, extractPart_eq_some, Option.some.injEq, Inspection.mk.injEq,
      true_and, built.length, kernelLen, rootfsLen]
    constructor
    · intro found
      obtain ⟨kernel, ⟨kernelFits, kernelIs⟩, rootfs, ⟨-, rootfsIs⟩, rfl, rfl⟩ := found
      exact ⟨kernelFits, kernelIs, rootfsIs⟩
    · intro found
      exact ⟨_, ⟨found.1, found.2.1⟩, _, ⟨rootfsEnd, found.2.2⟩, rfl, rfl⟩
  · constructor
    · intro recovers
      simp only [Recovers, inspectFw, Option.bind_eq_bind, Option.bind_eq_some_iff, require_eq_some,
        decide_eq_true_eq] at recovers
      obtain ⟨-, long, -⟩ := recovers
      rw [built.length] at long
      exact absurd long headerFits
    · intro found
      omega

/-- What is laid at `place` after the kernel: the rootfs, or an end mark. -/
def laterByte (opts : Options) (plan : Plan) (layout : FlashLayout) (place : Nat) : Option UInt8 :=
  (markAt (endMarks opts plan layout).1 place).or (laidAt plan.rootfsOfs.toNat plan.rootfs place)

/-- Where the parts are laid over one another, they happen to hold the same bytes. -/
structure Coincide (opts : Options) (plan : Plan) (layout : FlashLayout) (image : List UInt8) :
    Prop where
  covered : 512 + plan.kernel.length ≤ builtLength opts plan layout
  kernel : ∀ index, index < plan.kernel.length →
    laterByte opts plan layout (512 + index) = none ∨
      laterByte opts plan layout (512 + index) = plan.kernel[index]?
  header : ∀ index, index < plan.rootfs.length → plan.rootfsOfs.toNat + index < 512 →
    image[plan.rootfsOfs.toNat + index]? = plan.rootfs[index]?

theorem Built.behind {content : List UInt8} (built : Built md5 opts plan layout image content)
    {place : Nat} (past : 512 ≤ place) (inside : place < builtLength opts plan layout) :
    image[place]? = content[place]? := by
  obtain ⟨sum, -, imageIs, -⟩ := built.headed
  rw [imageIs, List.getElem?_take_of_lt inside, List.getElem?_append_right
    (by rw [headerBytes_length]; omega), headerBytes_length, List.getElem?_drop,
    Nat.add_sub_cancel' past]

theorem coincide_iff {content : List UInt8} (built : Built md5 opts plan layout image content) :
    Coincide opts plan layout image ↔
      512 + plan.kernel.length ≤ builtLength opts plan layout ∧
        slice image 512 plan.kernel.length = plan.kernel ∧
          slice image plan.rootfsOfs.toNat plan.rootfs.length = plan.rootfs := by
  have rootfsEnd := built.rootfsEnd
  have kernelByte (covered : 512 + plan.kernel.length ≤ builtLength opts plan layout) (index : Nat)
      (below : index < plan.kernel.length) : image[512 + index]? = plan.kernel[index]? ↔
        laterByte opts plan layout (512 + index) = none ∨
          laterByte opts plan layout (512 + index) = plan.kernel[index]? := by
    rw [built.behind (by omega) (by omega), built.kernel index below, laterByte]
    cases (markAt (endMarks opts plan layout).1 (512 + index)).or
        (laidAt plan.rootfsOfs.toNat plan.rootfs (512 + index)) with
    | none => simp
    | some byte => simp
  rw [slice_eq_iff, slice_eq_iff]
  constructor
  · intro coincide
    refine ⟨coincide.covered, ?_, ?_⟩
    · intro index below
      exact (kernelByte coincide.covered index below).mpr (coincide.kernel index below)
    · intro index below
      by_cases inHeader : plan.rootfsOfs.toNat + index < 512
      · exact coincide.header index below inHeader
      · rw [built.behind (by omega) (by omega), built.rootfs index below]
  · intro found
    obtain ⟨covered, kernel, rootfs⟩ := found
    constructor
    · exact covered
    · intro index below
      exact (kernelByte covered index below).mp (kernel index below)
    · intro index below _
      exact rootfs index below

end Rut9xx.Tplink
