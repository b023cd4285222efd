import Rut9xx.Data.Align
import Rut9xx.Data.Buffer
import Rut9xx.Data.Endian
import Rut9xx.Data.Partial

namespace Rut9xx.Tplink

open Rut9xx.Data

/-! # `mktplinkfw`: option checks and image construction

`int` comparisons of `uint32_t` expressions are kept: a difference counts as
positive when its low 32 bits are a positive `int`.  The parsed form of an
option string (`strtoul`, `sscanf`) is the input of the model.  A write outside
the malloc'ed image buffer has no result.
-/

section

def MD5SUM_LEN : Nat := 16

abbrev Md5Sum := { digest : List UInt8 // digest.length = MD5SUM_LEN }

def HEADER_VERSION_V1 : UInt32 := 0x01000000
def HEADER_VERSION_V2 : UInt32 := 0x02000000

/-- `sizeof(struct fw_header)`. -/
def fwHeaderSize : UInt32 := 512

structure FlashLayout where
  id : List Char
  fwMaxLen : UInt32
  kernelLa : UInt32
  kernelEp : UInt32
  rootfsOfs : UInt32
  deriving DecidableEq, Repr

def layouts : List FlashLayout :=
  [⟨['4', 'M'], 0x3c0000, 0x80060000, 0x80060000, 0x140000⟩,
   ⟨['4', 'M', 'l', 'z', 'm', 'a'], 0x3c0000, 0x80060000, 0x80060000, 0x100000⟩,
   ⟨['8', 'M'], 0x7c0000, 0x80060000, 0x80060000, 0x140000⟩,
   ⟨['8', 'M', 'l', 'z', 'm', 'a'], 0x7c0000, 0x80060000, 0x80060000, 0x100000⟩,
   ⟨['8', 'M', 'm', 't', 'k'], 0x7c0000, 0x80000000, 0x8000c310, 0x100000⟩,
   ⟨['1', '6', 'M'], 0xf80000, 0x80060000, 0x80060000, 0x140000⟩,
   ⟨['1', '6', 'M', 'l', 'z', 'm', 'a'], 0xf80000, 0x80060000, 0x80060000, 0x100000⟩,
   ⟨['1', '6', 'M', 'p', 'p', 'c'], 0xf80000, 0x00000000, 0xc0000000, 0x2a0000⟩]

structure FwRegion where
  name : List UInt8
  code : UInt32
  deriving DecidableEq, Repr

def regions : List FwRegion :=
  [⟨[0x55, 0x53, 0, 0], 1⟩, ⟨[0x45, 0x55, 0, 0], 0⟩, ⟨[0x42, 0x52, 0, 0], 0⟩]

def strcasecmpEq (left right : List Char) : Bool :=
  left.map Char.toLower == right.map Char.toLower

def findLayout (layouts : List FlashLayout) (id : List Char) : Option FlashLayout :=
  layouts.find? fun layout => strcasecmpEq id layout.id

/-- `country` is compared with the name up to its terminating zero. -/
def findRegion (country : List Char) : Option FwRegion :=
  regions.find? fun region =>
    strcasecmpEq ((region.name.takeWhile (· ≠ 0)).map fun byte => Char.ofNat byte.toNat) country

/-- A file named by an option; `stat` or `open` may fail on it. -/
inductive FileArg where
  | unset
  | unreadable
  | file (content : List UInt8)
  deriving DecidableEq, Repr

/-- The `file_size` that `get_file_stat` stores, and the bytes `read_to_buf`
reads with it: `st_size` is cut to 32 bits. -/
def statFile : FileArg → Option (List UInt8)
  | .file content => some (content.take (content.length % 2 ^ 32))
  | _ => none

def fileSize (content : List UInt8) : UInt32 := UInt32.ofNat content.length

structure Options where
  extract : Bool
  hwId : Option UInt32
  hwRev : Option UInt32
  layoutId : Option (List Char)
  country : Option (List Char)
  combined : Bool
  kernelLa : UInt32
  kernelEp : UInt32
  kernel : FileArg
  rootfs : FileArg
  rootfsOfs : UInt32
  rootfsAlign : UInt32
  reservedSpace : UInt32
  ofname : Bool
  fwVer : Option (UInt16 × UInt16 × UInt16)
  optHdrVer : UInt32
  vendor : List UInt8
  version : List UInt8
  stripPadding : Bool
  addJffs2Eof : Bool
  endianSwap : Bool
  rootfsOfsCalc : Bool

/-- The globals that `check_options` settles. -/
structure Plan where
  hwId : UInt32
  hwRev : UInt32
  region : Option FwRegion
  layout : Option FlashLayout
  kernelLa : UInt32
  kernelEp : UInt32
  kernel : List UInt8
  rootfs : List UInt8
  rootfsOfs : UInt32
  fwVer : UInt16 × UInt16 × UInt16
  hdrVer : UInt32

def Plan.kernelLen (plan : Plan) : UInt32 := fileSize plan.kernel

/-- `exceed_bytes > 0` for `int exceed_bytes` assigned from 32-bit arithmetic. -/
def exceeds (difference : UInt32) : Bool := 0 < difference.toNat && difference.toNat < 2 ^ 31

/-- The rootfs offset and the size checks of the non-combined layout. -/
def placeRootfs (fwMaxLen rootfsOfs rootfsAlign kernelLen rootfsLen : UInt32) : Option UInt32 :=
  if rootfsAlign ≠ 0 then
    let aligned := alignUp (kernelLen + fwHeaderSize) rootfsAlign
    if exceeds (kernelLen + rootfsLen - (fwMaxLen - fwHeaderSize)) then none else some aligned
  else if exceeds (kernelLen - (rootfsOfs - fwHeaderSize)) then none
  else if exceeds (rootfsLen - (fwMaxLen - rootfsOfs)) then none
  else some rootfsOfs

def hdrVersion (optHdrVer : UInt32) : Option UInt32 :=
  if optHdrVer = 1 then some HEADER_VERSION_V1
  else if optHdrVer = 2 then some HEADER_VERSION_V2
  else none

/-- The rest of `check_options`, once layout, addresses and files are settled. -/
def finishPlan (opts : Options) (plan : Plan) : Option Plan := do
  require opts.ofname
  let fwVer ← opts.fwVer
  let hdrVer ← hdrVersion opts.optHdrVer
  some { plan with fwVer, hdrVer }

def checkRegion (opts : Options) : Option (Option FwRegion) :=
  match opts.country with
  | none => some none
  | some country => (findRegion country).map some

def orDefault (value default : UInt32) : UInt32 := if value = 0 then default else value

/-- `check_options` from the kernel address on, for a combined image. -/
def checkCombined (opts : Options) (hwId : UInt32) (region : Option FwRegion) : Option Plan := do
  require (opts.kernelLa != 0 && opts.kernelEp != 0)
  let kernel ← statFile opts.kernel
  finishPlan opts
    { hwId, hwRev := opts.hwRev.getD 1, region, layout := none, kernelLa := opts.kernelLa,
      kernelEp := opts.kernelEp, kernel, rootfs := [], rootfsOfs := opts.rootfsOfs,
      fwVer := (0, 0, 0), hdrVer := 0 }

/-- `check_options` from the flash layout on, for kernel and rootfs side by side. -/
def checkLayout (opts : Options) (hwId : UInt32) (region : Option FwRegion) : Option Plan := do
  let layout ← findLayout layouts (opts.layoutId.getD [])
  require (opts.reservedSpace ≤ layout.fwMaxLen)
  let kernel ← statFile opts.kernel
  let rootfs ← statFile opts.rootfs
  let rootfsOfs ← placeRootfs (layout.fwMaxLen - opts.reservedSpace)
    (orDefault opts.rootfsOfs layout.rootfsOfs) opts.rootfsAlign (fileSize kernel)
    (fileSize rootfs)
  finishPlan opts
    { hwId, hwRev := opts.hwRev.getD 1, region, layout := some layout,
      kernelLa := orDefault opts.kernelLa layout.kernelLa,
      kernelEp := orDefault opts.kernelEp layout.kernelEp,
      kernel, rootfs, rootfsOfs, fwVer := (0, 0, 0), hdrVer := 0 }

/-- `check_options` when no file is to be inspected. -/
def checkOptions (opts : Options) : Option Plan := do
  require !opts.extract
  let hwId ← opts.hwId
  require (opts.combined || opts.layoutId.isSome)
  let region ← checkRegion opts
  if opts.combined then checkCombined opts hwId region else checkLayout opts hwId region

/-! ## Building the image -/

def md5saltNormal : List UInt8 :=
  [0xdc, 0xd7, 0x3a, 0xa5, 0xc3, 0x95, 0x98, 0xfb, 0xdd, 0xf9, 0xe7, 0xf4, 0x0e, 0xae, 0x47, 0x38]

def strncpy (text : List UInt8) (size : Nat) : List UInt8 :=
  text.take size ++ List.replicate (size - text.length) 0

def hexDigit (value : Nat) : UInt8 := UInt8.ofNat (if value < 10 then 0x30 + value else 0x37 + value)

/-- `%02X` of each byte of a region name. -/
def hexName (name : List UInt8) : List UInt8 :=
  name.flatMap fun byte => [hexDigit (byte.toNat / 16), hexDigit (byte.toNat % 16)]

def regionStr1 (region : Option FwRegion) : List UInt8 :=
  match region with
  | none => []
  | some region => List.replicate 8 0x30 ++ [0x3b] ++ hexName region.name ++ [0x3b]

def regionStr2 (region : Option FwRegion) : List UInt8 :=
  match region with
  | none => []
  | some region => hexName region.name

def swapIf (swap : Bool) (bytes : List UInt8) : List UInt8 := if swap then bytes.reverse else bytes

/-- The version-1 header up to the kernel's address fields, byte by byte as
`fill_header` leaves it; `boot_info` is never set by an option. -/
def headerFront (opts : Options) (plan : Plan) (md5sum1 : List UInt8) : List UInt8 :=
  be32 plan.hdrVer ++ strncpy opts.vendor 24 ++ strncpy opts.version 36 ++ be32 plan.hwId ++
    be32 plan.hwRev ++ be32 ((plan.region.map FwRegion.code).getD 0) ++ strncpy md5sum1 MD5SUM_LEN ++
    be32 0 ++ List.replicate MD5SUM_LEN 0 ++ be32 0 ++ swapIf opts.endianSwap (be32 plan.kernelLa) ++
    swapIf opts.endianSwap (be32 plan.kernelEp)

def headerRootfsOfs (opts : Options) (plan : Plan) : UInt32 :=
  match plan.layout with
  | some _ => plan.rootfsOfs
  | none => if opts.rootfsOfsCalc then fwHeaderSize + plan.kernelLen else 0

/-- The version and region fields at the end of the header. -/
def headerBack (plan : Plan) : List UInt8 :=
  be16 plan.fwVer.1 ++ be16 plan.fwVer.2.1 ++ be16 plan.fwVer.2.2 ++ List.replicate 130 0 ++
    strncpy (regionStr1 plan.region) 32 ++ strncpy (regionStr2 plan.region) 32 ++
    List.replicate 160 0

def headerBytes (opts : Options) (plan : Plan) (md5sum1 : List UInt8) : List UInt8 :=
  headerFront opts plan md5sum1 ++ (be32 ((plan.layout.map FlashLayout.fwMaxLen).getD 0) ++
    (be32 fwHeaderSize ++ (be32 plan.kernelLen ++ (be32 (headerRootfsOfs opts plan) ++
      (be32 (fileSize plan.rootfs) ++ (be32 0 ++ (be32 0 ++ headerBack plan)))))))

/-- `fill_header`: the sum is taken over `len` bytes of the image with the salt
in the place of the sum. -/
def fillHeader (md5 : List UInt8 → Md5Sum) (opts : Options) (plan : Plan) (buf : List UInt8)
    (len : Nat) : Option (List UInt8) :=
  match plan.layout with
  | none => writeAt buf 0 (headerBytes opts plan [])
  | some _ => do
      let salted ← writeAt buf 0 (headerBytes opts plan md5saltNormal)
      require (len ≤ salted.length)
      writeAt salted 0 (headerBytes opts plan (md5 (salted.take len)).1)

def jffs2EofMark : List UInt8 := [0xde, 0xad, 0xc0, 0xde]

/-- The lowest bit of `pad_mask` from bit 10 on. -/
def lowestPad (padMask : UInt32) : UInt32 :=
  (((List.range 22).map fun index => (1 : UInt32) <<< UInt32.ofNat (index + 10)).find? fun mask =>
    padMask &&& mask ≠ 0).getD ((1 : UInt32) <<< 31)

/-- Clears the bits of `pad_mask` that `len` is already aligned to. -/
def clearPads (padMask : UInt32) (len : UInt32) : UInt32 :=
  (List.range 22).foldl (fun remaining index =>
    let mask : UInt32 := 1 <<< UInt32.ofNat (index + 10)
    if len &&& (mask - 1) = 0 then remaining &&& ~~~mask else remaining) padMask

/-- The loop of `pad_jffs2`.  Each round clears the bit it aligned to, so two
rounds empty the mask and the fuel is never used up. -/
def padJffs2Loop : Nat → List UInt8 → UInt32 → UInt32 → UInt32 → Option (List UInt8 × UInt32)
  | 0, buf, len, _, _ => some (buf, len)
  | fuel + 1, buf, len, maxlen, padMask =>
      if len < maxlen ∧ padMask ≠ 0 then
        let aligned := alignUp len (lowestPad padMask)
        (writeAt buf aligned.toNat jffs2EofMark).bind fun marked =>
          padJffs2Loop fuel marked (aligned + 4) maxlen (clearPads padMask aligned)
      else some (buf, len)

def padJffs2 (buf : List UInt8) (currlen maxlen : UInt32) : Option (List UInt8 × UInt32) :=
  padJffs2Loop 22 buf currlen maxlen (4 * 1024 ||| 64 * 1024)

/-- The rootfs of the non-combined layout and the end marks after it. -/
def addRootfs (opts : Options) (plan : Plan) (layout : FlashLayout) (buf : List UInt8) :
    Option (List UInt8 × Nat) := do
  let filled ← writeAt buf plan.rootfsOfs.toNat plan.rootfs
  let writelen := plan.rootfsOfs + fileSize plan.rootfs
  if opts.addJffs2Eof then
    (padJffs2 filled writelen layout.fwMaxLen).map fun (padded, len) => (padded, len.toNat)
  else some (filled, writelen.toNat)

/-- `build_fw(sizeof(struct fw_header))`: the bytes of the output file. -/
def buildFw (md5 : List UInt8 → Md5Sum) (opts : Options) (plan : Plan) : Option (List UInt8) := do
  let writelen := fwHeaderSize + plan.kernelLen
  let buflen := ((plan.layout.map FlashLayout.fwMaxLen).getD writelen).toNat
  let withKernel ← writeAt (List.replicate buflen 0xff) fwHeaderSize.toNat plan.kernel
  let content ← match plan.layout with
    | none => some (withKernel, writelen.toNat)
    | some layout => addRootfs opts plan layout withKernel
  let len := if opts.stripPadding then content.2 else buflen
  let image ← fillHeader md5 opts plan content.1 len
  require (len ≤ image.length)
  some (image.take len)

end

/-! # `mtdsplit`: the TP-Link firmware parser

The kernel is a 32-bit one, so `size_t` arithmetic is taken modulo `2^32`; the
size of the master is a 64-bit quantity.
-/

section

inductive ByteOrder where
  | big
  | little
  deriving DecidableEq, Repr

inductive Errno where
  | EINVAL
  | EIO
  | ENODEV
  | ENOMEM
  deriving DecidableEq, Repr

/-- `struct mtd_info` as far as the parser reads it. -/
structure MtdInfo where
  flash : List UInt8
  erasesize : Nat
  order : ByteOrder

def MtdInfo.size (mtd : MtdInfo) : Nat := mtd.flash.length

/-- `mtd_read`: a range that is not inside the device is refused as a whole. -/
def mtdRead (mtd : MtdInfo) (start len : Nat) : Except Errno (List UInt8) :=
  if start < mtd.size ∧ len ≤ mtd.size - start then .ok (slice mtd.flash start len)
  else .error .EINVAL

structure MtdPartition where
  name : List Char
  offset : Nat
  size : Nat
  deriving DecidableEq, Repr

def KERNEL_PART_NAME : List Char := ['k', 'e', 'r', 'n', 'e', 'l']
def ROOTFS_PART_NAME : List Char := ['r', 'o', 'o', 't', 'f', 's']

inductive MtdsplitPartType where
  | squashfs
  | jffs2
  | ubi
  deriving DecidableEq, Repr

def SQUASHFS_MAGIC : UInt32 := 0x73717368
def UBI_EC_MAGIC : UInt32 := 0x55424923

/-- `"hsqs"`: the squashfs magic as it stands on flash. -/
def squashfsMagic : List UInt8 := [0x68, 0x73, 0x71, 0x73]

def le32 (bytes : List UInt8) : UInt32 := be32At (bytes.take 4).reverse 0

/-- A word read from flash into a native variable. -/
def native32 (order : ByteOrder) (bytes : List UInt8) : UInt32 :=
  match order with
  | .big => be32At bytes 0
  | .little => le32 bytes

def mtdCheckRootfsMagic (mtd : MtdInfo) (offset : Nat) : Except Errno MtdsplitPartType := do
  let magic ← mtdRead mtd offset 4
  if le32 magic = SQUASHFS_MAGIC then .ok .squashfs
  else if native32 mtd.order magic = 0x19852003 then .ok .jffs2
  else if be32At magic 0 = UBI_EC_MAGIC then .ok .ubi
  else .error .EINVAL

def mtdNextEb (mtd : MtdInfo) (offset : Nat) : Nat :=
  (offset - offset % mtd.erasesize + mtd.erasesize) % 2 ^ 32

/-- The scan of `mtd_find_rootfs_from`; `none` when the fuel runs out. -/
def mtdFindRootfsLoop (mtd : MtdInfo) (limit : Nat) :
    Nat → Nat → Option (Except Errno (Nat × MtdsplitPartType))
  | 0, _ => none
  | fuel + 1, offset =>
      if offset < limit then
        match mtdCheckRootfsMagic mtd offset with
        | .error _ => mtdFindRootfsLoop mtd limit fuel (mtdNextEb mtd offset)
        | .ok type => some (.ok (offset, type))
      else some (.error .ENODEV)

/-- Offsets strictly increase below `limit` as long as they do not wrap, so
`limit` rounds cover every scan that ends. -/
def mtdFindRootfsFrom (mtd : MtdInfo) (start limit : Nat) :
    Option (Except Errno (Nat × MtdsplitPartType)) :=
  mtdFindRootfsLoop mtd (limit % 2 ^ 32) (limit % 2 ^ 32 + 1) start

def TPLINK_MIN_ROOTFS_OFFS : Nat := 0x80000

/-- `sizeof(struct tplink_fw_header)`. -/
def tplinkFwHeaderSize : Nat := 512

/-- Offsets of `kernel_ofs`, `kernel_len` and `rootfs_ofs` in the header, by the
version word read as little-endian. -/
def headerOffsets (version : UInt32) : Option (Nat × Nat × Nat) :=
  if version = 1 then some (128, 132, 136)
  else if version = 2 ∨ version = 3 then some (116, 120, 124)
  else none

def tplinkParts (master : MtdInfo) (kernelSize rootfsOffset : Nat) : List MtdPartition :=
  [⟨KERNEL_PART_NAME, 0, kernelSize⟩,
   ⟨ROOTFS_PART_NAME, rootfsOffset, master.size - rootfsOffset⟩]

/-- The rootfs offset of the header, or the first rootfs found by searching. -/
def locateRootfs (master : MtdInfo) (rootfsOffset : Nat) : Option (Except Errno Nat) :=
  match mtdCheckRootfsMagic master rootfsOffset with
  | .ok _ => some (.ok rootfsOffset)
  | .error _ =>
      (mtdFindRootfsFrom master TPLINK_MIN_ROOTFS_OFFS master.size).map fun found =>
        found.map Prod.fst

/-- `mtdsplit_parse_tplink`; `kzalloc` says whether the allocation succeeds. -/
def mtdsplitParseTplink (kzalloc : Bool) (master : MtdInfo) :
    Option (Except Errno (List MtdPartition)) :=
  match mtdRead master 0 tplinkFwHeaderSize with
  | .error err => some (.error err)
  | .ok hdr =>
      match headerOffsets (le32 hdr) with
      | none => some (.error .EINVAL)
      | some (kernelOfs, kernelLen, rootfsOfs) =>
          if (be32At hdr kernelOfs).toNat ≠ tplinkFwHeaderSize then some (.error .EINVAL)
          else
            let kernelSize := (tplinkFwHeaderSize + (be32At hdr kernelLen).toNat) % 2 ^ 32
            if master.size < kernelSize then some (.error .EINVAL)
            else
              (locateRootfs master (be32At hdr rootfsOfs).toNat).map fun located =>
                located.bind fun rootfsOffset =>
                  if kzalloc then .ok (tplinkParts master kernelSize rootfsOffset)
                  else .error .ENOMEM

end

end Rut9xx.Tplink
