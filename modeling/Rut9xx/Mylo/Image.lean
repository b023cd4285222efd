import Rut9xx.Data.Endian
import Rut9xx.Mylo.Options

namespace Rut9xx.Mylo

open Data

/-! # The image of `mkmylofw`

The files are read as they are; what is written reaches the image.
-/

def MYLO_MAGIC_FIRMWARE : UInt32 := 0x4C594D00
def MYLO_MAGIC_PARTITIONS : UInt32 := 0x20021103
def FW_DESC_TYPE_UNUSED : UInt32 := 0
def FW_DESC_TYPE_USED : UInt32 := 1
def PARTITION_TYPE_USED : UInt16 := 1
def FILE_BUF_LEN : Nat := 16 * 1024

/-! ## Checksums -/

/-- The exponents of the polynomial, but for the highest. -/
def crcTerms : List UInt32 := [0, 1, 2, 4, 5, 7, 8, 10, 11, 12, 16, 22, 23, 26]

def crcPolynomial : UInt32 := crcTerms.foldl (fun (e p : UInt32) => e ||| (1 <<< (31 - p))) 0

/-- `k` runs through the bits of the index below a marker. -/
def crcTab (i : UInt8) : UInt32 :=
  if i = 0 then 0
  else
    (List.range 8).foldl
      (fun c k =>
        let c := if c &&& 1 ≠ 0 then (c >>> 1) ^^^ crcPolynomial else c >>> 1
        if (i >>> UInt8.ofNat k) &&& 1 ≠ 0 then c ^^^ crcPolynomial else c)
      0

def updateCrc (p : List UInt8) (crc : UInt32) : UInt32 :=
  let t := p.foldl (fun (t : UInt32) byte => crcTab (t ^^^ byte.toUInt32).toUInt8 ^^^ (t >>> 8))
    (crc ^^^ 0xFFFFFFFF)
  t ^^^ 0xFFFFFFFF

/-! ## Checks -/

/-- The files by their names. -/
abbrev Files := List UInt8 → Option (List UInt8)

def processFile (files : Files) (flashSize : UInt32) (b : FwBlock) : Option FwBlock :=
  if b.addr + b.blocklen > flashSize then none
  else
    match b.name with
    | none => some b
    | some name =>
      (files name).bind fun data =>
        let blocklen := if b.blocklen = 0 then flashSize - b.addr else b.blocklen
        if data.length > blocklen.toNat then none
        else some { b with blocklen, size := UInt32.ofNat data.length }

def processFiles (files : Files) (flashSize : UInt32) (blocks : List FwBlock) : Option (List FwBlock) :=
  blocks.mapM (processFile files flashSize)

def processPartitions (flashSize : UInt32) (parts : List FwPart) : Bool :=
  parts.all fun part =>
    part.mylo.addr ≤ flashSize && part.mylo.addr + part.mylo.size ≤ flashSize

/-! ## Output -/

structure FwBlockdesc where
  type : UInt32
  addr : UInt32
  dlen : UInt32
  blen : UInt32

def writeOutDesc (desc : FwBlockdesc) : List UInt8 :=
  le32 desc.type ++ (le32 desc.addr ++ (le32 desc.dlen ++ le32 desc.blen))

def writeOutHeader (header : FwHeader) : List UInt8 :=
  le32 MYLO_MAGIC_FIRMWARE ++ (le32 header.crc ++ (le32 0 ++ (le32 0 ++ (le16 header.vid ++
    (le16 header.did ++ (le16 header.svid ++ (le16 header.sdid ++ (le32 header.rev ++
    (le32 header.fwhi ++ (le32 header.fwlo ++ le32 header.flags))))))))))

def partitionBytes (part : MyloPartition) : List UInt8 :=
  le16 part.flags ++ (le16 PARTITION_TYPE_USED ++ (le32 part.addr ++ (le32 part.size ++ le32 part.param)))

/-- The tables of the partitions and of their names, unused entries of zeros. -/
def writeOutPartitions (parts : List FwPart) : List UInt8 :=
  if parts = [] then []
  else
    le32 MYLO_MAGIC_PARTITIONS ++ (le32 0 ++ (le32 0 ++ le32 0)) ++
      (parts.flatMap (fun part => partitionBytes part.mylo) ++
        List.replicate ((MYLO_MAX_PARTITIONS - parts.length) * 16) 0) ++
      (parts.flatMap FwPart.name ++
        List.replicate ((MYLO_MAX_PARTITIONS - parts.length) * PART_NAME_LEN) 0)

/-- `size` bytes by way of the buffer. -/
def copyFile (data : List UInt8) (size : Nat) : List UInt8 :=
  if size = 0 then []
  else data.take (min size FILE_BUF_LEN) ++ copyFile (data.drop FILE_BUF_LEN) (size - FILE_BUF_LEN)
termination_by size
decreasing_by
  have : 0 < FILE_BUF_LEN := by decide
  omega

/-- `ALIGN(len,4) - block->size` for a `len` that the loop has left at 0: the macro has no brackets
around it, so the size is taken from the mask. -/
def padding (size : UInt32) : Nat := (0 + (4 - 1) &&& ((~~~3 : UInt32) - size)).toNat

def haveHdr (block : FwBlock) : Bool := block.flags &&& BLOCK_FLAG_HAVEHDR ≠ 0

def writeOutFile (files : Files) (block : FwBlock) : Option (List UInt8) :=
  match block.name with
  | none => some []
  | some name =>
    (files name).map fun data =>
      let file := copyFile data block.size.toNat
      (if haveHdr block then le32 block.size ++ le32 (updateCrc file 0) else []) ++
        (file ++ List.replicate (padding block.size) 0xFF)

/-- The descriptor of the table of partitions. -/
def tableDesc (board : CpxBoard) : FwBlockdesc :=
  { type := FW_DESC_TYPE_USED
    addr := board.partOffset
    dlen := UInt32.ofNat (144 + MYLO_MAX_PARTITIONS * PART_NAME_LEN)
    blen := board.partSize }

/-- `ALIGN` -/
def alignFour (x : UInt32) : UInt32 := (x + (4 - 1)) &&& ~~~(4 - 1)

def blockDesc (b : FwBlock) : FwBlockdesc :=
  let dlen := if haveHdr b then b.size + 8 else b.size
  { type := FW_DESC_TYPE_USED, addr := b.addr, dlen := alignFour dlen, blen := b.blocklen }

def nullDesc : FwBlockdesc := ⟨0, 0, 0, 0⟩

def writeOutBlocks (files : Files) (board : CpxBoard) (parts : List FwPart) (blocks : List FwBlock) :
    Option (List UInt8) :=
  (blocks.mapM (writeOutFile files)).map fun data =>
    (if parts = [] then [] else writeOutDesc (tableDesc board)) ++
      (blocks.flatMap (fun b => writeOutDesc (blockDesc b)) ++ (writeOutDesc nullDesc ++
        (writeOutPartitions parts ++ data.flatten)))

/-- What an accepted run has made of its options. -/
structure Built where
  flashSize : UInt32
  board : CpxBoard
  parts : List FwPart
  blocks : List FwBlock
  image : List UInt8

/-- What `main` does behind the options.  The header is written again with the checksum. -/
def build (files : Files) (fw : Firmware) : Option Built := do
  let board ← fw.board
  require (fw.flashSize ≠ 0)
  let blocks ← processFiles files fw.flashSize fw.fwBlocks
  require (processPartitions fw.flashSize fw.fwParts)
  let body ← writeOutBlocks files board fw.fwParts blocks
  let crc := updateCrc (writeOutHeader fw.fwHeader ++ body) 0
  some
    { flashSize := fw.flashSize, board, parts := fw.fwParts, blocks
      image := writeOutHeader { fw.fwHeader with crc } ++ body }

def mkmylofw (strtoul : List UInt8 → Option UInt64) (files : Files) (options : List MyloOption) :
    Option Built :=
  (run (parseOption strtoul) Firmware.start options).bind (build files)

end Rut9xx.Mylo
