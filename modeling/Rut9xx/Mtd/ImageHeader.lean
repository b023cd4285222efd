import Rut9xx.Data.Align
import Rut9xx.Data.Endian
import Rut9xx.Mtd.HeaderFix

namespace Rut9xx.Mtd.ImageHeader

open Rut9xx.Data

/-! # Repairing a header with an MD5 digest (`seama.c`, `wrgg.c`, `wrg.c`)

The three commands differ in the header alone: where its fields are, in which
byte order the size is stored, and what of it goes into the digest.
-/

abbrev Digest := Vector UInt8 16

structure HeaderLayout where
  headerSize : Nat
  magicAt : Nat
  magic : List UInt8
  sizeAt : Nat
  encodeSize : UInt32 → List UInt8
  decodeSize : List UInt8 → UInt32
  /-- The big-endian count of bytes between header and data. -/
  metasizeAt : Option Nat
  /-- The part of the header that is summed up before the data. -/
  summedAt : Nat
  summedLen : Nat
  digestAt : Nat
  encodeSize_length : ∀ size, (encodeSize size).length = 4
  decode_encode : ∀ size, decodeSize (encodeSize size) = size
  magicInside : magicAt + 4 ≤ headerSize
  metasizeFront : ∀ place, metasizeAt = some place → place + 2 ≤ sizeAt
  sizeFront : sizeAt + 4 ≤ summedAt
  summedFront : summedAt + summedLen ≤ digestAt
  digestLast : digestAt + 16 = headerSize
  small : headerSize ≤ 2 ^ 16

def SEAMA_MAGIC : UInt32 := 0x5ea3a417

def WRGG03_MAGIC : UInt32 := 0x20080321

def WRG_MAGIC : UInt32 := 0x20040220

theorem be32At_be32 (word : UInt32) : be32At (be32 word) 0 = word := by
  have here := be32At_here word []
  rwa [List.append_nil] at here

theorem le32At_le32 (word : UInt32) : le32At (le32 word) 0 = word := by
  have here := le32At_here word []
  rwa [List.append_nil] at here

/-- `struct seama_entity_header`; `htonl` stores the size. -/
def seamaEntityHeader : HeaderLayout where
  headerSize := 28
  magicAt := 0
  magic := be32 SEAMA_MAGIC
  sizeAt := 8
  encodeSize := be32
  decodeSize bytes := be32At bytes 0
  metasizeAt := some 6
  summedAt := 12
  summedLen := 0
  digestAt := 12
  encodeSize_length _ := rfl
  decode_encode := be32At_be32
  magicInside := by decide
  metasizeFront place same := by
    cases same
    decide
  sizeFront := by decide
  summedFront := by decide
  digestLast := rfl
  small := by decide

/-- `struct wrgg03_header`; the size is in the byte order of the core, the magic is not. -/
def wrgg03Header (bigEndian : Bool) : HeaderLayout where
  headerSize := 160
  magicAt := 32
  magic := le32 WRGG03_MAGIC
  sizeAt := 104
  encodeSize := if bigEndian then be32 else le32
  decodeSize bytes := if bigEndian then be32At bytes 0 else le32At bytes 0
  metasizeAt := none
  summedAt := 108
  summedLen := 36
  digestAt := 144
  encodeSize_length _ := by cases bigEndian <;> rfl
  decode_encode size := by
    cases bigEndian
    · exact le32At_le32 size
    · exact be32At_be32 size
  magicInside := by decide
  metasizeFront _ impossible := by cases impossible
  sizeFront := by decide
  summedFront := by decide
  digestLast := rfl
  small := by decide

/-- `struct wrg_header`; `cpu_to_le32` stores the size. -/
def wrgHeader : HeaderLayout where
  headerSize := 96
  magicAt := 32
  magic := le32 WRG_MAGIC
  sizeAt := 40
  encodeSize := le32
  decodeSize bytes := le32At bytes 0
  metasizeAt := none
  summedAt := 44
  summedLen := 36
  digestAt := 80
  encodeSize_length _ := rfl
  decode_encode := le32At_le32
  magicInside := by decide
  metasizeFront _ impossible := by cases impossible
  sizeFront := by decide
  summedFront := by decide
  digestLast := rfl
  small := by decide

/-- `ntohs` of a field of two bytes. -/
def be16Of (bytes : List UInt8) : UInt32 :=
  (bytes.getD 0 0).toUInt32 <<< 8 ||| (bytes.getD 1 0).toUInt32

variable (board : Board) (host : Host) (md5 : List UInt8 → Digest) (layout : HeaderLayout)
  (memory : FlashMemory) (dev : Nat)

def readMetasize (firstBlock : List UInt8) (shdr : Nat) : Except Halt UInt32 :=
  match layout.metasizeAt with
  | none => .ok 0
  | some place => do
      let field ← orStuck (readAt firstBlock (shdr + place) 2)
      return be16Of field

/-- Which bytes of the device were summed up, if any, and the changed copy of the
block; without one the caller returns at once. -/
def fixMd5 (firstBlock : List UInt8) (shdr : Nat) (dataOffset dataSize : UInt32) :
    Except Halt (Option (Nat × Nat) × Option (List UInt8)) :=
  if host.dataAllocated = false then .ok (none, none)
  else
    match pread board host memory dev dataSize.toNat dataOffset.toNat with
    | none => .ok (none, none)
    | some buf => do
        let fields ← orStuck (readAt firstBlock (shdr + layout.summedAt) layout.summedLen)
        let digest := (md5 (fields ++ buf)).toList
        let stored ← orStuck (readAt firstBlock (shdr + layout.digestAt) 16)
        if stored = digest then return (some (dataOffset.toNat, dataSize.toNat), none)
        else
          let firstBlock ←
            orStuck (writeAt firstBlock (shdr + layout.sizeAt) (layout.encodeSize dataSize))
          let firstBlock ← orStuck (writeAt firstBlock (shdr + layout.digestAt) digest)
          return (some (dataOffset.toNat, dataSize.toNat), some firstBlock)

/-- The block read, and place and size of the data.  `block_offset` comes from the
erase size known before the device is opened, which `globals` holds. -/
def findEntity (globals : Globals) (offset dataSize : UInt32) :
    Except Halt (Globals × List UInt8 × UInt32 × UInt32) := do
  let blockOffset := offset &&& ~~~(UInt32.ofNat globals.erasesize - 1)
  let shdr := offset - blockOffset
  let globals ← orExit (mtdCheckOpen board dev)
  let _ ← orExit (require
    (blockOffset + UInt32.ofNat globals.erasesize ≤ UInt32.ofNat globals.mtdsize))
  let _ ← orExit (require host.blockAllocated)
  let firstBlock ← orExit (pread board host memory dev globals.erasesize blockOffset.toNat)
  let magic ← orStuck (readAt firstBlock (shdr.toNat + layout.magicAt) 4)
  let _ ← orExit (require (magic = layout.magic))
  let sizeField ← orStuck (readAt firstBlock (shdr.toNat + layout.sizeAt) 4)
  let size := layout.decodeSize sizeField
  let _ ← orExit (require (size ≠ 0))
  let metasize ← readMetasize layout firstBlock shdr.toNat
  let dataOffset := shdr + UInt32.ofNat layout.headerSize + metasize
  let dataSize := if dataSize = 0 then UInt32.ofNat globals.mtdsize - dataOffset else dataSize
  return (globals, firstBlock, dataOffset, if size < dataSize then size else dataSize)

/-- What was summed up and what was done to the flash. -/
def mtdFixHeader (globals : Globals) (offset dataSize : UInt32) :
    Except Halt (Option (Nat × Nat) × List FlashEvent) := do
  let blockOffset := offset &&& ~~~(UInt32.ofNat globals.erasesize - 1)
  let (globals, firstBlock, dataOffset, dataSize) ←
    findEntity board host layout memory dev globals offset dataSize
  let (summed, patched) ←
    fixMd5 board host md5 layout memory dev firstBlock (offset - blockOffset).toNat dataOffset dataSize
  match patched with
  | none => return (summed, [])
  | some firstBlock =>
      let log ← rewriteBlock board dev globals blockOffset.toNat firstBlock
      return (summed, log)

/-! ## The three commands -/

def seamaFixMd5 := fixMd5 board host md5 seamaEntityHeader memory dev

def mtdFixseama := mtdFixHeader board host md5 seamaEntityHeader memory dev

def wrggFixMd5 (bigEndian : Bool) := fixMd5 board host md5 (wrgg03Header bigEndian) memory dev

def mtdFixwrgg (bigEndian : Bool) := mtdFixHeader board host md5 (wrgg03Header bigEndian) memory dev

def wrgFixMd5 := fixMd5 board host md5 wrgHeader memory dev

def mtdFixwrg := mtdFixHeader board host md5 wrgHeader memory dev

end Rut9xx.Mtd.ImageHeader
