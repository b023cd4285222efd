import Rut9xx.Data.Buffer
import Rut9xx.Data.Endian
import Rut9xx.Data.HexText
import Rut9xx.Data.Partial
import Rut9xx.Data.Search

namespace Rut9xx.Safeloader

open Data

/-! # `tplink-safeloader`: building a factory image

A call of `error` or a failed assertion has no result, and neither has a write past the end of an
allocation. -/

section

abbrev Text := List UInt8

abbrev Md5Sum := { digest : List UInt8 // digest.length = 16 }

def maxPartitions : Nat := 32

structure FlashPartitionEntry where
  name : Text
  base : UInt32
  size : UInt32
  deriving DecidableEq

/-- The `size` of an image partition is the length of its `data`. -/
structure ImagePartitionEntry where
  name : Text
  data : List UInt8

/-- The fields of `device_info` that a factory image depends on. `partTrail` is `none` for
`PART_TRAIL_NONE`. -/
structure DeviceInfo where
  id : List Char
  vendor : Option Text
  supportList : Text
  partTrail : Option UInt8
  softVer : Option Text
  softVerCompatLevel : UInt32
  partitions : List FlashPartitionEntry
  fits : partitions.length ≤ maxPartitions

/-- What `gmtime` tells of the build time. -/
structure Tm where
  year : Nat
  mon : Nat
  mday : Nat

/-! ## The partitions of the image -/

/-- `ALIGN(x, 0x10000)` -/
def align (x : Nat) : Nat := (x + 0xffff) / 0x10000 * 0x10000

def jffs2EofMark : List UInt8 := [0xde, 0xad, 0xc0, 0xde]

def initMetaPartitionEntry (name : Text) (data : List UInt8) (pad : Option UInt8) :
    ImagePartitionEntry :=
  { name := name, data := be32 (UInt32.ofNat data.length) ++ be32 0 ++ data ++ pad.toList }

/-- `0x%05x` -/
def hexText (value : Nat) : Text := 0x30 :: 0x78 :: printHex 5 value

/-- A line of a partition table: `%s %s base 0x%05x size 0x%05x` and its ending. -/
def tableLine (header name : Text) (base size : Nat) (ending : Text) : Text :=
  header ++ 0x20 :: (name ++ 0x20 :: (ascii "base" ++ 0x20 :: (hexText base ++
    0x20 :: (ascii "size" ++ 0x20 :: (hexText size ++ ending)))))

/-- Lines printed one behind the other into `room` bytes, each with room for its terminator. -/
def printLines (room : Nat) : List Text → Option Text
  | [] => some []
  | line :: rest =>
      if room - 1 < line.length then none
      else (printLines (room - line.length) rest).map (line ++ ·)

def flashLine (p : FlashPartitionEntry) : Text :=
  tableLine (ascii "partition") p.name p.base.toNat p.size.toNat [0x0a]

def makePartitionTable (p : List FlashPartitionEntry) : Option ImagePartitionEntry := do
  let text ← printLines (0x800 - 4) (p.map flashLine)
  some {
    name := ascii "partition-table"
    data := [0x00, 0x04, 0x00, 0x00] ++ (text ++ 0 ::
      List.replicate (0x800 - 4 - text.length - 1) 0xff) }

def bcd (v : Nat) : UInt8 := UInt8.ofNat (0x10 * (v % 256 / 10) + v % 256 % 10)

def makeSoftVersion (info : DeviceInfo) (tm : Tm) : ImagePartitionEntry :=
  match info.softVer with
  | some text => initMetaPartitionEntry (ascii "soft-version") (text ++ [0]) info.partTrail
  | none =>
      let date := [0xff, 0, 0, 0, bcd ((1900 + tm.year) / 100), bcd (tm.year % 100),
        bcd (tm.mon + 1), bcd tm.mday] ++ be32 0
      let level := if info.softVerCompatLevel = 0 then [] else be32 info.softVerCompatLevel
      initMetaPartitionEntry (ascii "soft-version") (date ++ level) info.partTrail

def makeSupportList (info : DeviceInfo) : ImagePartitionEntry :=
  initMetaPartitionEntry (ascii "support-list") info.supportList info.partTrail

def makeExtraPara (info : DeviceInfo) (extraPara : List UInt8) : ImagePartitionEntry :=
  initMetaPartitionEntry (ascii "extra-para") extraPara info.partTrail

/-- `fread` of an empty file fails. -/
def readFile (name : Text) (content : List UInt8) (addJffs2Eof : Bool)
    (fileSystemPartition : Option FlashPartitionEntry) : Option ImagePartitionEntry := do
  require (content ≠ [])
  if addJffs2Eof then
    let len := match fileSystemPartition with
      | some p => align (content.length + p.base.toNat) + jffs2EofMark.length - p.base.toNat
      | none => align content.length + jffs2EofMark.length
    some {
      name := name
      data := content ++ List.replicate (len - content.length - jffs2EofMark.length) 0xff ++
        jffs2EofMark }
  else some { name := name, data := content }

def strcasecmpEq (left : List Char) (right : String) : Bool :=
  left.map Char.toLower == right.toList.map Char.toLower

/-- The devices that need an `extra-para` partition, and its content. -/
def extraPara (id : List Char) : Option (List UInt8) :=
  if ["ARCHER-A6-V3", "ARCHER-A7-V5", "ARCHER-C2-V3", "ARCHER-C7-V4", "ARCHER-C7-V5",
      "ARCHER-C25-V1", "ARCHER-C59-V2", "ARCHER-C60-V2", "ARCHER-C60-V3", "ARCHER-C6U-V1",
      "TLWR1043NV5"].any (strcasecmpEq id) then some [0x01, 0x00]
  else if strcasecmpEq id "ARCHER-C6-V2" then some [0x00, 0x01]
  else if ["ARCHER-C6-V2-US", "EAP245-V3"].any (strcasecmpEq id) then some [0x01, 0x01]
  else none

/-- The last partition named `firmware`, with those in front of it and behind it. -/
def findFirmware : List FlashPartitionEntry →
    Option (List FlashPartitionEntry × FlashPartitionEntry × List FlashPartitionEntry)
  | [] => none
  | p :: rest =>
      match findFirmware rest with
      | some (front, firmware, back) => some (p :: front, firmware, back)
      | none => if p.name = ascii "firmware" then some ([], p, rest) else none

/-- `file-system` begins at an erase block behind the kernel. Its size is what the code computes:
from the base in the flash, not from the offset in the partition. -/
def fileSystemPartition (firmware : FlashPartitionEntry) (kernelSize : Nat) : FlashPartitionEntry :=
  let base := UInt32.ofNat (align (firmware.base.toNat + kernelSize))
  { name := ascii "file-system", base := base, size := firmware.size - base }

def osImagePartition (firmware : FlashPartitionEntry) (kernelSize : Nat) : FlashPartitionEntry :=
  { firmware with name := ascii "os-image", size := UInt32.ofNat kernelSize }

/-- The dynamic split of `build_image`: the flash partitions, and the `file-system` partition when
there was one to make. A full table has no room for it. -/
def splitFirmware (partitions : List FlashPartitionEntry) (kernelSize : Nat) :
    Option (List FlashPartitionEntry × Option FlashPartitionEntry) :=
  match findFirmware partitions with
  | none => some (partitions, none)
  | some (front, firmware, back) =>
      if firmware.size.toNat < kernelSize ∨ maxPartitions ≤ partitions.length then none
      else
        some (front ++ osImagePartition firmware kernelSize ::
          fileSystemPartition firmware kernelSize :: back,
          some (fileSystemPartition firmware kernelSize))

/-- The flash partitions, as split, and the image partitions of `build_image`. -/
def imageParts (info : DeviceInfo) (tm : Tm) (kernel rootfs : List UInt8) (addJffs2Eof : Bool) :
    Option (List FlashPartitionEntry × List ImagePartitionEntry) := do
  let (partitions, fileSystem) ← splitFirmware info.partitions kernel.length
  let table ← makePartitionTable partitions
  let osImage ← readFile (ascii "os-image") kernel false none
  let fileSystem ← readFile (ascii "file-system") rootfs addJffs2Eof fileSystem
  some (partitions, [table, makeSoftVersion info tm, makeSupportList info, osImage, fileSystem] ++
    ((extraPara info.id).map (makeExtraPara info)).toList)

/-! ## The image -/

/-- Where the buffer of `put_partitions` lies in the image. -/
def tableOffset : Nat := 0x1014

def fwupLine (name : Text) (base size : Nat) : Text :=
  tableLine (ascii "fwup-ptn") name (base % 2 ^ 32) (size % 2 ^ 32) [0x09, 0x0d, 0x0a]

/-- `put_partitions`, with `image_pt` counted from the start of the buffer. -/
def putPartitions (flashParts : List FlashPartitionEntry) : List ImagePartitionEntry →
    Nat → Nat → List UInt8 → Option (List UInt8)
  | [], _, _, image => some image
  | part :: rest, imagePt, base, image => do
      let flashPart ← flashParts.find? fun p => p.name = part.name
      require (part.data.length ≤ flashPart.size.toNat)
      let image ← writeAt image (tableOffset + base) part.data
      let line := fwupLine part.name base part.data.length
      require (line.length ≤ 0x800 - imagePt - 1)
      let image ← writeAt image (tableOffset + imagePt) (line ++ [0])
      putPartitions flashParts rest (imagePt + line.length) (base + part.data.length) image

def md5Salt : List UInt8 :=
  [0x7a, 0x2b, 0x15, 0xed, 0x9b, 0x98, 0x59, 0x6d, 0xe5, 0x04, 0xab, 0x44, 0xac, 0x2a, 0x9f, 0x4e]

/-- The length of the hashed data is an `unsigned int`. -/
def putMd5 (md5 : List UInt8 → Md5Sum) (image : List UInt8) : Option (List UInt8) :=
  let hashed := (image.drop 0x14).take ((image.length - 0x14) % 2 ^ 32)
  writeAt image 0x04 (md5 (md5Salt ++ hashed)).1

def putVendor (vendor : Option Text) (image : List UInt8) : Option (List UInt8) :=
  match vendor with
  | none => some image
  | some text => do
      let image ← writeAt image 0x14 (be32 (UInt32.ofNat text.length))
      writeAt image 0x18 text

def imageSize (parts : List ImagePartitionEntry) : Nat :=
  0x1814 + (parts.map fun part => part.data.length).sum

def generateFactoryImage (md5 : List UInt8 → Md5Sum) (vendor : Option Text)
    (partitions : List FlashPartitionEntry) (parts : List ImagePartitionEntry) :
    Option (List UInt8) := do
  let len := imageSize parts
  let image ← writeAt (List.replicate len 0xff) 0 (be32 (UInt32.ofNat len))
  let image ← putVendor vendor image
  let image ← putPartitions partitions parts 0 0x800 image
  putMd5 md5 image

/-- `build_image` without `-S`. -/
def buildImage (md5 : List UInt8 → Md5Sum) (info : DeviceInfo) (tm : Tm) (kernel rootfs : List UInt8)
    (addJffs2Eof : Bool) : Option (List UInt8) := do
  let (partitions, parts) ← imageParts info tm kernel rootfs addJffs2Eof
  generateFactoryImage md5 info.vendor partitions parts

end

/-! # `tplink-safeloader`: reading an image back

`none` stands for a call of `error`, which ends the tool. -/

section

/-! ## Partition tables -/

/-- `ptr`, and how far it is to `end_part`. -/
structure Cursor where
  ptr : List UInt8
  left : Nat

/-- The next element of a line: `none` when no blank follows it. -/
def Cursor.element (cursor : Cursor) : Option (Text × Cursor) :=
  (memchr 0x20 (cursor.ptr.take cursor.left)).map fun len =>
    (cursor.ptr.take len, { ptr := cursor.ptr.drop (len + 1), left := cursor.left - (len + 1) })

/-- `strncpy` of at most 31 bytes into the zeroed `name`. -/
def elementName (element : Text) : Text := (element.take 31).takeWhile (· ≠ 0)

/-- The loop over the elements of a line: where it stops, and the entry if it got to the end. The
loop leaves when `ptr` has come to the end of the line. -/
def readLine (lineEnd : List UInt8) (cursor : Cursor) :
    Option (Option FlashPartitionEntry × List UInt8) :=
  if cursor.left = 0 then some (none, cursor.ptr)
  else (cursor.element).bind fun (_, cursor) =>
    if cursor.left = 0 then some (none, cursor.ptr)
    else (cursor.element).bind fun (name, cursor) =>
      if cursor.left = 0 then some (none, cursor.ptr)
      else (cursor.element).bind fun (_, cursor) =>
        if cursor.left = 0 then some (none, cursor.ptr)
        else
          let base := strtoulHex cursor.ptr
          (cursor.element).bind fun (_, cursor) =>
            if cursor.left = 0 then some (none, cursor.ptr)
            else (cursor.element).bind fun (_, cursor) =>
              let size := strtoulHex cursor.ptr
              some (some {
                name := elementName name
                base := UInt32.ofNat base
                size := UInt32.ofNat size }, lineEnd)

def addFlashPartition (maxEntries : Nat) (entries : List FlashPartitionEntry)
    (entry : FlashPartitionEntry) : Option (List FlashPartitionEntry) :=
  if entries.length < maxEntries then some (entries ++ [entry]) else none

/-- The loop over the lines. Every line moves `ptr` on, so that fuel for the whole buffer is enough. -/
def readLines (parthdr : Text) (maxEntries : Nat) : Nat → List UInt8 → List FlashPartitionEntry →
    Option (List FlashPartitionEntry)
  | 0, _, entries => some entries
  | fuel + 1, ptr, entries =>
      if parthdr.length < ptr.length ∧ parthdr <+: ptr then
        match memchr 0x0a ptr with
        | none => some entries
        | some left =>
            (readLine (ptr.drop (left + 1)) { ptr := ptr, left := left }).bind fun (entry, ptr) =>
              match entry with
              | none => readLines parthdr maxEntries fuel ptr entries
              | some entry => (addFlashPartition maxEntries entries entry).bind fun entries =>
                  readLines parthdr maxEntries fuel ptr entries
      else some entries

def readPartitionTable (file : List UInt8) (offset maxEntries : Nat) (parthdr : Text) :
    Option (List FlashPartitionEntry) :=
  let buf := slice file offset 2048
  if buf.length < 2048 then none
  else
    let buf := buf.take 2047 ++ [0]
    if parthdr <+: buf then readLines parthdr maxEntries buf.length buf [] else none

/-! ## Copying partitions out -/

def fread (stream : List UInt8) (count : Nat) : Option (List UInt8 × List UInt8) :=
  if stream.length < count then none else some (stream.take count, stream.drop count)

/-- The loop over blocks of 4096 bytes. -/
def copyBlocks : Nat → List UInt8 → Option (List UInt8 × List UInt8)
  | 0, stream => some ([], stream)
  | blocks + 1, stream =>
      (fread stream 4096).bind fun (block, stream) =>
        (copyBlocks blocks stream).map fun (rest, stream) => (block ++ rest, stream)

/-- `write_partition`: what it writes to the output file. -/
def writePartition (input : List UInt8) (firmwareOffset : Nat) (entry : FlashPartitionEntry) :
    Option (List UInt8) :=
  let size := entry.size.toNat
  (copyBlocks (size / 4096) (input.drop (entry.base.toNat + firmwareOffset))).bind
    fun (blocks, stream) =>
      if size % 4096 = 0 then some blocks
      else (fread stream (size % 4096)).map fun (last, _) => blocks ++ last

/-- The files that `extract_firmware` writes, by name. -/
def extractFirmware (input : List UInt8) : Option (List (Text × List UInt8)) :=
  (readPartitionTable input tableOffset 16 (ascii "fwup-ptn")).bind fun entries =>
    entries.mapM fun entry => (writePartition input tableOffset entry).map fun data =>
      (entry.name, data)

/-! ## Conversion -/

def findPartition (entries : List FlashPartitionEntry) (name : Text) : Option FlashPartitionEntry :=
  entries.find? fun entry => entry.name = name

/-- `fwrite` at a position of the file. A position behind its end leaves a hole, which reads as
zero. -/
def fwrite (file : List UInt8) (position : Nat) (data : List UInt8) : List UInt8 :=
  if data = [] then file
  else (file ++ List.replicate (position - file.length) 0).take position ++ data ++
    file.drop (position + data.length)

/-- The blocks of `write_ff`: whole ones while more than one is left, then the rest. -/
def writeFf (size : Nat) : List UInt8 :=
  let blocks := (size - 1) / 4096
  (List.replicate blocks (List.replicate 4096 (0xff : UInt8))).flatten ++
    List.replicate (size - blocks * 4096) 0xff

def convertFirmware (input : List UInt8) : Option (List UInt8) := do
  let fwup ← readPartitionTable input tableOffset maxPartitions (ascii "fwup-ptn")
  let fwupOsImage ← findPartition fwup (ascii "os-image")
  let fwupFileSystem ← findPartition fwup (ascii "file-system")
  let fwupPartitionTable ← findPartition fwup (ascii "partition-table")
  let flash ← readPartitionTable input (tableOffset + fwupPartitionTable.base.toNat + 4) maxPartitions
    (ascii "partition")
  let flashOsImage ← findPartition flash (ascii "os-image")
  let flashFileSystem ← findPartition flash (ascii "file-system")
  let osImage ← writePartition input tableOffset fwupOsImage
  let fileSystem ← writePartition input tableOffset fwupFileSystem
  let output := fwrite [] 0 osImage
  let output := fwrite output osImage.length (writeFf (flashOsImage.size - fwupOsImage.size).toNat)
  let position := (flashFileSystem.base - flashOsImage.base).toNat
  let output := fwrite output position fileSystem
  some (fwrite output (position + fileSystem.length)
    (writeFf (flashFileSystem.size - fwupFileSystem.size).toNat))

end

end Rut9xx.Safeloader
