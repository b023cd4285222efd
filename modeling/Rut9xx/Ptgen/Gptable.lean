import Rut9xx.Data.Extents
import Mathlib.Algebra.Group.Int.Defs
import Mathlib.Algebra.Group.Nat.Defs

namespace Rut9xx.Ptgen

section

def gptEntrySize : Nat := 128
def gptEntryMax : Nat := 128
def gptHeaderSector : Nat := 1
def gptFirstEntrySector : Nat := 2
def diskSectorSize : Nat := 512

/-- The sectors of the entry array, 32 of them. -/
def entrySectors : Nat := gptEntrySize * gptEntryMax / diskSectorSize

abbrev Guid := List UInt8

def guidInit (a b c : Nat) (d : List UInt8) : Guid :=
  [UInt8.ofNat a, UInt8.ofNat (a >>> 8), UInt8.ofNat (a >>> 16), UInt8.ofNat (a >>> 24),
    UInt8.ofNat b, UInt8.ofNat (b >>> 8), UInt8.ofNat c, UInt8.ofNat (c >>> 8)] ++ d

def guidPartitionSystem : Guid :=
  guidInit 0xC12A7328 0xF81F 0x11d2 [0xBA, 0x4B, 0x00, 0xA0, 0xC9, 0x3E, 0xC9, 0x3B]

def guidPartitionBasicData : Guid :=
  guidInit 0xEBD0A0A2 0xB9E5 0x4433 [0x87, 0xC0, 0x68, 0xB6, 0xB7, 0x26, 0x99, 0xC7]

def guidPartitionBiosBoot : Guid :=
  guidInit 0x21686148 0x6449 0x6E6F [0x74, 0x4E, 0x65, 0x65, 0x64, 0x45, 0x46, 0x49]

/-- `guid.b[sizeof(guid_t) - 1] += number`. -/
def numbered (guid : Guid) (number : Nat) : Guid :=
  guid.modify 15 (· + UInt8.ofNat number)

structure Partinfo where
  start : Nat
  size : Nat
  type : Nat
  start_lt : start < 2 ^ 64
  size_lt : size < 2 ^ 64

/-- What `main` has parsed when it calls `gen_gptable`. Sizes and starts are in kilobytes. -/
structure Options where
  active : Nat
  heads : Nat
  sectors : Nat
  kbAlign : Int
  ignoreNullSizedPartition : Bool
  guid : Guid
  parts : List Partinfo
  heads_pos : 0 < heads
  heads_lt : heads < 2 ^ 31
  sectors_pos : 0 < sectors
  sectors_lt : sectors < 2 ^ 31
  kbAlign_ge : -2 ^ 31 ≤ kbAlign
  kbAlign_lt : kbAlign < 2 ^ 31
  parts_le : parts.length ≤ gptEntryMax

structure Gpte where
  type : Guid
  guid : Guid
  start : Nat
  «end» : Nat
  name : String
  deriving DecidableEq

/-- An entry that `memset` cleared and nothing wrote to. -/
def Gpte.cleared : Gpte := ⟨List.replicate 16 0, List.replicate 16 0, 0, 0, ""⟩

structure Gpth where
  self : Nat
  alternate : Nat
  firstUsable : Nat
  lastUsable : Nat
  diskGuid : Guid
  firstEntry : Nat
  entryNum : Nat
  entrySize : Nat

structure Gptable where
  header : Gpth
  entries : List Gpte

/-- The two messages of `gen_gptable`, and the trap of a division by zero. -/
inductive Refusal where
  | invalidSize (partition : Nat)
  | invalidStart (start partition : Nat)
  | dividedByZero

/-- A `uint64_t` as the `long` parameter of the rounding functions. -/
def toLong (word : Nat) : Int := if word < 2 ^ 63 then (word : Int) else (word : Int) - 2 ^ 64

def ofLong (value : Int) : Nat := (value % 2 ^ 64).toNat

/-- `int cyl_size = heads * sectors` -/
def cylSize (options : Options) : Int :=
  let product : Nat := options.heads * options.sectors % 2 ^ 32
  if product < 2 ^ 31 then (product : Int) else (product : Int) - 2 ^ 32

def roundToCyl (options : Options) (sect : Nat) : Except Refusal Nat :=
  let cylSize := cylSize options
  if cylSize = 0 then .error .dividedByZero
  else .ok (ofLong (toLong sect + cylSize - (toLong sect).tmod cylSize))

def roundToKb (options : Options) (sect : Nat) : Nat :=
  ofLong (((toLong sect - 1).tdiv options.kbAlign + 1) * options.kbAlign)

/-- The first sector of a partition requested with the counter at `sect`. -/
def partitionStart (options : Options) (index sect : Nat) (part : Partinfo) :
    Except Refusal Nat :=
  let start := (sect + options.sectors) % 2 ^ 64
  if part.start ≠ 0 then
    if part.start * 2 % 2 ^ 64 < start then .error (.invalidStart part.start index)
    else .ok (part.start * 2 % 2 ^ 64)
  else if options.kbAlign ≠ 0 then .ok (roundToKb options start)
  else .ok start

/-- The counter behind a partition at `start`. -/
def partitionEnd (options : Options) (start : Nat) (part : Partinfo) : Except Refusal Nat :=
  let sect := (start + part.size * 2) % 2 ^ 64
  if options.kbAlign = 0 then roundToCyl options sect else .ok sect

def isSystem (options : Options) (index : Nat) (part : Partinfo) : Bool :=
  part.type = 0xEF || index + 1 = options.active

def partitionEntry (options : Options) (index start sect : Nat) (part : Partinfo) : Gpte where
  type := if isSystem options index part then guidPartitionSystem else guidPartitionBasicData
  guid := numbered options.guid (index + 1)
  start := start
  «end» := (sect + (2 ^ 64 - 1)) % 2 ^ 64
  name := if isSystem options index part then "EFI System Partition" else ""

/-- The loop of `gen_gptable` from partition `index` on: the entries it writes and the
sector counter it leaves. -/
def writeEntries (options : Options) (index sect : Nat) :
    List Partinfo → Except Refusal (List Gpte × Nat)
  | [] => .ok ([], sect)
  | part :: rest =>
      if part.size = 0 then
        if options.ignoreNullSizedPartition then do
          let (entries, last) ← writeEntries options (index + 1) sect rest
          .ok (Gpte.cleared :: entries, last)
        else .error (.invalidSize index)
      else do
        let start ← partitionStart options index sect part
        let next ← partitionEnd options start part
        let (entries, last) ← writeEntries options (index + 1) next rest
        .ok (partitionEntry options index start next part :: entries, last)

/-- `kb_align ? round_to_kb(sectors) : sectors` -/
def reservedSectors (options : Options) : Nat :=
  if options.kbAlign ≠ 0 then roundToKb options options.sectors else options.sectors

def biosBootEntry (options : Options) : Gpte where
  type := guidPartitionBiosBoot
  guid := numbered options.guid gptEntryMax
  start := gptFirstEntrySector + entrySectors
  «end» := (reservedSectors options + (2 ^ 64 - 1)) % 2 ^ 64
  name := ""

/-- The entry array is written in index order, and the last entry once more. -/
def gpteArray (options : Options) (entries : List Gpte) : List Gpte :=
  (entries ++ List.replicate (gptEntryMax - entries.length) Gpte.cleared).set (gptEntryMax - 1)
    (biosBootEntry options)

def genGptable (options : Options) : Except Refusal Gptable := do
  let (entries, sect) ← writeEntries options 0 0 options.parts
  let last := (sect + options.sectors + (2 ^ 64 - 1)) % 2 ^ 64
  .ok {
    header := {
      self := gptHeaderSector
      alternate := last
      firstUsable := gptFirstEntrySector + entrySectors
      lastUsable := (last + (2 ^ 64 - entrySectors - 1)) % 2 ^ 64
      diskGuid := options.guid
      firstEntry := gptFirstEntrySector
      entryNum := gptEntryMax
      entrySize := gptEntrySize }
    entries := gpteArray options entries }

end

/-! # The MBR partition table -/

section

def mbrEntryMax : Nat := 4

/-- An entry of the table; `start` and `length` are the words before `cpu_to_le32`. -/
structure Pte where
  active : UInt8
  chsStart : List UInt8
  type : UInt8
  chsEnd : List UInt8
  start : UInt32
  length : UInt32
  deriving DecidableEq

/-- What `memset` leaves. -/
def Pte.cleared : Pte := ⟨0, [0, 0, 0], 0, [0, 0, 0], 0, 0⟩

structure Ptable where
  signature : UInt32
  entries : List Pte
  deriving DecidableEq

def byteOf (value : Int) : UInt8 := UInt8.ofNat (value % 256).toNat

/-- `to_chs` -/
def toChs (options : Options) (sect : Int) : List UInt8 :=
  let s := sect.tmod options.sectors + 1
  let track := sect.tdiv options.sectors
  let h := track.tmod options.heads
  let c := track.tdiv options.heads
  [byteOf h, byteOf s ||| (byteOf (c / 4) &&& 0xC0), byteOf c]

def sectorsBetween (start sect : Nat) : Nat := (sect + 2 ^ 64 - start) % 2 ^ 64

/-- The entry of a partition at `start` with the counter at `sect` behind it. -/
def mbrEntry (options : Options) (index start sect : Nat) (part : Partinfo) : Pte where
  active := if index + 1 = options.active then 0x80 else 0
  chsStart := toChs options (toLong start)
  type := UInt8.ofNat part.type
  chsEnd := toChs options (toLong ((start + sectorsBetween start sect + (2 ^ 64 - 1)) % 2 ^ 64))
  start := UInt32.ofNat start
  length := UInt32.ofNat (sectorsBetween start sect)

/-- `(long)word * DISK_SECTOR_SIZE` -/
def printedBytes (word : Nat) : Int := toLong (ofLong (toLong word * diskSectorSize))

/-- The loop of `gen_ptable` from partition `index` on: the entries it fills, and the offset and
size it prints for each of them. -/
def writePtes (options : Options) (index sect : Nat) :
    List Partinfo → Except Refusal (List Pte × List (Int × Int))
  | [] => .ok ([], [])
  | part :: rest =>
      if part.size = 0 then
        if options.ignoreNullSizedPartition then do
          let (entries, printed) ← writePtes options (index + 1) sect rest
          .ok (Pte.cleared :: entries, printed)
        else .error (.invalidSize index)
      else do
        let start ← partitionStart options index sect part
        let next ← partitionEnd options start part
        let (entries, printed) ← writePtes options (index + 1) next rest
        .ok (mbrEntry options index start next part :: entries,
          (printedBytes start, printedBytes (sectorsBetween start next)) :: printed)

/-- `gen_ptable` when the output file can be written: the table, and what is printed. -/
def genPtable (options : Options) (signature : UInt32) :
    Except Refusal (Ptable × List (Int × Int)) := do
  let (entries, printed) ← writePtes options 0 0 options.parts
  .ok (⟨signature, entries ++ List.replicate (mbrEntryMax - entries.length) Pte.cleared⟩, printed)

end

end Rut9xx.Ptgen
