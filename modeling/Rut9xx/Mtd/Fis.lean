import Rut9xx.Data.Buffer
import Mathlib.Data.UInt

namespace Rut9xx.Mtd.Fis

open Rut9xx.Data

/-! # The RedBoot partition table (`fis.c`)

The table is the mapped erase block, cut into descriptors of 256 bytes.  A call
that leaves the block, or follows a pointer to nothing, has no result.
-/

structure FisImageDesc where
  name : Vector UInt8 16
  flashBase : UInt32
  memBase : UInt32
  size : UInt32
  entryPoint : UInt32
  dataLength : UInt32
  pad : Vector UInt8 212
  crcDesc : UInt32
  crcFile : UInt32
deriving DecidableEq

namespace FisImageDesc

/-- A descriptor of bytes 0xff. -/
def erased : FisImageDesc where
  name := Vector.replicate 16 0xff
  flashBase := 0xffffffff
  memBase := 0xffffffff
  size := 0xffffffff
  entryPoint := 0xffffffff
  dataLength := 0xffffffff
  pad := Vector.replicate 212 0xff
  crcDesc := 0xffffffff
  crcFile := 0xffffffff

def zeroed : FisImageDesc where
  name := Vector.replicate 16 0
  flashBase := 0
  memBase := 0
  size := 0
  entryPoint := 0
  dataLength := 0
  pad := Vector.replicate 212 0
  crcDesc := 0
  crcFile := 0

/-- The walks over the table stop at the first descriptor that is not. -/
def inUse (desc : FisImageDesc) : Bool := desc.name[0] != 0 && desc.name[0] != 0xff

end FisImageDesc

/-- A partition on the command line, with what `mtd_write` found of it. -/
structure FisPart where
  name : Vector UInt8 16
  loadaddr : UInt32
  size : UInt32
  length : UInt32
  crc : UInt32

/-- `!strncmp` of two names. -/
def sameName (left right : Vector UInt8 16) : Bool :=
  left.toList.takeWhile (· != 0) == right.toList.takeWhile (· != 0)

def isNamed (old : List FisPart) (desc : FisImageDesc) : Bool :=
  old.any fun part => sameName desc.name part.name

/-- `mapped` is `none` when the directory cannot be opened. -/
def fisValidate (mapped : Option (List FisImageDesc)) (old new : List FisPart) : Int :=
  match mapped with
  | none => -1
  | some table =>
      if new.dropLast.any (·.size == 0) then -1
      else if ((table.takeWhile FisImageDesc.inUse).filter (isNamed old)).length = old.length then 1
      else -1

/-! ## Memory calls

A count is converted to `size_t`: 32 bits, in descriptors 24. -/

def toSize (count : Int) : Nat := (count % 2 ^ 24).toNat

def memmove (table : List FisImageDesc) (dest src : Nat) (count : Int) : Option (List FisImageDesc) :=
  if src + toSize count ≤ table.length then writeAt table dest (slice table src (toSize count))
  else none

def memsetErased (table : List FisImageDesc) (start : Nat) (count : Int) :
    Option (List FisImageDesc) :=
  if start + toSize count ≤ table.length then
    writeAt table start (List.replicate (toSize count) FisImageDesc.erased)
  else none

/-! ## The remap -/

/-- The places of the first and the last entry that is replaced. -/
def findReplaced (old : List FisPart) :
    Nat → List FisImageDesc → Option (Nat × Nat) → Option (Nat × Nat)
  | _, [], found => found
  | index, desc :: rest, found =>
      findReplaced old (index + 1) rest
        (if isNamed old desc then some ((found.map Prod.fst).getD index, index) else found)

def maxOffset (entries : List FisImageDesc) : UInt32 :=
  entries.foldl (fun offset desc => if offset < desc.flashBase then desc.flashBase else offset) 0

/-- The lowest base behind `high`, if there is one below `offset`. -/
def nextOffset (entries : List FisImageDesc) (high offset : UInt32) : UInt32 :=
  entries.foldl (fun offset desc =>
    if high < desc.flashBase ∧ desc.flashBase < offset then desc.flashBase else offset) offset

/-- The entries from `last` on go to `desc`. -/
def moveTail (table : List FisImageDesc) (desc last : Nat) : Option (List FisImageDesc) :=
  if desc = last then some table
  else do
    let tmp := if last < desc then desc else last
    let moved ← memmove table desc last (table.length - tmp)
    if desc < last then
      let tmp : Int := table.length - (last - desc : Nat)
      memsetErased moved tmp.toNat (tmp - table.length)
    else return moved

def madeDesc (part : FisPart) (offset size : UInt32) : FisImageDesc :=
  let hdrSize := if part.size > 0 then part.size else size
  { FisImageDesc.zeroed with
    name := part.name
    crcDesc := 0
    crcFile := part.crc
    flashBase := offset
    memBase := part.loadaddr
    entryPoint := part.loadaddr
    size := hdrSize
    dataLength := if part.length > 0 then part.length else hdrSize }

def writeParts : List FisPart → Nat → UInt32 → UInt32 → List FisImageDesc → Option (List FisImageDesc)
  | [], _, _, _, table => some table
  | part :: rest, desc, offset, size, table => do
      let made := madeDesc part offset size
      let table ← writeAt table desc [made]
      writeParts rest (desc + 1) (offset + made.size) (size - made.size) table

/-- The return value and the table. -/
def fisRemap (mapped : Option (List FisImageDesc)) (old new : List FisPart) :
    Option (Int × List FisImageDesc) :=
  match mapped with
  | none => some (-1, [])
  | some table => do
      let entries := table.takeWhile FisImageDesc.inUse
      let (first, last) ← findReplaced old 0 entries none
      let firstDesc ← table[first]?
      let lastDesc ← table[last]?
      let swapped := firstDesc.flashBase > lastDesc.flashBase
      let firstFb := if swapped then lastDesc else firstDesc
      let lastFb := if swapped then firstDesc else lastDesc
      let offset := nextOffset entries lastFb.flashBase (maxOffset entries)
      let size := offset - firstFb.flashBase
      let moved ← moveTail table (first + new.length) (last + 1)
      let written ← writeParts new first firstFb.flashBase size moved
      return (0, written)

end Rut9xx.Mtd.Fis
