import Rut9xx.Data.Loop
import Rut9xx.Mtd.Jffs2
import Rut9xx.Mtdsplit.TrxSplit

namespace Rut9xx.Mtdsplit

open Rut9xx.Data Rut9xx.Tplink Rut9xx.Mtd

/-! # `mtdsplit`: the Broadcom whole flash image, and its jffs2 files

A read outside the block buffer and a scan without end are outcomes of their own.
-/

def ascii (text : List Char) : List UInt8 := text.map fun char => UInt8.ofNat char.toNat

def CFERAM_NAME : List UInt8 := ascii ['c', 'f', 'e', 'r', 'a', 'm']
def KERNEL_NAME : List UInt8 := ascii ['v', 'm', 'l', 'i', 'n', 'u', 'x', '.', 'l', 'z']
def OPENWRT_NAME : List UInt8 := ascii ['1', '-', 'o', 'p', 'e', 'n', 'w', 'r', 't']

inductive WfiError where
  | EINVAL
  | ENOENT
  deriving DecidableEq, Repr

/-! ## Reads of a buffer -/

def je16At (order : ByteOrder) (buf : List UInt8) (place : Nat) : Option UInt16 :=
  if place + 2 ≤ buf.length then
    let (high, low) := match order with
      | .big => (buf.getD place 0, buf.getD (place + 1) 0)
      | .little => (buf.getD (place + 1) 0, buf.getD place 0)
    some (UInt16.ofNat (2 ^ 8 * high.toNat + low.toNat))
  else none

def je32At (order : ByteOrder) (buf : List UInt8) (place : Nat) : Option UInt32 :=
  if place + 4 ≤ buf.length then some (nativeAt order buf place) else none

/-- `!memcmp` with the bytes of a name. -/
def memcmpEq (buf : List UInt8) (place : Nat) (name : List UInt8) : Option Bool :=
  if place + name.length ≤ buf.length then some (slice buf place name.length == name) else none

/-- `kstrndup` reads up to a zero, or `nsize` bytes. -/
def kstrndupAt (buf : List UInt8) (place nsize : Nat) : Option (List UInt8) :=
  let bytes := slice buf place nsize
  if 0 ∈ bytes ∨ bytes.length = nsize then some (bytes.takeWhile (· ≠ 0)) else none

/-! ## `jffs2_find_file` -/

/-- The CRC is over the node without its last two words. -/
def jffs2DirentCrc (buf : List UInt8) (node : Nat) : Option UInt32 :=
  if node + 32 ≤ buf.length then some (crc32 0 (slice buf node 32)) else none

def jffs2DirentValid (order : ByteOrder) (buf : List UInt8) (node : Nat) : Option Bool := do
  let magic ← je16At order buf node
  if magic ≠ JFFS2_MAGIC_BITMASK then some false
  else
    let nodetype ← je16At order buf (node + 2)
    if nodetype ≠ JFFS2_NODETYPE_DIRENT then some false
    else
      let ino ← je32At order buf (node + 20)
      if ino = 0 then some false
      else
        let nodeCrc ← je32At order buf (node + 32)
        let crc ← jffs2DirentCrc buf node
        some (nodeCrc == crc)

/-- A name that was looked for, and the length in its node. -/
structure FoundName where
  name : List UInt8
  size : Nat
  deriving DecidableEq, Repr

/-- How the scan of a block ends: the next block is to be scanned, or the lookup returns. -/
inductive BlockEnd where
  | more (valid : Bool)
  | invalid
  | found (name : Option FoundName)
  deriving DecidableEq

/-- `out_name` and `out_name_len`, where they are asked for. -/
def outName (buf : List UInt8) (wantName : Bool) (node : Nat) : Option (Option FoundName) :=
  if wantName then do
    let nsize ← buf[node + 28]?
    let name ← kstrndupAt buf (node + 40) nsize.toNat
    some (some ⟨name, nsize.toNat⟩)
  else some none

/-- The next node, from the length in this one. -/
def nextNode (order : ByteOrder) (buf : List UInt8) (blockOffs : UInt32) : Option UInt32 :=
  (je32At order buf (blockOffs.toNat + 4)).map fun totlen => (blockOffs + totlen + 3) &&& ~~~3

/-- A round of the scan of a block, which takes up the whole buffer. -/
def scanNode (order : ByteOrder) (buf name : List UInt8) (wantName : Bool) :
    UInt32 × Bool → Option ((UInt32 × Bool) ⊕ BlockEnd)
  | (blockOffs, valid) =>
      if blockOffs.toNat < buf.length then do
        let node := blockOffs.toNat
        if ← jffs2DirentValid order buf node then
          if ← memcmpEq buf (node + 40) OPENWRT_NAME then
            let next ← nextNode order buf blockOffs
            some (.inl (next, true))
          else if ← memcmpEq buf (node + 40) name then
            if valid then
              let out ← outName buf wantName node
              some (.inr (.found out))
            else some (.inr .invalid)
          else
            let next ← nextNode order buf blockOffs
            some (.inl (next, valid))
        else some (.inl (blockOffs + 4, valid))
      else some (.inr (.more valid))

/-- What a lookup returns: an error, or the offset of the block and the name. -/
abbrev Lookup := Except WfiError (Nat × Option FoundName)

/-- The blocks from `offs` on; `fuel` is for the nodes of a block. -/
def findInBlocks (mtd : MtdInfo) (name : List UInt8) (wantName : Bool) (fuel : Nat) (stop : Int) :
    Nat → Nat → Bool → Outcome Lookup
  | 0, _, _ => .endless
  | rounds + 1, offs, valid =>
      if (offs : Int) < stop then
        let next := findInBlocks mtd name wantName fuel stop rounds (offs + mtd.erasesize)
        match mtdRead mtd offs 2 with
        | .error _ => next valid
        | .ok magic =>
            if je16At mtd.order magic 0 ≠ some JFFS2_MAGIC_BITMASK then next valid
            else
              match mtdRead mtd offs mtd.erasesize with
              | .error _ => .done (.error .EINVAL)
              | .ok buf =>
                  (loop (scanNode mtd.order buf name wantName) fuel (0, valid)).bind fun
                    | .more valid => next valid
                    | .invalid => .done (.error .EINVAL)
                    | .found out => .done (.ok (offs, out))
      else .done (.error .ENOENT)

/-- `jffs2_find_file`; every block is at least one byte further on. -/
def jffs2FindFile (mtd : MtdInfo) (name : List UInt8) (wantName : Bool) (fuel offs : Nat) (size : Int) :
    Outcome Lookup :=
  findInBlocks mtd name wantName fuel (offs + size) (size.toNat + 1) offs false

end Rut9xx.Mtdsplit
