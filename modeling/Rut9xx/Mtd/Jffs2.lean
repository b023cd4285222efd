import Rut9xx.Data.Endian
import Rut9xx.Data.Partial
import Rut9xx.Data.Chunks
import Mathlib.Data.UInt

namespace Rut9xx.Mtd

open Rut9xx.Data

/-! # The jffs2 generator (`jffs2.c`)

The buffer is memory from its first byte on, so a store past the erase block
is a store into what lies behind.  Blocks come out in the order of the calls
of `write`; what the flash makes of them is no concern of the generator.  The
target is big-endian.
-/

/-- One entry of `crc32_table`. -/
def crc32Entry (index : UInt32) : UInt32 :=
  (List.range 8).foldl (fun (crc : UInt32) _ =>
    if (crc &&& 1) = 1 then (0xedb88320 : UInt32) ^^^ (crc >>> 1) else crc >>> 1) index

def crc32 (val : UInt32) (bytes : List UInt8) : UInt32 :=
  bytes.foldl (fun val byte => crc32Entry ((val ^^^ byte.toUInt32) &&& 0xff) ^^^ (val >>> 8)) val

def CLEANMARKER : List UInt8 :=
  [0x19, 0x85, 0x20, 0x03, 0x00, 0x00, 0x00, 0x0c, 0xf0, 0x60, 0xdc, 0x98]

def JFFS2_EOF : List UInt8 := [0xde, 0xad, 0xc0, 0xde]

def JFFS2_MAGIC_BITMASK : UInt16 := 0x1985

def JFFS2_NODETYPE_DIRENT : UInt16 := 0xe001

def JFFS2_NODETYPE_INODE : UInt16 := 0xe002

def sizeofRawDirent : Nat := 40

def sizeofRawInode : Nat := 68

/-- The file-scope variables of the generator and the blocks written so far. -/
structure Generator where
  lastIno : UInt32
  lastVersion : UInt32
  buf : Nat → UInt8
  ofs : Nat
  blocks : List (List UInt8)

structure Stat where
  mode : UInt32
  size : UInt32
  atime : UInt32
  mtime : UInt32
  ctime : UInt32

/-- The file to append: its base name, what `stat` and `open` say of it, its
bytes, and the most each `read` will return less one; reads behind the end of
`chunks` return all they are asked for. -/
structure SourceFile where
  name : List UInt8
  stat : Option Stat
  opens : Bool
  content : List UInt8
  chunks : List Nat

/-! ## Nodes -/

/-- `crc` stands for the field while its own value is computed. -/
def rawDirentFront (name : List UInt8) (type : UInt8) (pino version ino crc : UInt32) :
    List UInt8 :=
  be16 JFFS2_MAGIC_BITMASK ++ be16 JFFS2_NODETYPE_DIRENT ++
    be32 (UInt32.ofNat (sizeofRawDirent + name.length)) ++ be32 crc ++ be32 pino ++
    be32 version ++ be32 ino ++ be32 0 ++ [UInt8.ofNat name.length, type, 0, 0]

def rawDirent (name : List UInt8) (type : UInt8) (pino version ino : UInt32) : List UInt8 :=
  let hdrCrc := crc32 0 ((rawDirentFront name type pino version ino 0).take 8)
  let front := rawDirentFront name type pino version ino hdrCrc
  front ++ be32 (crc32 0 front) ++ be32 (crc32 0 name) ++ name

def rawInodeFront (ino version : UInt32) (st : Stat) (offset dsize crc : UInt32) : List UInt8 :=
  be16 JFFS2_MAGIC_BITMASK ++ be16 JFFS2_NODETYPE_INODE ++
    be32 (UInt32.ofNat sizeofRawInode + dsize) ++ be32 crc ++ be32 ino ++ be32 version ++
    be32 st.mode ++ be16 0 ++ be16 0 ++ be32 st.size ++ be32 st.atime ++ be32 st.mtime ++
    be32 st.ctime ++ be32 offset ++ be32 dsize ++ be32 dsize ++ [0, 0] ++ be16 0

def rawInode (ino version : UInt32) (st : Stat) (offset : UInt32) (data : List UInt8) :
    List UInt8 :=
  let dsize := UInt32.ofNat data.length
  let hdrCrc := crc32 0 ((rawInodeFront ino version st offset dsize 0).take 8)
  let front := rawInodeFront ino version st offset dsize hdrCrc
  front ++ be32 (crc32 0 data) ++ be32 (crc32 0 front)

/-! ## The block buffer -/

def copy (state : Generator) (data : List UInt8) : Generator :=
  { state with
    buf := fun index =>
      if state.ofs ≤ index ∧ index < state.ofs + data.length then
        data.getD (index - state.ofs) 0
      else state.buf index
    ofs := state.ofs + data.length }

section

variable (erasesize : Nat)

def flush (state : Generator) : Generator :=
  { state with blocks := state.blocks ++ [(List.range erasesize).map state.buf] }

/-- The second half of `pad`: a block that is full to the end goes out. -/
def wrap (state : Generator) : Generator :=
  let state := { state with ofs := state.ofs % erasesize }
  if state.ofs = 0 then flush erasesize state else state

def pad (size : Nat) (state : Generator) : Generator :=
  if state.ofs % size = 0 ∧ state.ofs < erasesize then state
  else if state.ofs < erasesize then
    wrap erasesize (copy state (List.replicate (size - state.ofs % size) 0xff))
  else wrap erasesize state

def rbytes (state : Generator) : Nat := erasesize - state.ofs % erasesize

/-- `add_data` of the marker calls back here for ever when a block cannot hold it. -/
def prepEraseblock (state : Generator) : Option Generator :=
  if state.ofs > 0 then some state
  else if erasesize < CLEANMARKER.length then none
  else some (copy state CLEANMARKER)

def addData (state : Generator) (data : List UInt8) : Option Generator := do
  let state ←
    if state.ofs + data.length > erasesize then prepEraseblock erasesize (pad erasesize erasesize state)
    else some state
  return copy state data

/-- The size check compares as unsigned: it holds only when the block is full to the last byte. -/
def addDirent (state : Generator) (name : List UInt8) (type : UInt8) (parent : UInt32) :
    Option (Generator × UInt32) := do
  let state :=
    if (UInt32.ofNat state.ofs - UInt32.ofNat erasesize).toNat < sizeofRawDirent + name.length then
      pad erasesize erasesize state
    else state
  let state ← prepEraseblock erasesize state
  let ino := state.lastIno + 1
  let node := rawDirent name type parent state.lastVersion ino
  let copied := copy state node
  let state := { copied with
    lastIno := ino + 1
    lastVersion := state.lastVersion + 1
    ofs := state.ofs + sizeofRawDirent + name.length % 2 ^ 8 }
  return (pad erasesize 4 state, ino)

/-- The inner loop of `add_file`: a block with room for a node and 128 bytes. -/
def makeRoom : Nat → Generator → Option Generator
  | 0, _ => none
  | fuel + 1, state =>
      if rbytes erasesize state > sizeofRawInode + 128 then some state
      else (prepEraseblock erasesize (pad erasesize erasesize state)).bind (makeRoom fuel)

def addInode (state : Generator) (ino : UInt32) (st : Stat) (offset : UInt32)
    (data : List UInt8) : Option Generator := do
  let version := state.lastVersion + 1
  let state ← addData erasesize { state with lastVersion := version }
    (rawInode ino version st offset data)
  let state ← addData erasesize state data
  prepEraseblock erasesize (pad erasesize 4 state)

/-- The most that a `read` of `len` bytes returns. -/
def readLength (len : Nat) : List Nat → Nat
  | [] => len
  | chunk :: _ => min len (chunk + 1)

/-- The loop over the file.  Every round takes a byte or more, so `fuel` beyond
the bytes left is never used up. -/
def addFileLoop (ino : UInt32) (st : Stat) :
    Nat → Generator → UInt32 → List UInt8 → List Nat → Option Generator
  | 0, _, _, _, _ => none
  | fuel + 1, state, offset, rest, chunks => do
      let state ← makeRoom erasesize 3 state
      let len := readLength (min (rbytes erasesize state - sizeofRawInode) 4096) chunks
      let data := rest.take len
      if data = [] then return state
      else
        let state ← addInode erasesize state ino st offset data
        addFileLoop ino st fuel state (offset + UInt32.ofNat data.length) (rest.drop len) chunks.tail

def addFile (state : Generator) (file : SourceFile) (parent : UInt32) : Option Generator :=
  match file.stat with
  | none => some state
  | some st => do
      let (state, ino) ← addDirent erasesize state file.name 8 parent
      if file.opens then
        addFileLoop erasesize ino st (file.content.length + 1) state 0 file.content file.chunks
      else return state

/-- The blocks that `mtd_replace_jffs2` writes for `file`. -/
def mtdReplaceJffs2 (heap : Nat → UInt8) (lastIno lastVersion : UInt32) (file : SourceFile) :
    Option (List (List UInt8)) := do
  let state ← addFile erasesize
    { lastIno := if lastIno = 0 then 1 else lastIno
      lastVersion := lastVersion
      buf := heap
      ofs := 0
      blocks := [] } file 1
  let state ← addData erasesize (pad erasesize erasesize state) JFFS2_EOF
  return (pad erasesize erasesize state).blocks

end

end Rut9xx.Mtd
