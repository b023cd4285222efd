import Rut9xx.Mtd.Device
import Rut9xx.Mtd.Jffs2

namespace Rut9xx.Mtd

open Rut9xx.Data

/-! # `mtd_write`

One round of the loop is one buffer.  A run ends in its log of flash
operations; so does a run that does not return.  The FIS table is not built in.
-/

/-- The command-line options, and what the header fix-up of the image format
does to the flash behind an appended file system. -/
structure WriteOptions where
  partOffset : Nat
  noErase : Bool
  jffs2file : Option SourceFile
  jffs2SkipBytes : Int
  tplUbootArgsPart : Option Nat
  fixup : FlashMemory → Nat → List FlashEvent

/-- `exit(1)`, or a loop that never ends or leaves its memory. -/
inductive Halt where
  | exit (log : List FlashEvent)
  | stuck (log : List FlashEvent)

structure Writer where
  globals : Globals
  capacity : Nat
  dev : Nat
  pos : Nat
  next : List Nat
  image : Image
  buf : List UInt8
  w : Nat
  e : Nat
  skip : Nat
  skipBadBlocks : Nat
  offset : Nat
  jffs2file : Option SourceFile
  jffs2Replaced : Bool
  lastIno : UInt32
  lastVersion : UInt32
  log : List FlashEvent

/-! ## The device calls -/

section

variable (board : Board)

def mtdEraseBlock (writer : Writer) (offset : Nat) : Option Writer :=
  if (board.chip writer.dev).erases offset writer.globals.erasesize then
    some { writer with
      log := writer.log ++ [.erase writer.dev offset writer.globals.erasesize] }
  else none

/-- `write` at the file position: how many bytes it took, `none` for an error. -/
def write (writer : Writer) (bytes : List UInt8) : Option Nat × Writer :=
  match (board.chip writer.dev).accepts writer.pos bytes.length with
  | none => (none, writer)
  | some len => (some len, { writer with
      pos := writer.pos + len
      log := writer.log ++ [.program writer.dev writer.pos (bytes.take len)] })

/-! ## The recovery flag

The flag is built for ramips, whose cores are little-endian. -/

def TPL_RECOVER_MAGIC : List UInt8 := [0xef, 0xcd, 0xab, 0x89]

def TPL_NO_RECOVER_MAGIC : List UInt8 := [0, 0, 0, 0]

def flagMagic (recoveryActive : Bool) : List UInt8 :=
  if recoveryActive then TPL_RECOVER_MAGIC else TPL_NO_RECOVER_MAGIC

/-- The block is read into memory sized by the erase size of the device opened
before; opening the flag's device changes that variable. -/
def mtdTplRecoverflagWrite (memory : FlashMemory) (part : Nat) (recoveryActive : Bool)
    (writer : Writer) : Except Halt Writer :=
  match mtdCheckOpen board part with
  | none => .error (.exit writer.log)
  | some globals =>
      if writer.globals.erasesize < globals.erasesize then .error (.stuck writer.log)
      else
        let args := readBytes (replay memory writer.log) part 0 globals.erasesize
        let magic := flagMagic recoveryActive
        if args.take 4 = magic then .ok { writer with globals := globals }
        else if (board.chip part).erases 0 globals.erasesize then
          let log := writer.log ++ [.erase part 0 globals.erasesize]
          match (board.chip part).accepts 0 globals.erasesize with
          | none => .error (.exit log)
          | some len => .ok { writer with
              globals := globals
              log := log ++ [.program part 0 ((magic ++ args.drop 4).take len)] }
        else .error (.exit writer.log)

/-! ## Appending a file system -/

/-- The bad blocks in front of the next one that `pad` flushes. -/
def skipBad : Nat → Nat → Writer → Except Halt (Nat × Writer)
  | 0, _, writer => .error (.stuck writer.log)
  | fuel + 1, mtdofs, writer =>
      match mtdBlockIsBad writer.globals (board.chip writer.dev) mtdofs with
      | none => .error (.exit writer.log)
      | some bad =>
          if bad ∧ mtdofs < writer.globals.mtdsize then
            skipBad fuel (mtdofs + writer.globals.erasesize)
              { writer with
                pos := (board.chip writer.dev).seek writer.pos writer.globals.erasesize }
          else .ok (mtdofs, writer)

/-- Whether the erasing or the writing worked is not looked at. -/
def flushBlock (mtdofs : Nat) (writer : Writer) (block : List UInt8) :
    Except Halt (Nat × Writer) := do
  let (mtdofs, writer) ← skipBad board ((board.chip writer.dev).size + 2) mtdofs writer
  let writer := (mtdEraseBlock board writer mtdofs).getD writer
  return (mtdofs + writer.globals.erasesize, (write board writer block).2)

def flushBlocks : Nat → Writer → List (List UInt8) → Except Halt (Nat × Writer)
  | mtdofs, writer, [] => .ok (mtdofs, writer)
  | mtdofs, writer, block :: rest => do
      let (mtdofs, writer) ← flushBlock board mtdofs writer block
      flushBlocks mtdofs writer rest

/-- The marker block gives way to the file system, and so do as many bytes of
the image as that takes up. -/
def appendJffs2 (writer : Writer) (file : SourceFile) : Except Halt Writer :=
  match mtdReplaceJffs2 writer.globals.erasesize board.heap writer.lastIno writer.lastVersion
      file with
  | none => .error (.stuck writer.log)
  | some blocks => do
      let (mtdofs, written) ← flushBlocks board writer.e writer blocks
      let skip := mtdofs - writer.e
      return { written with
        jffs2file := none
        jffs2Replaced := true
        w := written.w + skip
        e := written.e + skip
        skip := skip - writer.buf.length
        buf := []
        offset := 0 }

end

def PAD (length : UInt32) : UInt32 := (length + 3) &&& ~~~3

/-- The nodes in the block that starts at `buf`: the last inode and version numbers.
A position seen twice comes back for ever, so `fuel` beyond the positions is not used up. -/
def mtdParseJffs2data (erasesize : Nat) (buf : Nat → UInt8) :
    Nat → UInt32 → UInt32 × UInt32 → Option (UInt32 × UInt32)
  | 0, _, _ => none
  | fuel + 1, ofs, (lastIno, lastVersion) =>
      let word := fun at' => be32At ((List.range 24).map fun index => buf (ofs.toNat + index)) at'
      if ofs.toNat < erasesize ∧ (word 0).toNat / 2 ^ 16 = JFFS2_MAGIC_BITMASK.toNat then
        mtdParseJffs2data erasesize buf fuel (ofs + PAD (word 4))
          (if (word 0).toNat % 2 ^ 16 = JFFS2_NODETYPE_DIRENT.toNat then
            (max lastIno (word 20), max lastVersion (word 16))
          else (lastIno, lastVersion))
      else some (lastIno, lastVersion)

/-! ## The loop -/

section

variable (board : Board) (options : WriteOptions) (memory : FlashMemory)

def setRecoverFlag (recoveryActive : Bool) (writer : Writer) : Except Halt Writer :=
  match options.tplUbootArgsPart with
  | none => .ok writer
  | some part => mtdTplRecoverflagWrite board memory part recoveryActive writer

/-- From the label `resume` to the loop. -/
def openDevice (writer : Writer) (dev : Nat) (next : List Nat) : Except Halt Writer :=
  match mtdCheckOpen board dev with
  | none => .error (.exit writer.log)
  | some globals => setRecoverFlag board options memory true { writer with
      globals := globals
      dev := dev
      pos := (board.chip dev).seek 0 options.partOffset
      next := next
      w := 0
      e := 0 }

/-- Where the loop that erases ahead of the write leads. -/
inductive Ahead where
  | erased (writer : Writer)
  | failed (writer : Writer)

def eraseAhead : Nat → Writer → Except Halt Ahead
  | 0, writer => .error (.stuck writer.log)
  | fuel + 1, writer =>
      if writer.e < writer.w + writer.buf.length + writer.skipBadBlocks then
        match mtdBlockIsBad writer.globals (board.chip writer.dev) writer.e with
        | none => .error (.exit writer.log)
        | some true => eraseAhead fuel { writer with
            skipBadBlocks := writer.skipBadBlocks + writer.globals.erasesize
            e := writer.e + writer.globals.erasesize
            pos := (board.chip writer.dev).seek writer.pos writer.globals.erasesize }
        | some false =>
            match mtdEraseBlock board writer (writer.e + options.partOffset) with
            | none => .ok (.failed writer)
            | some erased =>
                eraseAhead fuel { erased with e := writer.e + writer.globals.erasesize }
      else .ok (.erased writer)

/-- An erase failed: the rest of the image goes to the next device. -/
def resume (writer : Writer) : Except Halt Writer :=
  match writer.next with
  | [] => .error (.exit writer.log)
  | dev :: next =>
      let ahead := writer.e - writer.w
      let writer :=
        if writer.w < writer.e then
          { (write board writer (bytesFrom board writer.buf writer.offset ahead)).2 with
            offset := ahead }
        else writer
      openDevice board options memory writer dev next

def writeBlock (writer : Writer) : Except Halt Writer :=
  match write board writer (bytesFrom board writer.buf writer.offset writer.buf.length) with
  | (none, writer) => .error (.exit writer.log)
  | (some len, writer) =>
      if len < writer.buf.length then .error (.exit writer.log)
      else .ok { writer with w := writer.w + writer.buf.length, buf := [], offset := 0 }

def storeBlock (writer : Writer) : Except Halt Writer :=
  if options.noErase then writeBlock board writer
  else
    match eraseAhead board options ((board.chip writer.dev).size + 2) writer with
    | .error halt => .error halt
    | .ok (.erased writer) => writeBlock board writer
    | .ok (.failed writer) => resume board options memory writer

/-- What becomes of the block in the buffer. -/
def takeBlock (writer : Writer) : Except Halt Writer :=
  if 0 < writer.skip then
    .ok { writer with skip := writer.skip - writer.buf.length, buf := [] }
  else
    match writer.jffs2file with
    | none => storeBlock board options memory writer
    | some file =>
        if options.jffs2SkipBytes ≤ writer.w then
          if writer.buf.take 4 = JFFS2_EOF then appendJffs2 board writer file
          else
            match mtdParseJffs2data writer.globals.erasesize
                (fun index => writer.buf.getD index (board.heap index))
                (writer.globals.erasesize + 1) 0 (writer.lastIno, writer.lastVersion) with
            | none => .error (.stuck writer.log)
            | some (lastIno, lastVersion) =>
                storeBlock board options memory
                  { writer with lastIno := lastIno, lastVersion := lastVersion }
        else storeBlock board options memory writer

/-- A round takes a byte or more of the image, or the buffer that was left, or
the next device; `fuel` beyond these is not used up. -/
def writeLoop : Nat → Writer → Except Halt Writer
  | 0, writer => .error (.stuck writer.log)
  | fuel + 1, writer =>
      let erasesize := writer.globals.erasesize
      if writer.capacity < erasesize then .error (.stuck writer.log)
      else
        let (buf, image) := refill erasesize (writer.image.measure + 1) writer.buf writer.image
        if buf = [] then .ok { writer with image := image }
        else do
          let writer ← takeBlock board options memory
            { writer with image := image, buf := padBlock erasesize buf }
          writeLoop fuel writer

def finish (writer : Writer) : Except Halt (List FlashEvent) := do
  let writer := if writer.jffs2Replaced then
      { writer with
        log := writer.log ++ options.fixup (replay memory writer.log) writer.dev }
    else writer
  let writer ← setRecoverFlag board options memory false writer
  return writer.log

/-- The buffer is `mtd_check`'s, one erase block of the first device, and holds
what `image_check` read of the image. -/
def startWriter (dev : Nat) (next : List Nat) (buf : List UInt8) (image : Image) : Writer where
  globals := ⟨0, 0, false⟩
  capacity := (board.chip dev).erasesize
  dev := dev
  pos := 0
  next := next
  image := image
  buf := buf
  w := 0
  e := 0
  skip := 0
  skipBadBlocks := 0
  offset := 0
  jffs2file := options.jffs2file
  jffs2Replaced := false
  lastIno := 0
  lastVersion := 0
  log := []

def mtdWrite (dev : Nat) (next : List Nat) (buf : List UInt8) (image : Image) :
    Except Halt (List FlashEvent) := do
  let writer ← openDevice board options memory (startWriter board options dev next buf image) dev next
  let writer ← writeLoop board options memory (image.rest.length + next.length + 2) writer
  finish board options memory writer

end

end Rut9xx.Mtd
