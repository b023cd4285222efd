import Rut9xx.Data.Memory
import Rut9xx.Data.Partial
import Rut9xx.Trx.Partitions

namespace Rut9xx.Trx

open Data

/-! # `trx`

`unsigned long` and `size_t` have 64 bits.  Messages are left out.
-/

def TRX_MAGIC : UInt32 := 0x30524448
def TRX_MAX_LEN : UInt64 := 0x720000

def crc32buf (buf : List UInt8) : UInt32 := otrxCrc32 0xFFFFFFFF buf

/-- The locals of `main`; the allocation of `buf` is of `maxlen` bytes. -/
structure Builder where
  buf : Guarded
  maxlen : UInt64
  curLen : UInt32
  fsmark : UInt32
  i : Nat
  input : Bool
  trxVersion : UInt32

/-- `f` is also what has no option letter. -/
inductive FileKind where
  | F
  | A
  | f
deriving DecidableEq

/-- The options with what `fopen`, `fread`, `strtoul`, `strtol` and `realloc` make of them:
no file or no number where they fail, and what the new allocation holds behind the old one. -/
inductive BuildOption where
  | two
  | file (kind : FileKind) (data : Option (List UInt8))
  | o (opened : Bool)
  | m (number : Option UInt64) (fresh : Option (Memory UInt8))
  | a (number : Option UInt64)
  | b (number : Option UInt64)
  | x (number : Option Int64)
  | M (number : Option UInt64)
  | other

def Builder.start (memory : Memory UInt8) : Builder :=
  { buf := Guarded.put ⟨TRX_MAX_LEN.toNat, memory, true⟩ 0 (le32 TRX_MAGIC)
    maxlen := TRX_MAX_LEN
    curLen := 28
    fsmark := 0
    i := 0
    input := false
    trxVersion := 1 }

/-- Zeros up to a new length. -/
def fill (count : Nat) (state : Builder) : Builder :=
  { state with
    buf := state.buf.put state.curLen.toNat (List.replicate count 0)
    curLen := state.curLen + UInt32.ofNat count }

def recordOffset (state : Builder) : Builder :=
  { state with buf := state.buf.put (16 + 4 * state.i) (le32 state.curLen), i := state.i + 1 }

def roundFile (length : Nat) : Nat := if length % 4 ≠ 0 then 4 - length % 4 else 0

/-- The end of the file is found only if more than the file was asked for. -/
def readInput (data : List UInt8) (state : Builder) : Option Builder :=
  if data.length < (state.maxlen - state.curLen.toUInt64).toNat then
    some
      { state with
        buf := (state.buf.put state.curLen.toNat data).put (state.curLen.toNat + data.length)
          (List.replicate (roundFile data.length) 0)
        curLen := state.curLen + UInt32.ofNat (data.length + roundFile data.length)
        input := true }
  else none

def fileOption (kind : FileKind) (data : Option (List UInt8)) (state : Builder) : Option Builder :=
  let state := if kind = .F then { state with fsmark := state.curLen } else state
  let state := if kind = .f then recordOffset state else state
  data.bind fun data => readInput data state

def roundMaxlen (number : UInt64) : UInt64 :=
  if number &&& 0xfff ≠ 0 then number + (0x1000 - (number &&& 0xfff)) else number

def maxlenOption (number : UInt64) (fresh : Option (Memory UInt8)) (state : Builder) : Option Builder :=
  let maxlen := roundMaxlen number
  if maxlen < 0x1000 then none
  else
    fresh.map fun fresh =>
      let old := state.buf
      { state with
        buf :=
          { size := maxlen.toNat
            bytes := fun place => if place < min old.size maxlen.toNat then old.bytes place else fresh place
            inside := old.inside }
        maxlen }

/-- What `-a` adds. -/
def alignCount (number : UInt64) (curLen : UInt32) : Nat :=
  if curLen.toUInt64 &&& (number - 1) ≠ 0 then
    (number - (curLen.toUInt64 &&& (number - 1))).toNat
  else 0

def step (state : Builder) : BuildOption → Option Builder
  | .two =>
      some
        (if state.curLen ≠ 28 then state
        else { state with trxVersion := 2, curLen := state.curLen + 4 })
  | .file kind data => fileOption kind data state
  | .o opened => if opened then some state else none
  | .m number fresh => number.bind fun number => maxlenOption number fresh state
  | .a number => number.map fun number => fill (alignCount number state.curLen) state
  | .b number =>
      number.map fun number =>
        if number < state.curLen.toUInt64 then state
        else fill (number.toNat - state.curLen.toNat) state
  | .x number =>
      number.map fun number =>
        if number < 0 then
          if -number > Int64.ofNat state.curLen.toNat then { state with curLen := 0 }
          else { state with curLen := state.curLen + UInt32.ofInt number.toInt }
        else fill number.toInt.toNat state
  | .M number => number.map fun number => { state with buf := state.buf.put 0 (le32 number.toUInt32) }
  | .other => none

def padCount (curLen : UInt32) : Nat :=
  if curLen &&& 0xfff ≠ 0 then (0x1000 - (curLen &&& 0xfff)).toNat else 0

def load32 (buf : Guarded) (place : Nat) : UInt32 := le32At (load buf.bytes place 4) 0

/-- `p->offsets[3]` -/
def offset3 (buf : Guarded) : UInt32 := load32 buf 28

/-- The checksum is that of the bytes from `flag_version` on. -/
def writeHeader (length : UInt32) (buf : Guarded) : Guarded :=
  let buf := buf.put 8 (le32 (crc32buf (load buf.bytes 12 (length.toUInt64 - 12).toNat)))
  buf.put 4 (le32 length)

/-- The version and the padding to whole pages. -/
def padded (state : Builder) : Builder :=
  fill (padCount state.curLen)
    { state with buf := state.buf.put 12 (le32 (state.trxVersion <<< 16)) }

def headerLength (state : Builder) : UInt32 := if state.fsmark ≠ 0 then state.fsmark else state.curLen

/-- What the checksum is of: in version 2 with the flags of the `binheader` set. -/
def checkedBuf (state : Builder) : Guarded :=
  if state.trxVersion = 2 then
    state.buf.put ((offset3 state.buf).toNat + 22) (List.replicate 8 0xFF)
  else state.buf

/-- What `main` does behind the options; `fwrite` may fail. -/
def finish (written : Bool) (options : Builder) : Option Builder :=
  let state := padded options
  if ¬ state.input then none
  else if state.trxVersion = 2 ∧ state.curLen - offset3 state.buf < 32 then none
  else
    let binheader := load state.buf.bytes (offset3 state.buf).toNat 32
    let buf := writeHeader (headerLength state) (checkedBuf state)
    let buf := if state.trxVersion = 2 then buf.put (offset3 buf).toNat binheader else buf
    if state.curLen ≠ 0 ∧ written then some { state with buf } else none

def Builder.output (state : Builder) : List UInt8 := load state.buf.bytes 0 state.curLen.toNat

/-- A run that exits successfully. -/
def trx (memory : Memory UInt8) (options : List BuildOption) (written : Bool) : Option Builder :=
  (run step (Builder.start memory) options).bind (finish written)

end Rut9xx.Trx
