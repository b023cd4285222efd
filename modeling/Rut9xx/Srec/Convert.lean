import Rut9xx.Data.HexText
import Rut9xx.Data.Endian
import Rut9xx.Data.WriteRuns

namespace Rut9xx.Srec

open Data

/-! # `srec2bin`

Messages are left out; writes to the output succeed.
-/

def TAG_BIG : UInt32 := 0xDEADBE42
def TAG_LITTLE : UInt32 := 0xFEEDFA42

/-- The output file and the globals; the file stands at its end between calls. -/
structure Converter where
  fOut : List UInt8
  recStart : Bool
  recLength : UInt32
  checkSum : UInt32
  addressCurrent : UInt32
  s1s2s3Total : UInt32

def binOut32 (data : UInt32) (state : Converter) : Converter :=
  { state with fOut := state.fOut ++ le32 data }

def binOut8 (data : UInt8) (state : Converter) : Converter :=
  { state with fOut := state.fOut ++ [data], recLength := state.recLength + 1 }

def binRecStart (address : UInt32) (state : Converter) : Converter :=
  let state := { state with recLength := 0, checkSum := address, recStart := true }
  binOut32 address (binOut32 state.recLength state)

/-- Bytes written over others in the middle of a file. -/
def patch (file : List UInt8) (pos : Nat) (data : List UInt8) : List UInt8 :=
  file.take pos ++ data ++ file.drop (pos + data.length)

/-- Goes back over data, address and length, writes the length, and at the end the checksum. -/
def binRecEnd (state : Converter) : Converter :=
  if state.recStart then
    let fOut := patch state.fOut (state.fOut.length - state.recLength.toNat - 4 - 4) (le32 state.recLength)
    let checkSum := ~~~(state.checkSum + state.recLength) + 1
    binOut32 checkSum { state with fOut := fOut, recStart := false, checkSum := checkSum }
  else state

def nextRecord (address : UInt32) (state : Converter) : Converter :=
  if address ≠ state.addressCurrent + 1 then binRecStart address (binRecEnd state) else state

def binRecOutProgramStart (address : UInt32) (state : Converter) : Converter :=
  { nextRecord address state with addressCurrent := address }

def binRecOutByte (address : UInt32) (data : UInt8) (state : Converter) : Converter :=
  let state := nextRecord address state
  binOut8 data { state with addressCurrent := address, checkSum := state.checkSum + data.toUInt32 }

/-- `nibs` digits; what is no digit adds nothing. -/
def gh (text : List UInt8) (nibs : Nat) : Nat :=
  (text.take nibs).foldl (fun j c => 16 * j + (hexValue c).getD 0) 0

def sumBytes (text : List UInt8) : Nat → Nat
  | 0 => 0
  | count + 1 => gh text 2 + sumBytes (text.drop 2) count

def checksum (text : List UInt8) (count : Nat) : Bool :=
  text.all (fun c => (hexValue c).isSome) && (count + sumBytes text count) % 256 == 255

def dataLoop (text : List UInt8) (adr : UInt32) : Nat → Converter → Converter
  | 0, state => state
  | count + 1, state =>
      dataLoop (text.drop 2) (adr + 1) count (binRecOutByte adr (UInt8.ofNat (gh text 2)) state)

/-- The types of records from `'0'` on. -/
def srecRecord (ch : UInt8) (text : List UInt8) (count : Nat) (state : Converter) : Bool × Converter :=
  if ch = 0x30 then
    if count < 3 then (false, state) else (gh text 4 == 0, state)
  else if ch = 0x31 ∨ ch = 0x32 ∨ ch = 0x34 ∨ ch = 0x36 ∨ ch = 0x38 ∨ ch = 0x39 then (false, state)
  else if ch = 0x33 then
    if count < 5 then (false, state)
    else
      let state := dataLoop (text.drop 8) (UInt32.ofNat (gh text 8)) (count - 5) state
      (true, { state with s1s2s3Total := state.s1s2s3Total + 1 })
  else if ch = 0x35 then
    if count < 3 then (false, state)
    else (UInt32.ofNat (gh text 4) ||| state.s1s2s3Total == 0, state)
  else if ch = 0x37 then
    if count < 5 then (false, state)
    else if count - 4 ≠ 1 then (false, state)
    else (true, binRecOutProgramStart (UInt32.ofNat (gh text 8)) state)
  else (true, state)

/-- A line of the input: whether it goes on, and the state. -/
def srecLine (line : List UInt8) (state : Converter) : Bool × Converter :=
  match line with
  | s :: ch :: text =>
      if s ≠ 0x53 then (false, state)
      else if text.length + 1 < 4 then (false, state)
      else
        let count := gh text 2
        let text := text.drop 2
        if count * 2 ≠ text.length then (false, state)
        else if checksum text count then srecRecord ch text count state
        else (false, state)
  | _ => (false, state)

/-- A line into a buffer of `len` bytes, and the text behind it; `rlen` counts what was read of it. -/
def readline (len : Nat) (buf : List UInt8) (rlen : Nat) : List UInt8 → Option (List UInt8 × List UInt8)
  | [] => if rlen = 0 then none else some (buf, [])
  | c :: rest =>
      if c = 0x0a then some (buf, rest)
      else if buf.length + 1 < len ∧ c ≠ 0x0d then readline len (buf ++ [c]) (rlen + 1) rest
      else readline len buf (rlen + 1) rest

variable {len rlen : Nat} {buf text rest line : List UInt8} {state : Converter}

theorem readline_le (read : readline len buf rlen text = some (line, rest)) :
    rest.length ≤ text.length := by
  induction text generalizing buf rlen with
  | nil =>
      rw [readline] at read
      split at read <;> cases read
      exact Nat.le_refl _
  | cons c more ih =>
      rw [readline] at read
      split at read
      · cases read
        exact Nat.le_succ _
      · split at read <;> exact Nat.le_succ_of_le (ih read)

/-- What a line is read from loses at least its end. -/
theorem readline_shorter (read : readline len buf 0 text = some (line, rest)) :
    rest.length < text.length := by
  cases text with
  | nil => cases read
  | cons c more =>
      rw [readline] at read
      split at read
      · cases read
        exact Nat.lt_succ_self _
      · split at read <;> exact Nat.lt_succ_of_le (readline_le read)

/-- `sizeof buff` -/
def buffSize : Nat := 256

/-- The loop over the lines, up to the first that is refused; the text of a buffer ends at a zero. -/
def lineLoop (text : List UInt8) (state : Converter) : Converter :=
  match _ : readline buffSize [] 0 text with
  | none => state
  | some (buff, rest) =>
      let line := buff.takeWhile (· ≠ 0)
      if line.length = 0 then lineLoop rest state
      else if (srecLine line state).1 then lineLoop rest (srecLine line state).2
      else (srecLine line state).2
termination_by text.length
decreasing_by
  all_goals exact readline_shorter ‹_›

def tag (bigEndian : Bool) : UInt32 := bif bigEndian then TAG_BIG else TAG_LITTLE

def start (bigEndian : Bool) : Converter :=
  binOut32 (tag bigEndian) ⟨[], false, 0, 0, 0xFFFFFFFF, 0⟩

/-- The output for a text. -/
def srec2bin (bigEndian : Bool) (text : List UInt8) : List UInt8 :=
  (binRecEnd (lineLoop text (start bigEndian))).fOut

end Rut9xx.Srec
