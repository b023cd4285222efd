import Rut9xx.Data.HexText
import Rut9xx.Data.Partial
import Mathlib.Data.List.SplitOn
import Mathlib.Data.UInt

namespace Rut9xx.Mylo

open Data

/-! # The options of `mkmylofw`

Messages are left out.
-/

def MAX_FW_BLOCKS : Nat := 32
def MAX_ARG_COUNT : Nat := 32
def MAX_ARG_LEN : Nat := 1024
def PART_NAME_LEN : Nat := 32
def MYLO_MAX_PARTITIONS : Nat := 8
def BLOCK_FLAG_HAVEHDR : UInt32 := 0x0001
def PARTITION_FLAG_ACTIVE : UInt16 := 0x8000
def PARTITION_FLAG_PRELOAD : UInt16 := 0x0800
def PARTITION_FLAG_LZMA : UInt16 := 0x0100
def PARTITION_FLAG_HAVEHDR : UInt16 := 0x0002
def VENID_COMPEX : UInt16 := 0x11F6
def DEVID_COMPEX_WP54G : UInt16 := 0x0515

structure FwBlock where
  addr : UInt32
  blocklen : UInt32
  flags : UInt32
  name : Option (List UInt8)
  size : UInt32

structure MyloPartition where
  flags : UInt16
  addr : UInt32
  size : UInt32
  param : UInt32

structure FwPart where
  mylo : MyloPartition
  name : List UInt8

structure CpxBoard where
  model : String
  vid : UInt16
  did : UInt16
  svid : UInt16
  sdid : UInt16
  flashSize : UInt32
  partOffset : UInt32
  partSize : UInt32

def CPX_BOARD (did : UInt16) (flash : UInt32) (model : String) (partOffset partSize : UInt32) : CpxBoard :=
  { model, vid := VENID_COMPEX, did, svid := VENID_COMPEX, sdid := did, flashSize := flash <<< 20,
    partOffset, partSize }

def CPX_BOARD_ADM (did : UInt16) (flash : UInt32) (model : String) : CpxBoard :=
  CPX_BOARD did flash model 0x10000 0x10000

def CPX_BOARD_AR71XX (did : UInt16) (flash : UInt32) (model : String) : CpxBoard :=
  CPX_BOARD did flash model 0x20000 0x8000

def CPX_BOARD_AR23XX (did : UInt16) (flash : UInt32) (model : String) : CpxBoard :=
  CPX_BOARD did flash model 0x10000 0x10000

def boards : List CpxBoard :=
  [ CPX_BOARD_ADM 0x0489 4 "NP18A", CPX_BOARD_ADM 0x03E8 2 "NP26G8M",
    CPX_BOARD_ADM 0x03E9 4 "NP26G16M", CPX_BOARD_ADM 0x0078 4 "NP27G",
    CPX_BOARD_ADM 0x044C 4 "NP28G", CPX_BOARD_ADM 0x044E 4 "NP28GHS",
    CPX_BOARD_ADM 0x047E 4 "WP18", CPX_BOARD_ADM DEVID_COMPEX_WP54G 4 "WP54G",
    CPX_BOARD_ADM 0x0514 2 "WP54Gv1C", CPX_BOARD_ADM 0x0546 4 "WP54AG",
    CPX_BOARD_ADM 0x0555 4 "WPP54G", CPX_BOARD_ADM 0x0550 4 "WPP54AG",
    CPX_BOARD_AR71XX 0x0640 2 "WP543", CPX_BOARD_AR71XX 0x0672 8 "WPE72",
    CPX_BOARD_AR23XX 0x05e6 4 "NP25G", CPX_BOARD_AR23XX 0x05dc 4 "WPE53G" ]

/-- ASCII letters in lower case, as `strcasecmp` compares them. -/
def lower (c : UInt8) : UInt8 := if 0x41 ≤ c ∧ c ≤ 0x5a then c + 0x20 else c

def findBoard (model : List UInt8) : Option CpxBoard :=
  boards.find? fun board => (ascii board.model).map lower = model.map lower

structure FwHeader where
  crc : UInt32
  vid : UInt16
  did : UInt16
  svid : UInt16
  sdid : UInt16
  rev : UInt32
  fwhi : UInt32
  fwlo : UInt32
  flags : UInt32

/-- The globals. -/
structure Firmware where
  fwHeader : FwHeader
  flashSize : UInt32
  fwParts : List FwPart
  fwBlocks : List FwBlock
  board : Option CpxBoard

def Firmware.start : Firmware :=
  { fwHeader :=
      { crc := 0, vid := VENID_COMPEX, did := DEVID_COMPEX_WP54G, svid := VENID_COMPEX,
        sdid := DEVID_COMPEX_WP54G, rev := 0, fwhi := 0x20000, fwlo := 0x20000, flags := 0 }
    flashSize := 0, fwParts := [], fwBlocks := [], board := none }

/-- An array of pointers to texts; `none` is NULL. -/
abbrev Argv := Nat → Option (List UInt8)

/-- An option with its argument.  `stale` is what the array of arguments holds before it is filled,
`strdup` whether there is memory for the name of a file. -/
inductive MyloOption where
  | b (arg : List UInt8) (stale : Argv) (strdup : Bool)
  | B (arg : List UInt8)
  | f (arg : List UInt8)
  | i (arg : List UInt8) (stale : Argv)
  | p (arg : List UInt8) (stale : Argv) (strdup : Bool)
  | r (arg : List UInt8)
  | s (arg : List UInt8)
  | v
  | other

/-! ## Arguments

`strtoul` gives no number where it sets `errno` or does not read all of the text. -/

section

variable (strtoul : List UInt8 → Option UInt64)

def str2u32 (arg : List UInt8) : Option UInt32 := (strtoul arg).map UInt64.toUInt32

def str2u16 (arg : List UInt8) : Option UInt16 :=
  (str2u32 strtoul arg).bind fun t => if t ≥ 0x10000 then none else some t.toUInt16

/-- The count of the arguments, and the array of them. -/
def parseArg (arg : List UInt8) (stale : Argv) : Nat × Argv :=
  if arg = [] then (0, stale)
  else
    let tokens := ((arg.take (MAX_ARG_LEN - 1)).splitOn 0x3a).take MAX_ARG_COUNT
    (tokens.length, fun index => tokens[index]?)

/-- `*arg == '-'` -/
def requiredArg (arg : List UInt8) : Bool := arg.head? != some 0x2d

/-- An argument unless it is empty. -/
def argText (argv : Argv) (index : Nat) : Option (List UInt8) := (argv index).filter (· ≠ [])

/-- An argument that has a default. -/
def argOr {α : Type} (parse : List UInt8 → Option α) (default : α) : Option (List UInt8) → Option α
  | none => some default
  | some text => parse text

/-- The flags of a text, letter by letter. -/
def parseFlags {Flags : Type} [OrOp Flags] (letter : UInt8 → Option Flags) (flags : Flags)
    (text : Option (List UInt8)) : Option Flags :=
  (text.getD []).foldlM (fun flags c => (letter c).map (flags ||| ·)) flags

def blockFlag (c : UInt8) : Option UInt32 := if c = 0x68 then some BLOCK_FLAG_HAVEHDR else none

def partitionFlag (c : UInt8) : Option UInt16 :=
  if c = 0x61 then some PARTITION_FLAG_ACTIVE
  else if c = 0x70 then some PARTITION_FLAG_PRELOAD
  else if c = 0x6c then some PARTITION_FLAG_LZMA
  else if c = 0x68 then some PARTITION_FLAG_HAVEHDR
  else none

def parseOptBlock (arg : List UInt8) (stale : Argv) (strdup : Bool) (fw : Firmware) : Option Firmware := do
  require (requiredArg arg)
  require (fw.fwBlocks.length < MAX_FW_BLOCKS)
  let (argc, argv) := parseArg arg stale
  let addr ← (argText argv 0).bind (str2u32 strtoul)
  let blocklen ← (argText argv 1).bind (str2u32 strtoul)
  if argc < 3 then
    some { fw with fwBlocks := fw.fwBlocks ++ [⟨addr, blocklen, 0, none, 0⟩] }
  else
    let flags ← parseFlags blockFlag 0 (argText argv 2)
    let name ← argText argv 3
    require strdup
    some { fw with fwBlocks := fw.fwBlocks ++ [⟨addr, blocklen, flags, some name, 0⟩] }

/-- `strncpy` into the name of a partition. -/
def partName (text : Option (List UInt8)) : List UInt8 :=
  ((text.getD []) ++ List.replicate PART_NAME_LEN 0).take PART_NAME_LEN

/-- A file is not looked for where there is no memory for its name. -/
def parseOptPartition (arg : List UInt8) (stale : Argv) (strdup : Bool) (fw : Firmware) :
    Option Firmware := do
  require (requiredArg arg)
  require (fw.fwParts.length < MYLO_MAX_PARTITIONS)
  let (_, argv) := parseArg arg stale
  let addr ← (argText argv 0).bind (str2u32 strtoul)
  let size ← (argText argv 1).bind (str2u32 strtoul)
  let flags ← parseFlags partitionFlag 0 (argText argv 2)
  let param ← argOr (str2u32 strtoul) 0 (argText argv 3)
  let size := if size = 0 then fw.flashSize - addr else size
  let fw :=
    { fw with fwParts := fw.fwParts ++ [⟨⟨flags, addr, size, param⟩, partName (argText argv 4)⟩] }
  match argText argv 5 with
  | none => some fw
  | some name =>
    require (fw.fwBlocks.length ≠ MAX_FW_BLOCKS)
    let name := if strdup then some name else none
    let flags := if flags &&& PARTITION_FLAG_HAVEHDR ≠ 0 then BLOCK_FLAG_HAVEHDR else 0
    some { fw with fwBlocks := fw.fwBlocks ++ [⟨addr, size, flags, name, 0⟩] }

def parseOptFlags (arg : List UInt8) (fw : Firmware) : Option Firmware := do
  require (requiredArg arg)
  let flags ← str2u32 strtoul arg
  some { fw with fwHeader := { fw.fwHeader with flags } }

def parseOptSize (arg : List UInt8) (fw : Firmware) : Option Firmware := do
  require (requiredArg arg)
  let flashSize ← str2u32 strtoul arg
  some { fw with flashSize }

def parseOptRev (arg : List UInt8) (fw : Firmware) : Option Firmware := do
  require (requiredArg arg)
  let rev ← str2u32 strtoul arg
  some { fw with fwHeader := { fw.fwHeader with rev } }

/-- The revision is read from the whole argument. -/
def parseOptId (arg : List UInt8) (stale : Argv) (fw : Firmware) : Option Firmware := do
  require (requiredArg arg)
  let (_, argv) := parseArg arg stale
  let vid ← (argText argv 0).bind (str2u16 strtoul)
  let did ← (argText argv 1).bind (str2u16 strtoul)
  let svid ← argOr (str2u16 strtoul) vid (argText argv 2)
  let sdid ← argOr (str2u16 strtoul) did (argText argv 3)
  let rev ← argOr (fun _ => str2u32 strtoul arg) 0 (argText argv 4)
  some { fw with fwHeader := { fw.fwHeader with vid, did, svid, sdid, rev } }

def parseOptBoard (arg : List UInt8) (fw : Firmware) : Option Firmware := do
  require (requiredArg arg)
  let board ← findBoard arg
  some
    { fw with
      fwHeader :=
        { fw.fwHeader with vid := board.vid, did := board.did, svid := board.svid, sdid := board.sdid }
      flashSize := board.flashSize
      board := some board }

/-- A round of the option loop.  `other` is what `getopt` does not know, and `-h`, which exits. -/
def parseOption (fw : Firmware) : MyloOption → Option Firmware
  | .b arg stale strdup => parseOptBlock strtoul arg stale strdup fw
  | .B arg => parseOptBoard arg fw
  | .f arg => parseOptFlags strtoul arg fw
  | .i arg stale => parseOptId strtoul arg stale fw
  | .p arg stale strdup => parseOptPartition strtoul arg stale strdup fw
  | .r arg => parseOptRev strtoul arg fw
  | .s arg => parseOptSize strtoul arg fw
  | .v => some fw
  | .other => none

end

end Rut9xx.Mylo
