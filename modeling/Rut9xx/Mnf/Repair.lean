import Rut9xx.Mnf.Codec
import Rut9xx.Flash.WriteBuff

namespace Rut9xx.Mnf

open Data Flash

/-! # The repair command of the manufacturing block -/

/-- The builds on the SPI flash of the AR7240 family. -/
inductive Board where
  | rut2xx
  | rut9xx
  | rut952
  | trb24xx
  | rut300
  | rut360
  | tcr1xx
  | otd1xx
  deriving DecidableEq, Repr

def deviceModelName : Board → List UInt8
  | .rut2xx => ascii "RUT2"
  | .rut9xx => ascii "RUT9"
  | .rut952 => ascii "RUT952"
  | .trb24xx => ascii "TRB2"
  | .rut300 => ascii "RUT30"
  | .rut360 => ascii "RUT36"
  | .tcr1xx => ascii "TCR1"
  | .otd1xx => ascii "ODT1"

/-- The PIN of the second SIM card, on the boards that have one. -/
def sim2Field : Board → List MnfField
  | .rut9xx | .rut952 => [⟨0x78, 8, .clear, false, false⟩]
  | .trb24xx => [⟨0x80, 4, .clear, false, false⟩]
  | _ => []

/-- `mac`, `name`, `wps`, `sn`, `batch`, `hwver`, `sim1`, `sim2`, `wifi_pass` and `passwd`. -/
def mnfFields (board : Board) : List MnfField :=
  [⟨0x00, 6, .restoreMac, true, false⟩, ⟨0x10, 12, .restoreName, false, false⟩,
    ⟨0x20, 8, .clear, false, false⟩, ⟨0x30, 10, .restoreNum, false, false⟩,
    ⟨0x40, 4, .restoreNum, false, false⟩, ⟨0x50, 4, .restoreNum, false, false⟩] ++
  (if board = .rut2xx then [⟨0x68, 12, .clear, false, true⟩] else [⟨0x70, 8, .clear, false, false⟩]) ++
  sim2Field board ++
  [⟨0x90, 16, .clear, false, false⟩, ⟨0xA0, 106, .clear, false, false⟩]

def configMacVidStr : List UInt8 := ascii "001E42"

def isDigit (c : UInt8) : Bool := 0x30 ≤ c ∧ c ≤ 0x39

/-- Nonzero when a character of the field is no digit; the NUL of a short text is none. -/
def validateNum (field : MnfField) (old : CString) : Bool :=
  (List.range field.length).any fun index => !isDigit (old.at index)

/-! The restore functions: whether the old text is invalid, and the text to put in its place. -/

def restoreMac (rand : Nat) (old : CString) : Bool × List UInt8 :=
  (!decide (configMacVidStr <+: old.text),
    (configMacVidStr ++ printHex 6 (rand &&& 0xffffff)).map toupper)

/-- Every model name is shorter than the field. -/
def restoreName (board : Board) (field : MnfField) (old : CString) : Bool × List UInt8 :=
  (!decide (deviceModelName board <+: old.text),
    deviceModelName board ++ List.replicate (field.length - (deviceModelName board).length) 0x30)

def restoreNum (field : MnfField) (old : CString) : Bool × List UInt8 :=
  (validateNum field old, List.replicate field.length 0x30)

def clear : Bool × List UInt8 := (false, [])

def restoreFunc (board : Board) (rand : Nat) (field : MnfField) (old : CString) :
    Bool × List UInt8 :=
  match field.restoreFunc with
  | .restoreMac => restoreMac rand old
  | .restoreName => restoreName board field old
  | .restoreNum => restoreNum field old
  | .clear => clear

structure MnfCmdFlags where
  confirm : Bool
  force : Bool

def mnfCmdParseFlags : List (List UInt8) → Option MnfCmdFlags
  | [] => some ⟨false, false⟩
  | name :: rest =>
      if name = ascii "CONFIRM" then
        (mnfCmdParseFlags rest).map fun flags => { flags with confirm := true }
      else if name = ascii "FORCE" then
        (mnfCmdParseFlags rest).map fun flags => { flags with force := true }
      else none

/-- What a run of the command meets: its arguments, the answer typed at the prompt, the random
number, and what earlier fields left in the static buffers. -/
structure RepairInput where
  argv : List (List UInt8)
  answer : List UInt8
  rand : Nat
  stale : Memory UInt8

def offsetMnfInfo : Nat := 0x20000
def mnfInfoSize : Nat := 0x10000

/-- `sector_size` of every chip of `spi_nor_ids`. -/
def sectorSize : Nat := 0x10000

def mnfFlashRead (flash : Memory UInt8) (field : MnfField) : List UInt8 :=
  load flash (offsetMnfInfo + field.offset) field.length

/-- The cache of the block. -/
def mnfFlashWriteInit (flash : Memory UInt8) : Memory UInt8 := fun index =>
  flash (offsetMnfInfo + index)

def oldText (input : RepairInput) (flash : Memory UInt8) (field : MnfField) : CString :=
  CString.ofBuffer (mnfFieldToStr field (mnfFlashRead flash field)) input.stale

/-- What a field is overwritten with, if it is. -/
def replacement (board : Board) (input : RepairInput) (flags : MnfCmdFlags) (flash : Memory UInt8)
    (field : MnfField) : Option (List UInt8) :=
  let restored := restoreFunc board input.rand field (oldText input flash field)
  if restored.1 ∨ flags.force then
    (mnfStrToField field (CString.ofBuffer restored.2 input.stale)).bytes
  else none

/-- `mnf_cmd_repair_field`; the default of no field is refused by `mnf_str_to_field`. -/
def mnfCmdRepairField (board : Board) (input : RepairInput) (flags : MnfCmdFlags)
    (flash cache : Memory UInt8) (field : MnfField) : Memory UInt8 :=
  match replacement board input flags flash field with
  | some new => store cache field.offset new
  | none => cache

def flashErase (flash : Memory UInt8) (sector : Nat) : Memory UInt8 := fun address =>
  if sector * sectorSize ≤ address ∧ address < (sector + 1) * sectorSize then 0xff
  else flash address

/-- One sector is erased and the cache written over it. -/
def mnfFlashWriteFinalize (flash cache : Memory UInt8) : Memory UInt8 :=
  programAll (flashErase flash (offsetMnfInfo / sectorSize))
    (writeBuff cache (CFG_FLASH_BASE + 0x20000) 0x10000)

/-- Whether the command succeeds, and the flash it leaves. -/
def doRepair (board : Board) (input : RepairInput) (flash : Memory UInt8) : Bool × Memory UInt8 :=
  match mnfCmdParseFlags input.argv with
  | none => (false, flash)
  | some flags =>
      let cache := (mnfFields board).foldl (mnfCmdRepairField board input flags flash)
        (mnfFlashWriteInit flash)
      if !flags.confirm ∧ input.answer ≠ ascii "yes" then (false, flash)
      else (true, mnfFlashWriteFinalize flash cache)

end Rut9xx.Mnf
