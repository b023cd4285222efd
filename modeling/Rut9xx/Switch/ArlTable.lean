import Rut9xx.Data.BitField
import Rut9xx.Data.HexText
import Rut9xx.Data.Lines
import Mathlib.Data.List.Dedup
import Mathlib.Algebra.Group.Nat.Defs

namespace Rut9xx.Switch.ArlTable

open Data

/-! # The address resolution table -/

/-- `AR8XXX_NUM_ARL_RECORDS` -/
def numArlRecords : Nat := 100

/-- The size of `arl_buf`. -/
def arlBufSize : Nat := numArlRecords * 32 + 256

structure Mac where
  b0 : UInt8
  b1 : UInt8
  b2 : UInt8
  b3 : UInt8
  b4 : UInt8
  b5 : UInt8
  deriving DecidableEq

structure ArlEntry where
  portmap : BitVec 16
  mac : Mac

/-- The three words that are read behind a `GET_NEXT`. -/
structure AtuData where
  val0 : BitVec 32
  val1 : BitVec 32
  val2 : BitVec 32

/-! ## The chips -/

def macByte (shift : Nat) (val : BitVec 32) : UInt8 := UInt8.ofNat (getField shift 8 val.toNat)

/-- `ar8216_get_arl_entry`: no entry where the status is 0. -/
def ar8216GetArlEntry (data : AtuData) : Option ArlEntry :=
  if getField 16 4 data.val2.toNat = 0 then none
  else
    some {
      portmap := BitVec.ofNat 16 (getField 0 6 data.val2.toNat)
      mac := {
        b0 := macByte 16 data.val0
        b1 := macByte 24 data.val0
        b2 := macByte 0 data.val1
        b3 := macByte 8 data.val1
        b4 := macByte 16 data.val1
        b5 := macByte 24 data.val1 } }

/-- `ar8327_get_arl_entry` -/
def ar8327GetArlEntry (data : AtuData) : Option ArlEntry :=
  if getField 0 4 data.val2.toNat = 0 then none
  else
    some {
      portmap := BitVec.ofNat 16 (getField 16 7 data.val1.toNat)
      mac := {
        b0 := macByte 0 data.val0
        b1 := macByte 8 data.val0
        b2 := macByte 16 data.val0
        b3 := macByte 24 data.val0
        b4 := macByte 0 data.val1
        b5 := macByte 8 data.val1 } }

inductive Chip where
  | ar8216
  | ar8327

def Chip.getArlEntry : Chip → AtuData → Option ArlEntry
  | .ar8216 => ar8216GetArlEntry
  | .ar8327 => ar8327GetArlEntry

/-! ## Collecting -/

/-- The ports that no former entry of the address has, `none` where the next entry is read into the
same record. -/
def ignoreSeen (mac : Mac) : List ArlEntry → BitVec 16 → Option (BitVec 16)
  | [], portmap => some portmap
  | a1 :: rest, portmap =>
      if mac = a1.mac then
        let portmap := portmap &&& ~~~a1.portmap
        if portmap = 0 then none else ignoreSeen mac rest portmap
      else ignoreSeen mac rest portmap

/-- `arl_table`, behind the records that it has already. Behind its content the hardware reports the
status 0. -/
def collect (chip : Chip) (table : List ArlEntry) : List AtuData → List ArlEntry
  | [] => table
  | data :: rest =>
      if numArlRecords ≤ table.length then table
      else
        match chip.getArlEntry data with
        | none => table
        | some a =>
            match ignoreSeen a.mac table a.portmap with
            | none => collect chip table rest
            | some portmap => collect chip (table ++ [{ a with portmap := portmap }]) rest

/-! ## Printing -/

/-- `%d`, of a number that is not negative -/
def printDec (value : Nat) : List UInt8 :=
  if value = 0 then [0x30]
  else (Nat.digits 10 value).reverse.map hexDigit

/-- `%02x` -/
def hex2 (byte : UInt8) : List UInt8 := printHex 2 byte.toNat

def macText (mac : Mac) : List UInt8 :=
  hex2 mac.b5 ++ 0x3a :: (hex2 mac.b4 ++ 0x3a :: (hex2 mac.b3 ++ 0x3a :: (hex2 mac.b2 ++
    0x3a :: (hex2 mac.b1 ++ 0x3a :: hex2 mac.b0))))

def portText (port : Nat) (mac : Mac) : List UInt8 :=
  ascii "Port " ++ printDec port ++ ascii ": MAC " ++ macText mac

def headText : List UInt8 := ascii "address resolution table"

def tooManyText : List UInt8 :=
  ascii "Too many entries found, displaying the first " ++ printDec numArlRecords ++ ascii " only!"

/-- The ports below `dev.ports`, each with the addresses that it has. -/
def printedPairs (ports : Nat) (table : List ArlEntry) : List (Nat × Mac) :=
  (List.range ports).flatMap fun j =>
    table.filterMap fun a => if a.portmap.getLsbD j then some (j, a.mac) else none

def listing (ports : Nat) (table : List ArlEntry) : List (List UInt8) :=
  headText :: ((if table.length = numArlRecords then [tooManyText] else []) ++
    (printedPairs ports table).map fun pair => portText pair.1 pair.2)

/-- `ar8xxx_sw_get_arl_table` -/
def swGetArlTable (chip : Chip) (ports : Nat) (data : List AtuData) : Printed :=
  ((listing ports (collect chip [] data)).map endLine).foldl (snprintf arlBufSize) ⟨[], 0⟩

/-! ## The entries that are collected -/

/-- The entries that are read from the hardware until the table is full, as they are there. -/
def entriesRead (chip : Chip) (table : List ArlEntry) : List AtuData → List ArlEntry
  | [] => []
  | data :: rest =>
      if numArlRecords ≤ table.length then []
      else
        match chip.getArlEntry data with
        | none => []
        | some a =>
            match ignoreSeen a.mac table a.portmap with
            | none => a :: entriesRead chip table rest
            | some portmap => a :: entriesRead chip (table ++ [{ a with portmap := portmap }]) rest

def HasPair (entries : List ArlEntry) (port : Nat) (mac : Mac) : Prop :=
  ∃ a ∈ entries, a.mac = mac ∧ a.portmap.getLsbD port = true

/-- The pairs of a port and an address, each once. -/
def pairs (entries : List ArlEntry) : List (Nat × Mac) := (printedPairs 16 entries).dedup

end Rut9xx.Switch.ArlTable
