import Rut9xx.Data.Memory
import Rut9xx.Data.Endian
import Rut9xx.Tplink.Builder

namespace Rut9xx.Poray

open Data
open Tplink (FileArg statFile fileSize strcasecmpEq)

/-! # `mkporayfw`: building and inspecting an image

Allocations are taken to succeed, and so are reads and writes of files that can be opened.
-/

def HEADER_FLAGS : UInt32 := 0x020e0000

/-- `sizeof(struct fw_header)`. -/
def fwHeaderSize : Nat := 28

def KEY_LEN : Nat := 15

def keys : List (List UInt8) :=
  [[0xc8, 0x3c, 0x3a, 0x93, 0xa2, 0x95, 0xc3, 0x63, 0x48, 0x45, 0x58, 0x09, 0x12, 0x03, 0x08],
   [0x89, 0x6b, 0x5a, 0x93, 0x92, 0x95, 0xc3, 0x63, 0xd0, 0xa3, 0x9c, 0x92, 0x2e, 0xe6, 0xc7],
   [0xc9, 0x1c, 0x3a, 0x93, 0x92, 0x95, 0xc3, 0x63, 0xd0, 0xa3, 0x9c, 0x92, 0x2e, 0xe6, 0xc7],
   [0x19, 0x1b, 0x3a, 0x93, 0x92, 0x95, 0xc3, 0x63, 0xd0, 0xa3, 0x9c, 0x92, 0x2e, 0xe6, 0xc7],
   [0x79, 0x7b, 0x7a, 0x93, 0x92, 0x95, 0xc3, 0x63, 0xd0, 0xa3, 0x9c, 0x92, 0x2e, 0xe6, 0xc7],
   [0x19, 0x1c, 0x4a, 0x93, 0x96, 0x95, 0xc3, 0x63, 0xd0, 0xa3, 0x9c, 0x92, 0x2e, 0x16, 0xc6],
   [0x39, 0x1c, 0x4a, 0x93, 0x96, 0x95, 0xc3, 0x63, 0xd0, 0xa3, 0x9c, 0x92, 0x2e, 0x16, 0xc6],
   [0xc8, 0x3c, 0x3a, 0x93, 0xa2, 0x95, 0xc3, 0x63, 0x48, 0x45, 0x58, 0x09, 0x20, 0x11, 0x08]]

structure FlashLayout where
  id : List Char
  fwMaxLen : UInt32
  deriving DecidableEq, Repr

def layouts : List FlashLayout := [⟨['4', 'M'], 0x3c0000⟩, ⟨['8', 'M'], 0x7c0000⟩]

structure BoardInfo where
  id : List Char
  hwId : UInt32
  layoutId : List Char
  key : Nat
  deriving DecidableEq, Repr

def boards : List BoardInfo :=
  [⟨['A', '5', '-', 'V', '1', '1'], 0x32473352, ['4', 'M'], 7⟩,
   ⟨['M', 'P', 'R', '-', 'A', '1'], 0x32473352, ['4', 'M'], 0⟩,
   ⟨['M', 'P', 'R', '-', 'L', '8'], 0x32473352, ['4', 'M'], 0⟩,
   ⟨['R', '5', '0', 'B'], 0x31353033, ['4', 'M'], 2⟩,
   ⟨['R', '5', '0', 'D'], 0x33353033, ['4', 'M'], 3⟩,
   ⟨['R', '5', '0', 'E'], 0x34353033, ['4', 'M'], 4⟩,
   ⟨['M', '3'], 0x31353335, ['4', 'M'], 1⟩,
   ⟨['M', '4'], 0x32353335, ['4', 'M'], 1⟩,
   ⟨['Q', '3'], 0x33353335, ['4', 'M'], 1⟩,
   ⟨['X', '5', ' ', 'o', 'r', ' ', 'X', '6'], 0x35353335, ['8', 'M'], 1⟩,
   ⟨['X', '5'], 0x35353335, ['8', 'M'], 1⟩,
   ⟨['X', '6'], 0x35353335, ['8', 'M'], 1⟩,
   ⟨['X', '8'], 0x36353335, ['8', 'M'], 1⟩,
   ⟨['X', '1'], 0x38353335, ['8', 'M'], 1⟩,
   ⟨['W', 'T', '1', '5', '2', '0'], 0x30353332, ['4', 'M'], 5⟩,
   ⟨['W', 'T', '1', '5', '2', '0'], 0x30353332, ['8', 'M'], 5⟩,
   ⟨['W', 'T', '3', '0', '2', '0'], 0x30323033, ['4', 'M'], 6⟩,
   ⟨['W', 'T', '3', '0', '2', '0'], 0x30323033, ['8', 'M'], 6⟩]

def findBoard (id : List Char) : Option BoardInfo :=
  boards.find? fun board => strcasecmpEq id board.id

def findBoardByHwid (hwId : UInt32) : Option BoardInfo :=
  boards.find? fun board => hwId = board.hwId

def findLayout (id : List Char) : Option FlashLayout :=
  layouts.find? fun layout => strcasecmpEq id layout.id

structure Options where
  firmware : FileArg
  boardId : Option (List Char)
  hwId : Option UInt32
  layoutId : Option (List Char)
  ofname : Bool

/-- The globals that `check_options` settles; `firmware` is what `read_to_buf` reads. -/
structure Plan where
  board : Option BoardInfo
  hwId : UInt32
  layout : FlashLayout
  firmware : List UInt8
  firmwareLen : UInt32

/-- `board`, `layout_id` and `hw_id`; no result where a null pointer is followed. -/
def settleBoard (opts : Options) : Option (Option BoardInfo × List Char × UInt32) :=
  match opts.boardId with
  | some id => (findBoard id).map fun board =>
      (some board, opts.layoutId.getD board.layoutId, board.hwId)
  | none => opts.hwId.bind fun hwId =>
      (opts.layoutId.or ((findBoardByHwid hwId).map BoardInfo.layoutId)).map fun layoutId =>
        (findBoardByHwid hwId, layoutId, hwId)

/-- `check_options` when an image is to be built. -/
def checkOptions (opts : Options) : Option Plan := do
  let firmware ← statFile opts.firmware
  let (board, layoutId, hwId) ← settleBoard opts
  let layout ← findLayout layoutId
  require (firmware.length ≤ layout.fwMaxLen.toNat - fwHeaderSize)
  require opts.ofname
  some ⟨board, hwId, layout, firmware, UInt32.ofNat firmware.length⟩

def fillHeader (hwId firmwareLen : UInt32) : List UInt8 :=
  le32 hwId ++ le32 firmwareLen ++ le32 HEADER_FLAGS ++ List.replicate 16 0

def checksumLoop : List UInt8 → Int32 → Int32
  | low :: high :: rest, checksum =>
      checksumLoop rest (checksum + ((Int32.ofNat high.toNat <<< 8) ||| Int32.ofNat low.toNat))
  | [last], checksum => checksum + Int32.ofNat last.toNat
  | [], checksum => checksum

def checksumFw (data : List UInt8) : UInt16 :=
  let checksum := checksumLoop data 0
  let checksum := checksum + (checksum >>> 16) + 0xffff
  UInt16.ofNat (~~~(checksum + (checksum >>> 16)) &&& 0xffff).toUInt32.toNat

/-- A word in an `int`. -/
def asInt (word : UInt32) : Int := if word.toNat < 2 ^ 31 then word.toNat else word.toNat - 2 ^ 32

def keyByte (key i : Nat) : UInt8 := (keys.getD key []).getD (i % KEY_LEN) 0

/-- `xor_fw`, whose loop goes up to `i <= len`. -/
def xorFw (board : BoardInfo) (data : Nat) (len : Int) (buf : Guarded) : Guarded :=
  buf.alterBytes (fun i byte => byte ^^^ keyByte board.key i) data (len + 1).toNat 0

/-- `build_fw` with the bytes that go to the file; `heap` is what stands around the buffer.  No
result where `board` is a null pointer. -/
def buildFw (heap : Memory UInt8) (plan : Plan) : Option (List UInt8 × Guarded) := do
  let buflen := plan.layout.fwMaxLen.toNat
  let firmwareLen := plan.firmwareLen.toNat
  let buf : Guarded := ⟨buflen, heap, true⟩
  let buf := buf.put 0 (List.replicate buflen 0xff)
  let buf := buf.put fwHeaderSize plan.firmware
  let writelen := fwHeaderSize + firmwareLen + 2
  let buf := buf.put 0 (fillHeader plan.hwId plan.firmwareLen)
  let checksum := checksumFw (load buf.bytes fwHeaderSize firmwareLen)
  let buf := buf.put (writelen - 1) [(checksum >>> 8).toUInt8]
  let buf := buf.put (writelen - 2) [checksum.toUInt8]
  let board ← plan.board
  let buf := xorFw board fwHeaderSize (firmwareLen + 2) buf
  some (load buf.bytes 0 writelen, buf.touch 0 writelen)

/-- What an inspection with `-x` comes to. -/
structure Inspection where
  inside : Bool
  checksumsMatch : Bool
  extracted : Option (List UInt8)

/-- `inspect_fw` with its buffer of the size of the file. -/
def inspectFw (heap : Memory UInt8) (file : List UInt8) : Option Inspection := do
  let size := fileSize file
  let buf : Guarded := ⟨size.toNat, heap, true⟩
  let buf := buf.put 0 (file.take size.toNat)
  let buf := buf.touch 0 fwHeaderSize
  let hdr := load buf.bytes 0 fwHeaderSize
  let board ← findBoardByHwid (le32At hdr 0)
  let firmwareLen := le32At hdr 4
  let buf := xorFw board fwHeaderSize (asInt (firmwareLen + 2)) buf
  let data := load buf.bytes fwHeaderSize (asInt firmwareLen).toNat
  let buf := buf.touch fwHeaderSize (asInt firmwareLen).toNat
  let computed := checksumFw data
  let high := buf.bytes (size - 1).toNat
  let low := buf.bytes (size - 2).toNat
  let buf := (buf.touch (size - 1).toNat 1).touch (size - 2).toNat 1
  let checksumsMatch := computed = (high.toUInt16 <<< 8) ||| low.toUInt16
  if checksumsMatch then
    let buf := buf.touch fwHeaderSize firmwareLen.toNat
    some ⟨buf.inside, true, some (load buf.bytes fwHeaderSize firmwareLen.toNat)⟩
  else some ⟨buf.inside, false, none⟩

end Rut9xx.Poray
