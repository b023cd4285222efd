import Rut9xx.Data.Endian
import Rut9xx.Data.Partial
import Rut9xx.Data.PlaceMask
import Rut9xx.Tplink.Builder

namespace Rut9xx.Senao

open Data
open Tplink (Md5Sum)

/-! # `mksenaofw`: encoding and decoding an image

Files can be opened, read and written, and allocations succeed.
-/

def HDR_LEN : Nat := 0x60
def BUF_SIZE : Nat := 0x200
def VERSION_SIZE : Nat := 0x10
def PAD_SIZE : Nat := 0x20

def DEFAULT_BLOCK_SIZE : Int32 := 65535
def DEFAULT_HEAD_VALUE : UInt32 := 0
def DEFAULT_VERSION : List UInt8 := [0x31, 0x32, 0x33]
def DEFAULT_MAGIC : UInt32 := 0x12345678

def MOD_DEFAULT : UInt32 := 0x616C6C00
def SKU_DEFAULT : UInt32 := 0
def DATECODE_NONE : UInt32 := 0xFFFFFFFF
def FIRMWARE_TYPE_NONE : UInt32 := 0xFF

/-- The ids of `FIRMWARE_TYPES`. -/
def firmwareTypes : List UInt32 := [0, 1, 2, 3, 4, 5, 6, 7, 8, 9, 0xa, 0xb, 0xc]

abbrev Version := { text : List UInt8 // text.length = VERSION_SIZE }

structure ImgHeader where
  head : UInt32
  vendorId : UInt32
  productId : UInt32
  version : Version
  firmwareType : UInt32
  filesize : UInt32
  md5sum : Md5Sum
  chksum : UInt32
  magic : UInt32

def ImgHeader.bytes (header : ImgHeader) : List UInt8 :=
  be32 header.head ++ (be32 header.vendorId ++ (be32 header.productId ++ (header.version.val ++
    (be32 header.firmwareType ++ (be32 header.filesize ++ (be32 0 ++ (header.md5sum.val ++
      (List.replicate PAD_SIZE 0 ++ (be32 header.chksum ++ be32 header.magic)))))))))

/-- `sizeof(struct capwap_header)`, without the model's name. -/
def capwapHeaderSize : Nat := 40

structure CapwapHeader where
  mod : UInt32
  sku : UInt32
  firmwareVer : Fin 3 → UInt32
  datecode : UInt32
  capwapVer : Fin 3 → UInt32
  modelSize : UInt32
  model : List UInt8
  sized : model.length = modelSize.toNat

def CapwapHeader.bytes (header : CapwapHeader) : List UInt8 :=
  be32 header.mod ++ (be32 header.sku ++
    (be32 (header.firmwareVer 0) ++ (be32 (header.firmwareVer 1) ++ (be32 (header.firmwareVer 2) ++
      (be32 header.datecode ++
        (be32 (header.capwapVer 0) ++ (be32 (header.capwapVer 1) ++ (be32 (header.capwapVer 2) ++
          (be32 header.modelSize ++ header.model)))))))))

/-- The words may stand in either order: only their bytes are added. -/
def headerChecksum (data : List UInt8) : UInt32 := UInt32.ofNat (data.map UInt8.toNat).sum

def maskByte (magic : UInt32) (i : Nat) : UInt8 := (magic >>> UInt32.ofNat (i % 8) &&& 0xff).toUInt8

/-- What goes into `buf`: nothing is read any more behind the end of the file. -/
def nextRead (rest : List UInt8) (eof : Bool) : List UInt8 := bif eof then [] else rest.take BUF_SIZE

@[simp] theorem nextRead_eof (rest : List UInt8) : nextRead rest true = [] := rfl

@[simp] theorem nextRead_more (rest : List UInt8) : nextRead rest false = rest.take BUF_SIZE := rfl

/-- `rest` is what is still to be read; `eof` is set by a read that comes up short. -/
def encodeLoop (magic : UInt32) (rest : List UInt8) (eof : Bool) (padLen : Nat) : List UInt8 :=
  if eof = true ∧ padLen = 0 then []
  else
    let read := nextRead rest eof
    let added := min (BUF_SIZE - read.length) padLen
    masked (maskByte magic) (read ++ List.replicate added 0) ++
      encodeLoop magic (rest.drop BUF_SIZE) (eof || decide (read.length < BUF_SIZE)) (padLen - added)
termination_by rest.length + padLen + (!eof).toNat
decreasing_by
  rename_i going
  cases eof with
  | true =>
      simp only [true_and] at going
      simp only [BUF_SIZE, List.length_drop, nextRead_eof, List.length_nil, Bool.true_or, Bool.not_true]
      omega
  | false =>
      simp only [Bool.false_or, Bool.not_false, Bool.toNat_true, nextRead_more, List.length_drop,
        List.length_take, BUF_SIZE]
      rcases Nat.lt_or_ge rest.length 0x200 with short | long
      · rw [decide_eq_true (by omega), Bool.not_true, Bool.toNat_false]
        omega
      · have := Bool.toNat_le (!decide (min 0x200 rest.length < 0x200))
        omega

/-- Zero padding up to the block size; a file that ends with a block gets a whole block more. -/
def padLen (blockSize : Int32) (filesize : UInt32) : Nat :=
  if 0 < blockSize then blockSize.toInt.toNat - filesize.toNat % blockSize.toInt.toNat else 0

def encodeImage (md5 : List UInt8 → Md5Sum) (input : List UInt8) (header : ImgHeader)
    (cwHeader : Option CapwapHeader) (blockSize : Int32) : Option (List UInt8) :=
  let filesize := UInt32.ofNat input.length
  if filesize = 0 then none
  else
    let header := { header with filesize := filesize, md5sum := md5 input, chksum := 0 }
    let cw := (cwHeader.map CapwapHeader.bytes).getD []
    let header := { header with chksum := headerChecksum header.bytes + headerChecksum cw }
    some (header.bytes ++ (cw ++ encodeLoop header.magic input false (padLen blockSize filesize)))

/-- What the options of the tool come to; of those that can be given again the last one counts. -/
structure Options where
  /-- The operands of `-t` in their order. -/
  types : List Int32
  version : List UInt8
  vendorId : UInt32
  productId : UInt32
  magic : UInt32
  pad : Bool
  blockSize : Int32
  datecode : UInt32
  firmwareVer : Fin 3 → UInt32
  capwapVer : Fin 3 → UInt32
  modName : Option (List UInt8)

def Options.padding (opts : Options) : Int32 := if opts.pad then opts.blockSize else 0

/-- `-t`: an operand that is not in the table leaves the type as it is. -/
def setType (current : UInt32) (tmp : Int32) : Option UInt32 :=
  let type := (firmwareTypes.find? fun id => id.toNat = tmp.toInt).getD current
  if type = FIRMWARE_TYPE_NONE then none else some type

def firmwareType (opts : Options) : Option UInt32 := opts.types.foldlM setType FIRMWARE_TYPE_NONE

/-- `strncpy` of at most `VERSION_SIZE - 1` characters. -/
def versionField (text : List UInt8) : Version :=
  ⟨text.take (VERSION_SIZE - 1) ++ List.replicate (VERSION_SIZE - (text.take (VERSION_SIZE - 1)).length) 0,
    by
      rw [List.length_append, List.length_replicate, List.length_take]
      omega⟩

def capwapHeader (opts : Options) (modName : List UInt8) : CapwapHeader where
  mod := MOD_DEFAULT
  sku := SKU_DEFAULT
  firmwareVer := opts.firmwareVer
  datecode := opts.datecode
  capwapVer := opts.capwapVer
  modelSize := UInt32.ofNat modName.length
  model := modName.take (UInt32.ofNat modName.length).toNat
  sized := by
    rw [List.length_take, UInt32.toNat_ofNat']
    exact Nat.min_eq_left (Nat.mod_le _ _)

/-- `pcw_header`; no result if a header is asked for without a model's name. -/
def cwHeader (opts : Options) : Option (Option CapwapHeader) :=
  if opts.datecode = DATECODE_NONE then some none
  else opts.modName.map fun modName => some (capwapHeader opts modName)

/-- `main` with `-e`: the image, if the tool exits successfully. -/
def encodeMain (md5 : List UInt8 → Md5Sum) (opts : Options) (input : List UInt8) :
    Option (List UInt8) := do
  let type ← firmwareType opts
  require (!(type == 0 && opts.datecode == DATECODE_NONE))
  require (!(opts.vendorId == 0 || opts.productId == 0))
  let cw ← cwHeader opts
  let header : ImgHeader :=
    { head := DEFAULT_HEAD_VALUE
      vendorId := opts.vendorId
      productId := opts.productId
      version := versionField opts.version
      firmwareType := type
      filesize := 0
      md5sum := ⟨List.replicate Tplink.MD5SUM_LEN 0, List.length_replicate⟩
      chksum := 0
      magic := opts.magic }
  encodeImage md5 input header cw opts.padding

def decodeLoop (magic filesize : UInt32) (rest : List UInt8) (written : Nat) : List UInt8 :=
  let read := masked (maskByte magic) (rest.take BUF_SIZE)
  if filesize.toNat < written + read.length then read.take (filesize.toNat - written)
  else if rest.length < BUF_SIZE then read
  else read ++ decodeLoop magic filesize (rest.drop BUF_SIZE) (written + read.length)
termination_by rest.length
decreasing_by
  simp only [BUF_SIZE, List.length_drop] at *
  omega

/-- What `decode_image` leaves to be decoded behind the headers: no result where they end early, nor
where the name's length and its terminating zero wrap. -/
def behindHeaders (file : List UInt8) : Option (List UInt8) := do
  require (HDR_LEN ≤ file.length)
  let rest := file.drop HDR_LEN
  if be32At file 28 ≠ 0 then some rest
  else
    require (capwapHeaderSize ≤ rest.length)
    let modelSize := be32At rest 36
    require (modelSize + 1 != 0)
    require (capwapHeaderSize + modelSize.toNat ≤ rest.length)
    some (rest.drop (capwapHeaderSize + modelSize.toNat))

/-- The magic that `decode_image` finds, and what it writes. -/
def decodeImage (file : List UInt8) : Option (UInt32 × List UInt8) := do
  let rest ← behindHeaders file
  let magic := be32At file 92
  some (magic, decodeLoop magic (be32At file 32) rest 0)

end Rut9xx.Senao
