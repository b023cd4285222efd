import Rut9xx.Data.Extents

namespace Rut9xx.Boot

open Rut9xx.Data

/-! # The `bootm` and `iminfo` commands of the verified-boot U-Boot build

The board is big-endian, so `ntohl` and `htonl` are the identity on words read
from memory.  RAM and memory-mapped flash are one byte map over the 32-bit
address space.  Console output is not modelled.
-/

abbrev Memory := UInt32 → UInt8

def Memory.word (memory : Memory) (address : UInt32) : UInt32 :=
  (memory address).toUInt32 <<< 24 ||| (memory (address + 1)).toUInt32 <<< 16 |||
    (memory (address + 2)).toUInt32 <<< 8 ||| (memory (address + 3)).toUInt32

def Memory.bytes (memory : Memory) (address : UInt32) (count : Nat) : List UInt8 :=
  (List.range count).map fun index => memory (address + UInt32.ofNat index)

/-! ## Image headers -/

def IH_MAGIC : UInt32 := 0x27051956
def TPL_IH_VERSION_V1 : UInt32 := 0x01000000
def TPL_IH_VERSION_V2 : UInt32 := 0x02000000

def IH_OS_LINUX : UInt8 := 5
def IH_CPU_MIPS : UInt8 := 5
def IH_TYPE_KERNEL : UInt8 := 2
def IH_TYPE_MULTI : UInt8 := 4
def IH_COMP_LZMA : UInt8 := 3

def imageHeaderSize : UInt32 := 64
def tplinkImageHeaderSize : UInt32 := 512

/-- Eight times `SHA256_DIGEST_SIZE`: the length of an RSA-2048 signature. -/
def SHA256_NUMBYTES : UInt32 := 32 * 8

structure ImageHeader where
  ihMagic : UInt32
  ihHcrc : UInt32
  ihTime : UInt32
  ihSize : UInt32
  ihLoad : UInt32
  ihEp : UInt32
  ihDcrc : UInt32
  ihOs : UInt8
  ihArch : UInt8
  ihType : UInt8
  ihComp : UInt8
  ihName : List UInt8
  deriving DecidableEq, Repr

/-- What `memset(hdr, 0, sizeof(image_header_t))` leaves; also the initial `header`. -/
def ImageHeader.zero : ImageHeader :=
  ⟨0, 0, 0, 0, 0, 0, 0, 0, 0, 0, 0, List.replicate 32 0⟩

def wordBytes (word : UInt32) : List UInt8 :=
  [(word >>> 24).toUInt8, (word >>> 16).toUInt8, (word >>> 8).toUInt8, word.toUInt8]

def ImageHeader.bytes (header : ImageHeader) : List UInt8 :=
  wordBytes header.ihMagic ++ wordBytes header.ihHcrc ++ wordBytes header.ihTime ++
    wordBytes header.ihSize ++ wordBytes header.ihLoad ++ wordBytes header.ihEp ++
    wordBytes header.ihDcrc ++
    [header.ihOs, header.ihArch, header.ihType, header.ihComp] ++ header.ihName

def readImageHeader (memory : Memory) (address : UInt32) : ImageHeader where
  ihMagic := memory.word address
  ihHcrc := memory.word (address + 4)
  ihTime := memory.word (address + 8)
  ihSize := memory.word (address + 12)
  ihLoad := memory.word (address + 16)
  ihEp := memory.word (address + 20)
  ihDcrc := memory.word (address + 24)
  ihOs := memory (address + 28)
  ihArch := memory (address + 29)
  ihType := memory (address + 30)
  ihComp := memory (address + 31)
  ihName := memory.bytes (address + 32) 32

/-- The fields of the TP-Link header that the boot path uses. -/
structure TplinkImageHeader where
  ihKernelLoad : UInt32
  ihKernelEp : UInt32
  ihKernelOfs : UInt32
  ihKernelLen : UInt32
  ihRootfsOfs : UInt32
  ihRootfsLen : UInt32
  deriving DecidableEq, Repr

def readTplinkImageHeader (memory : Memory) (address : UInt32) : TplinkImageHeader where
  ihKernelLoad := memory.word (address + 0x74)
  ihKernelEp := memory.word (address + 0x78)
  ihKernelOfs := memory.word (address + 0x80)
  ihKernelLen := memory.word (address + 0x84)
  ihRootfsOfs := memory.word (address + 0x88)
  ihRootfsLen := memory.word (address + 0x8C)

/-- The `switch (ntohl(data))` at the top of both commands. -/
inductive HeaderKind where
  | tplink
  | uboot
  | unsupported
  deriving DecidableEq, Repr

def headerKind (memory : Memory) (address : UInt32) : HeaderKind :=
  let data := memory.word address
  if data = TPL_IH_VERSION_V1 ∨ data = TPL_IH_VERSION_V2 then .tplink
  else if data = IH_MAGIC then .uboot
  else .unsupported

/-! ## The helpers of the commands -/

/-- What the commands call but leave to other files: the signature check on a
region and the signature after it (`true` for a zero return), the CRC, the
decompressor (`true` for `LZMA_RESULT_OK`), and the board's `CFG_LOAD_ADDR`. -/
structure Board where
  cfgLoadAddr : UInt32
  vbootVerify : List UInt8 → List UInt8 → Bool
  tinfCrc32 : List UInt8 → UInt32
  lzmaInflate : List UInt8 → Bool

/-- `int fw_verified` and the shared `header`. -/
structure BootState where
  fwVerified : Bool
  header : ImageHeader
  deriving DecidableEq, Repr

def BootState.initial : BootState := ⟨false, .zero⟩

variable (board : Board)

/-- The `data` and `len` that `print_tpl_ih_v1` hands to `vboot_verify`.  Once
the header names a rootfs the start is the configured load address. -/
def tplVerifySpan (address : UInt32) (hdr : TplinkImageHeader) : UInt32 × UInt32 :=
  if 0 < hdr.ihRootfsLen ∧ 0 < hdr.ihRootfsOfs then
    (board.cfgLoadAddr, hdr.ihRootfsOfs + hdr.ihRootfsLen - SHA256_NUMBYTES)
  else
    (address, hdr.ihKernelOfs + hdr.ihKernelLen)

/-- The span accepted by the `vboot_verify` call of `print_tpl_ih_v1`, if any.
`len` is an `int` there, so the call is made for `0 < len < 2^31` only. -/
def tplVerified (memory : Memory) (address : UInt32) (hdr : TplinkImageHeader) :
    Option AddressSpan :=
  let (data, len) := tplVerifySpan board address hdr
  if 0 < len.toNat ∧ len.toNat < 2 ^ 31 ∧
      board.vbootVerify (memory.bytes data len.toNat)
        (memory.bytes (data + len) SHA256_NUMBYTES.toNat) then
    some ⟨data, len.toNat⟩
  else none

/-- `print_tpl_ih_v1`: an accepted region sets `fw_verified`; nothing clears it. -/
def printTplIhV1 (memory : Memory) (hdr : TplinkImageHeader) (address : UInt32)
    (state : BootState) : BootState :=
  match tplVerified board memory address hdr with
  | some _ => { state with fwVerified := true }
  | none => state

def tplToUbootHeader (tplHdr : TplinkImageHeader) : ImageHeader :=
  { ImageHeader.zero with
    ihEp := tplHdr.ihKernelEp
    ihSize := tplHdr.ihKernelLen
    ihLoad := tplHdr.ihKernelLoad
    ihOs := IH_OS_LINUX
    ihArch := IH_CPU_MIPS
    ihType := IH_TYPE_KERNEL
    ihComp := IH_COMP_LZMA }

/-- `true` where the source returns 0. -/
def ihHeaderCrc (hdr : ImageHeader) (tplType : Bool) : Bool :=
  tplType || board.tinfCrc32 { hdr with ihHcrc := 0 }.bytes == hdr.ihHcrc

/-- `true` where the source returns 0. -/
def ihDataCrc (memory : Memory) (address : UInt32) (hdr : ImageHeader)
    (tplType verify : Bool) : Bool :=
  tplType || !verify || board.tinfCrc32 (memory.bytes address hdr.ihSize.toNat) == hdr.ihDcrc

/-- The walk `for (i = 1; len_ptr[i]; ++i) data += 4` over the length list of a
multi-file image.  The address space has `2^30` words, so a walk that finds no
zero within that fuel never ends. -/
def skipMultiList (memory : Memory) : Nat → UInt32 → UInt32 → Option UInt32
  | 0, _, _ => none
  | fuel + 1, lenPtr, data =>
      if memory.word lenPtr = 0 then some data
      else skipMultiList memory fuel (lenPtr + 4) (data + 4)

/-! ## The commands -/

/-- What the machine looks like when a command is typed. -/
structure Console where
  memory : Memory
  loadAddr : UInt32
  verifyData : Option (List Char)

/-- `argv[1]` as an address; `none` when it is missing. -/
inductive Command where
  | bootm (argument : Option UInt32)
  | iminfo (argument : Option UInt32)
  deriving DecidableEq, Repr

structure Event where
  console : Console
  command : Command

/-- The image that `do_bootm_linux` is entered with. -/
structure Launch where
  image : AddressSpan
  kernel : AddressSpan
  deriving DecidableEq, Repr

structure Outcome where
  state : BootState
  accepted : Option AddressSpan
  launch : Option Launch

/-- The header the command works on, once the kind of image is known, and the
state after the header has been printed. -/
def loadHeader (memory : Memory) (address : UInt32) (state : BootState) :
    Option (Bool × BootState) :=
  match headerKind memory address with
  | .tplink =>
      let tplHdr := readTplinkImageHeader memory address
      let printed := printTplIhV1 board memory tplHdr address state
      some (true, { printed with header := tplToUbootHeader tplHdr })
  | .uboot => some (false, { state with header := readImageHeader memory address })
  | .unsupported => none

/-- The checks of `do_bootm` between the header conversion and the gate: CRCs,
architecture and type.  The result is the kernel's address and length. -/
def selectKernel (console : Console) (address : UInt32) (hdr : ImageHeader) (tplType : Bool) :
    Option (UInt32 × UInt32) :=
  let memory := console.memory
  let verify := match console.verifyData with
    | some ('y' :: _) => true
    | _ => false
  if !ihHeaderCrc board hdr tplType then none
  else
    let data := address + if tplType then tplinkImageHeaderSize else imageHeaderSize
    if !ihDataCrc board memory data hdr tplType verify then none
    else if hdr.ihArch ≠ IH_CPU_MIPS then none
    else if hdr.ihType = IH_TYPE_KERNEL then some (data, hdr.ihSize)
    else if hdr.ihType = IH_TYPE_MULTI then
      (skipMultiList memory (2 ^ 30) (data + 4) (data + 8)).map fun first =>
        (first, memory.word data)
    else none

/-- The part of `do_bootm` after the gate, up to `do_bootm_linux`. -/
def decompress (console : Console) (hdr : ImageHeader) (data len : UInt32) : Bool :=
  hdr.ihComp == IH_COMP_LZMA && board.lzmaInflate (console.memory.bytes data len.toNat)

def bootmAddress (console : Console) (argument : Option UInt32) : UInt32 :=
  argument.getD console.loadAddr

/-- The span `vboot_verify` accepts while a command prints the header at `address`. -/
def acceptedSpan (memory : Memory) (address : UInt32) : Option AddressSpan :=
  match headerKind memory address with
  | .tplink => tplVerified board memory address (readTplinkImageHeader memory address)
  | _ => none

def doBootm (console : Console) (argument : Option UInt32) (state : BootState) : Outcome :=
  let address := bootmAddress console argument
  let accepted := acceptedSpan board console.memory address
  match loadHeader board console.memory address state with
  | none => ⟨state, accepted, none⟩
  | some (tplType, loaded) =>
      match selectKernel board console address loaded.header tplType with
      | none => ⟨loaded, accepted, none⟩
      | some (data, len) =>
          if !loaded.fwVerified then ⟨loaded, accepted, none⟩
          else if !decompress board console loaded.header data len then ⟨loaded, accepted, none⟩
          else
            let headerSize := if tplType then tplinkImageHeaderSize else imageHeaderSize
            ⟨loaded, accepted, some ⟨⟨address, headerSize.toNat⟩, ⟨data, len.toNat⟩⟩⟩

/-- `do_iminfo` works on the shared `header` too, but converts no TP-Link header
into it.  Its CRC checks only print. -/
def doIminfo (console : Console) (argument : Option UInt32) (state : BootState) : Outcome :=
  match argument with
  | none => ⟨state, none, none⟩
  | some address =>
      let accepted := acceptedSpan board console.memory address
      match headerKind console.memory address with
      | .tplink =>
          let tplHdr := readTplinkImageHeader console.memory address
          ⟨printTplIhV1 board console.memory tplHdr address state, accepted, none⟩
      | .uboot =>
          ⟨{ state with header := readImageHeader console.memory address }, accepted, none⟩
      | .unsupported => ⟨state, accepted, none⟩

def perform (event : Event) (state : BootState) : Outcome :=
  match event.command with
  | .bootm argument => doBootm board event.console argument state
  | .iminfo argument => doIminfo board event.console argument state

end Rut9xx.Boot
