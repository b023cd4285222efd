import Rut9xx.Mtdsplit.Wfi

namespace Rut9xx.Mtdsplit

open Rut9xx.Data Rut9xx.Tplink

/-! # `mtdsplit`: the parsers for whole flash images

Allocations succeed, and an erase block is longer than a magic. -/

def UBI_MAGIC : UInt32 := 0x55424923

def CFE_MAGIC_PFX : List UInt8 := ascii ['c', 'f', 'e', 'r', 'a', 'm', '.']
def CFE_MAGIC_LEN : Nat := 10
def SERCOMM_MAGIC_PFX : List UInt8 := ascii ['e', 'R', 'c', 'O', 'm', 'M', '.']
def SERCOMM_MAGIC_LEN : Nat := 10

def PART_CFERAM : List Char := ['c', 'f', 'e', 'r', 'a', 'm']
def PART_FIRMWARE : List Char := ['f', 'i', 'r', 'm', 'w', 'a', 'r', 'e']
def PART_IMAGE_1 : List Char := ['i', 'm', 'g', '1']
def PART_IMAGE_2 : List Char := ['i', 'm', 'g', '2']
def WFI_UBI_PART_NAME : List Char := ['u', 'b', 'i']

def WfiError.code : WfiError → Int
  | .EINVAL => -22
  | .ENOENT => -2

def andThen {α β : Type} (step : Outcome (Except WfiError α))
    (rest : α → Outcome (Except WfiError β)) : Outcome (Except WfiError β) :=
  step.bind fun
    | .error err => .done (.error err)
    | .ok value => rest value

def ubiAt (mtd : MtdInfo) (offs : Nat) : Bool :=
  match mtdRead mtd offs 4 with
  | .error _ => false
  | .ok magic => be32At magic 0 == UBI_MAGIC

def ubifsLoop (mtd : MtdInfo) (stop : Int) : Nat → Nat → Outcome (Except WfiError Nat)
  | 0, _ => .endless
  | rounds + 1, offs =>
      if (offs : Int) < stop then
        if ubiAt mtd offs then .done (.ok offs)
        else ubifsLoop mtd stop rounds (offs + mtd.erasesize)
      else .done (.error .ENOENT)

def ubifsFind (mtd : MtdInfo) (offs : Nat) (size : Int) : Outcome (Except WfiError Nat) :=
  ubifsLoop mtd (offs + size) (size.toNat + 1) offs

/-- Where the lookup of the kernel begins: at the start, or behind the block of the boot loader,
which is returned with it. -/
def findCfe (master : MtdInfo) (fuel off size : Nat) (cfePart : Bool) :
    Outcome (Except WfiError (Option Nat × Nat)) :=
  if cfePart then
    andThen (jffs2FindFile master CFERAM_NAME false fuel off size) fun (cfeOff, _) =>
      .done (.ok (some cfeOff, cfeOff + master.erasesize))
  else .done (.ok (none, off))

def wfiParts (off size : Nat) (cfe : Option Nat) (kernelOff rootfsOff : Nat) : List MtdPartition :=
  (cfe.map fun cfeOff => (⟨PART_CFERAM, cfeOff, kernelOff - cfeOff⟩ : MtdPartition)).toList ++
    [⟨PART_FIRMWARE, kernelOff, size - (kernelOff - off)⟩,
     ⟨KERNEL_PART_NAME, kernelOff, rootfsOff - kernelOff⟩,
     ⟨WFI_UBI_PART_NAME, rootfsOff, size - (rootfsOff - off)⟩]

/-- `parse_bcm_wfi`; the count that it returns is the length of the list. -/
def parseBcmWfi (master : MtdInfo) (fuel off size : Nat) (cfePart : Bool) :
    Outcome (Except WfiError (List MtdPartition)) :=
  andThen (findCfe master fuel off size cfePart) fun (cfe, start) =>
    andThen (jffs2FindFile master KERNEL_NAME false fuel start (size - (start - off : Int)))
      fun (kernelOff, _) =>
        let start := kernelOff + master.erasesize
        andThen (ubifsFind master start (size - (start - off : Int))) fun rootfsOff =>
          .done (.ok (wfiParts off size cfe kernelOff rootfsOff))

/-! ## Boot flags -/

def charToNum (char : UInt8) : Int :=
  if 0x30 ≤ char ∧ char ≤ 0x39 then char.toNat - 0x30 else 0

/-- The number in three digits, the first one at `place`. -/
def digitsAt (bytes : Nat → UInt8) (place : Nat) : Int :=
  charToNum (bytes place) * 100 + charToNum (bytes (place + 1)) * 10 + charToNum (bytes (place + 2))

/-- The copy of a name, its zero, and what lies behind it in memory. -/
def copyOf (name : List UInt8) (behind : Nat → UInt8) (place : Nat) : UInt8 :=
  (name ++ [0])[place]?.getD (behind place)

def cferamBootflagValue (behind : Nat → UInt8) : Option FoundName → Int
  | none => WfiError.ENOENT.code
  | some found =>
      if CFE_MAGIC_LEN ≤ found.size ∧
          (List.range CFE_MAGIC_PFX.length).map (copyOf found.name behind) = CFE_MAGIC_PFX then
        digitsAt (copyOf found.name behind) CFE_MAGIC_PFX.length
      else WfiError.ENOENT.code

def sercommLoop (mtd : MtdInfo) : Nat → Nat → Outcome Int
  | 0, _ => .endless
  | rounds + 1, offs =>
      if offs < mtd.size then
        match mtdRead mtd offs SERCOMM_MAGIC_LEN with
        | .error _ => sercommLoop mtd rounds (offs + mtd.erasesize)
        | .ok buf =>
            if buf.take SERCOMM_MAGIC_PFX.length ≠ SERCOMM_MAGIC_PFX then
              sercommLoop mtd rounds (offs + mtd.erasesize)
            else .done (digitsAt (fun place => buf.getD place 0) SERCOMM_MAGIC_PFX.length)
      else .done WfiError.ENOENT.code

def sercommBootflagValue (mtd : MtdInfo) : Outcome Int := sercommLoop mtd (mtd.size + 1) 0

/-! ## Dual images -/

/-- The value that a parser returns, the array it leaves, and whether the second flag is erased. -/
structure Parsed where
  ret : Int
  pparts : Option (List MtdPartition)
  flagErased : Bool
  deriving DecidableEq

def img1 (master : MtdInfo) : MtdPartition := ⟨PART_IMAGE_1, 0, master.size / 2⟩

def img2 (master : MtdInfo) : MtdPartition :=
  ⟨PART_IMAGE_2, master.size / 2, master.size - master.size / 2⟩

/-- The parts of the active half with the inactive one behind them; without parts both halves, and
still the error. -/
def handOut (master : MtdInfo) (inactive : MtdPartition) (flagErased : Bool) :
    Except WfiError (List MtdPartition) → Outcome Parsed
  | .ok parts => .done ⟨parts.length + 1, some (parts ++ [inactive]), flagErased⟩
  | .error err => .done ⟨err.code, some [img1 master, img2 master], flagErased⟩

/-- The end that both parsers have. -/
def splitActive (master : MtdInfo) (fuel : Nat) (bf1 bf2 : Int) (cfePart flagErased : Bool) :
    Outcome Parsed :=
  let (active, inactive) := if bf1 ≥ bf2 then (img1 master, img2 master) else (img2 master, img1 master)
  (parseBcmWfi master fuel active.offset active.size cfePart).bind (handOut master inactive flagErased)

/-- The name that a lookup has handed out. -/
def cfeName : Lookup → Option FoundName
  | .ok (_, name) => name
  | .error _ => none

/-- `mtdsplit_parse_bcm_wfi_split`; `behind` is what lies behind the copies of the two names. -/
def mtdsplitParseBcmWfiSplit (master : MtdInfo) (behind : Bool → Nat → UInt8) (fuel : Nat) :
    Outcome Parsed :=
  (jffs2FindFile master CFERAM_NAME true fuel (img1 master).offset (img1 master).size).bind fun first =>
    (jffs2FindFile master CFERAM_NAME true fuel (img2 master).offset (img2 master).size).bind
      fun second =>
        splitActive master fuel (cferamBootflagValue (behind false) (cfeName first))
          (cferamBootflagValue (behind true) (cfeName second)) true false

/-- `mtdsplit_parse_ser_wfi`, with the devices `bootflag1` and `bootflag2` when there are such. -/
def mtdsplitParseSerWfi (master : MtdInfo) (bootflag1 bootflag2 : Option MtdInfo) (fuel : Nat) :
    Outcome Parsed :=
  match bootflag1, bootflag2 with
  | some mtdBf1, some mtdBf2 =>
      (sercommBootflagValue mtdBf1).bind fun bf1 =>
        (sercommBootflagValue mtdBf2).bind fun bf2 =>
          if bf1 = bf2 ∧ bf2 ≥ 0 then
            splitActive master fuel bf1 WfiError.ENOENT.code false true
          else splitActive master fuel bf1 bf2 false false
  | _, _ => .done ⟨WfiError.ENOENT.code, none, false⟩

end Rut9xx.Mtdsplit
