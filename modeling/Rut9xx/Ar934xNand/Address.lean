import Mathlib.Data.List.Basic
import Mathlib.Data.Nat.Bitwise
import Mathlib.Data.UInt

namespace Rut9xx.Ar934xNand

/-! # Addresses of the NAND controller (`ar934x_nand.c`) -/

section

/-- The registers that the driver writes. -/
inductive Reg where
  | cmd | ctrl | intMask | intStatus | eccCtrl | eccOffset | addr00 | addr01 | spareSize | dmaAddr
  | dmaCount | dmaCtrl | memCtrl | dataSize | timeSeq | timingsAsyn | timingsSyn | dmaAddrOffs
  | genSeqCtrl
  deriving DecidableEq

abbrev Regs : Type := Reg → UInt32

inductive EccMode where
  | hw
  | soft
  deriving DecidableEq

structure Mtd where
  writesize : UInt32
  oobsize : UInt32
  erasesize : UInt32

/-- What the driver uses of `struct nand_chip`. -/
structure Chip where
  mtd : Mtd
  eccMode : EccMode

/-- `struct ar934x_nfc`; an `int` is its bit pattern. -/
structure Nfc where
  ctrlReg : UInt32
  eccCtrlReg : UInt32
  eccOffsetReg : UInt32
  smallPage : Bool
  addrCount0 : UInt32
  addrCount1 : UInt32
  bufDma : UInt32
  bufSize : UInt32
  bufIndex : UInt32
  readId : Bool
  erase1PageAddr : UInt32
  rndoutPageAddr : UInt32
  rndoutReadCmd : UInt32
  seqinPageAddr : UInt32
  seqinColumn : UInt32
  seqinReadCmd : UInt32

/-- The driver and its controller. -/
structure Dev where
  nfc : Nfc
  regs : Regs

def Dev.wr (dev : Dev) (reg : Reg) (val : UInt32) : Dev :=
  { dev with regs := Function.update dev.regs reg val }

def NAND_CMD_READ0 : UInt32 := 0
def NAND_CMD_READ1 : UInt32 := 1
def NAND_CMD_RNDOUT : UInt32 := 5
def NAND_CMD_PAGEPROG : UInt32 := 0x10
def NAND_CMD_READSTART : UInt32 := 0x30
def NAND_CMD_READOOB : UInt32 := 0x50
def NAND_CMD_ERASE1 : UInt32 := 0x60
def NAND_CMD_STATUS : UInt32 := 0x70
def NAND_CMD_SEQIN : UInt32 := 0x80
def NAND_CMD_READID : UInt32 := 0x90
def NAND_CMD_ERASE2 : UInt32 := 0xd0
def NAND_CMD_RESET : UInt32 := 0xff

def ctrlIntEn : UInt32 := 0x10
def ctrlEccEn : UInt32 := 0x20
def ctrlCustomSizeEn : UInt32 := 0x800
def ctrlSmallPage : UInt32 := 0x200000

end

/-! ## Attaching a chip -/

section

/-- What `ar934x_nfc_init_tail` fails with. -/
inductive InitError where
  | enxio
  | enomem
  deriving DecidableEq

/-- `AR934X_NFC_CTRL_BLOCK_SIZE` by the pages of a block. -/
def ctrlBlockSizes : List (UInt32 × UInt32) := [(32, 0), (64, 1), (128, 2), (256, 3)]

/-- By the size of a page whether it is small and `AR934X_NFC_CTRL_PAGE_SIZE`. -/
def ctrlPageSizes : List (UInt32 × Bool × UInt32) :=
  [(256, true, 0), (512, true, 1), (1024, false, 2), (2048, false, 3), (4096, false, 4),
    (8192, false, 5), (16384, false, 6)]

def addrCounts (smallPage : Bool) (chipsize : UInt64) : UInt32 × UInt32 :=
  if smallPage then
    -- 32 << 20 and 2 << 16
    if chipsize > 0x2000000 then (4, 3) else if chipsize > 0x20000 then (3, 2) else (2, 1)
  else
    -- 128 << 20 and 8 << 16
    if chipsize > 0x8000000 then (5, 3) else if chipsize > 0x80000 then (4, 2) else (3, 1)

/-- `ar934x_nfc_init_tail`; `buf` is the new buffer of the transfers. -/
def initTail (dev : Dev) (mtd : Mtd) (chipsize : UInt64) (buf : Option UInt32) : Except InitError Dev :=
  if mtd.oobsize = 16 ∨ mtd.oobsize = 64 ∨ mtd.oobsize = 128 then
    let dev := dev.wr .spareSize mtd.oobsize
    match ctrlBlockSizes.lookup (mtd.erasesize / mtd.writesize) with
    | none => .error .enxio
    | some block =>
        match ctrlPageSizes.lookup mtd.writesize with
        | none => .error .enxio
        | some (small, page) =>
            -- `small_page` is set and never cleared
            let smallPage := dev.nfc.smallPage || small
            let counts := addrCounts smallPage chipsize
            let ctrl := ctrlCustomSizeEn ||| block <<< (6 : UInt32) ||| page <<< (8 : UInt32) |||
              (if smallPage then ctrlSmallPage else 0) ||| counts.1 |||
                counts.2 <<< (18 : UInt32)
            let nfc := { dev.nfc with
              smallPage := smallPage, addrCount0 := counts.1, addrCount1 := counts.2, ctrlReg := ctrl }
            let dev := { dev with nfc := nfc }.wr .ctrl ctrl
            match buf with
            | none => .error .enomem
            | some bufDma =>
                .ok { dev with nfc := { nfc with bufDma, bufSize := mtd.writesize + mtd.oobsize } }
  else .error .enxio

end

/-! ## Address words and requests -/

section

/-- `ar934x_nfc_get_addr` -/
def getAddr (nfc : Nfc) (column pageAddr : UInt32) : UInt32 × UInt32 :=
  if column = 0xffffffff then
    -- ERASE1
    ((pageAddr &&& 0xffff) <<< (16 : UInt32), (pageAddr >>> (16 : UInt32)) &&& 0xf)
  else if pageAddr ≠ 0xffffffff then
    if nfc.smallPage then
      (column &&& 0xff ||| (pageAddr &&& 0xff) <<< (8 : UInt32) |||
        ((pageAddr >>> (8 : UInt32)) &&& 0xff) <<< (16 : UInt32) |||
          ((pageAddr >>> (16 : UInt32)) &&& 0xff) <<< (24 : UInt32), 0)
    else
      (column &&& 0x0fff ||| (pageAddr &&& 0xffff) <<< (16 : UInt32),
        if nfc.addrCount0 > 4 then (pageAddr >>> (16 : UInt32)) &&& 0xf else 0)
  else (0, 0)

/-- A call of one of the `ar934x_nfc_send_` functions or of `ar934x_nfc_read_status`. -/
inductive Request where
  | cmd (command : UInt32)
  | readid (command : UInt32)
  | read (command column pageAddr len : UInt32)
  | erase (command column pageAddr : UInt32)
  | write (command column pageAddr len : UInt32)
  | status
  deriving DecidableEq

/-- The read command for the part of a page where a program command begins, and its column there. -/
def seqinColumn (mtd : Mtd) (smallPage : Bool) (column : UInt32) : UInt32 × UInt32 :=
  if smallPage then
    if column ≥ mtd.writesize then (NAND_CMD_READOOB, column - mtd.writesize)
    else if column < 256 then (NAND_CMD_READ0, column)
    else (NAND_CMD_READ1, column - 256)
  else (NAND_CMD_READ0, column)

/-- `ar934x_nfc_cmdfunc` -/
def cmdfunc (chip : Chip) (nfc : Nfc) (command column pageAddr : UInt32) : Nfc × List Request :=
  let mtd := chip.mtd
  let nfc := { nfc with
    readId := false, bufIndex := if command ≠ NAND_CMD_PAGEPROG then 0 else nfc.bufIndex }
  let both := mtd.writesize + mtd.oobsize
  if command = NAND_CMD_RESET then (nfc, [.cmd command])
  else if command = NAND_CMD_READID then ({ nfc with readId := true }, [.readid command])
  else if command = NAND_CMD_READ0 ∨ command = NAND_CMD_READ1 then
    if nfc.smallPage then (nfc, [.read command column pageAddr both])
    else ({ nfc with bufIndex := column, rndoutPageAddr := pageAddr, rndoutReadCmd := command },
      [.read command 0 pageAddr both])
  else if command = NAND_CMD_READOOB then
    if nfc.smallPage then (nfc, [.read NAND_CMD_READOOB column pageAddr mtd.oobsize])
    else (nfc, [.read NAND_CMD_READ0 mtd.writesize pageAddr mtd.oobsize])
  else if command = NAND_CMD_RNDOUT then
    if nfc.smallPage then (nfc, [])
    -- emulate subpage read
    else ({ nfc with bufIndex := column }, [.read nfc.rndoutReadCmd 0 nfc.rndoutPageAddr both])
  else if command = NAND_CMD_ERASE1 then ({ nfc with erase1PageAddr := pageAddr }, [])
  else if command = NAND_CMD_ERASE2 then (nfc, [.erase command 0xffffffff nfc.erase1PageAddr])
  else if command = NAND_CMD_STATUS then (nfc, [.status])
  else if command = NAND_CMD_SEQIN then
    let seqin := seqinColumn mtd nfc.smallPage column
    ({ nfc with seqinReadCmd := seqin.1, seqinColumn := seqin.2, seqinPageAddr := pageAddr }, [])
  else if command = NAND_CMD_PAGEPROG then
    -- with hardware ECC the data is already written
    if chip.eccMode = .hw then (nfc, [])
    else (nfc, (if nfc.smallPage then [.cmd nfc.seqinReadCmd] else []) ++
      [.write command nfc.seqinColumn nfc.seqinPageAddr nfc.bufIndex])
  else (nfc, [])

/-- `ar934x_nfc_read_oob` -/
def readOobRequest (mtd : Mtd) (page : UInt32) : Request :=
  .read NAND_CMD_READ0 mtd.writesize page mtd.oobsize

/-- `ar934x_nfc_write_oob` -/
def writeOobRequest (mtd : Mtd) (page : UInt32) : Request :=
  .write NAND_CMD_PAGEPROG mtd.writesize page mtd.oobsize

def rawLength (mtd : Mtd) (oobRequired : Bool) : UInt32 :=
  if oobRequired then mtd.writesize + mtd.oobsize else mtd.writesize

/-- `ar934x_nfc_read_page_raw` -/
def readPageRawRequest (mtd : Mtd) (oobRequired : Bool) (page : UInt32) : Request :=
  .read NAND_CMD_READ0 0 page (rawLength mtd oobRequired)

/-- `ar934x_nfc_write_page_raw` -/
def writePageRawRequest (mtd : Mtd) (oobRequired : Bool) (page : UInt32) : Request :=
  .write NAND_CMD_PAGEPROG 0 page (rawLength mtd oobRequired)

end

/-! ## Pages and columns of a chip -/

section

def pageCount (mtd : Mtd) (chipsize : UInt64) : Nat := chipsize.toNat / mtd.writesize.toNat

/-- A column of a page or its OOB area; a page number is not negative as an `int`. -/
structure InRange (mtd : Mtd) (chipsize : UInt64) (column page : UInt32) : Prop where
  onPage : column.toNat < mtd.writesize.toNat + mtd.oobsize.toNat
  onChip : page.toNat < pageCount mtd chipsize
  nonnegative : page.toNat < 2 ^ 31

/-- A read or a write at a page, with its column where it has one. -/
inductive Access where
  | read0 (column page : UInt32)
  | read1 (column page : UInt32)
  | readOobArea (column page : UInt32)
  | rndout (column page : UInt32)
  | program (column page len : UInt32)
  | readOob (page : UInt32)
  | writeOob (page : UInt32)
  | readPageRaw (oobRequired : Bool) (page : UInt32)
  | writePageRaw (oobRequired : Bool) (page : UInt32)

def Access.target : Access → UInt32 × UInt32
  | .read0 column page | .read1 column page | .readOobArea column page | .rndout column page
  | .program column page _ => (column, page)
  | .readOob page | .writeOob page | .readPageRaw _ page | .writePageRaw _ page => (0, page)

def Access.requests (chip : Chip) (nfc : Nfc) : Access → List Request
  | .read0 column page => (cmdfunc chip nfc NAND_CMD_READ0 column page).2
  | .read1 column page => (cmdfunc chip nfc NAND_CMD_READ1 column page).2
  | .readOobArea column page => (cmdfunc chip nfc NAND_CMD_READOOB column page).2
  | .rndout column page =>
      let (nfc, requests) := cmdfunc chip nfc NAND_CMD_READ0 0 page
      requests ++ (cmdfunc chip nfc NAND_CMD_RNDOUT column 0xffffffff).2
  | .program column page len =>
      let (nfc, requests) := cmdfunc chip nfc NAND_CMD_SEQIN column page
      -- the data is put into the buffer
      let nfc := { nfc with bufIndex := nfc.bufIndex + len }
      requests ++ (cmdfunc chip nfc NAND_CMD_PAGEPROG 0xffffffff 0xffffffff).2
  | .readOob page => [readOobRequest chip.mtd page]
  | .writeOob page => [writeOobRequest chip.mtd page]
  | .readPageRaw oobRequired page => [readPageRawRequest chip.mtd oobRequired page]
  | .writePageRaw oobRequired page => [writePageRawRequest chip.mtd oobRequired page]

/-- The column and the page that a transfer gives to `getAddr`. -/
def Request.addressed : Request → Option (UInt32 × UInt32)
  | .read _ column pageAddr _ | .write _ column pageAddr _ => some (column, pageAddr)
  | _ => none

/-- What the transfers address for pages and columns of the chip. -/
def Sends (chip : Chip) (chipsize : UInt64) (nfc : Nfc) (column page : UInt32) : Prop :=
  ∃ access : Access, InRange chip.mtd chipsize access.target.1 access.target.2 ∧
    ∃ request ∈ access.requests chip nfc, request.addressed = some (column, page)

/-- No two of the pairs have the same address words. -/
def Unique (nfc : Nfc) (pairs : UInt32 → UInt32 → Prop) : Prop :=
  ∀ column page column' page', pairs column page → pairs column' page' →
    getAddr nfc column page = getAddr nfc column' page' → column = column' ∧ page = page'

/-- The chip has no page, or its columns have at most 12 bits and its page numbers 16 bits or, with
the fifth address cycle, 20 bits. -/
def Distinguished (mtd : Mtd) (chipsize : UInt64) : Prop :=
  pageCount mtd chipsize = 0 ∨
    (mtd.writesize = 1024 ∨ mtd.writesize = 2048) ∧
      (pageCount mtd chipsize ≤ 2 ^ 16 ∨ 0x8000000 < chipsize ∧ pageCount mtd chipsize ≤ 2 ^ 20)

instance (mtd : Mtd) (chipsize : UInt64) : Decidable (Distinguished mtd chipsize) :=
  inferInstanceAs (Decidable (pageCount mtd chipsize = 0 ∨
    (mtd.writesize = 1024 ∨ mtd.writesize = 2048) ∧
      (pageCount mtd chipsize ≤ 2 ^ 16 ∨ 0x8000000 < chipsize ∧ pageCount mtd chipsize ≤ 2 ^ 20)))

end

variable {dev after : Dev} {chip : Chip} {mtd : Mtd} {chipsize : UInt64} {buf : Option UInt32}
  {nfc : Nfc} {column page column' page' : UInt32} {pairs more : UInt32 → UInt32 → Prop}

theorem Unique.mono (unique : Unique nfc more) (fewer : ∀ column page, pairs column page → more column page) :
    Unique nfc pairs :=
  fun column page column' page' here there => unique column page column' page' (fewer _ _ here) (fewer _ _ there)

/-! ## The words as numbers -/

theorem toNat_and_low (word mask : UInt32) (bits : Nat) (low : mask.toNat = 2 ^ bits - 1) :
    (word &&& mask).toNat = word.toNat % 2 ^ bits := by
  rw [UInt32.toNat_and, low]
  exact Nat.and_two_pow_sub_one_eq_mod word.toNat bits

theorem toNat_half (word : UInt32) : (word >>> (16 : UInt32)).toNat = word.toNat / 2 ^ 16 := by
  rw [UInt32.toNat_shiftRight]
  exact Nat.shiftRight_eq_div_pow _ 16

theorem toNat_upper (word : UInt32) :
    ((word &&& 0xffff) <<< (16 : UInt32)).toNat = (word.toNat % 2 ^ 16) <<< 16 := by
  have sixteen : (16 : UInt32).toNat % 32 = 16 := rfl
  have low := toNat_and_low word 0xffff 16 rfl
  rw [UInt32.toNat_shiftLeft, low, sixteen, Nat.mod_eq_of_lt]
  rw [Nat.shiftLeft_eq]
  omega

theorem toNat_words (column page : UInt32) :
    (column &&& 0x0fff ||| (page &&& 0xffff) <<< (16 : UInt32)).toNat =
      page.toNat % 2 ^ 16 * 2 ^ 16 + column.toNat % 2 ^ 12 := by
  have low := toNat_and_low column 0x0fff 12 rfl
  rw [UInt32.toNat_or, low, toNat_upper, Nat.or_comm, ← Nat.shiftLeft_add_eq_or_of_lt (by omega),
    Nat.shiftLeft_eq]

theorem toNat_top (page : UInt32) : ((page >>> (16 : UInt32)) &&& 0xf).toNat = page.toNat / 2 ^ 16 % 2 ^ 4 := by
  rw [toNat_and_low _ 0xf 4 rfl, toNat_half]

theorem ne_none_of_lt (below : page.toNat < 2 ^ 31) : page ≠ 0xffffffff := by
  rintro rfl
  exact absurd below (by decide)

theorem getAddr_large (large : nfc.smallPage = false) (inside : column.toNat < 2 ^ 31)
    (nonnegative : page.toNat < 2 ^ 31) :
    getAddr nfc column page = (column &&& 0x0fff ||| (page &&& 0xffff) <<< (16 : UInt32),
      if nfc.addrCount0 > 4 then (page >>> (16 : UInt32)) &&& 0xf else 0) := by
  rw [getAddr, if_neg (ne_none_of_lt inside), if_pos (ne_none_of_lt nonnegative), large]
  rfl

theorem getAddr_large_eq_iff (large : nfc.smallPage = false)
    (inside : column.toNat < 2 ^ 31) (nonnegative : page.toNat < 2 ^ 31)
    (inside' : column'.toNat < 2 ^ 31) (nonnegative' : page'.toNat < 2 ^ 31) :
    getAddr nfc column page = getAddr nfc column' page' ↔
      column.toNat % 2 ^ 12 = column'.toNat % 2 ^ 12 ∧
        page.toNat % 2 ^ 16 = page'.toNat % 2 ^ 16 ∧
          (nfc.addrCount0 > 4 → page.toNat % 2 ^ 20 = page'.toNat % 2 ^ 20) := by
  rw [getAddr_large large inside nonnegative, getAddr_large large inside' nonnegative', Prod.mk.injEq,
    ← UInt32.toNat_inj, toNat_words, toNat_words]
  by_cases fifth : nfc.addrCount0 > 4
  · rw [if_pos fifth, if_pos fifth, ← UInt32.toNat_inj, toNat_top, toNat_top]
    simp only [fifth, forall_const]
    omega
  · rw [if_neg fifth, if_neg fifth]
    simp only [fifth, false_imp_iff, and_true]
    omega

/-! ## Geometries that are accepted -/

/-- What `initTail` has set for a chip that it accepts. -/
structure Accepted (mtd : Mtd) (chipsize : UInt64) (nfc : Nfc) : Prop where
  oobsize : mtd.oobsize = 16 ∨ mtd.oobsize = 64 ∨ mtd.oobsize = 128
  smallPage : (mtd.writesize = 256 ∨ mtd.writesize = 512) ∧ nfc.smallPage = true ∨
    mtd.writesize ∈ ([1024, 2048, 4096, 8192, 16384] : List UInt32) ∧ nfc.smallPage = false
  addrCount : nfc.addrCount0 = (addrCounts nfc.smallPage chipsize).1

theorem ctrlPageSizes_lookup {size code : UInt32} {small : Bool}
    (found : ctrlPageSizes.lookup size = some (small, code)) :
    (size = 256 ∨ size = 512) ∧ small = true ∨
      size ∈ ([1024, 2048, 4096, 8192, 16384] : List UInt32) ∧ small = false := by
  obtain ⟨before, behind, sizes, -⟩ := List.lookup_eq_some_iff.mp found
  have member : (size, small, code) ∈ ctrlPageSizes := by
    rw [sizes]
    simp
  simp only [ctrlPageSizes, List.mem_cons, List.not_mem_nil, or_false, Prod.mk.injEq] at member ⊢
  rcases member with ⟨rfl, rfl, -⟩ | ⟨rfl, rfl, -⟩ | ⟨rfl, rfl, -⟩ | ⟨rfl, rfl, -⟩ | ⟨rfl, rfl, -⟩ |
    ⟨rfl, rfl, -⟩ | ⟨rfl, rfl, -⟩ <;> simp

theorem initTail_accepted (fresh : dev.nfc.smallPage = false)
    (accepted : initTail dev mtd chipsize buf = .ok after) : Accepted mtd chipsize after.nfc := by
  unfold initTail at accepted
  split at accepted
  · rename_i oobsize
    split at accepted
    · cases accepted
    · split at accepted
      · cases accepted
      · rename_i small code found
        split at accepted
        · cases accepted
        · cases accepted
          refine ⟨oobsize, ?_, rfl⟩
          have sizes := ctrlPageSizes_lookup found
          simp only [Dev.wr, fresh, Bool.false_or]
          exact sizes
  · cases accepted

/-! ## Where the words are unique -/

section

theorem InRange.zero (range : InRange mtd chipsize column page) : InRange mtd chipsize 0 page :=
  ⟨Nat.lt_of_le_of_lt (Nat.zero_le _) range.onPage, range.onChip, range.nonnegative⟩

theorem InRange.oob (range : InRange mtd chipsize column page) (oob : 0 < mtd.oobsize.toNat) :
    InRange mtd chipsize mtd.writesize page :=
  ⟨Nat.lt_add_of_pos_right oob, range.onChip, range.nonnegative⟩

theorem InRange.le (range : InRange mtd chipsize column page) (less : column'.toNat ≤ column.toNat) :
    InRange mtd chipsize column' page :=
  ⟨Nat.lt_of_le_of_lt less range.onPage, range.onChip, range.nonnegative⟩

theorem Accepted.oob_pos (accepted : Accepted mtd chipsize nfc) : 0 < mtd.oobsize.toNat := by
  rcases accepted.oobsize with size | size | size <;> rw [size] <;> decide

/-! ### What the commands send -/

theorem cmdfunc_read0 : (cmdfunc chip nfc NAND_CMD_READ0 column page).2 =
    [.read NAND_CMD_READ0 (if nfc.smallPage then column else 0) page
      (chip.mtd.writesize + chip.mtd.oobsize)] := by
  cases small : nfc.smallPage <;> simp [cmdfunc, NAND_CMD_READ0, NAND_CMD_RESET, NAND_CMD_READID, small]

theorem cmdfunc_read1 : (cmdfunc chip nfc NAND_CMD_READ1 column page).2 =
    [.read NAND_CMD_READ1 (if nfc.smallPage then column else 0) page
      (chip.mtd.writesize + chip.mtd.oobsize)] := by
  cases small : nfc.smallPage <;>
    simp [cmdfunc, NAND_CMD_READ0, NAND_CMD_READ1, NAND_CMD_RESET, NAND_CMD_READID, small]

theorem cmdfunc_readoob : (cmdfunc chip nfc NAND_CMD_READOOB column page).2 =
    [if nfc.smallPage then .read NAND_CMD_READOOB column page chip.mtd.oobsize
      else .read NAND_CMD_READ0 chip.mtd.writesize page chip.mtd.oobsize] := by
  cases small : nfc.smallPage <;>
    simp [cmdfunc, NAND_CMD_READ0, NAND_CMD_READ1, NAND_CMD_READOOB, NAND_CMD_RESET, NAND_CMD_READID,
      small]

/-- A part of a page is read with all of it. -/
theorem rndout_requests {request : Request}
    (member : request ∈ (Access.rndout column page).requests chip nfc) :
    request.addressed = some (0, page) := by
  cases small : nfc.smallPage <;>
    simp [Access.requests, cmdfunc, NAND_CMD_READ0, NAND_CMD_READ1, NAND_CMD_READOOB, NAND_CMD_RESET,
      NAND_CMD_READID, NAND_CMD_RNDOUT, small] at member
  all_goals
    rw [member]
    rfl

theorem seqinColumn_le : (seqinColumn mtd nfc.smallPage column).2.toNat ≤ column.toNat := by
  have sub (less : UInt32) (below : less ≤ column) : (column - less).toNat ≤ column.toNat := by
    rw [UInt32.toNat_sub_of_le column less below]
    exact Nat.sub_le _ _
  unfold seqinColumn
  split
  · split
    · exact sub _ ‹_›
    · split
      · exact Nat.le_refl _
      · exact sub 256 (UInt32.not_lt.mp ‹_›)
  · exact Nat.le_refl _

/-- A program command sends the column where it is, or how far it is in its part of a small page. -/
theorem program_requests {request : Request} {len : UInt32}
    (member : request ∈ (Access.program column page len).requests chip nfc)
    (addressed : request.addressed = some (column', page')) :
    page' = page ∧ column'.toNat ≤ column.toNat := by
  have requests : (Access.program column page len).requests chip nfc =
      if chip.eccMode = .hw then []
      else (if nfc.smallPage then [.cmd (seqinColumn chip.mtd nfc.smallPage column).1] else []) ++
        [.write NAND_CMD_PAGEPROG (seqinColumn chip.mtd nfc.smallPage column).2 page len] := by
    by_cases hw : chip.eccMode = .hw <;>
      simp [Access.requests, cmdfunc, NAND_CMD_READ0, NAND_CMD_READ1, NAND_CMD_READOOB, NAND_CMD_RESET,
        NAND_CMD_READID, NAND_CMD_RNDOUT, NAND_CMD_ERASE1, NAND_CMD_ERASE2, NAND_CMD_STATUS,
        NAND_CMD_SEQIN, NAND_CMD_PAGEPROG, hw]
  rw [requests] at member
  split at member
  · cases member
  · rcases List.mem_append.mp member with readCmd | write
    · split at readCmd
      · rw [List.mem_singleton.mp readCmd] at addressed
        cases addressed
      · cases readCmd
    · rw [List.mem_singleton.mp write] at addressed
      cases addressed
      exact ⟨rfl, seqinColumn_le⟩

/-- All that is sent for the pages and columns of a chip are pages and columns of it. -/
theorem Sends.inRange (accepted : Accepted chip.mtd chipsize nfc)
    (sends : Sends chip chipsize nfc column page) : InRange chip.mtd chipsize column page := by
  obtain ⟨access, range, request, member, addressed⟩ := sends
  have zero := range.zero
  have oob := range.oob accepted.oob_pos
  cases access with
  | read0 column page =>
      simp only [Access.requests, cmdfunc_read0, List.mem_singleton] at member
      subst member
      cases addressed
      split
      · exact range
      · exact zero
  | read1 column page =>
      simp only [Access.requests, cmdfunc_read1, List.mem_singleton] at member
      subst member
      cases addressed
      split
      · exact range
      · exact zero
  | readOobArea column page =>
      simp only [Access.requests, cmdfunc_readoob, List.mem_singleton] at member
      subst member
      split at addressed
      · cases addressed
        exact range
      · cases addressed
        exact oob
  | rndout column page =>
      rw [rndout_requests member] at addressed
      cases addressed
      exact zero
  | program column page len =>
      obtain ⟨rfl, less⟩ := program_requests member addressed
      exact range.le less
  | readOob page | writeOob page =>
      cases List.mem_singleton.mp member
      cases addressed
      exact oob
  | readPageRaw oobRequired page | writePageRaw oobRequired page =>
      cases List.mem_singleton.mp member
      cases addressed
      exact zero

theorem Distinguished.unique (accepted : Accepted mtd chipsize nfc)
    (distinguished : Distinguished mtd chipsize) : Unique nfc (InRange mtd chipsize) := by
  intro column page column' page' range range' same
  have here := range.onChip
  have there := range'.onChip
  have onPage := range.onPage
  have onPage' := range'.onPage
  rcases distinguished with empty | ⟨sizes, counts⟩
  · omega
  · have small : mtd.writesize.toNat ≤ 2048 := by
      rcases sizes with size | size <;> rw [size] <;> decide
    have oob : mtd.oobsize.toNat ≤ 128 := by
      rcases accepted.oobsize with size | size | size <;> rw [size] <;> decide
    have large : nfc.smallPage = false := by
      rcases accepted.smallPage with ⟨size | size, -⟩ | ⟨-, large⟩
      · rw [size] at sizes
        exact absurd sizes (by decide)
      · rw [size] at sizes
        exact absurd sizes (by decide)
      · exact large
    obtain ⟨columns, pages, fifth⟩ := (getAddr_large_eq_iff large (by omega) range.nonnegative (by omega)
      range'.nonnegative).mp same
    refine ⟨UInt32.toNat_inj.mp (by omega), UInt32.toNat_inj.mp ?_⟩
    rcases counts with few | ⟨big, few⟩
    · omega
    · have count : nfc.addrCount0 = 5 := by
        rw [accepted.addrCount, large, addrCounts, if_neg (by decide), if_pos big]
      have more := fifth (by rw [count]; decide)
      omega

theorem sends_small (small : nfc.smallPage = true) (range : InRange chip.mtd chipsize column page) :
    Sends chip chipsize nfc column page := by
  refine ⟨.read0 column page, range,
    .read NAND_CMD_READ0 column page (chip.mtd.writesize + chip.mtd.oobsize), ?_, rfl⟩
  rw [Access.requests, cmdfunc_read0, small]
  exact List.mem_singleton.mpr rfl

theorem sends_page (range : InRange chip.mtd chipsize 0 page) : Sends chip chipsize nfc 0 page := by
  refine ⟨.read0 0 page, range, .read NAND_CMD_READ0 0 page (chip.mtd.writesize + chip.mtd.oobsize), ?_,
    rfl⟩
  rw [Access.requests, cmdfunc_read0, ite_self]
  exact List.mem_singleton.mpr rfl

theorem sends_oob (large : nfc.smallPage = false) (range : InRange chip.mtd chipsize 0 page) :
    Sends chip chipsize nfc chip.mtd.writesize page := by
  refine ⟨.readOobArea 0 page, range, .read NAND_CMD_READ0 chip.mtd.writesize page chip.mtd.oobsize, ?_,
    rfl⟩
  rw [Access.requests, cmdfunc_readoob, large]
  exact List.mem_singleton.mpr rfl

/-- Elsewhere two transfers for different places have the same words. -/
theorem collide (accepted : Accepted chip.mtd chipsize nfc)
    (indistinct : ¬ Distinguished chip.mtd chipsize) : ¬ Unique nfc (Sends chip chipsize nfc) := by
  intro unique
  simp only [Distinguished, not_or, not_and] at indistinct
  obtain ⟨some', sizes⟩ := indistinct
  have inside (page : UInt32) (nonnegative : page.toNat < 2 ^ 31)
      (onChip : page.toNat < pageCount chip.mtd chipsize) : InRange chip.mtd chipsize 0 page :=
    ⟨Nat.lt_of_lt_of_le accepted.oob_pos (Nat.le_add_left _ _), onChip, nonnegative⟩
  have first : InRange chip.mtd chipsize 0 0 := inside 0 (by decide) (Nat.pos_of_ne_zero some')
  rcases accepted.smallPage with ⟨size, small⟩ | ⟨size, large⟩
  · -- the bytes at 0 and at 256 of a page
    have second : InRange chip.mtd chipsize 256 0 := by
      refine ⟨?_, first.onChip, by decide⟩
      have enough : 256 ≤ chip.mtd.writesize.toNat := by
        rcases size with size | size <;> rw [size] <;> decide
      exact Nat.lt_of_lt_of_le (Nat.lt_add_of_pos_right accepted.oob_pos)
        (Nat.add_le_add_right enough _)
    have same : getAddr nfc 256 0 = getAddr nfc 0 0 := by
      rw [getAddr, getAddr, small]
      rfl
    exact absurd (unique _ _ _ _ (sends_small small second) (sends_small small first) same).1 (by decide)
  · simp only [List.mem_cons, List.not_mem_nil, or_false] at size
    by_cases narrow : chip.mtd.writesize = 1024 ∨ chip.mtd.writesize = 2048
    · obtain ⟨many, fifth⟩ := sizes narrow
      by_cases big : 0x8000000 < chipsize
      · -- page 2 ^ 20 as page 0
        have count := fifth big
        have last := inside 0x100000 (by decide) (Nat.not_le.mp count)
        have same : getAddr nfc 0 0x100000 = getAddr nfc 0 0 :=
          (getAddr_large_eq_iff large (by decide) (by decide) (by decide) (by decide)).mpr
            ⟨rfl, by decide, fun _ => by decide⟩
        exact absurd (unique _ _ _ _ (sends_page last) (sends_page first) same).2 (by decide)
      · -- page 2 ^ 16 as page 0
        have last := inside 0x10000 (by decide) (Nat.not_le.mp many)
        have count : ¬ nfc.addrCount0 > 4 := by
          rw [accepted.addrCount, large, addrCounts, if_neg (by decide), if_neg big]
          split <;> decide
        have same : getAddr nfc 0 0x10000 = getAddr nfc 0 0 :=
          (getAddr_large_eq_iff large (by decide) (by decide) (by decide) (by decide)).mpr
            ⟨rfl, by decide, fun more => absurd more count⟩
        exact absurd (unique _ _ _ _ (sends_page last) (sends_page first) same).2 (by decide)
    · -- the OOB area as the beginning of the page
      have wide : chip.mtd.writesize = 4096 ∨ chip.mtd.writesize = 8192 ∨ chip.mtd.writesize = 16384 := by
        rcases size with size | size | size | size | size
        · exact absurd (.inl size) narrow
        · exact absurd (.inr size) narrow
        · exact .inl size
        · exact .inr (.inl size)
        · exact .inr (.inr size)
      have same : getAddr nfc chip.mtd.writesize 0 = getAddr nfc 0 0 := by
        rcases wide with size | size | size <;> rw [size] <;>
          exact (getAddr_large_eq_iff large (by decide) (by decide) (by decide) (by decide)).mpr
            ⟨rfl, by decide, fun _ => by decide⟩
      have nonzero : chip.mtd.writesize ≠ 0 := by
        rcases wide with size | size | size <;> rw [size] <;> decide
      exact nonzero (unique _ _ _ _ (sends_oob large first) (sends_page first) same).1

end

/-- For every geometry that is accepted: no two places of the chip, and no two that transfers are
for, have the same address words, if and only if the chip is small enough for them. -/
theorem getAddr_unique_iff (fresh : dev.nfc.smallPage = false)
    (accepted : initTail dev chip.mtd chipsize buf = .ok after) :
    (Unique after.nfc (InRange chip.mtd chipsize) ↔ Distinguished chip.mtd chipsize) ∧
      (Unique after.nfc (Sends chip chipsize after.nfc) ↔ Distinguished chip.mtd chipsize) := by
  have geometry := initTail_accepted fresh accepted
  have fewer (unique : Unique after.nfc (InRange chip.mtd chipsize)) :
      Unique after.nfc (Sends chip chipsize after.nfc) :=
    unique.mono fun _ _ => Sends.inRange geometry
  constructor
  · refine ⟨fun unique => ?_, fun distinguished => distinguished.unique geometry⟩
    by_contra indistinct
    exact collide geometry indistinct (fewer unique)
  · refine ⟨fun unique => ?_, fun distinguished => fewer (distinguished.unique geometry)⟩
    by_contra indistinct
    exact collide geometry indistinct unique

/-- A driver before its chip is attached. -/
def Dev.blank : Dev where
  nfc :=
    { ctrlReg := ctrlCustomSizeEn, eccCtrlReg := 0, eccOffsetReg := 0, smallPage := false, addrCount0 := 0,
      addrCount1 := 0, bufDma := 0, bufSize := 8, bufIndex := 0, readId := false, erase1PageAddr := 0,
      rndoutPageAddr := 0, rndoutReadCmd := 0, seqinPageAddr := 0, seqinColumn := 0, seqinReadCmd := 0 }
  regs _ := 0

/-- 4 KiB pages with 128 bytes of OOB area, in blocks of 64. -/
def widePages : Chip := ⟨⟨4096, 128, 262144⟩, .soft⟩

theorem getAddr_unique_iff_widePages : ∃ after,
    initTail .blank widePages.mtd 0x20000000 (some 0) = .ok after ∧
      ¬ Unique after.nfc (Sends widePages 0x20000000 after.nfc) := by
  refine ⟨_, rfl, fun unique => ?_⟩
  have distinguished := (@getAddr_unique_iff .blank _ widePages 0x20000000 (some 0) rfl rfl).2.mp unique
  exact absurd distinguished (by decide)

/-- The driver reads the beginning of a page of 4 KiB for its OOB area. -/
theorem getAddr_wide_oob : ∃ after,
    initTail .blank widePages.mtd 0x20000000 (some 0) = .ok after ∧
      Sends widePages 0x20000000 after.nfc 0 7 ∧ Sends widePages 0x20000000 after.nfc 4096 7 ∧
        getAddr after.nfc 4096 7 = getAddr after.nfc 0 7 := by
  refine ⟨_, rfl, sends_page ⟨by decide, by decide, by decide⟩,
    sends_oob rfl ⟨by decide, by decide, by decide⟩, rfl⟩

end Rut9xx.Ar934xNand
