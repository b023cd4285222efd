import Rut9xx.Flash.WriteBuff

namespace Rut9xx.Flash

open Data

/-! # The boot loader's commands on memory and flash -/

section

def CONFIG_LOADADDR : UInt32 := 0x80800000

/-- The bank as `flash_init` describes it: sectors of one size, in the addresses a command has. -/
structure FlashInfo where
  sectorSize : Nat
  sectorCount : Nat
  sectors : 0 < sectorCount
  sized : 1 < sectorSize
  fits : sectorCount * sectorSize ≤ chipSize

def FlashInfo.size (info : FlashInfo) : Nat := info.sectorCount * info.sectorSize

/-- RAM by address, the flash by offset. -/
structure Board where
  ram : Memory UInt8
  flash : Memory UInt8

/-- `addr2info` finds the bank. -/
def FlashInfo.InFlash (info : FlashInfo) (addr : UInt32) : Prop :=
  CFG_FLASH_BASE.toNat ≤ addr.toNat ∧ addr.toNat ≤ CFG_FLASH_BASE.toNat + info.size - 1

instance (info : FlashInfo) (addr : UInt32) : Decidable (info.InFlash addr) :=
  inferInstanceAs (Decidable (_ ∧ _))

def Board.read (info : FlashInfo) (board : Board) (addr : UInt32) : UInt8 :=
  if info.InFlash addr then board.flash (flashOffset addr) else board.ram addr.toNat

/-- A store to the addresses of the flash does not reach it. -/
def Board.write (info : FlashInfo) (board : Board) (addr : UInt32) (byte : UInt8) : Board :=
  if info.InFlash addr then board
  else { board with ram := Function.update board.ram addr.toNat byte }

/-! ## `cp.b` -/

/-- `flash_write`, with one bank. -/
def flashWrite (info : FlashInfo) (src addr cnt : UInt32) (board : Board) : Bool × Board :=
  if cnt = 0 then (true, board)
  else if ¬ info.InFlash addr ∨ ¬ info.InFlash (addr + cnt - 1) then (false, board)
  else
    let len := min (CFG_FLASH_BASE.toNat + info.size - addr.toNat) cnt.toNat
    let source : Memory UInt8 := fun index => board.read info (src + UInt32.ofNat index)
    (true, { board with flash := programAll board.flash (writeBuff source addr (UInt32.ofNat len)) })

def copyBytes (info : FlashInfo) : Nat → UInt32 → UInt32 → Board → Board
  | 0, _, _, board => board
  | count + 1, addr, dest, board =>
      copyBytes info count (addr + 1) (dest + 1) (board.write info dest (board.read info addr))

/-- `do_mem_cp` with bytes: whether it returned 0, and the board. -/
def doMemCp (info : FlashInfo) (addr dest count : UInt32) (board : Board) : Bool × Board :=
  if count = 0 then (false, board)
  else if info.InFlash dest then flashWrite info addr dest count board
  else (true, copyBytes info count.toNat addr dest board)

/-! ## `erase` -/

/-- `info->start` -/
def FlashInfo.start (info : FlashInfo) (sect : Nat) : Nat :=
  CFG_FLASH_BASE.toNat + sect * info.sectorSize

def FlashInfo.sectorEnd (info : FlashInfo) (sect : Nat) : Nat :=
  if sect = info.sectorCount - 1 then CFG_FLASH_BASE.toNat + info.size - 1
  else info.start (sect + 1) - 1

/-- `addr_spec` of `start +length`: the last address, at the end of its sector. -/
def addrSpec (info : FlashInfo) (addrFirst length : UInt32) : Option Nat :=
  let addrLast := (addrFirst + length - 1).toNat
  ((List.range info.sectorCount).find? fun sect =>
    addrLast ≤ info.sectorEnd sect ∧ info.start sect ≤ addrLast).map info.sectorEnd

/-- `flash_fill_sect_ranges`, for a bank that was found. -/
def flashFillSectRanges (info : FlashInfo) (addrFirst addrLast : Nat) : Option (Nat × Nat) :=
  let sFirst := (List.range info.sectorCount).reverse.find? fun sect =>
    addrFirst ≤ info.sectorEnd sect ∧ info.start sect ≤ addrLast ∧ addrFirst = info.start sect
  let sLast := (List.range info.sectorCount).reverse.find? fun sect =>
    addrFirst ≤ info.sectorEnd sect ∧ info.start sect ≤ addrLast ∧ addrLast = info.sectorEnd sect
  match sFirst, sLast with
  | none, _ => none
  | some first, some last => if last < first then none else some (first, last)
  | some first, none =>
      if CFG_FLASH_BASE.toNat + info.size - 1 < addrLast then some (first, info.sectorCount - 1)
      else none

/-- `qca_sf_sect_erase`, and what the chip does with the command. -/
def qcaSfSectErase (info : FlashInfo) (flash : Memory UInt8) (sect : Nat) : Memory UInt8 :=
  store flash ((sect * info.sectorSize) &&& 0x00FFFFFF) (List.replicate info.sectorSize 0xff)

def flashErase (info : FlashInfo) (first last : Nat) (flash : Memory UInt8) : Memory UInt8 :=
  (List.range' first (last + 1 - first)).foldl (qcaSfSectErase info) flash

/-- `do_flerase` with `start +length` -/
def doFlerase (info : FlashInfo) (addrFirst length : UInt32) (board : Board) : Bool × Board :=
  match addrSpec info addrFirst length with
  | none => (false, board)
  | some addrLast =>
      if addrLast ≤ addrFirst.toNat then (false, board)
      else
        match flashFillSectRanges info addrFirst.toNat addrLast with
        | none => (false, board)
        | some (first, last) =>
            (true, { board with flash := flashErase info first last board.flash })

/-! ## `do_http_upgrade` -/

/-- The commands, with the numbers that are printed into them and read back. -/
inductive Command where
  | erase (start length : UInt32)
  | cpB (source target count : UInt32)

def Command.run (info : FlashInfo) (board : Board) : Command → Bool × Board
  | .erase start length => doFlerase info start length board
  | .cpB source target count => doMemCp info source target count board

/-- `run_command` goes on behind a command that failed. Both commands are repeatable. -/
def runCommand (info : FlashInfo) : List Command → Board → Int × Board
  | [], board => (1, board)
  | command :: rest, board =>
      let (done, board) := command.run info board
      let (rc, board) := runCommand info rest board
      (if done then rc else -1, board)

/-- The loop that rounds the size up; `none` is a loop that has not ended. -/
def backupLoop (sectorSize size : UInt32) : Nat → UInt32 → Option UInt32
  | 0, _ => none
  | fuel + 1, backupSize =>
      if backupSize < size then backupLoop sectorSize size fuel (backupSize + sectorSize)
      else some backupSize

/-- `do_http_upgrade` of `WEBFAILSAFE_UPGRADE_TYPE_UBOOT` -/
def doHttpUpgrade (info : FlashInfo) (fuel : Nat) (size : UInt32) (board : Board) :
    Option (Int × Board) := do
  let backupSize ← backupLoop (UInt32.ofNat info.sectorSize) size fuel 0
  let (saved, board) :=
    if size % UInt32.ofNat info.sectorSize ≠ 0 then
      runCommand info [.cpB (CFG_FLASH_BASE + size) (CONFIG_LOADADDR + size) (backupSize - size)] board
    else (1, board)
  if saved = 0 then some (-1, board)
  else
    some (runCommand info
      [.erase CFG_FLASH_BASE backupSize, .cpB CONFIG_LOADADDR CFG_FLASH_BASE backupSize] board)

end

/-! # An upgrade of the boot loader keeps what shares its last sector -/

section

variable {info : FlashInfo} {board : Board} {flash : Memory UInt8} {size addr dest : UInt32}
  {sect first last count blocks : Nat}

theorem base_toNat : CFG_FLASH_BASE.toNat = 0x9F000000 := rfl

theorem loadAddr_toNat : CONFIG_LOADADDR.toNat = 0x80800000 := rfl

theorem FlashInfo.positive (info : FlashInfo) : 0 < info.sectorSize := Nat.lt_of_succ_lt info.sized

theorem FlashInfo.size_le (info : FlashInfo) : info.size ≤ 0x1000000 := info.fits

theorem FlashInfo.size_pos (info : FlashInfo) : 0 < info.size := Nat.mul_pos info.sectors info.positive

theorem inFlash_iff : info.InFlash addr ↔
    0x9F000000 ≤ addr.toNat ∧ addr.toNat < 0x9F000000 + info.size := by
  have positive := info.size_pos
  rw [FlashInfo.InFlash, base_toNat]
  omega

theorem FlashInfo.blocks_le (info : FlashInfo) (within : blocks ≤ info.sectorCount) :
    blocks * info.sectorSize ≤ info.size :=
  Nat.mul_le_mul_right _ within

theorem FlashInfo.sectorEnd_eq (info : FlashInfo) (inside : sect < info.sectorCount) :
    info.sectorEnd sect = 0x9F000000 + (sect + 1) * info.sectorSize - 1 := by
  rw [sectorEnd, start, base_toNat]
  split
  · rename_i last
    rw [size, show info.sectorCount = sect + 1 by omega]
  · rfl

/-! ## The rounded size -/

/-- The loop ends at the first multiple of the sector size that is not below the size. -/
theorem backupLoop_ends (fits : size.toNat ≤ info.size) (below : blocks ≤ info.sectorCount)
    (needed : blocks * info.sectorSize < size.toNat + info.sectorSize) :
    ∃ fuel whole, whole ≤ info.sectorCount ∧
      backupLoop (UInt32.ofNat info.sectorSize) size fuel (UInt32.ofNat (blocks * info.sectorSize)) =
        some (UInt32.ofNat (whole * info.sectorSize)) ∧
      size.toNat ≤ whole * info.sectorSize ∧
      whole * info.sectorSize < size.toNat + info.sectorSize := by
  have small := info.size_le
  have room := info.blocks_le below
  have value : (UInt32.ofNat (blocks * info.sectorSize)).toNat = blocks * info.sectorSize := by
    rw [UInt32.toNat_ofNat', Nat.mod_eq_of_lt (by omega)]
  induction left : info.sectorCount - blocks generalizing blocks with
  | zero =>
      have same : blocks = info.sectorCount := by omega
      refine ⟨1, blocks, below, ?_, ?_, needed⟩
      · rw [backupLoop, if_neg]
        rw [UInt32.lt_iff_toNat_lt, value, same]
        exact Nat.not_lt.mpr fits
      · rw [same]
        exact fits
  | succ left ih =>
      by_cases short : blocks * info.sectorSize < size.toNat
      · have next : (blocks + 1) * info.sectorSize = blocks * info.sectorSize + info.sectorSize :=
          Nat.succ_mul _ _
        have roomNext := info.blocks_le (show blocks + 1 ≤ info.sectorCount by omega)
        obtain ⟨fuel, whole, within, ends, covers, tight⟩ := ih (show blocks + 1 ≤ info.sectorCount by omega)
          (by omega) roomNext (by rw [UInt32.toNat_ofNat', Nat.mod_eq_of_lt (by omega)]) (by omega)
        refine ⟨fuel + 1, whole, within, ?_, covers, tight⟩
        rw [backupLoop, if_pos (by rw [UInt32.lt_iff_toNat_lt, value]; exact short), ← UInt32.ofNat_add,
          ← next]
        exact ends
      · refine ⟨1, blocks, below, ?_, by omega, needed⟩
        rw [backupLoop, if_neg (by rw [UInt32.lt_iff_toNat_lt, value]; exact short)]

/-! ## `erase` -/

theorem qcaSfSectErase_eq (inside : sect < info.sectorCount) :
    qcaSfSectErase info flash sect =
      store flash (sect * info.sectorSize) (List.replicate info.sectorSize 0xff) := by
  have small := info.size_le
  have room := info.blocks_le inside
  have positive := info.positive
  rw [Nat.succ_mul] at room
  rw [qcaSfSectErase, show (0x00FFFFFF : Nat) = 2 ^ 24 - 1 from rfl, Nat.and_two_pow_sub_one_eq_mod,
    Nat.mod_eq_of_lt (by omega)]

/-- Sectors in a row become all ones. -/
theorem flashErase_front (within : blocks ≤ info.sectorCount) :
    (List.range' 0 blocks).foldl (qcaSfSectErase info) flash =
      store flash 0 (List.replicate (blocks * info.sectorSize) 0xff) := by
  induction blocks with
  | zero => simp
  | succ blocks ih =>
      rw [List.range'_1_concat, List.foldl_append, ih (by omega), List.foldl_cons, List.foldl_nil,
        Nat.zero_add, qcaSfSectErase_eq (by omega), Nat.succ_mul, List.replicate_add]
      exact store_next (by rw [List.length_replicate, Nat.zero_add])

theorem find_only {list : List Nat} {p : Nat → Bool} {value : Nat} (member : value ∈ list)
    (only : ∀ other ∈ list, p other = true ↔ other = value) : list.find? p = some value := by
  cases found : list.find? p with
  | none => exact absurd ((only value member).mpr rfl) (List.find?_eq_none.mp found value member)
  | some other =>
      rw [(only other (List.mem_of_find?_eq_some found)).mp (List.find?_some found)]

/-- A sector that has its last address in it, or that ends with it. -/
theorem sector_unique {index : Nat} (positive : 0 < info.sectorSize) (some' : 0 < blocks)
    (low : index * info.sectorSize ≤ blocks * info.sectorSize - 1)
    (high : blocks * info.sectorSize - 1 < (index + 1) * info.sectorSize) : index = blocks - 1 := by
  have full : 0 < blocks * info.sectorSize := Nat.mul_pos some' positive
  have below : index < blocks := Nat.lt_of_mul_lt_mul_right (show index * info.sectorSize <
    blocks * info.sectorSize by omega)
  have next : (index + 2) * info.sectorSize = (index + 1) * info.sectorSize + info.sectorSize :=
    Nat.succ_mul _ _
  have above : blocks < index + 2 := Nat.lt_of_mul_lt_mul_right (show blocks * info.sectorSize <
    (index + 2) * info.sectorSize by omega)
  omega

theorem addrSpec_front (some' : 0 < blocks) (within : blocks ≤ info.sectorCount) :
    addrSpec info CFG_FLASH_BASE (UInt32.ofNat (blocks * info.sectorSize)) =
      some (0x9F000000 + blocks * info.sectorSize - 1) := by
  have small := info.size_le
  have room := info.blocks_le within
  have full : 0 < blocks * info.sectorSize := Nat.mul_pos some' info.positive
  have last : (CFG_FLASH_BASE + UInt32.ofNat (blocks * info.sectorSize) - 1).toNat =
      0x9F000000 + blocks * info.sectorSize - 1 := by
    rw [UInt32.toNat_sub, UInt32.toNat_add, UInt32.toNat_ofNat', base_toNat,
      show (1 : UInt32).toNat = 1 from rfl]
    omega
  rw [addrSpec]
  simp only [last]
  rw [@find_only _ _ (blocks - 1), Option.map_some, info.sectorEnd_eq (by omega),
    Nat.sub_add_cancel some']
  · exact List.mem_range.mpr (by omega)
  · intro other member
    have inside := List.mem_range.mp member
    rw [decide_eq_true_iff, info.sectorEnd_eq inside, FlashInfo.start, base_toNat]
    have next : (other + 1) * info.sectorSize = other * info.sectorSize + info.sectorSize :=
      Nat.succ_mul _ _
    have positive := info.positive
    constructor
    · intro ⟨high, low⟩
      exact sector_unique positive some' (by omega) (by omega)
    · intro same
      rw [same, Nat.sub_add_cancel some'] at next ⊢
      omega

theorem flashFillSectRanges_front (some' : 0 < blocks) (within : blocks ≤ info.sectorCount) :
    flashFillSectRanges info 0x9F000000 (0x9F000000 + blocks * info.sectorSize - 1) =
      some (0, blocks - 1) := by
  have positive := info.positive
  have full : 0 < blocks * info.sectorSize := Nat.mul_pos some' positive
  have first : ((List.range info.sectorCount).reverse.find? fun sect =>
      0x9F000000 ≤ info.sectorEnd sect ∧
        info.start sect ≤ 0x9F000000 + blocks * info.sectorSize - 1 ∧
        0x9F000000 = info.start sect) = some 0 := by
    apply find_only
    · rw [List.mem_reverse, List.mem_range]
      exact info.sectors
    · intro other member
      have inside := List.mem_range.mp (List.mem_reverse.mp member)
      rw [decide_eq_true_iff, info.sectorEnd_eq inside, FlashInfo.start, base_toNat]
      constructor
      · intro ⟨_, _, here⟩
        by_contra behind
        have most := Nat.mul_pos (Nat.pos_of_ne_zero behind) positive
        omega
      · intro same
        rw [same]
        omega
  have last : ((List.range info.sectorCount).reverse.find? fun sect =>
      0x9F000000 ≤ info.sectorEnd sect ∧
        info.start sect ≤ 0x9F000000 + blocks * info.sectorSize - 1 ∧
        0x9F000000 + blocks * info.sectorSize - 1 = info.sectorEnd sect) = some (blocks - 1) := by
    apply find_only
    · rw [List.mem_reverse, List.mem_range]
      omega
    · intro other member
      have inside := List.mem_range.mp (List.mem_reverse.mp member)
      rw [decide_eq_true_iff, info.sectorEnd_eq inside, FlashInfo.start, base_toNat]
      have next : (other + 1) * info.sectorSize = other * info.sectorSize + info.sectorSize :=
        Nat.succ_mul _ _
      constructor
      · intro ⟨_, low, ends⟩
        exact sector_unique positive some' (by omega) (by omega)
      · intro same
        rw [same, Nat.sub_add_cancel some'] at next ⊢
        omega
  rw [flashFillSectRanges]
  simp only [first, last]
  rw [if_neg (Nat.not_lt_zero _)]

/-- The sectors in front are erased. -/
theorem doFlerase_front (some' : 0 < blocks) (within : blocks ≤ info.sectorCount) :
    doFlerase info CFG_FLASH_BASE (UInt32.ofNat (blocks * info.sectorSize)) board =
      (true, { board with
        flash := store board.flash 0 (List.replicate (blocks * info.sectorSize) 0xff) }) := by
  have several : 1 * info.sectorSize ≤ blocks * info.sectorSize := Nat.mul_le_mul_right _ some'
  have sized := info.sized
  rw [doFlerase, addrSpec_front some' within]
  simp only
  rw [if_neg (by rw [base_toNat]; omega), base_toNat, flashFillSectRanges_front some' within]
  simp only
  rw [flashErase, Nat.sub_zero, Nat.sub_add_cancel some', flashErase_front within]

/-! ## `cp.b` -/

/-- From the flash into RAM below it. -/
theorem copyBytes_fromFlash (inFlash : 0x9F000000 ≤ addr.toNat)
    (within : addr.toNat + count ≤ 0x9F000000 + info.size) (below : dest.toNat + count ≤ 0x9F000000) :
    copyBytes info count addr dest board =
      { board with
        ram := store board.ram dest.toNat (load board.flash (addr.toNat - 0x9F000000) count) } := by
  have small := info.size_le
  induction count generalizing addr dest board with
  | zero => simp [copyBytes, load]
  | succ count ih =>
      have readHere : board.read info addr = board.flash (addr.toNat - 0x9F000000) := by
        rw [Board.read, if_pos (inFlash_iff.mpr ⟨inFlash, by omega⟩), flashOffset,
          UInt32.toNat_sub_of_le _ _ (show CFG_FLASH_BASE.toNat ≤ addr.toNat from inFlash), base_toNat]
      have notFlash : ¬ info.InFlash dest := by
        rw [inFlash_iff]
        omega
      have addrNext : (addr + 1).toNat = addr.toNat + 1 := by
        rw [UInt32.toNat_add, show (1 : UInt32).toNat = 1 from rfl]
        omega
      have destNext : (dest + 1).toNat = dest.toNat + 1 := by
        rw [UInt32.toNat_add, show (1 : UInt32).toNat = 1 from rfl]
        omega
      have offsetNext : addr.toNat + 1 - 0x9F000000 = addr.toNat - 0x9F000000 + 1 :=
        Nat.sub_add_comm inFlash
      rw [copyBytes, readHere, Board.write, if_neg notFlash,
        ih (by omega) (by omega) (by omega), addrNext, destNext, offsetNext, load_succ, store_cons]

/-- From RAM to the start of an erased flash. -/
theorem doMemCp_toFlash (some' : 0 < count) (within : count ≤ info.size)
    (erased : Erased board.flash 0 count) :
    doMemCp info CONFIG_LOADADDR CFG_FLASH_BASE (UInt32.ofNat count) board =
      (true, { board with
        flash := store board.flash 0 (load board.ram CONFIG_LOADADDR.toNat count) }) := by
  have small := info.size_le
  have value : (UInt32.ofNat count).toNat = count := by
    rw [UInt32.toNat_ofNat', Nat.mod_eq_of_lt (by omega)]
  have counted : UInt32.ofNat count ≠ 0 := by
    intro zero
    rw [zero] at value
    exact absurd value.symm (Nat.ne_of_gt some')
  have starts : info.InFlash CFG_FLASH_BASE := by
    rw [inFlash_iff, base_toNat]
    omega
  have ends : info.InFlash (CFG_FLASH_BASE + UInt32.ofNat count - 1) := by
    have last : (CFG_FLASH_BASE + UInt32.ofNat count - 1).toNat = 0x9F000000 + count - 1 := by
      rw [UInt32.toNat_sub, UInt32.toNat_add, value, base_toNat, show (1 : UInt32).toNat = 1 from rfl]
      omega
    rw [inFlash_iff, last]
    omega
  have len : min (CFG_FLASH_BASE.toNat + info.size - CFG_FLASH_BASE.toNat) count = count := by
    rw [Nat.add_sub_cancel_left]
    exact Nat.min_eq_right within
  have offset : flashOffset CFG_FLASH_BASE = 0 := rfl
  have source : load (fun index => board.read info (CONFIG_LOADADDR + UInt32.ofNat index)) 0 count =
      load board.ram CONFIG_LOADADDR.toNat count := by
    apply List.map_congr_left
    intro index member
    have inside := List.mem_range.mp member
    have place : (CONFIG_LOADADDR + UInt32.ofNat index).toNat = CONFIG_LOADADDR.toNat + index := by
      rw [UInt32.toNat_add, UInt32.toNat_ofNat', loadAddr_toNat]
      omega
    have notFlash : ¬ info.InFlash (CONFIG_LOADADDR + UInt32.ofNat index) := by
      rw [inFlash_iff, place, loadAddr_toNat]
      omega
    show board.read info (CONFIG_LOADADDR + UInt32.ofNat (0 + index)) = _
    rw [Nat.zero_add, Board.read, if_neg notFlash, place]
  have written := @programAll_writeBuff
    (fun index => board.read info (CONFIG_LOADADDR + UInt32.ofNat index)) board.flash CFG_FLASH_BASE
    (UInt32.ofNat count)
  rw [offset, value, source] at written
  rw [doMemCp, if_neg counted, if_pos starts, flashWrite, if_neg counted,
    if_neg (not_or.mpr ⟨not_not.mpr starts, not_not.mpr ends⟩)]
  simp only [value, len]
  rw [written (Or.inl (by decide)) (Or.inr (by rw [chipSize]; omega)) erased]

/-! ## The upgrade -/

/-- The flash begins with the upload, and is what it was behind it: in the rest of the last sector
that was erased, and behind this sector. -/
structure Upgraded (board after : Board) (size : UInt32) : Prop where
  written : ∀ index, index < size.toNat →
    after.flash index = board.ram (CONFIG_LOADADDR.toNat + index)
  kept : ∀ index, size.toNat ≤ index → after.flash index = board.flash index

/-- A board whose RAM holds the upload, and behind it what the flash has up to `whole`. -/
structure Saved (board saved : Board) (size whole : Nat) : Prop where
  flash : saved.flash = board.flash
  upload : ∀ index, index < size →
    saved.ram (CONFIG_LOADADDR.toNat + index) = board.ram (CONFIG_LOADADDR.toNat + index)
  tail : ∀ index, size ≤ index → index < whole →
    saved.ram (CONFIG_LOADADDR.toNat + index) = board.flash index

theorem erased_front : Erased (store flash 0 (List.replicate count 0xff)) 0 count := by
  intro index inside
  rw [store_inside (by rwa [List.length_replicate]), List.getElem_replicate]

/-- Erasing the whole sectors and writing them from RAM. -/
theorem rewrite_front {saved : Board} (some' : 0 < blocks) (within : blocks ≤ info.sectorCount) :
    runCommand info
        [.erase CFG_FLASH_BASE (UInt32.ofNat (blocks * info.sectorSize)),
          .cpB CONFIG_LOADADDR CFG_FLASH_BASE (UInt32.ofNat (blocks * info.sectorSize))] saved =
      (1, { saved with
        flash := store saved.flash 0
          (load saved.ram CONFIG_LOADADDR.toNat (blocks * info.sectorSize)) }) := by
  have full : 0 < blocks * info.sectorSize := Nat.mul_pos some' info.positive
  have copied := @doMemCp_toFlash info
    { saved with flash := store saved.flash 0 (List.replicate (blocks * info.sectorSize) 0xff) }
    _ full (info.blocks_le within) erased_front
  have again := @store_store _ saved.flash (List.replicate (blocks * info.sectorSize) 0xff) 0
    (load saved.ram CONFIG_LOADADDR.toNat (blocks * info.sectorSize))
    (by rw [load_length, List.length_replicate])
  simp only [runCommand, Command.run, doFlerase_front some' within, copied, if_true, again]

/-- What was saved comes back behind the upload. -/
theorem rewrite_upgraded {saved : Board} {whole : Nat} (held : Saved board saved size.toNat whole)
    (covers : size.toNat ≤ whole) :
    Upgraded board { saved with
      flash := store saved.flash 0 (load saved.ram CONFIG_LOADADDR.toNat whole) } size := by
  have inside : ∀ index, index < whole →
      store saved.flash 0 (load saved.ram CONFIG_LOADADDR.toNat whole) index =
        saved.ram (CONFIG_LOADADDR.toNat + index) := by
    intro index below
    have there := @store_inside _ saved.flash (load saved.ram CONFIG_LOADADDR.toNat whole) 0 index
      (by rwa [load_length])
    rw [Nat.zero_add, load_getElem] at there
    exact there
  constructor
  · intro index below
    exact (inside index (by omega)).trans (held.upload index below)
  · intro index behind
    by_cases below : index < whole
    · exact (inside index below).trans (held.tail index behind below)
    · have outside := @store_outside _ saved.flash
        (load saved.ram CONFIG_LOADADDR.toNat whole) 0 index (by rw [load_length]; omega)
      exact outside.trans (congrFun held.flash index)

/-- The first `cp.b` puts the rest of the last sector behind the upload. -/
theorem backup_saved {whole : Nat} (shorter : size.toNat < whole) (within : whole ≤ info.size) :
    ∃ saved, runCommand info [.cpB (CFG_FLASH_BASE + size) (CONFIG_LOADADDR + size)
        (UInt32.ofNat whole - size)] board = (1, saved) ∧ Saved board saved size.toNat whole := by
  have small := info.size_le
  have source : (CFG_FLASH_BASE + size).toNat = 0x9F000000 + size.toNat := by
    rw [UInt32.toNat_add, base_toNat]
    omega
  have target : (CONFIG_LOADADDR + size).toNat = CONFIG_LOADADDR.toNat + size.toNat := by
    rw [UInt32.toNat_add, loadAddr_toNat]
    omega
  have value : (UInt32.ofNat whole).toNat = whole := by
    rw [UInt32.toNat_ofNat', Nat.mod_eq_of_lt (by omega)]
  have missing : (UInt32.ofNat whole - size).toNat = whole - size.toNat := by
    rw [UInt32.toNat_sub_of_le _ _ (show size.toNat ≤ (UInt32.ofNat whole).toNat by omega), value]
  have some' : UInt32.ofNat whole - size ≠ 0 := by
    intro zero
    rw [zero, show (0 : UInt32).toNat = 0 from rfl] at missing
    omega
  have notFlash : ¬ info.InFlash (CONFIG_LOADADDR + size) := by
    rw [inFlash_iff, target, loadAddr_toNat]
    omega
  have copied := @copyBytes_fromFlash info board (CFG_FLASH_BASE + size) (CONFIG_LOADADDR + size)
    (whole - size.toNat) (by omega) (by omega) (by rw [target, loadAddr_toNat]; omega)
  rw [source, Nat.add_sub_cancel_left, target] at copied
  refine ⟨{ board with
    ram := store board.ram (CONFIG_LOADADDR.toNat + size.toNat)
      (load board.flash size.toNat (whole - size.toNat)) }, ?_, ?_⟩
  · simp only [runCommand, Command.run, doMemCp, if_neg some', if_neg notFlash, missing, copied,
      if_true]
  · constructor
    · rfl
    · intro index below
      exact store_outside (Or.inl (by omega))
    · intro index behind below
      have there := @store_inside _ board.ram (load board.flash size.toNat (whole - size.toNat))
        (CONFIG_LOADADDR.toNat + size.toNat) (index - size.toNat) (by rw [load_length]; omega)
      have place : CONFIG_LOADADDR.toNat + size.toNat + (index - size.toNat) =
          CONFIG_LOADADDR.toNat + index := by
        omega
      have offset : size.toNat + (index - size.toNat) = index := by omega
      rw [place, load_getElem, offset] at there
      exact there

/-- With no byte both commands fail, and the flash stays. -/
theorem rewrite_nothing : runCommand info
    [.erase CFG_FLASH_BASE 0, .cpB CONFIG_LOADADDR CFG_FLASH_BASE 0] board = (-1, board) := by
  have nowhere : addrSpec info CFG_FLASH_BASE 0 = none := by
    rw [addrSpec, Option.map_eq_none_iff, List.find?_eq_none]
    intro sect _ found
    have inside := (of_decide_eq_true found).2
    rw [FlashInfo.start, base_toNat, show (CFG_FLASH_BASE + 0 - 1).toNat = 0x9EFFFFFF from rfl] at inside
    omega
  have failed : doFlerase info CFG_FLASH_BASE 0 board = (false, board) := by
    rw [doFlerase, nowhere]
  have same : doMemCp info CONFIG_LOADADDR CFG_FLASH_BASE 0 board = (false, board) := if_pos rfl
  simp only [runCommand, Command.run, failed, same]
  rfl

/-- For every size that the bank has room for, the commands end, with the upload in front and all
else of the flash as it was. -/
theorem doHttpUpgrade_uboot (info : FlashInfo) (size : UInt32) (board : Board)
    (accepted : size.toNat ≤ info.size) :
    ∃ fuel rc after, doHttpUpgrade info fuel size board = some (rc, after) ∧
      (0 < size.toNat → rc = 1) ∧ Upgraded board after size := by
  have positive := info.positive
  have small := info.size_le
  obtain ⟨fuel, whole, within, ends, covers, tight⟩ := @backupLoop_ends info size 0 accepted
    (Nat.zero_le _) (by omega)
  rw [Nat.zero_mul, show UInt32.ofNat 0 = 0 from rfl] at ends
  have sector : (UInt32.ofNat info.sectorSize).toNat = info.sectorSize := by
    have one := info.blocks_le info.sectors
    rw [UInt32.toNat_ofNat', Nat.mod_eq_of_lt (by omega)]
  have rest : (size % UInt32.ofNat info.sectorSize).toNat = size.toNat % info.sectorSize := by
    rw [UInt32.toNat_mod, sector]
  have room := info.blocks_le within
  refine ⟨fuel, ?_⟩
  simp only [doHttpUpgrade, ends, Option.bind_eq_bind, Option.bind_some]
  by_cases partly : size % UInt32.ofNat info.sectorSize ≠ 0
  · have shorter : size.toNat < whole * info.sectorSize := by
      apply Nat.lt_of_le_of_ne covers
      intro same
      apply partly
      rw [← UInt32.toNat_inj, rest, same, Nat.mul_mod_left]
      rfl
    have some' : 0 < whole := Nat.pos_of_mul_pos_right (Nat.zero_lt_of_lt shorter)
    obtain ⟨saved, done, held⟩ := @backup_saved info board size _ shorter room
    refine ⟨1, _, ?_, fun _ => rfl, rewrite_upgraded held covers⟩
    simp only [if_pos partly, done, rewrite_front some' within]
    rfl
  · have aligned : size.toNat % info.sectorSize = 0 := by
      rw [← rest, not_not.mp partly]
      rfl
    have sectors := Nat.div_mul_cancel (Nat.dvd_of_mod_eq_zero aligned)
    have most : whole ≤ size.toNat / info.sectorSize := by
      apply Nat.le_of_lt_succ
      apply Nat.lt_of_mul_lt_mul_right
      rw [Nat.succ_mul, sectors]
      exact tight
    have exact' : whole * info.sectorSize = size.toNat :=
      Nat.le_antisymm (sectors ▸ Nat.mul_le_mul_right _ most) covers
    have held : Saved board board size.toNat (whole * info.sectorSize) := by
      constructor
      · rfl
      · intro index _
        rfl
      · intro index behind below
        omega
    rcases Nat.eq_zero_or_pos whole with nothing | some'
    · have empty : size.toNat = 0 := by rw [← exact', nothing, Nat.zero_mul]
      refine ⟨-1, board, ?_, by omega, ?_⟩
      · rw [nothing, Nat.zero_mul]
        simp only [if_neg partly]
        exact congrArg some rewrite_nothing
      · constructor
        · intro index below
          omega
        · intro index _
          rfl
    · refine ⟨1, _, ?_, fun _ => rfl, rewrite_upgraded held covers⟩
      simp only [if_neg partly, rewrite_front some' within]
      rfl

/-- A chip of 8 MiB in sectors of 64 KiB -/
def spi8M : FlashInfo where
  sectorSize := 0x10000
  sectorCount := 128
  sectors := by decide
  sized := by decide
  fits := by decide

/-- An image that ends inside the second sector -/
theorem doHttpUpgrade_second_sector : ∃ fuel rc after,
    doHttpUpgrade spi8M fuel 0x1EBF0 ⟨fun _ => 0x42, fun index => UInt8.ofNat index⟩ =
      some (rc, after) ∧
    (0 < (0x1EBF0 : UInt32).toNat → rc = 1) ∧
    Upgraded ⟨fun _ => 0x42, fun index => UInt8.ofNat index⟩ after 0x1EBF0 :=
  doHttpUpgrade_uboot spi8M 0x1EBF0 _ (by decide)

end

end Rut9xx.Flash
