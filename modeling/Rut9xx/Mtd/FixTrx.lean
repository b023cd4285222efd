import Rut9xx.Data.Align
import Rut9xx.Data.Endian
import Rut9xx.Mtd.HeaderFix
import Rut9xx.Mtd.Jffs2

namespace Rut9xx.Mtd.FixTrx

open Rut9xx.Data

/-! # Repairing a TRX header (`trx.c`)

The command is built for targets with little-endian cores.
-/

def TRX_MAGIC : List UInt8 := [0x48, 0x44, 0x52, 0x30]

def TRX_CRC32_DATA_OFFSET : UInt32 := 12

def TRX_CRC32_DATA_SIZE : UInt32 := 16

def crc32buf (buf : List UInt8) : UInt32 := crc32 0xffffffff buf

variable (board : Board) (host : Host) (memory : FlashMemory) (dev : Nat)

/-- Up to the end of the block. -/
def readChunk (erasesize dataOffset dataSize : UInt32) : UInt32 :=
  let left := erasesize - (dataOffset &&& (erasesize - 1))
  if left < dataSize then left else dataSize

/-- The bytes from `dataOffset` on that lie in good blocks.  A round takes at
least one byte, so `fuel` beyond their number is not used up. -/
def readGood (globals : Globals) : Nat → UInt32 → UInt32 → Option (List UInt8)
  | 0, _, _ => none
  | fuel + 1, dataOffset, dataSize =>
      if dataSize = 0 then some []
      else do
        let erasesize := UInt32.ofNat globals.erasesize
        let readBlockOffset := dataOffset &&& ~~~(erasesize - 1)
        let readChunk := readChunk erasesize dataOffset dataSize
        let bad ← mtdBlockIsBad globals (board.chip dev) readBlockOffset.toNat
        let chunk ←
          (if bad then some [] else pread board host memory dev readChunk.toNat dataOffset.toNat)
        let rest ← readGood globals fuel (dataOffset + readChunk) (dataSize - readChunk)
        return chunk ++ rest

def trxLen (buf : List UInt8) : List UInt8 :=
  le32 (UInt32.ofNat buf.length + TRX_CRC32_DATA_OFFSET)

def trxCrc (buf : List UInt8) : List UInt8 := le32 (crc32buf buf)

/-- The checksum is looked at only behind the right length. -/
def alreadyFixed (firstBlock : List UInt8) (offset : Nat) (buf : List UInt8) : Except Halt Bool := do
  let len ← orStuck (readAt firstBlock (offset + 4) 4)
  if len = trxLen buf then
    let crc ← orStuck (readAt firstBlock (offset + 8) 4)
    return decide (crc = trxCrc buf)
  else return false

/-- The copy of the block with the fields set; `none` if they are right already. -/
def fixFields (firstBlock : List UInt8) (offset : Nat) (buf : List UInt8) :
    Except Halt (Option (List UInt8)) := do
  let fixed ← alreadyFixed firstBlock offset buf
  if fixed then return none
  else
    let firstBlock ← orStuck (writeAt firstBlock (offset + 4) (trxLen buf))
    let firstBlock ← orStuck (writeAt firstBlock (offset + 8) (trxCrc buf))
    return some firstBlock

/-- How many bytes behind the checksum it covers. -/
def hashedSize (erasesize dataSize : UInt32) : UInt32 :=
  if dataSize ≠ 0 then dataSize + TRX_CRC32_DATA_SIZE else erasesize - TRX_CRC32_DATA_OFFSET

def mtdFixtrx (offset dataSize : UInt32) : Except Halt (List FlashEvent) := do
  let globals ← orExit (mtdCheckOpen board dev)
  let erasesize := UInt32.ofNat globals.erasesize
  let dataOffset := offset + TRX_CRC32_DATA_OFFSET
  let dataSize := hashedSize erasesize dataSize
  let blockOffset := offset &&& ~~~(erasesize - 1)
  let inBlock := (offset - blockOffset).toNat
  let _ ← orExit (require (dataOffset + dataSize ≤ UInt32.ofNat globals.mtdsize))
  let _ ← orExit (require host.blockAllocated)
  let firstBlock ← orExit (pread board host memory dev globals.erasesize blockOffset.toNat)
  let magic ← orStuck (readAt firstBlock inBlock 4)
  let _ ← orExit (require (magic = TRX_MAGIC))
  let _ ← orExit (require host.dataAllocated)
  let buf ← orExit (readGood board host memory dev globals (dataSize.toNat + 1) dataOffset dataSize)
  let fixed ← fixFields firstBlock inBlock buf
  match fixed with
  | none => return []
  | some firstBlock => rewriteBlock board dev globals blockOffset.toNat firstBlock

/-! ## What is hashed -/

variable {board : Board} {host : Host} {memory : FlashMemory} {dev bits start count more fuel : Nat}
  {cells : Memory UInt8} {chip : Chip} {buf : List UInt8}

/-- Of the bytes from `start` on, those in good blocks. -/
def goodBytes (chip : Chip) (cells : Memory UInt8) (start count : Nat) : List UInt8 :=
  ((List.range' start count).filter fun place => chip.isGood (place / chip.erasesize)).map cells

theorem goodBytes_add : goodBytes chip cells start (count + more) =
    goodBytes chip cells start count ++ goodBytes chip cells (start + count) more := by
  have split : List.range' start (count + more) =
      List.range' start count ++ List.range' (start + count) more := by
    rw [List.range'_append_1]
  rw [goodBytes, split, List.filter_append, List.map_append]
  rfl

/-- In one block, all or none. -/
theorem goodBytes_block (within : start % chip.erasesize + count ≤ chip.erasesize) :
    goodBytes chip cells start count =
      if chip.isGood (start / chip.erasesize) then load cells start count else [] := by
  have same : ∀ place ∈ List.range' start count, place / chip.erasesize = start / chip.erasesize := by
    intro place member
    obtain ⟨above, below⟩ := List.mem_range'_1.mp member
    have divided := Nat.div_add_mod start chip.erasesize
    rw [Nat.mul_comm] at divided
    refine Nat.div_eq_of_lt_le (by omega) ?_
    rw [Nat.succ_mul]
    omega
  have filtered : ((List.range' start count).filter fun place =>
      chip.isGood (place / chip.erasesize)) =
        if chip.isGood (start / chip.erasesize) then List.range' start count else [] := by
    split
    · rename_i good
      exact List.filter_eq_self.mpr fun place member => (same place member) ▸ good
    · rename_i bad
      exact List.filter_eq_nil_iff.mpr fun place member => (same place member) ▸ bad
  rw [goodBytes, filtered]
  split
  · rw [load, List.range'_eq_map_range, List.map_map]
    rfl
  · rfl

theorem goodBytes_congr {after : Memory UInt8}
    (same : ∀ place, start ≤ place → place < start + count → after place = cells place) :
    goodBytes chip after start count = goodBytes chip cells start count := by
  refine List.map_congr_left fun place member => ?_
  obtain ⟨above, below⟩ := List.mem_range'_1.mp (List.mem_filter.mp member).1
  exact same place above below

theorem readChunk_spec {erasesize dataOffset dataSize : UInt32} (power : erasesize.toNat = 2 ^ bits)
    (some' : dataSize ≠ 0) :
    0 < (readChunk erasesize dataOffset dataSize).toNat ∧
      (readChunk erasesize dataOffset dataSize).toNat ≤ dataSize.toNat ∧
      dataOffset.toNat % erasesize.toNat + (readChunk erasesize dataOffset dataSize).toNat ≤
        erasesize.toNat := by
  have positive : 0 < dataSize.toNat := by
    refine Nat.pos_of_ne_zero fun zero => some' ?_
    exact UInt32.toNat_inj.mp zero
  have blockPositive : 0 < erasesize.toNat := power ▸ Nat.two_pow_pos bits
  have masked : (dataOffset &&& (erasesize - 1)).toNat = dataOffset.toNat % erasesize.toNat := by
    rw [and_mask_toNat power, power]
  have inside := Nat.mod_lt dataOffset.toNat blockPositive
  have left : (erasesize - (dataOffset &&& (erasesize - 1))).toNat =
      erasesize.toNat - dataOffset.toNat % erasesize.toNat := by
    rw [UInt32.toNat_sub_of_le _ _ (UInt32.le_iff_toNat_le.mpr (by omega)), masked]
  rw [readChunk]
  split
  · rename_i below
    rw [UInt32.lt_iff_toNat_lt, left] at below
    rw [left]
    omega
  · rename_i above
    rw [UInt32.lt_iff_toNat_lt, left] at above
    omega

variable {dataOffset dataSize : UInt32}

/-- A chunk inside the device moves both pointers without wrapping. -/
theorem readChunk_next {chunk : UInt32} (small : chip.size < 2 ^ 31)
    (inside : dataOffset.toNat + chunk.toNat ≤ chip.size) (within : chunk.toNat ≤ dataSize.toNat) :
    (dataOffset + chunk).toNat = dataOffset.toNat + chunk.toNat ∧
      (dataSize - chunk).toNat = dataSize.toNat - chunk.toNat := by
  constructor
  · rw [UInt32.toNat_add, Nat.mod_eq_of_lt (by omega)]
  · exact UInt32.toNat_sub_of_le _ _ (UInt32.le_iff_toNat_le.mpr within)

theorem goodBytes_chunk {chunk : Nat} (within : chunk ≤ count) :
    goodBytes chip cells start count =
      goodBytes chip cells start chunk ++ goodBytes chip cells (start + chunk) (count - chunk) := by
  rw [← goodBytes_add, Nat.add_sub_cancel' within]

/-- What the loop delivers lies on the device. -/
theorem readGood_some (power : (board.chip dev).erasesize = 2 ^ bits)
    (ran : readGood board host memory dev (board.chip dev).globals fuel dataOffset dataSize =
      some buf) :
    (dataSize ≠ 0 → dataOffset.toNat + dataSize.toNat ≤ (board.chip dev).size) ∧
      buf = goodBytes (board.chip dev) (memory dev) dataOffset.toNat dataSize.toNat := by
  have positive := (board.chip dev).erasesize_pos
  have esNat := (board.chip dev).erasesize_toNat
  have powerWord := esNat.trans power
  induction fuel generalizing dataOffset dataSize buf with
  | zero => cases ran
  | succ fuel ih =>
      rw [readGood] at ran
      split at ran
      · rename_i zero
        rw [Option.some.injEq] at ran
        exact ⟨fun some' => absurd zero some', by rw [← ran, zero]; rfl⟩
      · rename_i some'
        obtain ⟨chunkPositive, within, inBlock⟩ :=
          @readChunk_spec bits _ dataOffset dataSize powerWord some'
        simp only at ran
        generalize readChunk (UInt32.ofNat (board.chip dev).erasesize) dataOffset dataSize = chunk
          at ran chunkPositive within inBlock
        rw [and_not_mask_toNat powerWord] at ran
        rw [esNat] at ran inBlock
        obtain ⟨bad, answer, ran⟩ := Option.bind_eq_some_iff.mp ran
        obtain ⟨read, readEq, ran⟩ := Option.bind_eq_some_iff.mp ran
        obtain ⟨rest, restEq, ran⟩ := Option.bind_eq_some_iff.mp ran
        rw [Option.pure_def, Option.some.injEq] at ran
        obtain ⟨isBad, onNand⟩ := @mtdBlockIsBad_block _ (board.chip dev) _ _ rfl answer
        have block := @goodBytes_block dataOffset.toNat chunk.toNat (memory dev) _ inBlock
        have piece : dataOffset.toNat + chunk.toNat ≤ (board.chip dev).size ∧
            read = goodBytes (board.chip dev) (memory dev) dataOffset.toNat chunk.toNat := by
          cases bad with
          | true =>
              have nand : (board.chip dev).nand = true := by
                rw [Chip.isBad, Bool.and_eq_true] at isBad
                exact isBad.1
              have below := Nat.mul_le_mul_right (board.chip dev).erasesize (onNand nand)
              have divided := Nat.div_add_mod dataOffset.toNat (board.chip dev).erasesize
              rw [Nat.mul_comm] at divided
              rw [Nat.succ_mul, ← Chip.size_eq] at below
              have notGood : ¬ (board.chip dev).isGood
                  (dataOffset.toNat / (board.chip dev).erasesize) = true := Chip.not_isGood.mpr isBad
              rw [if_pos rfl, Option.some.injEq] at readEq
              exact ⟨by omega, by rw [block, if_neg notGood, ← readEq]⟩
          | false =>
              have good : (board.chip dev).isGood
                  (dataOffset.toNat / (board.chip dev).erasesize) = true := by
                rw [Chip.isGood, isBad, Bool.not_false]
              simp only [Bool.false_eq_true, if_false, pread] at readEq
              split at readEq
              · rename_i done
                rw [Option.some.injEq] at readEq
                exact ⟨by omega, by rw [block, if_pos good, ← readEq]⟩
              · cases readEq
        obtain ⟨inside, readIs⟩ := piece
        obtain ⟨offsetNext, sizeNext⟩ :=
          @readChunk_next _ dataOffset dataSize chunk (board.chip dev).small inside within
        obtain ⟨restInside, restIs⟩ := ih restEq
        rw [offsetNext, sizeNext] at restInside restIs
        refine ⟨fun _ => ?_, by rw [← ran, readIs, restIs, goodBytes_chunk within]⟩
        by_cases last : dataSize - chunk = 0
        · rw [last] at sizeNext
          simp only [UInt32.reduceToNat] at sizeNext
          omega
        · have := restInside last
          omega

/-- A range on the device is read, when nothing fails. -/
theorem readGood_exists (power : (board.chip dev).erasesize = 2 ^ bits)
    (enough : dataSize.toNat < fuel)
    (inside : dataOffset.toNat + dataSize.toNat ≤ (board.chip dev).size) :
    ∃ buf, readGood board Host.sound memory dev (board.chip dev).globals fuel dataOffset dataSize =
      some buf := by
  have positive := (board.chip dev).erasesize_pos
  have esNat := (board.chip dev).erasesize_toNat
  have powerWord := esNat.trans power
  induction fuel generalizing dataOffset dataSize with
  | zero => omega
  | succ fuel ih =>
      rw [readGood]
      split
      · exact ⟨[], rfl⟩
      · rename_i some'
        obtain ⟨chunkPositive, within, inBlock⟩ :=
          @readChunk_spec bits _ dataOffset dataSize powerWord some'
        simp only
        generalize readChunk (UInt32.ofNat (board.chip dev).erasesize) dataOffset dataSize = chunk
          at chunkPositive within inBlock ⊢
        rw [and_not_mask_toNat powerWord, esNat]
        have below := Nat.div_mul_le_self dataOffset.toNat (board.chip dev).erasesize
        have answered : ∃ bad, mtdBlockIsBad (board.chip dev).globals (board.chip dev)
            (dataOffset.toNat / (board.chip dev).erasesize * (board.chip dev).erasesize) =
              some bad := by
          have onDevice : dataOffset.toNat / (board.chip dev).erasesize * (board.chip dev).erasesize <
              (board.chip dev).size := by omega
          rw [mtdBlockIsBad, Chip.getBadBlock, if_pos onDevice]
          split
          · exact ⟨_, rfl⟩
          · exact ⟨_, rfl⟩
        have readable : ∃ read, pread board Host.sound memory dev chunk.toNat dataOffset.toNat =
            some read := ⟨_, if_pos ⟨.inr (by omega), rfl⟩⟩
        obtain ⟨offsetNext, sizeNext⟩ :=
          @readChunk_next (board.chip dev) dataOffset dataSize chunk (board.chip dev).small (by omega) within
        obtain ⟨bad, answer⟩ := answered
        obtain ⟨read, readEq⟩ := readable
        obtain ⟨rest, restEq⟩ := @ih (dataOffset + chunk) (dataSize - chunk) (by omega) (by omega)
        cases bad with
        | true => exact ⟨[] ++ rest, by simp [answer, restEq]⟩
        | false => exact ⟨read ++ rest, by simp [answer, readEq, restEq]⟩

/-! ## The repair -/

variable {offset base inBlock : Nat}

/-- The block's copy shows the header, so the fields are those on flash. -/
theorem alreadyFixed_load (room : inBlock + 12 ≤ count) :
    alreadyFixed (load cells base count) inBlock buf =
      .ok (decide (load cells (base + inBlock + 4) 4 = trxLen buf ∧
        load cells (base + inBlock + 8) 4 = trxCrc buf)) := by
  rw [alreadyFixed, readAt_load, readAt_load, if_pos (by omega), if_pos (by omega)]
  simp only [orStuck, ← Nat.add_assoc]
  by_cases len : load cells (base + inBlock + 4) 4 = trxLen buf
  · simp [len, bind, Except.bind, pure, Except.pure]
  · simp [len, bind, Except.bind, pure, Except.pure]

def setFields (cells : Memory UInt8) (offset : Nat) (buf : List UInt8) : Memory UInt8 :=
  storeAll cells [(offset + 4, trxLen buf), (offset + 8, trxCrc buf)]

theorem fixFields_load (room : inBlock + 12 ≤ count) :
    fixFields (load cells base count) inBlock buf =
      .ok (if load cells (base + inBlock + 4) 4 = trxLen buf ∧
          load cells (base + inBlock + 8) 4 = trxCrc buf then none
        else some (load (setFields cells (base + inBlock) buf) base count)) := by
  have lenFits : inBlock + 4 + (trxLen buf).length ≤ count := by
    simp only [trxLen, le32_length]
    omega
  have crcFits : inBlock + 8 + (trxCrc buf).length ≤ count := by
    simp only [trxCrc, le32_length]
    omega
  rw [fixFields, alreadyFixed_load room, writeAt_load, if_pos lenFits]
  simp only [orStuck, bind, Except.bind]
  rw [writeAt_load, if_pos crcFits]
  simp only [decide_eq_true_eq, ← Nat.add_assoc]
  split
  · rfl
  · rfl

/-- A header that ends behind the block makes the program leave its copy. -/
theorem fixFields_stuck (room : count < inBlock + 12) :
    fixFields (load cells base count) inBlock buf = .error (.stuck []) := by
  have crcOutside : ¬ inBlock + 8 + (trxCrc buf).length ≤ count := by
    simp only [trxCrc, le32_length]
    omega
  rw [fixFields, alreadyFixed, readAt_load, readAt_load, if_neg (by omega : ¬ inBlock + 8 + 4 ≤ count)]
  simp only [writeAt_load, orStuck, bind, Except.bind]
  by_cases lenInside : inBlock + 4 + 4 ≤ count
  · have lenFits : inBlock + 4 + (trxLen buf).length ≤ count := lenInside
    simp only [if_pos lenInside]
    by_cases len : load cells (base + (inBlock + 4)) 4 = trxLen buf
    · simp only [len, if_true]
    · simp only [len, if_false, pure, Except.pure, Bool.false_eq_true, if_pos lenFits]
      rw [writeAt_load, if_neg crcOutside]
  · simp only [if_neg lenInside]

variable (board memory dev) in
/-- The good bytes behind the checksum. -/
def covered (offset dataSize : UInt32) : List UInt8 :=
  goodBytes (board.chip dev) (memory dev) (offset.toNat + 12)
    (hashedSize (UInt32.ofNat (board.chip dev).erasesize) dataSize).toNat

variable (board memory dev) in
def FieldsRight (offset dataSize : UInt32) : Prop :=
  load (memory dev) (offset.toNat + 4) 4 = trxLen (covered board memory dev offset dataSize) ∧
    load (memory dev) (offset.toNat + 8) 4 = trxCrc (covered board memory dev offset dataSize)

variable (board memory dev) in
/-- Ends of a call whose header lies in one block. -/
def TrxOutcome (offset dataSize : UInt32) (call : Except Halt (List FlashEvent)) : Prop :=
  (FieldsRight board memory dev offset dataSize → WritesNothing call) ∧
    (¬ FieldsRight board memory dev offset dataSize → (∃ log, call = .error (.exit log)) ∨
      call = .ok (fillSlot (board.chip dev).erasesize
        ⟨dev, offset.toNat / (board.chip dev).erasesize⟩
        (load (setFields (memory dev) offset.toNat (covered board memory dev offset dataSize))
          (offset.toNat / (board.chip dev).erasesize * (board.chip dev).erasesize)
          (board.chip dev).erasesize)))

variable {offset dataSize : UInt32}

theorem offset_split (power : (board.chip dev).erasesize = 2 ^ bits) :
    let blockOffset := offset &&& ~~~(UInt32.ofNat (board.chip dev).erasesize - 1)
    blockOffset.toNat =
        offset.toNat / (board.chip dev).erasesize * (board.chip dev).erasesize ∧
      (offset - blockOffset).toNat = offset.toNat % (board.chip dev).erasesize := by
  intro blockOffset
  have esNat := (board.chip dev).erasesize_toNat
  have block : blockOffset.toNat =
      offset.toNat / (board.chip dev).erasesize * (board.chip dev).erasesize := by
    rw [and_not_mask_toNat (esNat.trans power), esNat]
  have divided := Nat.div_add_mod offset.toNat (board.chip dev).erasesize
  rw [Nat.mul_comm] at divided
  refine ⟨block, ?_⟩
  rw [UInt32.toNat_sub_of_le _ _ (UInt32.le_iff_toNat_le.mpr (by omega))]
  omega

theorem mtdFixtrx_outcome (power : (board.chip dev).erasesize = 2 ^ bits)
    (room : offset.toNat % (board.chip dev).erasesize + 12 ≤ (board.chip dev).erasesize) :
    TrxOutcome board memory dev offset dataSize
      (mtdFixtrx board host memory dev offset dataSize) := by
  have ends : TrxOutcome board memory dev offset dataSize (.error (.exit [])) :=
    ⟨fun _ => .inr rfl, fun _ => .inl ⟨[], rfl⟩⟩
  obtain ⟨block, inBlock⟩ := @offset_split board dev bits offset power
  have divided := Nat.div_add_mod offset.toNat (board.chip dev).erasesize
  rw [Nat.mul_comm] at divided
  have small := (board.chip dev).small
  have positive := (board.chip dev).erasesize_pos
  refine orExit_bind _ ends fun globals opened => ?_
  have globalsEq := mtdCheckOpen_eq opened
  subst globalsEq
  refine orExit_bind _ ends fun _ _ => orExit_bind _ ends fun _ _ => orExit_bind _ ends
    fun firstBlock blockRead => ?_
  rw [block] at blockRead
  obtain ⟨inside, blockIs⟩ := pread_some blockRead
  simp only at inside
  have magicInside : offset.toNat % (board.chip dev).erasesize + 4 ≤ (board.chip dev).erasesize := by
    omega
  rw [blockIs, inBlock, block, readAt_load, if_pos magicInside]
  refine orExit_bind _ ends fun _ _ => orExit_bind _ ends fun _ _ => orExit_bind _ ends
    fun buf hashed => ?_
  have dataOffset : (offset + TRX_CRC32_DATA_OFFSET).toNat = offset.toNat + 12 := by
    rw [UInt32.toNat_add, Nat.mod_eq_of_lt]
    · rfl
    · change offset.toNat + 12 < 2 ^ 32
      omega
  have bufIs : buf = covered board memory dev offset dataSize := by
    rw [(readGood_some power hashed).2, dataOffset]
    rfl
  rw [bufIs, fixFields_load room, divided]
  by_cases right : FieldsRight board memory dev offset dataSize
  · have right' := right
    rw [FieldsRight] at right'
    simp only [right', and_self, if_true]
    exact ⟨fun _ => .inl rfl, fun wrong => absurd right wrong⟩
  · have wrong := right
    rw [FieldsRight] at wrong
    simp only [if_neg wrong]
    refine ⟨fun claimed => absurd claimed right, fun _ => ?_⟩
    have blockInside : offset.toNat / (board.chip dev).erasesize < (board.chip dev).blocks := by
      refine Nat.lt_of_mul_lt_mul_right (a := (board.chip dev).erasesize) ?_
      rw [← Chip.size_eq]
      omega
    exact rewriteBlock_cases load_length blockInside

/-! ## Storing the fields -/

theorem setFields_len : load (setFields cells base buf) (base + 4) 4 = trxLen buf := by
  refine @load_storeAll _ cells _ (base + 4, trxLen buf) ?_ List.mem_cons_self
  simp [trxLen]

theorem setFields_crc : load (setFields cells base buf) (base + 8) 4 = trxCrc buf := by
  refine @load_storeAll _ cells _ (base + 8, trxCrc buf) ?_ (by simp)
  simp [trxLen]

theorem setFields_outside {place : Nat} (outside : place < base + 4 ∨ base + 12 ≤ place) :
    setFields cells base buf place = cells place := by
  refine storeAll_elsewhere fun write member => ?_
  simp only [List.mem_cons, List.not_mem_nil, or_false] at member
  rcases member with rfl | rfl
  · simp only [trxLen, le32_length]
    omega
  · simp only [trxCrc, le32_length]
    omega

variable (board memory dev) in
/-- What is promised of a call that returned and did `log`. -/
structure Fixed (offset dataSize : UInt32) (log : List FlashEvent) : Prop where
  fields : FieldsRight board (replay memory log) dev offset dataSize
  others : ∀ other place, other ≠ dev ∨ place < offset.toNat + 4 ∨ offset.toNat + 12 ≤ place →
    replay memory log other place = memory other place
  again : ∀ host, WritesNothing (mtdFixtrx board host (replay memory log) dev offset dataSize)

theorem mtdFixtrx_fixed {log : List FlashEvent} (power : (board.chip dev).erasesize = 2 ^ bits)
    (room : offset.toNat % (board.chip dev).erasesize + 12 ≤ (board.chip dev).erasesize)
    (returned : MayReturn (mtdFixtrx board host memory dev offset dataSize) log) :
    Fixed board memory dev offset dataSize log := by
  have once := @mtdFixtrx_outcome board host memory dev bits offset dataSize power room
  generalize mtdFixtrx board host memory dev offset dataSize = call at once returned
  by_cases right : FieldsRight board memory dev offset dataSize
  · have unchanged : log = [] := by
      rcases once.1 right with rfl | rfl
      · exact returned
      · exact returned.elim
    subst unchanged
    exact ⟨right, fun _ _ _ => rfl, fun _ => (mtdFixtrx_outcome power room).1 right⟩
  · have divided := Nat.div_add_mod offset.toNat (board.chip dev).erasesize
    rw [Nat.mul_comm] at divided
    have filled : log = fillSlot (board.chip dev).erasesize
        ⟨dev, offset.toNat / (board.chip dev).erasesize⟩
        (load (setFields (memory dev) offset.toNat (covered board memory dev offset dataSize))
          (offset.toNat / (board.chip dev).erasesize * (board.chip dev).erasesize)
          (board.chip dev).erasesize) := by
      rcases once.2 right with ⟨_, rfl⟩ | rfl
      · exact returned.elim
      · exact returned
    have after := @replay_fillSlot_load memory
      ⟨dev, offset.toNat / (board.chip dev).erasesize⟩ (board.chip dev).erasesize
      (setFields (memory dev) offset.toNat (covered board memory dev offset dataSize))
      fun place outside => setFields_outside (by
        simp only at outside
        omega)
    rw [← filled] at after
    have same : covered board (replay memory log) dev offset dataSize =
        covered board memory dev offset dataSize := by
      refine goodBytes_congr fun place above _ => ?_
      rw [after, Function.update_self]
      exact setFields_outside (.inr above)
    have fields : FieldsRight board (replay memory log) dev offset dataSize := by
      rw [FieldsRight, same, after, Function.update_self]
      exact ⟨setFields_len, setFields_crc⟩
    refine ⟨fields, fun other place outside => ?_, fun _ => (mtdFixtrx_outcome power room).1 fields⟩
    rw [after]
    by_cases onDev : other = dev
    · subst onDev
      rw [Function.update_self]
      exact setFields_outside (by omega)
    · rw [Function.update_of_ne onDev]

variable (board memory dev) in
/-- Whatever fails beside the chip. -/
def FixesTrx (offset dataSize : UInt32) : Prop :=
  ∀ host log, MayReturn (mtdFixtrx board host memory dev offset dataSize) log →
    Fixed board memory dev offset dataSize log

variable (board memory dev) in
def HasTrxMagic (offset : UInt32) : Prop :=
  offset.toNat + 4 ≤ (board.chip dev).size ∧ load (memory dev) offset.toNat 4 = TRX_MAGIC

/-! ## When the header is repaired -/

/-- A call that leaves its memory may also write to another device. -/
theorem another_log (memory : FlashMemory) (dev : Nat) :
    ∃ log, replay memory log (dev + 1) 0 ≠ memory (dev + 1) 0 := by
  by_cases erased : memory (dev + 1) 0 = 0xff
  · refine ⟨[.program (dev + 1) 0 [0]], fun same => ?_⟩
    rw [erased] at same
    simp [replay, FlashEvent.apply, FlashEvent.dev, FlashEvent.start, FlashEvent.len,
      FlashEvent.value] at same
  · refine ⟨[.erase (dev + 1) 0 1], fun same => erased ?_⟩
    rw [← same]
    simp [replay, FlashEvent.apply, FlashEvent.dev, FlashEvent.start, FlashEvent.len,
      FlashEvent.value]

variable (board dev) in
/-- What the call does before it looks at the length. -/
def StopsBefore (offset dataSize : UInt32) : Prop :=
  let covers := hashedSize (UInt32.ofNat (board.chip dev).erasesize) dataSize
  board.opens dev = false ∨ (board.chip dev).size < (offset + 12 + covers).toNat ∨
    offset.toNat % (board.chip dev).erasesize + 4 ≤ (board.chip dev).erasesize ∧
      2 ^ 32 ≤ offset.toNat + 12 + covers.toNat

theorem mtdFixtrx_stops (power : (board.chip dev).erasesize = 2 ^ bits)
    (header : HasTrxMagic board memory dev offset) (stops : StopsBefore board dev offset dataSize) :
    ∃ log, mtdFixtrx board host memory dev offset dataSize = .error (.exit log) := by
  obtain ⟨block, inBlock⟩ := @offset_split board dev bits offset power
  obtain ⟨onDevice, magic⟩ := header
  have divided := Nat.div_add_mod offset.toNat (board.chip dev).erasesize
  rw [Nat.mul_comm] at divided
  have small := (board.chip dev).small
  have dataOffset : (offset + TRX_CRC32_DATA_OFFSET).toNat = offset.toNat + 12 := by
    rw [UInt32.toNat_add, Nat.mod_eq_of_lt]
    · rfl
    · change offset.toNat + 12 < 2 ^ 32
      omega
  let Stops := fun call : Except Halt (List FlashEvent) => ∃ log, call = .error (.exit log)
  have ends : Stops (.error (.exit [])) := ⟨[], rfl⟩
  refine orExit_bind Stops ends fun globals opened => ?_
  have globalsEq := mtdCheckOpen_eq opened
  subst globalsEq
  refine orExit_bind Stops ends fun _ reaches => orExit_bind Stops ends fun _ _ =>
    orExit_bind Stops ends fun firstBlock blockRead => ?_
  rw [require_eq_some, decide_eq_true_eq, UInt32.le_iff_toNat_le, (board.chip dev).size_toNat]
    at reaches
  obtain opensNot | beyond | ⟨magicInside, wraps⟩ := stops
  · rw [mtdCheckOpen, opensNot] at opened
    cases opened
  · exact absurd reaches (Nat.not_le.mpr beyond)
  · rw [block] at blockRead
    obtain ⟨inside, blockIs⟩ := pread_some blockRead
    rw [blockIs, inBlock, block, readAt_load, if_pos magicInside]
    refine orExit_bind Stops ends fun _ _ => orExit_bind Stops ends fun _ _ =>
      orExit_bind Stops ends fun buf hashed => ?_
    have onIt := (readGood_some power hashed).1
    rw [dataOffset] at onIt
    simp only at onIt
    by_cases none' : hashedSize (UInt32.ofNat (board.chip dev).erasesize) dataSize = 0
    · rw [none', UInt32.toNat_zero] at wraps
      omega
    · have := onIt none'
      omega

theorem mtdFixtrx_sound_stuck (power : (board.chip dev).erasesize = 2 ^ bits)
    (header : HasTrxMagic board memory dev offset)
    (room : ¬ offset.toNat % (board.chip dev).erasesize + 12 ≤ (board.chip dev).erasesize)
    (goesOn : ¬ StopsBefore board dev offset dataSize) :
    mtdFixtrx board Host.sound memory dev offset dataSize = .error (.stuck []) := by
  obtain ⟨block, inBlock⟩ := @offset_split board dev bits offset power
  obtain ⟨onDevice, magic⟩ := header
  obtain ⟨opens, reaches, straight⟩ := not_or.mp goesOn |>.imp id not_or.mp
  have positive := (board.chip dev).erasesize_pos
  have divided := Nat.div_add_mod offset.toNat (board.chip dev).erasesize
  rw [Nat.mul_comm] at divided
  have small := (board.chip dev).small
  have blockInside : offset.toNat / (board.chip dev).erasesize < (board.chip dev).blocks := by
    refine Nat.lt_of_mul_lt_mul_right (a := (board.chip dev).erasesize) ?_
    rw [← Chip.size_eq]
    omega
  have below := Nat.mul_le_mul_right (board.chip dev).erasesize blockInside
  rw [Nat.succ_mul, ← Chip.size_eq] at below
  have opened : mtdCheckOpen board dev = some (board.chip dev).globals := by
    rw [mtdCheckOpen, if_pos (by simpa using opens)]
  have blockRead : pread board Host.sound memory dev (board.chip dev).erasesize
      (offset.toNat / (board.chip dev).erasesize * (board.chip dev).erasesize) =
        some (load (memory dev)
          (offset.toNat / (board.chip dev).erasesize * (board.chip dev).erasesize)
          (board.chip dev).erasesize) := if_pos ⟨.inr below, rfl⟩
  have inRange : offset + TRX_CRC32_DATA_OFFSET +
      hashedSize (UInt32.ofNat (board.chip dev).erasesize) dataSize ≤
        UInt32.ofNat (board.chip dev).size := by
    rw [UInt32.le_iff_toNat_le, (board.chip dev).size_toNat]
    exact Nat.not_lt.mp reaches
  have dataOffset : (offset + TRX_CRC32_DATA_OFFSET).toNat = offset.toNat + 12 := by
    rw [UInt32.toNat_add, Nat.mod_eq_of_lt]
    · rfl
    · change offset.toNat + 12 < 2 ^ 32
      omega
  rw [mtdFixtrx, opened, orExit_some_bind]
  simp only
  have allocated : Host.sound.blockAllocated = true ∧ Host.sound.dataAllocated = true := ⟨rfl, rfl⟩
  rw [orExit_require_bind (decide_eq_true inRange), orExit_require_bind allocated.1, block, inBlock,
    blockRead, orExit_some_bind, readAt_load]
  by_cases magicInside : offset.toNat % (board.chip dev).erasesize + 4 ≤ (board.chip dev).erasesize
  · have noWrap : offset.toNat + 12 +
        (hashedSize (UInt32.ofNat (board.chip dev).erasesize) dataSize).toNat < 2 ^ 32 :=
      Nat.not_le.mp fun wraps => straight ⟨magicInside, wraps⟩
    rw [UInt32.le_iff_toNat_le, UInt32.toNat_add, dataOffset, Nat.mod_eq_of_lt noWrap,
      (board.chip dev).size_toNat] at inRange
    obtain ⟨buf, hashed⟩ := @readGood_exists board memory dev bits
      ((hashedSize (UInt32.ofNat (board.chip dev).erasesize) dataSize).toNat + 1)
      (offset + TRX_CRC32_DATA_OFFSET) (hashedSize (UInt32.ofNat (board.chip dev).erasesize) dataSize)
      power (Nat.lt_succ_self _) (by omega)
    rw [if_pos magicInside, orStuck_some_bind, divided, magic,
      orExit_require_bind (decide_eq_true rfl), orExit_require_bind allocated.2, hashed, orExit_some_bind, fixFields_stuck (by omega)]
    rfl
  · rw [if_neg magicInside, orStuck_none_bind]

/-- A header that lies in one block is repaired; one that does not makes the call leave its
memory, unless it stops before. -/
theorem mtdFixtrx_iff (power : (board.chip dev).erasesize = 2 ^ bits)
    (header : HasTrxMagic board memory dev offset) :
    FixesTrx board memory dev offset dataSize ↔
      offset.toNat % (board.chip dev).erasesize + 12 ≤ (board.chip dev).erasesize ∨
        StopsBefore board dev offset dataSize := by
  constructor
  · intro fixes
    by_contra neither
    obtain ⟨room, goesOn⟩ := not_or.mp neither
    obtain ⟨log, differs⟩ := another_log memory dev
    have stuck := @mtdFixtrx_sound_stuck board memory dev bits offset dataSize power header room goesOn
    have allowed : MayReturn (mtdFixtrx board Host.sound memory dev offset dataSize) log := by
      rw [stuck]
      exact True.intro
    exact differs ((fixes Host.sound log allowed).others (dev + 1) 0 (.inl (Nat.succ_ne_self dev)))
  · intro condition host log returned
    rcases condition with room | stops
    · exact mtdFixtrx_fixed power room returned
    · obtain ⟨_, ended⟩ := @mtdFixtrx_stops board host memory dev bits offset dataSize power header stops
      rw [ended] at returned
      exact returned.elim

/-! ## A device with two headers

The second one has only its magic and its length in the first block. -/

def twoHeaders : Board where
  chip _ :=
    { size := 64, erasesize := 32, nand := false, bad := fun _ => false,
      eraseFails := fun _ => false, writeFails := fun _ => false,
      wide := wide_32, aligned := by decide, nonempty := by decide, small := by decide }
  opens _ := true
  heap _ := 0

def twoHeadersMemory : FlashMemory :=
  fun _ => storeAll (fun _ => 0xff) [(0, TRX_MAGIC), (24, TRX_MAGIC)]

theorem mtdFixtrx_iff_first : FixesTrx twoHeaders twoHeadersMemory 0 0 0 :=
  (@mtdFixtrx_iff twoHeaders twoHeadersMemory 0 5 0 0 rfl ⟨by decide, by decide⟩).mpr
    (.inl (by decide))

theorem mtdFixtrx_second : ¬ FixesTrx twoHeaders twoHeadersMemory 0 24 0 := by
  intro fixes
  have stuck : mtdFixtrx twoHeaders Host.sound twoHeadersMemory 0 24 0 = .error (.stuck []) := rfl
  obtain ⟨log, differs⟩ := another_log twoHeadersMemory 0
  have allowed : MayReturn (mtdFixtrx twoHeaders Host.sound twoHeadersMemory 0 24 0) log := by
    rw [stuck]
    exact True.intro
  exact differs ((fixes Host.sound log allowed).others 1 0 (.inl (by decide)))

end Rut9xx.Mtd.FixTrx
