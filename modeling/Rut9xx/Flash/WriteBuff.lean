import Rut9xx.Data.PageProgram
import Mathlib.Algebra.Group.Nat.Defs

namespace Rut9xx.Flash

open Data

/-! # Writing to the SPI NOR flash -/

section

def CFG_FLASH_BASE : UInt32 := 0x9F000000

/-- `info->page_size`: every chip of `spi_nor_ids` has this one, and `flash_init` gives it to the
chips the table does not know. -/
def pageSize : Nat := 256

/-- The command carries 24 address bits. -/
def chipSize : Nat := 0x1000000

structure PageProgram where
  dst : Nat
  data : List UInt8

variable {source before : Memory UInt8} {addr len total : Nat} {program : PageProgram}

/-- `qca_sf_write_page`, and what the chip does with the command. -/
def qcaSfWritePage (memory : Memory UInt8) (program : PageProgram) : Memory UInt8 :=
  programBytes pageSize memory (program.dst &&& 0x00FFFFFF) program.data

/-- Taken from the address the caller gave, not from `dst`. -/
def bytesThisPage (addr : Nat) : Nat := pageSize - addr % pageSize

def lenThisLp (addr len total : Nat) : Nat :=
  if bytesThisPage addr < len - total then bytesThisPage addr else len - total

theorem bytesThisPage_pos : 0 < bytesThisPage addr :=
  Nat.sub_pos_of_lt (Nat.mod_lt addr (by decide))

theorem bytesThisPage_le : bytesThisPage addr ≤ pageSize := Nat.sub_le ..

theorem lenThisLp_pos (more : total < len) : 0 < lenThisLp addr len total := by
  have positive := @bytesThisPage_pos addr
  unfold lenThisLp
  split <;> omega

theorem lenThisLp_le : lenThisLp addr len total ≤ len - total := by
  unfold lenThisLp
  split <;> omega

theorem lenThisLp_le_bytesThisPage : lenThisLp addr len total ≤ bytesThisPage addr := by
  unfold lenThisLp
  split <;> omega

/-- The page programs of one call, with `addr` already relative to the flash. -/
def writeBuffLoop (source : Memory UInt8) (addr len total : Nat) : List PageProgram :=
  if total < len then
    ⟨(addr + total) % 2 ^ 32, load source total (lenThisLp addr len total)⟩ ::
      writeBuffLoop source addr len (total + lenThisLp addr len total)
  else []
termination_by len - total
decreasing_by
  have := @lenThisLp_pos addr len total ‹_›
  omega

def flashOffset (addr : UInt32) : Nat := (addr - CFG_FLASH_BASE).toNat

def writeBuff (source : Memory UInt8) (addr len : UInt32) : List PageProgram :=
  writeBuffLoop source (flashOffset addr) len.toNat 0

/-- The flash after the page programs of one call. -/
def programAll (before : Memory UInt8) (programs : List PageProgram) : Memory UInt8 :=
  programs.foldl qcaSfWritePage before

theorem programAll_cons {rest : List PageProgram} :
    programAll before (program :: rest) = programAll (qcaSfWritePage before program) rest := rfl

def PageProgram.Crosses (program : PageProgram) : Prop :=
  CrossesPage pageSize program.dst program.data.length

def NoCrossing (programs : List PageProgram) : Prop :=
  ∀ program ∈ programs, ¬ program.Crosses

/-- From `start` on stand `count` bytes of the source, and nothing else has changed. -/
structure Copied (before after source : Memory UInt8) (start count : Nat) : Prop where
  copied : ∀ index, index < count → after (start + index) = source index
  kept : ∀ other, other < start ∨ start + count ≤ other → after other = before other

theorem copied_store : Copied before (store before addr (load source 0 len)) source addr len where
  copied := by
    intro index inside
    have within : index < (load source 0 len).length := by rwa [load_length]
    have found : (load source 0 len)[index]? = some (source index) := by
      rw [load_getElem?, if_pos inside, Nat.zero_add]
    rw [store_inside within]
    exact (List.getElem?_eq_some_iff.mp found).2
  kept := by
    intro other outside
    exact store_outside (by rwa [load_length])

/-! ## Which page programs are issued -/

theorem lenThisLp_full (more : total + bytesThisPage addr < len) :
    lenThisLp addr len total = bytesThisPage addr := by
  unfold lenThisLp
  rw [if_pos (by omega)]

/-- Every call but the last sends `bytesThisPage` bytes. -/
theorem writeBuffLoop_mem (count : Nat) (more : total + count * bytesThisPage addr < len) :
    (⟨(addr + (total + count * bytesThisPage addr)) % 2 ^ 32,
      load source (total + count * bytesThisPage addr)
        (lenThisLp addr len (total + count * bytesThisPage addr))⟩ : PageProgram) ∈
      writeBuffLoop source addr len total := by
  induction count generalizing total with
  | zero =>
      rw [Nat.zero_mul, Nat.add_zero] at more ⊢
      rw [writeBuffLoop, if_pos more]
      exact List.mem_cons_self ..
  | succ count ih =>
      have next : total + (count + 1) * bytesThisPage addr =
          total + bytesThisPage addr + count * bytesThisPage addr := by
        rw [Nat.succ_mul]
        omega
      rw [next] at more ⊢
      rw [writeBuffLoop, if_pos (by omega), lenThisLp_full (by omega)]
      exact List.mem_cons_of_mem _ (ih more)

theorem exists_of_mem_writeBuffLoop (member : program ∈ writeBuffLoop source addr len total) :
    ∃ count, total + count * bytesThisPage addr < len ∧
      program.dst = (addr + (total + count * bytesThisPage addr)) % 2 ^ 32 ∧
      program.data.length = lenThisLp addr len (total + count * bytesThisPage addr) := by
  induction left : len - total using Nat.strongRecOn generalizing total with
  | ind left ih =>
      rw [writeBuffLoop] at member
      split at member
      · rename_i more
        rcases List.mem_cons.mp member with rfl | later
        · exact ⟨0, by simpa using more, by simp, by simp⟩
        · have shorter := @lenThisLp_pos addr len total more
          rcases Nat.lt_or_ge (total + bytesThisPage addr) len with full | last
          · rw [lenThisLp_full full] at later shorter
            obtain ⟨count, below, dst, length⟩ := ih _ (by omega) later rfl
            have next : total + (count + 1) * bytesThisPage addr =
                total + bytesThisPage addr + count * bytesThisPage addr := by
              rw [Nat.succ_mul]
              omega
            exact ⟨count + 1, by rwa [next], by rw [next, dst], by rw [next, length]⟩
          · have ended : total + lenThisLp addr len total = len := by
              unfold lenThisLp
              rw [if_neg (by omega)]
              omega
            rw [ended, writeBuffLoop, if_neg (Nat.lt_irrefl len)] at later
            contradiction
      · contradiction

end

/-! # When every page program stays in its page -/

section

variable {source before : Memory UInt8} {addr len total : Nat} {program : PageProgram}

/-- The bytes of the first page are a size that pages can be cut in, or the second program is the
last one. -/
def Aligned (addr len : Nat) : Prop :=
  bytesThisPage addr ∣ pageSize ∨ len ≤ bytesThisPage addr + pageSize

instance : Decidable (Aligned addr len) := inferInstanceAs (Decidable (_ ∨ _))

/-- Behind the first program `dst` counts from a page start. -/
theorem dst_mod (count : Nat) :
    (addr + (count + 1) * bytesThisPage addr) % 2 ^ 32 % pageSize =
      count * bytesThisPage addr % pageSize := by
  have below := Nat.mod_lt addr (show 0 < pageSize by decide)
  have parts := Nat.div_add_mod addr pageSize
  have whole : addr + bytesThisPage addr = pageSize * (addr / pageSize + 1) := by
    rw [Nat.mul_add, Nat.mul_one]
    unfold bytesThisPage
    omega
  rw [Nat.mod_mod_of_dvd _ (by decide), Nat.succ_mul, Nat.add_comm (count * _), ← Nat.add_assoc,
    whole, Nat.mul_add_mod]

theorem first_inside : ¬ CrossesPage pageSize (addr % 2 ^ 32) (lenThisLp addr len 0) := by
  have fits := @lenThisLp_le_bytesThisPage addr len 0
  have below := Nat.mod_lt addr (show 0 < pageSize by decide)
  unfold CrossesPage
  rw [Nat.mod_mod_of_dvd _ (by decide)]
  unfold bytesThisPage at fits
  omega

theorem inside_of_aligned (aligned : Aligned addr len) (count : Nat)
    (more : count * bytesThisPage addr < len) :
    ¬ CrossesPage pageSize ((addr + count * bytesThisPage addr) % 2 ^ 32)
      (lenThisLp addr len (count * bytesThisPage addr)) := by
  cases count with
  | zero =>
      rw [Nat.zero_mul, Nat.add_zero]
      exact first_inside
  | succ count =>
      have small := @bytesThisPage_le addr
      unfold CrossesPage
      rw [dst_mod]
      rcases aligned with divides | short
      · -- a page start behind a multiple of the program's length leaves room for one more
        have fits := @lenThisLp_le_bytesThisPage addr len ((count + 1) * bytesThisPage addr)
        have below := Nat.mod_lt (count * bytesThisPage addr) (show 0 < pageSize by decide)
        obtain ⟨pieces, pieced⟩ := divides
        obtain ⟨piece, place⟩ : bytesThisPage addr ∣ count * bytesThisPage addr % pageSize :=
          (Nat.dvd_mod_iff ⟨pieces, pieced⟩).mpr (Nat.dvd_mul_left ..)
        have earlier : piece < pieces := by
          rw [place, pieced] at below
          exact Nat.lt_of_mul_lt_mul_left below
        have room := Nat.mul_le_mul_left (bytesThisPage addr) earlier
        rw [Nat.mul_succ, ← place, ← pieced] at room
        omega
      · have left := @lenThisLp_le addr len ((count + 1) * bytesThisPage addr)
        rw [Nat.succ_mul] at more left
        rw [Nat.mod_eq_of_lt (by omega)]
        rw [Nat.succ_mul]
        omega

/-- Otherwise the last program that begins in the second page runs over its end. -/
theorem crosses_of_not_aligned (unaligned : ¬ Aligned addr len) :
    ∃ count, count * bytesThisPage addr < len ∧
      CrossesPage pageSize ((addr + count * bytesThisPage addr) % 2 ^ 32)
        (lenThisLp addr len (count * bytesThisPage addr)) := by
  obtain ⟨divides, long⟩ := not_or.mp unaligned
  have positive := @bytesThisPage_pos addr
  have parts := Nat.div_add_mod pageSize (bytesThisPage addr)
  have below := Nat.mod_lt pageSize positive
  have rest : pageSize % bytesThisPage addr ≠ 0 := fun none => divides (Nat.dvd_of_mod_eq_zero none)
  rw [Nat.mul_comm] at parts
  have start : (pageSize / bytesThisPage addr + 1) * bytesThisPage addr < len := by
    rw [Nat.succ_mul]
    omega
  refine ⟨pageSize / bytesThisPage addr + 1, start, ?_⟩
  unfold CrossesPage
  rw [dst_mod, Nat.mod_eq_of_lt (by omega)]
  unfold lenThisLp
  rw [Nat.succ_mul] at start ⊢
  split <;> omega

theorem writeBuffLoop_noCrossing_iff :
    NoCrossing (writeBuffLoop source addr len 0) ↔ Aligned addr len := by
  constructor
  · intro inside
    by_contra unaligned
    obtain ⟨count, more, crosses⟩ := crosses_of_not_aligned unaligned
    have member := @writeBuffLoop_mem source addr len 0 count (by rwa [Nat.zero_add])
    rw [Nat.zero_add] at member
    apply inside _ member
    unfold PageProgram.Crosses
    rwa [load_length]
  · intro aligned program member
    obtain ⟨count, more, dst, length⟩ := exists_of_mem_writeBuffLoop member
    rw [Nat.zero_add] at more dst length
    unfold PageProgram.Crosses
    rw [dst, length]
    exact inside_of_aligned aligned count more

/-! ## What the flash holds afterwards -/

theorem load_split {count : Nat} (fewer : count ≤ len) :
    load source total len =
      load source total count ++ load source (total + count) (len - count) := by
  rw [← load_append]
  congr 1
  omega

theorem dst_masked {dst : Nat} (inside : dst < chipSize) :
    dst % 2 ^ 32 &&& 0x00FFFFFF = dst := by
  unfold chipSize at inside
  rw [Nat.mod_eq_of_lt (by omega)]
  exact (Nat.and_two_pow_sub_one_eq_mod dst 24).trans (Nat.mod_eq_of_lt inside)

theorem programAll_writeBuffLoop (inside : NoCrossing (writeBuffLoop source addr len total))
    (fits : addr + len ≤ chipSize) (partly : total ≤ len)
    (erased : Erased before (addr + total) (len - total)) :
    programAll before (writeBuffLoop source addr len total) =
      store before (addr + total) (load source total (len - total)) := by
  induction left : len - total using Nat.strongRecOn generalizing before total with
  | ind left ih =>
      rw [writeBuffLoop] at inside ⊢
      split
      · rename_i more
        rw [if_pos more] at inside
        have shorter := @lenThisLp_pos addr len total more
        have fewer := @lenThisLp_le addr len total
        have stays := inside _ (List.mem_cons_self ..)
        have front : Erased before (addr + total) (lenThisLp addr len total) := erased.take fewer
        unfold PageProgram.Crosses at stays
        rw [Nat.mod_eq_of_lt (by unfold chipSize at fits; omega)] at stays
        rw [programAll_cons, qcaSfWritePage, dst_masked (by omega),
          programBytes_store stays (by rwa [load_length])]
        have behind : Erased (store before (addr + total)
            (load source total (lenThisLp addr len total)))
            (addr + (total + lenThisLp addr len total))
            (len - (total + lenThisLp addr len total)) := by
          have all : len - total = (load source total (lenThisLp addr len total)).length +
              (len - (total + lenThisLp addr len total)) := by
            rw [load_length]
            omega
          rw [all] at erased
          have rest := erased.store_behind
          rwa [load_length, Nat.add_assoc] at rest
        rw [ih _ (by omega) (fun program member => inside program (List.mem_cons_of_mem _ member))
          (by omega) behind rfl, store_next (by rw [load_length, Nat.add_assoc]), ← left,
          Nat.sub_add_eq, ← load_split fewer]
      · rw [← left, show len - total = 0 by omega]
        exact store_nil.symm

/-- A program reaches the pages of the chip only. -/
theorem qcaSfWritePage_beyond {other : Nat} (beyond : chipSize ≤ other) :
    qcaSfWritePage before program other = before other := by
  apply programBytes_elsewhere (by decide)
  have masked : program.dst &&& 0x00FFFFFF = program.dst % chipSize :=
    Nat.and_two_pow_sub_one_eq_mod program.dst 24
  have below := Nat.mod_lt program.dst (show 0 < chipSize by decide)
  rw [masked]
  unfold pageStart pageSize
  unfold chipSize at *
  omega

theorem programAll_beyond {other : Nat} (beyond : chipSize ≤ other) (programs : List PageProgram) :
    programAll before programs other = before other := by
  induction programs generalizing before with
  | nil => rfl
  | cons program rest ih => rw [programAll_cons, ih, qcaSfWritePage_beyond beyond]

/-- The region ends in the part of the flash a command can name. -/
def Addressable (addr len : Nat) : Prop := len = 0 ∨ addr + len ≤ chipSize

theorem addressable_of_copied
    (copied : ∀ source before, Erased before addr len →
      Copied before (programAll before (writeBuffLoop source addr len 0)) source addr len) :
    Addressable addr len := by
  by_contra outside
  obtain ⟨nonempty, beyond⟩ := not_or.mp outside
  -- zeros over a blank flash: one of them lies past the last address
  have last := (copied (fun _ => 0) (fun _ => 0xff) (fun _ _ => rfl)).copied (len - 1) (by omega)
  rw [programAll_beyond (by omega)] at last
  revert last
  decide

/-- Over an erased region, a call that splits no page wrongly is a copy. -/
theorem programAll_writeBuff {addr len : UInt32} (aligned : Aligned (flashOffset addr) len.toNat)
    (addressable : Addressable (flashOffset addr) len.toNat)
    (erased : Erased before (flashOffset addr) len.toNat) :
    programAll before (writeBuff source addr len) =
      store before (flashOffset addr) (load source 0 len.toNat) := by
  rcases addressable with empty | fits
  · rw [writeBuff, writeBuffLoop, if_neg (by omega), empty]
    exact store_nil.symm
  · have inside : NoCrossing (writeBuff source addr len) := writeBuffLoop_noCrossing_iff.mpr aligned
    have written := programAll_writeBuffLoop inside fits (Nat.zero_le _) erased
    rwa [Nat.add_zero, Nat.sub_zero] at written

/-- The calls whose programs all stay in their pages, whatever the source, and those that besides
put the source where it belongs. -/
theorem writeBuff_iff (addr len : UInt32) :
    (∀ source, NoCrossing (writeBuff source addr len) ↔
      Aligned (flashOffset addr) len.toNat) ∧
    ((∀ source before, Erased before (flashOffset addr) len.toNat →
      NoCrossing (writeBuff source addr len) ∧
      Copied before (programAll before (writeBuff source addr len)) source (flashOffset addr)
        len.toNat) ↔
    Aligned (flashOffset addr) len.toNat ∧ Addressable (flashOffset addr) len.toNat) := by
  refine ⟨fun source => writeBuffLoop_noCrossing_iff, ?_⟩
  constructor
  · intro holds
    have first := holds (fun _ => 0) (fun _ => 0xff) (fun _ _ => rfl)
    exact ⟨writeBuffLoop_noCrossing_iff.mp first.1,
      addressable_of_copied fun source before erased => (holds source before erased).2⟩
  · rintro ⟨aligned, addressable⟩ source before erased
    refine ⟨writeBuffLoop_noCrossing_iff.mpr aligned, ?_⟩
    rw [programAll_writeBuff aligned addressable erased]
    exact copied_store

/-- From the second byte of a page on, 768 bytes: 255 of them are sent three times, and the second
time fills a page to its last byte but one. -/
theorem unaligned_write_crosses :
    ¬ ∀ (addr len : UInt32) (source before : Memory UInt8),
      Erased before (flashOffset addr) len.toNat →
        NoCrossing (writeBuff source addr len) ∧
        Copied before (programAll before (writeBuff source addr len)) source (flashOffset addr)
          len.toNat := by
  intro always
  have crosses := (always 0x9F000001 768 (fun _ => 0) (fun _ => 0xff) (fun _ _ => rfl)).1
  rw [writeBuff, writeBuffLoop_noCrossing_iff] at crosses
  revert crosses
  decide

end

end Rut9xx.Flash
