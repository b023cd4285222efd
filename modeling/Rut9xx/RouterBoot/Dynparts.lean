import Rut9xx.Data.Endian

namespace Rut9xx.RouterBoot

open Data

/-! # The well-known partitions that `routerbootpart.c` finds on flash -/

inductive ByteOrder where
  | big
  | little
  deriving DecidableEq

/-- The device that is parsed, and the byte order of the processor. -/
structure Master where
  size : Nat
  order : ByteOrder
  content : Nat → UInt8

/-- The device refuses to read past its end. -/
def Master.mtdRead (master : Master) (start count : Nat) : Option (List UInt8) :=
  if start + count ≤ master.size then
    some ((List.range count).map fun index => master.content (start + index))
  else none

/-- A word as the processor reads it. -/
def ByteOrder.word (order : ByteOrder) (bytes : List UInt8) : UInt32 :=
  match order with
  | .big => be32At bytes 0
  | .little => le32At bytes 0

structure Dynpart where
  name : String
  magic : UInt32
  sizeFixup : Bool
  offset : UInt32
  size : UInt32
  found : Bool
  deriving DecidableEq

def rbBlockSize : UInt32 := 0x1000

def rbMagicHard : UInt32 := 0x64726148

def rbMagicSoft : UInt32 := 0x74666f53

def ofDtHeader : UInt32 := 0xd00dfeed

def rbDynparts (order : ByteOrder) : List Dynpart :=
  [⟨"hard_config", rbMagicHard, false, 0, rbBlockSize, false⟩,
    ⟨"soft_config", rbMagicSoft, false, 0, rbBlockSize, false⟩,
    ⟨"dtb_config", order.word (be32 ofDtHeader), true, 0, 0, false⟩]

/-- `routerboot_dtbsfixup`: the size is the `totalsize` of the header. -/
def dtbsfixup (master : Master) (rbdpart : Dynpart) : Option Dynpart :=
  match master.mtdRead rbdpart.offset.toNat 40 with
  | none => none
  | some header =>
      let psize := be32At header 4
      if psize = 0 then none else some { rbdpart with size := psize }

/-- `ALIGN_DOWN(size, RB_BLOCK_SIZE)` -/
def alignDown (size : UInt32) : UInt32 := size / rbBlockSize * rbBlockSize

/-- How far the scan skips a partition that it found. -/
def skipped (part : Dynpart) : UInt32 :=
  if rbBlockSize < part.size then alignDown (part.size - rbBlockSize) else 0

/-- What one position of the scan did: the entries after it, whether all of
them were found before it, and how far it skips. -/
structure Step where
  dynparts : List Dynpart
  allfound : Bool
  skip : UInt32

/-- The loop over `rb_dynparts` at one position of the scan. -/
def checkDynparts (master : Master) (offset buf : UInt32) : List Dynpart → Step
  | [] => ⟨[], true, 0⟩
  | part :: rest =>
      if part.found then
        let after := checkDynparts master offset buf rest
        { after with dynparts := part :: after.dynparts }
      else if part.magic = buf then
        let part := { part with offset := offset }
        match if part.sizeFixup then dtbsfixup master part else some part with
        | none => ⟨part :: (checkDynparts master offset buf rest).dynparts, false,
            (checkDynparts master offset buf rest).skip⟩
        | some part => ⟨{ part with found := true } :: rest, false, skipped part⟩
      else ⟨part :: (checkDynparts master offset buf rest).dynparts, false,
        (checkDynparts master offset buf rest).skip⟩

/-- `routerboot_find_dynparts`. After a read error the loop goes on at the same
position; `none` is a scan that has not ended. -/
def findDynparts (master : Master) : Nat → UInt32 → List Dynpart → Option (List Dynpart)
  | 0, _, _ => none
  | fuel + 1, offset, dynparts =>
      if offset.toNat < master.size then
        match master.mtdRead offset.toNat 4 with
        | none => findDynparts master fuel offset dynparts
        | some bytes =>
            let step := checkDynparts master offset (master.order.word bytes) dynparts
            if step.allfound then some step.dynparts
            else findDynparts master fuel (offset + step.skip + rbBlockSize) step.dynparts
      else some dynparts

/-! ## The scan ends -/

variable {master : Master} {offset buf : UInt32} {dynparts : List Dynpart}

/-- The entries that are still looked for. -/
def missing (dynparts : List Dynpart) : Nat := (dynparts.filter fun part => !part.found).length

/-- A position that skips has found an entry. -/
theorem checkDynparts_missing :
    missing (checkDynparts master offset buf dynparts).dynparts < missing dynparts ∨
      missing (checkDynparts master offset buf dynparts).dynparts = missing dynparts ∧
        (checkDynparts master offset buf dynparts).skip = 0 := by
  induction dynparts with
  | nil => exact Or.inr ⟨rfl, rfl⟩
  | cons part rest ih =>
      rw [checkDynparts]
      cases found : part.found with
      | true => simpa [missing, found] using ih
      | false =>
          simp only [Bool.false_eq_true, if_false]
          split
          · split
            · simpa [missing, found] using ih
            · rename_i fixed done
              left
              simp [missing, found]
          · simpa [missing, found] using ih

theorem skipped_aligned (part : Dynpart) : (skipped part).toNat % 0x1000 = 0 := by
  rw [skipped]
  split
  · have bound := (part.size - rbBlockSize).toNat_lt
    simp only [alignDown, rbBlockSize, UInt32.toNat_mul, UInt32.toNat_div, UInt32.toNat_ofNat]
    omega
  · rfl

/-- The positions keep to the blocks. -/
theorem skip_aligned : (checkDynparts master offset buf dynparts).skip.toNat % 0x1000 = 0 := by
  induction dynparts with
  | nil => rfl
  | cons part rest ih =>
      rw [checkDynparts]
      split
      · exact ih
      · split
        · dsimp only
          split
          · exact ih
          · exact skipped_aligned _
        · exact ih

theorem mtdRead_some {start count : Nat} (inside : start + count ≤ master.size) :
    master.mtdRead start count =
      some ((List.range count).map fun index => master.content (start + index)) := if_pos inside

/-- On a device of whole blocks the scan ends, even though a size in a header
can send it back once. -/
theorem findDynparts_ends (whole : master.size % 0x1000 = 0) (small : master.size < 2 ^ 32)
    (aligned : offset.toNat % 0x1000 = 0) :
    ∃ fuel found, findDynparts master fuel offset dynparts = some found := by
  induction missed : missing dynparts using Nat.strongRecOn generalizing offset dynparts with
  | ind missed ihMissing =>
      induction ahead : master.size - offset.toNat using Nat.strongRecOn
        generalizing offset dynparts with
      | ind ahead ihAhead =>
          by_cases inside : offset.toNat < master.size
          · have read := mtdRead_some (show offset.toNat + 4 ≤ master.size by omega)
            generalize (List.range 4).map _ = bytes at read
            have enter (fuel : Nat) : findDynparts master (fuel + 1) offset dynparts =
                let step := checkDynparts master offset (master.order.word bytes) dynparts
                if step.allfound then some step.dynparts
                else findDynparts master fuel (offset + step.skip + rbBlockSize) step.dynparts := by
              rw [findDynparts, if_pos inside, read]
            generalize hstep : checkDynparts master offset (master.order.word bytes) dynparts = step
              at enter
            have skipAligned : step.skip.toNat % 0x1000 = 0 := hstep ▸ skip_aligned
            have progress : missing step.dynparts < missing dynparts ∨
                missing step.dynparts = missing dynparts ∧ step.skip = 0 :=
              hstep ▸ checkDynparts_missing
            have next : (offset + step.skip + rbBlockSize).toNat % 0x1000 = 0 := by
              simp only [UInt32.toNat_add, rbBlockSize, UInt32.toNat_ofNat]
              omega
            cases all : step.allfound with
            | true => exact ⟨1, step.dynparts, by rw [enter]; simp only [all, if_true]⟩
            | false =>
                have later : ∃ fuel found, findDynparts master fuel
                    (offset + step.skip + rbBlockSize) step.dynparts = some found := by
                  rcases progress with fewer | ⟨same, still⟩
                  · exact ihMissing _ (missed ▸ fewer) next rfl
                  · have on : (offset + step.skip + rbBlockSize).toNat = offset.toNat + 0x1000 := by
                      simp only [still, UInt32.toNat_add, rbBlockSize, UInt32.toNat_ofNat]
                      omega
                    exact ihAhead _ (by omega) next (same.trans missed) rfl
                obtain ⟨fuel, found, ends⟩ := later
                refine ⟨fuel + 1, found, ?_⟩
                rw [enter]
                simpa only [all, Bool.false_eq_true, if_false] using ends
          · exact ⟨1, dynparts, by rw [findDynparts, if_neg inside]⟩

end Rut9xx.RouterBoot
