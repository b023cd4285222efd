import Rut9xx.Mtd.ImageHeader

namespace Rut9xx.Mtd.ImageHeader

open Rut9xx.Data

/-! # Which header is repaired, and over which data -/

variable {board : Board} {host : Host} {md5 : List UInt8 → Digest} {layout : HeaderLayout}
  {memory : FlashMemory} {dev base count shdr : Nat} {cells : Memory UInt8} {globals : Globals}
  {offset dataSize start len : UInt32}

/-! ## The header on the device -/

section

variable (layout : HeaderLayout) (chip : Chip) (cells : Memory UInt8) (offset dataSize : UInt32)

def metasizeOn (place : Nat) : UInt32 :=
  match layout.metasizeAt with
  | none => 0
  | some field => be16Of (load cells (place + field) 2)

def sizeOn : UInt32 := layout.decodeSize (load cells (offset.toNat + layout.sizeAt) 4)

def entityStart : Nat := offset.toNat + layout.headerSize + (metasizeOn layout cells offset.toNat).toNat

/-- The bytes asked for, all by default, but no more than the header says. -/
def entitySize : Nat :=
  min (if dataSize = 0 then chip.size - entityStart layout cells offset else dataSize.toNat)
    (sizeOn layout cells offset).toNat

/-- A header of an image that is not empty. -/
structure HasHeader : Prop where
  inside : offset.toNat + layout.headerSize ≤ chip.size
  magic : load cells (offset.toNat + layout.magicAt) 4 = layout.magic
  size : sizeOn layout cells offset ≠ 0

def entityDigest (md5 : List UInt8 → Digest) : List UInt8 :=
  (md5 (load cells (offset.toNat + layout.summedAt) layout.summedLen ++
    load cells (entityStart layout cells offset) (entitySize layout chip cells offset dataSize))).toList

def DigestRight (md5 : List UInt8 → Digest) : Prop :=
  load cells (offset.toNat + layout.digestAt) 16 = entityDigest layout chip cells offset dataSize md5

end

theorem be16Of_lt (bytes : List UInt8) : (be16Of bytes).toNat < 2 ^ 16 := by
  have high := (bytes.getD 0 0).toNat_lt
  have low := (bytes.getD 1 0).toNat_lt
  rw [be16Of, UInt32.toNat_or]
  apply Nat.or_lt_two_pow
  · rw [UInt32.toNat_shiftLeft, UInt8.toNat_toUInt32, Nat.shiftLeft_eq]
    change _ * 2 ^ 8 % 2 ^ 32 < _
    omega
  · rw [UInt8.toNat_toUInt32]
    omega

theorem metasizeOn_lt (place : Nat) : (metasizeOn layout cells place).toNat < 2 ^ 16 := by
  unfold metasizeOn
  split
  · decide
  · exact be16Of_lt _

theorem readMetasize_load (room : shdr + layout.sizeAt + 4 ≤ count) :
    readMetasize layout (load cells base count) shdr = .ok (metasizeOn layout cells (base + shdr)) := by
  unfold readMetasize metasizeOn
  cases metasizeAt : layout.metasizeAt with
  | none => rfl
  | some field =>
      have front := layout.metasizeFront field metasizeAt
      simp only
      rw [readAt_load, if_pos (by omega), orStuck_some_bind, Nat.add_assoc]
      rfl

/-- Base and place in the block make up the offset. -/
theorem base_add (erasesize : UInt32) :
    (offset &&& ~~~(erasesize - 1)).toNat + (offset - (offset &&& ~~~(erasesize - 1))).toNat =
      offset.toNat := by
  have split := toNat_and_add_and_not offset (erasesize - 1)
  rw [UInt32.toNat_sub_of_le _ _ (UInt32.le_iff_toNat_le.mpr (by omega))]
  omega

/-! ## Finding the data -/

/-- The number of bytes as the code arrives at it. -/
def cappedSize (layout : HeaderLayout) (chip : Chip) (cells : Memory UInt8)
    (offset start dataSize : UInt32) : UInt32 :=
  let dataSize := if dataSize = 0 then UInt32.ofNat chip.size - start else dataSize
  if sizeOn layout cells offset < dataSize then sizeOn layout cells offset else dataSize

theorem findEntity_ok {after : Globals} {firstBlock : List UInt8}
    (found : findEntity board host layout memory dev globals offset dataSize =
      .ok (after, firstBlock, start, len)) :
    let blockOffset := offset &&& ~~~(UInt32.ofNat globals.erasesize - 1)
    after = (board.chip dev).globals ∧
      firstBlock = load (memory dev) blockOffset.toNat (board.chip dev).erasesize ∧
      blockOffset.toNat + (board.chip dev).erasesize ≤ (board.chip dev).size ∧
      start = offset - blockOffset + UInt32.ofNat layout.headerSize +
        metasizeOn layout (memory dev) offset.toNat ∧
      len = cappedSize layout (board.chip dev) (memory dev) offset start dataSize := by
  intro blockOffset
  have positive := (board.chip dev).erasesize_pos
  obtain ⟨globals', opened, found⟩ := bind_eq_ok.mp found
  obtain ⟨_, _, found⟩ := bind_eq_ok.mp found
  obtain ⟨_, _, found⟩ := bind_eq_ok.mp found
  obtain ⟨block, blockRead, found⟩ := bind_eq_ok.mp found
  obtain ⟨_, _, found⟩ := bind_eq_ok.mp found
  obtain ⟨_, _, found⟩ := bind_eq_ok.mp found
  obtain ⟨sizeField, sizeRead, found⟩ := bind_eq_ok.mp found
  obtain ⟨_, _, found⟩ := bind_eq_ok.mp found
  obtain ⟨metasize, metaRead, found⟩ := bind_eq_ok.mp found
  have globalsEq := mtdCheckOpen_eq (orExit_eq_ok.mp opened)
  subst globalsEq
  obtain ⟨inside, blockIs⟩ := pread_some (orExit_eq_ok.mp blockRead)
  subst blockIs
  simp only at inside sizeRead metaRead
  rw [orStuck_eq_ok, readAt_load] at sizeRead
  split at sizeRead
  · rename_i room
    rw [Option.some.injEq, ← Nat.add_assoc, base_add] at sizeRead
    rw [readMetasize_load room, base_add, Except.ok.injEq] at metaRead
    simp only [pure, Except.pure, Except.ok.injEq, Prod.mk.injEq] at found
    obtain ⟨rfl, rfl, rfl, rfl⟩ := found
    refine ⟨rfl, rfl, inside.resolve_left (by omega), by rw [metaRead], ?_⟩
    rw [cappedSize, sizeOn, sizeRead]
  · cases sizeRead

/-- With the whole header in the block, nothing outside it is touched. -/
theorem findEntity_cases
    (room : (offset - (offset &&& ~~~(UInt32.ofNat globals.erasesize - 1))).toNat +
      layout.headerSize ≤ (board.chip dev).erasesize) :
    findEntity board host layout memory dev globals offset dataSize = .error (.exit []) ∨
      ∃ found, findEntity board host layout memory dev globals offset dataSize = .ok found := by
  have magicInside := layout.magicInside
  have sizeFront := layout.sizeFront
  have summedFront := layout.summedFront
  have digestLast := layout.digestLast
  let Outcome := fun call : Except Halt (Globals × List UInt8 × UInt32 × UInt32) =>
    call = .error (.exit []) ∨ ∃ found, call = .ok found
  have ends : Outcome (.error (.exit [])) := .inl rfl
  refine orExit_bind Outcome ends fun globals' opened => ?_
  have globalsEq := mtdCheckOpen_eq opened
  subst globalsEq
  refine orExit_bind Outcome ends fun _ _ => orExit_bind Outcome ends fun _ _ =>
    orExit_bind Outcome ends fun firstBlock blockRead => ?_
  obtain ⟨-, blockIs⟩ := pread_some blockRead
  rw [blockIs]
  simp only
  rw [readAt_load, if_pos (by omega), orStuck_some_bind]
  refine orExit_bind Outcome ends fun _ _ => ?_
  rw [readAt_load, if_pos (by omega), orStuck_some_bind]
  refine orExit_bind Outcome ends fun _ _ => ?_
  rw [readMetasize_load (by omega)]
  exact .inr ⟨_, rfl⟩

/-- When nothing fails, a header in the first block is found. -/
theorem findEntity_sound (opens : board.opens dev = true)
    (first : offset &&& ~~~(UInt32.ofNat globals.erasesize - 1) = 0)
    (room : offset.toNat + layout.headerSize ≤ (board.chip dev).erasesize)
    (header : HasHeader layout (board.chip dev) (memory dev) offset) :
    ∃ found, findEntity board Host.sound layout memory dev globals offset dataSize = .ok found := by
  have magicInside := layout.magicInside
  have sizeFront := layout.sizeFront
  have summedFront := layout.summedFront
  have digestLast := layout.digestLast
  have positive := (board.chip dev).erasesize_le
  have opened : mtdCheckOpen board dev = some (board.chip dev).globals := by
    rw [mtdCheckOpen, if_pos opens]
  have inRange : (0 : UInt32) + UInt32.ofNat (board.chip dev).globals.erasesize ≤
      UInt32.ofNat (board.chip dev).globals.mtdsize := by
    rw [UInt32.zero_add, UInt32.le_iff_toNat_le, (board.chip dev).size_toNat,
      (board.chip dev).erasesize_toNat]
    exact positive
  have allocated : Host.sound.blockAllocated = true := rfl
  have blockRead : pread board Host.sound memory dev (board.chip dev).globals.erasesize 0 =
      some (load (memory dev) 0 (board.chip dev).erasesize) :=
    if_pos ⟨.inr (by rw [Nat.zero_add]; exact positive), rfl⟩
  have magic := header.magic
  have some' := header.size
  rw [sizeOn] at some'
  rw [findEntity, first, opened]
  simp only [UInt32.sub_zero, UInt32.toNat_zero]
  rw [orExit_some_bind, orExit_require_bind (decide_eq_true inRange), orExit_require_bind allocated,
    blockRead, orExit_some_bind, readAt_load, if_pos (by omega), orStuck_some_bind, Nat.zero_add, magic,
    orExit_require_bind (decide_eq_true rfl), readAt_load, if_pos (by omega), orStuck_some_bind,
    Nat.zero_add, orExit_require_bind (decide_eq_true some'), readMetasize_load (by omega)]
  exact ⟨_, rfl⟩

/-! ## The digest -/

def setHeader (layout : HeaderLayout) (cells : Memory UInt8) (place : Nat) (len : UInt32)
    (digest : List UInt8) : Memory UInt8 :=
  storeAll cells [(place + layout.sizeAt, layout.encodeSize len), (place + layout.digestAt, digest)]

/-- What the digest is computed from. -/
def summedDigest (md5 : List UInt8 → Digest) (layout : HeaderLayout) (cells : Memory UInt8)
    (place : Nat) (start len : UInt32) : List UInt8 :=
  (md5 (load cells (place + layout.summedAt) layout.summedLen ++
    load cells start.toNat len.toNat)).toList

/-- The patched copy, if the digest is not right already. -/
def patchedBlock (md5 : List UInt8 → Digest) (layout : HeaderLayout) (cells : Memory UInt8)
    (base shdr count : Nat) (start len : UInt32) : Option (List UInt8) :=
  let digest := summedDigest md5 layout cells (base + shdr) start len
  if load cells (base + shdr + layout.digestAt) 16 = digest then none
  else some (load (setHeader layout cells (base + shdr) len digest) base count)

theorem fixMd5_load (room : shdr + layout.headerSize ≤ count) :
    fixMd5 board host md5 layout memory dev (load (memory dev) base count) shdr start len =
        .ok (none, none) ∨
      fixMd5 board host md5 layout memory dev (load (memory dev) base count) shdr start len =
        .ok (some (start.toNat, len.toNat),
          patchedBlock md5 layout (memory dev) base shdr count start len) := by
  have sizeFront := layout.sizeFront
  have summedFront := layout.summedFront
  have digestLast := layout.digestLast
  unfold fixMd5
  split
  · exact .inl rfl
  · split
    · exact .inl rfl
    · rename_i buf dataRead
      obtain ⟨-, bufIs⟩ := pread_some dataRead
      have sizeFits : shdr + layout.sizeAt + (layout.encodeSize len).length ≤ count := by
        rw [layout.encodeSize_length]
        omega
      refine .inr ?_
      rw [bufIs, readAt_load, if_pos (by omega), orStuck_some_bind, readAt_load, if_pos (by omega),
        orStuck_some_bind, writeAt_load, if_pos sizeFits, orStuck_some_bind]
      simp only [← Nat.add_assoc]
      rw [patchedBlock, summedDigest]
      split
      · rfl
      · rw [writeAt_load, if_pos (by simp only [Vector.length_toList]; omega), orStuck_some_bind]
        simp only [← Nat.add_assoc]
        rfl

theorem fixMd5_summed {block : List UInt8} {range : Nat × Nat} {patched : Option (List UInt8)}
    (full : block.length = count)
    (done : fixMd5 board host md5 layout memory dev block shdr start len = .ok (some range, patched)) :
    range = (start.toNat, len.toNat) ∧ shdr + layout.headerSize ≤ count ∧
      (len.toNat = 0 ∨ start.toNat + len.toNat ≤ (board.chip dev).size) := by
  have digestLast := layout.digestLast
  unfold fixMd5 at done
  split at done
  · cases done
  · split at done
    · cases done
    · rename_i buf dataRead
      obtain ⟨fields, _, done⟩ := bind_eq_ok.mp done
      obtain ⟨stored, digestRead, done⟩ := bind_eq_ok.mp done
      rw [orStuck_eq_ok, readAt] at digestRead
      split at digestRead
      · rename_i inside
        refine ⟨?_, by omega, (pread_some dataRead).1⟩
        split at done
        · simp only [pure, Except.pure, Except.ok.injEq, Prod.mk.injEq, Option.some.injEq] at done
          exact done.1.symm
        · obtain ⟨_, _, done⟩ := bind_eq_ok.mp done
          obtain ⟨_, _, done⟩ := bind_eq_ok.mp done
          simp only [pure, Except.pure, Except.ok.injEq, Prod.mk.injEq, Option.some.injEq] at done
          exact done.1.symm
      · cases digestRead

theorem fixMd5_sound (room : shdr + layout.headerSize ≤ count)
    (inside : start.toNat + len.toNat ≤ (board.chip dev).size) :
    fixMd5 board Host.sound md5 layout memory dev (load (memory dev) base count) shdr start len =
      .ok (some (start.toNat, len.toNat),
        patchedBlock md5 layout (memory dev) base shdr count start len) := by
  rcases @fixMd5_load board Host.sound md5 layout memory dev base count shdr start len room with
    failed | done
  · have dataRead : pread board Host.sound memory dev len.toNat start.toNat =
        some (load (memory dev) start.toNat len.toNat) := if_pos ⟨.inr inside, rfl⟩
    have allocated : ¬ Host.sound.dataAllocated = false := by decide
    rw [fixMd5, if_neg allocated, dataRead] at failed
    obtain ⟨_, _, failed⟩ := bind_eq_ok.mp failed
    obtain ⟨_, _, failed⟩ := bind_eq_ok.mp failed
    split at failed
    · cases failed
    · obtain ⟨_, _, failed⟩ := bind_eq_ok.mp failed
      obtain ⟨_, _, failed⟩ := bind_eq_ok.mp failed
      cases failed
  · exact done

/-! ## Sizes -/

theorem start_toNat {chip : Chip}
    (room : shdr + layout.headerSize ≤ chip.erasesize) {place : UInt32} (placeIs : place.toNat = shdr) :
    (place + UInt32.ofNat layout.headerSize + metasizeOn layout cells offset.toNat).toNat =
      shdr + layout.headerSize + (metasizeOn layout cells offset.toNat).toNat := by
  have metaSmall := @metasizeOn_lt layout cells offset.toNat
  have small := chip.small
  have below := chip.erasesize_le
  have headerSmall := layout.small
  have header : (UInt32.ofNat layout.headerSize).toNat = layout.headerSize := by
    rw [UInt32.toNat_ofNat', Nat.mod_eq_of_lt (by omega)]
  rw [UInt32.toNat_add, UInt32.toNat_add, header, placeIs, Nat.mod_eq_of_lt (by omega),
    Nat.mod_eq_of_lt (by omega)]

theorem cappedSize_toNat {chip : Chip} (startIs : start.toNat = entityStart layout cells offset)
    (onDevice : entityStart layout cells offset ≤ chip.size) :
    (cappedSize layout chip cells offset start dataSize).toNat =
      entitySize layout chip cells offset dataSize := by
  have limit : (if dataSize = 0 then UInt32.ofNat chip.size - start else dataSize).toNat =
      if dataSize = 0 then chip.size - entityStart layout cells offset else dataSize.toNat := by
    split
    · rw [UInt32.toNat_sub_of_le _ _ (UInt32.le_iff_toNat_le.mpr (by rw [chip.size_toNat]; omega)),
        chip.size_toNat, startIs]
    · rfl
  rw [cappedSize, entitySize, ← limit]
  generalize (if dataSize = 0 then UInt32.ofNat chip.size - start else dataSize) = wanted
  by_cases less : sizeOn layout cells offset < wanted
  · rw [if_pos less, Nat.min_eq_right (Nat.le_of_lt (UInt32.lt_iff_toNat_lt.mp less))]
  · rw [if_neg less, Nat.min_eq_left (UInt32.le_iff_toNat_le.mp (UInt32.not_lt.mp less))]

/-- Only a header at the very end has no data. -/
theorem cappedSize_empty {chip : Chip} (some' : sizeOn layout cells offset ≠ 0)
    (empty : (cappedSize layout chip cells offset start dataSize).toNat = 0) :
    start.toNat = chip.size := by
  have none' : cappedSize layout chip cells offset start dataSize = 0 := UInt32.toNat_inj.mp empty
  by_cases less : sizeOn layout cells offset <
      if dataSize = 0 then UInt32.ofNat chip.size - start else dataSize
  · rw [cappedSize, if_pos less] at none'
    exact absurd none' some'
  · rw [cappedSize, if_neg less] at none'
    split at none'
    · have same := UInt32.sub_eq_iff_eq_add.mp none'
      rw [UInt32.zero_add] at same
      rw [← same, chip.size_toNat]
    · contradiction

/-! ## The repair -/

/-- The header lies in the first block, where the erase size of before the call puts
it too, and its data on the device. -/
structure Reachable (layout : HeaderLayout) (chip : Chip) (cells : Memory UInt8) (globals : Globals)
    (offset dataSize : UInt32) : Prop where
  base : offset &&& ~~~(UInt32.ofNat globals.erasesize - 1) = 0
  room : offset.toNat + layout.headerSize ≤ chip.erasesize
  data : entityStart layout cells offset + entitySize layout chip cells offset dataSize ≤ chip.size

theorem findEntity_reachable {after : Globals} {firstBlock : List UInt8}
    (reachable : Reachable layout (board.chip dev) (memory dev) globals offset dataSize)
    (found : findEntity board host layout memory dev globals offset dataSize =
      .ok (after, firstBlock, start, len)) :
    after = (board.chip dev).globals ∧
      firstBlock = load (memory dev) 0 (board.chip dev).erasesize ∧
      start.toNat = entityStart layout (memory dev) offset ∧
      len.toNat = entitySize layout (board.chip dev) (memory dev) offset dataSize := by
  obtain ⟨afterIs, blockIs, -, startIs, lenIs⟩ := findEntity_ok found
  rw [reachable.base, UInt32.toNat_zero] at blockIs
  rw [reachable.base, UInt32.sub_zero] at startIs
  have startNat : start.toNat = entityStart layout (memory dev) offset := by
    rw [startIs, start_toNat reachable.room rfl]
    rfl
  refine ⟨afterIs, blockIs, startNat, ?_⟩
  rw [lenIs, cappedSize_toNat startNat (Nat.le_trans (Nat.le_add_right _ _) reachable.data)]

theorem summedDigest_entity
    (startIs : start.toNat = entityStart layout cells offset) {chip : Chip}
    (lenIs : len.toNat = entitySize layout chip cells offset dataSize) :
    summedDigest md5 layout cells offset.toNat start len =
      entityDigest layout chip cells offset dataSize md5 := by
  rw [summedDigest, startIs, lenIs]
  rfl

/-- Whatever fails, a header with the right digest is left alone. -/
theorem mtdFixHeader_idle
    (reachable : Reachable layout (board.chip dev) (memory dev) globals offset dataSize)
    (right : DigestRight layout (board.chip dev) (memory dev) offset dataSize md5) :
    WritesNothing ((mtdFixHeader board host md5 layout memory dev globals offset dataSize).map
      Prod.snd) := by
  have room := reachable.room
  have inBlock : (offset - (offset &&& ~~~(UInt32.ofNat globals.erasesize - 1))).toNat +
      layout.headerSize ≤ (board.chip dev).erasesize := by
    rw [reachable.base, UInt32.sub_zero]
    exact room
  rw [mtdFixHeader]
  rcases @findEntity_cases board host layout memory dev globals offset dataSize inBlock with
    ended | ⟨⟨after, firstBlock, start, len⟩, found⟩
  · rw [ended]
    exact .inr rfl
  · obtain ⟨-, blockIs, startIs, lenIs⟩ := findEntity_reachable reachable found
    have unpatched : patchedBlock md5 layout (memory dev) 0 offset.toNat (board.chip dev).erasesize
        start len = none := by
      rw [patchedBlock, Nat.zero_add, summedDigest_entity startIs lenIs]
      exact if_pos right
    rw [found, reachable.base, UInt32.sub_zero, blockIs]
    simp only [bind, Except.bind]
    rcases @fixMd5_load board host md5 layout memory dev 0 _ offset.toNat start len room with
      failed | done
    · rw [failed]
      exact .inl rfl
    · rw [done, unpatched]
      exact .inl rfl

/-- When nothing fails the digest is that of the data, and the block is written if need be. -/
theorem mtdFixHeader_sound (works : Works board dev 0)
    (header : HasHeader layout (board.chip dev) (memory dev) offset)
    (reachable : Reachable layout (board.chip dev) (memory dev) globals offset dataSize) :
    ∃ start len : UInt32, start.toNat = entityStart layout (memory dev) offset ∧
      len.toNat = entitySize layout (board.chip dev) (memory dev) offset dataSize ∧
      mtdFixHeader board Host.sound md5 layout memory dev globals offset dataSize =
        .ok (some (start.toNat, len.toNat),
          if load (memory dev) (offset.toNat + layout.digestAt) 16 =
            entityDigest layout (board.chip dev) (memory dev) offset dataSize md5 then []
          else fillSlot (board.chip dev).erasesize ⟨dev, 0⟩
            (load (setHeader layout (memory dev) offset.toNat len
              (entityDigest layout (board.chip dev) (memory dev) offset dataSize md5))
              (0 * (board.chip dev).erasesize) (board.chip dev).erasesize)) := by
  have positive := (board.chip dev).erasesize_pos
  have below := (board.chip dev).erasesize_le
  obtain ⟨⟨after, firstBlock, start, len⟩, found⟩ := @findEntity_sound board layout memory dev globals
    offset dataSize works.opens reachable.base reachable.room header
  obtain ⟨afterIs, blockIs, startIs, lenIs⟩ := findEntity_reachable reachable found
  refine ⟨start, len, startIs, lenIs, ?_⟩
  rw [mtdFixHeader, found, reachable.base, UInt32.sub_zero, blockIs, afterIs]
  simp only [bind, Except.bind]
  rw [fixMd5_sound reachable.room (by rw [startIs, lenIs]; exact reachable.data), patchedBlock,
    Nat.zero_add, summedDigest_entity startIs lenIs]
  by_cases right : load (memory dev) (offset.toNat + layout.digestAt) 16 =
      entityDigest layout (board.chip dev) (memory dev) offset dataSize md5
  · rw [if_pos right, if_pos right]
    rfl
  · have inside : 0 < (board.chip dev).blocks := by
      refine Nat.pos_of_ne_zero fun none' => ?_
      rw [Chip.size_eq, none', Nat.zero_mul] at below
      omega
    have filled := @rewriteBlock_works board dev 0 (load (setHeader layout (memory dev) offset.toNat len
      (entityDigest layout (board.chip dev) (memory dev) offset dataSize md5)) 0
        (board.chip dev).erasesize) works load_length inside
    rw [Nat.zero_mul] at filled
    rw [if_neg right, if_neg right, Nat.zero_mul]
    simp only [UInt32.toNat_zero, filled]
    rfl

/-- A failure beside the chip keeps the flash as it is, if it changes anything. -/
theorem mtdFixHeader_cases (opens : board.opens dev = true)
    (header : HasHeader layout (board.chip dev) (memory dev) offset)
    (reachable : Reachable layout (board.chip dev) (memory dev) globals offset dataSize) :
    WritesNothing ((mtdFixHeader board host md5 layout memory dev globals offset dataSize).map
        Prod.snd) ∨
      mtdFixHeader board host md5 layout memory dev globals offset dataSize =
        mtdFixHeader board Host.sound md5 layout memory dev globals offset dataSize := by
  have room := reachable.room
  have inBlock : (offset - (offset &&& ~~~(UInt32.ofNat globals.erasesize - 1))).toNat +
      layout.headerSize ≤ (board.chip dev).erasesize := by
    rw [reachable.base, UInt32.sub_zero]
    exact room
  obtain ⟨⟨after, firstBlock, start, len⟩, found⟩ := @findEntity_sound board layout memory dev globals
    offset dataSize opens reachable.base room header
  obtain ⟨afterIs, blockIs, startIs, lenIs⟩ := findEntity_reachable reachable found
  rw [mtdFixHeader, mtdFixHeader, found, reachable.base, UInt32.sub_zero]
  rcases @findEntity_cases board host layout memory dev globals offset dataSize inBlock with
    ended | ⟨⟨after', firstBlock', start', len'⟩, found'⟩
  · rw [ended]
    exact .inl (.inr rfl)
  · obtain ⟨afterIs', blockIs', startIs', lenIs'⟩ := findEntity_reachable reachable found'
    have startSame : start' = start := UInt32.toNat_inj.mp (startIs'.trans startIs.symm)
    have lenSame : len' = len := UInt32.toNat_inj.mp (lenIs'.trans lenIs.symm)
    rw [found', afterIs', blockIs', startSame, lenSame, afterIs, blockIs]
    simp only [bind, Except.bind]
    rw [fixMd5_sound room (by rw [startIs, lenIs]; exact reachable.data)]
    rcases @fixMd5_load board host md5 layout memory dev 0 _ offset.toNat start len room with
      failed | done
    · rw [failed]
      exact .inl (.inl rfl)
    · rw [done]
      exact .inr rfl

/-! ## The header behind the repair -/

/-- Neither in the size nor in the digest. -/
def OutsideFields (layout : HeaderLayout) (offset place : Nat) : Prop :=
  (place < offset + layout.sizeAt ∨ offset + layout.sizeAt + 4 ≤ place) ∧
    (place < offset + layout.digestAt ∨ offset + layout.digestAt + 16 ≤ place)

section

variable {digest : List UInt8} {place : Nat}

theorem setHeader_outside (full : digest.length = 16)
    (outside : OutsideFields layout offset.toNat place) :
    setHeader layout cells offset.toNat len digest place = cells place := by
  refine storeAll_elsewhere fun write member => ?_
  simp only [List.mem_cons, List.not_mem_nil, or_false] at member
  rcases member with rfl | rfl
  · rw [layout.encodeSize_length]
    exact outside.1
  · rw [full]
    exact outside.2

theorem load_setHeader (full : digest.length = 16) {from' amount : Nat}
    (outside : ∀ index, index < amount → OutsideFields layout offset.toNat (from' + index)) :
    load (setHeader layout cells offset.toNat len digest) from' amount = load cells from' amount :=
  load_congr fun index below => setHeader_outside full (outside index below)

theorem setHeader_fields (full : digest.length = 16) :
    sizeOn layout (setHeader layout cells offset.toNat len digest) offset = len ∧
      load (setHeader layout cells offset.toNat len digest) (offset.toNat + layout.digestAt) 16 =
        digest := by
  have sizeFront := layout.sizeFront
  have summedFront := layout.summedFront
  have apart : [(offset.toNat + layout.sizeAt, layout.encodeSize len),
      (offset.toNat + layout.digestAt, digest)].Pairwise fun first second =>
        first.1 + first.2.length ≤ second.1 ∨ second.1 + second.2.length ≤ first.1 := by
    simp only [List.pairwise_cons, List.mem_singleton, forall_eq, layout.encodeSize_length]
    refine ⟨.inl (by omega), ?_⟩
    simp
  have size := @load_storeAll _ cells _ (offset.toNat + layout.sizeAt, layout.encodeSize len) apart
    (by simp)
  have stored := @load_storeAll _ cells _ (offset.toNat + layout.digestAt, digest) apart (by simp)
  simp only [layout.encodeSize_length, full] at size stored
  refine ⟨?_, stored⟩
  rw [sizeOn, setHeader, size, layout.decode_encode]

theorem entityStart_setHeader (full : digest.length = 16) :
    entityStart layout (setHeader layout cells offset.toNat len digest) offset =
      entityStart layout cells offset := by
  have sizeFront := layout.sizeFront
  have summedFront := layout.summedFront
  unfold entityStart metasizeOn
  cases metasizeAt : layout.metasizeAt with
  | none => rfl
  | some field =>
      have front := layout.metasizeFront field metasizeAt
      simp only
      rw [load_setHeader full fun index below => ⟨.inl (by omega), .inl (by omega)⟩]

/-- A header patched with the size and the digest of its data needs no repair. -/
theorem digestRight_setHeader {chip : Chip}
    (digestIs : entityDigest layout chip cells offset dataSize md5 = digest)
    (lenIs : len.toNat = entitySize layout chip cells offset dataSize) :
    let after := setHeader layout cells offset.toNat len digest
    DigestRight layout chip after offset dataSize md5 ∧
      entitySize layout chip after offset dataSize = entitySize layout chip cells offset dataSize := by
  intro after
  have sizeFront := layout.sizeFront
  have summedFront := layout.summedFront
  have digestLast := layout.digestLast
  have full : digest.length = 16 := by
    rw [← digestIs]
    exact Vector.length_toList
  obtain ⟨size, stored⟩ := @setHeader_fields layout cells offset len _ full
  have startSame := @entityStart_setHeader layout cells offset len _ full
  have front : offset.toNat + layout.headerSize ≤ entityStart layout cells offset :=
    Nat.le_add_right _ _
  have sizeSame : entitySize layout chip after offset dataSize =
      entitySize layout chip cells offset dataSize := by
    have capped := lenIs
    rw [entitySize] at capped
    rw [entitySize, startSame, size, lenIs, entitySize]
    omega
  refine ⟨?_, sizeSame⟩
  rw [DigestRight, stored, ← digestIs, entityDigest, entityDigest, startSame, sizeSame,
    load_setHeader full fun index below => ⟨.inr (by omega), .inl (by omega)⟩,
    load_setHeader full fun index below => ⟨.inr (by omega), .inr (by omega)⟩]

end

/-! ## When a header is repaired -/

/-- What is promised of a call that returned `summed` and did `log`; `fix` is the command,
called with the same arguments again. -/
structure Repaired (layout : HeaderLayout) (md5 : List UInt8 → Digest) (board : Board) (dev : Nat)
    (fix : Host → FlashMemory → Except Halt (Option (Nat × Nat) × List FlashEvent))
    (memory : FlashMemory) (offset dataSize : UInt32) (summed : Option (Nat × Nat))
    (log : List FlashEvent) : Prop where
  range : summed = some (entityStart layout (memory dev) offset,
    entitySize layout (board.chip dev) (memory dev) offset dataSize)
  block : ∀ event ∈ log, event.dev = dev ∧ event.len = (board.chip dev).erasesize ∧
    event.start = offset.toNat / (board.chip dev).erasesize * (board.chip dev).erasesize
  others : ∀ other place, other ≠ dev ∨ OutsideFields layout offset.toNat place →
    replay memory log other place = memory other place
  digest : DigestRight layout (board.chip dev) (replay memory log dev) offset dataSize md5
  size : log = [] ∨ (sizeOn layout (replay memory log dev) offset).toNat =
    entitySize layout (board.chip dev) (memory dev) offset dataSize
  again : ∀ host, WritesNothing ((fix host (replay memory log)).map Prod.snd)

/-- The call returns and keeps the promises; something that fails beside the chip can only
keep it from writing at all. -/
def RepairsHeader (layout : HeaderLayout) (md5 : List UInt8 → Digest) (board : Board) (dev : Nat)
    (fix : Host → FlashMemory → Except Halt (Option (Nat × Nat) × List FlashEvent))
    (memory : FlashMemory) (offset dataSize : UInt32) : Prop :=
  ∃ summed log, fix Host.sound memory = .ok (summed, log) ∧
    Repaired layout md5 board dev fix memory offset dataSize summed log ∧
      ∀ host, WritesNothing ((fix host memory).map Prod.snd) ∨ fix host memory = .ok (summed, log)

theorem reachable_of_summed {summed : Option (Nat × Nat)} {log : List FlashEvent}
    (header : HasHeader layout (board.chip dev) (memory dev) offset)
    (call : mtdFixHeader board host md5 layout memory dev globals offset dataSize = .ok (summed, log))
    (range : summed = some (entityStart layout (memory dev) offset,
      entitySize layout (board.chip dev) (memory dev) offset dataSize)) :
    Reachable layout (board.chip dev) (memory dev) globals offset dataSize := by
  obtain ⟨⟨after, firstBlock, start, len⟩, found, call⟩ := bind_eq_ok.mp call
  obtain ⟨⟨summed', patched⟩, fixed, call⟩ := bind_eq_ok.mp call
  have same : summed' = summed := by
    simp only at call
    cases patched with
    | none =>
        simp only [pure, Except.pure, Except.ok.injEq, Prod.mk.injEq] at call
        exact call.1
    | some block =>
        obtain ⟨written, _, call⟩ := bind_eq_ok.mp call
        simp only [pure, Except.pure, Except.ok.injEq, Prod.mk.injEq] at call
        exact call.1
  obtain ⟨-, blockIs, -, startIs, lenIs⟩ := findEntity_ok found
  rw [same, range, blockIs] at fixed
  obtain ⟨rangeIs, room, onDevice⟩ := fixMd5_summed load_length fixed
  simp only [Prod.mk.injEq] at rangeIs
  obtain ⟨startSame, lenSame⟩ := rangeIs
  have split := @base_add offset (UInt32.ofNat globals.erasesize)
  have startNat := @start_toNat layout _ (memory dev) offset _ room _ rfl
  rw [← startIs, ← startSame, entityStart] at startNat
  have base : (offset &&& ~~~(UInt32.ofNat globals.erasesize - 1)).toNat = 0 := by omega
  refine ⟨UInt32.toNat_inj.mp base, by omega, ?_⟩
  rcases onDevice with empty | inside
  · rw [lenSame, empty, startSame, cappedSize_empty header.size (lenIs ▸ empty)]
    exact Nat.le_refl _
  · rw [startSame, lenSame]
    exact inside

/-- The stale erase size must put the header in the first block, where it has to be. -/
theorem repairsHeader_iff
    (works : Works board dev (offset.toNat / (board.chip dev).erasesize))
    (header : HasHeader layout (board.chip dev) (memory dev) offset) :
    RepairsHeader layout md5 board dev
        (fun host memory => mtdFixHeader board host md5 layout memory dev globals offset dataSize)
        memory offset dataSize ↔
      Reachable layout (board.chip dev) (memory dev) globals offset dataSize := by
  constructor
  · intro repairs
    obtain ⟨summed, log, call, repaired, -⟩ := repairs
    exact reachable_of_summed header call repaired.range
  · intro reachable
    have room := reachable.room
    have digestLast := layout.digestLast
    have firstBlock : offset.toNat / (board.chip dev).erasesize = 0 := Nat.div_eq_of_lt (by omega)
    rw [firstBlock] at works
    obtain ⟨start, len, startIs, lenIs, call⟩ := @mtdFixHeader_sound board md5 layout memory dev globals
      offset dataSize works header reachable
    rw [startIs, lenIs] at call
    have others := fun host => @mtdFixHeader_cases board host md5 layout memory dev globals offset
      dataSize works.opens header reachable
    rw [call] at others
    refine ⟨_, _, call, ?_, others⟩
    by_cases right : DigestRight layout (board.chip dev) (memory dev) offset dataSize md5
    · rw [DigestRight] at right
      rw [if_pos right]
      exact {
        range := rfl
        block := fun _ member => absurd member List.not_mem_nil
        others := fun _ _ _ => rfl
        digest := right
        size := .inl rfl
        again := fun _ => mtdFixHeader_idle reachable right }
    · rw [DigestRight] at right
      rw [if_neg right]
      generalize digestIs : entityDigest layout (board.chip dev) (memory dev) offset dataSize md5 = digest
      have sizeFront := layout.sizeFront
      have summedFront := layout.summedFront
      have full : digest.length = 16 := by
        rw [← digestIs]
        exact Vector.length_toList
      obtain ⟨digestAfter, sizeAfter⟩ := digestRight_setHeader digestIs lenIs
      have after := @replay_fillSlot_load memory ⟨dev, 0⟩ (board.chip dev).erasesize
        (setHeader layout (memory dev) offset.toNat len digest)
        fun place outside => setHeader_outside full (by
          simp only [Nat.zero_mul] at outside
          exact ⟨by omega, by omega⟩)
      have onDev : replay memory (fillSlot (board.chip dev).erasesize ⟨dev, 0⟩
          (load (setHeader layout (memory dev) offset.toNat len digest)
            (0 * (board.chip dev).erasesize) (board.chip dev).erasesize)) dev =
              setHeader layout (memory dev) offset.toNat len digest := by
        rw [after, Function.update_self]
      refine ⟨rfl, ?_, ?_, ?_, .inr ?_, fun host => mtdFixHeader_idle ?_ ?_⟩
      · intro event member
        rw [firstBlock]
        simp only [fillSlot, List.mem_cons, List.not_mem_nil, or_false] at member
        rcases member with rfl | rfl
        · exact ⟨rfl, rfl, rfl⟩
        · exact ⟨rfl, load_length, rfl⟩
      · intro other place outside
        rw [after]
        by_cases same : other = dev
        · subst same
          rw [Function.update_self]
          exact setHeader_outside full (outside.resolve_left (fun differs => differs rfl))
        · rw [Function.update_of_ne same]
      · rw [onDev]
        exact digestAfter
      · rw [onDev, (setHeader_fields full).1, lenIs]
      · refine ⟨reachable.base, room, ?_⟩
        rw [onDev, entityStart_setHeader full, sizeAfter]
        exact reachable.data
      · rw [onDev]
        exact digestAfter

/-! ## The three commands -/

inductive HeaderTool where
  | seama
  | wrgg (bigEndian : Bool)
  | wrg

namespace HeaderTool

def headerLayout : HeaderTool → HeaderLayout
  | seama => seamaEntityHeader
  | wrgg bigEndian => wrgg03Header bigEndian
  | wrg => wrgHeader

def fix (tool : HeaderTool) (board : Board) (md5 : List UInt8 → Digest) (dev : Nat) (globals : Globals)
    (offset dataSize : UInt32) (host : Host) (memory : FlashMemory) :
    Except Halt (Option (Nat × Nat) × List FlashEvent) :=
  match tool with
  | seama => mtdFixseama board host md5 memory dev globals offset dataSize
  | wrgg bigEndian => mtdFixwrgg board host md5 memory dev bigEndian globals offset dataSize
  | wrg => mtdFixwrg board host md5 memory dev globals offset dataSize

variable {tool : HeaderTool}

theorem repairs_iff (works : Works board dev (offset.toNat / (board.chip dev).erasesize))
    (header : HasHeader tool.headerLayout (board.chip dev) (memory dev) offset) :
    RepairsHeader tool.headerLayout md5 board dev (tool.fix board md5 dev globals offset dataSize) memory
        offset dataSize ↔
      Reachable tool.headerLayout (board.chip dev) (memory dev) globals offset dataSize := by
  cases tool with
  | seama => exact repairsHeader_iff works header
  | wrgg bigEndian => exact repairsHeader_iff works header
  | wrg => exact repairsHeader_iff works header

/-! ## A device with two seama entities

The digest is that of four bytes 0xff. -/

def twoEntities : Board where
  chip _ :=
    { size := 96, erasesize := 32, nand := false, bad := fun _ => false,
      eraseFails := fun _ => false, writeFails := fun _ => false,
      wide := wide_32, aligned := by decide, nonempty := by decide, small := by decide }
  opens _ := true
  heap _ := 0

def twoEntitiesMemory : FlashMemory := fun _ =>
  storeAll (fun _ => 0xff) [(0, be32 SEAMA_MAGIC), (6, [0, 0]), (8, be32 4),
    (32, be32 SEAMA_MAGIC), (38, [0, 0]), (40, be32 4)]

def digestOfSample : List UInt8 → Digest := fun _ =>
  #v[0xa5, 0x4f, 0x00, 0x41, 0xa9, 0xe1, 0x5b, 0x05, 0x0f, 0x25, 0xc4, 0x63, 0xf1, 0xdb, 0x74, 0x49]

theorem repairs_iff_first :
    RepairsHeader seama.headerLayout digestOfSample twoEntities 0
      (seama.fix twoEntities digestOfSample 0 ⟨0, 0, false⟩ 0 0) twoEntitiesMemory 0 0 :=
  (@repairs_iff twoEntities digestOfSample twoEntitiesMemory 0 ⟨0, 0, false⟩ 0 0 seama
      ⟨rfl, rfl, rfl, rfl⟩ ⟨by decide, by decide, by decide⟩).mpr
    ⟨by decide, by decide, by decide⟩

/-- Called first, the command leaves its memory; called after another that opened the
device, it sums up what lies behind the first header. -/
theorem fix_second :
    ¬ RepairsHeader seama.headerLayout digestOfSample twoEntities 0
        (seama.fix twoEntities digestOfSample 0 ⟨0, 0, false⟩ 32 0) twoEntitiesMemory 32 0 ∧
      ¬ RepairsHeader seama.headerLayout digestOfSample twoEntities 0
        (seama.fix twoEntities digestOfSample 0 ⟨96, 32, false⟩ 32 0) twoEntitiesMemory 32 0 := by
  constructor
  · intro repairs
    obtain ⟨summed, log, call, -⟩ := repairs
    have stuck : seama.fix twoEntities digestOfSample 0 ⟨0, 0, false⟩ 32 0 Host.sound
        twoEntitiesMemory = .error (.stuck []) := rfl
    rw [stuck] at call
    cases call
  · intro repairs
    obtain ⟨summed, log, call, repaired, -⟩ := repairs
    have wrong : (seama.fix twoEntities digestOfSample 0 ⟨96, 32, false⟩ 32 0 Host.sound
        twoEntitiesMemory).map Prod.fst = .ok (some (28, 4)) := rfl
    have right := repaired.range
    rw [call] at wrong
    simp only [Except.map, Except.ok.injEq] at wrong
    rw [wrong] at right
    revert right
    decide

end HeaderTool

end Rut9xx.Mtd.ImageHeader
