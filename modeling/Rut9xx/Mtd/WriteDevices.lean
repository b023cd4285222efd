import Rut9xx.Mtd.WriteRun
import Rut9xx.Mtd.WriteTrace

namespace Rut9xx.Mtd

open Rut9xx.Data

/-! # One device or several, from the first block on -/

/-! ## A board with two chips -/

/-- A NAND chip of three blocks. -/
def sampleChip (bad eraseFails : Nat → Bool) : Chip where
  size := 12
  erasesize := 4
  nand := true
  bad := bad
  eraseFails := eraseFails
  writeFails := fun _ => false
  wide := by decide
  aligned := by decide
  nonempty := by decide
  small := by decide

/-- Block 0 of the first device is bad and block 2 cannot be erased. -/
def sampleBoard : Board where
  chip dev := if dev = 0 then sampleChip (· == 0) (· == 2) else sampleChip (· == 1) fun _ => false
  opens := fun _ => true
  heap := fun _ => 0

def plainOptions : WriteOptions where
  partOffset := 0
  noErase := false
  jffs2file := none
  jffs2SkipBytes := 0
  tplUbootArgsPart := none
  fixup := fun _ _ => []

def sampleImage : Image := ⟨[2, 3, 4, 5, 6], [.chunk 0, .interrupted], false⟩

/-- The good blocks begin with the padded image; what was written was erased before, on the
same device, and no other block was touched. -/
structure ImageStored (board : Board) (es k : Nat) (devs : List Nat) (stream : List UInt8)
    (contents : FlashMemory) (log : List FlashEvent) : Prop where
  begins : (padChunks es stream).flatten <+:
    ((targets board k devs).map (readSlot es (replay contents log))).flatten
  erased : ErasedFirst es log
  good : ∀ event ∈ log, ∃ slot ∈ targets board k devs,
    event.dev = slot.dev ∧ event.start = slot.block * es ∧ event.len = es

section

variable {board : Board} {options : WriteOptions} {memory contents : FlashMemory} {es k dev : Nat}
  {devs next : List Nat} {stream buf : List UInt8} {image : Image} {log : List FlashEvent}

theorem read_of_begins {slots : List Slot} {chunks : List (List UInt8)} {slot : Slot}
    {chunk : List UInt8} {read : Slot → List UInt8} (inside : chunks <+: slots.map read)
    (pair : (slot, chunk) ∈ (slots.take chunks.length).zip chunks) : read slot = chunk := by
  obtain ⟨rest, whole⟩ := inside
  obtain ⟨index, below, pairEq⟩ := List.getElem_of_mem pair
  simp only [List.getElem_zip, Prod.mk.injEq, List.getElem_take] at pairEq
  rw [List.length_zip, List.length_take] at below
  have inSlots : index < slots.length := by omega
  have inChunks : index < chunks.length := by omega
  have here := congrArg (fun blocks => blocks[index]?) whole
  simp only [List.getElem?_append_left inChunks, List.getElem?_map,
    List.getElem?_eq_getElem inSlots, List.getElem?_eq_getElem inChunks, Option.map_some,
    Option.some.injEq] at here
  rw [← pairEq.1, ← pairEq.2]
  exact here.symm

/-- Filling the first good blocks with the image stores it. -/
theorem imageStored_of_fill
    (lengths : ((targets board k devs).take (padChunks es stream).length).length =
      (padChunks es stream).length)
    (agree : ∀ first ∈ ((targets board k devs).take (padChunks es stream).length).zip
        (padChunks es stream),
      ∀ second ∈ ((targets board k devs).take (padChunks es stream).length).zip
        (padChunks es stream), first.1 = second.1 → first.2 = second.2) :
    ImageStored board es k devs stream contents
      (fillSlots es ((targets board k devs).take (padChunks es stream).length)
        (padChunks es stream)) where
  begins := by
    refine flatten_prefix ?_
    have stored := @readSlot_fillSlots contents es
      ((targets board k devs).take (padChunks es stream).length) (padChunks es stream) agree lengths
      fun block member => padChunks_block_length member
    rw [List.map_take] at stored
    exact List.prefix_iff_eq_take.mpr stored.symm
  erased := ErasedFirst.nil.fillSlots fun block member => padChunks_block_length member
  good := by
    intro event member
    obtain ⟨slot, inside, devEq, startEq, lenEq⟩ :=
      mem_fillSlots (fun block member => padChunks_block_length member) member
    exact ⟨slot, List.mem_of_mem_take inside, devEq, startEq, lenEq⟩

/-! ## One device -/

theorem smooth_single {count : Nat} : Smooth board 0 [dev] count :=
  ⟨fun _ _ _ bad => bad, fun another => absurd rfl another⟩

theorem targets_single_nodup : (targets board k [dev]).Nodup := by
  rw [targets, List.flatMap_cons, List.flatMap_nil, List.append_nil]
  refine List.Nodup.map (fun first second same => ?_) Chip.goodBlocks_nodup
  cases same
  rfl

theorem setup_plain (erases : options.noErase = false) (noFlag : options.tplUbootArgsPart = none)
    (offset : options.partOffset = k * es)
    (equal : ∀ other ∈ devs, (board.chip other).erasesize = es) :
    Setup board options es k devs where
  erases := erases
  offset := offset
  equal := equal
  flagSize := by
    intro part flag
    rw [noFlag] at flag
    cases flag
  flagKind := by
    intro part flag
    rw [noFlag] at flag
    cases flag
  flagApart := by
    intro other _ flag
    rw [noFlag] at flag
    cases flag

theorem onFlag_none (noFlag : options.tplUbootArgsPart = none) (onFlag : OnFlag options log) :
    log = [] := by
  cases log with
  | nil => rfl
  | cons event rest =>
      have flag := onFlag event (by simp)
      rw [noFlag] at flag
      cases flag

theorem mtdWrite_fills_plain (erases : options.noErase = false)
    (noFile : options.jffs2file = none) (noFlag : options.tplUbootArgsPart = none)
    (offset : options.partOffset = k * es)
    (equal : ∀ other ∈ dev :: next, (board.chip other).erasesize = es)
    (short : buf.length ≤ es)
    (smooth : Smooth board k (dev :: next) (padChunks es (buf ++ image.rest)).length)
    (ran : mtdWrite board options memory dev next buf image = .ok log) :
    let chunks := padChunks es (buf ++ image.rest)
    let slots := (targets board k (dev :: next)).take chunks.length
    log = fillSlots es slots chunks ∧ slots.length = chunks.length := by
  obtain ⟨prelude, cleared, logEq, lengths, onFlag, onFlagToo, -⟩ :=
    mtdWrite_fills (setup_plain erases noFlag offset equal) noFile short smooth ran
  have noPrelude := onFlag_none noFlag onFlag
  have noCleared := onFlag_none noFlag onFlagToo
  subst noPrelude noCleared
  rw [List.nil_append, List.append_nil] at logEq
  exact ⟨logEq, lengths⟩

/-- However the reads cut up the image and whichever blocks are bad, a write to one device
that returns has stored it. -/
theorem mtdWrite_single (erases : options.noErase = false) (noFile : options.jffs2file = none)
    (noFlag : options.tplUbootArgsPart = none) (noOffset : options.partOffset = 0)
    (short : buf.length ≤ (board.chip dev).erasesize)
    (ran : mtdWrite board options memory dev [] buf image = .ok log) :
    ImageStored board (board.chip dev).erasesize 0 [dev] (buf ++ image.rest) memory log := by
  obtain ⟨logEq, lengths⟩ := mtdWrite_fills_plain erases noFile noFlag
    (by rw [noOffset, Nat.zero_mul]) (fun other member => by rw [List.mem_singleton.mp member])
    short smooth_single ran
  rw [logEq]
  exact imageStored_of_fill lengths
    (agree_of_nodup (targets_single_nodup.sublist (List.take_sublist _ _)))

theorem mtdWrite_single_sample : ∃ log,
    mtdWrite sampleBoard plainOptions (fun _ _ => 0) 1 [] [1] sampleImage = .ok log ∧
      ImageStored sampleBoard 4 0 [1] [1, 2, 3, 4, 5, 6] (fun _ _ => 0) log :=
  ⟨_, rfl, @mtdWrite_single sampleBoard plainOptions (fun _ _ => 0) 1 [1] sampleImage _
    rfl rfl rfl rfl (by decide) rfl⟩

/-! ## Several devices -/

theorem smooth_of_erasable {count : Nat}
    (erasable : ∀ slot ∈ (targets board 0 devs).take count,
      (board.chip slot.dev).eraseFails slot.block = false) : Smooth board 0 devs count := by
  induction devs generalizing count with
  | nil => trivial
  | cons dev next ih =>
      have split : targets board 0 (dev :: next) =
          ((board.chip dev).goodBlocks 0).map (Slot.mk dev) ++ targets board 0 next :=
        List.flatMap_cons
      rw [split, List.take_append, List.length_map] at erasable
      refine ⟨fun _ _ _ bad => bad, fun _ => ⟨fun _ _ _ bad => bad, fun j member => ?_, fun few => ?_⟩⟩
      · refine erasable ⟨dev, j⟩ (List.mem_append.mpr (.inl ?_))
        rw [← List.map_take]
        exact List.mem_map_of_mem member
      · cases kind : (board.chip dev).nand with
        | true => exact .inl ⟨rfl, rfl⟩
        | false =>
            refine .inr ⟨fun i _ => ?_, ih fun slot member => ?_⟩
            · rw [Chip.isGood, Chip.isBad, kind]
              rfl
            · exact erasable slot (List.mem_append.mpr (.inr member))

/-- A block whose erase fails is left as it was by a run that keeps to the rules. -/
theorem readSlot_unerasable {slot : Slot} (stored : ImageStored board es k devs stream contents log)
    (equal : ∀ other ∈ devs, (board.chip other).erasesize = es)
    (allowed : ∀ event ∈ log, Allowed board devs event)
    (fails : (board.chip slot.dev).eraseFails slot.block = true) :
    readSlot es (replay contents log) slot = readSlot es contents slot := by
  have neverErased : .erase slot.dev (slot.block * es) es ∉ log := by
    intro member
    obtain ⟨inDevs, accepted⟩ := allowed _ member
    have erased := accepted _ _ _ rfl
    rw [← equal slot.dev inDevs, Chip.erases_block, fails] at erased
    exact absurd erased.2.2 (by simp)
  refine readBytes_congr fun offset above below => replay_of_outside fun event member onDev => ?_
  obtain ⟨other, -, devEq, startEq, lenEq⟩ := stored.good event member
  rw [startEq, lenEq]
  refine slots_apart ?_ (onDev.symm.trans devEq) ⟨above, below⟩
  rintro rfl
  cases event with
  | erase dev start len =>
      simp only [FlashEvent.dev, FlashEvent.start, FlashEvent.len] at devEq startEq lenEq
      subst devEq startEq lenEq
      exact neverErased member
  | program dev start bytes =>
      simp only [FlashEvent.dev, FlashEvent.start] at devEq startEq
      subst devEq startEq
      obtain ⟨earlier, later, rfl⟩ := List.append_of_mem member
      obtain ⟨-, before, between, rfl, -⟩ := stored.erased _ _ _ _ _ rfl
      exact neverErased (by simp)

/-- The blocks that take the image can be erased, and where a device named twice puts two
blocks of the image into one place the two are the same. -/
def Sustains (board : Board) (devs : List Nat) (chunks : List (List UInt8)) : Prop :=
  let slots := (targets board 0 devs).take chunks.length
  (∀ slot ∈ slots, (board.chip slot.dev).eraseFails slot.block = false) ∧
    ∀ first ∈ slots.zip chunks, ∀ second ∈ slots.zip chunks,
      first.1 = second.1 → first.2 = second.2

/-- A write to several devices that returns has stored the image, whatever was on the flash,
exactly if no device was left for a good block that could not be erased. -/
theorem mtdWrite_devices_iff (erases : options.noErase = false)
    (noFile : options.jffs2file = none) (noFlag : options.tplUbootArgsPart = none)
    (noOffset : options.partOffset = 0)
    (equal : ∀ other ∈ dev :: next, (board.chip other).erasesize = es) (short : buf.length ≤ es)
    (ran : mtdWrite board options memory dev next buf image = .ok log) :
    (∀ contents, mtdWrite board options contents dev next buf image = .ok log ∧
        ImageStored board es 0 (dev :: next) (buf ++ image.rest) contents log) ↔
      Sustains board (dev :: next) (padChunks es (buf ++ image.rest)) := by
  have positive : 0 < es := by
    rw [← equal dev (by simp)]
    exact Chip.erasesize_pos
  constructor
  · intro holds
    have blocks : ∀ contents, padChunks es (buf ++ image.rest) <+:
        (targets board 0 (dev :: next)).map (readSlot es (replay contents log)) := by
      intro contents
      refine prefix_of_flatten (fun block member => padChunks_block_length member) ?_ positive
        (holds contents).2.begins
      intro block member
      obtain ⟨slot, -, rfl⟩ := List.mem_map.mp member
      exact readBytes_length
    have allowed : ∀ event ∈ log, Allowed board (dev :: next) event := by
      obtain ⟨main, cleared, rfl, ⟨prelude, rest, rfl, onFlag, -, allowed⟩, onFlagToo⟩ :=
        mtdWrite_logged noFile (fun other _ => by rw [noFlag]; simp) ran
      rw [onFlag_none noFlag onFlag, onFlag_none noFlag onFlagToo]
      simpa using allowed
    refine ⟨fun slot member => ?_, fun first firstIn second secondIn same => ?_⟩
    · by_contra fails
      rw [Bool.not_eq_false] at fails
      obtain ⟨index, below, slotEq⟩ := List.getElem_of_mem member
      have inChunks := below
      rw [List.length_take] at inChunks
      have pair : (slot, (padChunks es (buf ++ image.rest))[index]) ∈
          ((targets board 0 (dev :: next)).take (padChunks es (buf ++ image.rest)).length).zip
            (padChunks es (buf ++ image.rest)) :=
        List.mem_iff_getElem.mpr ⟨index, by
          rw [List.length_zip]
          omega, by rw [List.getElem_zip, slotEq]⟩
      -- the block would have to hold the same bytes whatever it held before
      have unchanged : ∀ contents, readSlot es contents slot =
          (padChunks es (buf ++ image.rest))[index] := fun contents =>
        (readSlot_unerasable (holds contents).2 equal allowed fails).symm.trans
          (read_of_begins (blocks contents) pair)
      have same := (unchanged fun _ _ => 0).trans (unchanged fun _ _ => 1).symm
      have first := congrArg (fun bytes => bytes[0]?) same
      simp [readSlot, readBytes, positive] at first
    · rw [← read_of_begins (blocks memory) firstIn, ← read_of_begins (blocks memory) secondIn,
        same]
  · rintro ⟨erasable, agree⟩ contents
    have ranToo := mtdWrite_memory contents noFlag noFile ran
    obtain ⟨logEq, lengths⟩ := mtdWrite_fills_plain erases noFile noFlag
      (by rw [noOffset, Nat.zero_mul]) equal short (smooth_of_erasable erasable) ran
    refine ⟨ranToo, ?_⟩
    rw [logEq]
    exact imageStored_of_fill lengths agree

end

theorem mtdWrite_devices_iff_sample : ∃ log,
    mtdWrite sampleBoard plainOptions (fun _ _ => 0) 1 [0] [1] sampleImage = .ok log ∧
      ((∀ contents, mtdWrite sampleBoard plainOptions contents 1 [0] [1] sampleImage = .ok log ∧
          ImageStored sampleBoard 4 0 [1, 0] [1, 2, 3, 4, 5, 6] contents log) ↔
        Sustains sampleBoard [1, 0] (padChunks 4 [1, 2, 3, 4, 5, 6])) :=
  ⟨_, rfl, mtdWrite_devices_iff rfl rfl rfl rfl (by decide) (by decide) rfl⟩

/-- The second block of the image goes to a block that was not erased, and then the bytes
behind the buffer go to the second device. -/
theorem mtdWrite_left_early : ∃ log,
    mtdWrite sampleBoard plainOptions (fun _ _ => 0) 0 [1] [1] sampleImage = .ok log ∧
      ¬ImageStored sampleBoard 4 0 [0, 1] [1, 2, 3, 4, 5, 6] (fun _ _ => 0) log := by
  refine ⟨_, rfl, fun stored => ?_⟩
  exact absurd stored.begins (by decide +kernel)

end Rut9xx.Mtd
