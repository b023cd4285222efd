import Rut9xx.Mtd.Jffs2Directory
import Rut9xx.Mtd.Jffs2Flush

namespace Rut9xx.Mtd.Append

open Rut9xx.Data

/-! # What the return value of an append says -/

variable {board : Board} {readFails : Nat → Bool} {malloc : Bool} {memory : FlashMemory}
  {dev erasesize mtdofs : Nat} {file : SourceFile} {dir whole content : List UInt8}
  {blocks nodes other : List (List UInt8)} {log : List FlashEvent}

/-- Blocks that are made of nodes for all of the file, behind others. -/
def CompleteFile (erasesize : Nat) (file : SourceFile) (whole : List UInt8)
    (blocks : List (List UInt8)) : Prop :=
  ∃ st front parent version ino inodes, file.stat = some st ∧ (∀ node ∈ front, ValidNode node) ∧
    MadeOf erasesize blocks (front ++ rawDirent file.name 8 parent version ino :: inodes) ∧
    FileNodes ino st 0 (version + 1) inodes whole

/-- The good blocks from the end of the log on hold these blocks. -/
def OnFlash (chip : Chip) (dev mtdofs : Nat) (memory : FlashMemory) (blocks : List (List UInt8)) :
    Prop :=
  (flushSlots chip dev (mtdofs / chip.erasesize) blocks.length).map
    (readSlot chip.erasesize memory) = blocks

def Room (chip : Chip) (mtdofs : Nat) (blocks : List (List UInt8)) : Prop :=
  blocks.length ≤ (chip.goodBlocks (mtdofs / chip.erasesize)).length

section

variable (board : Board) (readFails : Nat → Bool) (malloc : Bool) (memory : FlashMemory) (dev : Nat)
  (file : SourceFile) (dir whole : List UInt8)

/-- All of the file, which holds `whole`, and the end mark are on the flash. -/
def Stored (log : List FlashEvent) : Prop :=
  ∃ mtdofs blocks, planAppend board readFails memory dev file dir = .write mtdofs blocks ∧
    CompleteFile (board.chip dev).erasesize file whole blocks ∧
    OnFlash (board.chip dev) dev mtdofs (replay memory log) blocks

/-- The file cannot be opened, a block was not taken, or there was no room for one. -/
def Fails (log : List FlashEvent) : Prop :=
  file.stat = none ∨ file.opens = false ∨
    ∃ mtdofs blocks, planAppend board readFails memory dev file dir = .write mtdofs blocks ∧
      ((programs log).length < blocks.length ∨ ¬ Room (board.chip dev) mtdofs blocks)

/-- A program that exits or goes on for ever returns nothing. -/
def AllOrError : Prop :=
  ∀ ret log, mtdWriteJffs2 board readFails malloc memory dev file dir = .ok (ret, log) →
    (ret = 0 → Stored board readFails memory dev file dir whole log) ∧
      (Fails board readFails memory dev file dir log → ret ≠ 0)

/-- When the append comes to writing: a NAND chip has too few good blocks, or all of the
file was read, there is room for its blocks, every write works and each block is erased
or takes the data as it is. -/
def AppendCondition : Prop :=
  board.opens dev = true → malloc = true →
    ∀ mtdofs blocks, planAppend board readFails memory dev file dir = .write mtdofs blocks →
      (board.chip dev).nand = true ∧ ¬ Room (board.chip dev) mtdofs blocks ∨
      (file.stat ≠ none ∧ file.opens = true ∧ file.content = whole) ∧
        Room (board.chip dev) mtdofs blocks ∧
        ∀ pair ∈ (flushSlots (board.chip dev) dev (mtdofs / (board.chip dev).erasesize)
            blocks.length).zip blocks,
          (board.chip dev).writeFails (pair.1.block * (board.chip dev).erasesize) = false ∧
            Takes (board.chip dev).erasesize memory (erasable (board.chip dev)) pair.1 pair.2

end

/-! ## The nodes of a file say what it holds -/

theorem MadeOf.unique (aligned : 4 ∣ erasesize) (made : MadeOf erasesize blocks nodes)
    (also : MadeOf erasesize blocks other) (valid : ∀ node ∈ nodes, ValidNode node)
    (validOther : ∀ node ∈ other, ValidNode node) : nodes = other := by
  obtain ⟨groups, rfl, fits, rfl⟩ := made
  obtain ⟨groups', same, fits', rfl⟩ := also
  have maps := (List.append_inj' same rfl).1
  clear same
  congr 1
  induction groups generalizing groups' with
  | nil =>
      rw [List.map_nil, eq_comm, List.map_eq_nil_iff] at maps
      exact maps.symm
  | cons group groups ih =>
      cases groups' with
      | nil => cases maps
      | cons group' groups' =>
          rw [List.map_cons, List.map_cons, List.cons.injEq] at maps
          rw [List.forall_mem_cons] at fits fits'
          rw [List.flatten_cons, List.forall_mem_append] at valid validOther
          have first := eraseblock_holds aligned fits.1 valid.1
          have second := eraseblock_holds aligned fits'.1 validOther.1
          rw [maps.1] at first
          rw [(List.cons.inj (first.unique second)).2,
            ih fits.2 valid.2 groups' fits'.2 validOther.2 maps.2]

theorem fileNodes_content {ino offset version : UInt32} {st : Stat}
    (made : FileNodes ino st offset version nodes content) :
    content = (nodes.map (List.drop sizeofRawInode)).flatten := by
  induction made with
  | done => rfl
  | @node offset version data content nodes some' short rest ih =>
      have header : (rawInode ino (version + 1) st offset data).length = sizeofRawInode :=
        rawInode_length
      rw [List.map_cons, List.flatten_cons, ← ih, List.drop_left' header]

/-- What follows the last dirent. -/
theorem behind_dirent {front inodes : List (List UInt8)} {entry : List UInt8}
    (dirent : IsDirent entry) (others : ∀ node ∈ inodes, ¬ IsDirent node) :
    ((front ++ entry :: inodes).reverse.takeWhile fun node => decide (¬ IsDirent node)).reverse =
      inodes := by
  rw [List.reverse_append, List.reverse_cons, List.append_assoc,
    List.takeWhile_append_of_pos (by
      intro node member
      simpa using others node (List.mem_reverse.mp member))]
  simp [dirent]

theorem completeFile_content {st : Stat} {front inodes : List (List UInt8)}
    {parent version ino : UInt32} (aligned : 4 ∣ erasesize) (short : file.name.length ≤ 255)
    (text : (0 : UInt8) ∉ file.name) (complete : CompleteFile erasesize file whole blocks)
    (valid : ∀ node ∈ front, ValidNode node)
    (made : MadeOf erasesize blocks (front ++ rawDirent file.name 8 parent version ino :: inodes))
    (nodes : FileNodes ino st 0 (version + 1) inodes content) : content = whole := by
  obtain ⟨st', front', parent', version', ino', inodes', -, valid', made', nodes'⟩ := complete
  have entry := @rawDirent_read file.name parent version ino 8 short text
  have entry' := @rawDirent_read file.name parent' version' ino' 8 short text
  have read := FileNodes.read nodes
  have read' := FileNodes.read nodes'
  have same := MadeOf.unique aligned made made'
    (List.forall_mem_append.mpr ⟨valid, List.forall_mem_cons.mpr ⟨entry.1, fun node member =>
      (read node member).1⟩⟩)
    (List.forall_mem_append.mpr ⟨valid', List.forall_mem_cons.mpr ⟨entry'.1, fun node member =>
      (read' node member).1⟩⟩)
  have behind := @behind_dirent front inodes _ entry.2.1 fun node member => (read node member).2
  have behind' := @behind_dirent front' inodes' _ entry'.2.1 fun node member => (read' node member).2
  rw [same, behind'] at behind
  rw [fileNodes_content nodes, fileNodes_content nodes', behind]

/-! ## What is planned -/

/-- The log ends at the start of a block. -/
theorem findLogEnd_place {fuel index : Nat} {read : Nat → Option (List UInt8)} {buf : List UInt8}
    {state found : ScanState}
    (ended : findLogEnd erasesize read dir fuel (index * erasesize) state = .found mtdofs buf found) :
    ∃ k, mtdofs = k * erasesize ∧ read mtdofs = some buf := by
  induction fuel generalizing index state with
  | zero => cases ended
  | succ fuel ih =>
      rw [findLogEnd] at ended
      split at ended
      · cases ended
      · rename_i block blockRead
        split at ended
        · cases ended
        · split at ended
          · split at ended
            · rw [← Nat.succ_mul] at ended
              exact ih ended
            · cases ended
          · cases ended
            exact ⟨index, rfl, blockRead⟩

theorem madeOf_full (room : 4 ≤ erasesize) (made : MadeOf erasesize blocks nodes) :
    ∀ block ∈ blocks, block.length = erasesize := by
  obtain ⟨groups, rfl, fits, -⟩ := made
  intro block member
  rcases List.mem_append.mp member with inGroups | isLast
  · obtain ⟨group, inside, rfl⟩ := List.mem_map.mp inGroups
    exact padBlock_length (fits group inside)
  · rw [List.mem_singleton.mp isLast]
    exact padBlock_length room

/-- What is written, and where. -/
theorem planAppend_write (aligned : 4 ∣ (board.chip dev).erasesize)
    (large : 4096 ≤ (board.chip dev).erasesize) (dirShort : dir.length ≤ 255)
    (dirText : (0 : UInt8) ∉ dir) (short : file.name.length ≤ 255)
    (planned : planAppend board readFails memory dev file dir = .write mtdofs blocks) :
    ∃ k, mtdofs = k * (board.chip dev).erasesize ∧ k < (board.chip dev).blocks ∧
      (∀ block ∈ blocks, block.length = (board.chip dev).erasesize) ∧
      (file.stat ≠ none → ∃ st front parent version ino inodes, file.stat = some st ∧
        (∀ node ∈ front, ValidNode node) ∧
        MadeOf (board.chip dev).erasesize blocks
          (front ++ rawDirent file.name 8 parent version ino :: inodes) ∧
        FileNodes ino st 0 (version + 1) inodes (if file.opens then file.content else [])) := by
  have small : (board.chip dev).erasesize < 2 ^ 31 :=
    lt_of_le_of_lt (Nat.le_of_dvd (board.chip dev).nonempty (board.chip dev).aligned)
      (board.chip dev).small
  rw [planAppend] at planned
  split at planned
  · cases planned
  · cases planned
  · cases planned
  · rename_i place buf found ended
    split at planned
    · cases planned
    · rename_i made appended
      cases planned
      rw [← Nat.zero_mul (board.chip dev).erasesize] at ended
      obtain ⟨k, rfl, blockRead⟩ := findLogEnd_place ended
      have below : k < (board.chip dev).blocks := by
        rw [readBlock] at blockRead
        split at blockRead
        · cases blockRead
        · rename_i inside
          rw [not_or, Nat.not_lt, ← Nat.succ_mul, Chip.size_eq] at inside
          exact Nat.le_of_mul_le_mul_right inside.1 (board.chip dev).erasesize_pos
      cases statEq : file.stat with
      | none =>
          obtain ⟨blocks', appended', madeOf⟩ := @appendBlocks_missing _ dir file found
            (fun index => buf.getD index (board.heap index)) aligned large small dirShort statEq
          rw [appended', Option.some.injEq] at appended
          subst appended
          exact ⟨k, rfl, below, madeOf_full (by omega) madeOf, fun there => absurd rfl there⟩
      | some st =>
          obtain ⟨blocks', inodes, appended', madeOf, nodes⟩ := @appendBlocks_entry _ dir file st found
            (fun index => buf.getD index (board.heap index)) aligned large small dirShort short statEq
          rw [appended', Option.some.injEq] at appended
          subst appended
          exact ⟨k, rfl, below, madeOf_full (by omega) madeOf, fun _ => ⟨st, _, _, _, _, inodes, rfl,
            directory_valid dirShort dirText found, madeOf, nodes⟩⟩

theorem mtdWriteJffs2_write (opens : board.opens dev = true) (memoryThere : malloc = true)
    (planned : planAppend board readFails memory dev file dir = .write mtdofs blocks) :
    mtdWriteJffs2 board readFails malloc memory dev file dir = (do
      let (_, writer) ← flushBlocks board mtdofs (appendWriter board dev mtdofs) blocks
      return (0, writer.log)) := by
  rw [mtdWriteJffs2, mtdCheckOpen, if_pos opens, memoryThere]
  simp only [planned, Bool.not_true, Bool.false_eq_true, if_false]

theorem exists_zip {slots : List Slot} {slot : Slot} (lengths : slots.length = blocks.length)
    (member : slot ∈ slots) : ∃ block, (slot, block) ∈ slots.zip blocks := by
  obtain ⟨index, below, rfl⟩ := List.getElem_of_mem member
  have inZip : index < (slots.zip blocks).length := by
    rw [List.length_zip]
    omega
  exact ⟨_, List.mem_iff_getElem.mpr ⟨index, inZip, List.getElem_zip⟩⟩

/-- With room, and with writes that work, the slots hold the blocks exactly if each took
its block. -/
theorem flushBlocks_onFlash {k : Nat} (chip : Chip) (device : board.chip dev = chip)
    (full : ∀ block ∈ blocks, block.length = chip.erasesize)
    (room : blocks.length ≤ (chip.goodBlocks k).length)
    (works : ∀ j ∈ (chip.goodBlocks k).take blocks.length,
      chip.writeFails (j * chip.erasesize) = false) :
    ∃ reached after,
      flushBlocks board (k * chip.erasesize) (appendWriter board dev (k * chip.erasesize)) blocks =
        .ok (reached, after) ∧
      (programs after.log).length = blocks.length ∧
      (OnFlash chip dev (k * chip.erasesize) (replay memory after.log) blocks ↔
        ∀ pair ∈ (flushSlots chip dev k blocks.length).zip blocks,
          Takes chip.erasesize memory (erasable chip) pair.1 pair.2) := by
  subst device
  obtain ⟨reached, after, ran, logEq⟩ := @flushBlocks_stores board (board.chip dev)
    (appendWriter board dev (k * (board.chip dev).erasesize)) blocks k ⟨rfl, rfl⟩ rfl full room works
  have lengths := @flushSlots_length _ k dev _ room
  have logIs : after.log = putSlots (board.chip dev).erasesize (erasable (board.chip dev))
      (flushSlots (board.chip dev) dev k blocks.length) blocks := logEq
  refine ⟨reached, after, ran, ?_, ?_⟩
  · rw [logIs, programs_putSlots lengths]
  · rw [OnFlash, Nat.mul_div_cancel _ (board.chip dev).erasesize_pos, logIs]
    exact readSlot_putSlots_iff flushSlots_nodup lengths full

/-- Without anything to write the call ends in an error. -/
theorem mtdWriteJffs2_refused {ret : Int}
    (returned : mtdWriteJffs2 board readFails malloc memory dev file dir = .ok (ret, log)) :
    ret ≠ 0 ∨ board.opens dev = true ∧ malloc = true ∧
      ∃ mtdofs blocks, planAppend board readFails memory dev file dir = .write mtdofs blocks := by
  rw [mtdWriteJffs2, mtdCheckOpen] at returned
  cases opens : board.opens dev with
  | false =>
      rw [opens] at returned
      cases returned
      exact .inl (by decide)
  | true =>
      cases malloc with
      | false =>
          rw [opens] at returned
          cases returned
          exact .inl (by decide)
      | true =>
          rw [opens] at returned
          simp only [if_true, Bool.not_true, Bool.false_eq_true, if_false] at returned
          cases planned : planAppend board readFails memory dev file dir with
          | refused =>
              rw [planned] at returned
              cases returned
              exact .inl (by decide)
          | stuck =>
              rw [planned] at returned
              cases returned
          | write mtdofs blocks => exact .inr ⟨rfl, rfl, mtdofs, blocks, rfl⟩

/-- Zero means that the whole file is on the flash, and a failure an error, exactly where
nothing fails that only the device or the file reports. -/
theorem mtdWriteJffs2_allOrError_iff (aligned : 4 ∣ (board.chip dev).erasesize)
    (large : 4096 ≤ (board.chip dev).erasesize) (dirShort : dir.length ≤ 255)
    (dirText : (0 : UInt8) ∉ dir) (short : file.name.length ≤ 255) (text : (0 : UInt8) ∉ file.name) :
    AllOrError board readFails malloc memory dev file dir whole ↔
      AppendCondition board readFails malloc memory dev file dir whole := by
  constructor
  · intro holds opens memoryThere mtdofs blocks planned
    obtain ⟨k, rfl, below, full, complete⟩ :=
      planAppend_write aligned large dirShort dirText short planned
    have blockEq := Nat.mul_div_cancel k (board.chip dev).erasesize_pos
    have on : OnChip board (board.chip dev)
      (appendWriter board dev (k * (board.chip dev).erasesize)) := ⟨rfl, rfl⟩
    by_cases exits : (board.chip dev).nand = true ∧ ((board.chip dev).goodBlocks k).length < blocks.length
    · left
      rw [Room, blockEq]
      exact ⟨exits.1, Nat.not_le.mpr exits.2⟩
    · right
      obtain ⟨⟨reached, after⟩, ran⟩ := (flushBlocks_ok_iff on (Nat.le_of_lt below) full).mpr exits
      have returned : mtdWriteJffs2 board readFails malloc memory dev file dir = .ok (0, after.log) := by
        simp only [mtdWriteJffs2_write opens memoryThere planned, ran, bind, Except.bind, pure,
          Except.pure]
      obtain ⟨stored, noFailure⟩ := holds 0 after.log returned
      have fine : ¬ Fails board readFails memory dev file dir after.log := fun fails =>
        noFailure fails rfl
      simp only [Fails, not_or, not_exists, not_and, Nat.not_lt, Bool.not_eq_false] at fine
      obtain ⟨there, opened, taken⟩ := fine
      have most : (programs after.log).length ≤ 0 + blocks.length := flushBlocks_programs ran
      have least := (taken _ _ planned).1
      have programmed : (programs after.log).length = 0 + blocks.length := by omega
      obtain ⟨room, works⟩ := flushBlocks_programmed on rfl (Nat.le_of_lt below) full ran programmed
      obtain ⟨reached', after', ran', -, onFlashIff⟩ :=
        @flushBlocks_onFlash board memory dev blocks k _ rfl full room works
      rw [ran, Except.ok.injEq, Prod.mk.injEq] at ran'
      obtain ⟨-, rfl⟩ := ran'
      obtain ⟨mtdofs', blocks', planned', completeFile, onFlash⟩ := stored rfl
      rw [planned, Plan.write.injEq] at planned'
      obtain ⟨rfl, rfl⟩ := planned'
      have takes := onFlashIff.mp onFlash
      obtain ⟨st, front, parent, version, ino, inodes, -, valid, made, nodes⟩ := complete there
      rw [opened, if_pos rfl] at nodes
      have wholeEq := completeFile_content aligned short text completeFile valid made nodes
      rw [Room, blockEq]
      refine ⟨⟨there, opened, wholeEq⟩, room, fun pair member => ⟨?_, takes pair member⟩⟩
      exact forall_flushSlots.mpr works pair.1 (List.of_mem_zip member).1
  · intro condition ret log returned
    rcases mtdWriteJffs2_refused returned with refused | ⟨opens, memoryThere, mtdofs, blocks, planned⟩
    · exact ⟨fun zero => absurd zero refused, fun _ => refused⟩
    · obtain ⟨k, rfl, below, full, complete⟩ :=
        planAppend_write aligned large dirShort dirText short planned
      have blockEq := Nat.mul_div_cancel k (board.chip dev).erasesize_pos
      rw [mtdWriteJffs2_write opens memoryThere planned] at returned
      have fits := condition opens memoryThere _ _ planned
      rw [Room, blockEq] at fits
      rcases fits with ⟨nand, narrow⟩ | ⟨⟨there, opened, wholeEq⟩, room, each⟩
      · -- the program has exited
        have on : OnChip board (board.chip dev)
          (appendWriter board dev (k * (board.chip dev).erasesize)) := ⟨rfl, rfl⟩
        obtain ⟨result, ran, -⟩ := bind_eq_ok.mp returned
        exact absurd ⟨nand, Nat.not_le.mp narrow⟩
          ((flushBlocks_ok_iff on (Nat.le_of_lt below) full).mp ⟨result, ran⟩)
      · have works : ∀ j ∈ ((board.chip dev).goodBlocks k).take blocks.length,
            (board.chip dev).writeFails (j * (board.chip dev).erasesize) = false := by
          rw [← forall_flushSlots]
          intro slot member
          obtain ⟨block, pair⟩ := exists_zip (flushSlots_length room) member
          exact (each _ pair).1
        obtain ⟨reached, after, ran, programmed, onFlashIff⟩ :=
          @flushBlocks_onFlash board memory dev blocks k _ rfl full room works
        rw [ran] at returned
        cases returned
        obtain ⟨st, front, parent, version, ino, inodes, statEq, valid, made, nodes⟩ := complete there
        rw [opened, if_pos rfl, wholeEq] at nodes
        constructor
        · intro _
          exact ⟨_, blocks, planned, ⟨st, front, parent, version, ino, inodes, statEq, valid, made,
            nodes⟩, onFlashIff.mpr fun pair member => (each pair member).2⟩
        · intro fails _
          rcases fails with missing | closed | ⟨mtdofs', blocks', planned', short'⟩
          · exact there missing
          · rw [opened] at closed
            cases closed
          · rw [planned, Plan.write.injEq] at planned'
            obtain ⟨rfl, rfl⟩ := planned'
            rw [Room, blockEq] at short'
            rcases short' with few | narrow
            · omega
            · exact narrow room

theorem mtdWriteJffs2_allOrError_sample :
    AllOrError norBoard (fun _ => false) true twoMemory 0 sampleFile [] [1, 2, 3] ↔
      AppendCondition norBoard (fun _ => false) true twoMemory 0 sampleFile [] [1, 2, 3] :=
  mtdWriteJffs2_allOrError_iff (Dvd.intro 1024 rfl) (Nat.le_refl 4096) (by decide) (by decide)
    (by decide) (by decide)

/-! ## A file that is not there -/

def missingFile : SourceFile := { sampleFile with stat := none, opens := false }

/-- The call returns 0 for it. -/
theorem mtdWriteJffs2_missing :
    ¬ AllOrError norBoard (fun _ => false) true twoMemory 0 missingFile [] [1, 2, 3] := by
  intro holds
  have ended := @findLogEnd_holds [] 3 (scanStart []) 4096 0 _ _ _ (by decide) twoDirectories_hold
    (Nat.zero_le _) (by decide)
  obtain ⟨blocks, appended, -⟩ := @appendBlocks_missing 4096 [] missingFile
    (scanned [] [CLEANMARKER :: twoDirectories].flatten)
    (fun index => (List.replicate 4096 0xff).getD index (norBoard.heap index)) (Dvd.intro 1024 rfl)
    (Nat.le_refl 4096) (by decide) (by decide) rfl
  have planned : planAppend norBoard (fun _ => false) twoMemory 0 missingFile [] =
      .write 4096 blocks := by
    rw [Nat.zero_mul, List.drop_zero] at ended
    rw [planAppend]
    have read : findLogEnd (norBoard.chip 0).erasesize
        (readBlock (norBoard.chip 0) (fun _ => false) twoMemory 0) []
        ((norBoard.chip 0).blocks + 1) 0 (scanStart []) = _ := ended
    simp only [read]
    rw [show (norBoard.chip 0).erasesize = 4096 from rfl]
    rw [show List.foldl (noteNode []) (scanStart []) [CLEANMARKER :: twoDirectories].flatten =
      scanned [] [CLEANMARKER :: twoDirectories].flatten from rfl, appended]
    rfl
  obtain ⟨⟨reached, after⟩, ran⟩ := @flushBlocks_nor norBoard (norBoard.chip 0)
    (appendWriter norBoard 0 4096) blocks 4096 ⟨rfl, rfl⟩ rfl
  have returned : mtdWriteJffs2 norBoard (fun _ => false) true twoMemory 0 missingFile [] =
      .ok (0, after.log) := by
    simp only [mtdWriteJffs2_write rfl rfl planned, ran, bind, Except.bind, pure, Except.pure]
  exact (holds 0 after.log returned).2 (.inl rfl) rfl

end Rut9xx.Mtd.Append
