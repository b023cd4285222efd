import Rut9xx.Mtd.Jffs2Entries
import Rut9xx.Mtd.Device
import Rut9xx.Data.PageProgram

namespace Rut9xx.Mtd.Append

open Rut9xx.Data

/-! # Where the blocks of an append go

The blocks go to the good blocks from the end of the log on; the results of the
calls are not looked at.
-/

variable {board : Board} {chip : Chip} {writer after : Writer} {block : List UInt8}
  {blocks : List (List UInt8)} {i j n fuel mtdofs : Nat} {rest : List Nat} {log : List FlashEvent}

/-- The variables are those of the device that is open. -/
structure OnChip (board : Board) (chip : Chip) (writer : Writer) : Prop where
  device : board.chip writer.dev = chip
  globals : writer.globals = ⟨chip.size, chip.erasesize, chip.nand⟩

/-! ## One block -/

theorem skipBad_passes (on : OnChip board chip writer)
    (bad : ∀ m, i ≤ m → m < i + n → chip.isBad m = true) (within : i + n ≤ chip.blocks)
    (enough : n ≤ fuel) :
    ∃ pos, skipBad board fuel (i * chip.erasesize) writer =
        skipBad board (fuel - n) ((i + n) * chip.erasesize) { writer with pos := pos } ∧
      (writer.pos = i * chip.erasesize → pos = (i + n) * chip.erasesize) := by
  induction n generalizing i writer fuel with
  | zero => exact ⟨writer.pos, rfl, id⟩
  | succ n ih =>
      obtain ⟨fuel, rfl⟩ := Nat.exists_eq_add_one.mpr (Nat.lt_of_lt_of_le n.succ_pos enough)
      have positive := chip.erasesize_pos
      have here := bad i (Nat.le_refl i) (by omega)
      have nand : chip.nand = true := by
        rw [Chip.isBad, Bool.and_eq_true] at here
        exact here.1
      have next : i * chip.erasesize + chip.erasesize ≤ chip.size := by
        rw [Chip.size_eq, ← Nat.succ_mul]
        exact Nat.mul_le_mul_right _ (by omega)
      have inside : i * chip.erasesize < chip.size := by omega
      have answer : mtdBlockIsBad writer.globals (board.chip writer.dev) (i * chip.erasesize) =
          some true := by
        rw [mtdBlockIsBad, on.globals, on.device, nand, if_pos rfl, Chip.getBadBlock, if_pos inside,
          Nat.mul_div_cancel _ positive, here]
      have onNext : OnChip board chip
          { writer with pos := chip.seek writer.pos chip.erasesize } := ⟨on.device, on.globals⟩
      obtain ⟨pos, passed, posEq⟩ := @ih _ (i + 1) fuel onNext
        (fun m above below => bad m (by omega) (by omega)) (by omega) (by omega)
      have indexEq : i + (n + 1) = i + 1 + n := by omega
      have fuelEq : fuel + 1 - (n + 1) = fuel - n := by omega
      refine ⟨pos, ?_, fun stood => ?_⟩
      · rw [skipBad, answer, indexEq, fuelEq, ← passed]
        simp only [on.globals, on.device, inside, and_self, if_true, Nat.succ_mul]
      · rw [indexEq]
        apply posEq
        simp only [Chip.seek, stood, if_pos next, Nat.succ_mul]

theorem skipBad_frame {reached : Nat} (passed : skipBad board fuel mtdofs writer = .ok (reached, after)) :
    after.log = writer.log ∧ after.dev = writer.dev ∧ after.globals = writer.globals := by
  induction fuel generalizing mtdofs writer with
  | zero => cases passed
  | succ fuel ih =>
      rw [skipBad] at passed
      split at passed
      · cases passed
      · split at passed
        · have frame := ih passed
          exact frame
        · cases passed
          exact ⟨rfl, rfl, rfl⟩

theorem skipBad_stops
    (good : mtdBlockIsBad writer.globals (board.chip writer.dev) mtdofs = some false) :
    skipBad board (fuel + 1) mtdofs writer = .ok (mtdofs, writer) := by
  rw [skipBad, good]
  simp only [Bool.false_eq_true, false_and, if_false]

/-- The writer behind block `j`, at which it stood. -/
def flushed (chip : Chip) (writer : Writer) (j : Nat) (block : List UInt8) : Writer :=
  let start := j * chip.erasesize
  { writer with
    pos := if chip.writeFails start then start else start + chip.erasesize
    log := writer.log ++
      (if chip.eraseFails j then [] else [.erase writer.dev start chip.erasesize]) ++
      if chip.writeFails start then [] else [.program writer.dev start block] }

theorem flushBlock_next (on : OnChip board chip writer) (listed : chip.goodBlocks i = j :: rest)
    (full : block.length = chip.erasesize) :
    ∃ after, flushBlock board (i * chip.erasesize) writer block =
        .ok ((j + 1) * chip.erasesize, after) ∧ OnChip board chip after ∧
      (writer.pos = i * chip.erasesize → after = flushed chip writer j block) := by
  obtain ⟨above, below, good, bad, -⟩ := Chip.goodBlocks_cons listed
  obtain ⟨n, rfl⟩ := Nat.exists_eq_add_of_le above
  have positive := chip.erasesize_pos
  have inside : (i + n) * chip.erasesize + chip.erasesize ≤ chip.size := by
    rw [← Nat.succ_mul, Chip.size_eq]
    exact Nat.mul_le_mul_right _ below
  have few : chip.blocks ≤ chip.size := Nat.div_le_self _ _
  obtain ⟨pos, passed, posEq⟩ := @skipBad_passes board chip writer i n (chip.size + 2) on bad
    (by omega) (by omega)
  have answer : mtdBlockIsBad writer.globals (board.chip writer.dev) ((i + n) * chip.erasesize) =
      some false := by
    rw [mtdBlockIsBad, on.globals, on.device]
    cases nand : chip.nand with
    | false => rfl
    | true =>
        rw [Chip.isGood, Bool.not_eq_true'] at good
        rw [if_pos rfl, Chip.getBadBlock, if_pos (by omega), Nat.mul_div_cancel _ positive, good]
  obtain ⟨left, leftEq⟩ : ∃ left, chip.size + 2 - n = left + 1 := ⟨chip.size + 1 - n, by omega⟩
  have stopped : skipBad board (left + 1) ((i + n) * chip.erasesize) { writer with pos := pos } =
      .ok ((i + n) * chip.erasesize, { writer with pos := pos }) := skipBad_stops answer
  rw [leftEq, stopped] at passed
  have erases : chip.erases ((i + n) * chip.erasesize) chip.erasesize =
      !chip.eraseFails (i + n) := by
    cases fails : chip.eraseFails (i + n) with
    | false => exact Chip.erases_block.mpr ⟨below, good, fails⟩
    | true =>
        rw [Bool.not_true, ← Bool.not_eq_true, Chip.erases_block, fails]
        simp
  -- the block may not be erased, and is written all the same
  obtain ⟨erased, erasedEq, position⟩ : ∃ erased,
      (mtdEraseBlock board { writer with pos := pos } ((i + n) * chip.erasesize)).getD
        { writer with pos := pos } = erased ∧
      erased = { writer with
        pos := pos
        log := writer.log ++ if chip.eraseFails (i + n) then [] else
          [.erase writer.dev ((i + n) * chip.erasesize) chip.erasesize] } := by
    refine ⟨_, rfl, ?_⟩
    simp only [mtdEraseBlock, on.device, on.globals, erases]
    cases chip.eraseFails (i + n) with
    | false => rfl
    | true => simp
  have flushEq : flushBlock board (i * chip.erasesize) writer block =
      .ok ((i + n + 1) * chip.erasesize, (write board erased block).2) := by
    have globals : erased.globals = ⟨chip.size, chip.erasesize, chip.nand⟩ := by
      rw [position]
      exact on.globals
    simp only [flushBlock, on.device, passed, bind, Except.bind, pure, Except.pure, erasedEq, globals,
      Nat.succ_mul]
  refine ⟨_, flushEq, ?_, fun stood => ?_⟩
  · rw [write]
    split <;> (rw [position]; exact ⟨on.device, on.globals⟩)
  · rw [posEq stood] at position
    subst position
    simp only [write, on.device, Chip.accepts, flushed]
    cases fails : chip.writeFails ((i + n) * chip.erasesize) with
    | true => simp
    | false =>
        have room : ¬ chip.size ≤ (i + n) * chip.erasesize := by omega
        have whole : min block.length (chip.size - (i + n) * chip.erasesize) = chip.erasesize := by
          omega
        simp only [room, Bool.false_eq_true, or_self, if_false, whole]
        rw [List.take_of_length_le (by omega)]

/-- Behind the last good block a NAND chip makes the program exit. -/
theorem flushBlock_exit (on : OnChip board chip writer) (nand : chip.nand = true)
    (none' : chip.goodBlocks i = []) (within : i ≤ chip.blocks) :
    ∃ halt, flushBlock board (i * chip.erasesize) writer block = .error halt := by
  have bad : ∀ m, i ≤ m → m < i + (chip.blocks - i) → chip.isBad m = true := by
    intro m above below
    by_contra good
    rw [← Chip.not_isGood, not_not] at good
    have member := Chip.mem_goodBlocks.mpr ⟨above, by omega, good⟩
    rw [none'] at member
    cases member
  have few : chip.blocks ≤ chip.size := Nat.div_le_self _ _
  obtain ⟨pos, passed, -⟩ := @skipBad_passes board chip writer i (chip.blocks - i) (chip.size + 2) on
    bad (by omega) (by omega)
  obtain ⟨left, leftEq⟩ : ∃ left, chip.size + 2 - (chip.blocks - i) = left + 1 :=
    ⟨chip.size + 1 - (chip.blocks - i), by omega⟩
  have answer : mtdBlockIsBad writer.globals (board.chip writer.dev)
      ((i + (chip.blocks - i)) * chip.erasesize) = none := by
    rw [mtdBlockIsBad, on.globals, on.device, if_pos nand, Chip.getBadBlock, if_neg]
    rw [Chip.size_eq, show i + (chip.blocks - i) = chip.blocks by omega]
    exact Nat.lt_irrefl _
  have exited : skipBad board (left + 1) ((i + (chip.blocks - i)) * chip.erasesize)
      { writer with pos := pos } = .error (.exit writer.log) := by
    rw [skipBad]
    simp only [answer]
  rw [leftEq, exited] at passed
  refine ⟨.exit writer.log, ?_⟩
  simp only [flushBlock, on.device, passed, bind, Except.bind]

/-! ## What is programmed -/

def programs (log : List FlashEvent) : List (List UInt8) :=
  log.filterMap fun event =>
    match event with
    | .program _ _ bytes => some bytes
    | .erase _ _ _ => none

theorem programs_append (more : List FlashEvent) :
    programs (log ++ more) = programs log ++ programs more := List.filterMap_append

/-- Without bad blocks none is looked for, wherever the block goes; behind the end of the
device nothing is programmed. -/
theorem flushBlock_nor (on : OnChip board chip writer) (nor : chip.nand = false) :
    ∃ after, flushBlock board mtdofs writer block = .ok (mtdofs + chip.erasesize, after) ∧
      OnChip board chip after ∧
      (chip.size ≤ writer.pos → programs after.log = programs writer.log) := by
  have answer : mtdBlockIsBad writer.globals (board.chip writer.dev) mtdofs = some false := by
    rw [mtdBlockIsBad, on.globals, nor]
    rfl
  have stopped : skipBad board ((board.chip writer.dev).size + 2) mtdofs writer = .ok (mtdofs, writer) :=
    skipBad_stops answer
  obtain ⟨erased, erasedEq, position⟩ : ∃ erased,
      (mtdEraseBlock board writer mtdofs).getD writer = erased ∧ OnChip board chip erased ∧
        erased.pos = writer.pos ∧ programs erased.log = programs writer.log := by
    refine ⟨_, rfl, ?_⟩
    rw [mtdEraseBlock]
    split
    · exact ⟨⟨on.device, on.globals⟩, rfl, (programs_append _).trans (List.append_nil _)⟩
    · exact ⟨on, rfl, rfl⟩
  obtain ⟨onErased, posEq, same⟩ := position
  refine ⟨(write board erased block).2, ?_, ?_, fun behind => ?_⟩
  · simp only [flushBlock, stopped, bind, Except.bind, pure, Except.pure, erasedEq, onErased.globals]
  · rw [write]
    split
    · exact onErased
    · exact ⟨onErased.device, onErased.globals⟩
  · rw [write, onErased.device, Chip.accepts, posEq, if_pos (.inl behind)]
    exact same

theorem flushBlock_programs {reached : Nat}
    (ran : flushBlock board mtdofs writer block = .ok (reached, after)) :
    (programs after.log).length ≤ (programs writer.log).length + 1 := by
  obtain ⟨passed, skipped, returned⟩ := bind_eq_ok.mp ran
  obtain ⟨place, moved⟩ := passed
  obtain ⟨logEq, -, -⟩ := skipBad_frame skipped
  simp only [pure, Except.pure, Except.ok.injEq, Prod.mk.injEq] at returned
  rw [← returned.2]
  have erased : programs ((mtdEraseBlock board moved place).getD moved).log = programs writer.log := by
    rw [mtdEraseBlock]
    split
    · rw [Option.getD_some, programs_append, logEq]
      exact List.append_nil _
    · rw [Option.getD_none, logEq]
  generalize (mtdEraseBlock board moved place).getD moved = before at erased
  rw [write]
  split
  · rw [erased]
    omega
  · rw [programs_append, erased, List.length_append]
    exact Nat.le_refl _

theorem flushBlocks_programs {reached : Nat}
    (ran : flushBlocks board mtdofs writer blocks = .ok (reached, after)) :
    (programs after.log).length ≤ (programs writer.log).length + blocks.length := by
  induction blocks generalizing mtdofs writer with
  | nil =>
      cases ran
      exact Nat.le_refl _
  | cons block blocks ih =>
      obtain ⟨middle, first, others⟩ := bind_eq_ok.mp ran
      have one := flushBlock_programs first
      have more := ih others
      rw [List.length_cons]
      omega

theorem programs_putSlots {size : Nat} {erased : Slot → Bool} {slots : List Slot}
    (lengths : slots.length = blocks.length) : programs (putSlots size erased slots blocks) = blocks := by
  induction slots generalizing blocks with
  | nil =>
      rw [List.length_nil] at lengths
      rw [List.eq_nil_of_length_eq_zero lengths.symm]
      rfl
  | cons slot slots ih =>
      cases blocks with
      | nil => cases lengths
      | cons block blocks =>
          have split : putSlots size erased (slot :: slots) (block :: blocks) =
              putSlot size (erased slot) slot block ++ putSlots size erased slots blocks := rfl
          rw [split, programs_append, ih (Nat.succ.inj lengths), putSlot, programs_append]
          cases erased slot <;> rfl

/-! ## All blocks -/

theorem goodBlocks_step (listed : chip.goodBlocks i = j :: rest) :
    j + 1 ≤ chip.blocks ∧ chip.goodBlocks (j + 1) = rest := by
  obtain ⟨-, below, -, -, behind⟩ := Chip.goodBlocks_cons listed
  exact ⟨below, behind⟩

theorem flushBlocks_cons {reached : Nat}
    (first : flushBlock board mtdofs writer block = .ok (reached, after)) :
    flushBlocks board mtdofs writer (block :: blocks) = flushBlocks board reached after blocks := by
  simp only [flushBlocks, first, bind, Except.bind]

theorem flushBlocks_nor (on : OnChip board chip writer) (nor : chip.nand = false) :
    ∃ result, flushBlocks board mtdofs writer blocks = .ok result := by
  induction blocks generalizing mtdofs writer with
  | nil => exact ⟨_, rfl⟩
  | cons block blocks ih =>
      obtain ⟨after, first, onAfter, -⟩ := @flushBlock_nor board chip writer block mtdofs on nor
      rw [flushBlocks_cons first]
      exact ih onAfter

/-- Only a NAND chip with too few good blocks stops the run. -/
theorem flushBlocks_ok_iff (on : OnChip board chip writer) (within : i ≤ chip.blocks)
    (full : ∀ block ∈ blocks, block.length = chip.erasesize) :
    (∃ result, flushBlocks board (i * chip.erasesize) writer blocks = .ok result) ↔
      ¬(chip.nand = true ∧ (chip.goodBlocks i).length < blocks.length) := by
  cases nand : chip.nand with
  | false => simp [flushBlocks_nor on nand]
  | true =>
      simp only [true_and, Nat.not_lt]
      induction blocks generalizing i writer with
      | nil => simp [flushBlocks]
      | cons block blocks ih =>
          rw [List.forall_mem_cons] at full
          cases listed : chip.goodBlocks i with
          | nil =>
              obtain ⟨halt, exited⟩ := @flushBlock_exit board chip writer block i on nand listed within
              have stopped : flushBlocks board (i * chip.erasesize) writer (block :: blocks) =
                  .error halt := by
                simp only [flushBlocks, exited, bind, Except.bind]
              simp [stopped]
          | cons j rest =>
              obtain ⟨after, first, onAfter, -⟩ := flushBlock_next on listed full.1
              obtain ⟨inside, behind⟩ := goodBlocks_step listed
              rw [flushBlocks_cons first, ih onAfter inside full.2, behind]
              simp

/-- The good blocks that the flush goes to. -/
def flushSlots (chip : Chip) (dev i count : Nat) : List Slot :=
  ((chip.goodBlocks i).take count).map (Slot.mk dev)

theorem flushSlots_nodup {dev count : Nat} : (flushSlots chip dev i count).Nodup := by
  apply List.Nodup.map
  · intro first second same
    exact (Slot.mk.inj same).2
  · exact Chip.goodBlocks_nodup.sublist (List.take_sublist _ _)

theorem flushSlots_length {dev count : Nat} (room : count ≤ (chip.goodBlocks i).length) :
    (flushSlots chip dev i count).length = count := by
  rw [flushSlots, List.length_map, List.length_take, Nat.min_eq_left room]

theorem forall_flushSlots {dev count : Nat} {property : Nat → Prop} :
    (∀ slot ∈ flushSlots chip dev i count, property slot.block) ↔
      ∀ j ∈ (chip.goodBlocks i).take count, property j := by
  simp only [flushSlots, List.forall_mem_map]

/-- Whether an erase of the slot works. -/
def erasable (chip : Chip) (slot : Slot) : Bool := !chip.eraseFails slot.block

theorem flushed_log (works : chip.writeFails (j * chip.erasesize) = false) :
    (flushed chip writer j block).log = writer.log ++
      putSlot chip.erasesize (erasable chip ⟨writer.dev, j⟩) ⟨writer.dev, j⟩ block := by
  simp only [flushed, works, erasable, putSlot, List.append_assoc]
  by_cases fails : chip.eraseFails j = true <;> simp [fails]

/-- With room and without failing writes every block goes to its slot. -/
theorem flushBlocks_stores (on : OnChip board chip writer)
    (stood : writer.pos = i * chip.erasesize)
    (full : ∀ block ∈ blocks, block.length = chip.erasesize)
    (room : blocks.length ≤ (chip.goodBlocks i).length)
    (works : ∀ j ∈ (chip.goodBlocks i).take blocks.length,
      chip.writeFails (j * chip.erasesize) = false) :
    ∃ reached after, flushBlocks board (i * chip.erasesize) writer blocks = .ok (reached, after) ∧
      after.log = writer.log ++ putSlots chip.erasesize (erasable chip)
        (flushSlots chip writer.dev i blocks.length) blocks := by
  induction blocks generalizing i writer with
  | nil => exact ⟨_, _, rfl, by simp [putSlots, flushSlots]⟩
  | cons block blocks ih =>
      rw [List.forall_mem_cons] at full
      rw [List.length_cons] at room works
      cases listed : chip.goodBlocks i with
      | nil =>
          rw [listed] at room
          cases room
      | cons j rest =>
          obtain ⟨after, first, onAfter, position⟩ := flushBlock_next on listed full.1
          obtain ⟨-, behind⟩ := goodBlocks_step listed
          rw [listed, List.take_succ_cons, List.forall_mem_cons] at works
          rw [listed, List.length_cons, Nat.succ_le_succ_iff] at room
          have afterEq := position stood
          have stoodAfter : after.pos = (j + 1) * chip.erasesize := by
            rw [afterEq]
            simp only [flushed, works.1, Bool.false_eq_true, if_false, Nat.succ_mul]
          obtain ⟨reached, final, others, logEq⟩ := ih onAfter stoodAfter full.2
            (by rw [behind]; exact room) (by rw [behind]; exact works.2)
          refine ⟨reached, final, by rw [flushBlocks_cons first, others], ?_⟩
          have dev : after.dev = writer.dev := by
            rw [afterEq]
            rfl
          rw [logEq, dev, afterEq, flushed_log works.1, List.append_assoc, flushSlots, flushSlots,
            listed, behind]
          rfl

/-- A run that programs every block had room for them and no write failed. -/
theorem flushBlocks_programmed {reached : Nat} (on : OnChip board chip writer)
    (stood : writer.pos = i * chip.erasesize) (within : i ≤ chip.blocks)
    (full : ∀ block ∈ blocks, block.length = chip.erasesize)
    (ran : flushBlocks board (i * chip.erasesize) writer blocks = .ok (reached, after))
    (programmed : (programs after.log).length = (programs writer.log).length + blocks.length) :
    blocks.length ≤ (chip.goodBlocks i).length ∧
      ∀ j ∈ (chip.goodBlocks i).take blocks.length,
        chip.writeFails (j * chip.erasesize) = false := by
  induction blocks generalizing i writer with
  | nil => simp
  | cons block blocks ih =>
      rw [List.forall_mem_cons] at full
      rw [List.length_cons] at programmed ⊢
      cases listed : chip.goodBlocks i with
      | nil =>
          -- a NAND chip would have made the program exit, another one takes nothing
          have allOk := (flushBlocks_ok_iff on within (List.forall_mem_cons.mpr full)).mp ⟨_, ran⟩
          rw [listed, List.length_nil, List.length_cons] at allOk
          have nor : chip.nand = false := by
            cases nand : chip.nand with
            | false => rfl
            | true => exact absurd ⟨nand, Nat.succ_pos _⟩ allOk
          have atEnd : chip.blocks ≤ i := by
            by_contra before
            have good : chip.isGood i = true := by
              rw [Chip.isGood, Chip.isBad, nor]
              rfl
            have member := Chip.mem_goodBlocks.mpr ⟨Nat.le_refl i, Nat.lt_of_not_le before, good⟩
            rw [listed] at member
            cases member
          obtain ⟨next, first, -, nothing⟩ :=
            @flushBlock_nor board chip writer block (i * chip.erasesize) on nor
          rw [flushBlocks_cons first] at ran
          have most := flushBlocks_programs ran
          have behind : chip.size ≤ writer.pos := by
            rw [stood, Chip.size_eq]
            exact Nat.mul_le_mul_right _ atEnd
          rw [nothing behind] at most
          omega
      | cons j rest =>
          obtain ⟨next, first, onNext, position⟩ := flushBlock_next on listed full.1
          obtain ⟨inside, behind⟩ := goodBlocks_step listed
          rw [flushBlocks_cons first] at ran
          have nextEq := position stood
          have most := flushBlocks_programs ran
          cases works : chip.writeFails (j * chip.erasesize) with
          | true =>
              have none' : programs next.log = programs writer.log := by
                rw [nextEq]
                simp only [flushed, works, if_true, List.append_nil, programs_append]
                cases chip.eraseFails j <;> simp [programs]
              rw [none'] at most
              omega
          | false =>
              have one : (programs next.log).length = (programs writer.log).length + 1 := by
                rw [nextEq, flushed_log works, programs_append, putSlot, programs_append,
                  List.length_append]
                cases erasable chip ⟨writer.dev, j⟩ <;> rfl
              have stoodNext : next.pos = (j + 1) * chip.erasesize := by
                rw [nextEq]
                simp only [flushed, works, Bool.false_eq_true, if_false, Nat.succ_mul]
              have others := ih onNext stoodNext inside full.2 ran (by omega)
              rw [behind] at others
              rw [List.take_succ_cons, List.forall_mem_cons, List.length_cons]
              exact ⟨Nat.succ_le_succ others.1, works, others.2⟩

end Rut9xx.Mtd.Append
