import Rut9xx.Mtd.RecoveryFlag

namespace Rut9xx.Mtd

open Rut9xx.Data

/-! # A run that keeps to the good blocks -/

section

variable {board : Board} {options : WriteOptions} {memory : FlashMemory} {es k i fuel : Nat}
  {writer : Writer} {ahead : Ahead}

/-- With erase and write pointer together, the loop passes bad blocks and erases one block. -/
theorem eraseAhead_spec (erasesize : writer.globals.erasesize = es)
    (chipErasesize : (board.chip writer.dev).erasesize = es)
    (kind : writer.globals.nand = (board.chip writer.dev).nand) (eEq : writer.e = i * es)
    (full : writer.buf.length = es) (together : writer.w + writer.skipBadBlocks = writer.e)
    (posEq : i + k ≤ (board.chip writer.dev).blocks → writer.pos = (i + k) * es)
    (offset : options.partOffset = k * es)
    (ran : eraseAhead board options fuel writer = .ok ahead) :
    ∃ n pos, (∀ j, i ≤ j → j < i + n → (board.chip writer.dev).isBad j = true) ∧
      (board.chip writer.dev).isGood (i + n) = true ∧
      ((board.chip writer.dev).nand = true → i + n < (board.chip writer.dev).blocks) ∧
      (i + n + k ≤ (board.chip writer.dev).blocks → pos = (i + n + k) * es) ∧
      let reached := { writer with
        skipBadBlocks := writer.skipBadBlocks + n * es, e := (i + n) * es, pos := pos }
      ((board.chip writer.dev).erases ((i + n + k) * es) es = true ∧
          ahead = .erased { reached with
            e := (i + n + 1) * es
            log := writer.log ++ [.erase writer.dev ((i + n + k) * es) es] } ∨
        (board.chip writer.dev).erases ((i + n + k) * es) es = false ∧ ahead = .failed reached) := by
  induction fuel generalizing writer i with
  | zero => cases ran
  | succ fuel ih =>
      have positive := (board.chip writer.dev).erasesize_pos
      rw [chipErasesize] at positive
      have more : writer.e < writer.w + writer.buf.length + writer.skipBadBlocks := by omega
      rw [eraseAhead, if_pos more] at ran
      cases answer : mtdBlockIsBad writer.globals (board.chip writer.dev) writer.e with
      | none =>
          rw [answer] at ran
          cases ran
      | some bad =>
          rw [answer] at ran
          rw [eEq, ← chipErasesize] at answer
          obtain ⟨badEq, inside⟩ := mtdBlockIsBad_block kind answer
          cases bad with
          | true =>
              simp only [erasesize] at ran
              have moved : i + 1 + k ≤ (board.chip writer.dev).blocks →
                  (board.chip writer.dev).seek writer.pos es = (i + 1 + k) * es := by
                intro within
                have fits : (i + 1 + k) * es ≤ (board.chip writer.dev).size := by
                  rw [Chip.size_eq, chipErasesize]
                  exact Nat.mul_le_mul_right _ within
                have next : (i + k) * es + es = (i + 1 + k) * es := by
                  rw [← Nat.succ_mul]
                  congr 1
                  omega
                rw [Chip.seek, posEq (by omega), next, if_pos fits]
              obtain ⟨n, pos, bads, good, insideNext, posNext, outcome⟩ :=
                @ih (i + 1)
                  { writer with
                    skipBadBlocks := writer.skipBadBlocks + es
                    e := writer.e + es
                    pos := (board.chip writer.dev).seek writer.pos es }
                  erasesize chipErasesize kind (by simp only [eEq, Nat.succ_mul]) full
                  (by simp only; omega) moved ran
              have count : i + 1 + n = i + (n + 1) := by omega
              have skipped : writer.skipBadBlocks + es + n * es =
                  writer.skipBadBlocks + (n + 1) * es := by
                rw [Nat.succ_mul]
                omega
              simp only [count, skipped] at bads good insideNext posNext outcome
              refine ⟨n + 1, pos, fun j above below => ?_, good, insideNext, posNext, outcome⟩
              rcases Nat.eq_or_lt_of_le above with rfl | beyond
              · exact badEq
              · exact bads j beyond below
          | false =>
              have good : (board.chip writer.dev).isGood i = true := by
                rw [Chip.isGood, badEq]
                rfl
              have place : writer.e + options.partOffset = (i + k) * es := by
                rw [eEq, offset, Nat.add_mul]
              refine ⟨0, writer.pos, fun j above below => by omega, good, inside, posEq, ?_⟩
              simp only [mtdEraseBlock, erasesize, place] at ran
              have reachedEq : { writer with
                  skipBadBlocks := writer.skipBadBlocks + 0 * es
                  e := (i + 0) * es
                  pos := writer.pos } = writer := by
                simp only [Nat.zero_mul, Nat.add_zero, ← eEq]
              cases erased : (board.chip writer.dev).erases ((i + k) * es) es with
              | false =>
                  refine .inr ⟨rfl, ?_⟩
                  simp only [erased, Bool.false_eq_true, if_false, Except.ok.injEq] at ran
                  rw [← ran, reachedEq]
              | true =>
                  refine .inl ⟨rfl, ?_⟩
                  simp only [erased, if_true] at ran
                  cases fuel with
                  | zero => cases ran
                  | succ fuel =>
                      have stops : ¬writer.e + es <
                          writer.w + writer.buf.length + writer.skipBadBlocks := by omega
                      rw [eraseAhead, if_neg stops, Except.ok.injEq] at ran
                      rw [← ran]
                      simp only [Nat.zero_mul, Nat.add_zero, eEq, Nat.succ_mul]

end

/-! ## The invariant -/

/-- Devices of one erase size and an offset at a block boundary; the flag's device is
another one of that kind, for opening it changes the variables of the run. -/
structure Setup (board : Board) (options : WriteOptions) (es k : Nat) (devs : List Nat) :
    Prop where
  erases : options.noErase = false
  offset : options.partOffset = k * es
  equal : ∀ dev ∈ devs, (board.chip dev).erasesize = es
  flagSize : ∀ part, options.tplUbootArgsPart = some part → (board.chip part).erasesize = es
  flagKind : ∀ part, options.tplUbootArgsPart = some part →
    ∀ dev ∈ devs, (board.chip part).nand = (board.chip dev).nand
  flagApart : ∀ dev ∈ devs, options.tplUbootArgsPart ≠ some dev

/-- What stays the same from device to device and what the device just opened brings. -/
structure Opened (board : Board) (options : WriteOptions) (memory : FlashMemory)
    (es : Nat) (devs : List Nat) (writer : Writer) : Prop where
  dev : writer.dev ∈ devs
  next : ∀ dev ∈ writer.next, dev ∈ devs
  erasesize : writer.globals.erasesize = es
  kind : writer.globals.nand = (board.chip writer.dev).nand
  flag : FlagIs options memory true writer.log

/-- What storing a block leaves alone. -/
structure Untouched (writer after : Writer) : Prop where
  image : after.image = writer.image
  jffs2file : after.jffs2file = writer.jffs2file
  jffs2Replaced : after.jffs2Replaced = writer.jffs2Replaced
  skip : after.skip = writer.skip
  capacity : after.capacity = writer.capacity

/-- `i` blocks of the device are behind the erase pointer.  Their good ones, after the
blocks `before` of earlier devices, hold what was `written` of `chunks`. -/
structure Underway (board : Board) (options : WriteOptions) (memory : FlashMemory)
    (es k : Nat) (devs : List Nat) (prelude : List FlashEvent) (chunks : List (List UInt8))
    (before : List Slot) (written : List (List UInt8)) (i : Nat) (writer : Writer) : Prop
    extends Opened board options memory es devs writer where
  noOffset : writer.offset = 0
  short : writer.buf.length ≤ es
  eEq : writer.e = i * es
  within : i ≤ (board.chip writer.dev).blocks - k
  pos : i + k ≤ (board.chip writer.dev).blocks → writer.pos = (i + k) * es
  counted : (board.chip writer.dev).goodCount i = ((board.chip writer.dev).goodFrom k i).length
  wEq : writer.w = ((board.chip writer.dev).goodFrom k i).length * es
  together : writer.w + writer.skipBadBlocks = writer.e
  log : writer.log = prelude ++ fillSlots es
    (before ++ ((board.chip writer.dev).goodFrom k i).map (Slot.mk writer.dev)) written
  lengths : before.length + ((board.chip writer.dev).goodFrom k i).length = written.length
  content : written ++ padChunks es (writer.buf ++ writer.image.rest) = chunks
  smooth : Smooth board k (writer.dev :: writer.next) (chunks.length - before.length)
  slots : (targets board k devs).take chunks.length =
    before ++ (targets board k (writer.dev :: writer.next)).take (chunks.length - before.length)

section

variable {board : Board} {options : WriteOptions} {memory : FlashMemory} {es k i dev : Nat}
  {devs next : List Nat} {prelude : List FlashEvent} {chunks written : List (List UInt8)}
  {before : List Slot} {writer after opened : Writer}

theorem openDevice_spec (setup : Setup board options es k devs) (member : dev ∈ devs)
    (others : ∀ dev ∈ next, dev ∈ devs)
    (ran : openDevice board options memory writer dev next = .ok opened) :
    ∃ globals more, opened = { writer with
        globals := globals
        dev := dev
        pos := (board.chip dev).seek 0 options.partOffset
        next := next
        w := 0
        e := 0
        log := writer.log ++ more } ∧
      Opened board options memory es devs opened ∧ OnFlag options more ∧
      (FlagIs options memory true writer.log → more = []) := by
  cases openEq : mtdCheckOpen board dev with
  | none =>
      rw [openDevice, openEq] at ran
      cases ran
  | some globals =>
      have globalsEq := mtdCheckOpen_eq openEq
      rw [openDevice, openEq] at ran
      obtain ⟨current, more, openedEq, source, onFlag, holds, idle⟩ := setRecoverFlag_spec ran
      refine ⟨current, more, openedEq, ?_, onFlag, idle⟩
      rw [openedEq]
      rcases source with rfl | ⟨part, flag, rfl⟩
      · rw [globalsEq]
        exact ⟨member, others, setup.equal dev member, rfl, holds⟩
      · exact ⟨member, others, setup.flagSize part flag, setup.flagKind part flag dev member, holds⟩

/-- A full buffer is a block that is still to be written. -/
theorem Underway.few
    (underway : Underway board options memory es k devs prelude chunks before written i writer)
    (full : writer.buf.length = es) (positive : 0 < es) :
    ((board.chip writer.dev).goodFrom k i).length < chunks.length - before.length := by
  have total := congrArg List.length underway.content
  rw [padChunks_full positive full, List.length_append, List.length_cons] at total
  have := underway.lengths
  omega

theorem goodFrom_reached
    (underway : Underway board options memory es k devs prelude chunks before written i writer)
    {n : Nat} (few : ((board.chip writer.dev).goodFrom k i).length < chunks.length - before.length)
    (bad : ∀ j, i ≤ j → j < i + n → (board.chip writer.dev).isBad j = true)
    (inside : i + n + k < (board.chip writer.dev).blocks)
    (goodAhead : (board.chip writer.dev).isGood (i + n + k) = true) :
    (board.chip writer.dev).goodFrom k (i + n + 1) =
      (board.chip writer.dev).goodFrom k i ++ [i + n + k] := by
  have badAhead := underway.smooth.aligned inside (by rw [underway.counted]; exact few) bad
  rw [Chip.goodFrom_succ goodAhead, Chip.goodFrom_pass badAhead]

/-- The block in the buffer goes to the next good block, which was erased for it. -/
theorem writeBlock_spec (setup : Setup board options es k devs)
    (underway : Underway board options memory es k devs prelude chunks before written i writer)
    (full : writer.buf.length = es) {n pos : Nat}
    (bad : ∀ j, i ≤ j → j < i + n → (board.chip writer.dev).isBad j = true)
    (good : (board.chip writer.dev).isGood (i + n) = true)
    (posEq : i + n + k ≤ (board.chip writer.dev).blocks → pos = (i + n + k) * es)
    (erased : (board.chip writer.dev).erases ((i + n + k) * es) es = true)
    (ran : writeBlock board { writer with
      skipBadBlocks := writer.skipBadBlocks + n * es
      e := (i + n + 1) * es
      pos := pos
      log := writer.log ++ [.erase writer.dev ((i + n + k) * es) es] } = .ok after) :
    Underway board options memory es k devs prelude chunks before (written ++ [writer.buf])
      (i + n + 1) after ∧ Untouched writer after := by
  have positive : 0 < es := by
    rw [← setup.equal writer.dev underway.dev]
    exact Chip.erasesize_pos
  have few := underway.few full positive
  have chipErasesize := setup.equal writer.dev underway.dev
  obtain ⟨below, goodAhead, -⟩ := Chip.erases_block.mp (by rw [chipErasesize]; exact erased)
  have listed := goodFrom_reached underway few bad below goodAhead
  have whole : bytesFrom board writer.buf writer.offset writer.buf.length = writer.buf := by
    rw [underway.noOffset]
    exact bytesFrom_whole board writer.buf
  simp only [writeBlock, write, whole] at ran
  rw [posEq (by omega)] at ran
  cases accepted : (board.chip writer.dev).accepts ((i + n + k) * es) writer.buf.length with
  | none =>
      rw [accepted] at ran
      cases ran
  | some len =>
      simp only [accepted] at ran
      split at ran
      · cases ran
      · rename_i enough
        rw [Except.ok.injEq] at ran
        have taken : writer.buf.take len = writer.buf := List.take_of_length_le (by omega)
        have lenEq : len = es := by
          rw [Chip.accepts] at accepted
          split at accepted
          · cases accepted
          · have := Option.some.inj accepted
            omega
        have countNext : ((board.chip writer.dev).goodFrom k (i + n + 1)).length =
            ((board.chip writer.dev).goodFrom k i).length + 1 := by
          rw [listed, List.length_append, List.length_singleton]
        have together := underway.together
        have eEq := underway.eEq
        rw [← ran]
        refine ⟨{
          dev := underway.dev
          next := underway.next
          erasesize := underway.erasesize
          kind := underway.kind
          flag := ?_
          noOffset := rfl
          short := Nat.zero_le _
          eEq := rfl
          within := by
            simp only
            omega
          pos := fun within => by
            simp only [lenEq]
            rw [show i + n + 1 + k = (i + n + k) + 1 by omega, Nat.succ_mul]
          counted := by
            rw [countNext, ← underway.counted, Chip.goodCount_succ good, Chip.goodCount_pass bad]
          wEq := by
            simp only [countNext, underway.wEq, full, Nat.succ_mul]
          together := by
            simp only [full]
            rw [Nat.succ_mul, Nat.add_mul, ← eEq]
            omega
          log := ?_
          lengths := by
            simp only [countNext, List.length_append, List.length_singleton]
            have := underway.lengths
            omega
          content := by
            rw [← underway.content, padChunks_full positive full, List.append_assoc]
            rfl
          smooth := underway.smooth
          slots := underway.slots }, ⟨rfl, rfl, rfl, rfl, rfl⟩⟩
        · simp only [taken, List.append_assoc]
          refine underway.flag.append fun event member => ?_
          simp only [List.mem_append, List.mem_singleton] at member
          rcases member with rfl | rfl
          · exact setup.flagApart _ underway.dev
          · exact setup.flagApart _ underway.dev
        · simp only [taken, listed, underway.log, List.map_append, List.append_assoc]
          rw [← List.append_assoc before, fillSlots_append _ [writer.buf] (by
            rw [List.length_append, List.length_map]
            exact underway.lengths)]
          simp only [fillSlots, List.map_cons, List.map_nil, List.zip_cons_cons, List.zip_nil_right,
            List.flatMap_cons, List.flatMap_nil, fillSlot, List.append_nil, List.cons_append,
            List.nil_append]

theorem seek_start (chipErasesize : (board.chip dev).erasesize = es)
    (within : k ≤ (board.chip dev).blocks) : (board.chip dev).seek 0 (k * es) = k * es := by
  have fits : 0 + k * es ≤ (board.chip dev).size := by
    rw [Nat.zero_add, Chip.size_eq, chipErasesize]
    exact Nat.mul_le_mul_right _ within
  rw [Chip.seek, if_pos fits, Nat.zero_add]

/-- A device just opened, with the buffer still full. -/
theorem Opened.underway (setup : Setup board options es k devs)
    (here : Opened board options memory es devs opened)
    (pos : opened.pos = (board.chip opened.dev).seek 0 options.partOffset)
    (wEq : opened.w = 0) (eEq : opened.e = 0) (noSkipped : opened.skipBadBlocks = 0)
    (noOffset : opened.offset = 0) (short : opened.buf.length ≤ es)
    (log : opened.log = prelude ++ fillSlots es before written)
    (lengths : before.length = written.length)
    (content : written ++ padChunks es (opened.buf ++ opened.image.rest) = chunks)
    (smooth : Smooth board k (opened.dev :: opened.next) (chunks.length - before.length))
    (slots : (targets board k devs).take chunks.length =
      before ++ (targets board k (opened.dev :: opened.next)).take (chunks.length - before.length)) :
    Underway board options memory es k devs prelude chunks before written 0 opened where
  toOpened := here
  noOffset := noOffset
  short := short
  eEq := by rw [eEq, Nat.zero_mul]
  within := Nat.zero_le _
  pos := by
    intro within
    rw [pos, setup.offset, seek_start (setup.equal opened.dev here.dev) (by omega), Nat.zero_add]
  counted := rfl
  wEq := by rw [wEq]; exact (Nat.zero_mul _).symm
  together := by omega
  log := by
    rw [log]
    exact congrArg (fun slots => prelude ++ fillSlots es slots written) (List.append_nil _).symm
  lengths := lengths
  content := content
  smooth := smooth
  slots := slots

/-- At the end of a device the buffer goes to the next one as it is. -/
theorem resume_spec (setup : Setup board options es k devs)
    (underway : Underway board options memory es k devs prelude chunks before written i writer)
    (full : writer.buf.length = es) {n pos : Nat}
    (bad : ∀ j, i ≤ j → j < i + n → (board.chip writer.dev).isBad j = true)
    (good : (board.chip writer.dev).isGood (i + n) = true)
    (inside : (board.chip writer.dev).nand = true → i + n < (board.chip writer.dev).blocks)
    (refused : (board.chip writer.dev).erases ((i + n + k) * es) es = false)
    (ran : resume board options memory { writer with
      skipBadBlocks := writer.skipBadBlocks + n * es
      e := (i + n) * es
      pos := pos } = .ok after) :
    Underway board options memory es k devs prelude chunks
        (before ++ ((board.chip writer.dev).goodFrom k i).map (Slot.mk writer.dev)) written 0 after ∧
      Untouched writer after := by
  have chipErasesize := setup.equal writer.dev underway.dev
  have positive : 0 < es := by
    rw [← chipErasesize]
    exact Chip.erasesize_pos
  have few := underway.few full positive
  cases nextEq : writer.next with
  | nil =>
      simp only [resume, nextEq] at ran
      cases ran
  | cons dev next =>
      have smooth := underway.smooth
      rw [nextEq] at smooth
      obtain ⟨nothing, usedUp, counted, smoothNext⟩ := smooth.left (by simp) underway.within
        underway.counted few bad good inside (by
          rw [← Chip.erases_block, chipErasesize, refused]
          simp)
      subst nothing
      have together := underway.together
      have wEq := underway.wEq
      have eEq := underway.eEq
      rw [← underway.counted, counted] at wEq
      have noWrite : ¬writer.w < (i + 0) * es := by
        rw [wEq]
        exact Nat.lt_irrefl _
      simp only [resume, nextEq, if_neg noWrite] at ran
      have others := underway.next
      rw [nextEq] at others
      obtain ⟨globals, more, openedEq, here, -, idle⟩ :=
        openDevice_spec setup (others dev (by simp))
          (fun other member => others other (List.mem_cons_of_mem _ member)) ran
      have nothingMore := idle underway.flag
      subst nothingMore
      have listLength : ((board.chip writer.dev).goodFrom k i).length =
          ((board.chip writer.dev).goodBlocks k).length := by rw [usedUp]
      have remaining : chunks.length -
          (before ++ ((board.chip writer.dev).goodFrom k i).map (Slot.mk writer.dev)).length =
          chunks.length - before.length - ((board.chip writer.dev).goodBlocks k).length := by
        rw [List.length_append, List.length_map, listLength, Nat.sub_sub]
      subst openedEq
      refine ⟨here.underway setup rfl rfl rfl ?_ underway.noOffset underway.short ?_ ?_
        underway.content ?_ ?_, ⟨rfl, rfl, rfl, rfl, rfl⟩⟩
      · simp only [Nat.zero_mul, Nat.add_zero]
        omega
      · simp only [List.append_nil]
        exact underway.log
      · rw [List.length_append, List.length_map]
        exact underway.lengths
      · rw [remaining]
        exact smoothNext
      · rw [remaining, underway.slots, nextEq, List.append_assoc, ← usedUp]
        congr 1
        have split : targets board k (writer.dev :: dev :: next) =
            ((board.chip writer.dev).goodBlocks k).map (Slot.mk writer.dev) ++
              targets board k (dev :: next) := List.flatMap_cons
        rw [split, List.take_append, List.take_of_length_le (by rw [List.length_map]; omega),
          List.length_map]

theorem storeBlock_spec (setup : Setup board options es k devs)
    (underway : Underway board options memory es k devs prelude chunks before written i writer)
    (full : writer.buf.length = es)
    (ran : storeBlock board options memory writer = .ok after) :
    (∃ before written i,
      Underway board options memory es k devs prelude chunks before written i after) ∧
    Untouched writer after := by
  rw [storeBlock, if_neg (by rw [setup.erases]; simp)] at ran
  cases aheadEq : eraseAhead board options ((board.chip writer.dev).size + 2) writer with
  | error halt =>
      rw [aheadEq] at ran
      cases ran
  | ok ahead =>
      obtain ⟨n, pos, bad, good, inside, posEq, outcome⟩ := eraseAhead_spec underway.erasesize
        (setup.equal writer.dev underway.dev) underway.kind underway.eEq full underway.together
        underway.pos setup.offset aheadEq
      rw [aheadEq] at ran
      rcases outcome with ⟨erased, rfl⟩ | ⟨refused, rfl⟩
      · obtain ⟨next, untouched⟩ := writeBlock_spec setup underway full bad good posEq erased ran
        exact ⟨⟨_, _, _, next⟩, untouched⟩
      · obtain ⟨next, untouched⟩ := resume_spec setup underway full bad good inside refused ran
        exact ⟨⟨_, _, _, next⟩, untouched⟩

theorem takeBlock_plain (noFile : writer.jffs2file = none) (noSkip : writer.skip = 0) :
    takeBlock board options memory writer = storeBlock board options memory writer := by
  rw [takeBlock, noSkip, if_neg (Nat.lt_irrefl 0), noFile]

/-- Filling and padding the buffer does not change what is still to be written. -/
theorem padChunks_refill {buf rest : List UInt8} (positive : 0 < es) (short : buf.length ≤ es)
    (some' : buf ++ rest.take (es - buf.length) ≠ []) :
    padChunks es (padBlock es (buf ++ rest.take (es - buf.length)) ++ rest.drop (es - buf.length)) =
      padChunks es (buf ++ rest) := by
  have whole : buf ++ rest.take (es - buf.length) ++ rest.drop (es - buf.length) = buf ++ rest := by
    rw [List.append_assoc, List.take_append_drop]
  rcases Nat.lt_or_ge rest.length (es - buf.length) with few | many
  · have nothing : rest.drop (es - buf.length) = [] := List.drop_eq_nil_of_le (by omega)
    have all : rest.take (es - buf.length) = rest := List.take_of_length_le (by omega)
    rw [nothing, List.append_nil, all]
    rw [all] at some'
    have fits : (buf ++ rest).length ≤ es := by
      rw [List.length_append]
      omega
    have padded := padBlock_length fits
    have block := padChunks_full positive padded []
    rw [List.append_nil] at block
    rw [padChunks_last positive some' fits, block, padChunks_nil positive]
  · rw [padBlock_full (by rw [List.length_append, List.length_take]; omega), whole]

theorem Underway.refilled
    (underway : Underway board options memory es k devs prelude chunks before written i writer)
    (positive : 0 < es) {fuel : Nat} (enough : writer.image.measure < fuel)
    (some' : (refill es fuel writer.buf writer.image).1 ≠ []) :
    Underway board options memory es k devs prelude chunks before written i { writer with
        image := (refill es fuel writer.buf writer.image).2
        buf := padBlock es (refill es fuel writer.buf writer.image).1 } ∧
      (padBlock es (refill es fuel writer.buf writer.image).1).length = es := by
  have short := underway.short
  obtain ⟨bufEq, restEq, -⟩ := @refill_spec es fuel writer.buf writer.image enough short
  have padded : (padBlock es (refill es fuel writer.buf writer.image).1).length = es := by
    refine padBlock_length ?_
    rw [bufEq, List.length_append, List.length_take]
    omega
  refine ⟨{ underway with short := Nat.le_of_eq padded, content := ?_ }, padded⟩
  simp only
  rw [bufEq] at some'
  rw [restEq, bufEq, padChunks_refill positive short some']
  exact underway.content

theorem Underway.complete
    (underway : Underway board options memory es k devs prelude chunks before chunks i writer) :
    writer.log = prelude ++ fillSlots es ((targets board k devs).take chunks.length) chunks ∧
      ((targets board k devs).take chunks.length).length = chunks.length := by
  have lengths := underway.lengths
  have remaining : chunks.length - before.length =
      ((board.chip writer.dev).goodFrom k i).length := by omega
  have current : (targets board k (writer.dev :: writer.next)).take
      ((board.chip writer.dev).goodFrom k i).length =
        ((board.chip writer.dev).goodFrom k i).map (Slot.mk writer.dev) := by
    obtain ⟨rest, restEq⟩ := Chip.goodFrom_prefix_goodBlocks underway.within
    have split : targets board k (writer.dev :: writer.next) =
        ((board.chip writer.dev).goodFrom k i).map (Slot.mk writer.dev) ++
          (rest.map (Slot.mk writer.dev) ++ targets board k writer.next) := by
      rw [← List.append_assoc, ← List.map_append, restEq]
      exact List.flatMap_cons
    rw [split]
    exact List.take_left' (List.length_map _)
  have slots := underway.slots
  rw [remaining, current] at slots
  rw [slots]
  refine ⟨underway.log, ?_⟩
  rw [List.length_append, List.length_map]
  exact lengths

theorem Underway.finished {fuel : Nat}
    (underway : Underway board options memory es k devs prelude chunks before written i writer)
    (positive : 0 < es) (enough : writer.image.measure < fuel)
    (empty : (refill es fuel writer.buf writer.image).1 = []) : written = chunks := by
  obtain ⟨bufEq, -, -⟩ := refill_spec enough underway.short
  rw [empty] at bufEq
  obtain ⟨noBuf, nothing⟩ := List.append_eq_nil_iff.mp bufEq.symm
  rw [noBuf] at nothing
  have noRest : writer.image.rest = [] := by
    rcases List.take_eq_nil_iff.mp nothing with none' | none'
    · rw [List.length_nil] at none'
      omega
    · exact none'
  have content := underway.content
  rw [noBuf, noRest, List.append_nil, padChunks_nil positive, List.append_nil] at content
  exact content

/-- Without a file to append, the run ends with all blocks written. -/
theorem writeLoop_spec (setup : Setup board options es k devs) (positive : 0 < es) {fuel : Nat}
    (underway : ∃ before written i,
      Underway board options memory es k devs prelude chunks before written i writer)
    (noFile : writer.jffs2file = none) (noSkip : writer.skip = 0) (capacity : writer.capacity = es)
    (ran : writeLoop board options memory fuel writer = .ok after) :
    ∃ before i last, Underway board options memory es k devs prelude chunks before chunks i last ∧
      after.log = last.log ∧ after.jffs2Replaced = writer.jffs2Replaced := by
  induction fuel generalizing writer with
  | zero => cases ran
  | succ fuel ih =>
      obtain ⟨before, written, i, here⟩ := underway
      have room : ¬writer.capacity < es := by
        rw [capacity]
        exact Nat.lt_irrefl _
      rw [writeLoop] at ran
      simp only [here.erasesize, if_neg room] at ran
      split at ran
      · rename_i empty
        rw [Except.ok.injEq] at ran
        have complete := here.finished positive (Nat.lt_succ_self _) empty
        subst complete
        exact ⟨before, i, writer, here, by rw [← ran], by rw [← ran]⟩
      · rename_i some'
        obtain ⟨taken, stored, ran⟩ := bind_eq_ok.mp ran
        obtain ⟨filled, full⟩ := here.refilled positive (Nat.lt_succ_self _) some'
        obtain ⟨next, untouched⟩ := storeBlock_spec setup filled full (by
          rw [← takeBlock_plain]
          exacts [stored, noFile, noSkip])
        obtain ⟨before, i, last, done, logEq, replaced⟩ := ih next (untouched.jffs2file.trans noFile)
          (untouched.skip.trans noSkip) (untouched.capacity.trans capacity) ran
        exact ⟨before, i, last, done, logEq, replaced.trans untouched.jffs2Replaced⟩

/-- A plain write that returns has put the blocks of the image, in order, each into a good
block erased for it. -/
theorem mtdWrite_fills {buf log} {image : Image} (setup : Setup board options es k (dev :: next))
    (noFile : options.jffs2file = none) (short : buf.length ≤ es)
    (smooth : Smooth board k (dev :: next) (padChunks es (buf ++ image.rest)).length)
    (ran : mtdWrite board options memory dev next buf image = .ok log) :
    let chunks := padChunks es (buf ++ image.rest)
    let slots := (targets board k (dev :: next)).take chunks.length
    ∃ prelude cleared, log = prelude ++ fillSlots es slots chunks ++ cleared ∧
      slots.length = chunks.length ∧ OnFlag options prelude ∧ OnFlag options cleared ∧
      FlagIs options memory true (prelude ++ fillSlots es slots chunks) := by
  have chipErasesize := setup.equal dev (by simp)
  have positive : 0 < es := by
    rw [← chipErasesize]
    exact Chip.erasesize_pos
  obtain ⟨opened, openedEq, onward⟩ := bind_eq_ok.mp ran
  obtain ⟨final, looped, finished⟩ := bind_eq_ok.mp onward
  obtain ⟨globals, prelude, rfl, here, onFlag, -⟩ := openDevice_spec setup (by simp)
    (fun other member => List.mem_cons_of_mem _ member) openedEq
  have startLog : [] ++ prelude = prelude ++ fillSlots es [] [] := (List.append_nil prelude).symm
  have underway := here.underway setup rfl rfl rfl rfl rfl short startLog rfl rfl smooth rfl
  obtain ⟨before, i, last, done, logEq, replaced⟩ :=
    writeLoop_spec setup positive ⟨_, _, _, underway⟩ noFile rfl chipErasesize looped
  obtain ⟨lastLog, lengths⟩ := done.complete
  have notReplaced : final.jffs2Replaced = false := replaced
  simp only [finish, notReplaced, Bool.false_eq_true, if_false] at finished
  obtain ⟨closed, cleared, returned⟩ := bind_eq_ok.mp finished
  obtain ⟨globals', more, rfl, -, onFlagToo, -, -⟩ := setRecoverFlag_spec cleared
  cases returned
  refine ⟨prelude, more, ?_, lengths, onFlag, onFlagToo, ?_⟩
  · simp only [logEq, lastLog, startWriter, List.nil_append]
  · have flag := done.flag
    rw [lastLog] at flag
    exact flag

end

end Rut9xx.Mtd
