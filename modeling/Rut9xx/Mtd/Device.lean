import Rut9xx.Data.FlashLog
import Mathlib.Algebra.Group.Nat.Defs

namespace Rut9xx.Mtd

open Rut9xx.Data

/-! # The MTD character device as `mtd.c` drives it

The kernel's side of the calls: what a chip accepts depends on its geometry,
its bad blocks and on operations that fail for good.  Its size keeps the
program's signed offsets from wrapping.
-/

section

structure Chip where
  size : Nat
  erasesize : Nat
  nand : Bool
  bad : Nat → Bool
  eraseFails : Nat → Bool
  writeFails : Nat → Bool
  wide : 4 ≤ erasesize
  aligned : erasesize ∣ size
  nonempty : 0 < size
  small : size < 2 ^ 31

namespace Chip

def blocks (chip : Chip) : Nat := chip.size / chip.erasesize

/-- Only NAND has bad blocks. -/
def isBad (chip : Chip) (block : Nat) : Bool := chip.nand && chip.bad block

def isGood (chip : Chip) (block : Nat) : Bool := !chip.isBad block

/-- `MEMGETBADBLOCK`; an offset behind the end is an error. -/
def getBadBlock (chip : Chip) (offset : Nat) : Option Bool :=
  if offset < chip.size then some (chip.isBad (offset / chip.erasesize)) else none

/-- Whether `MEMERASE` succeeds: whole blocks inside the device, none of them bad. -/
def erases (chip : Chip) (start len : Nat) : Bool :=
  decide (0 < len ∧ start + len ≤ chip.size ∧ chip.erasesize ∣ start ∧ chip.erasesize ∣ len) &&
    (List.range (len / chip.erasesize)).all fun index =>
      chip.isGood (start / chip.erasesize + index) &&
        !chip.eraseFails (start / chip.erasesize + index)

/-- How many bytes `write` takes at `pos`; `none` for an error. -/
def accepts (chip : Chip) (pos len : Nat) : Option Nat :=
  if chip.size ≤ pos ∨ chip.writeFails pos = true then none else some (min len (chip.size - pos))

/-- `lseek(fd, distance, SEEK_CUR)`; a target behind the end leaves the position. -/
def seek (chip : Chip) (pos distance : Nat) : Nat :=
  if pos + distance ≤ chip.size then pos + distance else pos

end Chip

/-- The devices by number, and what lies in memory behind a buffer. -/
structure Board where
  chip : Nat → Chip
  opens : Nat → Bool
  heap : Nat → UInt8

/-- The variables that `mtd_check_open` sets, whatever device it opens. -/
structure Globals where
  mtdsize : Nat
  erasesize : Nat
  nand : Bool

def mtdCheckOpen (board : Board) (dev : Nat) : Option Globals :=
  if board.opens dev then
    some ⟨(board.chip dev).size, (board.chip dev).erasesize, (board.chip dev).nand⟩
  else none

theorem mtdCheckOpen_eq {board : Board} {dev : Nat} {globals : Globals}
    (opened : mtdCheckOpen board dev = some globals) :
    globals = ⟨(board.chip dev).size, (board.chip dev).erasesize, (board.chip dev).nand⟩ := by
  rw [mtdCheckOpen] at opened
  split at opened
  · exact (Option.some.inj opened).symm
  · cases opened

/-- `none` is the `exit(1)` of a failed query. -/
def mtdBlockIsBad (globals : Globals) (chip : Chip) (offset : Nat) : Option Bool :=
  if globals.nand then chip.getBadBlock offset else some false

/-- `len` bytes of memory from `offset` bytes into a buffer. -/
def bytesFrom (board : Board) (buf : List UInt8) (offset len : Nat) : List UInt8 :=
  (List.range len).map fun index => buf.getD (offset + index) (board.heap (offset + index))

theorem bytesFrom_whole (board : Board) (buf : List UInt8) :
    bytesFrom board buf 0 buf.length = buf := by
  refine List.ext_getElem (by simp [bytesFrom]) fun index below inBuf => ?_
  simp [bytesFrom, inBuf]

/-! ## Reading the image -/

inductive ReadEvent where
  | chunk (extra : Nat)
  | interrupted

/-- The bytes a file descriptor still delivers, how `read` cuts them up, and
whether it fails for good at their end; behind the schedule reads are full. -/
structure Image where
  rest : List UInt8
  schedule : List ReadEvent
  broken : Bool

inductive ReadResult where
  | data (bytes : List UInt8)
  | eof
  | interrupted
  | error

namespace Image

def deliver (image : Image) (len : Nat) (schedule : List ReadEvent) : ReadResult × Image :=
  if image.rest = [] then
    (if image.broken then .error else .eof, { image with schedule := schedule })
  else
    (.data (image.rest.take len), { image with rest := image.rest.drop len, schedule := schedule })

def read (image : Image) (len : Nat) : ReadResult × Image :=
  match image.schedule with
  | [] => image.deliver len []
  | .chunk extra :: later => image.deliver (min len (extra + 1)) later
  | .interrupted :: later => (.interrupted, { image with schedule := later })

def measure (image : Image) : Nat := image.schedule.length + image.rest.length

end Image

/-- The loop that fills the block buffer.  Every round uses up a byte or an
event, so `fuel` beyond their number is not used up. -/
def refill (erasesize : Nat) : Nat → List UInt8 → Image → List UInt8 × Image
  | 0, buf, image => (buf, image)
  | fuel + 1, buf, image =>
      if buf.length < erasesize then
        match image.read (erasesize - buf.length) with
        | (.interrupted, image) => refill erasesize fuel buf image
        | (.error, image) => (buf, image)
        | (.eof, image) => (buf, image)
        | (.data bytes, image) => refill erasesize fuel (buf ++ bytes) image
      else (buf, image)

/-- How the image is cut up does not show: the block is the next bytes, as many as fit. -/
theorem refill_spec {erasesize fuel : Nat} {buf : List UInt8} {image : Image}
    (enough : image.measure < fuel) (short : buf.length ≤ erasesize) :
    (refill erasesize fuel buf image).1 = buf ++ image.rest.take (erasesize - buf.length) ∧
      (refill erasesize fuel buf image).2.rest = image.rest.drop (erasesize - buf.length) ∧
      (refill erasesize fuel buf image).2.broken = image.broken := by
  induction fuel generalizing buf image with
  | zero => omega
  | succ fuel ih =>
      by_cases room : buf.length < erasesize
      · rw [refill, if_pos room]
        obtain ⟨rest, schedule, broken⟩ := image
        -- what one delivery of at most `len` bytes leads to
        have delivered : ∀ len later, 0 < len → len ≤ erasesize - buf.length →
            later.length + rest.length ≤ fuel →
            let after := match Image.deliver ⟨rest, schedule, broken⟩ len later with
              | (.interrupted, image) => refill erasesize fuel buf image
              | (.error, image) => (buf, image)
              | (.eof, image) => (buf, image)
              | (.data bytes, image) => refill erasesize fuel (buf ++ bytes) image
            after.1 = buf ++ rest.take (erasesize - buf.length) ∧
              after.2.rest = rest.drop (erasesize - buf.length) ∧ after.2.broken = broken := by
          intro len later positive fits budget
          by_cases empty : rest = []
          · subst empty
            cases broken <;> simp [Image.deliver]
          · have some' := List.length_pos_iff.mpr empty
            simp only [Image.deliver, empty, if_false]
            obtain ⟨bufEq, restEq, brokenEq⟩ := @ih (buf ++ rest.take len)
              ⟨rest.drop len, later, broken⟩
              (by simp only [Image.measure, List.length_drop]; omega)
              (by simp only [List.length_append, List.length_take]; omega)
            refine ⟨?_, ?_, brokenEq⟩
            · rw [bufEq, List.append_assoc, List.length_append, ← Nat.sub_sub]
              congr 1
              rw [List.length_take]
              rcases Nat.lt_or_ge rest.length len with few | many
              · rw [List.drop_eq_nil_of_le (by omega), List.take_nil, List.append_nil,
                  List.take_of_length_le (by omega), List.take_of_length_le (by omega)]
              · rw [Nat.min_eq_left many, ← List.take_add]
                congr 1
                omega
            · rw [restEq, List.drop_drop, List.length_append, List.length_take]
              rcases Nat.lt_or_ge rest.length len with few | many
              · rw [List.drop_eq_nil_of_le (by omega), List.drop_eq_nil_of_le (by omega)]
              · congr 1
                omega
        simp only [Image.measure] at enough
        cases schedule with
        | nil =>
            exact delivered (erasesize - buf.length) [] (by omega) (Nat.le_refl _) (by
              simp only [List.length_nil] at enough ⊢
              omega)
        | cons event later =>
            simp only [List.length_cons] at enough
            cases event with
            | chunk extra =>
                exact delivered (min (erasesize - buf.length) (extra + 1)) later (by omega)
                  (by omega) (by omega)
            | interrupted =>
                exact @ih buf ⟨rest, later, broken⟩ (by simp only [Image.measure]; omega) short
      · rw [refill, if_neg room]
        have full : erasesize - buf.length = 0 := by omega
        simp [full]

end

/-! # The good blocks of a device, in order -/

section

namespace Chip

variable {chip : Chip} {k i n j count : Nat}

/-- Among `count` blocks from `k` on. -/
def goodFrom (chip : Chip) (k count : Nat) : List Nat := (List.range' k count).filter chip.isGood

def goodBlocks (chip : Chip) (k : Nat) : List Nat := chip.goodFrom k (chip.blocks - k)

def goodCount (chip : Chip) (i : Nat) : Nat := (chip.goodFrom 0 i).length

theorem size_eq : chip.size = chip.blocks * chip.erasesize :=
  (Nat.div_mul_cancel chip.aligned).symm

theorem erasesize_pos : 0 < chip.erasesize := by
  have := chip.wide
  omega

theorem not_isGood : ¬chip.isGood j = true ↔ chip.isBad j = true := by
  simp only [isGood, Bool.not_eq_true', Bool.not_eq_false]

theorem erases_block : chip.erases (j * chip.erasesize) chip.erasesize = true ↔
    j < chip.blocks ∧ chip.isGood j = true ∧ chip.eraseFails j = false := by
  have positive := chip.erasesize_pos
  have inside : j * chip.erasesize + chip.erasesize ≤ chip.size ↔ j < chip.blocks := by
    rw [size_eq, ← Nat.succ_mul]
    exact ⟨fun fits => Nat.le_of_mul_le_mul_right fits positive, fun below => Nat.mul_le_mul_right _ below⟩
  simp only [erases, Nat.div_self positive, Nat.mul_div_cancel _ positive, inside, positive,
    Nat.dvd_mul_left, Nat.dvd_refl, and_true, true_and, List.range_one, List.all_cons,
    List.all_nil, Nat.add_zero, Bool.and_true, Bool.and_eq_true, decide_eq_true_eq,
    Bool.not_eq_true']

theorem goodFrom_append : chip.goodFrom k (i + n) = chip.goodFrom k i ++ chip.goodFrom (k + i) n := by
  have split : List.range' k (i + n) = List.range' k i ++ List.range' (k + i) n := by
    rw [List.range'_append_1]
  rw [goodFrom, split, List.filter_append]
  rfl

/-- Passing bad blocks adds none. -/
theorem goodFrom_pass (bad : ∀ j, i ≤ j → j < i + n → chip.isBad (j + k) = true) :
    chip.goodFrom k (i + n) = chip.goodFrom k i := by
  have none' : chip.goodFrom (k + i) n = [] := by
    refine List.filter_eq_nil_iff.mpr fun j member => ?_
    obtain ⟨above, below⟩ := List.mem_range'_1.mp member
    have := bad (j - k) (by omega) (by omega)
    rw [Nat.sub_add_cancel (by omega)] at this
    exact not_isGood.mpr this
  rw [goodFrom_append, none', List.append_nil]

theorem goodFrom_succ (good : chip.isGood (i + k) = true) :
    chip.goodFrom k (i + 1) = chip.goodFrom k i ++ [i + k] := by
  rw [goodFrom_append, Nat.add_comm k i]
  congr 1
  simp [goodFrom, good]

theorem goodFrom_prefix (below : i ≤ n) : chip.goodFrom k i <+: chip.goodFrom k n := by
  obtain ⟨rest, rfl⟩ := Nat.exists_eq_add_of_le below
  exact ⟨chip.goodFrom (k + i) rest, goodFrom_append.symm⟩

theorem goodFrom_prefix_goodBlocks (below : i ≤ chip.blocks - k) :
    chip.goodFrom k i <+: chip.goodBlocks k :=
  goodFrom_prefix below

theorem mem_goodBlocks : j ∈ chip.goodBlocks k ↔ k ≤ j ∧ j < chip.blocks ∧ chip.isGood j = true := by
  simp only [goodBlocks, goodFrom, List.mem_filter, List.mem_range'_1]
  constructor
  · rintro ⟨⟨above, below⟩, good⟩
    exact ⟨above, by omega, good⟩
  · rintro ⟨above, below, good⟩
    exact ⟨⟨above, by omega⟩, good⟩

/-- Up to the first good block all are bad. -/
theorem goodBlocks_cons {rest : List Nat} (listed : chip.goodBlocks i = j :: rest) :
    i ≤ j ∧ j < chip.blocks ∧ chip.isGood j = true ∧
      (∀ m, i ≤ m → m < j → chip.isBad m = true) ∧ chip.goodBlocks (j + 1) = rest := by
  rw [goodBlocks] at listed
  generalize countEq : chip.blocks - i = count at listed
  induction count generalizing i with
  | zero => cases listed
  | succ count ih =>
      rw [goodFrom, List.range'_succ] at listed
      by_cases good : chip.isGood i = true
      · rw [List.filter_cons_of_pos good, List.cons.injEq] at listed
        obtain ⟨rfl, listed⟩ := listed
        refine ⟨Nat.le_refl _, by omega, good, fun m above below => by omega, ?_⟩
        rw [goodBlocks, show chip.blocks - (i + 1) = count by omega]
        exact listed
      · rw [List.filter_cons_of_neg good] at listed
        obtain ⟨above, below, goodToo, bad, behind⟩ := ih (by omega) listed
        refine ⟨by omega, below, goodToo, fun m from' before => ?_, behind⟩
        rcases Nat.eq_or_lt_of_le from' with rfl | later
        · exact not_isGood.mp good
        · exact bad m later before

theorem goodBlocks_nodup : (chip.goodBlocks k).Nodup :=
  List.Pairwise.filter _ List.nodup_range'

theorem goodCount_of_good (good : ∀ j, j < i → chip.isGood j = true) : chip.goodCount i = i := by
  rw [goodCount, goodFrom, List.filter_eq_self.mpr, List.length_range']
  intro j member
  have := List.mem_range'_1.mp member
  exact good j (by omega)

theorem goodCount_pass (bad : ∀ j, i ≤ j → j < i + n → chip.isBad j = true) :
    chip.goodCount (i + n) = chip.goodCount i :=
  congrArg List.length (goodFrom_pass (k := 0) bad)

theorem goodCount_succ (good : chip.isGood i = true) :
    chip.goodCount (i + 1) = chip.goodCount i + 1 := by
  rw [goodCount, goodFrom_succ (k := 0) good, List.length_append]
  rfl

end Chip

theorem mtdBlockIsBad_block {globals : Globals} {chip : Chip} {bad : Bool} {j : Nat}
    (kind : globals.nand = chip.nand)
    (answer : mtdBlockIsBad globals chip (j * chip.erasesize) = some bad) :
    chip.isBad j = bad ∧ (chip.nand = true → j < chip.blocks) := by
  rw [mtdBlockIsBad, kind] at answer
  cases nand : chip.nand with
  | false =>
      rw [nand] at answer
      simp only [Bool.false_eq_true, if_false, Option.some.injEq] at answer
      exact ⟨by rw [Chip.isBad, nand, Bool.false_and, answer], fun impossible => by cases impossible⟩
  | true =>
      have positive := chip.erasesize_pos
      rw [nand] at answer
      simp only [if_true, Chip.getBadBlock, Nat.mul_div_cancel _ positive] at answer
      split at answer
      · rename_i below
        rw [Chip.size_eq] at below
        exact ⟨Option.some.inj answer, fun _ => Nat.lt_of_mul_lt_mul_right below⟩
      · cases answer

/-! ## Several devices -/

variable (board : Board)

/-- The good blocks from block `k` of each device on, in the order of the devices. -/
def targets (k : Nat) (devs : List Nat) : List Slot :=
  devs.flatMap fun dev => ((board.chip dev).goodBlocks k).map (Slot.mk dev)

/-- What lets the writer keep to the good blocks, `count` of them from block `k` of each
device on.  It looks for bad blocks without the offset, so the blocks it looks at have
to be bad only where the block written is.  Where there is a next device it is only
gone to at the end of one that had no bad block on the way. -/
def Smooth (k : Nat) : List Nat → Nat → Prop
  | [], _ => True
  | dev :: next, count =>
      let chip := board.chip dev
      (∀ i, i + k < chip.blocks → chip.goodCount i < count →
        chip.isBad i = true → chip.isBad (i + k) = true) ∧
      (next ≠ [] →
        (∀ i, i + k < chip.blocks → chip.goodCount i < count →
          chip.isBad (i + k) = true → chip.isBad i = true) ∧
        (∀ j ∈ (chip.goodBlocks k).take count, chip.eraseFails j = false) ∧
        ((chip.goodBlocks k).length < count →
          chip.nand = true ∧ k = 0 ∨
          (∀ i, i ≤ chip.blocks - k → chip.isGood i = true) ∧
            Smooth k next (count - (chip.goodBlocks k).length)))

variable {board} {k i n dev count : Nat} {next : List Nat}

theorem Smooth.aligned (smooth : Smooth board k (dev :: next) count)
    (below : i + n + k < (board.chip dev).blocks) (few : (board.chip dev).goodCount i < count)
    (bad : ∀ j, i ≤ j → j < i + n → (board.chip dev).isBad j = true) :
    ∀ j, i ≤ j → j < i + n → (board.chip dev).isBad (j + k) = true := by
  intro j above inside
  have same : (board.chip dev).goodCount j = (board.chip dev).goodCount i := by
    obtain ⟨passed, rfl⟩ := Nat.exists_eq_add_of_le above
    exact Chip.goodCount_pass fun j above below => bad j above (by omega)
  exact smooth.1 j (by omega) (by omega) (bad j above inside)

/-- A device is left only when its good blocks are used up and none before its end was bad. -/
theorem Smooth.left (smooth : Smooth board k (dev :: next) count) (another : next ≠ [])
    (within : i ≤ (board.chip dev).blocks - k)
    (counted : (board.chip dev).goodCount i = ((board.chip dev).goodFrom k i).length)
    (few : ((board.chip dev).goodFrom k i).length < count)
    (bad : ∀ j, i ≤ j → j < i + n → (board.chip dev).isBad j = true)
    (good : (board.chip dev).isGood (i + n) = true)
    (inside : (board.chip dev).nand = true → i + n < (board.chip dev).blocks)
    (refused : ¬(i + n + k < (board.chip dev).blocks ∧
      (board.chip dev).isGood (i + n + k) = true ∧
      (board.chip dev).eraseFails (i + n + k) = false)) :
    n = 0 ∧ (board.chip dev).goodBlocks k = (board.chip dev).goodFrom k i ∧
      (board.chip dev).goodCount i = i ∧
      Smooth board k next (count - ((board.chip dev).goodBlocks k).length) := by
  obtain ⟨backward, erasable, leaves⟩ := smooth.2 another
  have countEq : (board.chip dev).goodCount (i + n) = (board.chip dev).goodCount i :=
    Chip.goodCount_pass bad
  by_cases atEnd : i + n + k < (board.chip dev).blocks
  · -- a good block that is refused is one of those that were to be written
    exfalso
    have badAhead := smooth.aligned atEnd (by omega) bad
    have goodAhead : (board.chip dev).isGood (i + n + k) = true := by
      by_contra bad'
      have := backward (i + n) atEnd (by omega) (Chip.not_isGood.mp bad')
      exact Chip.not_isGood.mpr this good
    have listed : (board.chip dev).goodFrom k (i + n + 1) =
        (board.chip dev).goodFrom k i ++ [i + n + k] := by
      rw [Chip.goodFrom_succ goodAhead, Chip.goodFrom_pass badAhead]
    obtain ⟨rest, restEq⟩ := @Chip.goodFrom_prefix_goodBlocks (board.chip dev) k (i + n + 1) (by omega)
    have member : i + n + k ∈ ((board.chip dev).goodBlocks k).take count := by
      have far : ((board.chip dev).goodFrom k i ++ [i + n + k]).length ≤ count := by
        rw [List.length_append, List.length_singleton]
        omega
      rw [← restEq, listed, List.take_append, List.take_of_length_le far]
      simp
    exact refused ⟨atEnd, goodAhead, erasable _ member⟩
  · have usedUp : (board.chip dev).goodBlocks k = (board.chip dev).goodFrom k i := by
      obtain ⟨passed, blocksEq⟩ := Nat.exists_eq_add_of_le within
      rw [Chip.goodBlocks, blocksEq]
      refine Chip.goodFrom_pass fun j above below => ?_
      exact smooth.1 j (by omega) (by
        obtain ⟨before, rfl⟩ := Nat.exists_eq_add_of_le above
        rw [Chip.goodCount_pass fun j above below => bad j above (by omega)]
        omega) (bad j above (by omega))
    rcases leaves (by rw [usedUp]; exact few) with ⟨nand, noOffset⟩ | ⟨allGood, smoothNext⟩
    · have := inside nand
      omega
    · have nothing : n = 0 := by
        by_contra some'
        exact Chip.not_isGood.mpr (bad i (by omega) (by omega)) (allGood i within)
      refine ⟨nothing, usedUp, Chip.goodCount_of_good fun j below => allGood j (by omega), ?_⟩
      exact smoothNext

end

end Rut9xx.Mtd
