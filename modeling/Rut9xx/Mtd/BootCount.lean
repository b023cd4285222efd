import Rut9xx.Mtd.Device
import Rut9xx.Data.Endian
import Rut9xx.Data.Buffer

namespace Rut9xx.Mtd

open Rut9xx.Data

/-! # The boot-count log (`linksys_bootcount.c`)

A call ends in its return value and its log of flash operations, or nowhere when
it leaves the record buffer.  The targets that have the log are little-endian.
-/

def BOOTCOUNT_MAGIC : UInt32 := 0x20110811

def BC_OFFSET_INCREMENT_MIN : Nat := 16

structure BootCounter where
  magic : UInt32
  count : UInt32
  checksum : UInt32
deriving DecidableEq

def BootCounter.bytes (counter : BootCounter) : List UInt8 :=
  le32 counter.magic ++ (le32 counter.count ++ le32 counter.checksum)

/-- `curr`, the record at the start of the page. -/
def bootCounterAt (page : List UInt8) : BootCounter :=
  ⟨le32At page 0, le32At page 4, le32At page 8⟩

/-- The partition of the log, and the page size that `MEMGETINFO` reports for it. -/
structure BootLog where
  chip : Chip
  writesize : Nat
  opens : Bool

namespace BootLog

def bcOffsetIncrement (device : BootLog) : Nat :=
  if device.writesize < BC_OFFSET_INCREMENT_MIN then BC_OFFSET_INCREMENT_MIN else device.writesize

def numBc (device : BootLog) : Nat := device.chip.size / device.bcOffsetIncrement

end BootLog

/-- The search for the end of the log: the record behind the last one, the
`last_count` in front of it and the page, or the record with a strange magic. -/
def scanLog (increment : Nat) (memory : FlashMemory) :
    Nat → Nat → UInt32 → List UInt8 → Option (Option (Nat × UInt32) × List UInt8)
  | 0, index, lastCount, page => some (some (index, lastCount), page)
  | remaining + 1, index, lastCount, page => do
      let page ← writeAt page 0 (readBytes memory 0 (index * increment) 12)
      let curr := bootCounterAt page
      if curr.magic ≠ BOOTCOUNT_MAGIC ∧ curr.magic ≠ 0xffffffff then some (none, page)
      else if curr.magic = 0xffffffff then some (some (index, lastCount), page)
      else scanLog increment memory remaining (index + 1) curr.count page

/-- The page as it is written: all ones behind a record with count zero. -/
def zeroRecord (increment : Nat) (page : List UInt8) : Option (List UInt8) := do
  let page ← writeAt page 0 (List.replicate increment 0xff)
  writeAt page 0 (BootCounter.bytes ⟨BOOTCOUNT_MAGIC, 0, BOOTCOUNT_MAGIC⟩)

/-- From the `memset` on.  A short write counts as done. -/
def appendZero (device : BootLog) (index : Nat) (page : List UInt8) (log : List FlashEvent) :
    Option (Int × List FlashEvent) := do
  let page ← zeroRecord device.bcOffsetIncrement page
  let data := page.take device.bcOffsetIncrement
  match device.chip.accepts (index * device.bcOffsetIncrement) device.bcOffsetIncrement with
  | none => some (-4, log)
  | some len =>
      some (0, log ++ [.program 0 (index * device.bcOffsetIncrement) (data.take len)])

def mtdResetbc (device : BootLog) (memory : FlashMemory) (page : List UInt8) :
    Option (Int × List FlashEvent) :=
  if !device.opens then some (-1, [])
  else do
    let (ended, page) ← scanLog device.bcOffsetIncrement memory device.numBc 0 0 page
    match ended with
    | none => some (-2, [])
    | some (index, lastCount) =>
        if lastCount = 0 then some (0, [])
        else if index = device.numBc then
          if device.chip.erases 0 device.chip.size then
            appendZero device 0 page [.erase 0 0 device.chip.size]
          else some (-3, [])
        else appendZero device index page []

/-! ## Logs -/

/-- Valid records with these counts, then erased space. -/
structure LogHolds (device : BootLog) (memory : FlashMemory) (counts : List UInt32) : Prop where
  fits : counts.length ≤ device.numBc
  records : ∀ index (inside : index < counts.length),
    ∃ checksum, readBytes memory 0 (index * device.bcOffsetIncrement) 12 =
      BootCounter.bytes ⟨BOOTCOUNT_MAGIC, counts[index], checksum⟩
  erased : ∀ offset, counts.length * device.bcOffsetIncrement ≤ offset → offset < device.chip.size →
    memory 0 offset = 0xff

/-- What the last record says; an empty log has not counted anything. -/
def lastCount (counts : List UInt32) : UInt32 := counts.getLastD 0

variable {device : BootLog} {memory : FlashMemory} {counts : List UInt32} {page : List UInt8}

theorem bcOffsetIncrement_wide (device : BootLog) : 16 ≤ device.bcOffsetIncrement := by
  unfold BootLog.bcOffsetIncrement BC_OFFSET_INCREMENT_MIN
  split <;> omega

theorem BootCounter.bytes_length (counter : BootCounter) : counter.bytes.length = 12 := rfl

theorem bootCounterAt_bytes (counter : BootCounter) (rest : List UInt8) :
    bootCounterAt (counter.bytes ++ rest) = counter := by
  simp only [bootCounterAt, BootCounter.bytes, List.append_assoc]
  rw [le32At_here, le32At_past32 _ _ 0, le32At_here, le32At_past32 _ _ 4, le32At_past32 _ _ 0,
    le32At_here]

/-- A record read into the page is the one that is looked at. -/
theorem readRecord (long : 12 ≤ page.length) {bytes : List UInt8} (width : bytes.length = 12) :
    ∃ rest, writeAt page 0 bytes = some (bytes ++ rest) ∧ (bytes ++ rest).length = page.length := by
  refine ⟨page.drop 12, writeAt_some_iff.mpr ⟨by omega, ?_⟩, ?_⟩
  · rw [List.take_zero, List.nil_append, width, Nat.zero_add]
  · rw [List.length_append, List.length_drop, width]
    omega

theorem slot_inside {index : Nat} (inside : index < device.numBc) :
    index * device.bcOffsetIncrement + device.bcOffsetIncrement ≤ device.chip.size := by
  have slots := Nat.mul_le_mul_right device.bcOffsetIncrement (Nat.succ_le_of_lt inside)
  have whole := Nat.div_mul_le_self device.chip.size device.bcOffsetIncrement
  rw [Nat.succ_mul] at slots
  exact slots.trans whole

theorem LogHolds.blank (holds : LogHolds device memory counts) (room : counts.length < device.numBc) :
    readBytes memory 0 (counts.length * device.bcOffsetIncrement) 12 = List.replicate 12 0xff := by
  have inside := slot_inside room
  have wide := bcOffsetIncrement_wide device
  apply List.ext_getElem
  · simp
  · intro index below _
    rw [readBytes_length] at below
    simp only [readBytes, List.getElem_map, List.getElem_range, List.getElem_replicate]
    exact holds.erased _ (by omega) (by omega)

theorem bootCounterAt_blank (rest : List UInt8) :
    (bootCounterAt (List.replicate 12 0xff ++ rest)).magic = 0xffffffff := by
  have ones : List.replicate 12 (0xff : UInt8) = le32 0xffffffff ++ List.replicate 8 0xff := by
    decide
  rw [bootCounterAt, ones, List.append_assoc, le32At_here]

/-- The search finds the end of the records and the count of the last one. -/
theorem scanLog_holds (holds : LogHolds device memory counts) (long : 12 ≤ page.length)
    {index remaining : Nat} (reached : index ≤ counts.length)
    (left : index + remaining = device.numBc) :
    ∃ after, after.length = page.length ∧
      scanLog device.bcOffsetIncrement memory remaining index (lastCount (counts.take index)) page =
        some (some (counts.length, lastCount counts), after) := by
  induction remaining generalizing index page with
  | zero =>
      have fits := holds.fits
      obtain rfl : index = counts.length := by omega
      exact ⟨page, rfl, by rw [scanLog, List.take_length]⟩
  | succ remaining ih =>
      rw [scanLog]
      rcases Nat.lt_or_eq_of_le reached with inside | rfl
      · obtain ⟨checksum, record⟩ := holds.records index inside
        obtain ⟨rest, stored, length⟩ := readRecord long
          (BootCounter.bytes_length ⟨BOOTCOUNT_MAGIC, counts[index], checksum⟩)
        have longAgain : 12 ≤
            (BootCounter.bytes ⟨BOOTCOUNT_MAGIC, counts[index], checksum⟩ ++ rest).length := by omega
        obtain ⟨after, afterLength, scanned⟩ := ih longAgain (Nat.succ_le_of_lt inside) (by omega)
        have last : lastCount (counts.take (index + 1)) = counts[index] := by
          rw [lastCount, List.take_succ_eq_append_getElem inside, List.getLastD_concat]
        refine ⟨after, afterLength.trans length, ?_⟩
        rw [last] at scanned
        rw [record, stored, Option.bind_eq_bind, Option.bind_some]
        simp only [bootCounterAt_bytes, ne_eq, not_true, false_and, if_false]
        rw [if_neg (by decide)]
        exact scanned
      · rw [holds.blank (by omega)]
        obtain ⟨rest, stored, length⟩ := readRecord long (List.length_replicate (a := (0xff : UInt8)))
        refine ⟨_, length, ?_⟩
        rw [stored, Option.bind_eq_bind, Option.bind_some]
        simp only [bootCounterAt_blank, ne_eq, not_true, and_false, if_false, if_true,
          List.take_length]

/-! ## Appending a record -/

/-- What is programmed for a count of zero. -/
def zeroSlot (increment : Nat) : List UInt8 :=
  BootCounter.bytes ⟨BOOTCOUNT_MAGIC, 0, BOOTCOUNT_MAGIC⟩ ++ List.replicate (increment - 12) 0xff

theorem zeroSlot_length (device : BootLog) :
    (zeroSlot device.bcOffsetIncrement).length = device.bcOffsetIncrement := by
  have wide := bcOffsetIncrement_wide device
  rw [zeroSlot, List.length_append, List.length_replicate, BootCounter.bytes_length]
  omega

theorem zeroRecord_take {increment : Nat} (wide : 16 ≤ increment) (room : increment ≤ page.length) :
    ∃ after, zeroRecord increment page = some after ∧ after.take increment = zeroSlot increment := by
  obtain ⟨cleared, first⟩ := @writeAt_exists _ page (List.replicate increment (0xff : UInt8)) 0
    (by rw [List.length_replicate]; omega)
  have clearedLength := writeAt_length first
  obtain ⟨after, second⟩ := @writeAt_exists _ cleared
    (BootCounter.bytes ⟨BOOTCOUNT_MAGIC, 0, BOOTCOUNT_MAGIC⟩) 0
    (by rw [BootCounter.bytes_length]; omega)
  refine ⟨after, by rw [zeroRecord, first, Option.bind_eq_bind, Option.bind_some, second], ?_⟩
  have front : cleared.take increment = List.replicate increment 0xff := by
    have laid := slice_writeAt first
    rwa [List.length_replicate, slice, List.drop_zero] at laid
  obtain ⟨-, rfl⟩ := writeAt_some_iff.mp second
  rw [List.take_zero, List.nil_append, BootCounter.bytes_length, Nat.zero_add, List.take_append,
    BootCounter.bytes_length, List.take_of_length_le (by rw [BootCounter.bytes_length]; omega),
    ← List.drop_take, front, List.drop_replicate, zeroSlot]

theorem zeroRecord_none {increment : Nat} (overrun : page.length < increment) :
    zeroRecord increment page = none := by
  rw [zeroRecord, writeAt, if_neg (by rw [List.length_replicate]; omega)]
  rfl

theorem appendZero_some {index : Nat} {log : List FlashEvent} (inside : index < device.numBc)
    (room : device.bcOffsetIncrement ≤ page.length) :
    appendZero device index page log = some (-4, log) ∨
      appendZero device index page log = some (0, log ++ [.program 0
        (index * device.bcOffsetIncrement) (zeroSlot device.bcOffsetIncrement)]) := by
  have wide := bcOffsetIncrement_wide device
  have fits := slot_inside inside
  obtain ⟨after, zeroed, data⟩ := zeroRecord_take wide room
  simp only [appendZero, zeroed, Option.bind_eq_bind, Option.bind_some, data]
  cases accepted : device.chip.accepts (index * device.bcOffsetIncrement)
      device.bcOffsetIncrement with
  | none => exact .inl rfl
  | some len =>
      have whole : len = device.bcOffsetIncrement := by
        rw [Chip.accepts] at accepted
        split at accepted
        · cases accepted
        · have cut := Option.some.inj accepted
          omega
      right
      simp only [whole, List.take_of_length_le (Nat.le_of_eq (zeroSlot_length device))]

theorem ones_and (byte : UInt8) : 0xff &&& byte = byte := by
  apply UInt8.toNat_inj.mp
  rw [UInt8.toNat_and, Nat.and_comm]
  exact Nat.and_two_pow_sub_one_of_lt_two_pow byte.toNat_lt

/-- The log with the new record behind the others. -/
theorem LogHolds.append (holds : LogHolds device memory counts)
    (room : counts.length < device.numBc) :
    LogHolds device (replay memory [.program 0 (counts.length * device.bcOffsetIncrement)
      (zeroSlot device.bcOffsetIncrement)]) (counts ++ [0]) := by
  have wide := bcOffsetIncrement_wide device
  have inside := slot_inside room
  have slot := zeroSlot_length device
  have outside {offset : Nat} (apart : offset < counts.length * device.bcOffsetIncrement ∨
      counts.length * device.bcOffsetIncrement + device.bcOffsetIncrement ≤ offset) :
      replay memory [.program 0 (counts.length * device.bcOffsetIncrement)
        (zeroSlot device.bcOffsetIncrement)] 0 offset = memory 0 offset := by
    apply replay_of_outside
    intro event member _
    obtain rfl := List.mem_singleton.mp member
    simp only [FlashEvent.start, FlashEvent.len, slot]
    exact apart
  constructor
  · rw [List.length_append, List.length_singleton]
    omega
  · intro index below
    rw [List.length_append, List.length_singleton] at below
    by_cases earlier : index < counts.length
    · obtain ⟨checksum, record⟩ := holds.records index earlier
      refine ⟨checksum, ?_⟩
      rw [List.getElem_append_left earlier, ← record]
      apply readBytes_congr
      intro offset _ upper
      have before := Nat.mul_le_mul_right device.bcOffsetIncrement (Nat.succ_le_of_lt earlier)
      rw [Nat.succ_mul] at before
      exact outside (.inl (by omega))
    · obtain rfl : index = counts.length := by omega
      refine ⟨BOOTCOUNT_MAGIC, ?_⟩
      rw [List.getElem_concat_length rfl]
      apply List.ext_getElem
      · rw [readBytes_length, BootCounter.bytes_length]
      intro place low _
      rw [readBytes_length] at low
      have blank : memory 0 (counts.length * device.bcOffsetIncrement + place) = 0xff :=
        holds.erased _ (by omega) (by omega)
      simp only [readBytes, List.getElem_map, List.getElem_range, replay, List.foldl_cons,
        List.foldl_nil, FlashEvent.apply, FlashEvent.dev, FlashEvent.start, FlashEvent.len, slot,
        FlashEvent.value, blank, true_and]
      rw [if_pos ⟨by omega, by omega⟩, ones_and, Nat.add_sub_cancel_left, zeroSlot,
        List.getD_append _ _ _ _ (by rw [BootCounter.bytes_length]; exact low),
        List.getD_eq_getElem _ _ (by rw [BootCounter.bytes_length]; exact low)]
  · intro offset low high
    rw [List.length_append, List.length_singleton, Nat.succ_mul] at low
    rw [outside (.inr low)]
    exact holds.erased offset (by omega) high

theorem LogHolds.erase :
    LogHolds device (replay memory [.erase 0 0 device.chip.size]) [] := by
  constructor
  · exact Nat.zero_le _
  · intro index below
    cases below
  · intro offset _ high
    simp only [replay, List.foldl_cons, List.foldl_nil, FlashEvent.apply, FlashEvent.dev,
      FlashEvent.start, FlashEvent.len, FlashEvent.value, true_and, Nat.zero_le, Nat.zero_add, high,
      if_true]

/-! ## The reset -/

/-- What a call that returns zero has done: the log counts from zero, and unless it
was erased no record changed. -/
structure Reset (device : BootLog) (memory : FlashMemory) (counts : List UInt32)
    (log : List FlashEvent) : Prop where
  zero : ∀ page : List UInt8, page.length = 2048 → ∃ index after,
    scanLog device.bcOffsetIncrement (replay memory log) device.numBc 0 0 page =
      some (some (index, 0), after)
  kept : (∀ dev start len, FlashEvent.erase dev start len ∉ log) →
    ∀ index < counts.length,
      readBytes (replay memory log) 0 (index * device.bcOffsetIncrement) device.bcOffsetIncrement =
        readBytes memory 0 (index * device.bcOffsetIncrement) device.bcOffsetIncrement

/-- The call stays in the record buffer, and a zero is kept to. -/
def ResetsCount (device : BootLog) (memory : FlashMemory) (counts : List UInt32)
    (page : List UInt8) : Prop :=
  ∃ ret log, mtdResetbc device memory page = some (ret, log) ∧
    (ret = 0 → Reset device memory counts log)

/-- The pages that go into the buffer, and the logs that need no new record. -/
def PageFits (device : BootLog) (counts : List UInt32) : Prop :=
  device.writesize ≤ 2048 ∨ device.opens = false ∨ lastCount counts = 0 ∨
    counts.length = device.numBc ∧ device.chip.erases 0 device.chip.size = false

theorem Reset.of_holds {log : List FlashEvent} {after : List UInt32}
    (holds : LogHolds device (replay memory log) after) (last : lastCount after = 0)
    (kept : (∀ dev start len, FlashEvent.erase dev start len ∉ log) →
      ∀ index < counts.length,
        readBytes (replay memory log) 0 (index * device.bcOffsetIncrement) device.bcOffsetIncrement =
          readBytes memory 0 (index * device.bcOffsetIncrement) device.bcOffsetIncrement) :
    Reset device memory counts log where
  zero := by
    intro page size
    obtain ⟨later, -, scanned⟩ := @scanLog_holds device _ after page holds (by omega) 0 device.numBc
      (Nat.zero_le _) (Nat.zero_add _)
    rw [List.take_zero, last] at scanned
    exact ⟨_, later, scanned⟩
  kept := kept

theorem lastCount_concat (counts : List UInt32) (count : UInt32) :
    lastCount (counts ++ [count]) = count := by
  rw [lastCount, List.getLastD_concat]

theorem mtdResetbc_eq (holds : LogHolds device memory counts) (long : page.length = 2048)
    (opens : device.opens = true) :
    ∃ after, after.length = 2048 ∧ mtdResetbc device memory page =
      if lastCount counts = 0 then some (0, [])
      else if counts.length = device.numBc then
        if device.chip.erases 0 device.chip.size then
          appendZero device 0 after [.erase 0 0 device.chip.size]
        else some (-3, [])
      else appendZero device counts.length after [] := by
  obtain ⟨after, afterLength, scanned⟩ := @scanLog_holds device memory counts page holds (by omega) 0
    device.numBc (Nat.zero_le _) (Nat.zero_add _)
  rw [List.take_zero] at scanned
  have started : lastCount [] = 0 := rfl
  rw [started] at scanned
  refine ⟨after, by omega, ?_⟩
  rw [mtdResetbc, opens]
  simp only [Bool.not_true, Bool.false_eq_true, if_false, scanned, Option.bind_eq_bind,
    Option.bind_some]

theorem Reset.append (holds : LogHolds device memory counts)
    (room : counts.length < device.numBc) :
    Reset device memory counts [.program 0 (counts.length * device.bcOffsetIncrement)
      (zeroSlot device.bcOffsetIncrement)] := by
  apply Reset.of_holds (holds.append room) (lastCount_concat counts 0)
  intro _ index earlier
  apply readBytes_congr
  intro offset _ upper
  apply replay_of_outside
  intro event member _
  obtain rfl := List.mem_singleton.mp member
  have before := Nat.mul_le_mul_right device.bcOffsetIncrement (Nat.succ_le_of_lt earlier)
  rw [Nat.succ_mul] at before
  exact .inl (by simp only [FlashEvent.start]; omega)

theorem Reset.erase (room : 0 < device.numBc) :
    Reset device memory counts ([.erase 0 0 device.chip.size] ++
      [.program 0 (0 * device.bcOffsetIncrement) (zeroSlot device.bcOffsetIncrement)]) := by
  have holds := (@LogHolds.erase device memory).append room
  rw [← replay_append] at holds
  apply Reset.of_holds holds (lastCount_concat [] 0)
  intro unerased
  exact absurd (List.mem_append_left _ List.mem_cons_self) (unerased 0 0 device.chip.size)

theorem Reset.nothing (holds : LogHolds device memory counts) (last : lastCount counts = 0) :
    Reset device memory counts [] :=
  Reset.of_holds holds last fun _ _ _ => rfl

theorem bcOffsetIncrement_le_iff : device.bcOffsetIncrement ≤ 2048 ↔ device.writesize ≤ 2048 := by
  unfold BootLog.bcOffsetIncrement BC_OFFSET_INCREMENT_MIN
  split <;> omega

theorem appendZero_none {index : Nat} {log : List FlashEvent} (buffer : page.length = 2048)
    (wide : 2048 < device.writesize) : appendZero device index page log = none := by
  have large : ¬ device.bcOffsetIncrement ≤ 2048 := by
    rw [bcOffsetIncrement_le_iff]
    omega
  rw [appendZero, zeroRecord_none (by omega)]
  rfl

theorem nonempty_of_lastCount (counted : lastCount counts ≠ 0) : 0 < counts.length := by
  cases counts with
  | nil => exact absurd rfl counted
  | cons count rest => exact Nat.succ_pos _

theorem resetsCount_of_eq {ret : Int} {log : List FlashEvent}
    (done : mtdResetbc device memory page = some (ret, log))
    (kept : ret = 0 → Reset device memory counts log) : ResetsCount device memory counts page :=
  ⟨ret, log, done, kept⟩

/-- A record written behind the others, or to the start of the erased log. -/
theorem resetsCount_of_append {index : Nat} {log : List FlashEvent} {after : List UInt8}
    (done : mtdResetbc device memory page = appendZero device index after log)
    (buffer : after.length = 2048) (inside : index < device.numBc)
    (narrow : device.writesize ≤ 2048)
    (reset : Reset device memory counts (log ++ [.program 0 (index * device.bcOffsetIncrement)
      (zeroSlot device.bcOffsetIncrement)])) : ResetsCount device memory counts page := by
  have room : device.bcOffsetIncrement ≤ after.length :=
    buffer ▸ bcOffsetIncrement_le_iff.mpr narrow
  rcases @appendZero_some device after index log inside room with failed | written
  · exact resetsCount_of_eq (done.trans failed) fun impossible => absurd impossible (by decide)
  · exact resetsCount_of_eq (done.trans written) fun _ => reset

/-- On a well-formed log the reset does its work exactly when the write size of
the device is not larger than the record buffer, or there is nothing to write. -/
theorem mtdResetbc_resets_iff (holds : LogHolds device memory counts)
    (buffer : page.length = 2048) :
    ResetsCount device memory counts page ↔ PageFits device counts := by
  cases opens : device.opens with
  | false =>
      have failed : mtdResetbc device memory page = some (-1, []) := by
        rw [mtdResetbc, opens]
        rfl
      simp only [PageFits, opens, true_or, or_true, iff_true]
      exact resetsCount_of_eq failed fun impossible => absurd impossible (by decide)
  | true =>
      obtain ⟨after, afterLength, done⟩ := mtdResetbc_eq holds buffer opens
      have fits := holds.fits
      simp only [PageFits, opens, Bool.true_eq_false, false_or]
      split at done
      · rename_i last
        simp only [last, true_or, or_true, iff_true]
        exact resetsCount_of_eq done fun _ => Reset.nothing holds last
      · rename_i counted
        have records := nonempty_of_lastCount counted
        split at done
        · rename_i full
          split at done
          · rename_i erases
            simp only [counted, full, erases, Bool.true_eq_false, and_false, or_false]
            constructor
            · rintro ⟨ret, log, returned, -⟩
              by_contra wide
              rw [done, appendZero_none afterLength (by omega)] at returned
              cases returned
            · intro narrow
              exact resetsCount_of_append done afterLength (by omega) narrow
                (Reset.erase (by omega))
          · rename_i unerased
            rw [Bool.not_eq_true] at unerased
            simp only [full, unerased, and_self, or_true, iff_true]
            exact resetsCount_of_eq done fun impossible => absurd impossible (by decide)
        · rename_i room
          simp only [counted, room, false_and, or_false]
          constructor
          · rintro ⟨ret, log, returned, -⟩
            by_contra wide
            rw [done, appendZero_none afterLength (by omega)] at returned
            cases returned
          · intro narrow
            exact resetsCount_of_append done afterLength (by omega) narrow
              (Reset.append holds (by omega))

/-- A partition of one erase block, with one record that counts one boot. -/
def oneBoot (writesize : Nat) : BootLog where
  chip :=
    { size := 0x20000
      erasesize := 0x20000
      nand := true
      bad := fun _ => false
      eraseFails := fun _ => false
      writeFails := fun _ => false
      wide := by decide
      aligned := Nat.dvd_refl _
      nonempty := by decide
      small := by decide }
  writesize := writesize
  opens := true

def oneBootMemory : FlashMemory := fun _ offset =>
  (BootCounter.bytes ⟨BOOTCOUNT_MAGIC, 1, BOOTCOUNT_MAGIC + 1⟩).getD offset 0xff

theorem oneBoot_holds (writesize : Nat) (room : 0 < (oneBoot writesize).numBc) :
    LogHolds (oneBoot writesize) oneBootMemory [1] := by
  constructor
  · exact room
  · intro index below
    obtain rfl : index = 0 := by simpa using below
    refine ⟨BOOTCOUNT_MAGIC + 1, ?_⟩
    rw [Nat.zero_mul]
    rfl
  · intro offset low _
    have wide := bcOffsetIncrement_wide (oneBoot writesize)
    rw [oneBootMemory, List.getD_eq_default _ _ (by
      rw [BootCounter.bytes_length]
      simp only [List.length_singleton, Nat.one_mul] at low
      omega)]

theorem mtdResetbc_resets_page :
    LogHolds (oneBoot 2048) oneBootMemory [1] ∧
      (ResetsCount (oneBoot 2048) oneBootMemory [1] (List.replicate 2048 0) ↔
        PageFits (oneBoot 2048) [1]) :=
  ⟨oneBoot_holds 2048 (by decide),
    mtdResetbc_resets_iff (oneBoot_holds 2048 (by decide)) List.length_replicate⟩

/-- On a NAND chip with pages of 4096 bytes the fill of the record leaves the page. -/
theorem mtdResetbc_overrun :
    mtdResetbc (oneBoot 4096) oneBootMemory (List.replicate 2048 0) = none ∧
      ¬ ∀ (device : BootLog) (memory : FlashMemory) (counts : List UInt32) (page : List UInt8),
        LogHolds device memory counts → page.length = 2048 →
          ResetsCount device memory counts page := by
  have holds := oneBoot_holds 4096 (by decide)
  obtain ⟨after, afterLength, done⟩ := @mtdResetbc_eq (oneBoot 4096) oneBootMemory [1]
    (List.replicate 2048 0) holds List.length_replicate rfl
  have room : [(1 : UInt32)].length ≠ (oneBoot 4096).numBc := by decide
  have counted : lastCount [1] ≠ 0 := by decide
  rw [if_neg counted, if_neg room, appendZero_none afterLength (by decide)] at done
  refine ⟨done, fun always => ?_⟩
  obtain ⟨ret, log, returned, -⟩ := always (oneBoot 4096) oneBootMemory [1] (List.replicate 2048 0)
    holds List.length_replicate
  rw [done] at returned
  cases returned

end Rut9xx.Mtd
