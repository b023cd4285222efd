import Mathlib.Data.List.Nodup

namespace Rut9xx.Data

/-! # Flash memory behind a log of its operations

Erasing sets every bit of a span; programming can only clear bits.  The
contents at any point of a run are those of the operations up to that point.
-/

inductive FlashEvent where
  | erase (dev start len : Nat)
  | program (dev start : Nat) (bytes : List UInt8)

abbrev FlashMemory := Nat → Nat → UInt8

namespace FlashEvent

def dev : FlashEvent → Nat
  | erase dev _ _ => dev
  | program dev _ _ => dev

def start : FlashEvent → Nat
  | erase _ start _ => start
  | program _ start _ => start

def len : FlashEvent → Nat
  | erase _ _ len => len
  | program _ _ bytes => bytes.length

/-- The new value of the byte `index` bytes into the span. -/
def value : FlashEvent → UInt8 → Nat → UInt8
  | erase _ _ _, _, _ => 0xff
  | program _ _ bytes, old, index => old &&& bytes.getD index 0xff

def apply (memory : FlashMemory) (event : FlashEvent) : FlashMemory := fun dev offset =>
  if event.dev = dev ∧ event.start ≤ offset ∧ offset < event.start + event.len then
    event.value (memory dev offset) (offset - event.start)
  else memory dev offset

end FlashEvent

def replay (memory : FlashMemory) (log : List FlashEvent) : FlashMemory :=
  log.foldl FlashEvent.apply memory

def readBytes (memory : FlashMemory) (dev start len : Nat) : List UInt8 :=
  (List.range len).map fun index => memory dev (start + index)

variable {memory memory' : FlashMemory} {log before after : List FlashEvent} {event : FlashEvent}
  {dev start len size offset : Nat} {bytes : List UInt8}

theorem replay_append : replay memory (before ++ after) = replay (replay memory before) after :=
  List.foldl_append

@[simp] theorem readBytes_length : (readBytes memory dev start len).length = len := by
  simp [readBytes]

theorem readBytes_congr
    (same : ∀ offset, start ≤ offset → offset < start + len → memory dev offset = memory' dev offset) :
    readBytes memory dev start len = readBytes memory' dev start len :=
  List.map_congr_left fun index inside => same _ (by omega) (by
    rw [List.mem_range] at inside
    omega)

theorem readBytes_append (more : Nat) :
    readBytes memory dev start (len + more) =
      readBytes memory dev start len ++ readBytes memory dev (start + len) more := by
  simp only [readBytes, List.range_add, List.map_append, List.map_map]
  congr 1
  refine List.map_congr_left fun index _ => ?_
  simp only [Function.comp_apply, Nat.add_assoc]

theorem apply_of_outside
    (outside : event.dev = dev → offset < event.start ∨ event.start + event.len ≤ offset) :
    event.apply memory dev offset = memory dev offset := by
  refine if_neg fun touched => ?_
  have := outside touched.1
  omega

theorem replay_of_outside
    (outside : ∀ event ∈ log, event.dev = dev →
      offset < event.start ∨ event.start + event.len ≤ offset) :
    replay memory log dev offset = memory dev offset := by
  induction log generalizing memory with
  | nil => rfl
  | cons event rest ih =>
      exact (ih fun other member => outside other (List.mem_cons_of_mem _ member)).trans
        (apply_of_outside (outside event (by simp)))

/-! ## Slots: erase blocks of one size -/

structure Slot where
  dev : Nat
  block : Nat
deriving DecidableEq

def readSlot (size : Nat) (memory : FlashMemory) (slot : Slot) : List UInt8 :=
  readBytes memory slot.dev (slot.block * size) size

def fillSlot (size : Nat) (slot : Slot) (data : List UInt8) : List FlashEvent :=
  [.erase slot.dev (slot.block * size) size, .program slot.dev (slot.block * size) data]

def fillSlots (size : Nat) (slots : List Slot) (blocks : List (List UInt8)) : List FlashEvent :=
  (slots.zip blocks).flatMap fun (slot, data) => fillSlot size slot data

variable {slot other : Slot} {slots : List Slot} {blocks : List (List UInt8)} {data : List UInt8}

theorem fillSlots_append (others : List Slot) (more : List (List UInt8))
    (lengths : slots.length = blocks.length) :
    fillSlots size (slots ++ others) (blocks ++ more) =
      fillSlots size slots blocks ++ fillSlots size others more := by
  simp only [fillSlots, List.zip_append lengths, List.flatMap_append]

theorem mem_fillSlots (full : ∀ data ∈ blocks, data.length = size)
    (member : event ∈ fillSlots size slots blocks) :
    ∃ slot ∈ slots, event.dev = slot.dev ∧ event.start = slot.block * size ∧ event.len = size := by
  obtain ⟨⟨slot, data⟩, pair, inside⟩ := List.mem_flatMap.mp member
  have inSlots := (List.of_mem_zip pair).1
  have inBlocks := (List.of_mem_zip pair).2
  simp only [fillSlot, List.mem_cons, List.not_mem_nil, or_false] at inside
  rcases inside with rfl | rfl
  · exact ⟨slot, inSlots, rfl, rfl, rfl⟩
  · exact ⟨slot, inSlots, rfl, rfl, full data inBlocks⟩

theorem slots_apart (differ : slot ≠ other) (sameDev : slot.dev = other.dev)
    (inside : slot.block * size ≤ offset ∧ offset < slot.block * size + size) :
    offset < other.block * size ∨ other.block * size + size ≤ offset := by
  have blocksDiffer : slot.block ≠ other.block := by
    intro same
    cases slot
    cases other
    simp_all
  rcases Nat.lt_or_gt_of_ne blocksDiffer with below | above
  · have := Nat.mul_le_mul_right size below
    rw [Nat.succ_mul] at this
    omega
  · have := Nat.mul_le_mul_right size above
    rw [Nat.succ_mul] at this
    omega

theorem readSlot_fillSlots_of_notMem
    (full : ∀ data ∈ blocks, data.length = size) (absent : slot ∉ slots) :
    readSlot size (replay memory (fillSlots size slots blocks)) slot = readSlot size memory slot := by
  refine readBytes_congr fun offset above below => replay_of_outside fun event member onDev => ?_
  obtain ⟨other, inSlots, devEq, startEq, lenEq⟩ := mem_fillSlots full member
  rw [startEq, lenEq]
  have differ : slot ≠ other := by
    rintro rfl
    exact absent inSlots
  exact slots_apart differ (onDev.symm.trans devEq) ⟨above, below⟩

theorem readSlot_fillSlot (full : data.length = size) :
    readSlot size (replay memory (fillSlot size slot data)) slot = data := by
  have bytes : ∀ index, index < size →
      replay memory (fillSlot size slot data) slot.dev (slot.block * size + index) =
        data.getD index 0xff := by
    intro index below
    simp only [replay, fillSlot, List.foldl_cons, List.foldl_nil, FlashEvent.apply, FlashEvent.dev,
      FlashEvent.start, FlashEvent.len, FlashEvent.value, full, Nat.le_add_right, true_and,
      Nat.add_lt_add_iff_left, below, if_true, Nat.add_sub_cancel_left]
    generalize data.getD index 0xff = byte
    exact UInt8.toNat_inj.mp (by
      have := byte.toNat_lt
      rw [UInt8.toNat_and]
      exact (Nat.and_comm _ _).trans (Nat.and_two_pow_sub_one_of_lt_two_pow this))
  refine List.ext_getElem (by rw [readSlot, readBytes_length, full]) fun index below inData => ?_
  rw [readSlot, readBytes_length] at below
  simp only [readSlot, readBytes, List.getElem_map, List.getElem_range, bytes index below]
  simp [inData]

/-- Slots hold what was put into them, as long as no two of them are one slot with
different blocks. -/
theorem readSlot_fillSlots (agree : ∀ first ∈ slots.zip blocks, ∀ second ∈ slots.zip blocks,
      first.1 = second.1 → first.2 = second.2)
    (lengths : slots.length = blocks.length) (full : ∀ data ∈ blocks, data.length = size) :
    slots.map (readSlot size (replay memory (fillSlots size slots blocks))) = blocks := by
  induction slots generalizing blocks memory with
  | nil =>
      rw [List.length_nil] at lengths
      rw [List.eq_nil_of_length_eq_zero lengths.symm]
      rfl
  | cons slot rest ih =>
      cases blocks with
      | nil => simp at lengths
      | cons data more =>
          have fullRest : ∀ data ∈ more, data.length = size :=
            fun data member => full data (List.mem_cons_of_mem _ member)
          have split : replay memory (fillSlots size (slot :: rest) (data :: more)) =
              replay (replay memory (fillSlot size slot data)) (fillSlots size rest more) :=
            replay_append
          have restHolds := @ih (replay memory (fillSlot size slot data)) more
            (fun first firstIn second secondIn =>
              agree first (List.mem_cons_of_mem _ firstIn) second (List.mem_cons_of_mem _ secondIn))
            (by simpa using lengths) fullRest
          rw [List.map_cons, split, restHolds]
          congr 1
          by_cases again : slot ∈ rest
          · -- a later block for the slot is the same block
            obtain ⟨index, below, slotEq⟩ := List.getElem_of_mem again
            have lengthsRest : rest.length = more.length := by simpa using lengths
            have inMore : index < more.length := lengthsRest ▸ below
            have pair : (rest[index], more[index]) ∈ rest.zip more :=
              List.mem_iff_getElem.mpr ⟨index, by
                rw [List.length_zip]
                omega, List.getElem_zip⟩
            have same := agree (slot, data) (by simp) _ (List.mem_cons_of_mem _ pair) slotEq.symm
            have stored := congrArg (fun blocks => blocks[index]?) restHolds
            simp only [List.getElem?_map, List.getElem?_eq_getElem below, Option.map_some, slotEq,
              List.getElem?_eq_getElem inMore, Option.some.injEq] at stored
            exact stored.trans same.symm
          · rw [readSlot_fillSlots_of_notMem fullRest again,
              readSlot_fillSlot (full data (by simp))]

theorem agree_of_nodup (distinct : slots.Nodup) :
    ∀ first ∈ slots.zip blocks, ∀ second ∈ slots.zip blocks,
      first.1 = second.1 → first.2 = second.2 := by
  intro first firstIn second secondIn same
  obtain ⟨i, iBelow, rfl⟩ := List.getElem_of_mem firstIn
  obtain ⟨j, jBelow, rfl⟩ := List.getElem_of_mem secondIn
  simp only [List.getElem_zip] at same ⊢
  have index := (List.Nodup.getElem_inj_iff distinct).mp same
  subst index
  rfl

/-- Every span programmed was erased as a whole block before, with no other device's
operations in between. -/
def ErasedFirst (size : Nat) (log : List FlashEvent) : Prop :=
  ∀ before dev start bytes after, log = before ++ .program dev start bytes :: after →
    bytes.length = size ∧ ∃ earlier between, before = earlier ++ .erase dev start size :: between ∧
      ∀ event ∈ between, event.dev = dev

theorem ErasedFirst.nil : ErasedFirst size [] := by
  intro before dev start bytes after split
  simp at split

theorem ErasedFirst.fill (erased : ErasedFirst size log) (slot : Slot)
    (full : data.length = size) : ErasedFirst size (log ++ fillSlot size slot data) := by
  intro before dev start bytes after split
  rcases List.append_eq_append_iff.mp split with ⟨middle, rfl, rest⟩ | ⟨middle, logEq, rest⟩
  · -- the programming is one of the two new operations
    cases middle with
    | nil => simp [fillSlot] at rest
    | cons first others =>
        simp only [fillSlot, List.cons_append, List.cons.injEq] at rest
        obtain ⟨rfl, rest⟩ := rest
        cases others with
        | nil =>
            simp only [List.nil_append, List.cons.injEq, FlashEvent.program.injEq] at rest
            obtain ⟨⟨rfl, rfl, rfl⟩, -⟩ := rest
            exact ⟨full, log, [], rfl, by simp⟩
        | cons second others => simp at rest
  · cases middle with
    | nil => simp [fillSlot] at rest
    | cons first others =>
        simp only [List.cons_append, List.cons.injEq] at rest
        obtain ⟨rfl, -⟩ := rest
        exact erased before dev start bytes others logEq

theorem ErasedFirst.fillSlots (erased : ErasedFirst size log)
    (full : ∀ data ∈ blocks, data.length = size) :
    ErasedFirst size (log ++ fillSlots size slots blocks) := by
  induction slots generalizing log blocks with
  | nil => simpa [Data.fillSlots] using erased
  | cons slot rest ih =>
      cases blocks with
      | nil => simpa [Data.fillSlots] using erased
      | cons data more =>
          have next := ih (erased.fill slot (full data (by simp)))
            fun data member => full data (List.mem_cons_of_mem _ member)
          rw [List.append_assoc] at next
          exact next

end Rut9xx.Data
