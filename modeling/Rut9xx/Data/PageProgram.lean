import Rut9xx.Data.FlashLog
import Rut9xx.Data.Memory

namespace Rut9xx.Data

/-! # Programming the pages of a flash chip

A chip can only clear bits, and its address counter stays in the page it began in. -/

section

variable {size address other next : Nat} {memory : Memory UInt8} {bytes data : List UInt8}

def pageStart (size address : Nat) : Nat := address / size * size

/-- Behind the last byte of a page comes its first one. -/
def pageNext (size address : Nat) : Nat :=
  if (address + 1) % size = 0 then address + 1 - size else address + 1

def programBytes (size : Nat) (memory : Memory UInt8) (address : Nat) :
    List UInt8 → Memory UInt8
  | [] => memory
  | byte :: rest =>
    programBytes size (Function.update memory address (memory address &&& byte))
      (pageNext size address) rest

def CrossesPage (size address count : Nat) : Prop := size < address % size + count

instance : Decidable (CrossesPage size address count) := inferInstanceAs (Decidable (_ < _))

/-- The cells from `start` on are all ones. -/
def Erased (memory : Memory UInt8) (start count : Nat) : Prop :=
  ∀ index, index < count → memory (start + index) = 0xff

theorem Erased.store_behind (erased : Erased memory address (data.length + count)) :
    Erased (store memory address data) (address + data.length) count := by
  intro index inside
  rw [store_outside (by omega), Nat.add_assoc]
  exact erased _ (by omega)

theorem Erased.take (erased : Erased memory address count) (fewer : other ≤ count) :
    Erased memory address other :=
  fun index inside => erased index (by omega)

theorem Erased.drop (erased : Erased memory address (other + count)) :
    Erased memory (address + other) count := by
  intro index inside
  rw [Nat.add_assoc]
  exact erased _ (by omega)

theorem pageNext_inside (inside : address % size + 1 < size) :
    pageNext size address = address + 1 := by
  have positive : 0 < size := by omega
  have mod : (address + 1) % size = address % size + 1 := by
    rw [Nat.add_mod, Nat.mod_eq_of_lt (by omega : 1 < size), Nat.mod_eq_of_lt inside]
  unfold pageNext
  rw [if_neg (by omega)]

theorem pageStart_pageNext (positive : 0 < size) :
    pageStart size (pageNext size address) = pageStart size address := by
  have parts := Nat.div_add_mod address size
  have below := Nat.mod_lt address positive
  unfold pageStart
  congr 1
  rcases Nat.lt_or_ge (address % size + 1) size with inside | last
  · rw [pageNext_inside inside]
    apply Nat.div_eq_of_lt_le <;> grind
  · have behind : address + 1 = (address / size + 1) * size := by grind
    unfold pageNext
    rw [if_pos (by rw [behind, Nat.mul_mod_left]), behind, Nat.succ_mul, Nat.add_sub_cancel,
      Nat.mul_div_cancel _ positive]

theorem store_cons {byte : UInt8} {rest : List UInt8} :
    store memory address (byte :: rest) =
      store (Function.update memory address byte) (address + 1) rest := by
  have single : store memory address [byte] = Function.update memory address byte := by
    funext place
    by_cases here : place = address
    · rw [here, Function.update_self]
      exact @store_inside UInt8 memory [byte] address 0 (by simp)
    · rw [Function.update_of_ne here]
      exact store_outside (by simp only [List.length_singleton]; omega)
  rw [← single]
  exact (@store_append UInt8 memory [byte] address rest).symm

/-- Inside a page, over erased cells, programming is a copy. -/
theorem programBytes_store (inside : ¬ CrossesPage size address bytes.length)
    (erased : Erased memory address bytes.length) :
    programBytes size memory address bytes = store memory address bytes := by
  unfold CrossesPage at inside
  induction bytes generalizing memory address with
  | nil => exact store_nil.symm
  | cons byte rest ih =>
      simp only [List.length_cons] at inside erased
      have blank : memory address &&& byte = byte := by
        rw [show memory address = 0xff from erased 0 (by omega)]
        exact UInt8.neg_one_and
      rw [programBytes, blank, store_cons]
      cases rest with
      | nil => simp only [programBytes, store_nil]
      | cons second rest =>
          simp only [List.length_cons] at inside erased ih ⊢
          have mod : (address + 1) % size = address % size + 1 := by
            rw [Nat.add_mod, Nat.mod_eq_of_lt (by omega : 1 < size),
              Nat.mod_eq_of_lt (by omega : address % size + 1 < size)]
          rw [pageNext_inside (by omega)]
          apply ih (by omega)
          intro index below
          rw [Function.update_of_ne (by omega), Nat.add_assoc, Nat.add_comm 1]
          exact erased (index + 1) (by omega)

theorem programBytes_elsewhere (positive : 0 < size)
    (elsewhere : pageStart size other ≠ pageStart size address) :
    programBytes size memory address bytes other = memory other := by
  induction bytes generalizing memory address with
  | nil => rfl
  | cons byte rest ih =>
      rw [programBytes, ih (by rwa [pageStart_pageNext positive])]
      apply Function.update_of_ne
      rintro rfl
      exact elsewhere rfl

end

/-! # Programming slots that may not have been erased -/

section

/-- The slot is programmed, after an erase where there is one. -/
def putSlot (size : Nat) (erased : Bool) (slot : Slot) (data : List UInt8) : List FlashEvent :=
  (if erased then [.erase slot.dev (slot.block * size) size] else []) ++
    [.program slot.dev (slot.block * size) data]

def putSlots (size : Nat) (erased : Slot → Bool) (slots : List Slot) (blocks : List (List UInt8)) :
    List FlashEvent :=
  (slots.zip blocks).flatMap fun (slot, data) => putSlot size (erased slot) slot data

/-- Programming clears bits. -/
def overlay (old data : List UInt8) : List UInt8 := List.zipWith (· &&& ·) old data

/-- An erased slot takes any data, another one what sets no bit in it. -/
def Takes (size : Nat) (memory : FlashMemory) (erased : Slot → Bool) (slot : Slot)
    (data : List UInt8) : Prop :=
  erased slot = true ∨ overlay (readSlot size memory slot) data = data

variable {memory : FlashMemory} {size : Nat} {slot other : Slot} {slots : List Slot}
  {data : List UInt8} {blocks : List (List UInt8)} {erased : Slot → Bool} {event : FlashEvent}

theorem mem_putSlot {wasErased : Bool} (full : data.length = size)
    (member : event ∈ putSlot size wasErased slot data) :
    event.dev = slot.dev ∧ event.start = slot.block * size ∧ event.len = size := by
  rcases List.mem_append.mp member with front | back
  · cases wasErased with
    | false => cases front
    | true =>
        rw [List.mem_singleton.mp front]
        exact ⟨rfl, rfl, rfl⟩
  · rw [List.mem_singleton.mp back]
    exact ⟨rfl, rfl, full⟩

theorem readSlot_putSlot_other {wasErased : Bool} (full : data.length = size)
    (differ : other ≠ slot) :
    readSlot size (replay memory (putSlot size wasErased slot data)) other =
      readSlot size memory other := by
  refine readBytes_congr fun offset above below => replay_of_outside fun event member onDev => ?_
  obtain ⟨devEq, startEq, lenEq⟩ := mem_putSlot full member
  rw [startEq, lenEq]
  exact slots_apart differ (onDev.symm.trans devEq) ⟨above, below⟩

theorem readSlot_putSlots_of_notMem (lengths : slots.length = blocks.length)
    (full : ∀ data ∈ blocks, data.length = size) (absent : other ∉ slots) :
    readSlot size (replay memory (putSlots size erased slots blocks)) other =
      readSlot size memory other := by
  induction slots generalizing blocks memory with
  | nil => rfl
  | cons slot slots ih =>
      cases blocks with
      | nil => cases lengths
      | cons data blocks =>
          rw [List.forall_mem_cons] at full
          rw [List.mem_cons, not_or] at absent
          have split : replay memory (putSlots size erased (slot :: slots) (data :: blocks)) =
              replay (replay memory (putSlot size (erased slot) slot data))
                (putSlots size erased slots blocks) := replay_append
          rw [split, ih (Nat.succ.inj lengths) full.2 absent.2,
            readSlot_putSlot_other full.1 absent.1]

/-- The slot holds the data afterwards exactly if it took it. -/
theorem readSlot_putSlot_iff (full : data.length = size) :
    readSlot size (replay memory (putSlot size (erased slot) slot data)) slot = data ↔
      Takes size memory erased slot data := by
  unfold Takes
  cases wasErased : erased slot with
  | true =>
      simp only [true_or, iff_true]
      exact readSlot_fillSlot full
  | false =>
      have programmed : readSlot size (replay memory (putSlot size false slot data)) slot =
          overlay (readSlot size memory slot) data := by
        apply List.ext_getElem
        · simp [readSlot, overlay, full]
        · intro index below inOverlay
          rw [readSlot, readBytes_length] at below
          simp only [readSlot, readBytes, putSlot, Bool.false_eq_true, if_false, List.nil_append,
            replay, List.foldl_cons, List.foldl_nil, FlashEvent.apply, FlashEvent.dev,
            FlashEvent.start, FlashEvent.len, FlashEvent.value, full, overlay, List.getElem_map,
            List.getElem_range, List.getElem_zipWith, Nat.le_add_right, true_and,
            Nat.add_lt_add_iff_left, below, if_true, Nat.add_sub_cancel_left]
          simp [full, below]
      rw [programmed]
      simp only [Bool.false_eq_true, false_or]

/-- Distinct slots hold what was put into them exactly if each took its data. -/
theorem readSlot_putSlots_iff (distinct : slots.Nodup) (lengths : slots.length = blocks.length)
    (full : ∀ data ∈ blocks, data.length = size) :
    slots.map (readSlot size (replay memory (putSlots size erased slots blocks))) = blocks ↔
      ∀ pair ∈ slots.zip blocks, Takes size memory erased pair.1 pair.2 := by
  induction slots generalizing blocks memory with
  | nil =>
      rw [List.length_nil] at lengths
      rw [List.eq_nil_of_length_eq_zero lengths.symm]
      simp
  | cons slot slots ih =>
      cases blocks with
      | nil => cases lengths
      | cons data blocks =>
          have lengthsRest : slots.length = blocks.length := Nat.succ.inj lengths
          rw [List.forall_mem_cons] at full
          rw [List.nodup_cons] at distinct
          have split : replay memory (putSlots size erased (slot :: slots) (data :: blocks)) =
              replay (replay memory (putSlot size (erased slot) slot data))
                (putSlots size erased slots blocks) := replay_append
          have unchanged : ∀ pair ∈ slots.zip blocks,
              Takes size (replay memory (putSlot size (erased slot) slot data)) erased pair.1 pair.2 ↔
                Takes size memory erased pair.1 pair.2 := by
            intro pair member
            have differ : pair.1 ≠ slot := fun same =>
              distinct.1 (same ▸ (List.of_mem_zip member).1)
            rw [Takes, Takes, readSlot_putSlot_other full.1 differ]
          rw [List.map_cons, List.zip_cons_cons, List.forall_mem_cons, List.cons.injEq, split,
            readSlot_putSlots_of_notMem lengthsRest full.2 distinct.1, readSlot_putSlot_iff full.1,
            ih distinct.2 lengthsRest full.2, forall₂_congr unchanged]

end

end Rut9xx.Data
