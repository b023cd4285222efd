import Mathlib.Data.List.Basic
import Mathlib.Data.UInt

namespace Rut9xx.Data

/-! # Cells by address, written and read in runs -/

section

abbrev Memory (α : Type) := Nat → α

variable {α : Type} {memory : Memory α} {data : List α} {start address count size other : Nat}

/-- A `memcpy` to `start`. -/
def store (memory : Memory α) (start : Nat) (data : List α) : Memory α := fun address =>
  if start ≤ address then (data[address - start]?).getD (memory address) else memory address

def load (memory : Memory α) (start count : Nat) : List α :=
  (List.range count).map fun index => memory (start + index)

@[simp] theorem load_length : (load memory start count).length = count := by simp [load]

theorem load_getElem? : (load memory start count)[address]? =
    if address < count then some (memory (start + address)) else none := by
  simp only [load, List.getElem?_map]
  split
  · rename_i inside
    rw [List.getElem?_range inside, Option.map_some]
  · rename_i outside
    rw [List.getElem?_eq_none (by simpa using outside), Option.map_none]

theorem load_getElem (inside : address < (load memory start count).length) :
    (load memory start count)[address] = memory (start + address) := by
  simp [load]

theorem load_append : load memory start (count + size) =
    load memory start count ++ load memory (start + count) size := by
  simp only [load, List.range_add, List.map_append, List.map_map]
  congr 1
  apply List.map_congr_left
  intro index _
  simp only [Function.comp, Nat.add_assoc]

theorem load_succ : load memory start (count + 1) = memory start :: load memory (start + 1) count := by
  rw [Nat.add_comm count 1, load_append]
  rfl

theorem load_congr {after : Memory α}
    (same : ∀ index, index < count → after (start + index) = memory (start + index)) :
    load after start count = load memory start count :=
  List.map_congr_left fun index member => same index (List.mem_range.mp member)

theorem load_eq_iff {after : Memory α} : load after start count = load memory start count ↔
    ∀ index, index < count → after (start + index) = memory (start + index) := by
  simp only [load, List.map_inj_left, List.mem_range]

theorem store_inside (inside : address < data.length) :
    store memory start data (start + address) = data[address] := by
  simp only [store, Nat.le_add_right, if_true, Nat.add_sub_cancel_left,
    List.getElem?_eq_getElem inside, Option.getD_some]

theorem store_outside (outside : address < start ∨ start + data.length ≤ address) :
    store memory start data address = memory address := by
  unfold store
  split
  · rw [List.getElem?_eq_none (by omega), Option.getD_none]
  · rfl

theorem store_apart {length : Nat} (same : data.length = length)
    (apart : address < start ∨ start + length ≤ address) : store memory start data address = memory address :=
  store_outside (by rw [same]; exact apart)

theorem store_congr {after : Memory α} (same : after address = memory address) :
    store after start data address = store memory start data address := by
  unfold store
  rw [same]

theorem store_self {value : α} : store memory start (value :: data) start = value :=
  @store_inside _ memory (value :: data) start 0 (by simp)

@[simp] theorem store_nil : store memory start [] = memory := by
  funext address
  exact store_outside (by simp only [List.length_nil]; omega)

theorem load_store : load (store memory start data) start data.length = data := by
  apply List.ext_getElem?
  intro index
  rw [load_getElem?]
  split
  · rename_i inside
    rw [store_inside inside, List.getElem?_eq_getElem inside]
  · rename_i outside
    rw [List.getElem?_eq_none (by omega)]

/-- A copy that is stored back. -/
theorem store_load {copy : Memory α}
    (elsewhere : address < start ∨ start + count ≤ address → memory address = copy address) :
    store memory start (load copy start count) address = copy address := by
  by_cases inside : start ≤ address ∧ address < start + count
  · obtain ⟨index, rfl⟩ := Nat.exists_eq_add_of_le inside.1
    rw [store_inside (by rw [load_length]; omega), load_getElem]
  · rw [store_outside (by rw [load_length]; omega)]
    exact elsewhere (by omega)

theorem store_load_inside {copy : Memory α} (above : start ≤ address) (below : address < start + count) :
    store memory start (load copy start count) address = copy address :=
  store_load fun elsewhere => absurd elsewhere (by omega)

theorem load_store_apart (apart : other + count ≤ start ∨ start + data.length ≤ other) :
    load (store memory start data) other count = load memory other count :=
  load_congr fun index inside => store_outside (by omega)

/-- Two stores in a row are one. -/
theorem store_append (more : List α) :
    store (store memory start data) (start + data.length) more =
      store memory start (data ++ more) := by
  funext address
  simp only [store]
  by_cases below : start ≤ address
  · by_cases past : start + data.length ≤ address
    · have ended : data[address - start]? = none := List.getElem?_eq_none (by omega)
      rw [if_pos past, if_pos below, if_pos below, List.getElem?_append_right (by omega), ended,
        Option.getD_none, Nat.sub_add_eq]
    · rw [if_neg past, if_pos below, if_pos below, List.getElem?_append_left (by omega)]
  · rw [if_neg (by omega), if_neg below, if_neg below]

theorem store_next {more : List α} {next : Nat}
    (adjacent : next = start + data.length) :
    store (store memory start data) next more = store memory start (data ++ more) := by
  rw [adjacent]
  exact store_append more

/-- The run from `start` on begins with `data`. -/
def Holds (memory : Memory α) (start : Nat) (data : List α) : Prop :=
  load memory start data.length = data

theorem holds_append {more : List α} : Holds memory start (data ++ more) ↔
    Holds memory start data ∧ Holds memory (start + data.length) more := by
  unfold Holds
  rw [List.length_append, load_append]
  constructor
  · intro same
    exact List.append_inj same (by simp)
  · rintro ⟨front, back⟩
    rw [front, back]

theorem holds_cons {value : α} : Holds memory start (value :: data) ↔
    memory start = value ∧ Holds memory (start + 1) data := by
  rw [← List.singleton_append, holds_append]
  simp [Holds, load]

theorem Holds.store_apart {kept : List α} (holds : Holds memory other kept)
    (apart : other + kept.length ≤ start ∨ start + data.length ≤ other) :
    Holds (store memory start data) other kept :=
  (load_store_apart apart).trans holds

theorem Holds.headD {otherwise : α} (holds : Holds memory start data) (nonempty : data ≠ []) :
    data.headD otherwise = memory start := by
  cases data with
  | nil => exact absurd rfl nonempty
  | cons value rest => exact (holds_cons.mp holds).1.symm

theorem holds_store : Holds (store memory start data) start data := load_store

theorem store_headD {otherwise : α} (nonempty : data ≠ []) :
    store memory start data start = data.headD otherwise :=
  ((@holds_store α memory data start).headD nonempty).symm

/-- A store over another of the same length leaves nothing of it. -/
theorem store_store {more : List α} (same : more.length = data.length) :
    store (store memory start data) start more = store memory start more := by
  funext address
  by_cases inside : start ≤ address ∧ address < start + more.length
  · obtain ⟨index, rfl⟩ := Nat.exists_eq_add_of_le inside.1
    rw [store_inside (by omega), store_inside (by omega)]
  · rw [store_outside (by omega), store_outside (by omega), store_outside (by omega)]

/-! ## Several stores -/

def storeAll (memory : Memory α) (writes : List (Nat × List α)) : Memory α :=
  writes.foldl (fun memory write => store memory write.1 write.2) memory

variable {writes : List (Nat × List α)} {write : Nat × List α}

theorem storeAll_elsewhere
    (outside : ∀ write ∈ writes, address < write.1 ∨ write.1 + write.2.length ≤ address) :
    storeAll memory writes address = memory address := by
  induction writes generalizing memory with
  | nil => rfl
  | cons first rest ih =>
      rw [storeAll, List.foldl_cons, ← storeAll,
        ih fun write member => outside write (List.mem_cons_of_mem _ member)]
      exact store_outside (outside first List.mem_cons_self)

theorem load_storeAll_apart (apart : ∀ write ∈ writes,
    other + count ≤ write.1 ∨ write.1 + write.2.length ≤ other) :
    load (storeAll memory writes) other count = load memory other count := by
  apply load_congr
  intro index inside
  apply storeAll_elsewhere
  intro write member
  have := apart write member
  omega

/-- Stores that do not overlap all stay. -/
theorem load_storeAll (apart : writes.Pairwise fun first second =>
      first.1 + first.2.length ≤ second.1 ∨ second.1 + second.2.length ≤ first.1)
    (member : write ∈ writes) : load (storeAll memory writes) write.1 write.2.length = write.2 := by
  induction writes generalizing memory with
  | nil => cases member
  | cons first rest ih =>
      obtain ⟨clear, apart⟩ := List.pairwise_cons.mp apart
      rw [storeAll, List.foldl_cons, ← storeAll]
      rcases List.mem_cons.mp member with rfl | later
      · rw [load_storeAll_apart clear]
        exact load_store
      · exact ih apart later

end

/-! # Buffers that know whether they were left -/

section

/-- An allocation of `size` bytes at address 0.  What stands behind it can be read and written too;
`inside` says that no access has reached there. -/
structure Guarded where
  size : Nat
  bytes : Memory UInt8
  inside : Bool

namespace Guarded

variable {buf : Guarded} {start count index place : Nat} {data : List UInt8} {f : Nat → UInt8 → UInt8}

/-- An access to `count` bytes. -/
def touch (buf : Guarded) (start count : Nat) : Guarded :=
  { buf with inside := buf.inside && decide (count = 0 ∨ start + count ≤ buf.size) }

def put (buf : Guarded) (start : Nat) (data : List UInt8) : Guarded :=
  { buf.touch start data.length with bytes := store buf.bytes start data }

/-- A loop that changes byte after byte in place. -/
def alterBytes (f : Nat → UInt8 → UInt8) (start : Nat) : Nat → Nat → Guarded → Guarded
  | 0, _, buf => buf
  | count + 1, index, buf =>
      alterBytes f start count (index + 1)
        (buf.put (start + index) [f index (buf.bytes (start + index))])

theorem alterBytes_succ : alterBytes f start (count + 1) index buf =
    alterBytes f start count (index + 1)
      (buf.put (start + index) [f index (buf.bytes (start + index))]) := rfl

@[simp] theorem touch_size : (buf.touch start count).size = buf.size := rfl

@[simp] theorem touch_bytes : (buf.touch start count).bytes = buf.bytes := rfl

@[simp] theorem put_size : (buf.put start data).size = buf.size := rfl

@[simp] theorem put_bytes : (buf.put start data).bytes = store buf.bytes start data := rfl

theorem touch_inside_iff : (buf.touch start count).inside = true ↔
    buf.inside = true ∧ (count = 0 ∨ start + count ≤ buf.size) := by
  simp only [touch, Bool.and_eq_true, decide_eq_true_eq]

/-- An access inside leaves no trace. -/
theorem touch_self (inside : buf.inside = true) (within : start + count ≤ buf.size) :
    buf.touch start count = buf := by
  obtain ⟨size, bytes, rfl⟩ : ∃ size bytes, buf = ⟨size, bytes, true⟩ :=
    ⟨buf.size, buf.bytes, by rw [← inside]⟩
  rw [touch, decide_eq_true (.inr within)]
  rfl

theorem put_inside_iff : (buf.put start data).inside = true ↔
    buf.inside = true ∧ (data.length = 0 ∨ start + data.length ≤ buf.size) := touch_inside_iff

@[simp] theorem alterBytes_size : (alterBytes f start count index buf).size = buf.size := by
  induction count generalizing index buf with
  | zero => rfl
  | succ count ih => rw [alterBytes_succ, ih, put_size]

theorem alterBytes_outside (outside : place < start + index ∨ start + index + count ≤ place) :
    (alterBytes f start count index buf).bytes place = buf.bytes place := by
  induction count generalizing index buf with
  | zero => rfl
  | succ count ih =>
      rw [alterBytes_succ, ih (by omega), put_bytes]
      exact store_outside (by simp only [List.length_singleton]; omega)

theorem alterBytes_at (above : index ≤ place) (below : place < index + count) :
    (alterBytes f start count index buf).bytes (start + place) =
      f place (buf.bytes (start + place)) := by
  induction count generalizing index buf with
  | zero => omega
  | succ count ih =>
      rw [alterBytes_succ]
      rcases Nat.eq_or_lt_of_le above with rfl | later
      · rw [alterBytes_outside (by omega), put_bytes]
        exact store_self
      · rw [ih later (by omega), put_bytes,
          store_outside (by simp only [List.length_singleton]; omega)]

theorem alterBytes_inside_iff : (alterBytes f start count index buf).inside = true ↔
    buf.inside = true ∧ (count = 0 ∨ start + index + count ≤ buf.size) := by
  induction count generalizing index buf with
  | zero => simp [alterBytes]
  | succ count ih =>
      rw [alterBytes_succ, ih, put_inside_iff, put_size, List.length_singleton, and_assoc]
      refine and_congr_right fun _ => ?_
      omega

/-- What a loop over at least these bytes has made of them. -/
theorem load_alterBytes {more : Nat} (within : count ≤ more) :
    load (alterBytes f start more 0 buf).bytes start count =
      (load buf.bytes start count).mapIdx f := by
  apply List.ext_getElem?
  intro place
  rw [List.getElem?_mapIdx, load_getElem?, load_getElem?]
  split
  · rename_i below
    rw [alterBytes_at (Nat.zero_le _) (by omega), Option.map_some]
  · rfl

end Guarded

end

end Rut9xx.Data
