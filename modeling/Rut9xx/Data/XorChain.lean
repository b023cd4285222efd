import Rut9xx.Data.Buffer
import Rut9xx.Data.Memory
import Mathlib.Data.UInt

namespace Rut9xx.Data

/-! # Stream ciphers: bytes combined with a generated keystream -/

section

variable {State : Type} (next : State → UInt8 × State)

def keystream : Nat → State → List UInt8
  | 0, _ => []
  | count + 1, state => (next state).1 :: keystream count (next state).2

/-- The loop over a text in memory; `target` may lie in front of `source` and overlap it. -/
def xorStream : Nat → State → (source target : Nat) → Memory UInt8 → Memory UInt8
  | 0, _, _, _, memory => memory
  | count + 1, state, source, target, memory =>
      xorStream count (next state).2 (source + 1) (target + 1)
        (store memory target [memory source ^^^ (next state).1])

def xorBytes (stream text : List UInt8) : List UInt8 := List.zipWith (· ^^^ ·) text stream

variable {next} {state : State} {count source target : Nat} {memory : Memory UInt8}
  {stream text : List UInt8}

@[simp] theorem keystream_length : (keystream next count state).length = count := by
  induction count generalizing state with
  | zero => rfl
  | succ count ih => rw [keystream, List.length_cons, ih]

theorem xorBytes_length (covers : text.length ≤ stream.length) :
    (xorBytes stream text).length = text.length := by
  simp only [xorBytes, List.length_zipWith, Nat.min_eq_left covers]

/-- The same stream takes itself off again. -/
theorem xorBytes_xorBytes (covers : text.length ≤ stream.length) :
    xorBytes stream (xorBytes stream text) = text := by
  induction text generalizing stream with
  | nil => simp [xorBytes]
  | cons byte text ih =>
      cases stream with
      | nil => simp at covers
      | cons key stream =>
          have rest : xorBytes stream (xorBytes stream text) = text := ih (by simpa using covers)
          simp only [xorBytes] at rest
          simp only [xorBytes, List.zipWith_cons_cons, rest, UInt8.xor_assoc, UInt8.xor_self,
            UInt8.xor_zero]

/-- The loop stores the text combined with the keystream, as long as it does not
write ahead of what it has read. -/
theorem xorStream_eq (behind : target ≤ source) :
    xorStream next count state source target memory =
      store memory target (xorBytes (keystream next count state) (load memory source count)) := by
  induction count generalizing state source target memory with
  | zero => simp [xorStream, xorBytes, load]
  | succ count ih =>
      have unread : load (store memory target [memory source ^^^ (next state).1]) (source + 1) count =
          load memory (source + 1) count :=
        load_store_apart (Or.inr (by simp only [List.length_singleton]; omega))
      have head : load memory source (count + 1) =
          memory source :: load memory (source + 1) count := by
        rw [Nat.add_comm, load_append]
        rfl
      rw [xorStream, ih (by omega), unread, head]
      exact @store_append _ memory [memory source ^^^ (next state).1] target _

end

/-! # Blocks combined with a hash of the block before -/

section

variable {hash : List UInt8 → List UInt8} {before block : List UInt8} {blocks : List (List UInt8)}
  {buffer : List UInt8} {index start count size : Nat}

/-- Each block under the hash of the one before it, as that one went out. -/
def chain (hash : List UInt8 → List UInt8) : List UInt8 → List (List UInt8) → List (List UInt8)
  | _, [] => []
  | before, block :: rest =>
      xorBytes (hash before) block :: chain hash (xorBytes (hash before) block) rest

@[simp] theorem chain_length : (chain hash before blocks).length = blocks.length := by
  induction blocks generalizing before with
  | nil => rfl
  | cons block rest ih => simp [chain, ih]

/-- A block goes out under the hash of the one that went out before it. -/
theorem chain_getElem? (here : blocks[index]? = some block) :
    ∃ last, (before :: chain hash before blocks)[index]? = some last ∧
      (chain hash before blocks)[index]? = some (xorBytes (hash last) block) := by
  induction blocks generalizing before index with
  | nil => cases here
  | cons first rest ih =>
      cases index with
      | zero =>
          cases here
          exact ⟨before, rfl, rfl⟩
      | succ index =>
          obtain ⟨last, found, out⟩ := @ih (xorBytes (hash before) first) index here
          exact ⟨last, found, out⟩

/-- What went out, under the hash of what went out before it, is the block. -/
theorem chain_decode (here : blocks[index]? = some block) (covers : block.length ≤ size)
    (sizes : ∀ before, (hash before).length = size) :
    ∃ last sent, (before :: chain hash before blocks)[index]? = some last ∧
      (chain hash before blocks)[index]? = some sent ∧ xorBytes (hash last) sent = block := by
  obtain ⟨last, found, out⟩ := @chain_getElem? hash before block blocks index here
  exact ⟨last, _, found, out, xorBytes_xorBytes (by rw [sizes]; exact covers)⟩

theorem chain_sizes (sizes : ∀ block ∈ blocks, block.length = size)
    (covers : ∀ before, size ≤ (hash before).length) :
    ∀ block ∈ chain hash before blocks, block.length = size := by
  induction blocks generalizing before with
  | nil => simp [chain]
  | cons first rest ih =>
      have length := sizes first List.mem_cons_self
      simp only [chain, List.mem_cons, forall_eq_or_imp]
      refine ⟨?_, ih fun block member => sizes block (List.mem_cons_of_mem _ member)⟩
      rw [xorBytes_length (length ▸ covers before), length]

/-- Blocks of one size lie in their order at the multiples of the size. -/
theorem slice_flatten (sizes : ∀ block ∈ blocks, block.length = size)
    (here : blocks[index]? = some block) : slice blocks.flatten (index * size) size = block := by
  induction blocks generalizing index with
  | nil => cases here
  | cons first rest ih =>
      have length := sizes first List.mem_cons_self
      cases index with
      | zero =>
          cases here
          rw [Nat.zero_mul, slice, List.drop_zero, List.flatten_cons, List.take_left' length]
      | succ index =>
          rw [slice, List.flatten_cons, Nat.succ_mul, Nat.add_comm, ← List.drop_drop,
            List.drop_left' length]
          exact ih (fun block member => sizes block (List.mem_cons_of_mem _ member)) here

theorem flatten_length (sizes : ∀ block ∈ blocks, block.length = size) :
    blocks.flatten.length = blocks.length * size := by
  induction blocks with
  | nil => simp
  | cons first rest ih =>
      rw [List.flatten_cons, List.length_append, List.length_cons, sizes first List.mem_cons_self,
        ih fun block member => sizes block (List.mem_cons_of_mem _ member), Nat.succ_mul, Nat.add_comm]

theorem slice_getD (here : slice buffer start size = block) (inside : index < size) :
    buffer.getD (start + index) 0 = block.getD index 0 := by
  rw [← here, slice, List.getD_eq_getElem?_getD, List.getD_eq_getElem?_getD,
    List.getElem?_take_of_lt inside, List.getElem?_drop]

theorem xorBytes_getD {stream text : List UInt8} (same : stream.length = text.length) :
    (xorBytes stream text).getD index 0 = text.getD index 0 ^^^ stream.getD index 0 := by
  by_cases inside : index < text.length
  · simp [xorBytes, inside, same]
  · simp [xorBytes, inside, same]

/-! ## Runs of blocks -/

theorem flatMap_range' : ((List.range' start count).flatMap fun n => List.range' (n * size) size) =
    List.range' (start * size) (count * size) := by
  induction count generalizing start with
  | zero => simp
  | succ count ih =>
      rw [List.range'_succ, List.flatMap_cons, ih, Nat.succ_mul start, List.range'_append_1,
        Nat.succ_mul count, Nat.add_comm size]

theorem flatten_slices :
    ((List.range' start count).map fun n => slice buffer (n * size) size).flatten =
      slice buffer (start * size) (count * size) := by
  induction count generalizing start with
  | zero => simp [slice]
  | succ count ih =>
      rw [List.range'_succ, List.map_cons, List.flatten_cons, ih, Nat.succ_mul start,
        Nat.succ_mul count, Nat.add_comm (count * size), slice_add]

end

end Rut9xx.Data
