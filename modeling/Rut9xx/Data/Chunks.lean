import Mathlib.Data.List.Basic

namespace Rut9xx.Data

/-! # Cutting a byte stream into blocks, the last one padded with 0xff -/

section

variable {size : Nat} {bytes block : List UInt8}

def padBlock (size : Nat) (bytes : List UInt8) : List UInt8 :=
  bytes ++ List.replicate (size - bytes.length) 0xff

def chunkCount (size length : Nat) : Nat := (length + size - 1) / size

def padChunks (size : Nat) (bytes : List UInt8) : List (List UInt8) :=
  (List.range (chunkCount size bytes.length)).map fun index =>
    padBlock size ((bytes.drop (index * size)).take size)

theorem padBlock_length (short : bytes.length ≤ size) : (padBlock size bytes).length = size := by
  simp only [padBlock, List.length_append, List.length_replicate]
  omega

theorem padBlock_full (full : bytes.length = size) : padBlock size bytes = bytes := by
  simp [padBlock, full]

theorem chunkCount_step (positive : 0 < size) {length : Nat} (some' : 0 < length) :
    chunkCount size length = chunkCount size (length - size) + 1 := by
  unfold chunkCount
  rcases Nat.lt_or_ge length size with short | long
  · have zero : length - size = 0 := by omega
    rw [zero, Nat.zero_add, Nat.div_eq_of_lt (by omega : size - 1 < size)]
    exact Nat.div_eq_of_lt_le (by omega) (by omega)
  · rw [← Nat.add_div_right _ positive]
    congr 1
    omega

@[simp] theorem padChunks_nil (positive : 0 < size) : padChunks size [] = [] := by
  simp only [padChunks, chunkCount, List.length_nil, Nat.zero_add,
    Nat.div_eq_of_lt (by omega : size - 1 < size), List.range_zero, List.map_nil]

theorem padChunks_step (positive : 0 < size) (some' : bytes ≠ []) :
    padChunks size bytes = padBlock size (bytes.take size) :: padChunks size (bytes.drop size) := by
  have length := List.length_pos_iff.mpr some'
  unfold padChunks
  rw [chunkCount_step positive length, List.range_succ_eq_map, List.map_cons, List.map_map,
    List.length_drop, Nat.zero_mul, List.drop_zero]
  congr 1
  refine List.map_congr_left fun index _ => ?_
  simp only [Function.comp_apply, List.drop_drop, Nat.succ_mul, Nat.add_comm]

theorem padChunks_full (positive : 0 < size) (full : block.length = size) (rest : List UInt8) :
    padChunks size (block ++ rest) = block :: padChunks size rest := by
  have some' : block ++ rest ≠ [] := by
    intro empty
    have := congrArg List.length empty
    simp only [List.length_append, List.length_nil] at this
    omega
  rw [padChunks_step positive some', ← full, List.take_left, List.drop_left, padBlock_full rfl]

theorem padChunks_last (positive : 0 < size) (some' : bytes ≠ []) (short : bytes.length ≤ size) :
    padChunks size bytes = [padBlock size bytes] := by
  rw [padChunks_step positive some', List.take_of_length_le short, List.drop_eq_nil_of_le short,
    padChunks_nil positive]

theorem padChunks_block_length (member : block ∈ padChunks size bytes) : block.length = size := by
  obtain ⟨index, -, rfl⟩ := List.mem_map.mp member
  exact padBlock_length (List.length_take_le ..)

/-- Blocks of one length can be told apart in the bytes they make up. -/
theorem prefix_of_flatten {blocks others : List (List UInt8)}
    (full : ∀ block ∈ blocks, block.length = size) (othersFull : ∀ block ∈ others, block.length = size)
    (positive : 0 < size) (inside : blocks.flatten <+: others.flatten) : blocks <+: others := by
  induction blocks generalizing others with
  | nil => exact List.nil_prefix
  | cons first rest ih =>
      have firstFull := full first (by simp)
      cases others with
      | nil =>
          have := inside.length_le
          simp only [List.flatten_cons, List.flatten_nil, List.length_append, List.length_nil] at this
          omega
      | cons other more =>
          have otherFull := othersFull other (by simp)
          obtain ⟨behind, same⟩ := inside
          simp only [List.flatten_cons, List.append_assoc] at same
          obtain ⟨rfl, tail⟩ := List.append_inj same (firstFull.trans otherFull.symm)
          exact List.cons_prefix_cons.mpr ⟨rfl,
            ih (fun block member => full block (List.mem_cons_of_mem _ member))
              (fun block member => othersFull block (List.mem_cons_of_mem _ member)) ⟨behind, tail⟩⟩

theorem flatten_prefix {blocks others : List (List UInt8)} (inside : blocks <+: others) :
    blocks.flatten <+: others.flatten := by
  obtain ⟨rest, rfl⟩ := inside
  exact ⟨rest.flatten, (List.flatten_append).symm⟩

end

/-! # Items behind entries that announce how many there are -/

section

variable {Entry α : Type} (size : Entry → Nat)

/-- Each entry with the items that it announces, if these are all. -/
def readAnnounced : List Entry → List α → Option (List (Entry × List α))
  | [], items => if items = [] then some [] else none
  | entry :: rest, items =>
      if items.length < size entry then none
      else
        (readAnnounced rest (items.drop (size entry))).map ((entry, items.take (size entry)) :: ·)

variable {size} {entries : List Entry} {items : List α} {parts : List (Entry × List α)}

theorem readAnnounced_length (read : readAnnounced size entries items = some parts) :
    ∀ part ∈ parts, part.2.length = size part.1 := by
  induction entries generalizing items parts with
  | nil =>
      rw [readAnnounced] at read
      split at read <;> cases read
      simp
  | cons entry rest ih =>
      rw [readAnnounced] at read
      split at read
      · cases read
      · rename_i enough
        obtain ⟨others, later, rfl⟩ := Option.map_eq_some_iff.mp read
        rw [List.forall_mem_cons, List.length_take]
        exact ⟨Nat.min_eq_left (Nat.not_lt.mp enough), ih later⟩

theorem readAnnounced_parts (honest : ∀ part ∈ parts, part.2.length = size part.1) :
    readAnnounced size (parts.map Prod.fst) (parts.flatMap Prod.snd) = some parts := by
  induction parts with
  | nil => exact if_pos rfl
  | cons part rest ih =>
      rw [List.forall_mem_cons] at honest
      obtain ⟨entry, data⟩ := part
      have length : data.length = size entry := honest.1
      rw [List.map_cons, List.flatMap_cons, readAnnounced, if_neg (by rw [List.length_append]; omega),
        List.drop_left' length, ih honest.2, List.take_left' length, Option.map_some]

/-- Parts one behind the other are found again where they announce their lengths, only there. -/
theorem readAnnounced_iff :
    readAnnounced size (parts.map Prod.fst) (parts.flatMap Prod.snd) = some parts ↔
      ∀ part ∈ parts, part.2.length = size part.1 :=
  ⟨readAnnounced_length, readAnnounced_parts⟩

end

end Rut9xx.Data
