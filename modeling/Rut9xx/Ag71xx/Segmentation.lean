import Rut9xx.Ag71xx.TxSend

namespace Rut9xx.Ag71xx

open Data

/-! # The segments of a frame -/

/-- `AG71XX_TX_RING_SPLIT` -/
def txRingSplit : UInt16 := 512

def Desc.more (desc : Desc) : Bool := desc.ctrl.getLsbD 24

/-- The control word counts the bytes in the bits of a `desc_pktlen_mask`. -/
def Desc.length (desc : Desc) : Nat := (desc.ctrl.setWidth 16).toNat

/-- A descriptor of `length` bytes at `data`. -/
structure Desc.Carries (desc : Desc) (data : BitVec 32) (length : Nat) (more empty : Bool) :
    Prop where
  data : desc.data = data
  length : desc.length = length
  more : desc.more = more
  empty : desc.empty = empty

/-- What is left of a frame behind its first `k` segments. -/
def remaining (split len : Int) : Nat → Int
  | 0 => len
  | k + 1 => remaining split len k - curLen split (remaining split len k)

/-- The descriptor of segment `k`. -/
def segmentDesc (split len : Int) (addr : BitVec 32) (k : Nat) : Desc where
  data := addr + BitVec.ofInt 32 (len - remaining split len k)
  ctrl := BitVec.ofInt 32 (curLen split (remaining split len k)) |||
    (if 0 < remaining split len (k + 1) then descMore else 0) ||| (if k = 0 then descEmpty else 0)

/-- The ring once the first `k` segments are written. -/
def written (order : Nat) (curr : UInt32) (split len : Int) (addr : BitVec 32)
    (cells : Nat → TxCell) : Nat → Nat → TxCell
  | 0 => cells
  | k + 1 =>
      let before := written order curr split len addr cells k
      let i := slot order (curr + UInt32.ofNat k)
      Function.update before i { before i with desc := segmentDesc split len addr k }

variable {s : TxState} {order : Nat} {curr : UInt32} {split len : Int} {addr : BitVec 32}
  {cells : Nat → TxCell} {n : Nat}

theorem remaining_shift (split len : Int) (k : Nat) :
    remaining split len (k + 1) = remaining split (len - curLen split len) k := by
  induction k with
  | zero => rfl
  | succ k ih => rw [remaining, ih, ← remaining]

/-- The loop has written the segments whose descriptors it met empty. -/
theorem fillDmaDesc_steps (fuel : Nat) {k : Nat}
    (open' : ∀ j < k, 0 < remaining split len j ∧
      (written order curr split len addr cells j (slot order (curr + UInt32.ofNat j))).desc.empty =
        true) :
    fillDmaDesc order curr split (fuel + k) cells 0 addr len =
      fillDmaDesc order curr split fuel (written order curr split len addr cells k) k
        (addr + BitVec.ofInt 32 (len - remaining split len k)) (remaining split len k) := by
  induction k generalizing fuel with
  | zero =>
      rw [remaining, written, Int.sub_self, BitVec.ofInt_ofNat, BitVec.add_zero]
      rfl
  | succ k ih =>
      obtain ⟨positive, empty⟩ := open' k (Nat.lt_succ_self k)
      have before := ih (fuel + 1) fun j below => open' j (Nat.lt_succ_of_lt below)
      have next : addr + BitVec.ofInt 32 (len - remaining split len k) +
          BitVec.ofInt 32 (curLen split (remaining split len k)) =
          addr + BitVec.ofInt 32 (len - remaining split len (k + 1)) := by
        rw [BitVec.add_assoc, ← BitVec.ofInt_add, remaining]
        congr 2
        omega
      rw [show fuel + (k + 1) = fuel + 1 + k by omega, before, fillDmaDesc, if_neg (by omega)]
      dsimp only
      rw [if_pos empty, next]
      rfl

theorem written_other {index k : Nat}
    (outside : ∀ j < k, index ≠ slot order (curr + UInt32.ofNat j)) :
    written order curr split len addr cells k index = cells index := by
  induction k with
  | zero => rfl
  | succ k ih =>
      rw [written]
      dsimp only
      rw [Function.update_of_ne (outside k (Nat.lt_succ_self k))]
      exact ih fun j below => outside j (Nat.lt_succ_of_lt below)

theorem written_desc (small : order ≤ 31) {j k : Nat} (below : j < k) (room : k ≤ 2 ^ order) :
    (written order curr split len addr cells k (slot order (curr + UInt32.ofNat j))).desc =
      segmentDesc split len addr j := by
  induction k with
  | zero => exact absurd below (Nat.not_lt_zero j)
  | succ k ih =>
      rw [written]
      dsimp only
      by_cases last : j = k
      · rw [last, Function.update_self]
      · rw [Function.update_of_ne, ih (by omega) (by omega)]
        exact fun met => last (slot_inj (by omega) (by omega) (by omega) met)

/-! ## The lengths of the segments -/

/-- The segments that use a frame up. -/
structure Segmented (split len : Int) (count : Nat) : Prop where
  ends : remaining split len count = 0
  positive : ∀ j < count, 0 < remaining split len j
  long : ∀ j < count, 4 < curLen split (remaining split len j)
  fits : ∀ j < count, curLen split (remaining split len j) ≤ split

theorem segmented_exists (roomy : len ≤ split ∨ 8 < split) (long : 4 < len) :
    ∃ count, Segmented split len count := by
  induction size : len.toNat using Nat.strong_induction_on generalizing len with
  | _ size ih =>
      by_cases whole : len ≤ split
      · have all : curLen split len = len := by rw [curLen, if_neg (by omega)]
        refine ⟨1, ?_, ?_, ?_, ?_⟩
        · rw [remaining, remaining, all, Int.sub_self]
        all_goals
          intro j below
          obtain rfl : j = 0 := by omega
          rw [remaining]
          omega
      · -- neither the segment nor what is left is of 4 bytes or fewer
        have first : 4 < curLen split len ∧ curLen split len ≤ split ∧ 4 < len - curLen split len := by
          rw [curLen, if_pos (by omega)]
          split <;> omega
        obtain ⟨count, rest⟩ := ih (len - curLen split len).toNat (by omega)
          (by omega) (by omega) rfl
        refine ⟨count + 1, ?_, ?_, ?_, ?_⟩
        · rw [remaining_shift]
          exact rest.ends
        all_goals
          intro j below
          cases j with
          | zero =>
              rw [remaining]
              omega
          | succ j =>
              have within := Nat.lt_of_succ_lt_succ below
              have := rest.positive j within
              have := rest.long j within
              have := rest.fits j within
              rw [remaining_shift]
              omega

def Segmented.lens (split len : Int) (count : Nat) : List Nat :=
  (List.range count).map fun j => (curLen split (remaining split len j)).toNat

namespace Segmented

theorem sum_take (segmented : Segmented split len n) {j : Nat} (within : j ≤ n) :
    (((lens split len n).take j).sum : Int) = len - remaining split len j := by
  rw [lens, ← List.map_take, List.take_range, Nat.min_eq_left within]
  induction j with
  | zero =>
      rw [remaining, Int.sub_self]
      rfl
  | succ j ih =>
      have := segmented.long j within
      rw [List.range_succ, List.map_append, List.sum_append, Int.natCast_add, ih (by omega),
        List.map_singleton, List.sum_singleton, remaining]
      omega

theorem remaining_succ (segmented : Segmented split len n) {j : Nat} (below : j < n) :
    0 < remaining split len (j + 1) ↔ j + 1 < n := by
  constructor
  · intro positive
    by_contra last
    obtain rfl : j + 1 = n := by omega
    have := segmented.ends
    omega
  · exact segmented.positive (j + 1)

theorem short (segmented : Segmented split len n) {j : Nat} (below : j < n) :
    curLen split (remaining split len j) ≤ len := by
  have total := segmented.sum_take (Nat.le_of_lt below)
  have := segmented.positive j below
  have : curLen split (remaining split len j) ≤ remaining split len j := by
    by_cases last : j + 1 < n
    · have := segmented.positive (j + 1) last
      rw [remaining] at this
      omega
    · obtain rfl : n = j + 1 := by omega
      have := segmented.ends
      rw [remaining] at this
      omega
  omega

end Segmented

/-! ## The control word -/

theorem carries_ctrl {data : BitVec 32} {c : Int} {more first : Prop} [Decidable more]
    [Decidable first] (positive : 0 < c) (short : c < 2 ^ 16) :
    (Desc.mk data (BitVec.ofInt 32 c ||| (if more then descMore else 0) |||
      (if first then descEmpty else 0))).Carries data c.toNat (decide more) (decide first) := by
  obtain ⟨length, rfl⟩ := Int.eq_ofNat_of_zero_le (Int.le_of_lt positive)
  have high {i : Nat} (above : 16 ≤ i) : (BitVec.ofInt 32 (length : Int)).getLsbD i = false := by
    rw [BitVec.ofInt_natCast, BitVec.getLsbD_ofNat, Nat.testBit_lt_two_pow, Bool.and_false]
    exact Nat.lt_of_lt_of_le (by omega) (Nat.pow_le_pow_right (by decide) above)
  refine ⟨rfl, ?_, ?_, ?_⟩
  · have flags : ((if more then descMore else 0 : BitVec 32) |||
        (if first then descEmpty else 0)).setWidth 16 = 0#16 := by
      split <;> split <;> decide
    rw [Desc.length, BitVec.or_assoc, BitVec.setWidth_or, flags, BitVec.ofInt_natCast,
      BitVec.setWidth_ofNat_of_le (by decide), BitVec.or_zero, BitVec.toNat_ofNat,
      Int.toNat_natCast]
    omega
  · have marks : ((if more then descMore else 0 : BitVec 32) |||
        (if first then descEmpty else 0)).getLsbD 24 = decide more := by
      by_cases more <;> by_cases first <;> simp_all [descMore, descEmpty, bit]
    rw [Desc.more, BitVec.or_assoc, BitVec.getLsbD_or, high (by decide), marks, Bool.false_or]
  · have marks : ((if more then descMore else 0 : BitVec 32) |||
        (if first then descEmpty else 0)).getLsbD 31 = decide first := by
      by_cases more <;> by_cases first <;> simp_all [descMore, descEmpty, bit]
    rw [Desc.empty, BitVec.or_assoc, BitVec.getLsbD_or, high (by decide), marks, Bool.false_or]

/-! ## A ring with room -/

end Rut9xx.Ag71xx
