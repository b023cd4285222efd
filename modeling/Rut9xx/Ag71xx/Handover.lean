import Rut9xx.Ag71xx.Segmentation

namespace Rut9xx.Ag71xx

open Data

/-! # What a refused frame leaves to the hardware -/

variable {s : TxState} {order : Nat} {curr : UInt32} {split len : Int} {addr : BitVec 32}
  {cells : Nat → TxCell}

/-- When `-1` is returned, every descriptor belongs to whom it belonged before. -/
def HandsNothingOver (s : TxState) (addr : BitVec 32) (len : Nat) : Prop :=
  ∀ after, fillDmaDesc s.order s.curr (s.split len) (s.size + 8) s.cells 0 addr len = (after, none) →
    ∀ index, (after index).desc.empty = (s.cells index).desc.empty

/-- The frame is used up by descriptors that are empty. The last segment may come
round to the first, which still counts as empty. -/
def TxState.Fits (s : TxState) (len : Nat) : Prop :=
  ∃ count ≤ s.size + 1, remaining (s.split len) len count ≤ 0 ∧
    ∀ j < count, (s.cell (s.curr + UInt32.ofNat j)).desc.empty = true

/-- The hardware owns a descriptor at or before the second segment. A length below zero, which
a split below 4 leads to, sets the bit that marks a descriptor empty. -/
def TxState.StopsEarly (s : TxState) (len : Nat) : Prop :=
  ∃ k, (s.cell (s.curr + UInt32.ofNat k)).desc.empty = false ∧
    ∀ j, 0 < j → j < k → curLen (s.split len) (remaining (s.split len) len j) < 0

theorem TxState.split_bounds (s : TxState) {len : Nat} (short : len < 2 ^ 31) :
    0 ≤ s.split len ∧ s.split len < 2 ^ 31 := by
  have := s.descSplit.toNat_lt
  rw [TxState.split]
  split <;> omega

/-! ## The mark of a segment -/

theorem curLen_le (split len : Int) : curLen split len ≤ split := by
  rw [curLen]
  split
  · split <;> omega
  · omega

theorem ctrl_empty {data : BitVec 32} {c : Int} {more first : Prop} [Decidable more]
    [Decidable first] (low : -4 ≤ c) (short : c < 2 ^ 31) :
    (Desc.mk data (BitVec.ofInt 32 c ||| (if more then descMore else 0) |||
      (if first then descEmpty else 0))).empty = decide (first ∨ c < 0) := by
  have length : (BitVec.ofInt 32 c).getLsbD 31 = decide (c < 0) := by
    by_cases negative : c < 0
    · obtain rfl | rfl | rfl | rfl : c = -4 ∨ c = -3 ∨ c = -2 ∨ c = -1 := by omega
      all_goals rfl
    · obtain ⟨length, rfl⟩ := Int.eq_ofNat_of_zero_le (Int.not_lt.mp negative)
      rw [BitVec.ofInt_natCast, BitVec.getLsbD_ofNat, Nat.testBit_lt_two_pow (by omega),
        decide_eq_false negative]
      rfl
  have marks : ((if more then descMore else 0 : BitVec 32) |||
      (if first then descEmpty else 0)).getLsbD 31 = decide first := by
    by_cases more <;> by_cases first <;> simp_all [descMore, descEmpty, bit]
  rw [Desc.empty, BitVec.or_assoc, BitVec.getLsbD_or, length, marks, Bool.decide_or, Bool.or_comm]

theorem curLen_ge (nonneg : 0 ≤ split) (positive : 0 < len) : -4 ≤ curLen split len := by
  rw [curLen]
  split
  · split <;> omega
  · omega

theorem segmentDesc_empty (nonneg : 0 ≤ split) (small : split < 2 ^ 31) {k : Nat}
    (positive : 0 < remaining split len k) :
    (segmentDesc split len addr k).empty =
      decide (k = 0 ∨ curLen split (remaining split len k) < 0) := by
  have upper := curLen_le split (remaining split len k)
  exact ctrl_empty (curLen_ge nonneg positive) (by omega)

/-! ## How the loop goes on -/

/-- Up to a slot that is taken, only segments that leave their mark are written. -/
theorem fillDmaDesc_keeps (nonneg : 0 ≤ split) (small : split < 2 ^ 31) {fuel ndesc k : Nat}
    (taken : (cells (slot order (curr + UInt32.ofNat (ndesc + k)))).desc.empty = false)
    (marked : ∀ j < k, ndesc + j = 0 ∨ curLen split (remaining split len j) < 0) (index : Nat) :
    ((fillDmaDesc order curr split fuel cells ndesc addr len).1 index).desc.empty =
      (cells index).desc.empty := by
  induction fuel generalizing cells ndesc addr len k with
  | zero => rfl
  | succ fuel ih =>
      rw [fillDmaDesc]
      by_cases over' : len ≤ 0
      · rw [if_pos over']
      · rw [if_neg over']
        dsimp only
        cases here : (cells (slot order (curr + UInt32.ofNat ndesc))).desc.empty with
        | false => rfl
        | true =>
            cases k with
            | zero =>
                rw [Nat.add_zero, here] at taken
                cases taken
            | succ k =>
                rw [if_pos rfl]
                have first := marked 0 (Nat.succ_pos k)
                rw [Nat.add_zero, remaining] at first
                have upper := curLen_le split len
                have mark : (Desc.mk addr (BitVec.ofInt 32 (curLen split len) |||
                    (if 0 < len - curLen split len then descMore else 0) |||
                    (if ndesc = 0 then descEmpty else 0))).empty = true := by
                  rw [ctrl_empty (curLen_ge nonneg (by omega)) (by omega)]
                  exact decide_eq_true first
                generalize BitVec.ofInt 32 (curLen split len) ||| _ ||| _ = ctrl at mark ⊢
                have same (index : Nat) : (Function.update cells
                    (slot order (curr + UInt32.ofNat ndesc))
                    { cells (slot order (curr + UInt32.ofNat ndesc)) with desc := ⟨addr, ctrl⟩ }
                      index).desc.empty = (cells index).desc.empty := by
                  by_cases met : index = slot order (curr + UInt32.ofNat ndesc)
                  · rw [met, Function.update_self, here]
                    exact mark
                  · rw [Function.update_of_ne met]
                rw [@ih _ _ _ _ k _ _, same]
                · rw [same, Nat.add_assoc, Nat.add_comm 1]
                  exact taken
                · intro j below
                  have later := marked (j + 1) (Nat.succ_lt_succ below)
                  rw [remaining_shift] at later
                  omega

/-- A descriptor of the hardware is left alone. -/
theorem fillDmaDesc_taken {fuel ndesc index : Nat} (taken : (cells index).desc.empty = false) :
    (fillDmaDesc order curr split fuel cells ndesc addr len).1 index = cells index := by
  induction fuel generalizing cells ndesc addr len with
  | zero => rfl
  | succ fuel ih =>
      rw [fillDmaDesc]
      dsimp only
      split
      · rfl
      · split
        case isTrue here =>
          have apart : index ≠ slot order (curr + UInt32.ofNat ndesc) := by
            intro met
            rw [← met, taken] at here
            cases here
          rw [ih, Function.update_of_ne apart]
          rw [Function.update_of_ne apart]
          exact taken
        case isFalse => rfl

/-- A frame that goes through has met empty descriptors only. -/
theorem fillDmaDesc_some {fuel ndesc n : Nat} {after : Nat → TxCell}
    (filled : fillDmaDesc order curr split fuel cells ndesc addr len = (after, some n)) :
    ∃ count, n = ndesc + count ∧ remaining split len count ≤ 0 ∧
      ∀ j < count, (cells (slot order (curr + UInt32.ofNat (ndesc + j)))).desc.empty = true := by
  induction fuel generalizing cells ndesc addr len with
  | zero => cases filled
  | succ fuel ih =>
      rw [fillDmaDesc] at filled
      dsimp only at filled
      split at filled
      case isTrue over' =>
        cases filled
        exact ⟨0, rfl, over', fun j never => absurd never (Nat.not_lt_zero j)⟩
      case isFalse =>
        split at filled
        case isTrue here =>
          obtain ⟨count, total, ends, empty⟩ := ih filled
          refine ⟨count + 1, by omega, ?_, ?_⟩
          · rw [remaining_shift]
            exact ends
          · intro j below
            cases j with
            | zero => exact here
            | succ j =>
                have later := empty j (Nat.lt_of_succ_lt_succ below)
                rw [Nat.add_assoc, Nat.add_comm 1] at later
                by_cases met : slot order (curr + UInt32.ofNat (ndesc + (j + 1))) =
                    slot order (curr + UInt32.ofNat ndesc)
                · rw [met]
                  exact here
                · rw [Function.update_of_ne met] at later
                  exact later
        case isFalse => cases filled

/-- The loop ends at a slot that is taken, if not before. -/
theorem fillDmaDesc_meets {fuel ndesc k : Nat} (more : Nat) (enough : k < fuel)
    (taken : (cells (slot order (curr + UInt32.ofNat (ndesc + k)))).desc.empty = false) :
    fillDmaDesc order curr split (fuel + more) cells ndesc addr len =
      fillDmaDesc order curr split fuel cells ndesc addr len := by
  induction fuel generalizing cells ndesc addr len k with
  | zero => exact absurd enough (Nat.not_lt_zero k)
  | succ fuel ih =>
      rw [Nat.succ_add, fillDmaDesc, fillDmaDesc]
      dsimp only
      split
      · rfl
      · split
        case isTrue here =>
          cases k with
          | zero =>
              rw [Nat.add_zero, here] at taken
              cases taken
          | succ k =>
              apply ih (Nat.lt_of_succ_lt_succ enough)
              rw [Nat.add_assoc, Nat.add_comm 1, Function.update_of_ne]
              · exact taken
              · intro met
                rw [met, here] at taken
                cases taken
        case isFalse => rfl

/-! ## The first segment without a mark -/

/-- Segment `t` is the first behind the first one whose descriptor is handed over as it is
written. -/
structure FirstHanded (split len : Int) (t : Nat) : Prop where
  later : 0 < t
  soon : t ≤ 5
  handed : 0 ≤ curLen split (remaining split len t)
  marked : ∀ j, 0 < j → j < t → curLen split (remaining split len j) < 0
  positive : ∀ j ≤ t, 0 < remaining split len j

/-- Under a split below 4 a frame grows by at most 3 bytes up to the next segment. -/
theorem firstHanded_exists (nonneg : 0 ≤ split) (whole : 0 < len)
    (second : 0 < remaining split len 1) : ∃ t, FirstHanded split len t := by
  have grows {k : Nat} (negative : curLen split (remaining split len k) < 0)
      (open' : 0 < remaining split len k) :
      split < remaining split len k ∧ remaining split len k ≤ split + 4 ∧
        remaining split len k < remaining split len (k + 1) := by
    rw [remaining]
    rw [curLen] at negative ⊢
    split at negative
    · split at negative <;> omega
    · omega
  have reached : ∃ t, 0 < t ∧ t ≤ 5 ∧ 0 ≤ curLen split (remaining split len t) := by
    by_contra never
    have negative {k : Nat} (later : 0 < k) (soon : k ≤ 5) :
        curLen split (remaining split len k) < 0 := by
      by_contra nonnegative
      exact never ⟨k, later, soon, by omega⟩
    have climbs : ∀ k < 5, remaining split len 1 + k ≤ remaining split len (k + 1) := by
      intro k below
      induction k with
      | zero => exact Int.le_of_eq (Int.add_zero _)
      | succ k ih =>
          have := ih (by omega)
          have := grows (negative (k := k + 1) (by omega) (by omega)) (by omega)
          omega
    have first := grows (negative (k := 1) (by decide) (by decide)) second
    have last := climbs 4 (by decide)
    have := grows (negative (k := 4 + 1) (by decide) (by decide)) (by omega)
    omega
  have least := Nat.find_spec reached
  have marked : ∀ j, 0 < j → j < Nat.find reached →
      curLen split (remaining split len j) < 0 := by
    intro j later before
    by_contra nonnegative
    exact Nat.find_min reached before ⟨later, by omega, by omega⟩
  refine ⟨Nat.find reached, least.1, least.2.1, least.2.2, marked, ?_⟩
  intro j below
  induction j with
  | zero => exact whole
  | succ j ih =>
      cases j with
      | zero => exact second
      | succ j =>
          have := ih (by omega)
          have := grows (marked (j + 1) (Nat.succ_pos j) (by omega)) this
          omega

/-- A frame longer than a split of at most 4 is never used up. -/
theorem remaining_stuck (tiny : split ≤ 4) (nonneg : 0 ≤ split) (long : split < len) (k : Nat) :
    split < remaining split len k := by
  induction k with
  | zero => exact long
  | succ k ih =>
      rw [remaining, curLen, if_pos ih]
      split <;> omega

namespace FirstHanded

variable {t : Nat}

/-- The marks before that segment is written. -/
theorem unchanged (first : FirstHanded split len t) (nonneg : 0 ≤ split) (small : split < 2 ^ 31)
    (empty : ∀ j < t, (cells (slot order (curr + UInt32.ofNat j))).desc.empty = true) {k : Nat}
    (within : k ≤ t) (index : Nat) :
    (written order curr split len addr cells k index).desc.empty = (cells index).desc.empty := by
  induction k with
  | zero => rfl
  | succ k ih =>
      have mark : (segmentDesc split len addr k).empty = true := by
        rw [segmentDesc_empty nonneg small (first.positive k (by omega))]
        apply decide_eq_true
        by_cases start : k = 0
        · exact .inl start
        · exact .inr (first.marked k (by omega) within)
      rw [written]
      dsimp only
      by_cases met : index = slot order (curr + UInt32.ofNat k)
      · rw [met, Function.update_self, empty k within]
        exact mark
      · rw [Function.update_of_ne met]
        exact ih (by omega)

/-- The loop has handed that segment over. -/
theorem handed_over (first : FirstHanded split len t) (nonneg : 0 ≤ split)
    (small : split < 2 ^ 31)
    (empty : ∀ j ≤ t, (cells (slot order (curr + UInt32.ofNat j))).desc.empty = true) (fuel : Nat) :
    fillDmaDesc order curr split (fuel + (t + 1)) cells 0 addr len =
        fillDmaDesc order curr split fuel (written order curr split len addr cells (t + 1)) (t + 1)
          (addr + BitVec.ofInt 32 (len - remaining split len (t + 1)))
          (remaining split len (t + 1)) ∧
      (written order curr split len addr cells (t + 1)
        (slot order (curr + UInt32.ofNat t))).desc.empty = false := by
  constructor
  · apply fillDmaDesc_steps
    intro j below
    refine ⟨first.positive j (by omega), ?_⟩
    rw [first.unchanged nonneg small (fun i before => empty i (by omega)) (by omega)]
    exact empty j (by omega)
  · rw [written]
    dsimp only
    rw [Function.update_self, segmentDesc_empty nonneg small (first.positive t (Nat.le_refl t))]
    apply decide_eq_false
    have := first.later
    have := first.handed
    omega

end FirstHanded

/-! ## When a refused frame leaves nothing -/

/-- The loop has come to an end within the steps that are counted. -/
theorem fillDmaDesc_settled (s : TxState) (addr : BitVec 32) (len more : Nat)
    (small : s.order ≤ 31) (short : len < 2 ^ 31) :
    fillDmaDesc s.order s.curr (s.split len) (s.size + 8 + more) s.cells 0 addr len =
      fillDmaDesc s.order s.curr (s.split len) (s.size + 8) s.cells 0 addr len := by
  have size : s.size = 2 ^ s.order := rfl
  have positive := Nat.two_pow_pos s.order
  obtain ⟨nonneg, below⟩ := s.split_bounds short
  by_cases second : 0 < (len : Int) ∧ 0 < remaining (s.split len) len 1
  · obtain ⟨t, first⟩ := firstHanded_exists nonneg second.1 second.2
    have := first.soon
    by_cases empty : ∀ j ≤ t, (s.cells (slot s.order (s.curr + UInt32.ofNat j))).desc.empty = true
    · obtain ⟨reached, taken⟩ := @FirstHanded.handed_over s.order s.curr _ _ addr s.cells t first
        nonneg below empty (s.size + 7 - t)
      obtain ⟨reachedMore, -⟩ := @FirstHanded.handed_over s.order s.curr _ _ addr s.cells t first
        nonneg below empty (s.size + 7 - t + more)
      rw [show s.size + 8 + more = s.size + 7 - t + more + (t + 1) by omega, reachedMore,
        show s.size + 8 = s.size + 7 - t + (t + 1) by omega, reached]
      apply fillDmaDesc_meets more (k := s.size - 1) (by omega)
      rw [show t + 1 + (s.size - 1) = t + 2 ^ s.order by omega, slot_lap (by omega)]
      exact taken
    · obtain ⟨k, within, taken⟩ : ∃ k ≤ t,
          (s.cells (slot s.order (s.curr + UInt32.ofNat k))).desc.empty = false := by
        by_contra never
        apply empty
        intro j within
        by_contra taken
        exact never ⟨j, within, Bool.eq_false_iff.mpr taken⟩
      apply fillDmaDesc_meets more (k := k) (by omega)
      rw [Nat.zero_add]
      exact taken
  · rw [show s.size + 8 + more = s.size + 6 + more + 1 + 1 by omega, fillDmaDesc, fillDmaDesc]
    dsimp only
    split
    · rfl
    · split
      · have done : (len : Int) - curLen (s.split len) len ≤ 0 := by
          rw [remaining, remaining] at second
          omega
        rw [fillDmaDesc, fillDmaDesc, if_pos done, if_pos done]
      · rfl

/-- The last segment of a frame that fits may come round to the first. -/
theorem fillDmaDesc_fits (small : s.order ≤ 31) {len : Nat} (short : len < 2 ^ 31)
    (fits : s.Fits len) :
    ∃ after n, fillDmaDesc s.order s.curr (s.split len) (s.size + 8) s.cells 0 addr len =
      (after, some n) := by
  obtain ⟨count, room, ends, empty⟩ := fits
  have size : s.size = 2 ^ s.order := rfl
  obtain ⟨nonneg, below⟩ := s.split_bounds short
  have reached : ∃ n, remaining (s.split len) len n ≤ 0 := ⟨count, ends⟩
  have first := Nat.find_spec reached
  have before {j : Nat} (earlier : j < Nat.find reached) : 0 < remaining (s.split len) len j :=
    Int.not_le.mp (Nat.find_min reached earlier)
  have within : Nat.find reached ≤ count := Nat.find_min' reached ends
  generalize Nat.find reached = n at first before within
  have open' : ∀ j < n, 0 < remaining (s.split len) len j ∧
      (written s.order s.curr (s.split len) len addr s.cells j
        (slot s.order (s.curr + UInt32.ofNat j))).desc.empty = true := by
    intro j earlier
    refine ⟨before earlier, ?_⟩
    by_cases lap : j < s.size
    · rw [written_other]
      · exact empty j (by omega)
      · intro i previous met
        have := slot_inj (by omega) (by omega) (by omega) met
        omega
    · have positive := Nat.two_pow_pos s.order
      have round : slot s.order (s.curr + UInt32.ofNat j) =
          slot s.order (s.curr + UInt32.ofNat 0) := by
        rw [show j = 0 + 2 ^ s.order by omega, slot_lap (by omega)]
      rw [round, written_desc small (by omega) (by omega),
        segmentDesc_empty nonneg below (before (by omega))]
      exact decide_eq_true (.inl rfl)
  obtain ⟨fuel, enough⟩ : ∃ fuel, s.size + 8 = fuel + 1 + n := ⟨s.size + 7 - n, by omega⟩
  refine ⟨written s.order s.curr (s.split len) len addr s.cells n, n, ?_⟩
  rw [enough, fillDmaDesc_steps (fuel + 1) open', fillDmaDesc, if_pos first]

theorem TxState.StopsEarly.handsNothingOver {len : Nat} (short : len < 2 ^ 31) (early : s.StopsEarly len) :
    HandsNothingOver s addr len := by
  obtain ⟨k, taken, marked⟩ := early
  obtain ⟨nonneg, below⟩ := s.split_bounds short
  intro after refused index
  have kept := @fillDmaDesc_keeps s.order s.curr (s.split len) len addr s.cells nonneg below
    (s.size + 8) 0 k (by rw [Nat.zero_add]; exact taken)
    (fun j before => by
      by_cases start : j = 0
      · exact .inl (by omega)
      · exact .inr (marked j (by omega) before)) index
  rw [refused] at kept
  exact kept

/-- A frame that goes through fits. -/
theorem TxState.fits_of_some {len n : Nat} {after : Nat → TxCell} (small : s.order ≤ 31)
    (short : len < 2 ^ 31)
    (filled : fillDmaDesc s.order s.curr (s.split len) (s.size + 8) s.cells 0 addr len =
      (after, some n)) : s.Fits len := by
  have size : s.size = 2 ^ s.order := rfl
  have positive := Nat.two_pow_pos s.order
  obtain ⟨nonneg, below⟩ := s.split_bounds short
  obtain ⟨count, total, ends, empty⟩ := fillDmaDesc_some filled
  simp only [Nat.zero_add] at total empty
  by_cases whole : 0 < (len : Int)
  · have some' : 0 < count := by
      by_contra none'
      obtain rfl : count = 0 := by omega
      rw [remaining] at ends
      omega
    by_cases second : 0 < remaining (s.split len) len 1
    · obtain ⟨t, first⟩ := firstHanded_exists nonneg whole second
      have only : t = 1 := by
        by_contra later
        have negative := first.marked 1 (by decide) (by have := first.later; omega)
        have long : s.split len < len := by
          rw [remaining, remaining, curLen] at second
          split at second <;> omega
        have tiny : s.split len ≤ 4 := by
          rw [curLen] at negative
          split at negative
          · split at negative <;> omega
          · omega
        have := remaining_stuck tiny nonneg long count
        omega
      subst only
      have two : 1 < count := by
        by_contra one
        obtain rfl : count = 1 := by omega
        omega
      obtain ⟨reached, taken⟩ := @FirstHanded.handed_over s.order s.curr _ _ addr s.cells 1 first
        nonneg below (fun j within => empty j (by omega)) (s.size + 6)
      rw [show s.size + 8 = s.size + 6 + (1 + 1) by omega, reached] at filled
      obtain ⟨more, same, -, room⟩ := fillDmaDesc_some filled
      -- a lap later the loop would meet the second segment
      have lap : more ≤ s.size - 1 := by
        by_contra beyond
        have again := room (s.size - 1) (by omega)
        rw [show 1 + 1 + (s.size - 1) = 1 + 2 ^ s.order by omega, slot_lap (by omega), taken] at again
        cases again
      exact ⟨count, by omega, ends, empty⟩
    · refine ⟨1, by omega, Int.not_lt.mp second, ?_⟩
      intro j below
      exact empty j (by omega)
  · exact ⟨0, Nat.zero_le _, Int.not_lt.mp whole, fun j never => absurd never (Nat.not_lt_zero j)⟩

theorem handsNothingOver_iff (s : TxState) (addr : BitVec 32) (len : Nat) (small : s.order ≤ 31)
    (short : len < 2 ^ 31) : HandsNothingOver s addr len ↔ s.Fits len ∨ s.StopsEarly len := by
  constructor
  · intro clean
    by_contra neither
    obtain ⟨tight, late⟩ := not_or.mp neither
    obtain ⟨nonneg, below⟩ := s.split_bounds short
    have empty {k : Nat} (marked : ∀ j, 0 < j → j < k →
        curLen (s.split len) (remaining (s.split len) len j) < 0) :
        (s.cell (s.curr + UInt32.ofNat k)).desc.empty = true := by
      by_contra taken
      exact late ⟨k, Bool.eq_false_iff.mpr taken, marked⟩
    have whole : 0 < (len : Int) := by
      by_contra nothing
      exact tight ⟨0, Nat.zero_le _, Int.not_lt.mp nothing,
        fun j never => absurd never (Nat.not_lt_zero j)⟩
    have second : 0 < remaining (s.split len) len 1 := by
      by_contra single
      refine tight ⟨1, by omega, Int.not_lt.mp single, ?_⟩
      intro j only
      exact empty fun i later before => by omega
    obtain ⟨t, first⟩ := firstHanded_exists nonneg whole second
    have := first.soon
    have free : ∀ j ≤ t, (s.cell (s.curr + UInt32.ofNat j)).desc.empty = true :=
      fun j within => empty fun i later before => first.marked i later (by omega)
    obtain ⟨reached, taken⟩ := @FirstHanded.handed_over s.order s.curr _ _ addr s.cells t first
      nonneg below free (s.size + 7 - t)
    rw [show s.size + 7 - t + (t + 1) = s.size + 8 by omega] at reached
    cases result : fillDmaDesc s.order s.curr (s.split len) (s.size + 8) s.cells 0 addr len with
    | mk after outcome =>
        cases outcome with
        | some n => exact tight (TxState.fits_of_some small short result)
        | none =>
            have handed : (after (slot s.order (s.curr + UInt32.ofNat t))).desc.empty = false := by
              have kept := congrArg Prod.fst (result.symm.trans reached)
              dsimp only at kept
              rw [kept, fillDmaDesc_taken taken, taken]
            have before := clean after result (slot s.order (s.curr + UInt32.ofNat t))
            rw [handed] at before
            have emptied := free t (Nat.le_refl t)
            rw [TxState.cell, ← before] at emptied
            cases emptied
  · intro either
    obtain fits | early := either
    · obtain ⟨through, n, filled⟩ := @fillDmaDesc_fits s addr small len short fits
      intro after refused
      rw [filled] at refused
      cases refused
    · exact early.handsNothingOver short

/-- A ring of 4 descriptors, two of them with a frame of 600 bytes. -/
def smallRing : TxState := (ringTxInit txRingSplit 2 4095).run [.xmit ⟨0, 600⟩ 0]

theorem handsNothingOver_iff_small :
    HandsNothingOver smallRing 0 1000 ↔ smallRing.Fits 1000 ∨ smallRing.StopsEarly 1000 :=
  handsNothingOver_iff smallRing 0 1000 (by decide) (by decide)

/-- The second segment of 1500 bytes is handed over before the third meets the other frame. -/
theorem smallRing_handsOver : ¬ HandsNothingOver smallRing 0 1500 := by
  intro clean
  have kept := clean _ (Prod.ext rfl (show (fillDmaDesc smallRing.order smallRing.curr
    (smallRing.split 1500) (smallRing.size + 8) smallRing.cells 0 0 1500).2 = none by
      decide +kernel)) 3
  revert kept
  decide +kernel

end Rut9xx.Ag71xx
