import Rut9xx.Ag71xx.TxQueue

namespace Rut9xx.Ag71xx

open Data

/-! # Handing frames to the transmit ring -/

variable {s : TxState} {pending : List Packet} {order : Nat} {curr : UInt32} {split len : Int}
  {lens : List Int} {cells : Nat → TxCell}

/-- The lengths of the segments of a frame, if there are at most `max` of them. -/
def segments (split : Int) : Nat → Int → Option (List Int)
  | 0, len => if len ≤ 0 then some [] else none
  | max + 1, len =>
      if len ≤ 0 then some []
      else (segments split max (len - curLen split len)).map (curLen split len :: ·)

theorem segments_cons {max : Nat} (positive : 0 < len)
    (cut : segments split (max + 1) len = some lens) :
    ∃ rest, segments split max (len - curLen split len) = some rest ∧
      lens = curLen split len :: rest := by
  rw [segments, if_neg (by omega)] at cut
  obtain ⟨rest, later, same⟩ := Option.map_eq_some_iff.mp cut
  exact ⟨rest, later, same.symm⟩

theorem segments_nil {max : Nat} (none' : len ≤ 0) : segments split max len = some [] := by
  cases max <;> rw [segments, if_pos none']

theorem segments_mono {max more : Nat} (cut : segments split max len = some lens)
    (le : max ≤ more) : segments split more len = some lens := by
  induction max generalizing more len lens with
  | zero =>
      by_cases none' : len ≤ 0
      · rw [segments_nil none'] at cut ⊢
        exact cut
      · rw [segments, if_neg none'] at cut
        cases cut
  | succ max ih =>
      by_cases none' : len ≤ 0
      · rw [segments_nil none'] at cut ⊢
        exact cut
      · obtain ⟨rest, later, rfl⟩ := segments_cons (by omega) cut
        obtain ⟨more, rfl⟩ : ∃ fewer, more = fewer + 1 := ⟨more - 1, by omega⟩
        rw [segments, if_neg none', ih later (by omega)]
        rfl

theorem segments_length {max : Nat} (cut : segments split max len = some lens) :
    lens.length ≤ max := by
  induction max generalizing len lens with
  | zero =>
      rw [segments] at cut
      split at cut
      · cases cut
        exact Nat.le_refl 0
      · cases cut
  | succ max ih =>
      by_cases none' : len ≤ 0
      · rw [segments_nil none'] at cut
        cases cut
        exact Nat.zero_le _
      · obtain ⟨rest, later, rfl⟩ := segments_cons (by omega) cut
        exact Nat.succ_le_succ (ih later)

/-- A frame longer than a split of at most 4 is never used up. -/
theorem segments_stuck {max : Nat} (tiny : split ≤ 4) (nonneg : 0 ≤ split) (long : split < len) :
    segments split max len = none := by
  induction max generalizing len with
  | zero => rw [segments, if_neg (by omega)]
  | succ max ih =>
      have still : split < len - curLen split len := by
        rw [curLen, if_pos long]
        split <;> omega
      rw [segments, if_neg (by omega), ih still]
      rfl

theorem segments_bounds {max : Nat} (nonneg : 0 ≤ split)
    (cut : segments split max len = some lens) : ∀ c ∈ lens, 0 < c ∧ c ≤ len := by
  induction max generalizing len lens with
  | zero =>
      rw [segments] at cut
      split at cut
      · cases cut
        intro c member
        cases member
      · cases cut
  | succ max ih =>
      by_cases none' : len ≤ 0
      · rw [segments_nil none'] at cut
        cases cut
        intro c member
        cases member
      · have open' : ¬(split < len ∧ split ≤ 4) := by
          intro both
          rw [segments_stuck both.2 nonneg both.1] at cut
          cases cut
        obtain ⟨rest, later, rfl⟩ := segments_cons (by omega) cut
        have first : 0 < curLen split len ∧ curLen split len ≤ len := by
          rw [curLen]
          split
          · split <;> omega
          · omega
        intro c member
        cases member with
        | head => exact first
        | tail _ member =>
            have := ih later c member
            omega

/-! ## Filling descriptors -/

/-- The first descriptor of a frame stays empty until all of them are filled. -/
theorem empty_ctrl {c : Int} {more : Prop} [Decidable more] {ndesc : Nat} {data : BitVec 32}
    (positive : 0 < c) (short : c < 2 ^ 31) :
    (Desc.mk data (BitVec.ofInt 32 c ||| (if more then descMore else 0) |||
      (if ndesc = 0 then descEmpty else 0))).empty = decide (ndesc = 0) := by
  obtain ⟨length, rfl⟩ := Int.eq_ofNat_of_zero_le (Int.le_of_lt positive)
  have low : (BitVec.ofInt 32 (length : Int)).getLsbD 31 = false := by
    rw [BitVec.ofInt_natCast, BitVec.getLsbD_ofNat, Nat.testBit_lt_two_pow (by omega)]
    rfl
  have middle : (if more then descMore else 0 : BitVec 32).getLsbD 31 = false := by
    split <;> decide
  rw [Desc.empty, BitVec.getLsbD_or, BitVec.getLsbD_or, low, middle]
  by_cases first : ndesc = 0
  · rw [if_pos first, decide_eq_true first]
    decide
  · rw [if_neg first, decide_eq_false first]
    decide

/-- What a successful fill leaves. -/
structure Filled (order : Nat) (curr : UInt32) (ndesc count : Nat) (cells after : Nat → TxCell) :
    Prop where
  frame : ∀ index, (∀ j < count, index ≠ slot order (curr + UInt32.ofNat (ndesc + j))) →
    after index = cells index
  skb : ∀ index, (after index).skb = (cells index).skb
  empty : ∀ j < count,
    (after (slot order (curr + UInt32.ofNat (ndesc + j)))).desc.empty = decide (ndesc + j = 0)

theorem fillDmaDesc_fills (small : order ≤ 31) {max fuel ndesc : Nat} {addr : BitVec 32}
    (cut : segments split max len = some lens) (nonneg : 0 ≤ split) (short : len < 2 ^ 31)
    (room : ndesc + lens.length ≤ 2 ^ order) (enough : lens.length < fuel)
    (free : ∀ j < lens.length,
      (cells (slot order (curr + UInt32.ofNat (ndesc + j)))).desc.empty = true) :
    ∃ after, fillDmaDesc order curr split fuel cells ndesc addr len =
        (after, some (ndesc + lens.length)) ∧
      Filled order curr ndesc lens.length cells after := by
  obtain ⟨fuel, rfl⟩ : ∃ less, fuel = less + 1 := ⟨fuel - 1, by omega⟩
  induction lens generalizing max fuel cells ndesc addr len with
  | nil =>
      have none' : len ≤ 0 := by
        by_contra positive
        cases max with
        | zero =>
            rw [segments, if_neg positive] at cut
            cases cut
        | succ max =>
            obtain ⟨rest, -, never⟩ := segments_cons (by omega) cut
            cases never
      refine ⟨cells, by rw [fillDmaDesc, if_pos none']; rfl, ?_⟩
      exact ⟨fun index _ => rfl, fun index => rfl, fun j never => absurd never (Nat.not_lt_zero j)⟩
  | cons c lens ih =>
      have positive : 0 < len := by
        by_contra none'
        rw [segments_nil (by omega)] at cut
        cases cut
      have bounds := segments_bounds nonneg cut c List.mem_cons_self
      obtain ⟨max, rfl⟩ : ∃ less, max = less + 1 := by
        have := segments_length cut
        rw [List.length_cons] at this
        exact ⟨max - 1, by omega⟩
      obtain ⟨rest, later, same⟩ := segments_cons positive cut
      obtain ⟨first, rfl⟩ := List.cons.inj same
      rw [List.length_cons] at room enough free ⊢
      have here := free 0 (Nat.succ_pos _)
      rw [Nat.add_zero] at here
      rw [fillDmaDesc, if_neg (by omega)]
      simp only [here, if_true, ← first] at later ⊢
      obtain ⟨less, rfl⟩ : ∃ less, fuel = less + 1 := ⟨fuel - 1, by omega⟩
      have empty : (Desc.mk addr (BitVec.ofInt 32 c ||| (if 0 < len - c then descMore else 0) |||
          (if ndesc = 0 then descEmpty else 0))).empty = decide (ndesc = 0) :=
        empty_ctrl bounds.1 (by omega)
      generalize BitVec.ofInt 32 c ||| _ ||| _ = ctrl at empty ⊢
      generalize hcells : Function.update cells (slot order (curr + UInt32.ofNat ndesc))
        { cells (slot order (curr + UInt32.ofNat ndesc)) with desc := ⟨addr, ctrl⟩ } = written
      have small' := Nat.le_succ_of_le small
      have apart {j : Nat} (below : j < 2 ^ order) (other : j ≠ ndesc) :
          written (slot order (curr + UInt32.ofNat j)) =
            cells (slot order (curr + UInt32.ofNat j)) := by
        rw [← hcells, Function.update_of_ne]
        exact fun met => other (slot_inj small' below (by omega) met)
      have free' : ∀ j < lens.length,
          (written (slot order (curr + UInt32.ofNat (ndesc + 1 + j)))).desc.empty = true := by
        intro j below
        rw [apart (by omega) (by omega), Nat.add_assoc]
        exact free (1 + j) (by omega)
      obtain ⟨after, filled, done⟩ : ∃ after,
          fillDmaDesc order curr split (less + 1) written (ndesc + 1) (addr + BitVec.ofInt 32 c)
            (len - c) = (after, some (ndesc + 1 + lens.length)) ∧
          Filled order curr (ndesc + 1) lens.length written after :=
        ih later (by omega) (by omega) free' less (by omega)
      have afterFirst : after (slot order (curr + UInt32.ofNat ndesc)) =
          written (slot order (curr + UInt32.ofNat ndesc)) := by
        apply done.frame
        intro j below met
        have := slot_inj small' (by omega) (by omega) met
        omega
      refine ⟨after, by rw [filled, Nat.add_assoc, Nat.add_comm 1], ?_⟩
      constructor
      · intro index outside
        have notFirst : index ≠ slot order (curr + UInt32.ofNat ndesc) :=
          outside 0 (Nat.succ_pos _)
        rw [done.frame, ← hcells, Function.update_of_ne notFirst]
        intro j below
        rw [Nat.add_assoc, Nat.add_comm 1]
        exact outside (j + 1) (Nat.succ_lt_succ below)
      · intro index
        rw [done.skb, ← hcells]
        by_cases first : index = slot order (curr + UInt32.ofNat ndesc)
        · rw [first, Function.update_self]
        · rw [Function.update_of_ne first]
      · intro j below
        cases j with
        | zero =>
            rw [Nat.add_zero, afterFirst, ← hcells, Function.update_self]
            exact empty
        | succ j =>
            have later := done.empty j (Nat.lt_of_succ_lt_succ below)
            rw [Nat.add_assoc, Nat.add_comm 1] at later
            exact later

/-- The hardware still owns one of the next two slots. -/
def TxState.Blocked (s : TxState) : Prop :=
  (s.cell s.curr).desc.empty = false ∨ (s.cell (s.curr + 1)).desc.empty = false

/-- A frame of two segments or more is then refused, and no slot loses its mark. -/
theorem fillDmaDesc_blocked (fuel : Nat) (addr : BitVec 32)
    (more : segments split 1 len = none) (blocked : s.Blocked) :
    ∃ after, fillDmaDesc s.order s.curr split fuel s.cells 0 addr len = (after, none) ∧
      ∀ index, (after index).skb = (s.cells index).skb ∧ (after index).len = (s.cells index).len ∧
        (after index).desc.empty = (s.cells index).desc.empty := by
  cases fuel with
  | zero => exact ⟨s.cells, rfl, fun index => ⟨rfl, rfl, rfl⟩⟩
  | succ fuel =>
      have positive : 0 < len := by
        by_contra none'
        rw [segments_nil (by omega)] at more
        cases more
      have further : 0 < len - curLen split len := by
        by_contra none'
        rw [segments, if_neg (by omega), segments, if_pos (by omega)] at more
        cases more
      rw [fillDmaDesc, if_neg (by omega), add_ofNat_zero]
      dsimp only
      by_cases here : (s.cells (slot s.order s.curr)).desc.empty = true
      · have next := blocked.resolve_left (by rw [TxState.cell, here]; decide)
        rw [if_pos here]
        generalize hctrl : BitVec.ofInt 32 (curLen split len) ||| _ ||| _ = ctrl
        have marked : (Desc.mk addr ctrl).empty = true := by
          rw [← hctrl, Desc.empty, if_pos rfl, descEmpty, getLsbD_insert (by decide)]
          exact Bool.or_true _
        generalize hcells : Function.update s.cells (slot s.order s.curr)
          { s.cells (slot s.order s.curr) with desc := ⟨addr, ctrl⟩ } = written
        have same (index : Nat) : (written index).skb = (s.cells index).skb ∧
            (written index).len = (s.cells index).len ∧
            (written index).desc.empty = (s.cells index).desc.empty := by
          rw [← hcells]
          by_cases first : index = slot s.order s.curr
          · rw [first, Function.update_self]
            exact ⟨rfl, rfl, marked.trans here.symm⟩
          · rw [Function.update_of_ne first]
            exact ⟨rfl, rfl, rfl⟩
        cases fuel with
        | zero => exact ⟨written, rfl, same⟩
        | succ fuel =>
            have refused : (written (slot s.order (s.curr + UInt32.ofNat (0 + 1)))).desc.empty =
                false := (same _).2.2.trans next
            rw [fillDmaDesc, if_neg (by omega)]
            dsimp only
            rw [refused, if_neg Bool.false_ne_true]
            exact ⟨written, rfl, same⟩
      · rw [if_neg here]
        exact ⟨s.cells, rfl, fun index => ⟨rfl, rfl, rfl⟩⟩

/-! ## Injecting a frame -/

@[simp] theorem empty_clearEmpty {cell : TxCell} :
    (cell.setCtrl (cell.desc.ctrl &&& ~~~descEmpty)).desc.empty = false := by
  rw [TxCell.setCtrl, Desc.empty, descEmpty, getLsbD_erase]
  exact Bool.and_false _

theorem entries_fresh (skb : Skb) (n : Nat) :
    (Packet.fresh skb n).entries = List.replicate n ⟨none, false⟩ ++ [⟨some skb, false⟩] := by
  rw [Packet.entries, Packet.fresh, List.map_replicate]

theorem inject_cells_eq (skb : Skb) (n : Nat) :
    (s.inject skb n).cells =
      let last := slot s.order (s.curr + UInt32.ofNat n - 1)
      let first := slot s.order s.curr
      let stored := Function.update s.cells last { s.cells last with skb := some skb, len := skb.len }
      Function.update stored first
        ((stored first).setCtrl ((stored first).desc.ctrl &&& ~~~descEmpty)) := by
  unfold TxState.inject
  dsimp only
  split <;> rfl

theorem last_eq (counter : UInt32) (n : Nat) :
    counter + UInt32.ofNat (n + 1) - 1 = counter + UInt32.ofNat n := by
  rw [UInt32.ofNat_add, ← UInt32.add_assoc]
  exact UInt32.add_sub_cancel _ _

/-- The slots of a frame that has been injected on `n + 1` descriptors. -/
theorem inject_cells {after : Nat → TxCell} {n : Nat} (skb : Skb) (small : s.order ≤ 31)
    (filled : Filled s.order s.curr 0 (n + 1) s.cells after) (room : n + 1 ≤ s.size)
    (blank : ∀ j < n + 1, (s.cell (s.curr + UInt32.ofNat j)).skb = none) :
    (∀ j (entry : Entry), (Packet.fresh skb n).entries[j]? = some entry →
      entry.Holds (({ s with cells := after }.inject skb (n + 1)).cells
        (slot s.order (s.curr + UInt32.ofNat j)))) ∧
    ∀ index, (∀ j < n + 1, index ≠ slot s.order (s.curr + UInt32.ofNat j)) →
      ({ s with cells := after }.inject skb (n + 1)).cells index = s.cells index := by
  have small' := Nat.le_succ_of_le small
  have met {j k : Nat} (below : j < n + 1) (other : k < n + 1)
      (same : slot s.order (s.curr + UInt32.ofNat j) = slot s.order (s.curr + UInt32.ofNat k)) :
      j = k := by
    have size : s.size = 2 ^ s.order := rfl
    exact slot_inj small' (by omega) (by omega) same
  have noSkb {j : Nat} (below : j < n + 1) :
      (after (slot s.order (s.curr + UInt32.ofNat j))).skb = none :=
    (filled.skb _).trans (blank j below)
  have empty {j : Nat} (below : j < n + 1) :
      (after (slot s.order (s.curr + UInt32.ofNat j))).desc.empty = decide (j = 0) := by
    have := filled.empty j below
    rwa [Nat.zero_add] at this
  rw [inject_cells_eq]
  dsimp only
  rw [last_eq]
  constructor
  · intro j entry found
    rw [entries_fresh] at found
    have below : j < n + 1 := by
      obtain ⟨below, -⟩ := List.getElem?_eq_some_iff.mp found
      rwa [List.length_append, List.length_replicate, List.length_singleton] at below
    have entryEq : entry = ⟨if j = n then some skb else none, false⟩ := by
      by_cases last : j = n
      · rw [last, List.getElem?_append_right (by rw [List.length_replicate]),
          List.length_replicate, Nat.sub_self] at found
        cases found
        rw [if_pos last]
      · rw [List.getElem?_append_left (by rw [List.length_replicate]; omega),
          List.getElem?_replicate, if_pos (by omega)] at found
        cases found
        rw [if_neg last]
    rw [entryEq]
    generalize hstored : Function.update after (slot s.order (s.curr + UInt32.ofNat n)) _ = stored
    have held : (stored (slot s.order (s.curr + UInt32.ofNat j))).skb =
          (if j = n then some skb else none) ∧
        (stored (slot s.order (s.curr + UInt32.ofNat j))).desc.empty = decide (j = 0) ∧
        (j = n → (stored (slot s.order (s.curr + UInt32.ofNat j))).len = skb.len) := by
      rw [← hstored]
      by_cases last : j = n
      · rw [last, Function.update_self, if_pos rfl, ← last]
        exact ⟨rfl, empty below, fun _ => rfl⟩
      · have apart : slot s.order (s.curr + UInt32.ofNat j) ≠
            slot s.order (s.curr + UInt32.ofNat n) :=
          fun same => last (met below (Nat.lt_succ_self n) same)
        rw [Function.update_of_ne apart, if_neg last]
        exact ⟨noSkb below, empty below, fun same => absurd same last⟩
    have stays (other : Skb) : (if j = n then some skb else none) = some other →
        (stored (slot s.order (s.curr + UInt32.ofNat j))).len = other.len := by
      split
      · rename_i last
        intro same
        cases same
        exact held.2.2 last
      · intro never
        cases never
    by_cases first : j = 0
    · subst first
      rw [add_ofNat_zero] at held stays ⊢
      rw [Function.update_self]
      exact ⟨held.1, empty_clearEmpty, stays⟩
    · have apart : slot s.order (s.curr + UInt32.ofNat j) ≠ slot s.order s.curr := by
        intro same
        rw [← add_ofNat_zero s.curr, add_ofNat_add, Nat.zero_add] at same
        exact first (met below (Nat.succ_pos n) same)
      rw [Function.update_of_ne apart]
      exact ⟨held.1, held.2.1.trans (decide_eq_false first), stays⟩
  · intro index outside
    have notFirst : index ≠ slot s.order s.curr := by
      have := outside 0 (Nat.succ_pos n)
      rwa [add_ofNat_zero] at this
    rw [Function.update_of_ne notFirst, Function.update_of_ne (outside n (Nat.lt_succ_self n))]
    apply filled.frame
    intro j below
    rw [Nat.zero_add]
    exact outside j below

namespace TxState

/-- The length that the descriptors carry. -/
def wireLen (s : TxState) (skb : Skb) : Nat := skb.len &&& s.descPktlenMask.toNat

/-- The frame takes at most `max` descriptors. -/
def FitsIn (s : TxState) (skb : Skb) (max : Nat) : Prop :=
  segments (s.split (s.wireLen skb)) max (s.wireLen skb) ≠ none

instance (s : TxState) (skb : Skb) (max : Nat) : Decidable (s.FitsIn skb max) :=
  inferInstanceAs (Decidable (_ ≠ none))

end TxState

theorem wireLen_short (skb : Skb) : (s.wireLen skb : Int) < 2 ^ 31 := by
  have le : s.wireLen skb ≤ s.descPktlenMask.toNat := Nat.and_le_right
  have bound := s.descPktlenMask.toNat_lt
  omega

theorem split_nonneg (length : Nat) : 0 ≤ s.split length := by
  rw [TxState.split]
  split <;> omega

theorem inject_frame (skb : Skb) (n : Nat) :
    s.inject skb n =
      { s with
        cells := (s.inject skb n).cells
        stopped := (s.inject skb n).stopped
        sentBytes := s.sentBytes + skb.len
        accepted := s.accepted ++ [skb]
        curr := s.curr + UInt32.ofNat n } := by
  unfold TxState.inject
  dsimp only
  split <;> rfl

/-- A frame that fits in the free slots joins the queue. -/
theorem hardStartXmit_sends {skb : Skb} (dmaAddr : BitVec 32) (represents : Represents s pending)
    (balanced : Balanced s 0 pending) (long : 4 < skb.len) (carries : 0 < s.wireLen skb)
    (fits : s.FitsIn skb (s.size - s.used)) :
    ∃ n, Represents (s.hardStartXmit skb dmaAddr) (pending ++ [Packet.fresh skb n]) ∧
      Balanced (s.hardStartXmit skb dmaAddr) 0 (pending ++ [Packet.fresh skb n]) ∧
      (s.hardStartXmit skb dmaAddr).accepted = s.accepted ++ [skb] := by
  obtain ⟨lens, cut⟩ := Option.ne_none_iff_exists'.mp fits
  have few := segments_length cut
  obtain ⟨n, count⟩ : ∃ n, lens.length = n + 1 := by
    cases lens with
    | nil =>
        have cut := segments_mono cut (Nat.le_succ _)
        obtain ⟨rest, -, never⟩ := segments_cons (by omega) cut
        cases never
    | cons c rest => exact ⟨rest.length, rfl⟩
  have used := represents.used_eq
  have room := represents.window.fits
  have size : s.size = 2 ^ s.order := rfl
  have behind (j : Nat) : s.curr + UInt32.ofNat j =
      s.dirty + UInt32.ofNat ((pending.flatMap Packet.entries).length + j) := by
    rw [represents.curr, add_ofNat_add]
  have blank {j : Nat} (below : j < n + 1) : (s.cell (s.curr + UInt32.ofNat j)).Blank := by
    rw [behind]
    exact represents.window.outside _ (Nat.le_add_right _ j) (by omega)
  obtain ⟨after, fill, filled⟩ : ∃ after,
      fillDmaDesc s.order s.curr (s.split (s.wireLen skb)) (s.size + 8) s.cells 0 dmaAddr
        (s.wireLen skb) = (after, some (0 + lens.length)) ∧
      Filled s.order s.curr 0 lens.length s.cells after := by
    apply fillDmaDesc_fills represents.small cut (split_nonneg _) (wireLen_short skb) (by omega)
      (by omega)
    intro j below
    rw [Nat.zero_add]
    exact (blank (by omega)).1
  rw [count] at fill filled
  rw [Nat.zero_add] at fill
  have sends : s.hardStartXmit skb dmaAddr = { s with cells := after }.inject skb (n + 1) := by
    rw [TxState.hardStartXmit, if_neg (by omega)]
    dsimp only
    rw [TxState.wireLen] at fill
    rw [fill]
  obtain ⟨held, kept⟩ := inject_cells skb represents.small filled (by omega)
    (fun j below => (blank below).2)
  have entries : (pending ++ [Packet.fresh skb n]).flatMap Packet.entries =
      pending.flatMap Packet.entries ++ (Packet.fresh skb n).entries := by
    rw [List.flatMap_append, List.flatMap_singleton]
  have length : (Packet.fresh skb n).entries.length = n + 1 := by
    rw [entries_fresh, List.length_append, List.length_replicate, List.length_singleton]
  have window : Window s.order Entry.Holds TxCell.Blank
      ({ s with cells := after }.inject skb (n + 1)).cells s.dirty
      (pending.flatMap Packet.entries ++ (Packet.fresh skb n).entries) := by
    apply represents.window.extend (Nat.le_succ_of_le represents.small)
    · omega
    · intro k item found
      rw [← behind]
      exact held k item found
    · intro index outside
      apply kept
      intro j below
      rw [behind]
      exact outside j (by omega)
  refine ⟨n, ?_⟩
  rw [sends, inject_frame]
  refine ⟨?_, ?_, rfl⟩
  · constructor
    · exact represents.small
    · rw [entries]
      exact window
    · rw [entries, List.length_append, length, ← behind]
    · show s.accepted ++ [skb] = s.freed ++ (pending ++ [Packet.fresh skb n]).map Packet.skb
      rw [represents.accepted, List.map_append, List.append_assoc]
      rfl
  · simp only [Balanced, List.map_append, List.map_cons, List.map_nil, List.sum_append,
      List.sum_cons, List.sum_nil, Packet.fresh] at balanced ⊢
    omega

/-- A frame that is refused leaves the queue as it was. -/
theorem hardStartXmit_drops {skb : Skb} {dmaAddr : BitVec 32} (represents : Represents s pending)
    (balanced : Balanced s 0 pending)
    (refused : skb.len ≤ 4 ∨ ¬s.FitsIn skb s.ringMin ∧ s.Blocked) :
    Represents (s.hardStartXmit skb dmaAddr) pending ∧
      Balanced (s.hardStartXmit skb dmaAddr) 0 pending := by
  by_cases long : skb.len ≤ 4
  · rw [TxState.hardStartXmit, if_pos long]
    exact ⟨⟨represents.small, represents.window, represents.curr, represents.accepted⟩, balanced⟩
  · obtain ⟨many, blocked⟩ := refused.resolve_left long
    have more : segments (s.split (s.wireLen skb)) 1 (s.wireLen skb) = none := by
      by_contra few
      obtain ⟨lens, cut⟩ := Option.ne_none_iff_exists'.mp few
      apply many
      rw [TxState.FitsIn, segments_mono cut (by rw [TxState.ringMin]; split <;> decide)]
      exact Option.some_ne_none lens
    obtain ⟨after, fill, same⟩ := fillDmaDesc_blocked (s.size + 8) dmaAddr more blocked
    have drops : s.hardStartXmit skb dmaAddr = { s with cells := after }.drop skb := by
      rw [TxState.hardStartXmit, if_neg long]
      dsimp only
      rw [TxState.wireLen] at fill
      rw [fill]
    rw [drops]
    have window : Window s.order Entry.Holds TxCell.Blank after s.dirty
        (pending.flatMap Packet.entries) := by
      apply represents.window.mono
      · intro item index held
        obtain ⟨sameSkb, sameLen, sameEmpty⟩ := same index
        exact ⟨sameSkb.trans held.1, sameEmpty.trans held.2.1,
          fun skb found => sameLen.trans (held.2.2 skb found)⟩
      · intro index blank
        exact ⟨(same index).2.2.trans blank.1, (same index).1.trans blank.2⟩
    exact ⟨⟨represents.small, window, represents.curr, represents.accepted⟩, balanced⟩

end Rut9xx.Ag71xx
