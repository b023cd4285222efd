import Rut9xx.Ag71xx.TxSend

namespace Rut9xx.Ag71xx

open Data

/-! # Runs of the transmit ring -/

variable {s : TxState} {pending : List Packet} {events : List TxEvent}

/-! ## Runs of the queue -/

inductive QueueStep (pending : List Packet) : TxEvent → List Packet → Prop where
  | send (skb : Skb) (dmaAddr : BitVec 32) (n : Nat) :
      QueueStep pending (.xmit skb dmaAddr) (pending ++ [Packet.fresh skb n])
  | refuse (skb : Skb) (dmaAddr : BitVec 32) : QueueStep pending (.xmit skb dmaAddr) pending
  | complete : QueueStep pending .complete (completeFirst pending)
  | clean (flush : Bool) : QueueStep pending (.clean flush) (cleaned flush pending).2

inductive QueueRun : List Packet → List TxEvent → List Packet → Prop where
  | stop (pending : List Packet) : QueueRun pending [] pending
  | step {pending next last : List Packet} {event : TxEvent} {events : List TxEvent}
      (first : QueueStep pending event next) (rest : QueueRun next events last) :
      QueueRun pending (event :: events) last

/-! ## When the ring follows its queue -/

namespace TxState

/-- A frame that is handed over has a length that the descriptors can carry and
finds free slots for it; or it takes more descriptors than the driver keeps in
reserve and is refused before it does harm. -/
def Meets (s : TxState) : TxEvent → Prop
  | .xmit skb _ =>
      s.stopped = false → 4 < skb.len →
        0 < s.wireLen skb ∧ s.FitsIn skb (s.size - s.used) ∨ ¬s.FitsIn skb s.ringMin ∧ s.Blocked
  | _ => True

def AllMeet (s : TxState) : List TxEvent → Prop
  | [] => True
  | event :: events => s.Meets event ∧ (s.step event).AllMeet events

end TxState

theorem step_follows (represents : Represents s pending) (balanced : Balanced s 0 pending)
    {event : TxEvent} (meets : s.Meets event) :
    ∃ next, QueueStep pending event next ∧ Represents (s.step event) next ∧
      Balanced (s.step event) 0 next := by
  cases event with
  | xmit skb dmaAddr =>
      rw [TxState.step]
      split
      · exact ⟨pending, .refuse skb dmaAddr, represents, balanced⟩
      · rename_i going
        by_cases long : 4 < skb.len
        · rcases meets (Bool.eq_false_iff.mpr going) long with ⟨carries, fits⟩ | refused
          · obtain ⟨n, sent, billed, -⟩ :=
              hardStartXmit_sends dmaAddr represents balanced long carries fits
            exact ⟨_, .send skb dmaAddr n, sent, billed⟩
          · exact ⟨pending, .refuse skb dmaAddr,
              hardStartXmit_drops represents balanced (Or.inr refused)⟩
        · exact ⟨pending, .refuse skb dmaAddr,
            hardStartXmit_drops represents balanced (Or.inl (Nat.le_of_not_lt long))⟩
  | complete =>
      exact ⟨_, .complete, hwComplete_represents represents, hwComplete_balanced balanced⟩
  | clean flush =>
      obtain ⟨left, billed, -, -⟩ := txPackets_cleans flush represents balanced
      exact ⟨_, .clean flush, left, billed⟩

theorem run_follows (represents : Represents s pending) (balanced : Balanced s 0 pending)
    (meets : s.AllMeet events) :
    ∃ last, QueueRun pending events last ∧ Represents (s.run events) last ∧
      Balanced (s.run events) 0 last := by
  induction events generalizing s pending with
  | nil => exact ⟨pending, .stop pending, represents, balanced⟩
  | cons event events ih =>
      obtain ⟨next, first, represents, balanced⟩ := step_follows represents balanced meets.1
      obtain ⟨last, rest, ends⟩ := ih represents balanced meets.2
      exact ⟨last, .step first rest, ends⟩

theorem init_represents (descSplit descPktlenMask : UInt16) {order : Nat} (small : order ≤ 31) :
    Represents (ringTxInit descSplit order descPktlenMask) [] ∧
      Balanced (ringTxInit descSplit order descPktlenMask) 0 [] := by
  refine ⟨⟨small, ⟨Nat.zero_le _, fun k item never => by simp at never, ?_⟩, rfl, rfl⟩, rfl⟩
  intro k _ _
  have marked : (Desc.mk 0 descEmpty).empty = true := by decide
  exact ⟨marked, rfl⟩

/-! ## The configuration stays -/

/-- The part of the state that only `ethtool` changes. -/
def TxState.config (s : TxState) : UInt16 × Nat × UInt16 := (s.descSplit, s.order, s.descPktlenMask)

theorem step_config (event : TxEvent) : (s.step event).config = s.config := by
  cases event with
  | xmit skb dmaAddr =>
      rw [TxState.step]
      split
      · rfl
      · rw [TxState.hardStartXmit]
        split
        · rfl
        · dsimp only
          split
          · rfl
          · rw [inject_frame]
            rfl
  | complete =>
      rw [TxState.step, hwComplete_frame]
      rfl
  | clean flush =>
      obtain ⟨cells, dirty, freed, loop⟩ := txLoop_frame (s := s) flush s.used 0 (0, 0)
      rw [TxState.step, TxState.txPackets]
      dsimp only
      rw [loop]
      split
      · rfl
      · split <;> rfl

theorem run_config (events : List TxEvent) : (s.run events).config = s.config := by
  induction events generalizing s with
  | nil => rfl
  | cons event events ih => exact ih.trans (step_config event)

/-! ## What holds in every state -/

theorem ringSizeOrder_le {size bound : Nat} (le : size ≤ 2 ^ bound) : ringSizeOrder size ≤ bound := by
  rw [ringSizeOrder]
  split
  · exact Nat.zero_le bound
  · exact (Nat.log2_lt (by omega)).mpr (by omega)

/-- The orders that `ethtool` can install. -/
theorem installed_le {descSplit : UInt16} {er : Ringparam} {txOrder rxOrder : Nat}
    (installed : ethtoolSetRingparam descSplit er = some (txOrder, rxOrder)) :
    txOrder ≤ 9 ∧ rxOrder ≤ 8 := by
  rw [ethtoolSetRingparam] at installed
  split at installed
  · cases installed
  · cases installed
    constructor
    · apply ringSizeOrder_le
      rw [txRingSizeMax, txRingDsPerPkt]
      split <;> omega
    · apply ringSizeOrder_le
      rw [rxRingSizeMax]
      omega

/-- The descriptors that a frame can take which fits in the reserve. -/
def TxState.least (s : TxState) : Nat := if s.descSplit = 0 then 1 else s.ringMin

/-- Two slots do without a split, 32 with it. -/
def TxState.Wide (s : TxState) : Prop := if s.descSplit = 0 then 1 ≤ s.order else 5 ≤ s.order

/-- While the queue goes on there is room for one more frame. -/
def TxState.Roomy (s : TxState) : Prop := s.stopped = false → s.used + s.least ≤ s.size

/-- A frame that the reserve is meant for. -/
def TxState.Modest (s : TxState) : TxEvent → Prop
  | .xmit skb _ => 4 < skb.len → 0 < s.wireLen skb ∧ s.FitsIn skb s.ringMin
  | _ => True

theorem modest_least {skb : Skb} (fits : s.FitsIn skb s.ringMin) : s.FitsIn skb s.least := by
  rw [TxState.least]
  split
  · rename_i unsplit
    -- without a split a frame is one segment
    rw [TxState.FitsIn, TxState.split, if_pos unsplit, segments, curLen, if_neg (lt_irrefl _),
      Int.sub_self]
    split
    · exact Option.some_ne_none _
    · exact Option.some_ne_none _
  · exact fits

theorem wide_size (wide : s.Wide) (small : s.order ≤ 31) :
    s.ringMin ≤ s.size ∧ s.least ≤ s.ringMin ∧ s.size * 3 / 4 + s.least ≤ s.size + 1 ∧
      s.size < 2 ^ 32 := by
  have upper : 2 ^ s.order ≤ 2 ^ 31 := Nat.pow_le_pow_right (by omega) small
  rw [TxState.Wide] at wide
  rw [TxState.least, TxState.ringMin, TxState.size, txRingDsPerPkt]
  split at wide
  · rename_i unsplit
    have lower : 2 ^ 1 ≤ 2 ^ s.order := Nat.pow_le_pow_right (by omega) wide
    rw [if_pos unsplit, if_pos unsplit]
    omega
  · rename_i splits
    have lower : 2 ^ 5 ≤ 2 ^ s.order := Nat.pow_le_pow_right (by omega) wide
    rw [if_neg splits, if_neg splits]
    omega

theorem inject_stops {skb : Skb} {n : Nat} (reserve : s.ringMin ≤ s.size) (small : s.size < 2 ^ 32)
    (going : (s.inject skb n).stopped = false) : (s.inject skb n).used + s.ringMin ≤ s.size := by
  have limit : (UInt32.ofNat s.size - UInt32.ofNat s.ringMin).toNat = s.size - s.ringMin := by
    rw [UInt32.toNat_sub, UInt32.toNat_ofNat', UInt32.toNat_ofNat']
    omega
  have below : (s.inject skb n).curr - (s.inject skb n).dirty <
      UInt32.ofNat s.size - UInt32.ofNat s.ringMin := by
    unfold TxState.inject at going ⊢
    dsimp only at going ⊢
    split at going
    · cases going
    · rename_i below
      rw [if_neg below]
      exact UInt32.not_le.mp below
  have := UInt32.lt_iff_toNat_lt.mp below
  rw [TxState.used]
  omega

/-- A queue that goes on after a frame leaves the reserve. -/
theorem hardStartXmit_stops {skb : Skb} {dmaAddr : BitVec 32} (reserve : s.ringMin ≤ s.size)
    (small : s.size < 2 ^ 32) (going : (s.hardStartXmit skb dmaAddr).stopped = false) :
    (s.hardStartXmit skb dmaAddr).stopped = s.stopped ∧
        (s.hardStartXmit skb dmaAddr).used = s.used ∨
      (s.hardStartXmit skb dmaAddr).used + s.ringMin ≤ s.size := by
  unfold TxState.hardStartXmit at going ⊢
  dsimp only at going ⊢
  split at going
  · rename_i short
    rw [if_pos short]
    exact Or.inl ⟨rfl, rfl⟩
  · rename_i long
    rw [if_neg long]
    split at going
    · exact Or.inl ⟨rfl, rfl⟩
    · exact Or.inr (inject_stops reserve small going)

/-- A cleanup wakes the queue only below three quarters of the ring. -/
theorem txPackets_wakes {flush : Bool} (going : (s.txPackets flush).1.stopped = false) :
    s.stopped = false ∨ (s.txPackets flush).1.used < s.size * 3 / 4 := by
  obtain ⟨cells, dirty, freed, loop⟩ := txLoop_frame (s := s) flush s.used 0 (0, 0)
  unfold TxState.txPackets at going ⊢
  dsimp only at going ⊢
  rw [loop] at going ⊢
  split at going
  · exact Or.inl going
  · rename_i some'
    rw [if_neg some']
    split at going
    · rename_i below
      rw [if_pos below]
      exact Or.inr below
    · exact Or.inl going

theorem step_roomy (represents : Represents s pending) (balanced : Balanced s 0 pending)
    (wide : s.Wide) (roomy : s.Roomy) {event : TxEvent} (modest : s.Modest event) :
    s.Meets event ∧ (s.step event).Roomy := by
  obtain ⟨reserve, least, wake, small⟩ := wide_size wide represents.small
  have config := step_config (s := s) event
  have size : (s.step event).size = s.size := congrArg (fun config => 2 ^ config.2.1) config
  have same : (s.step event).least = s.least := by
    have descSplit : (s.step event).descSplit = s.descSplit := congrArg Prod.fst config
    rw [TxState.least, TxState.least, TxState.ringMin, TxState.ringMin, descSplit]
  rw [TxState.Roomy, size, same]
  cases event with
  | xmit skb dmaAddr =>
      constructor
      · intro going long
        obtain ⟨carries, fits⟩ := modest long
        have room := roomy going
        obtain ⟨lens, cut⟩ := Option.ne_none_iff_exists'.mp (modest_least fits)
        left
        refine ⟨carries, ?_⟩
        rw [TxState.FitsIn, segments_mono cut (by omega)]
        exact Option.some_ne_none lens
      · rw [TxState.step]
        split
        · exact roomy
        · rename_i going
          intro on
          rcases hardStartXmit_stops reserve small on with ⟨-, used⟩ | left
          · rw [used]
            exact roomy (Bool.eq_false_iff.mpr going)
          · omega
  | complete =>
      refine ⟨trivial, ?_⟩
      rw [TxState.step, hwComplete_frame]
      exact roomy
  | clean flush =>
      refine ⟨trivial, ?_⟩
      obtain ⟨left, -, -, -⟩ := txPackets_cleans flush represents balanced
      have fewer : (s.txPackets flush).1.used ≤ s.used := by
        rw [left.used_eq, represents.used_eq]
        have whole : (cleaned flush pending).1 ++ (cleaned flush pending).2 = pending :=
          List.takeWhile_append_dropWhile
        have lengths := congrArg (fun packets => (packets.flatMap Packet.entries).length) whole
        rw [List.flatMap_append, List.length_append] at lengths
        omega
      intro on
      rcases txPackets_wakes on with going | below
      · have := roomy going
        show (s.txPackets flush).1.used + s.least ≤ s.size
        omega
      · show (s.txPackets flush).1.used + s.least ≤ s.size
        omega

theorem modest_congr {s' : TxState} (config : s'.config = s.config) (event : TxEvent) :
    s'.Modest event ↔ s.Modest event := by
  have descSplit : s'.descSplit = s.descSplit := congrArg Prod.fst config
  have mask : s'.descPktlenMask = s.descPktlenMask := congrArg (fun config => config.2.2) config
  cases event with
  | xmit skb dmaAddr =>
      simp only [TxState.Modest, TxState.FitsIn, TxState.wireLen, TxState.split, TxState.ringMin,
        descSplit, mask]
  | complete => exact Iff.rfl
  | clean flush => exact Iff.rfl

/-- On a wide ring no run of frames that fit in the reserve goes wrong. -/
theorem roomy_allMeet (represents : Represents s pending) (balanced : Balanced s 0 pending)
    (wide : s.Wide) (roomy : s.Roomy) (modest : ∀ event ∈ events, s.Modest event) :
    s.AllMeet events := by
  induction events generalizing s pending with
  | nil => trivial
  | cons event events ih =>
      obtain ⟨meets, stays⟩ :=
        step_roomy represents balanced wide roomy (modest event List.mem_cons_self)
      obtain ⟨next, -, represents, balanced⟩ := step_follows represents balanced meets
      refine ⟨meets, ih represents balanced ?_ stays ?_⟩
      · have config := step_config (s := s) event
        have descSplit : (s.step event).descSplit = s.descSplit := congrArg Prod.fst config
        have order : (s.step event).order = s.order := congrArg (fun config => config.2.1) config
        rw [TxState.Wide, descSplit, order]
        exact wide
      · intro later member
        have same := modest_congr (step_config (s := s) event) later
        exact same.mpr (modest later (List.mem_cons_of_mem _ member))

theorem wideRing_allMeet {descSplit descPktlenMask : UInt16} {order : Nat} (small : order ≤ 31)
    (wide : (ringTxInit descSplit order descPktlenMask).Wide)
    (modest : ∀ event ∈ events, (ringTxInit descSplit order descPktlenMask).Modest event) :
    (ringTxInit descSplit order descPktlenMask).AllMeet events := by
  obtain ⟨represents, balanced⟩ := init_represents descSplit descPktlenMask small
  have sizes := wide_size wide small
  apply roomy_allMeet represents balanced wide _ modest
  intro _
  have used : (ringTxInit descSplit order descPktlenMask).used = 0 := by
    show ((0 : UInt32) - 0).toNat = 0
    decide
  omega

end Rut9xx.Ag71xx
