import Rut9xx.Ag71xx.RxRing
import Rut9xx.Ag71xx.TxRun

namespace Rut9xx.Ag71xx

open Data

/-! # Runs of the receive ring

From `dirty` on, the ring holds slots without a buffer, then buffers that have
been filled, then buffers that the hardware may fill. -/

inductive RxItem where
  | gone
  | received (buf : Nat)
  | posted (buf : Nat)

/-- `dma` is where the hardware writes into a buffer. -/
def RxItem.Holds (dma : Nat → BitVec 32) (item : RxItem) (cell : RxCell) : Prop :=
  match item with
  | .gone => cell.rxBuf = none ∧ cell.desc.empty = false
  | .received buf => cell.rxBuf = some buf ∧ cell.desc.empty = false
  | .posted buf => cell.rxBuf = some buf ∧ cell.desc.empty = true ∧ cell.desc.data = dma buf

/-- The items of a ring, by the number of slots without a buffer and the buffers
in the others. -/
def rxItems (gone : Nat) (received posted : List Nat) : List RxItem :=
  List.replicate gone .gone ++ (received.map .received ++ posted.map .posted)

def RxState.dma (s : RxState) (buf : Nat) : BitVec 32 := s.dmaMap buf + s.rxBufOffset

/-- The buffers that the driver took, those that wait for it and those that the
hardware may fill. -/
structure Follows (s : RxState) (gone : Nat) (taken received posted : List Nat) : Prop where
  small : s.order ≤ 31
  whole : (rxItems gone received posted).length = 2 ^ s.order
  window : Window s.order (RxItem.Holds s.dma) (fun _ => True) s.cells s.dirty
    (rxItems gone received posted)
  curr : s.curr = s.dirty + UInt32.ofNat gone
  hw : s.hw = s.dirty + UInt32.ofNat (gone + received.length)
  handled : s.taken.map Taken.buf = taken.map some
  arrived : s.arrived = (taken ++ received).map some
  distinct : (taken ++ received ++ posted).Nodup
  old : ∀ buf ∈ taken ++ received ++ posted, buf < s.fresh

variable {s : RxState} {gone buf : Nat} {taken received posted : List Nat}

theorem rxItems_length :
    (rxItems gone received posted).length = gone + received.length + posted.length := by
  rw [rxItems, List.length_append, List.length_append, List.length_replicate, List.length_map,
    List.length_map, Nat.add_assoc]

theorem Follows.used_eq (follows : Follows s gone taken received posted) : s.used = gone := by
  have whole := follows.whole
  have lap : 2 ^ s.order ≤ 2 ^ 31 := Nat.pow_le_pow_right (by omega) follows.small
  rw [rxItems_length] at whole
  rw [RxState.used, follows.curr]
  exact distance s.dirty (by omega)

/-! ## The item in a slot -/

theorem rxItems_gone {k : Nat} (below : k < gone) :
    (rxItems gone received posted)[k]? = some .gone := by
  rw [rxItems, List.getElem?_append_left (by rwa [List.length_replicate]),
    List.getElem?_replicate, if_pos below]

theorem rxItems_received : (rxItems gone (buf :: received) posted)[gone]? = some (.received buf) := by
  rw [rxItems, List.getElem?_append_right (by rw [List.length_replicate]), List.length_replicate,
    Nat.sub_self]
  rfl

theorem rxItems_posted :
    (rxItems gone received (buf :: posted))[gone + received.length]? = some (.posted buf) := by
  rw [rxItems, List.getElem?_append_right (by rw [List.length_replicate]; omega),
    List.length_replicate, Nat.add_sub_cancel_left,
    List.getElem?_append_right (by rw [List.length_map]), List.length_map, Nat.sub_self]
  rfl

/-- The driver takes a buffer. -/
theorem rxItems_take :
    (rxItems gone (buf :: received) posted).set gone .gone = rxItems (gone + 1) received posted := by
  rw [rxItems, List.set_append_right _ _ (by rw [List.length_replicate]), List.length_replicate,
    Nat.sub_self, rxItems, List.replicate_succ', List.append_assoc]
  rfl

/-- The hardware fills a buffer. -/
theorem rxItems_fill :
    (rxItems gone received (buf :: posted)).set (gone + received.length) (.received buf) =
      rxItems gone (received ++ [buf]) posted := by
  rw [rxItems, List.set_append_right _ _ (by rw [List.length_replicate]; omega),
    List.length_replicate, Nat.add_sub_cancel_left,
    List.set_append_right _ _ (by rw [List.length_map]), List.length_map, Nat.sub_self, rxItems,
    List.map_append, List.append_assoc]
  rfl

/-- What is behind a full lap is the slot at `dirty`, which is not marked empty
unless the hardware may fill it. -/
theorem Follows.full (follows : Follows s gone taken received [])
    {k : Nat} (lap : k = gone + received.length) :
    (s.cell (s.dirty + UInt32.ofNat k)).desc.empty = false := by
  have whole := follows.whole
  rw [rxItems_length, List.length_nil] at whole
  have around := slot_lap (Nat.le_succ_of_le follows.small) s.dirty 0
  rw [Nat.zero_add] at around
  rw [RxState.cell, lap, show gone + received.length = 2 ^ s.order by omega, around]
  cases gone with
  | zero =>
      cases received with
      | nil =>
          have : 0 < 2 ^ s.order := Nat.two_pow_pos s.order
          rw [List.length_nil] at whole
          omega
      | cons buf received => exact (follows.window.inside 0 _ rxItems_received).2
  | succ gone => exact (follows.window.inside 0 _ (rxItems_gone (Nat.succ_pos gone))).2

theorem add_one_ofNat (counter : UInt32) (k : Nat) :
    counter + 1 + UInt32.ofNat k = counter + UInt32.ofNat (k + 1) := by
  rw [Nat.add_comm, ← add_ofNat_add]
  rfl

theorem add_ofNat_one (counter : UInt32) (k : Nat) :
    counter + UInt32.ofNat k + 1 = counter + UInt32.ofNat (k + 1) := add_ofNat_add counter k 1

/-! ## Steps -/

theorem hwReceive_follows (follows : Follows s gone taken received posted) (status : BitVec 32) :
    ∃ received posted, Follows (s.hwReceive status) gone taken received posted := by
  have small := Nat.le_succ_of_le follows.small
  rw [RxState.hwReceive]
  cases posted with
  | nil =>
      have stays := follows.full rfl
      rw [← follows.hw] at stays
      rw [if_neg (by rw [stays]; exact Bool.false_ne_true)]
      exact ⟨received, [], follows⟩
  | cons buf posted =>
      have total : gone + received.length <
          (rxItems gone received (buf :: posted)).length := by
        rw [rxItems_length, List.length_cons]
        omega
      have here := follows.window.inside _ _ rxItems_posted
      have open' : (s.cell s.hw).desc.empty = true := by
        rw [follows.hw]
        exact here.2.1
      rw [if_pos open']
      have filled : RxItem.Holds s.dma (.received buf) { s.cell s.hw with
          desc := { (s.cell s.hw).desc with ctrl := status &&& ~~~descEmpty } } := by
        refine ⟨?_, ?_⟩
        · rw [follows.hw]
          exact here.1
        · rw [Desc.empty, descEmpty, getLsbD_erase]
          exact Bool.and_false _
      have window := follows.window.set small total filled
      rw [rxItems_fill, ← follows.hw] at window
      have moved : taken ++ (received ++ [buf]) ++ posted =
          taken ++ received ++ buf :: posted := by
        rw [← List.append_assoc, List.append_assoc (taken ++ received)]
        rfl
      refine ⟨received ++ [buf], posted, ?_⟩
      constructor
      · exact follows.small
      · have whole := follows.whole
        rw [rxItems_length, List.length_cons] at whole
        rw [rxItems_length, List.length_append, List.length_singleton]
        exact (by omega : _ = _).trans whole
      · exact window
      · exact follows.curr
      · show s.hw + 1 = s.dirty + UInt32.ofNat (gone + (received ++ [buf]).length)
        rw [follows.hw, add_ofNat_one, List.length_append, List.length_singleton, Nat.add_assoc]
      · exact follows.handled
      · show s.arrived ++ [(s.cell s.hw).rxBuf] = _
        have buffer : (s.cell s.hw).rxBuf = some buf := by
          rw [follows.hw]
          exact here.1
        rw [follows.arrived, buffer]
        simp only [List.map_append, List.map_cons, List.map_nil, List.append_assoc]
      · rw [moved]
        exact follows.distinct
      · rw [moved]
        exact follows.old

theorem refillLoop_follows (alloc : Nat → Bool) {left : Nat} (count : Nat)
    (follows : Follows s gone taken received posted) (within : left ≤ gone) :
    ∃ gone posted, Follows (s.refillLoop alloc left count).1 gone taken received posted := by
  induction left generalizing s gone posted count with
  | zero => exact ⟨gone, posted, follows⟩
  | succ left ih =>
      obtain ⟨gone, rfl⟩ : ∃ fewer, gone = fewer + 1 := ⟨gone - 1, by omega⟩
      have small := Nat.le_succ_of_le follows.small
      have first : rxItems (gone + 1) received posted = .gone :: rxItems gone received posted := rfl
      have window := follows.window
      have whole := follows.whole
      rw [first] at window whole
      have here := window.inside 0 _ rfl
      rw [add_ofNat_zero] at here
      have none' : (s.cell s.dirty).rxBuf = none := here.1
      rw [RxState.refillLoop]
      dsimp only
      rw [none']
      dsimp only
      split
      · have held : RxItem.Holds s.dma (.posted s.fresh) s.posted := by
          refine ⟨rfl, ?_, rfl⟩
          rw [RxState.posted]
          exact (by decide : (Desc.mk 0 descEmpty).empty = true)
        have set := window.set small (Nat.succ_pos _) held
        rw [List.set_cons_zero, add_ofNat_zero] at set
        have rotated := set.rotate small whole
        have items : rxItems gone received posted ++ [.posted s.fresh] =
            rxItems gone received (posted ++ [s.fresh]) := by
          rw [rxItems, rxItems, List.append_assoc, List.append_assoc, List.map_append]
          rfl
        rw [items] at rotated
        have next : Follows
            { s.setCell s.dirty s.posted with fresh := s.fresh + 1, dirty := s.dirty + 1 }
            gone taken received (posted ++ [s.fresh]) := by
          constructor
          · exact follows.small
          · rw [rxItems_length, List.length_append, List.length_singleton, ← Nat.add_assoc,
              ← rxItems_length]
            exact whole
          · exact rotated
          · show s.curr = s.dirty + 1 + UInt32.ofNat gone
            rw [add_one_ofNat]
            exact follows.curr
          · show s.hw = s.dirty + 1 + UInt32.ofNat (gone + received.length)
            rw [add_one_ofNat, follows.hw, Nat.add_right_comm]
          · exact follows.handled
          · exact follows.arrived
          · rw [← List.append_assoc, List.nodup_append]
            refine ⟨follows.distinct, List.nodup_singleton _, ?_⟩
            intro buf member new same
            rw [List.mem_singleton.mp same]
            exact Nat.ne_of_lt (follows.old buf member)
          · intro buf member
            rw [← List.append_assoc] at member
            rcases List.mem_append.mp member with known | new
            · exact Nat.lt_succ_of_lt (follows.old buf known)
            · rw [List.mem_singleton.mp new]
              exact Nat.lt_succ_self _
        exact ih (count + 1) next (Nat.le_of_succ_le_succ within)
      · exact ⟨gone + 1, posted, follows⟩

theorem rxLoop_follows (build : Nat → Bool) (left done : Nat)
    (follows : Follows s gone taken received posted) :
    ∃ gone taken received, Follows (s.rxLoop build left done).1 gone taken received posted := by
  induction left generalizing s gone taken received done with
  | zero => exact ⟨gone, taken, received, follows⟩
  | succ left ih =>
      have small := Nat.le_succ_of_le follows.small
      have whole := follows.whole
      have lap : 2 ^ s.order ≤ 2 ^ 31 := Nat.pow_le_pow_right (by omega) follows.small
      rw [rxItems_length] at whole
      rw [RxState.rxLoop]
      dsimp only
      split
      · exact ⟨gone, taken, received, follows⟩
      · rename_i filled
        split
        · exact ⟨gone, taken, received, follows⟩
        · rename_i notFull
          cases received with
          | nil =>
              exfalso
              cases posted with
              | nil =>
                  apply notFull
                  rw [follows.curr, RxState.size, ← whole]
                  rfl
              | cons buf posted =>
                  apply filled
                  have here := follows.window.inside _ _ rxItems_posted
                  rw [follows.curr]
                  exact here.2.1
          | cons buf received =>
              have here := follows.window.inside _ _ rxItems_received
              rw [← follows.curr] at here
              have inside : gone < (rxItems gone (buf :: received) posted).length := by
                rw [rxItems_length, List.length_cons]
                omega
              have held : RxItem.Holds s.dma .gone { s.cell s.curr with rxBuf := none } :=
                ⟨rfl, here.2⟩
              have window := follows.window.set small inside held
              rw [rxItems_take, ← follows.curr] at window
              have moved : taken ++ [buf] ++ received = taken ++ buf :: received :=
                List.append_cons .. |>.symm
              have next : Follows
                  { s.setCell s.curr { s.cell s.curr with rxBuf := none } with
                    taken := s.taken ++ [⟨(s.cell s.curr).rxBuf, if build done then some
                      (((s.cell s.curr).desc.ctrl.toNat &&& s.descPktlenMask.toNat : Nat) -
                        RxState.ethFcsLen) else none⟩]
                    curr := s.curr + 1 }
                  (gone + 1) (taken ++ [buf]) received posted := by
                constructor
                · exact follows.small
                · rw [rxItems_length]
                  rw [List.length_cons] at whole
                  exact (by omega : _ = _).trans whole
                · exact window
                · show s.curr + 1 = s.dirty + UInt32.ofNat (gone + 1)
                  rw [follows.curr, add_ofNat_one]
                · show s.hw = s.dirty + UInt32.ofNat (gone + 1 + received.length)
                  rw [follows.hw, List.length_cons, Nat.add_assoc, Nat.add_comm 1]
                · show (s.taken ++ [_]).map Taken.buf = _
                  rw [List.map_append, follows.handled, List.map_append]
                  exact congrArg (taken.map some ++ [·]) here.1
                · show s.arrived = _
                  rw [moved]
                  exact follows.arrived
                · rw [moved]
                  exact follows.distinct
                · rw [moved]
                  exact follows.old
              exact ih (done + 1) next

theorem rxStep_follows (follows : Follows s gone taken received posted) (event : RxEvent) :
    ∃ gone taken received posted, Follows (s.step event) gone taken received posted := by
  cases event with
  | receive status =>
      obtain ⟨received, posted, next⟩ := hwReceive_follows follows status
      exact ⟨gone, taken, received, posted, next⟩
  | packets limit build alloc =>
      obtain ⟨gone, taken, received, cleaned⟩ := rxLoop_follows build limit 0 follows
      obtain ⟨gone, posted, next⟩ :=
        refillLoop_follows alloc 0 cleaned (Nat.le_of_eq cleaned.used_eq)
      exact ⟨gone, taken, received, posted, next⟩
  | refill alloc =>
      obtain ⟨gone, posted, next⟩ :=
        refillLoop_follows alloc 0 follows (Nat.le_of_eq follows.used_eq)
      exact ⟨gone, taken, received, posted, next⟩

theorem rxRun_follows (follows : Follows s gone taken received posted) (events : List RxEvent) :
    ∃ gone taken received posted, Follows (s.run events) gone taken received posted := by
  induction events generalizing s gone taken received posted with
  | nil => exact ⟨gone, taken, received, posted, follows⟩
  | cons event events ih =>
      obtain ⟨gone, taken, received, posted, next⟩ := rxStep_follows follows event
      exact ih next

/-! ## The first state -/

theorem rxInitLoop_posts (alloc : Nat → Bool) (first count : Nat) (fresh : s.fresh = first)
    (before : ∀ k < first, RxItem.Holds s.dma (.posted k) (s.cells k))
    (done : (rxInitLoop alloc (List.range' first count) s).2 = true) :
    ∃ cells, (rxInitLoop alloc (List.range' first count) s).1 =
        { s with cells := cells, fresh := first + count } ∧
      ∀ k < first + count, RxItem.Holds s.dma (.posted k) (cells k) := by
  induction count generalizing s first with
  | zero =>
      subst fresh
      exact ⟨s.cells, rfl, before⟩
  | succ count ih =>
      rw [List.range'_succ, rxInitLoop] at done ⊢
      split at done
      · rename_i granted
        rw [if_pos granted]
        obtain ⟨cells, ends, posted⟩ := ih (first + 1) (by rw [fresh]) (by
          intro k below
          show RxItem.Holds s.dma (.posted k) (Function.update s.cells first s.posted k)
          by_cases last : k = first
          · rw [last, Function.update_self, ← fresh]
            exact ⟨rfl, (by decide : (Desc.mk 0 descEmpty).empty = true), rfl⟩
          · rw [Function.update_of_ne last]
            exact before k (by omega)) done
        refine ⟨cells, ends.trans ?_, ?_⟩
        · rw [Nat.add_assoc, Nat.add_comm 1]
        · intro k below
          exact posted k (by omega)
      · cases done

theorem ringRxInit_follows {order : Nat} {descPktlenMask : UInt16} {rxBufOffset : BitVec 32}
    {dmaMap : Nat → BitVec 32} {alloc : Nat → Bool} (small : order ≤ 31)
    (done : (ringRxInit order descPktlenMask rxBufOffset dmaMap alloc).2 = true) :
    Follows (ringRxInit order descPktlenMask rxBufOffset dmaMap alloc).1 0 [] []
      (List.range (2 ^ order)) := by
  rw [ringRxInit, List.range_eq_range'] at done ⊢
  obtain ⟨cells, ends, posted⟩ := rxInitLoop_posts alloc 0 (2 ^ order) rfl
    (fun k never => absurd never (Nat.not_lt_zero k)) done
  rw [ends]
  have whole : (rxItems 0 [] (List.range' 0 (2 ^ order))).length = 2 ^ order := by
    rw [rxItems_length, List.length_range', List.length_nil]
    omega
  constructor
  · exact small
  · exact whole
  · constructor
    · exact Nat.le_of_eq whole
    · intro k item found
      have below : k < 2 ^ order := whole ▸ (List.getElem?_eq_some_iff.mp found).1
      have buffer : rxItems 0 [] (List.range' 0 (2 ^ order)) =
          (List.range' 0 (2 ^ order)).map .posted := rfl
      rw [buffer, List.getElem?_map, List.getElem?_range' below] at found
      cases found
      have lap := slot_add (Nat.le_succ_of_le small) 0 k
      rw [UInt32.toNat_zero, Nat.zero_add, Nat.mod_eq_of_lt below] at lap
      show RxItem.Holds _ _ (cells (slot order (0 + UInt32.ofNat k)))
      rw [lap, show 0 + 1 * k = k by omega]
      exact posted k (by omega)
    · intro k _ _
      trivial
  · rfl
  · rfl
  · rfl
  · rfl
  · exact List.nodup_range'
  · intro buf member
    obtain ⟨k, below, rfl⟩ := List.mem_range'.mp member
    show 0 + 1 * k < 0 + 2 ^ order
    omega

/-! ## What holds in every state -/

theorem rxItems_buffer {j : Nat} (below : j < (received ++ posted).length) :
    (rxItems gone received posted)[gone + j]? = some (.received (received ++ posted)[j]) ∨
      (rxItems gone received posted)[gone + j]? = some (.posted (received ++ posted)[j]) := by
  rw [rxItems, List.getElem?_append_right (by rw [List.length_replicate]; omega),
    List.length_replicate, Nat.add_sub_cancel_left]
  by_cases front : j < received.length
  · left
    rw [List.getElem?_append_left (by rwa [List.length_map]), List.getElem?_map,
      List.getElem?_eq_getElem front, List.getElem_append_left front]
    rfl
  · right
    rw [List.length_append] at below
    rw [List.getElem?_append_right (by rw [List.length_map]; omega), List.length_map,
      List.getElem?_map, List.getElem?_eq_getElem (by omega),
      List.getElem_append_right (Nat.le_of_not_lt front)]
    rfl

/-- The buffer of a slot that is not between `dirty` and `curr`. -/
theorem Follows.buffer (follows : Follows s gone taken received posted) {j : Nat}
    (below : j < (received ++ posted).length) :
    (s.cell (s.dirty + UInt32.ofNat (gone + j))).rxBuf = some (received ++ posted)[j] ∧
      ((s.cell (s.dirty + UInt32.ofNat (gone + j))).desc.empty = true →
        (s.cell (s.dirty + UInt32.ofNat (gone + j))).desc.data =
          s.dma (received ++ posted)[j]) := by
  rcases rxItems_buffer below with found | found
  · have here := follows.window.inside _ _ found
    refine ⟨here.1, ?_⟩
    intro marked
    have never := here.2
    rw [RxState.cell] at marked
    rw [marked] at never
    cases never
  · have here := follows.window.inside _ _ found
    exact ⟨here.1, fun _ => here.2.2⟩

end Rut9xx.Ag71xx
