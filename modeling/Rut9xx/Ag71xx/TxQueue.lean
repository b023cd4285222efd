import Rut9xx.Ag71xx.TxRing

namespace Rut9xx.Ag71xx

open Data

/-! # What the transmit ring is for

A queue of packets, each with the descriptors that carry it. The hardware
completes descriptors in order, and a packet leaves once all of its own are
completed. -/

/-- The frame lies on the last descriptor; `more` are those in front of it. A
flag tells whether the descriptor is completed. -/
structure Packet where
  skb : Skb
  more : List Bool
  last : Bool

structure Entry where
  skb : Option Skb
  done : Bool

namespace Packet

def entries (packet : Packet) : List Entry :=
  packet.more.map (fun done => ⟨none, done⟩) ++ [⟨some packet.skb, packet.last⟩]

/-- All descriptors are completed. -/
def Done (packet : Packet) : Prop := (∀ done ∈ packet.more, done = true) ∧ packet.last = true

instance (packet : Packet) : Decidable packet.Done := inferInstanceAs (Decidable (_ ∧ _))

/-- A packet on `n + 1` descriptors that are all to be sent. -/
def fresh (skb : Skb) (n : Nat) : Packet := ⟨skb, List.replicate n false, false⟩

end Packet

/-- Completes the first entry that is not. -/
def completeEntry : List Entry → List Entry
  | [] => []
  | entry :: rest =>
      if entry.done then entry :: completeEntry rest else { entry with done := true } :: rest

theorem completeEntry_cons {entry : Entry} {rest : List Entry} : completeEntry (entry :: rest) =
    if entry.done then entry :: completeEntry rest else { entry with done := true } :: rest := rfl

def completeFlag : List Bool → List Bool
  | [] => []
  | done :: rest => if done then done :: completeFlag rest else true :: rest

/-- Completes the first descriptor that is not. -/
def completeFirst : List Packet → List Packet
  | [] => []
  | packet :: rest =>
      if false ∈ packet.more then { packet with more := completeFlag packet.more } :: rest
      else if packet.last then packet :: completeFirst rest
      else { packet with last := true } :: rest

/-- The packets that a cleanup takes away, and those it leaves. -/
def cleaned (flush : Bool) (pending : List Packet) : List Packet × List Packet :=
  (pending.takeWhile fun packet => flush || decide packet.Done,
    pending.dropWhile fun packet => flush || decide packet.Done)

/-! ## The ring that stands for a queue -/

def Entry.Holds (entry : Entry) (cell : TxCell) : Prop :=
  cell.skb = entry.skb ∧ cell.desc.empty = entry.done ∧
    ∀ skb, entry.skb = some skb → cell.len = skb.len

/-- A slot that no packet uses. -/
def TxCell.Blank (cell : TxCell) : Prop := cell.desc.empty = true ∧ cell.skb = none

structure Represents (s : TxState) (pending : List Packet) : Prop where
  small : s.order ≤ 31
  window : Window s.order Entry.Holds TxCell.Blank s.cells s.dirty (pending.flatMap Packet.entries)
  curr : s.curr = s.dirty + UInt32.ofNat (pending.flatMap Packet.entries).length
  accepted : s.accepted = s.freed ++ pending.map Packet.skb

/-- The bytes that are neither reported completed nor about to be. -/
def Balanced (s : TxState) (bytesCompl : Nat) (pending : List Packet) : Prop :=
  s.sentBytes = s.completedBytes + bytesCompl + (pending.map fun packet => packet.skb.len).sum

variable {s : TxState} {pending rest : List Packet} {packet : Packet} {flush : Bool}

theorem Represents.used_eq (represents : Represents s pending) :
    s.used = (pending.flatMap Packet.entries).length := by
  have room := represents.window.fits
  have lap : 2 ^ s.order ≤ 2 ^ 31 := Nat.pow_le_pow_right (by omega) represents.small
  rw [TxState.used, represents.curr]
  exact distance s.dirty (by omega)

/-! ## Completion by the hardware -/

@[simp] theorem empty_setEmpty {cell : TxCell} :
    (cell.setCtrl (cell.desc.ctrl ||| descEmpty)).desc.empty = true := by
  rw [TxCell.setCtrl, Desc.empty, descEmpty, getLsbD_insert (by decide), Bool.or_eq_true]
  exact Or.inr rfl

theorem completeEntry_append_done {front : List Entry} (back : List Entry)
    (completed : ∀ entry ∈ front, entry.done = true) :
    completeEntry (front ++ back) = front ++ completeEntry back := by
  induction front with
  | nil => rfl
  | cons entry front ih =>
      rw [List.cons_append, completeEntry_cons, if_pos (completed entry List.mem_cons_self),
        ih (fun other member => completed other (List.mem_cons_of_mem _ member)), List.cons_append]

theorem completeEntry_append_left {front back : List Entry} {entry : Entry} (member : entry ∈ front)
    (pending : entry.done = false) :
    completeEntry (front ++ back) = completeEntry front ++ back := by
  induction front with
  | nil => cases member
  | cons head front ih =>
      rw [List.cons_append, completeEntry_cons, completeEntry_cons]
      cases done : head.done with
      | false => rfl
      | true =>
          have behind : entry ∈ front := by
            cases member with
            | head => rw [done] at pending; cases pending
            | tail _ behind => exact behind
          rw [if_pos rfl, if_pos rfl, ih behind, List.cons_append]

theorem completeEntry_flags (flags : List Bool) :
    completeEntry (flags.map fun done => ⟨none, done⟩) =
      (completeFlag flags).map fun done => ⟨none, done⟩ := by
  induction flags with
  | nil => rfl
  | cons done flags ih => cases done <;> simp [completeEntry, completeFlag, ih]

theorem entries_completeFirst (pending : List Packet) :
    (completeFirst pending).flatMap Packet.entries =
      completeEntry (pending.flatMap Packet.entries) := by
  induction pending with
  | nil => rfl
  | cons packet rest ih =>
      rw [completeFirst, List.flatMap_cons]
      split
      · rename_i open'
        have member : (⟨none, false⟩ : Entry) ∈ packet.more.map fun done => ⟨none, done⟩ :=
          List.mem_map.mpr ⟨false, open', rfl⟩
        rw [List.flatMap_cons, Packet.entries, Packet.entries, List.append_assoc, List.append_assoc,
          completeEntry_append_left member rfl, completeEntry_flags]
      · rename_i closed
        have front : ∀ entry ∈ packet.more.map fun done => (⟨none, done⟩ : Entry),
            entry.done = true := by
          intro entry member
          obtain ⟨done, flag, rfl⟩ := List.mem_map.mp member
          cases done with
          | true => rfl
          | false => exact absurd flag closed
        rw [Packet.entries, List.append_assoc, completeEntry_append_done _ front]
        cases last : packet.last with
        | true =>
            rw [if_pos rfl, List.flatMap_cons, ih, Packet.entries, last]
            simp [completeEntry]
        | false =>
            rw [if_neg Bool.false_ne_true, List.flatMap_cons, Packet.entries]
            simp [completeEntry]

theorem completeEntry_of_done {entries : List Entry}
    (completed : ∀ entry ∈ entries, entry.done = true) : completeEntry entries = entries := by
  have whole := completeEntry_append_done [] completed
  rwa [List.append_nil, completeEntry, List.append_nil] at whole

/-- The entry that is completed is the first that was not. -/
theorem completeEntry_eq_set {entries : List Entry} {k : Nat} {entry : Entry}
    (found : entries[k]? = some entry) (open' : entry.done = false)
    (before : ∀ j < k, ∀ other, entries[j]? = some other → other.done = true) :
    completeEntry entries = entries.set k { entry with done := true } := by
  induction entries generalizing k with
  | nil => simp at found
  | cons head entries ih =>
      cases k with
      | zero =>
          cases found
          rw [completeEntry_cons, open']
          rfl
      | succ k =>
          have first : head.done = true := before 0 (Nat.succ_pos k) head rfl
          rw [completeEntry_cons, if_pos first, List.set_cons_succ]
          congr 1
          apply ih found
          intro j below other at'
          exact before (j + 1) (Nat.succ_lt_succ below) other at'

theorem skb_completeFirst (pending : List Packet) :
    (completeFirst pending).map Packet.skb = pending.map Packet.skb := by
  induction pending with
  | nil => rfl
  | cons packet rest ih =>
      rw [completeFirst]
      split
      · rfl
      · split
        · rw [List.map_cons, List.map_cons, ih]
        · rfl

/-- The hardware completes the first descriptor of the queue that is not. -/
theorem hwComplete_represents (represents : Represents s pending) :
    Represents s.hwComplete (completeFirst pending) := by
  have entries := entries_completeFirst pending
  have window := represents.window
  have skbs := skb_completeFirst pending
  have atEntry {k : Nat} {entry : Entry}
      (found : (pending.flatMap Packet.entries)[k]? = some entry) :
      (s.cell (s.dirty + UInt32.ofNat k)).desc.empty = entry.done :=
    (window.inside k entry found).2.1
  unfold TxState.hwComplete
  split
  · rename_i none'
    have all : ∀ entry ∈ pending.flatMap Packet.entries, entry.done = true := by
      intro entry member
      obtain ⟨k, below, rfl⟩ := List.mem_iff_getElem.mp member
      have passed := List.find?_eq_none.mp none' k
        (List.mem_range.mpr (represents.used_eq.symm ▸ below))
      rw [← atEntry (List.getElem?_eq_getElem below)]
      simpa using passed
    rw [completeEntry_of_done all] at entries
    exact ⟨represents.small, entries.symm ▸ window, entries.symm ▸ represents.curr,
      skbs.symm ▸ represents.accepted⟩
  · rename_i k found
    obtain ⟨open', inRange, before⟩ := List.find?_range_eq_some.mp found
    have below := represents.used_eq ▸ List.mem_range.mp inRange
    have here := List.getElem?_eq_getElem below
    generalize (pending.flatMap Packet.entries)[k] = entry at here
    have pendingEntry : entry.done = false := by
      rw [← atEntry here]
      simpa using open'
    have set := completeEntry_eq_set here pendingEntry (by
      intro j earlier other at'
      rw [← atEntry at']
      simpa using before j earlier)
    rw [set] at entries
    have held : Entry.Holds { entry with done := true }
        ((s.cell (s.dirty + UInt32.ofNat k)).setCtrl
          ((s.cell (s.dirty + UInt32.ofNat k)).desc.ctrl ||| descEmpty)) := by
      obtain ⟨sameSkb, -, sameLen⟩ := window.inside k entry here
      exact ⟨sameSkb, empty_setEmpty, sameLen⟩
    constructor
    · exact represents.small
    · rw [entries]
      exact window.set (Nat.le_succ_of_le represents.small) below held
    · rw [entries, List.length_set]
      exact represents.curr
    · rw [skbs]
      exact represents.accepted

theorem hwComplete_frame (s : TxState) : s.hwComplete = { s with cells := s.hwComplete.cells } := by
  unfold TxState.hwComplete
  split <;> rfl

theorem hwComplete_balanced (balanced : Balanced s 0 pending) :
    Balanced s.hwComplete 0 (completeFirst pending) := by
  have skbs := congrArg (List.map Skb.len) (skb_completeFirst pending)
  rw [List.map_map, List.map_map] at skbs
  rw [hwComplete_frame]
  exact balanced.trans (congrArg (fun lens : List Nat => s.completedBytes + 0 + lens.sum) skbs.symm)

/-! ## Cleaning up -/

theorem cleaned_cons_of (gone : flush = true ∨ packet.Done) :
    cleaned flush (packet :: rest) = (packet :: (cleaned flush rest).1, (cleaned flush rest).2) := by
  have gone : (flush || decide packet.Done) = true := by simpa using gone
  simp only [cleaned, List.takeWhile_cons, List.dropWhile_cons, gone, if_true]

theorem cleaned_cons_of_not (rest : List Packet) (stays : flush = false) (open' : ¬packet.Done) :
    cleaned flush (packet :: rest) = ([], packet :: rest) := by
  have stays : (flush || decide packet.Done) = false := by simp [stays, open']
  simp only [cleaned, List.takeWhile_cons, List.dropWhile_cons, stays, Bool.false_eq_true, if_false]

theorem scan_window {entries : List Entry} {n : Nat} {entry : Entry} (small : s.order ≤ 31)
    (window : Window s.order Entry.Holds TxCell.Blank s.cells s.dirty entries)
    (here : entries[n]? = some entry) (pass : flush = true ∨ entry.done = true) :
    Window s.order Entry.Holds TxCell.Blank (s.scan flush (s.dirty + UInt32.ofNat n)).cells s.dirty
      (entries.set n { entry with done := true }) := by
  obtain ⟨sameSkb, sameDone, sameLen⟩ := window.inside n entry here
  obtain ⟨below, atEntry⟩ := List.getElem?_eq_some_iff.mp here
  cases flush with
  | true => exact window.set (Nat.le_succ_of_le small) below ⟨sameSkb, empty_setEmpty, sameLen⟩
  | false =>
      have done : entry.done = true := pass.resolve_left Bool.false_ne_true
      have same : { entry with done := true } = entry := by
        cases entry
        cases done
        rfl
      rw [same, ← atEntry, List.set_getElem_self]
      exact window

/-- A completed packet leaves the ring. -/
theorem popped_window {order n : Nat} {cells : Nat → TxCell} {start : UInt32} {behind : List Entry}
    {cell : TxCell}
    (window : Window order Entry.Holds TxCell.Blank cells start (packet.entries ++ behind))
    (small : order ≤ 31) (length : n = packet.more.length)
    (before : ∀ done ∈ packet.more, done = true) (blank : cell.Blank) :
    Window order Entry.Holds TxCell.Blank
      (Function.update cells (slot order (start + UInt32.ofNat n)) cell)
      (start + UInt32.ofNat (n + 1)) behind := by
  have small' := Nat.le_succ_of_le small
  have size : packet.entries.length = n + 1 := by
    rw [Packet.entries, List.length_append, List.length_map, List.length_singleton, length]
  have held : Entry.Holds ⟨none, true⟩ cell :=
    ⟨blank.2, blank.1, fun skb never => by cases never⟩
  have set := window.set small'
    (show n < (packet.entries ++ behind).length by rw [List.length_append]; omega) held
  rw [List.set_append_left _ _ (by omega)] at set
  have moved := set.advance small' (by
    intro k below
    rw [List.length_set, size] at below
    have done : (packet.entries.set n ⟨none, true⟩)[k]? = some ⟨none, true⟩ := by
      by_cases last : n = k
      · subst last
        exact List.getElem?_set_self (by omega)
      · have inMore : k < packet.more.length := by omega
        rw [List.getElem?_set_ne last, Packet.entries,
          List.getElem?_append_left (by rwa [List.length_map]), List.getElem?_map,
          List.getElem?_eq_getElem inMore, before _ (List.getElem_mem inMore)]
        rfl
    have here := set.inside k _ (by
      rw [List.getElem?_append_left (by rw [List.length_set]; omega)]
      exact done)
    exact ⟨here.2.1, here.1⟩)
  rw [List.length_set, size] at moved
  exact moved

theorem cleaned_flush (pending : List Packet) : cleaned true pending = (pending, []) := by
  induction pending with
  | nil => rfl
  | cons packet rest ih => rw [cleaned_cons_of (Or.inl rfl), ih]

theorem scan_eq (s : TxState) (flush : Bool) (counter : UInt32) :
    s.scan flush counter = { s with cells := (s.scan flush counter).cells } := by
  cases flush <;> rfl

/-! What the loop does with one descriptor. -/

theorem txLoop_stop {n : Nat} {done : Nat × Nat} (count : Nat)
    (pending : (s.cell (s.dirty + UInt32.ofNat n)).desc.empty = false) :
    s.txLoop false (count + 1) n done = (s, done) := by
  rw [TxState.txLoop, pending]
  rfl

theorem txLoop_pass {n : Nat} {done : Nat × Nat} (count : Nat)
    (pass : flush = true ∨ (s.cell (s.dirty + UInt32.ofNat n)).desc.empty = true)
    (skb : ((s.scan flush (s.dirty + UInt32.ofNat n)).cell
      (s.dirty + UInt32.ofNat n)).skb = none) :
    s.txLoop flush (count + 1) n done =
      (s.scan flush (s.dirty + UInt32.ofNat n)).txLoop flush count (n + 1) done := by
  have go : (!flush && !(s.cell (s.dirty + UInt32.ofNat n)).desc.empty) = false := by
    rcases pass with pass | pass <;> simp [pass]
  simp only [TxState.txLoop, go, Bool.false_eq_true, if_false, skb]

theorem txLoop_free {n sent bytesCompl : Nat} {skb : Skb} (count : Nat)
    (pass : flush = true ∨ (s.cell (s.dirty + UInt32.ofNat n)).desc.empty = true)
    (found : ((s.scan flush (s.dirty + UInt32.ofNat n)).cell
      (s.dirty + UInt32.ofNat n)).skb = some skb) :
    s.txLoop flush (count + 1) n (sent, bytesCompl) =
      ((s.scan flush (s.dirty + UInt32.ofNat n)).free skb n).txLoop flush count 0
        (sent + 1, bytesCompl + ((s.scan flush (s.dirty + UInt32.ofNat n)).cell
          (s.dirty + UInt32.ofNat n)).len) := by
  have go : (!flush && !(s.cell (s.dirty + UInt32.ofNat n)).desc.empty) = false := by
    rcases pass with pass | pass <;> simp [pass]
  simp only [TxState.txLoop, go, Bool.false_eq_true, if_false, found]

theorem entries_more {n : Nat} (rest : List Packet) (inside : n < packet.more.length) :
    ((packet :: rest).flatMap Packet.entries)[n]? = some ⟨none, packet.more[n]⟩ := by
  rw [List.flatMap_cons, Packet.entries, List.append_assoc,
    List.getElem?_append_left (by rwa [List.length_map]), List.getElem?_map,
    List.getElem?_eq_getElem inside]
  rfl

theorem entries_last :
    ((packet :: rest).flatMap Packet.entries)[packet.more.length]? =
      some ⟨some packet.skb, packet.last⟩ := by
  rw [List.flatMap_cons, Packet.entries, List.append_assoc,
    List.getElem?_append_right (by rw [List.length_map]), List.length_map, Nat.sub_self]
  rfl

/-- A descriptor without a frame: the loop goes on behind it. -/
theorem scan_represents {n : Nat} (represents : Represents s (packet :: rest))
    (inside : n < packet.more.length) (pass : flush = true ∨ packet.more[n] = true) :
    ((s.scan flush (s.dirty + UInt32.ofNat n)).cell (s.dirty + UInt32.ofNat n)).skb = none ∧
    Represents (s.scan flush (s.dirty + UInt32.ofNat n))
      ({ packet with more := packet.more.set n true } :: rest) := by
  have here := entries_more rest inside
  have window := scan_window represents.small represents.window here pass
  have held := window.inside n ⟨none, true⟩
    (List.getElem?_set_self (List.getElem?_eq_some_iff.mp here).1)
  have entries : ((packet :: rest).flatMap Packet.entries).set n ⟨none, true⟩ =
      ({ packet with more := packet.more.set n true } :: rest).flatMap Packet.entries := by
    rw [List.flatMap_cons, List.flatMap_cons, Packet.entries, Packet.entries, List.append_assoc,
      List.append_assoc, List.set_append_left _ _ (by rwa [List.length_map]), List.map_set]
  have length := congrArg List.length entries
  rw [List.length_set] at length
  rw [scan_eq]
  refine ⟨held.1, ?_⟩
  constructor
  · exact represents.small
  · rw [← entries]
    exact window
  · rw [← length]
    exact represents.curr
  · exact represents.accepted

/-- The last descriptor of a packet. -/
theorem popped_represents {n : Nat} (represents : Represents s (packet :: rest))
    (length : n = packet.more.length) (before : ∀ done ∈ packet.more, done = true)
    (pass : flush = true ∨ packet.last = true) :
    ((s.scan flush (s.dirty + UInt32.ofNat n)).cell (s.dirty + UInt32.ofNat n)).skb =
        some packet.skb ∧
      ((s.scan flush (s.dirty + UInt32.ofNat n)).cell (s.dirty + UInt32.ofNat n)).len =
        packet.skb.len ∧
      Represents ((s.scan flush (s.dirty + UInt32.ofNat n)).free packet.skb n) rest := by
  have here : ((packet :: rest).flatMap Packet.entries)[n]? =
      some ⟨some packet.skb, packet.last⟩ := length ▸ entries_last
  have window := scan_window represents.small represents.window here pass
  have entries : ((packet :: rest).flatMap Packet.entries).set n ⟨some packet.skb, true⟩ =
      ({ packet with last := true } : Packet).entries ++ rest.flatMap Packet.entries := by
    rw [List.flatMap_cons, Packet.entries, Packet.entries, List.append_assoc, List.append_assoc,
      List.set_append_right _ _ (by rw [List.length_map]; omega), List.length_map, length,
      Nat.sub_self]
    rfl
  rw [entries] at window
  have held := window.inside n ⟨some packet.skb, true⟩ (by
    rw [← entries, List.getElem?_set_self (List.getElem?_eq_some_iff.mp here).1])
  have moved := represents.curr
  rw [List.flatMap_cons, List.length_append, Packet.entries, List.length_append, List.length_map,
    List.length_singleton, ← length, ← add_ofNat_add] at moved
  obtain ⟨cells, after⟩ : ∃ cells, s.scan flush (s.dirty + UInt32.ofNat n) =
    { s with cells := cells } := ⟨_, scan_eq _ _ _⟩
  rw [after] at window held ⊢
  refine ⟨held.1, held.2.2 _ rfl, ?_⟩
  constructor
  · exact represents.small
  · exact popped_window window represents.small length before ⟨held.2.1, rfl⟩
  · exact moved
  · show s.accepted = s.freed ++ [packet.skb] ++ rest.map Packet.skb
    rw [List.append_assoc]
    exact represents.accepted

/-- What the loop can change. -/
theorem txLoop_frame (flush : Bool) (count n : Nat) (done : Nat × Nat) :
    ∃ cells dirty freed, (s.txLoop flush count n done).1 =
      { s with cells := cells, dirty := dirty, freed := freed } := by
  induction count generalizing s n done with
  | zero => exact ⟨s.cells, s.dirty, s.freed, rfl⟩
  | succ count ih =>
      rw [TxState.txLoop]
      dsimp only
      split
      · exact ⟨s.cells, s.dirty, s.freed, rfl⟩
      · rw [scan_eq]
        split
        · exact ih _ _
        · exact ih _ _

/-- A descriptor that the loop has passed makes no difference to what it takes away. -/
theorem cleaned_passed {n : Nat} (rest : List Packet) (inside : n < packet.more.length)
    (pass : flush = true ∨ packet.more[n] = true) :
    let passed := cleaned flush ({ packet with more := packet.more.set n true } :: rest)
    passed.1.map Packet.skb = (cleaned flush (packet :: rest)).1.map Packet.skb ∧
      passed.1.length = (cleaned flush (packet :: rest)).1.length ∧
      passed.2 = (cleaned flush (packet :: rest)).2 := by
  cases flush with
  | true =>
      rw [cleaned_flush, cleaned_flush]
      exact ⟨rfl, rfl, rfl⟩
  | false =>
      have done : packet.more[n] = true := pass.resolve_left Bool.false_ne_true
      have same : packet.more.set n true = packet.more := by
        rw [← done]
        exact List.set_getElem_self inside
      rw [same]
      exact ⟨rfl, rfl, rfl⟩

theorem take_set_done {flags : List Bool} {n : Nat} (before : ∀ done ∈ flags.take n, done = true) :
    ∀ done ∈ (flags.set n true).take (n + 1), done = true := by
  intro done member
  obtain ⟨k, below, rfl⟩ := List.mem_iff_getElem.mp member
  rw [List.length_take, List.length_set] at below
  rw [List.getElem_take, List.getElem_set]
  split
  · rfl
  · apply before
    rw [List.mem_take_iff_getElem]
    exact ⟨k, by omega, rfl⟩

/-- The loop takes away the packets in front that are completed, all of them on
a flush. Of the first packet it has passed `n` descriptors. -/
theorem txLoop_cleans {count n bytesCompl : Nat} (flush : Bool) (sent : Nat)
    (represents : Represents s pending)
    (balanced : Balanced s bytesCompl pending) (ahead : count + n = s.used)
    (inFirst : ∀ packet ∈ pending.head?, n ≤ packet.more.length ∧
      ∀ done ∈ packet.more.take n, done = true)
    (fromStart : pending = [] → n = 0) :
    ∃ after bytes, s.txLoop flush count n (sent, bytesCompl) =
        (after, sent + (cleaned flush pending).1.length, bytes) ∧
      Represents after (cleaned flush pending).2 ∧ Balanced after bytes (cleaned flush pending).2 ∧
      after.freed = s.freed ++ (cleaned flush pending).1.map Packet.skb := by
  have total := represents.used_eq
  induction count generalizing s pending n sent bytesCompl with
  | zero =>
      cases pending with
      | nil => exact ⟨s, bytesCompl, rfl, represents, balanced, (List.append_nil _).symm⟩
      | cons packet rest =>
          have := (inFirst packet rfl).1
          rw [List.flatMap_cons, List.length_append, Packet.entries, List.length_append,
            List.length_map, List.length_singleton] at total
          omega
  | succ count ih =>
      cases pending with
      | nil =>
          have := fromStart rfl
          rw [List.flatMap_nil, List.length_nil] at total
          omega
      | cons packet rest =>
          obtain ⟨within, before⟩ := inFirst packet rfl
          have empty {entry : Entry}
              (found : ((packet :: rest).flatMap Packet.entries)[n]? = some entry) :
              (s.cell (s.dirty + UInt32.ofNat n)).desc.empty = entry.done :=
            (represents.window.inside n entry found).2.1
          have stay (stays : flush = false) (open' : ¬packet.Done)
              (pending : (s.cell (s.dirty + UInt32.ofNat n)).desc.empty = false) :
              s.txLoop flush (count + 1) n (sent, bytesCompl) =
                (s, sent + (cleaned flush (packet :: rest)).1.length, bytesCompl) ∧
              (cleaned flush (packet :: rest)) = ([], packet :: rest) := by
            have none' := cleaned_cons_of_not rest stays open'
            rw [none']
            subst stays
            exact ⟨txLoop_stop count pending, rfl⟩
          by_cases inMore : n < packet.more.length
          · have here := entries_more rest inMore
            by_cases pass : flush = true ∨ packet.more[n] = true
            · obtain ⟨skb, scanned⟩ := scan_represents represents inMore pass
              rw [txLoop_pass count (by rw [empty here]; exact pass) skb]
              have kept := scan_eq s flush (s.dirty + UInt32.ofNat n)
              have unused : (s.scan flush (s.dirty + UInt32.ofNat n)).used = s.used := by
                rw [kept]
                rfl
              have ahead : count + (n + 1) = (s.scan flush (s.dirty + UInt32.ofNat n)).used := by
                rw [unused]
                omega
              have balanced : Balanced (s.scan flush (s.dirty + UInt32.ofNat n)) bytesCompl
                  ({ packet with more := packet.more.set n true } :: rest) := by
                rw [kept]
                exact balanced
              obtain ⟨after, bytes, ends, left, billed, freed⟩ := ih sent scanned balanced ahead
                (by
                  intro first member
                  cases member
                  refine ⟨?_, take_set_done before⟩
                  rw [List.length_set]
                  exact inMore)
                (fun never => by cases never) scanned.used_eq
              obtain ⟨skbs, length, same⟩ := cleaned_passed rest inMore pass
              rw [kept, skbs] at freed
              rw [same] at left billed
              exact ⟨after, bytes, by rw [ends, length], left, billed, freed⟩
            · obtain ⟨stays, open'⟩ := not_or.mp pass
              have stays : flush = false := by simpa using stays
              have open' : packet.more[n] = false := by simpa using open'
              obtain ⟨stop, none'⟩ := stay stays
                (fun done => by simpa [open'] using done.1 _ (List.getElem_mem inMore))
                ((empty here).trans open')
              refine ⟨s, bytesCompl, stop, ?_⟩
              rw [none']
              exact ⟨represents, balanced, (List.append_nil _).symm⟩
          · have length : n = packet.more.length := by omega
            have here : ((packet :: rest).flatMap Packet.entries)[n]? =
                some ⟨some packet.skb, packet.last⟩ := length ▸ entries_last
            rw [length, List.take_length] at before
            by_cases pass : flush = true ∨ packet.last = true
            · obtain ⟨skb, len, popped⟩ := popped_represents represents length before pass
              rw [txLoop_free count (by rw [empty here]; exact pass) skb, len]
              have kept := scan_eq s flush (s.dirty + UInt32.ofNat n)
              rw [List.flatMap_cons, List.length_append, Packet.entries, List.length_append,
                List.length_map, List.length_singleton] at total
              have balanced : Balanced
                  ((s.scan flush (s.dirty + UInt32.ofNat n)).free packet.skb n)
                  (bytesCompl + packet.skb.len) rest := by
                rw [kept]
                simp only [Balanced, TxState.free, TxState.setCell, List.map_cons,
                  List.sum_cons] at balanced ⊢
                omega
              obtain ⟨after, bytes, ends, left, billed, freed⟩ := ih (sent + 1) popped balanced
                (by rw [popped.used_eq]; omega)
                (fun first member => ⟨Nat.zero_le _, fun done never => by simp at never⟩)
                (fun _ => rfl) popped.used_eq
              have gone : flush = true ∨ packet.Done := pass.imp_right fun done => ⟨before, done⟩
              rw [cleaned_cons_of gone]
              refine ⟨after, bytes, ?_, left, billed, ?_⟩
              · rw [ends, List.length_cons, Nat.add_assoc, Nat.add_comm 1]
              · rw [freed, kept, List.map_cons]
                show s.freed ++ [packet.skb] ++ _ = _
                rw [List.append_assoc]
                rfl
            · obtain ⟨stays, open'⟩ := not_or.mp pass
              have stays : flush = false := by simpa using stays
              obtain ⟨stop, none'⟩ := stay stays (fun done => open' done.2)
                ((empty here).trans (by simpa using open'))
              refine ⟨s, bytesCompl, stop, ?_⟩
              rw [none']
              exact ⟨represents, balanced, (List.append_nil _).symm⟩

/-- The result of `ag71xx_tx_packets` is the number of frames that it freed. -/
theorem txPackets_cleans (flush : Bool) (represents : Represents s pending) (balanced : Balanced s 0 pending) :
    Represents (s.txPackets flush).1 (cleaned flush pending).2 ∧
      Balanced (s.txPackets flush).1 0 (cleaned flush pending).2 ∧
      (s.txPackets flush).1.freed = s.freed ++ (cleaned flush pending).1.map Packet.skb ∧
      (s.txPackets flush).2 = (cleaned flush pending).1.length := by
  obtain ⟨after, bytes, ends, left, billed, freed⟩ := txLoop_cleans flush 0
    represents balanced (Nat.add_zero s.used)
    (fun first member => ⟨Nat.zero_le _, fun done never => by simp at never⟩) (fun _ => rfl)
  obtain ⟨cells, dirty, frees, frame⟩ := txLoop_frame (s := s) flush s.used 0 (0, 0)
  rw [ends] at frame
  rw [Nat.zero_add] at ends
  simp only [TxState.txPackets, ends]
  by_cases none' : (cleaned flush pending).1.length = 0
  · rw [if_pos none']
    refine ⟨left, ?_, freed, none'.symm⟩
    -- nothing was freed, so that no bytes are owed
    have whole : (cleaned flush pending).2 = pending := by
      have split : (cleaned flush pending).1 ++ (cleaned flush pending).2 = pending :=
        List.takeWhile_append_dropWhile
      rw [List.eq_nil_of_length_eq_zero none'] at split
      exact split
    have frame : after = { s with cells := cells, dirty := dirty, freed := frees } := frame
    rw [whole] at billed ⊢
    rw [frame] at billed ⊢
    simp only [Balanced] at balanced billed ⊢
    omega
  · rw [if_neg none']
    have paid : Balanced { after with completedBytes := after.completedBytes + bytes } 0
        (cleaned flush pending).2 := by
      simp only [Balanced] at billed ⊢
      omega
    split
    · exact ⟨⟨left.small, left.window, left.curr, left.accepted⟩, paid, freed, rfl⟩
    · exact ⟨⟨left.small, left.window, left.curr, left.accepted⟩, paid, freed, rfl⟩

end Rut9xx.Ag71xx
