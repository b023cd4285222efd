import Mathlib.Data.UInt
import Mathlib.Logic.Function.Basic

namespace Rut9xx.Data

/-! # Rings under free-running counters

A counter of 32 bits runs freely and its low `order` bits pick the slot. -/

variable {order : Nat}

def slot (order : Nat) (counter : UInt32) : Nat := counter.toNat % 2 ^ order

theorem slot_add (small : order ≤ 32) (counter : UInt32) (k : Nat) :
    slot order (counter + UInt32.ofNat k) = (counter.toNat + k) % 2 ^ order := by
  have divides : 2 ^ order ∣ 2 ^ 32 := Nat.pow_dvd_pow 2 small
  rw [slot, UInt32.toNat_add, UInt32.toNat_ofNat', Nat.mod_mod_of_dvd _ divides,
    Nat.add_mod, Nat.mod_mod_of_dvd _ divides, ← Nat.add_mod]

/-- One lap of the ring meets every slot once. -/
theorem slot_inj (small : order ≤ 32) {counter : UInt32} {k l : Nat} (first : k < 2 ^ order)
    (second : l < 2 ^ order)
    (same : slot order (counter + UInt32.ofNat k) = slot order (counter + UInt32.ofNat l)) :
    k = l := by
  rw [slot_add small, slot_add small] at same
  have residues : k % 2 ^ order = l % 2 ^ order := Nat.ModEq.add_left_cancel' counter.toNat same
  rwa [Nat.mod_eq_of_lt first, Nat.mod_eq_of_lt second] at residues

theorem add_ofNat_add (counter : UInt32) (k l : Nat) :
    counter + UInt32.ofNat k + UInt32.ofNat l = counter + UInt32.ofNat (k + l) := by
  rw [UInt32.ofNat_add, ← UInt32.add_assoc]

@[simp] theorem add_ofNat_zero (counter : UInt32) : counter + UInt32.ofNat 0 = counter :=
  UInt32.add_zero counter

theorem slot_lap (small : order ≤ 32) (counter : UInt32) (k : Nat) :
    slot order (counter + UInt32.ofNat (k + 2 ^ order)) = slot order (counter + UInt32.ofNat k) := by
  rw [slot_add small, slot_add small, ← Nat.add_assoc, Nat.add_mod_right]

/-- The distance of two counters that are less than the range apart. -/
theorem distance (counter : UInt32) {k : Nat} (bound : k < 2 ^ 32) :
    (counter + UInt32.ofNat k - counter).toNat = k := by
  have := counter.toNat_lt
  rw [UInt32.toNat_sub, UInt32.toNat_add, UInt32.toNat_ofNat']
  omega

/-! ## What lies in the slots from a counter on -/

variable {α β : Type} {holds : β → α → Prop} {blank : α → Prop} {cells : Nat → α}
  {start : UInt32} {items : List β} {item : β} {cell : α}

/-- The slots from `start` on hold the items one after the other, and the slots
behind them are blank. -/
structure Window (order : Nat) (holds : β → α → Prop) (blank : α → Prop) (cells : Nat → α)
    (start : UInt32) (items : List β) : Prop where
  fits : items.length ≤ 2 ^ order
  inside : ∀ k item, items[k]? = some item → holds item (cells (slot order (start + UInt32.ofNat k)))
  outside : ∀ k, items.length ≤ k → k < 2 ^ order →
    blank (cells (slot order (start + UInt32.ofNat k)))

namespace Window

/-- A cell changes, and its item with it. -/
theorem set (small : order ≤ 32) (window : Window order holds blank cells start items) {k : Nat}
    (bound : k < items.length) (held : holds item cell) :
    Window order holds blank
      (Function.update cells (slot order (start + UInt32.ofNat k)) cell) start
      (items.set k item) := by
  have lap := Nat.lt_of_lt_of_le bound window.fits
  constructor
  · rw [List.length_set]
    exact window.fits
  · intro j other found
    have inList : j < items.length := by
      have := List.getElem?_eq_some_iff.mp found
      obtain ⟨below, -⟩ := this
      rwa [List.length_set] at below
    by_cases same : k = j
    · subst same
      rw [List.getElem?_set_self bound] at found
      cases found
      rw [Function.update_self]
      exact held
    · rw [List.getElem?_set_ne same] at found
      have apart : slot order (start + UInt32.ofNat j) ≠ slot order (start + UInt32.ofNat k) :=
        fun met => same (slot_inj small (Nat.lt_of_lt_of_le inList window.fits) lap met).symm
      rw [Function.update_of_ne apart]
      exact window.inside j other found
  · intro j behind below
    rw [List.length_set] at behind
    have apart : slot order (start + UInt32.ofNat j) ≠ slot order (start + UInt32.ofNat k) := by
      intro met
      have := slot_inj small below lap met
      omega
    rw [Function.update_of_ne apart]
    exact window.outside j behind below

/-- The blank slots behind the window take more items. -/
theorem extend (small : order ≤ 32) (window : Window order holds blank cells start items)
    {new : List β} {after : Nat → α} (room : items.length + new.length ≤ 2 ^ order)
    (held : ∀ k item, new[k]? = some item →
      holds item (after (slot order (start + UInt32.ofNat (items.length + k)))))
    (kept : ∀ index, (∀ k < new.length,
      index ≠ slot order (start + UInt32.ofNat (items.length + k))) → after index = cells index) :
    Window order holds blank after start (items ++ new) := by
  have same {j : Nat} (below : j < 2 ^ order)
      (other : j < items.length ∨ items.length + new.length ≤ j) :
      after (slot order (start + UInt32.ofNat j)) = cells (slot order (start + UInt32.ofNat j)) := by
    apply kept
    intro k inNew met
    have := slot_inj small below (by omega) met
    omega
  constructor
  · rw [List.length_append]
    exact room
  · intro j item found
    by_cases old : j < items.length
    · rw [List.getElem?_append_left old] at found
      rw [same (by omega) (Or.inl old)]
      exact window.inside j item found
    · rw [List.getElem?_append_right (Nat.le_of_not_lt old)] at found
      have here := held _ item found
      rwa [Nat.add_sub_cancel' (Nat.le_of_not_lt old)] at here
  · intro j behind below
    rw [List.length_append] at behind
    rw [same below (Or.inr behind)]
    exact window.outside j (by omega) below

/-- The window moves on past items whose slots are blank by now. -/
theorem advance (small : order ≤ 32) {front : List β}
    (window : Window order holds blank cells start (front ++ items))
    (left : ∀ k < front.length, blank (cells (slot order (start + UInt32.ofNat k)))) :
    Window order holds blank cells (start + UInt32.ofNat front.length) items := by
  have size := window.fits
  rw [List.length_append] at size
  constructor
  · omega
  · intro j item found
    rw [add_ofNat_add]
    apply window.inside
    rw [List.getElem?_append_right (by omega), Nat.add_sub_cancel_left]
    exact found
  · intro j behind below
    rw [add_ofNat_add]
    by_cases lap : front.length + j < 2 ^ order
    · exact window.outside _ (by rw [List.length_append]; omega) lap
    · -- the slots past the lap are those of the items left behind
      obtain ⟨k, behindLap⟩ : ∃ k, front.length + j = k + 2 ^ order :=
        ⟨front.length + j - 2 ^ order, by omega⟩
      rw [behindLap, slot_lap small]
      exact left k (by omega)

/-- A window around the whole ring moves on by one slot. -/
theorem rotate (small : order ≤ 32) (window : Window order holds blank cells start (item :: items))
    (whole : items.length + 1 = 2 ^ order) :
    Window order holds blank cells (start + UInt32.ofNat 1) (items ++ [item]) := by
  constructor
  · rw [List.length_append, List.length_singleton]
    omega
  · intro k other found
    rw [add_ofNat_add, Nat.add_comm 1]
    by_cases last : k = items.length
    · rw [last, List.getElem?_concat_length] at found
      rw [last, whole, ← Nat.zero_add (2 ^ order), slot_lap small]
      exact window.inside 0 other found
    · have below : k < items.length := by
        obtain ⟨below, -⟩ := List.getElem?_eq_some_iff.mp found
        rw [List.length_append, List.length_singleton] at below
        omega
      rw [List.getElem?_append_left below] at found
      exact window.inside (k + 1) other found
  · intro k behind below
    rw [List.length_append, List.length_singleton] at behind
    omega

/-- Changes that keep what is held and what is blank. -/
theorem mono {after : Nat → α} {holds' : β → α → Prop} {blank' : α → Prop}
    (window : Window order holds blank cells start items)
    (kept : ∀ item index, holds item (cells index) → holds' item (after index))
    (still : ∀ index, blank (cells index) → blank' (after index)) :
    Window order holds' blank' after start items where
  fits := window.fits
  inside := fun k item found => kept item _ (window.inside k item found)
  outside := fun k behind below => still _ (window.outside k behind below)

end Window

end Rut9xx.Data
