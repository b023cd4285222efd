import Mathlib.Data.UInt

namespace Rut9xx.Data

/-! # Spans of a 32-bit address space

A span is a start address and a byte count.  It may run past the top of the
address space, where it continues at address zero, so inclusion is decided on
the distance between the starts and not on the starts themselves.
-/

section

structure AddressSpan where
  start : UInt32
  size : Nat
  deriving DecidableEq, Repr

namespace AddressSpan

variable {outer inner : AddressSpan}

def Contains (span : AddressSpan) (address : UInt32) : Prop :=
  (address - span.start).toNat < span.size

instance (span : AddressSpan) (address : UInt32) : Decidable (span.Contains address) :=
  inferInstanceAs (Decidable ((address - span.start).toNat < span.size))

/-- Every address of `inner` is an address of `outer`. -/
def Covers (outer inner : AddressSpan) : Prop :=
  ∀ address, inner.Contains address → outer.Contains address

/-- How far into `outer` the last byte of `inner` lies, counted from `outer.start`. -/
def extent (outer inner : AddressSpan) : Nat :=
  (inner.start - outer.start).toNat + inner.size

theorem covers_of_extent_le (fits : outer.extent inner ≤ outer.size) : outer.Covers inner := by
  intro address member
  simp only [Contains, extent, UInt32.toNat_sub] at *
  have startBound := inner.start.toNat_lt
  have outerBound := outer.start.toNat_lt
  have addressBound := address.toNat_lt
  omega

/-- The byte that sits `outer.size` past `outer.start` is outside `outer`, so a
longer `inner` cannot be covered. -/
theorem extent_le_of_covers (bound : outer.size < 2 ^ 32) (nonempty : 0 < inner.size)
    (covers : outer.Covers inner) : outer.extent inner ≤ outer.size := by
  have first := covers inner.start (by simpa [Contains] using nonempty)
  by_contra overrun
  simp only [extent, Contains] at *
  have last := covers (outer.start + UInt32.ofNat outer.size) (by
    simp only [Contains, UInt32.toNat_sub, UInt32.toNat_add, UInt32.toNat_ofNat'] at *
    have startBound := inner.start.toNat_lt
    have outerBound := outer.start.toNat_lt
    omega)
  simp only [Contains, UInt32.toNat_sub, UInt32.toNat_add, UInt32.toNat_ofNat'] at *
  have startBound := inner.start.toNat_lt
  have outerBound := outer.start.toNat_lt
  omega

theorem covers_iff_extent_le (bound : outer.size < 2 ^ 32) (nonempty : 0 < inner.size) :
    outer.Covers inner ↔ outer.extent inner ≤ outer.size :=
  ⟨extent_le_of_covers bound nonempty, covers_of_extent_le⟩

/-- Covering two adjacent spans is covering their concatenation. -/
theorem covers_append_iff {start : UInt32} {front back : Nat} (bound : front < 2 ^ 32) :
    outer.Covers ⟨start, front⟩ ∧ outer.Covers ⟨start + UInt32.ofNat front, back⟩ ↔
      outer.Covers ⟨start, front + back⟩ := by
  have split (address : UInt32) :
      (AddressSpan.mk start (front + back)).Contains address ↔
        (AddressSpan.mk start front).Contains address ∨
          (AddressSpan.mk (start + UInt32.ofNat front) back).Contains address := by
    simp only [Contains, UInt32.toNat_sub, UInt32.toNat_add, UInt32.toNat_ofNat']
    have startBound := start.toNat_lt
    have addressBound := address.toNat_lt
    omega
  constructor
  · rintro ⟨coversFront, coversBack⟩ address member
    exact ((split address).mp member).elim (coversFront address) (coversBack address)
  · intro covers
    exact ⟨fun address member => covers address ((split address).mpr (.inl member)),
      fun address member => covers address ((split address).mpr (.inr member))⟩

end AddressSpan

end

/-! # Extents laid one after the other

An extent is the pair of its first and its last position. -/

section

def Apart (one other : Nat × Nat) : Prop := one.2 < other.1 ∨ other.2 < one.1

instance (one other : Nat × Nat) : Decidable (Apart one other) :=
  inferInstanceAs (Decidable (_ ∨ _))

/-- Each extent begins at `lower` or behind the one before, and all end before `upper`. -/
def Ascending (lower : Nat) : List (Nat × Nat) → Nat → Prop
  | [], upper => lower ≤ upper
  | extent :: rest, upper =>
      lower ≤ extent.1 ∧ extent.1 ≤ extent.2 ∧ Ascending (extent.2 + 1) rest upper

variable {lower upper : Nat} {extents : List (Nat × Nat)}

theorem Ascending.weaken {below : Nat} (ascending : Ascending lower extents upper)
    (before : below ≤ lower) : Ascending below extents upper := by
  cases extents with
  | nil => exact Nat.le_trans before ascending
  | cons extent rest => exact ⟨Nat.le_trans before ascending.1, ascending.2⟩

theorem Ascending.le (ascending : Ascending lower extents upper) : lower ≤ upper := by
  induction extents generalizing lower with
  | nil => exact ascending
  | cons extent rest ih =>
      obtain ⟨first, last, tail⟩ := ascending
      have := ih tail
      omega

theorem Ascending.bounds (ascending : Ascending lower extents upper) :
    ∀ extent ∈ extents, lower ≤ extent.1 ∧ extent.1 ≤ extent.2 ∧ extent.2 < upper := by
  induction extents generalizing lower with
  | nil => intro extent member; cases member
  | cons head rest ih =>
      obtain ⟨first, last, tail⟩ := ascending
      intro extent member
      cases member with
      | head => exact ⟨first, last, tail.le⟩
      | tail _ member =>
          have := ih tail extent member
          omega

theorem Ascending.pairwise (ascending : Ascending lower extents upper) :
    extents.Pairwise Apart := by
  induction extents generalizing lower with
  | nil => exact List.Pairwise.nil
  | cons head rest ih =>
      obtain ⟨-, -, tail⟩ := ascending
      refine List.Pairwise.cons ?_ (ih tail)
      intro extent member
      have := (tail.bounds extent member).1
      exact Or.inl (by omega)

end

end Rut9xx.Data
