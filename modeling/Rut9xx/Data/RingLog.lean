import Mathlib.Data.Fin.Basic
import Mathlib.Data.List.Basic
import Mathlib.Data.Nat.ModEq

namespace Rut9xx.Data

/-! # The end of a log in a ring of cells

Entry by entry a log goes round the ring; the last lap is what the cells hold.
-/

variable {α : Type} {capacity : Nat} [NeZero capacity] {blank item : α} {cells : Fin capacity → α}
  {log : List α} {index other : Nat}

abbrev ringSlot (capacity : Nat) [NeZero capacity] (index : Nat) : Fin capacity :=
  Fin.ofNat capacity index

/-- An entry that no later one has replaced. -/
structure InLap (capacity : Nat) (log : List α) (index : Nat) : Prop where
  logged : index < log.length
  last : log.length ≤ index + capacity

structure InRing (blank : α) (cells : Fin capacity → α) (log : List α) : Prop where
  held : ∀ index, InLap capacity log index → log[index]? = some (cells (ringSlot capacity index))
  unused : ∀ slot : Fin capacity, log.length ≤ slot → cells slot = blank

theorem ringSlot_inj (near : other < index + capacity) (reached : index ≤ other)
    (same : ringSlot capacity index = ringSlot capacity other) : index = other := by
  have residues : Nat.ModEq capacity index other := congrArg Fin.val same
  obtain ⟨laps, gap⟩ := (Nat.modEq_iff_dvd' reached).mp residues
  rcases Nat.eq_zero_or_pos laps with rfl | some'
  · omega
  · have lap : capacity * 1 ≤ capacity * laps := Nat.mul_le_mul_left capacity some'
    omega

namespace InRing

theorem nil (unused : ∀ slot, cells slot = blank) : InRing blank cells [] :=
  ⟨fun _ lap => absurd lap.logged (Nat.not_lt_zero _), fun slot _ => unused slot⟩

/-- A new entry goes into the next cell of the ring. -/
theorem push (ring : InRing blank cells log) :
    InRing blank (Function.update cells (ringSlot capacity log.length) item) (log ++ [item]) := by
  constructor
  · intro index lap
    have logged := lap.logged
    have last := lap.last
    rw [List.length_append, List.length_singleton] at logged last
    rcases Nat.eq_or_lt_of_le (Nat.le_of_lt_succ logged) with rfl | before
    · rw [List.getElem?_concat_length, Function.update_self]
    · have apart : ringSlot capacity index ≠ ringSlot capacity log.length := fun same =>
        absurd (ringSlot_inj (by omega) (Nat.le_of_lt before) same) (Nat.ne_of_lt before)
      rw [List.getElem?_append_left before, Function.update_of_ne apart]
      exact ring.held index ⟨before, by omega⟩
  · intro slot behind
    rw [List.length_append, List.length_singleton] at behind
    have apart : slot ≠ ringSlot capacity log.length := by
      rintro rfl
      have below : log.length % capacity ≤ log.length := Nat.mod_le _ _
      change log.length + 1 ≤ log.length % capacity at behind
      omega
    rw [Function.update_of_ne apart]
    exact ring.unused slot (by omega)

/-- An entry of the last lap changes in its cell. -/
theorem alter (ring : InRing blank cells log) (lap : InLap capacity log index) :
    InRing blank (Function.update cells (ringSlot capacity index) item) (log.set index item) := by
  constructor
  · intro other otherLap
    have logged := otherLap.logged
    have last := otherLap.last
    have logged' := lap.logged
    have last' := lap.last
    rw [List.length_set] at logged last
    by_cases same : index = other
    · subst same
      rw [List.getElem?_set_self logged, Function.update_self]
    · have apart : ringSlot capacity other ≠ ringSlot capacity index := by
        intro meets
        rcases Nat.le_total index other with before | behind
        · exact same (ringSlot_inj (by omega) before meets.symm)
        · exact same (ringSlot_inj (by omega) behind meets).symm
      rw [List.getElem?_set_ne same, Function.update_of_ne apart]
      exact ring.held other ⟨logged, last⟩
  · intro slot behind
    rw [List.length_set] at behind
    have apart : slot ≠ ringSlot capacity index := by
      rintro rfl
      have below : index % capacity ≤ index := Nat.mod_le _ _
      have logged := lap.logged
      change log.length ≤ index % capacity at behind
      omega
    rw [Function.update_of_ne apart]
    exact ring.unused slot behind

/-- A cell is unused or holds an entry of the last lap. -/
theorem cell (ring : InRing blank cells log) (slot : Fin capacity) :
    cells slot = blank ∨
      ∃ index, InLap capacity log index ∧ ringSlot capacity index = slot ∧
        log[index]? = some (cells slot) := by
  rcases Nat.lt_or_ge slot.val log.length with used | unused
  · right
    have positive : 0 < capacity := Nat.pos_of_neZero capacity
    have laps := Nat.div_add_mod (log.length - 1 - slot.val) capacity
    have rest := Nat.mod_lt (log.length - 1 - slot.val) positive
    have lap : InLap capacity log (slot.val + capacity * ((log.length - 1 - slot.val) / capacity)) :=
      ⟨by omega, by omega⟩
    have here : ringSlot capacity (slot.val + capacity * ((log.length - 1 - slot.val) / capacity)) =
        slot := by
      apply Fin.ext
      show (slot.val + capacity * _) % capacity = slot.val
      rw [Nat.add_mul_mod_self_left, Nat.mod_eq_of_lt slot.isLt]
    refine ⟨_, lap, here, ?_⟩
    rw [ring.held _ lap, here]
  · exact .inl (ring.unused slot unused)

end InRing

end Rut9xx.Data
