import Mathlib.Data.List.Basic

namespace Rut9xx.Data

/-! # Lists of distinct items at the front of an array

The item that came last stands at the end.  What is taken out is closed up by
shifting the cells behind it.
-/

section

variable {α : Type} {cells : List α} {start count : Nat}

/-- `count` cells from `start` on take what the next one holds; none where there is no such cell. -/
def shiftDown (cells : List α) (start : Nat) : Nat → Option (List α)
  | 0 => some cells
  | count + 1 => do
      let next ← cells[start + 1]?
      shiftDown (cells.set start next) (start + 1) count

theorem shiftDown_eq (inside : start + count < cells.length) :
    shiftDown cells start count =
      some (cells.take start ++ (cells.drop (start + 1)).take count ++ cells.drop (start + count)) := by
  induction count generalizing cells start with
  | zero =>
      simp [shiftDown]
  | succ count ih =>
      have held : cells[start + 1]? = some cells[start + 1] := List.getElem?_eq_getElem (by omega)
      rw [shiftDown, held, Option.bind_eq_bind, Option.bind_some, ih (by rw [List.length_set]; omega)]
      have front : (cells.set start cells[start + 1]).take (start + 1) =
          cells.take start ++ [cells[start + 1]] := by
        rw [List.take_set, List.take_succ_eq_append_getElem (by omega), List.set_append,
          if_neg (by rw [List.length_take]; omega), List.length_take, Nat.min_eq_left (by omega),
          Nat.sub_self, List.set_cons_zero]
      have behind : cells.drop (start + 1) = cells[start + 1] :: cells.drop (start + 2) :=
        List.drop_eq_getElem_cons (by omega)
      rw [front, List.drop_set_of_lt (by omega), List.drop_set_of_lt (by omega), behind,
        List.take_succ_cons]
      simp [Nat.add_assoc, Nat.add_comm 1 count]

/-- The cell at `start` is taken out of the `count` used ones. -/
theorem shiftDown_removes (inside : start < count) (room : count ≤ cells.length) :
    ∃ shifted, shiftDown cells start (count - 1 - start) = some shifted ∧
      shifted.length = cells.length ∧
      shifted.take (count - 1) = (cells.take count).eraseIdx start := by
  have whole : start + (count - 1 - start) = count - 1 := by omega
  refine ⟨_, shiftDown_eq (by omega), ?_, ?_⟩
  · simp only [List.length_append, List.length_take, List.length_drop]
    omega
  · rw [whole, List.take_left' (by simp only [List.length_append, List.length_take, List.length_drop]; omega),
      List.eraseIdx_eq_take_drop_succ, List.take_take, Nat.min_eq_left (by omega), List.drop_take]
    congr 2
    omega

end

/-! ## What is brought to the end -/

section

variable {α : Type} {same : α → α → Bool} {items : List α} {item : α} {capacity : Nat}

/-- No two items are the same. -/
def Distinct (same : α → α → Bool) (items : List α) : Prop :=
  items.Pairwise fun first second => same first second = false

/-- The other items: those without the one that is the same. -/
def without (same : α → α → Bool) (items : List α) (item : α) : List α :=
  items.eraseP (same · item)

/-- Behind at most `capacity - 1` others, of which the oldest give way. -/
def bringToEnd (capacity : Nat) (same : α → α → Bool) (items : List α) (item : α) : List α :=
  (without same items item).drop ((without same items item).length + 1 - capacity) ++ [item]

theorem Distinct.taken (distinct : Distinct same items) (item : α) :
    Distinct same (without same items item) :=
  List.Pairwise.eraseP _ distinct

theorem Distinct.add (distinct : Distinct same items) (new : ∀ other ∈ items, same other item = false) :
    Distinct same (items ++ [item]) := by
  rw [Distinct, List.pairwise_append]
  refine ⟨distinct, List.pairwise_singleton _ _, ?_⟩
  intro other member last only
  rw [List.mem_singleton.mp only]
  exact new other member

theorem without_eq_self (new : ∀ other ∈ items, same other item = false) :
    without same items item = items :=
  List.eraseP_of_forall_not fun other member matched => by
    rw [new other member] at matched
    cases matched

/-- Among distinct items only one can be the same as another item. -/
theorem Distinct.not_same (distinct : Distinct same items)
    (symmetric : ∀ {first second}, same first second = true → same second first = true)
    (transitive : ∀ {first second third}, same first second = true → same second third = true →
      same first third = true) :
    ∀ other ∈ without same items item, same other item = false := by
  induction items with
  | nil =>
      intro other member
      cases member
  | cons first rest ih =>
      obtain ⟨apart, distinctRest⟩ := List.pairwise_cons.mp distinct
      intro other member
      cases here : same first item with
      | true =>
          rw [without, List.eraseP_cons_of_pos (p := (same · item)) here] at member
          cases there : same other item with
          | false => rfl
          | true =>
              have both := transitive here (symmetric there)
              rw [apart other member] at both
              cases both
      | false =>
          rw [without, List.eraseP_cons_of_neg (p := (same · item)) (by simp [here])] at member
          rcases List.mem_cons.mp member with rfl | behind
          · exact here
          · exact ih distinctRest other behind

/-- The oldest item gives way to a new one where there is no room for both. -/
theorem bringToEnd_eq (fits : items.length ≤ capacity) :
    bringToEnd capacity same items item =
      if items.length = capacity ∧ ∀ other ∈ items, same other item = false then
        items.tail ++ [item]
      else without same items item ++ [item] := by
  by_cases full : items.length = capacity ∧ ∀ other ∈ items, same other item = false
  · obtain ⟨length, new⟩ := full
    rw [if_pos ⟨length, new⟩, bringToEnd, without_eq_self new, length, Nat.add_sub_cancel_left,
      List.drop_one]
  · have room : (without same items item).length < capacity := by
      rw [without, List.length_eraseP]
      split
      · rename_i matched
        obtain ⟨other, member, -⟩ := List.any_eq_true.mp matched
        have some' := List.length_pos_of_mem member
        omega
      · rename_i unmatched
        have short : items.length ≠ capacity := by
          intro length
          refine full ⟨length, fun other member => Bool.eq_false_iff.mpr fun matched => ?_⟩
          exact unmatched (List.any_eq_true.mpr ⟨other, member, matched⟩)
        omega
    rw [if_neg full, bringToEnd, Nat.sub_eq_zero_of_le room, List.drop_zero]

theorem length_bringToEnd (positive : 0 < capacity) :
    (bringToEnd capacity same items item).length ≤ capacity := by
  simp only [bringToEnd, List.length_append, List.length_drop, List.length_singleton]
  omega

theorem Distinct.brought (distinct : Distinct same items)
    (symmetric : ∀ {first second}, same first second = true → same second first = true)
    (transitive : ∀ {first second third}, same first second = true → same second third = true →
      same first third = true) :
    Distinct same (bringToEnd capacity same items item) := by
  have kept := (distinct.taken item).sublist (List.drop_sublist
    ((without same items item).length + 1 - capacity) _)
  refine Distinct.add kept fun other member => ?_
  exact distinct.not_same symmetric transitive other (List.mem_of_mem_drop member)

end

end Rut9xx.Data
