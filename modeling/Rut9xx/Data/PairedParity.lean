import Mathlib.Data.Nat.Bitwise
import Mathlib.Data.List.Nodup

namespace Rut9xx.Data

/-! # Parities kept in pairs

Each bit of a position has two parities: one over the positions that have it set, one over the
others. Flipping one position flips one parity of every pair. -/

variable {low high other another : Nat → Bool} {count position place : Nat}

/-- One of each pair is set. -/
def Single (low high : Nat → Bool) (count : Nat) : Prop :=
  ∀ pair, pair < count → low pair ≠ high pair

/-- The upper ones that are set are the bits of `position`. -/
def Spells (low high : Nat → Bool) (count position : Nat) : Prop :=
  ∀ pair, pair < count → high pair = position.testBit pair ∧ low pair = !position.testBit pair

theorem Spells.single (spells : Spells low high count position) : Single low high count := by
  intro pair inside
  obtain ⟨upper, lower⟩ := spells pair inside
  rw [upper, lower]
  exact Bool.not_ne_self _

/-- Two positions flipped cancel in every pair they agree in and set both of the others. -/
theorem Spells.twice (first : Spells low high count position)
    (second : Spells other another count place) (pair : Nat) (inside : pair < count) :
    ((low pair ^^ other pair) = (position.testBit pair ^^ place.testBit pair)) ∧
      ((high pair ^^ another pair) = (position.testBit pair ^^ place.testBit pair)) := by
  obtain ⟨upper, lower⟩ := first pair inside
  obtain ⟨upper', lower'⟩ := second pair inside
  rw [upper, lower, upper', lower']
  exact ⟨Bool.not_xor_not .., rfl⟩

theorem Spells.twice_not_single (first : Spells low high count position)
    (second : Spells other another count place) (some' : 0 < count) :
    ¬ Single (fun pair => low pair ^^ other pair) (fun pair => high pair ^^ another pair) count := by
  intro single
  obtain ⟨lower, upper⟩ := first.twice second 0 some'
  exact single 0 some' (lower.trans upper.symm)

theorem Spells.twice_set (first : Spells low high count position)
    (second : Spells other another count place) (below : position < 2 ^ count)
    (below' : place < 2 ^ count) (apart : position ≠ place) :
    ∃ pair, pair < count ∧ (high pair ^^ another pair) = true := by
  obtain ⟨pair, differs⟩ := Nat.exists_testBit_ne_of_ne apart
  have inside : pair < count := by
    by_contra outside
    have large : 2 ^ count ≤ 2 ^ pair := Nat.pow_le_pow_right (by decide) (Nat.le_of_not_lt outside)
    rw [Nat.testBit_lt_two_pow (below.trans_le large),
      Nat.testBit_lt_two_pow (below'.trans_le large)] at differs
    exact differs rfl
  refine ⟨pair, inside, ?_⟩
  rw [(first.twice second pair inside).2]
  exact bne_iff_ne.mpr differs

/-! ## A fold one of whose terms changes -/

variable {ι β : Type} {op : β → β → β} {terms changed : ι → β} {indices : List ι} {index : ι}
  {start delta : β}

theorem foldl_delta [Std.Associative op] [Std.Commutative op] :
    indices.foldl (fun total index => op total (terms index)) (op start delta) =
      op (indices.foldl (fun total index => op total (terms index)) start) delta := by
  induction indices generalizing start with
  | nil => rfl
  | cons index rest ih =>
      rw [List.foldl_cons, List.foldl_cons, ← ih]
      congr 1
      ac_rfl

theorem foldl_changed [Std.Associative op] [Std.Commutative op] (nodup : indices.Nodup)
    (member : index ∈ indices) (here : changed index = op (terms index) delta)
    (elsewhere : ∀ other, other ≠ index → changed other = terms other) :
    indices.foldl (fun total index => op total (changed index)) start =
      op (indices.foldl (fun total index => op total (terms index)) start) delta := by
  induction indices generalizing start with
  | nil => contradiction
  | cons first rest ih =>
      rw [List.foldl_cons, List.foldl_cons]
      obtain ⟨fresh, restNodup⟩ := List.nodup_cons.mp nodup
      rcases List.mem_cons.mp member with rfl | later
      · have same : rest.foldl (fun total index => op total (changed index)) (op start (changed index)) =
            rest.foldl (fun total index => op total (terms index)) (op start (changed index)) := by
          apply List.foldl_ext
          intro total other inside
          rw [elsewhere other (ne_of_mem_of_not_mem inside fresh)]
        have regrouped : op start (op (terms index) delta) = op (op start (terms index)) delta :=
          (Std.Associative.assoc ..).symm
        rw [same, here, regrouped, foldl_delta]
      · rw [elsewhere first (ne_of_mem_of_not_mem later fresh).symm]
        exact ih restNodup later

end Rut9xx.Data
