import Mathlib.Data.List.Basic
import Mathlib.Data.UInt

namespace Rut9xx.Data

/-! # Texts combined with a key that depends on the place alone -/

variable {key : Nat → UInt8} {text front back : List UInt8} {period : Nat}

def masked (key : Nat → UInt8) (text : List UInt8) : List UInt8 :=
  text.mapIdx fun i byte => byte ^^^ key i

@[simp] theorem masked_length : (masked key text).length = text.length := List.length_mapIdx

theorem masked_getElem? {place : Nat} :
    (masked key text)[place]? = text[place]?.map fun byte => byte ^^^ key place :=
  List.getElem?_mapIdx

theorem masked_getD {place : Nat} (inside : place < text.length) :
    (masked key text).getD place 0 = text.getD place 0 ^^^ key place := by
  rw [List.getD_eq_getElem?_getD, List.getD_eq_getElem?_getD, masked_getElem?,
    List.getElem?_eq_getElem inside, Option.map_some, Option.getD_some, Option.getD_some]

theorem masked_take {count : Nat} : (masked key text).take count = masked key (text.take count) := by
  apply List.ext_getElem?
  intro place
  rw [masked_getElem?, List.getElem?_take, List.getElem?_take]
  split
  · exact masked_getElem?
  · rfl

theorem masked_masked : masked key (masked key text) = text := by
  apply List.ext_getElem?
  intro place
  rw [masked_getElem?, masked_getElem?, Option.map_map]
  have back : ((fun byte : UInt8 => byte ^^^ key place) ∘ fun byte => byte ^^^ key place) = id := by
    funext byte
    rw [Function.comp_apply, UInt8.xor_assoc, UInt8.xor_self, UInt8.xor_zero, id]
  rw [back, Option.map_id, id]

/-- A text may be cut where the key starts anew. -/
theorem masked_append (repeats : ∀ place, key (place + period) = key place)
    (cut : period ∣ front.length ∨ back = []) :
    masked key (front ++ back) = masked key front ++ masked key back := by
  rcases cut with ⟨count, length⟩ | rfl
  · have again : ∀ place, key (place + count * period) = key place := by
      induction count generalizing front with
      | zero => simp
      | succ count ih =>
          intro place
          rw [Nat.succ_mul, ← Nat.add_assoc, repeats]
          exact @ih (List.replicate (period * count) 0) List.length_replicate place
    rw [masked, List.mapIdx_append]
    simp only [length, Nat.mul_comm period count, again]
    rfl
  · rw [List.append_nil, masked, masked, List.mapIdx_nil, List.append_nil]

end Rut9xx.Data
