import Mathlib.Logic.Function.Basic

namespace Rut9xx.Data

/-! # Loops that change the entries of a table one after the other -/

section

variable {α : Type} (p : Nat → Prop) [DecidablePred p] (change : Nat → α → α) (count index : Nat)

/-- A loop that changes each of the first `count` entries that `p` picks. -/
theorem foldl_update (table : Nat → α) :
    (List.range count).foldl (fun table j =>
        if p j then Function.update table j (change j (table j)) else table) table index =
      if index < count ∧ p index then change index (table index) else table index := by
  induction count with
  | zero => rw [if_neg (fun both => Nat.not_lt_zero _ both.1)]; rfl
  | succ count ih =>
      rw [List.range_succ, List.foldl_append, List.foldl_cons, List.foldl_nil]
      generalize (List.range count).foldl (fun table j =>
        if p j then Function.update table j (change j (table j)) else table) table = after at ih
      by_cases last : index = count
      · subst last
        rw [if_neg (fun both => Nat.lt_irrefl _ both.1)] at ih
        by_cases picked : p index
        · rw [if_pos picked, if_pos ⟨Nat.lt_succ_self _, picked⟩, Function.update_self, ih]
        · rw [if_neg picked, if_neg (fun both => picked both.2), ih]
      · have same : (if p count then Function.update after count (change count (after count))
            else after) index = after index := by
          split
          · rw [Function.update_of_ne last]
          · rfl
        have bound : index < count + 1 ↔ index < count := by omega
        simp only [same, ih, bound]

end

/-! # Slots that hold copies of a keyed store -/

section

variable {ι κ ν : Type} {slots : ι → Option (κ × ν)} {store : κ → Option ν} {index : ι} {key : κ}
  {value old : ν}

/-- A key has one copy at most, and it is the value in the store. -/
structure Coherent (slots : ι → Option (κ × ν)) (store : κ → Option ν) : Prop where
  unique : ∀ {i j k v w}, slots i = some (k, v) → slots j = some (k, w) → i = j
  same : ∀ {i k v}, slots i = some (k, v) → store k = some v

def Missing (slots : ι → Option (κ × ν)) (key : κ) : Prop :=
  ∀ i v, slots i ≠ some (key, v)

theorem Coherent.empty (cleared : ∀ i, slots i = none) : Coherent slots store where
  unique := by
    intro i j k v w first
    rw [cleared] at first
    contradiction
  same := by
    intro i k v first
    rw [cleared] at first
    contradiction

section

variable [DecidableEq ι]

theorem Coherent.evict (coherent : Coherent slots store) (index : ι) :
    Coherent (Function.update slots index none) store := by
  have kept : ∀ {i k v}, Function.update slots index none i = some (k, v) → slots i = some (k, v) := by
    intro i k v found
    by_cases here : i = index
    · subst here
      rw [Function.update_self] at found
      contradiction
    · rwa [Function.update_of_ne here] at found
  exact ⟨fun first second => coherent.unique (kept first) (kept second),
    fun found => coherent.same (kept found)⟩

/-- A key without a copy is loaded over whatever the slot held. -/
theorem Coherent.load (coherent : Coherent slots store) (index : ι) (missing : Missing slots key)
    (stored : store key = some value) :
    Coherent (Function.update slots index (some (key, value))) store := by
  have cases : ∀ {i k v}, Function.update slots index (some (key, value)) i = some (k, v) →
      (i = index ∧ k = key ∧ v = value) ∨ (slots i = some (k, v) ∧ k ≠ key) := by
    intro i k v found
    by_cases here : i = index
    · subst here
      rw [Function.update_self] at found
      cases found
      exact Or.inl ⟨rfl, rfl, rfl⟩
    · rw [Function.update_of_ne here] at found
      refine Or.inr ⟨found, ?_⟩
      intro same
      exact missing i v (same ▸ found)
  constructor
  · intro i j k v w first second
    rcases cases first with ⟨iHere, kSame, -⟩ | ⟨first, apart⟩
    · rcases cases second with ⟨jHere, -, -⟩ | ⟨-, apart⟩
      · rw [iHere, jHere]
      · exact absurd kSame apart
    · rcases cases second with ⟨-, kSame, -⟩ | ⟨second, -⟩
      · exact absurd kSame apart
      · exact coherent.unique first second
  · intro i k v found
    rcases cases found with ⟨-, kSame, vSame⟩ | ⟨found, -⟩
    · rw [kSame, vSame, stored]
    · exact coherent.same found

end

section

variable [DecidableEq κ]

/-- The store is written under a key without a copy. -/
theorem Coherent.write_missing (coherent : Coherent slots store) (missing : Missing slots key)
    (value : ν) :
    Coherent slots (Function.update store key (some value)) := by
  constructor
  · intro i j k v w first second
    exact coherent.unique first second
  · intro i k v found
    have apart : k ≠ key := by
      intro same
      exact missing i v (same ▸ found)
    rw [Function.update_of_ne apart]
    exact coherent.same found

/-- The copy is written with the store. -/
theorem Coherent.write_held [DecidableEq ι] (coherent : Coherent slots store)
    (held : slots index = some (key, old)) (value : ν) :
    Coherent (Function.update slots index (some (key, value)))
      (Function.update store key (some value)) := by
  have evicted : Missing (Function.update slots index none) key := by
    intro i v found
    by_cases here : i = index
    · subst here
      rw [Function.update_self] at found
      contradiction
    · rw [Function.update_of_ne here] at found
      exact here (coherent.unique found held)
  have written := (coherent.evict index).write_missing evicted value
  have filled := written.load index evicted (Function.update_self key (some value) store)
  rwa [Function.update_idem] at filled

end

end

end Rut9xx.Data
