import Mathlib.Data.List.Basic

namespace Rut9xx.Data

/-! # Searching a byte string for another one -/

variable {α : Type} [DecidableEq α] {text needle front : List α} {place : Nat}

/-- `memchr`: where a byte first occurs. -/
def memchr (wanted : α) : List α → Option Nat
  | [] => none
  | head :: rest => if head = wanted then some 0 else (memchr wanted rest).map (· + 1)

theorem memchr_append {wanted : α} (absent : wanted ∉ front) (more : List α) :
    memchr wanted (front ++ wanted :: more) = some front.length := by
  induction front with
  | nil => rw [List.nil_append, memchr, if_pos rfl]; rfl
  | cons head rest ih =>
      have other : head ≠ wanted := by
        intro same
        exact absent (same ▸ List.mem_cons_self)
      rw [List.cons_append, memchr, if_neg other,
        ih (fun member => absent (List.mem_cons_of_mem head member)), Option.map_some,
        List.length_cons]

/-- `strstr`: where `needle` first occurs. -/
def strstr (needle : List α) : List α → Option Nat
  | [] => if needle = [] then some 0 else none
  | head :: rest =>
      if needle <+: head :: rest then some 0 else (strstr needle rest).map (· + 1)

theorem strstr_nil : strstr needle [] = if needle = [] then some 0 else none := rfl

theorem strstr_cons {head : α} {rest : List α} : strstr needle (head :: rest) =
    if needle <+: head :: rest then some 0 else (strstr needle rest).map (· + 1) := rfl

theorem strstr_here (occurs : needle <+: text) : strstr needle text = some 0 := by
  cases text with
  | nil => rw [strstr_nil, if_pos (List.prefix_nil.mp occurs)]
  | cons head rest => rw [strstr_cons, if_pos occurs]

theorem strstr_occurs (found : strstr needle text = some place) : needle <+: text.drop place := by
  induction text generalizing place with
  | nil =>
      rw [strstr_nil] at found
      split at found
      · rename_i empty
        rw [empty]
        exact List.nil_prefix
      · cases found
  | cons head rest ih =>
      rw [strstr_cons] at found
      split at found
      · cases found
        assumption
      · obtain ⟨later, foundLater, rfl⟩ := Option.map_eq_some_iff.mp found
        exact ih foundLater

/-- Nothing in front of the place where it is found matches. -/
theorem strstr_first (found : strstr needle text = some place) {earlier : Nat}
    (before : earlier < place) : ¬ needle <+: text.drop earlier := by
  induction text generalizing place earlier with
  | nil =>
      rw [strstr_nil] at found
      split at found
      · cases found
        cases before
      · cases found
  | cons head rest ih =>
      rw [strstr_cons] at found
      split at found
      · cases found
        cases before
      · rename_i mismatch
        obtain ⟨later, foundLater, rfl⟩ := Option.map_eq_some_iff.mp found
        cases earlier with
        | zero => exact mismatch
        | succ earlier => exact ih foundLater (Nat.lt_of_succ_lt_succ before)

theorem strstr_eq_some_iff : strstr needle text = some place ↔
    needle <+: text.drop place ∧ place ≤ text.length ∧
      ∀ earlier < place, ¬ needle <+: text.drop earlier := by
  constructor
  · intro found
    refine ⟨strstr_occurs found, ?_, fun earlier before => strstr_first found before⟩
    induction text generalizing place with
    | nil =>
        rw [strstr_nil] at found
        split at found
        · cases found
          exact Nat.le_refl 0
        · cases found
    | cons head rest ih =>
        rw [strstr_cons] at found
        split at found
        · cases found
          exact Nat.zero_le _
        · obtain ⟨later, foundLater, rfl⟩ := Option.map_eq_some_iff.mp found
          exact Nat.succ_le_succ (ih foundLater)
  · intro first
    obtain ⟨occurs, within, absent⟩ := first
    induction text generalizing place with
    | nil =>
        obtain rfl := Nat.le_zero.mp within
        exact strstr_here occurs
    | cons head rest ih =>
        cases place with
        | zero => exact strstr_here occurs
        | succ place =>
            have mismatch : ¬ needle <+: head :: rest := absent 0 (Nat.succ_pos place)
            rw [strstr_cons, if_neg mismatch, ih occurs
              (Nat.le_of_succ_le_succ within)
              (fun earlier before => absent (earlier + 1) (Nat.succ_lt_succ before))]
            rfl

/-- Where it does not begin anywhere in `front`, it is found behind it. -/
theorem strstr_append (occurs : needle <+: text)
    (absent : ∀ earlier < front.length, ¬ needle <+: front.drop earlier ++ text) :
    strstr needle (front ++ text) = some front.length := by
  rw [strstr_eq_some_iff]
  refine ⟨by rwa [List.drop_left], by simp, ?_⟩
  intro earlier before
  rw [List.drop_append_of_le_length (Nat.le_of_lt before)]
  exact absent earlier before

theorem strstr_within (found : strstr needle text = some place) :
    place + needle.length ≤ text.length := by
  obtain ⟨occurs, within, -⟩ := Iff.mp strstr_eq_some_iff found
  have fits := occurs.length_le
  rw [List.length_drop] at fits
  omega

/-- What is found in front stays found when more text follows. -/
theorem strstr_extend (more : List α) (found : strstr needle text = some place) :
    strstr needle (text ++ more) = some place := by
  have fits := strstr_within found
  obtain ⟨occurs, within, absent⟩ := Iff.mp strstr_eq_some_iff found
  rw [strstr_eq_some_iff]
  refine ⟨?_, by rw [List.length_append]; omega, ?_⟩
  · rw [List.drop_append_of_le_length within]
    exact occurs.trans (List.prefix_append _ _)
  · intro earlier before occursEarlier
    rw [List.drop_append_of_le_length (by omega)] at occursEarlier
    have inside : needle.length ≤ (text.drop earlier).length := by
      rw [List.length_drop]
      omega
    exact absent earlier before
      (List.prefix_of_prefix_length_le occursEarlier (List.prefix_append _ _) inside)

/-- What is found at all is found in the same place in a longer text. -/
theorem strstr_prefix {longer : List α} (inFront : text <+: longer)
    (found : strstr needle text = some place) : strstr needle longer = some place := by
  obtain ⟨more, rfl⟩ := inFront
  exact strstr_extend more found

/-- Behind a front without an occurrence it is found where the whole text has it. -/
theorem strstr_drop {dropped : Nat} (found : strstr needle text = some place)
    (before : dropped ≤ place) : strstr needle (text.drop dropped) = some (place - dropped) := by
  have fits := strstr_within found
  obtain ⟨occurs, within, absent⟩ := Iff.mp strstr_eq_some_iff found
  rw [strstr_eq_some_iff]
  refine ⟨?_, by rw [List.length_drop]; omega, ?_⟩
  · rwa [List.drop_drop, Nat.add_sub_cancel' before]
  · intro earlier inFront
    rw [List.drop_drop]
    exact absent (dropped + earlier) (by omega)

end Rut9xx.Data
