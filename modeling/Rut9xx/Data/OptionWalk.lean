import Rut9xx.Data.BlockRewrite
import Rut9xx.Data.OptionList

namespace Rut9xx.Data

/-! # Options in a memory

The options of the `size` bytes at `start`, with the place where their reading ends:
behind the last byte, at the closing tag or at a broken option.
-/

section

variable {format : OptionFormat} {memory after : Memory UInt8} {start size more place last last' : Nat}
  {options options' : List (Nat × TaggedValue)} {found : Nat × TaggedValue}

inductive OptionsRead (format : OptionFormat) (memory : Memory UInt8) (start size : Nat) :
    Nat → List (Nat × TaggedValue) → Nat → Prop where
  | whole : OptionsRead format memory start size size [] size
  | stop {place : Nat} (inside : place < size) (here : memory (start + place) = format.stop) :
      OptionsRead format memory start size place [] place
  | pad {place last : Nat} {options : List (Nat × TaggedValue)} (inside : place < size)
      (noStop : memory (start + place) ≠ format.stop) (here : memory (start + place) = format.pad)
      (rest : OptionsRead format memory start size (place + 1) options last) :
      OptionsRead format memory start size place options last
  | option {place last : Nat} {options : List (Nat × TaggedValue)} (inside : place < size)
      (noStop : memory (start + place) ≠ format.stop) (noPad : memory (start + place) ≠ format.pad)
      (least : 2 ≤ format.size (memory (start + place + 1)))
      (whole : place + format.size (memory (start + place + 1)) ≤ size)
      (rest : OptionsRead format memory start size
        (place + format.size (memory (start + place + 1))) options last) :
      OptionsRead format memory start size place
        ((place, ⟨memory (start + place),
          load memory (start + place + 2) (format.size (memory (start + place + 1)) - 2)⟩) :: options)
        last
  | broken {place : Nat} (inside : place < size)
      (noStop : memory (start + place) ≠ format.stop) (noPad : memory (start + place) ≠ format.pad)
      (cut : format.size (memory (start + place + 1)) < 2 ∨
        size < place + format.size (memory (start + place + 1))) :
      OptionsRead format memory start size place [] place

theorem optionsRead_exists (inside : place ≤ size) :
    ∃ options last, OptionsRead format memory start size place options last := by
  generalize left : size - place = count
  induction count using Nat.strong_induction_on generalizing place with
  | _ count ih =>
      rcases Nat.eq_or_lt_of_le inside with rfl | inside
      · exact ⟨_, _, .whole⟩
      · by_cases noStop : memory (start + place) = format.stop
        · exact ⟨_, _, .stop inside noStop⟩
        · by_cases noPad : memory (start + place) = format.pad
          · obtain ⟨options, last, rest⟩ :=
              ih (size - (place + 1)) (by omega) (show place + 1 ≤ size from inside) rfl
            exact ⟨_, _, .pad inside noStop noPad rest⟩
          · by_cases least : 2 ≤ format.size (memory (start + place + 1))
            · by_cases whole : place + format.size (memory (start + place + 1)) ≤ size
              · obtain ⟨options, last, rest⟩ := ih _ (by omega) whole rfl
                exact ⟨_, _, .option inside noStop noPad least whole rest⟩
              · exact ⟨_, _, .broken inside noStop noPad (.inr (Nat.not_le.mp whole))⟩
            · exact ⟨_, _, .broken inside noStop noPad (.inl (Nat.not_le.mp least))⟩

namespace OptionsRead

/-- The relation reads what the list of bytes has. -/
theorem optionsFrom (apart : format.pad ≠ format.stop)
    (read : OptionsRead format memory start size place options last) :
    optionsFrom format (load memory start size) place = options := by
  have here {place : Nat} (inside : place < size) :
      (load memory start size)[place]? = some (memory (start + place)) := by
    rw [load_getElem?, if_pos inside]
  induction read with
  | whole => exact optionsFrom_past (Nat.le_of_eq load_length)
  | stop inside closed => exact optionsFrom_stop (closed ▸ here inside)
  | pad inside noStop padded rest ih => rw [optionsFrom_pad apart (padded ▸ here inside), ih]
  | @option place last options inside noStop noPad least whole rest ih =>
      have value : slice (load memory start size) (place + 2)
          (format.size (memory (start + place + 1)) - 2) =
            load memory (start + place + 2) (format.size (memory (start + place + 1)) - 2) :=
        slice_load (by omega)
      have next : (load memory start size)[place + 1]? = some (memory (start + place + 1)) :=
        here (by omega)
      rw [optionsFrom_option (here inside) noStop noPad next least (by
        rw [load_length]
        exact whole), ih, value]
  | @broken place inside noStop noPad cut =>
      by_cases next : place + 1 < size
      · exact optionsFrom_broken (here inside) noStop noPad (here next) (by
          rw [load_length]
          exact cut)
      · exact optionsFrom_last (by
          rw [load_length]
          omega)

theorem unique (read : OptionsRead format memory start size place options last)
    (read' : OptionsRead format memory start size place options' last') :
    options = options' ∧ last = last' := by
  induction read generalizing options' last' with
  | whole =>
      cases read' with
      | whole => exact ⟨rfl, rfl⟩
      | stop inside | pad inside | option inside | broken inside => exact absurd inside (Nat.lt_irrefl _)
  | stop inside closed =>
      cases read' with
      | whole => exact absurd inside (Nat.lt_irrefl _)
      | stop => exact ⟨rfl, rfl⟩
      | pad _ noStop | option _ noStop | broken _ noStop => exact absurd closed noStop
  | pad inside noStop padded rest ih =>
      cases read' with
      | whole => exact absurd inside (Nat.lt_irrefl _)
      | stop _ closed => exact absurd closed noStop
      | pad _ _ _ rest' => exact ih rest'
      | option _ _ noPad | broken _ _ noPad => exact absurd padded noPad
  | option inside noStop noPad least whole rest ih =>
      cases read' with
      | whole => exact absurd inside (Nat.lt_irrefl _)
      | stop _ closed => exact absurd closed noStop
      | pad _ _ padded => exact absurd padded noPad
      | option _ _ _ _ _ rest' =>
          obtain ⟨rfl, rfl⟩ := ih rest'
          exact ⟨rfl, rfl⟩
      | broken _ _ _ cut => omega
  | broken inside noStop noPad cut =>
      cases read' with
      | whole => exact absurd inside (Nat.lt_irrefl _)
      | stop _ closed => exact absurd closed noStop
      | pad _ _ padded => exact absurd padded noPad
      | option _ _ _ least whole => omega
      | broken => exact ⟨rfl, rfl⟩

theorem congr (read : OptionsRead format memory start size place options last)
    (same : ∀ address, start + place ≤ address → after address = memory address) :
    OptionsRead format after start size place options last := by
  induction read with
  | whole => exact .whole
  | stop inside closed => exact .stop inside ((same _ (Nat.le_refl _)).trans closed)
  | pad inside noStop padded rest ih =>
      have here := same _ (Nat.le_refl _)
      exact .pad inside (here ▸ noStop) (here.trans padded)
        (ih fun address above => same address (by omega))
  | @option place last options inside noStop noPad least whole rest ih =>
      have here := same (start + place) (Nat.le_refl _)
      have next := same (start + place + 1) (by omega)
      have value : load after (start + place + 2) (format.size (memory (start + place + 1)) - 2) =
          load memory (start + place + 2) (format.size (memory (start + place + 1)) - 2) :=
        load_congr fun index below => same _ (by omega)
      have further := ih fun address above => same address (by omega)
      rw [← next] at further least whole value
      rw [← here, ← next, ← value]
      exact .option inside (here ▸ noStop) (here ▸ noPad) least whole further
  | @broken place inside noStop noPad cut =>
      have here := same (start + place) (Nat.le_refl _)
      have next := same (start + place + 1) (by omega)
      rw [← here] at noStop noPad
      rw [← next] at cut
      exact .broken inside noStop noPad cut

/-- It does not leave the bytes. -/
theorem bounds (read : OptionsRead format memory start size place options last) :
    place ≤ last ∧ last ≤ size := by
  induction read with
  | whole => exact ⟨Nat.le_refl _, Nat.le_refl _⟩
  | stop inside closed => exact ⟨Nat.le_refl _, Nat.le_of_lt inside⟩
  | pad inside noStop padded rest ih => exact ⟨Nat.le_of_succ_le ih.1, ih.2⟩
  | option inside noStop noPad least whole rest ih => exact ⟨by omega, ih.2⟩
  | broken inside noStop noPad cut => exact ⟨Nat.le_refl _, Nat.le_of_lt inside⟩

/-- A reading ends with the bytes, at the closing tag or at a broken option. -/
theorem ending (read : OptionsRead format memory start size place options last) :
    last = size ∨ memory (start + last) = format.stop ∨
      memory (start + last) ≠ format.pad ∧ (format.size (memory (start + last + 1)) < 2 ∨
        size < last + format.size (memory (start + last + 1))) := by
  induction read with
  | whole => exact .inl rfl
  | stop inside closed => exact .inr (.inl closed)
  | pad inside noStop padded rest ih => exact ih
  | option inside noStop noPad least whole rest ih => exact ih
  | broken inside noStop noPad cut => exact .inr (.inr ⟨noPad, cut⟩)

theorem found_bounds (read : OptionsRead format memory start size place options last)
    (member : found ∈ options) :
    place ≤ found.1 ∧ found.1 + 2 + found.2.value.length ≤ size := by
  induction read with
  | whole => cases member
  | stop inside closed => cases member
  | pad inside noStop padded rest ih => exact ⟨Nat.le_of_succ_le (ih member).1, (ih member).2⟩
  | option inside noStop noPad least whole rest ih =>
      rcases List.mem_cons.mp member with rfl | later
      · refine ⟨Nat.le_refl _, ?_⟩
        rw [load_length]
        omega
      · exact ⟨by have := (ih later).1; omega, (ih later).2⟩
  | broken inside noStop noPad cut => cases member

/-- What is read up to the end of a reading, in a memory with more bytes there. -/
theorem join (read : OptionsRead format memory start size place options last)
    (same : ∀ address, start + place ≤ address → address < start + last → after address = memory address)
    (longer : size ≤ more) (rest : OptionsRead format after start more last options' last') :
    OptionsRead format after start more place (options ++ options') last' := by
  induction read with
  | whole => exact rest
  | stop inside closed => exact rest
  | @pad place last options inside noStop padded further ih =>
      have here : after (start + place) = memory (start + place) := by
        have bounds := further.bounds
        exact same _ (Nat.le_refl _) (by omega)
      exact .pad (by omega) (here ▸ noStop) (here.trans padded)
        (ih (fun address above below => same address (by omega) below) rest)
  | @option place last options inside noStop noPad least whole further ih =>
      have bounds := further.bounds
      have here : after (start + place) = memory (start + place) :=
        same _ (Nat.le_refl _) (by omega)
      have next : after (start + place + 1) = memory (start + place + 1) :=
        same _ (by omega) (by omega)
      have value : load after (start + place + 2) (format.size (memory (start + place + 1)) - 2) =
          load memory (start + place + 2) (format.size (memory (start + place + 1)) - 2) :=
        load_congr fun index below => same _ (by omega) (by omega)
      have joined := ih (fun address above below => same address (by omega) below) rest
      rw [← next] at joined least whole value
      rw [List.cons_append, ← here, ← next, ← value]
      exact .option (by omega) (here ▸ noStop) (here ▸ noPad) least (whole.trans longer) joined
  | broken inside noStop noPad cut => exact rest

end OptionsRead

end

end Rut9xx.Data
