import Rut9xx.Data.Buffer

namespace Rut9xx.Data

/-! # Zero-terminated strings that stand one behind the other in a buffer

Looking for a string goes from one to the next, and out of the buffer where the last one has no
end.
-/

variable {buf text : List UInt8} {start place count size : Nat}

/-- A string of C. -/
abbrev CText := { text : List UInt8 // 0 ∉ text }

/-- Where the string from `start` on ends; no result where that is behind the buffer. -/
def strEnd (buf : List UInt8) (start : Nat) : Option Nat :=
  ((buf.drop start).findIdx? (· == 0)).map (start + ·)

theorem strEnd_eq_some (found : strEnd buf start = some place) :
    start ≤ place ∧ buf[place]? = some 0 ∧ ∀ other, start ≤ other → other < place → buf[other]? ≠ some 0 := by
  rw [strEnd, Option.map_eq_some_iff] at found
  obtain ⟨offset, found, rfl⟩ := found
  obtain ⟨inside, zero, first⟩ := List.findIdx?_eq_some_iff_getElem.mp found
  have length : (buf.drop start).length = buf.length - start := List.length_drop
  refine ⟨Nat.le_add_right _ _, ?_, ?_⟩
  · rw [List.getElem?_eq_getElem (by omega), ← List.getElem_drop (h := inside)]
    simpa using zero
  · intro other from' before
    have nonzero := first (other - start) (by omega)
    rw [List.getElem_drop] at nonzero
    rw [List.getElem?_eq_getElem (by omega)]
    simp only [show start + (other - start) = other by omega] at nonzero
    simpa using nonzero

theorem strEnd_eq_none (missing : strEnd buf start = none) (from' : start ≤ place) :
    buf[place]? ≠ some 0 := by
  rw [strEnd, Option.map_eq_none_iff, List.findIdx?_eq_none_iff] at missing
  intro zero
  obtain ⟨inside, zero⟩ := List.getElem?_eq_some_iff.mp zero
  have member : buf[place] ∈ buf.drop start := by
    rw [List.mem_iff_getElem]
    exact ⟨place - start, by rw [List.length_drop]; omega,
      by simp only [List.getElem_drop, show start + (place - start) = place by omega]⟩
  have nonzero := missing _ member
  rw [zero] at nonzero
  cases nonzero

/-- Whether one of the strings that begin in front of `size` is `text`. -/
def findString (buf : List UInt8) (text : List UInt8) (size start : Nat) : Option Bool :=
  if start < size then
    match ended : strEnd buf start with
    | none => none
    | some place =>
        if slice buf start (place - start) = text then some true
        else findString buf text size (place + 1)
  else some false
termination_by size - start
decreasing_by
  have := (strEnd_eq_some ended).1
  omega

/-- A whole string of the buffer. -/
def StringAt (buf : List UInt8) (place : Nat) (text : List UInt8) : Prop :=
  (place = 0 ∨ buf[place - 1]? = some 0) ∧ slice buf place text.length = text ∧
    buf[place + text.length]? = some 0

/-- A zero byte stands at or behind the last of `size` bytes. -/
def EndsInside (buf : List UInt8) (size : Nat) : Prop :=
  ∃ place, size ≤ place + 1 ∧ buf[place]? = some 0

theorem StringAt.ends (here : StringAt buf place text) (plain : 0 ∉ text)
    (found : strEnd buf place = some count) : place + text.length = count := by
  obtain ⟨-, zero, first⟩ := strEnd_eq_some found
  obtain ⟨-, same, last⟩ := here
  have notBefore : ¬ place + text.length < count := fun before =>
    first _ (Nat.le_add_right _ _) before last
  have notBehind : ¬ count < place + text.length := by
    intro behind
    obtain ⟨reached, -⟩ := strEnd_eq_some found
    apply plain
    rw [← same, slice, List.mem_iff_getElem?]
    refine ⟨count - place, ?_⟩
    rw [List.getElem?_take_of_lt (by omega), List.getElem?_drop,
      show place + (count - place) = count by omega, zero]
  omega

/-- Where a string begins, comparing up to its end finds it. -/
theorem slice_eq_iff_stringAt (plain : 0 ∉ text) (begins : start = 0 ∨ buf[start - 1]? = some 0)
    (found : strEnd buf start = some place) :
    slice buf start (place - start) = text ↔ StringAt buf start text := by
  obtain ⟨reached, zero, -⟩ := strEnd_eq_some found
  constructor
  · intro same
    have inside : place < buf.length := (List.getElem?_eq_some_iff.mp zero).1
    have length : text.length = place - start := by
      rw [← same, slice, List.length_take, List.length_drop]
      omega
    refine ⟨begins, by rw [length, same], ?_⟩
    rw [length, show start + (place - start) = place by omega, zero]
  · intro here
    rw [← here.ends plain found, Nat.add_sub_cancel_left]
    exact here.2.1

/-- Strings begin behind the end of others. -/
theorem StringAt.behind (here : StringAt buf count text) (begins : start ≤ count)
    (found : strEnd buf start = some place) : count = start ∨ place + 1 ≤ count := by
  obtain ⟨-, -, first⟩ := strEnd_eq_some found
  rcases here.1 with rfl | before
  · exact Or.inl (by omega)
  · by_contra between
    exact first (count - 1) (by omega) (by omega) before

theorem findString_leaves (more : start < size) (ended : strEnd buf start = none) :
    findString buf text size start = none := by
  rw [findString, if_pos more]
  split
  · rfl
  · rename_i found
    rw [ended] at found
    cases found

theorem findString_goesOn (more : start < size) (ended : strEnd buf start = some place) :
    findString buf text size start =
      if slice buf start (place - start) = text then some true
      else findString buf text size (place + 1) := by
  rw [findString, if_pos more]
  split
  · rename_i missing
    rw [ended] at missing
    cases missing
  · rename_i found
    rw [ended] at found
    cases found
    rfl

/-- Without a zero byte from the last place on the scan leaves the buffer, unless it finds the
string before. -/
theorem findString_eq_none_iff (plain : 0 ∉ text) (begins : start = 0 ∨ buf[start - 1]? = some 0) :
    findString buf text size start = none ↔
      start < size ∧ ¬ EndsInside buf size ∧ ¬ ∃ place, start ≤ place ∧ StringAt buf place text := by
  induction start using findString.induct buf text size with
  | case1 start more ended =>
      have open' : ¬ EndsInside buf size := by
        intro ⟨place, last, zero⟩
        exact strEnd_eq_none ended (show start ≤ place by omega) zero
      have absent : ¬ ∃ place, start ≤ place ∧ StringAt buf place text := by
        intro ⟨place, from', here⟩
        exact strEnd_eq_none ended (by omega) here.2.2
      exact iff_of_true (findString_leaves more ended) ⟨more, open', absent⟩
  | case2 start more place ended same =>
      have here := (slice_eq_iff_stringAt plain begins ended).mp same
      rw [findString_goesOn more ended, if_pos same]
      exact iff_of_false (by simp) fun ⟨_, _, absent⟩ => absent ⟨start, Nat.le_refl _, here⟩
  | case3 start more place ended differs ih =>
      obtain ⟨reached, zero, -⟩ := strEnd_eq_some ended
      have notHere : ¬ StringAt buf start text :=
        fun here => differs ((slice_eq_iff_stringAt plain begins ended).mpr here)
      rw [findString_goesOn more ended, if_neg differs, ih (Or.inr zero)]
      constructor
      · rintro ⟨-, open', absent⟩
        refine ⟨more, open', ?_⟩
        intro ⟨other, from', here⟩
        rcases here.behind from' ended with rfl | behind
        · exact notHere here
        · exact absent ⟨other, behind, here⟩
      · rintro ⟨-, open', absent⟩
        refine ⟨?_, open', fun ⟨other, from', here⟩ => absent ⟨other, by omega, here⟩⟩
        by_contra last
        exact open' ⟨place, by omega, zero⟩
  | case4 start done =>
      rw [findString, if_neg done]
      exact iff_of_false (by simp) fun ⟨more, _⟩ => done more

/-- Only a scan that comes to the end of the data fails to find a string. -/
theorem findString_eq_false (missed : findString buf text size start = some false) :
    size ≤ start ∨ EndsInside buf size := by
  induction start using findString.induct buf text size with
  | case1 start more ended =>
      rw [findString_leaves more ended] at missed
      cases missed
  | case2 start more place ended same =>
      rw [findString_goesOn more ended, if_pos same] at missed
      cases missed
  | case3 start more place ended differs ih =>
      rw [findString_goesOn more ended, if_neg differs] at missed
      rcases ih missed with last | inside
      · exact Or.inr ⟨place, last, (strEnd_eq_some ended).2.1⟩
      · exact Or.inr inside
  | case4 start done => exact Or.inl (by omega)

end Rut9xx.Data
