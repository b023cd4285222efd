import Rut9xx.Ptgen.Gptable
import Rut9xx.Data.Partial

namespace Rut9xx.Ptgen

open Data

/-! # The layout of the requested partitions -/

def alignedSector (options : Options) (sect : Nat) : Nat :=
  if options.kbAlign = 0 then sect
  else ((sect - 1) / options.kbAlign.toNat + 1) * options.kbAlign.toNat

def exactStart (options : Options) (sect : Nat) (part : Partinfo) : Nat :=
  if part.start ≠ 0 then part.start * 2 else alignedSector options (sect + options.sectors)

def exactEnd (options : Options) (start : Nat) (part : Partinfo) : Nat :=
  let sect := start + part.size * 2
  let cylSize := options.heads * options.sectors
  if options.kbAlign = 0 then sect + cylSize - sect % cylSize else sect

/-- The sectors of the requested partitions, in arithmetic that does not overflow. -/
def exactExtents (options : Options) (sect : Nat) : List Partinfo → List (Nat × Nat)
  | [] => []
  | part :: rest =>
      if part.size = 0 then exactExtents options sect rest
      else
        let start := exactStart options sect part
        let next := exactEnd options start part
        (start, next - 1) :: exactExtents options next rest

def exactLast (options : Options) (sect : Nat) : List Partinfo → Nat
  | [] => sect
  | part :: rest =>
      if part.size = 0 then exactLast options sect rest
      else exactLast options (exactEnd options (exactStart options sect part) part) rest

/-- No partition ends at sector 2^63 or beyond. -/
def InRange (options : Options) (sect : Nat) : List Partinfo → Prop
  | [] => sect + options.sectors ≤ 2 ^ 63
  | part :: rest =>
      if part.size = 0 then InRange options sect rest
      else
        let next := exactEnd options (exactStart options sect part) part
        next < 2 ^ 63 ∧ InRange options next rest

/-- Nothing the rounding functions are given or compute overflows or is negative. -/
structure Ordinary (options : Options) : Prop where
  align : 0 ≤ options.kbAlign
  cylinder : options.kbAlign = 0 → options.heads * options.sectors < 2 ^ 31
  range : InRange options 0 options.parts

def extent (entry : Gpte) : Nat × Nat := (entry.start, entry.end)

def Gpte.used (entry : Gpte) : Bool := entry.type ≠ Gpte.cleared.type

def usedExtents (entries : List Gpte) : List (Nat × Nat) :=
  (entries.filter Gpte.used).map extent

variable {options : Options} {part : Partinfo} {parts : List Partinfo} {entries : List Gpte}
  {index sect start next last : Nat}

/-! ## The rounding functions -/

theorem ofLong_ofNat {value : Nat} (bound : value < 2 ^ 64) : ofLong value = value := by
  simp only [ofLong]
  omega

theorem le_alignedSector (sect : Nat) (align : 0 ≤ options.kbAlign) :
    sect ≤ alignedSector options sect := by
  simp only [alignedSector]
  split
  · exact Nat.le_refl sect
  · have positive : 0 < options.kbAlign.toNat := by omega
    have rounded := Nat.lt_div_mul_add positive (a := sect - 1)
    rw [Nat.add_mul]
    omega

theorem alignedSector_lt (sect : Nat) (positive : 0 < options.kbAlign) :
    alignedSector options sect ≤ sect - 1 + options.kbAlign.toNat := by
  rw [alignedSector, if_neg (by omega), Nat.add_mul, Nat.one_mul]
  exact Nat.add_le_add_right (Nat.div_mul_le_self _ _) _

theorem roundToKb_eq (align : 0 < options.kbAlign) (positive : 0 < sect)
    (bound : sect < 2 ^ 63) : roundToKb options sect = alignedSector options sect := by
  obtain ⟨unit, isUnit⟩ := Int.eq_ofNat_of_zero_le (Int.le_of_lt align)
  have upper := alignedSector_lt sect align
  have unitBound := options.kbAlign_lt
  have argument : toLong sect - 1 = ((sect - 1 : Nat) : Int) := by
    rw [toLong, if_pos bound]
    omega
  have rounded : ((sect - 1 : Nat) : Int).tdiv options.kbAlign = ((sect - 1) / unit : Nat) := by
    rw [isUnit, ← Int.ofNat_tdiv]
  have whole : (((sect - 1) / unit : Nat) + 1 : Int) * options.kbAlign =
      (alignedSector options sect : Nat) := by
    rw [alignedSector, if_neg (by omega), isUnit]
    simp
  rw [roundToKb, argument, rounded, whole]
  exact ofLong_ofNat (by omega)

theorem cylSize_eq (bound : options.heads * options.sectors < 2 ^ 31) :
    cylSize options = (options.heads * options.sectors : Nat) := by
  simp only [cylSize]
  rw [Nat.mod_eq_of_lt (by omega), if_pos bound]

theorem roundToCyl_eq (product : options.heads * options.sectors < 2 ^ 31)
    (bound : sect < 2 ^ 63) :
    roundToCyl options sect =
      .ok (sect + options.heads * options.sectors - sect % (options.heads * options.sectors)) := by
  have positive : 0 < options.heads * options.sectors :=
    Nat.mul_pos options.heads_pos options.sectors_pos
  have remainder := Nat.mod_lt sect positive
  simp only [roundToCyl, cylSize_eq product]
  rw [if_neg (by omega), toLong, if_pos bound, ← Int.ofNat_tmod]
  have whole : (sect : Int) + (options.heads * options.sectors : Nat) -
      (sect % (options.heads * options.sectors) : Nat) =
        (sect + options.heads * options.sectors - sect % (options.heads * options.sectors) : Nat) := by
    omega
  rw [whole, ofLong_ofNat (by omega)]

theorem reservedSectors_eq (align : 0 ≤ options.kbAlign) :
    reservedSectors options = alignedSector options options.sectors := by
  have bound := options.sectors_lt
  simp only [reservedSectors]
  split
  · rename_i aligned
    exact roundToKb_eq (by omega) options.sectors_pos (by omega)
  · rename_i unaligned
    rw [alignedSector, if_pos (by omega)]

theorem alignedSector_bound (align : 0 ≤ options.kbAlign) :
    alignedSector options options.sectors < 2 ^ 32 := by
  have bound := options.sectors_lt
  have unitBound := options.kbAlign_lt
  by_cases aligned : 0 < options.kbAlign
  · have := alignedSector_lt options.sectors aligned
    omega
  · rw [alignedSector, if_pos (by omega)]
    omega

/-! ## One partition of the loop -/

theorem le_exactEnd (options : Options) (start : Nat) (part : Partinfo) :
    start + part.size * 2 ≤ exactEnd options start part := by
  have positive : 0 < options.heads * options.sectors :=
    Nat.mul_pos options.heads_pos options.sectors_pos
  have remainder := Nat.mod_lt (start + part.size * 2) positive
  simp only [exactEnd]
  split <;> omega

theorem partitionStart_eq (align : 0 ≤ options.kbAlign) (here : sect < 2 ^ 63)
    (bound : exactStart options sect part < 2 ^ 63)
    (placed : partitionStart options index sect part = .ok start) :
    start = exactStart options sect part ∧ sect + options.sectors ≤ start := by
  have gap := options.sectors_lt
  have whole : (sect + options.sectors) % 2 ^ 64 = sect + options.sectors :=
    Nat.mod_eq_of_lt (by omega)
  simp only [partitionStart, whole] at placed
  by_cases explicit : part.start ≠ 0
  · rw [exactStart, if_pos explicit] at bound
    rw [if_pos explicit, Nat.mod_eq_of_lt (by omega)] at placed
    split at placed
    · cases placed
    · rename_i behind
      cases placed
      rw [exactStart, if_pos explicit]
      exact ⟨rfl, by omega⟩
  · rw [exactStart, if_neg explicit] at bound
    have below := le_alignedSector (sect + options.sectors) align
    have positive := options.sectors_pos
    rw [if_neg explicit] at placed
    rw [exactStart, if_neg explicit]
    split at placed
    · rename_i aligned
      cases placed
      rw [roundToKb_eq (by omega) (by omega) (by omega)]
      exact ⟨rfl, below⟩
    · rename_i unaligned
      cases placed
      rw [alignedSector, if_pos (by omega)]
      exact ⟨rfl, Nat.le_refl _⟩

theorem partitionEnd_eq
    (cylinder : options.kbAlign = 0 → options.heads * options.sectors < 2 ^ 31)
    (bound : start + part.size * 2 < 2 ^ 63) :
    partitionEnd options start part = .ok (exactEnd options start part) := by
  simp only [partitionEnd, exactEnd, Nat.mod_eq_of_lt (show start + part.size * 2 < 2 ^ 64 by omega)]
  split
  · rename_i unaligned
    exact roundToCyl_eq (cylinder unaligned) bound
  · rfl

theorem partitionEntry_used : (partitionEntry options index start next part).used = true := by
  simp only [Gpte.used, partitionEntry]
  split <;> decide

theorem partitionEntry_notBiosBoot :
    (partitionEntry options index start next part).type ≠ guidPartitionBiosBoot := by
  simp only [partitionEntry]
  split <;> decide

theorem partitionEntry_extent (positive : 0 < next) (bound : next < 2 ^ 63) :
    extent (partitionEntry options index start next part) = (start, next - 1) := by
  simp only [extent, partitionEntry, Prod.mk.injEq, true_and]
  omega

/-- What an accepted partition does to the loop: a null size is skipped, any other size
takes the sectors of the layout. -/
theorem writeEntries_cons {rest : List Partinfo} (align : 0 ≤ options.kbAlign)
    (cylinder : options.kbAlign = 0 → options.heads * options.sectors < 2 ^ 31)
    (here : sect < 2 ^ 63) (range : InRange options sect (part :: rest))
    (accepted : writeEntries options index sect (part :: rest) = .ok (entries, last)) :
    ∃ entry tail, entries = entry :: tail ∧
      ((part.size = 0 ∧ entry = Gpte.cleared ∧ InRange options sect rest ∧
          writeEntries options (index + 1) sect rest = .ok (tail, last)) ∨
        (part.size ≠ 0 ∧ ∃ start next, start = exactStart options sect part ∧
          next = exactEnd options start part ∧ sect + options.sectors ≤ start ∧ next < 2 ^ 63 ∧
            entry = partitionEntry options index start next part ∧ InRange options next rest ∧
              writeEntries options (index + 1) next rest = .ok (tail, last))) := by
  simp only [writeEntries] at accepted
  simp only [InRange] at range
  by_cases null : part.size = 0
  · rw [if_pos null] at accepted range
    split at accepted
    · obtain ⟨⟨tail, _⟩, more, same⟩ := bind_eq_ok.mp accepted
      cases same
      exact ⟨_, _, rfl, Or.inl ⟨null, rfl, range, more⟩⟩
    · cases accepted
  · rw [if_neg null] at accepted range
    obtain ⟨ends, range⟩ := range
    have sized := le_exactEnd options (exactStart options sect part) part
    obtain ⟨start, placed, accepted⟩ := bind_eq_ok.mp accepted
    obtain ⟨next, ended, accepted⟩ := bind_eq_ok.mp accepted
    obtain ⟨⟨tail, _⟩, more, same⟩ := bind_eq_ok.mp accepted
    cases same
    obtain ⟨atStart, behind⟩ := partitionStart_eq align here (by omega) placed
    subst atStart
    rw [partitionEnd_eq cylinder (by omega)] at ended
    cases ended
    exact ⟨_, _, rfl, Or.inr ⟨null, _, _, rfl, rfl, behind, ends, rfl, range, more⟩⟩

/-! ## The whole loop -/

variable (align : 0 ≤ options.kbAlign)
  (cylinder : options.kbAlign = 0 → options.heads * options.sectors < 2 ^ 31)
include align cylinder

/-- The entries in use are the layout, and it only goes up. -/
theorem writeEntries_layout (here : sect < 2 ^ 63) (range : InRange options sect parts)
    (accepted : writeEntries options index sect parts = .ok (entries, last)) :
    usedExtents entries = exactExtents options sect parts ∧
      last = exactLast options sect parts ∧
        Ascending sect (exactExtents options sect parts) last := by
  induction parts generalizing index sect entries with
  | nil =>
      cases accepted
      exact ⟨rfl, rfl, Nat.le_refl _⟩
  | cons part rest ih =>
      obtain ⟨entry, tail, rfl, step⟩ := writeEntries_cons align cylinder here range accepted
      simp only [exactExtents, exactLast]
      rcases step with ⟨null, rfl, range, more⟩ | ⟨sized, start, next, atStart, atNext, behind,
        below, rfl, range, more⟩
      · rw [if_pos null, if_pos null]
        have skipped : usedExtents (Gpte.cleared :: tail) = usedExtents tail := rfl
        rw [skipped]
        exact ih here range more
      · obtain ⟨extents, final, ascending⟩ := ih below range more
        have grows : start + part.size * 2 ≤ next := atNext ▸ le_exactEnd options start part
        rw [if_neg sized, if_neg sized, ← atStart, ← atNext]
        refine ⟨?_, final, by omega, by omega, ascending.weaken (by omega)⟩
        rw [← extents]
        simp only [usedExtents, List.filter_cons, partitionEntry_used, if_true, List.map_cons]
        rw [partitionEntry_extent (by omega) below]

theorem writeEntries_length (here : sect < 2 ^ 63) (range : InRange options sect parts)
    (accepted : writeEntries options index sect parts = .ok (entries, last)) :
    entries.length = parts.length := by
  induction parts generalizing index sect entries with
  | nil => cases accepted; rfl
  | cons part rest ih =>
      obtain ⟨entry, tail, rfl, step⟩ := writeEntries_cons align cylinder here range accepted
      rcases step with ⟨-, -, range, more⟩ | ⟨-, _, _, -, -, -, below, -, range, more⟩
      · rw [List.length_cons, List.length_cons, ih here range more]
      · rw [List.length_cons, List.length_cons, ih below range more]

theorem writeEntries_getElem? {position : Nat} (here : sect < 2 ^ 63)
    (range : InRange options sect parts)
    (accepted : writeEntries options index sect parts = .ok (entries, last))
    (request : parts[position]? = some part) :
    ∃ entry, entries[position]? = some entry ∧
      ((part.size = 0 ∧ entry = Gpte.cleared) ∨
        (part.size ≠ 0 ∧ entry.used = true ∧ entry.type ≠ guidPartitionBiosBoot ∧
          entry.start + part.size * 2 ≤ entry.end + 1)) := by
  induction parts generalizing index sect entries position with
  | nil => cases request
  | cons head rest ih =>
      obtain ⟨entry, tail, rfl, step⟩ := writeEntries_cons align cylinder here range accepted
      cases position with
      | zero =>
          cases request
          refine ⟨entry, rfl, ?_⟩
          rcases step with ⟨null, rfl, -, -⟩ | ⟨sized, start, next, -, atNext, -, below, rfl, -, -⟩
          · exact Or.inl ⟨null, rfl⟩
          · have grows : start + part.size * 2 ≤ next := atNext ▸ le_exactEnd options start part
            refine Or.inr ⟨sized, partitionEntry_used, partitionEntry_notBiosBoot, ?_⟩
            simp only [partitionEntry]
            omega
      | succ position =>
          rw [List.getElem?_cons_succ] at request ⊢
          rcases step with ⟨-, -, range, more⟩ | ⟨-, _, _, -, -, -, below, -, range, more⟩
          · exact ih here range more request
          · exact ih below range more request

end Rut9xx.Ptgen
