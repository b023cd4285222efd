import Rut9xx.Ptgen.Gptable
import Rut9xx.Ptgen.WellFormed

namespace Rut9xx.Ptgen

open Data

/-! # Which requests get the table they asked for -/

variable {options : Options} {part : Partinfo} {parts : List Partinfo} {entry : Pte}
  {entries : List Pte} {printed : List (Int × Int)} {index sect start next lower : Nat}

/-- The entries of the partitions that are not of null size, with their partitions. -/
def requestedEntries (parts : List Partinfo) (entries : List Pte) : List (Partinfo × Pte) :=
  (parts.zip entries).filter fun request => request.1.size ≠ 0

/-- The entries follow each other from `lower` on, each is as large as requested, and what was
printed are their places in bytes. -/
structure WellPlaced (lower : Nat) (parts : List Partinfo) (entries : List Pte)
    (printed : List (Int × Int)) : Prop where
  behind : ∀ request ∈ requestedEntries parts entries, lower ≤ request.2.start.toNat
  ordered : (requestedEntries parts entries).Pairwise fun first second =>
    first.2.start.toNat + first.2.length.toNat ≤ second.2.start.toNat
  sized : ∀ request ∈ requestedEntries parts entries,
    request.1.size * 2 ≤ request.2.length.toNat
  printed_eq : printed = (requestedEntries parts entries).map fun request =>
    ((request.2.start.toNat : Int) * diskSectorSize, (request.2.length.toNat : Int) * diskSectorSize)

theorem requestedEntries_skip (null : part.size = 0) :
    requestedEntries (part :: parts) (entry :: entries) = requestedEntries parts entries := by
  simp [requestedEntries, null]

theorem requestedEntries_take (sized : part.size ≠ 0) :
    requestedEntries (part :: parts) (entry :: entries) =
      (part, entry) :: requestedEntries parts entries := by
  simp [requestedEntries, sized]

theorem wellPlaced_skip (null : part.size = 0) :
    WellPlaced lower (part :: parts) (entry :: entries) printed ↔
      WellPlaced lower parts entries printed := by
  constructor
  · rintro ⟨behind, ordered, sized, same⟩
    rw [requestedEntries_skip null] at behind ordered sized same
    exact ⟨behind, ordered, sized, same⟩
  · rintro ⟨behind, ordered, sized, same⟩
    rw [← requestedEntries_skip null] at behind ordered sized same
    exact ⟨behind, ordered, sized, same⟩

theorem wellPlaced_take {place : Int × Int} (sized : part.size ≠ 0) :
    WellPlaced lower (part :: parts) (entry :: entries) (place :: printed) ↔
      lower ≤ entry.start.toNat ∧ part.size * 2 ≤ entry.length.toNat ∧
        place = ((entry.start.toNat : Int) * diskSectorSize,
          (entry.length.toNat : Int) * diskSectorSize) ∧
        WellPlaced (entry.start.toNat + entry.length.toNat) parts entries printed := by
  constructor
  · rintro ⟨behind, ordered, large, same⟩
    rw [requestedEntries_take sized] at behind ordered large same
    obtain ⟨here, same⟩ := List.cons.inj same
    obtain ⟨first, rest⟩ := List.pairwise_cons.mp ordered
    exact ⟨behind _ List.mem_cons_self, large _ List.mem_cons_self, here, first, rest,
      fun request member => large request (List.mem_cons_of_mem _ member), same⟩
  · rintro ⟨start, large, rfl, behind, ordered, sizes, same⟩
    constructor <;> rw [requestedEntries_take sized]
    · intro request member
      rcases List.mem_cons.mp member with rfl | later
      · exact start
      · have := behind request later
        omega
    · exact List.pairwise_cons.mpr ⟨behind, ordered⟩
    · intro request member
      rcases List.mem_cons.mp member with rfl | later
      · exact large
      · exact sizes request later
    · rw [same]
      rfl

/-! ## The same arithmetic over the integers -/

def integerStart (options : Options) (sect : Int) (part : Partinfo) : Int :=
  let start := sect + options.sectors
  if part.start ≠ 0 then part.start * 2
  else if options.kbAlign ≠ 0 then ((start - 1).tdiv options.kbAlign + 1) * options.kbAlign
  else start

def integerEnd (options : Options) (start : Int) (part : Partinfo) : Int :=
  let sect := start + part.size * 2
  if options.kbAlign = 0 then
    let cylSize := (options.heads : Int) * options.sectors
    sect + cylSize - sect.tmod cylSize
  else sect

/-- No partition reaches sector 2^32. -/
def TotalBelow (options : Options) (sect : Int) : List Partinfo → Prop
  | [] => True
  | part :: rest =>
      if part.size = 0 then TotalBelow options sect rest
      else
        let next := integerEnd options (integerStart options sect part) part
        next < 2 ^ 32 ∧ TotalBelow options next rest

/-- Aligning a start does not move it back in front of the partition before. -/
def Forward (options : Options) (sect : Int) : List Partinfo → Prop
  | [] => True
  | part :: rest =>
      if part.size = 0 then Forward options sect rest
      else
        let start := integerStart options sect part
        (part.start = 0 → sect ≤ start ∧ 0 < start) ∧
          Forward options (integerEnd options start part) rest

/-- `heads * sectors` is computed in an `int`. -/
def CylinderFits (options : Options) (parts : List Partinfo) : Prop :=
  options.kbAlign = 0 → (∃ part ∈ parts, part.size ≠ 0) → options.heads * options.sectors < 2 ^ 31

theorem toLong_ofLong {value : Int} (lower : -2 ^ 63 ≤ value) (upper : value < 2 ^ 63) :
    toLong (ofLong value) = value := by
  unfold toLong ofLong
  split <;> omega

theorem ofLong_lt (value : Int) : ofLong value < 2 ^ 64 := by
  unfold ofLong
  omega

theorem toLong_of_lt {word : Nat} (small : word < 2 ^ 63) : toLong word = word := if_pos small

/-- Rounding to an alignment of either sign stays within it. -/
theorem tdiv_mul_bounds {value align : Int} (nonnegative : 0 ≤ value) :
    0 ≤ value.tdiv align * align ∧ value.tdiv align * align ≤ value := by
  have parts := Int.tdiv_mul_add_tmod value align
  have rest := Int.tmod_nonneg align nonnegative
  have small : (value.tmod align).natAbs ≤ value.natAbs := by
    rw [Int.natAbs_tmod]
    exact Nat.mod_le ..
  omega

theorem integerEnd_ge (options : Options) (start : Int) (part : Partinfo) :
    start + part.size * 2 ≤ integerEnd options start part := by
  have positive : (0 : Int) < (options.heads : Int) * options.sectors :=
    Int.mul_pos (Int.natCast_pos.mpr options.heads_pos) (Int.natCast_pos.mpr options.sectors_pos)
  have rest := Int.tmod_lt_of_pos (start + part.size * 2) positive
  unfold integerEnd
  dsimp only
  split <;> omega

/-! ## One partition of the loop -/

theorem partitionStart_integer (here : sect < 2 ^ 32)
    (below : integerStart options sect part < 2 ^ 32)
    (placed : partitionStart options index sect part = .ok start) :
    start < 2 ^ 64 ∧ toLong start = integerStart options sect part ∧
      -2 ^ 31 ≤ integerStart options sect part ∧
      (part.start ≠ 0 ∨ options.kbAlign = 0 → sect + options.sectors ≤ start ∧ start < 2 ^ 32) := by
  have gap := options.sectors_lt
  have positive := options.sectors_pos
  have whole : (sect + options.sectors) % 2 ^ 64 = sect + options.sectors :=
    Nat.mod_eq_of_lt (by omega)
  unfold integerStart at below ⊢
  simp only [partitionStart, whole] at placed
  dsimp only at below ⊢
  by_cases explicit : part.start ≠ 0
  · rw [if_pos explicit] at below placed ⊢
    rw [Nat.mod_eq_of_lt (by omega)] at placed
    split at placed
    · cases placed
    · cases placed
      rw [toLong_of_lt (by omega)]
      omega
  · rw [if_neg explicit] at below placed ⊢
    by_cases aligned : options.kbAlign ≠ 0
    · rw [if_pos aligned] at below placed ⊢
      have lower := options.kbAlign_ge
      have argument : toLong (sect + options.sectors) - 1 = (sect + options.sectors : Int) - 1 := by
        rw [toLong_of_lt (by omega)]
        omega
      have bounds := @tdiv_mul_bounds ((sect + options.sectors : Int) - 1) options.kbAlign (by omega)
      have spread := Int.add_mul (((sect + options.sectors : Int) - 1).tdiv options.kbAlign) 1
        options.kbAlign
      cases placed
      rw [roundToKb, argument]
      refine ⟨ofLong_lt _, toLong_ofLong (by omega) (by omega), by omega, ?_⟩
      rintro (named | unaligned)
      · exact absurd named explicit
      · exact absurd unaligned aligned
    · rw [if_neg aligned] at below placed ⊢
      cases placed
      rw [toLong_of_lt (by omega)]
      omega

theorem partitionEnd_integer {i : Int} (value : toLong start = i) (lower : -2 ^ 31 ≤ i)
    (bound : start < 2 ^ 64) (below : integerEnd options i part < 2 ^ 32)
    (fits : options.kbAlign = 0 → options.heads * options.sectors < 2 ^ 31)
    (ended : partitionEnd options start part = .ok next) :
    next < 2 ^ 64 ∧ toLong next = integerEnd options i part := by
  have grows := integerEnd_ge options i part
  have counter : toLong ((start + part.size * 2) % 2 ^ 64) = i + part.size * 2 := by
    unfold toLong at value ⊢
    split at value <;> split <;> omega
  unfold partitionEnd at ended
  dsimp only at ended
  by_cases unaligned : options.kbAlign = 0
  · rw [if_pos unaligned] at ended
    unfold integerEnd at below grows ⊢
    dsimp only at below grows ⊢
    rw [if_pos unaligned] at below grows ⊢
    unfold roundToCyl at ended
    dsimp only at ended
    rw [cylSize_eq (fits unaligned), counter, Int.natCast_mul] at ended
    split at ended
    · cases ended
    · cases ended
      exact ⟨ofLong_lt _, toLong_ofLong (by omega) (by omega)⟩
  · rw [if_neg unaligned] at ended
    unfold integerEnd at below ⊢
    dsimp only at below ⊢
    rw [if_neg unaligned] at below ⊢
    cases ended
    exact ⟨Nat.mod_lt _ (by decide), counter⟩

theorem sectorsBetween_long {i e : Int} (value : toLong start = i) (bound : start < 2 ^ 64)
    (final : toLong next = e) (bound' : next < 2 ^ 64) (small : e - i < 2 ^ 63)
    (large : -2 ^ 63 ≤ e - i) : toLong (sectorsBetween start next) = e - i := by
  unfold sectorsBetween
  unfold toLong at *
  split at value <;> split at final <;> split <;> omega

theorem sectorsBetween_lt : sectorsBetween start next < 2 ^ 64 := Nat.mod_lt _ (by decide)

theorem printedBytes_eq {word : Nat} {value : Int} (long : toLong word = value)
    (large : -2 ^ 50 ≤ value) (small : value < 2 ^ 50) : printedBytes word = value * 512 := by
  rw [printedBytes, long]
  exact toLong_ofLong (by unfold diskSectorSize; omega) (by unfold diskSectorSize; omega)

theorem eq_of_toLong {word : Nat} {value : Int} (long : toLong word = value) (bound : word < 2 ^ 64)
    (nonnegative : 0 ≤ value) : (word : Int) = value := by
  unfold toLong at long
  split at long <;> omega

/-- A partition that the counter has gone forward over gets the entry it asked for. -/
theorem entry_placed (options : Options) (index : Nat) (part : Partinfo) {i e : Int}
    (value : toLong start = i) (bound : start < 2 ^ 64) (final : toLong next = e)
    (bound' : next < 2 ^ 64) (nonnegative : 0 ≤ i) (grows : i ≤ e) (below : e < 2 ^ 32) :
    ((mbrEntry options index start next part).start.toNat : Int) = i ∧
      ((mbrEntry options index start next part).length.toNat : Int) = e - i ∧
      printedBytes start = i * diskSectorSize ∧
      printedBytes (sectorsBetween start next) = (e - i) * diskSectorSize := by
  have between := sectorsBetween_long value bound final bound' (by omega) (by omega)
  have startEq := eq_of_toLong value bound nonnegative
  have lengthEq := eq_of_toLong between sectorsBetween_lt (by omega)
  refine ⟨?_, ?_, printedBytes_eq value (by omega) (by omega),
    printedBytes_eq between (by omega) (by omega)⟩
  · rw [mbrEntry, UInt32.toNat_ofNat']
    omega
  · rw [mbrEntry, UInt32.toNat_ofNat']
    omega

/-- What is printed for a negative number of sectors is no multiple of a word. -/
theorem printed_negative {word : Nat} {value : Int} {entryWord : UInt32}
    (long : toLong word = value) (large : -2 ^ 50 ≤ value) (negative : value < 0) :
    printedBytes word ≠ (entryWord.toNat : Int) * diskSectorSize := by
  rw [printedBytes_eq long large (by omega)]
  unfold diskSectorSize
  omega

/-- A cylinder of 2^31 sectors or more is a negative `int`, and rounding to it goes down. -/
theorem cylinder_overflows {i : Int} (value : toLong start = i) (bound : start < 2 ^ 64)
    (positive : 0 ≤ i) (below : integerEnd options i part < 2 ^ 32)
    (unaligned : options.kbAlign = 0) (overflow : 2 ^ 31 ≤ options.heads * options.sectors)
    (ended : partitionEnd options start part = .ok next) :
    next < 2 ^ 64 ∧ ∃ e, toLong next = e ∧ e < i + part.size * 2 ∧ -2 ^ 32 ≤ e := by
  have grows := integerEnd_ge options i part
  have counter : toLong ((start + part.size * 2) % 2 ^ 64) = i + part.size * 2 := by
    unfold toLong at value ⊢
    split at value <;> split <;> omega
  unfold integerEnd at below grows
  dsimp only at below grows
  rw [if_pos unaligned, ← Int.natCast_mul] at below grows
  have within := (@tdiv_mul_bounds (i + part.size * 2)
    ((options.heads * options.sectors : Nat) : Int) (by omega)).1
  rw [Int.tdiv_mul_self] at within
  have size : cylSize options = (options.heads * options.sectors : Nat) - 2 ^ 32 := by
    unfold cylSize
    dsimp only
    rw [Nat.mod_eq_of_lt (by omega), if_neg (by omega)]
  unfold partitionEnd roundToCyl at ended
  dsimp only at ended
  rw [if_pos unaligned, counter, size] at ended
  have rest := Int.tmod_nonneg ((options.heads * options.sectors : Nat) - 2 ^ 32 : Int)
    (show 0 ≤ i + part.size * 2 by omega)
  have small := (@tdiv_mul_bounds (i + part.size * 2)
    ((options.heads * options.sectors : Nat) - 2 ^ 32 : Int) (by omega)).1
  rw [Int.tdiv_mul_self] at small
  split at ended
  · cases ended
  · cases ended
    exact ⟨ofLong_lt _, _, toLong_ofLong (by omega) (by omega), by omega, by omega⟩

theorem writePtes_take {rest : List Partinfo} (sized : part.size ≠ 0)
    (accepted : writePtes options index sect (part :: rest) = .ok (entries, printed)) :
    ∃ start next tail more, partitionStart options index sect part = .ok start ∧
      partitionEnd options start part = .ok next ∧
      writePtes options (index + 1) next rest = .ok (tail, more) ∧
      entries = mbrEntry options index start next part :: tail ∧
      printed = (printedBytes start, printedBytes (sectorsBetween start next)) :: more := by
  rw [writePtes, if_neg sized] at accepted
  obtain ⟨start, placed, accepted⟩ := bind_eq_ok.mp accepted
  obtain ⟨next, ended, accepted⟩ := bind_eq_ok.mp accepted
  obtain ⟨⟨tail, more⟩, others, same⟩ := bind_eq_ok.mp accepted
  cases same
  exact ⟨start, next, tail, more, placed, ended, others, rfl, rfl⟩

theorem writePtes_skip {rest : List Partinfo} (null : part.size = 0)
    (accepted : writePtes options index sect (part :: rest) = .ok (entries, printed)) :
    ∃ tail, writePtes options (index + 1) sect rest = .ok (tail, printed) ∧
      entries = Pte.cleared :: tail := by
  rw [writePtes, if_pos null] at accepted
  split at accepted
  · obtain ⟨⟨tail, more⟩, others, same⟩ := bind_eq_ok.mp accepted
    cases same
    exact ⟨tail, others, rfl⟩
  · cases accepted

theorem cylinderFits_skip {rest : List Partinfo} (null : part.size = 0) :
    CylinderFits options (part :: rest) ↔ CylinderFits options rest := by
  unfold CylinderFits
  simp [null]

theorem cylinderFits_take {rest : List Partinfo} (sized : part.size ≠ 0) :
    CylinderFits options (part :: rest) ↔
      (options.kbAlign = 0 → options.heads * options.sectors < 2 ^ 31) := by
  unfold CylinderFits
  simp [sized]

theorem CylinderFits.tail {rest : List Partinfo} (fits : CylinderFits options (part :: rest)) :
    CylinderFits options rest := by
  intro unaligned more
  obtain ⟨other, member, sized⟩ := more
  exact fits unaligned ⟨other, List.mem_cons_of_mem _ member, sized⟩

/-! ## The whole loop -/

/-- A run that rounds to an overflown cylinder leaves an entry that is too short, or prints a
negative size. -/
theorem not_wellPlaced_overflow {rest : List Partinfo} {tail : List Pte} {more : List (Int × Int)}
    (sized : part.size ≠ 0) (here : sect < 2 ^ 32)
    (below : integerEnd options (integerStart options sect part) part < 2 ^ 32)
    (placed : partitionStart options index sect part = .ok start)
    (ended : partitionEnd options start part = .ok next)
    (unaligned : options.kbAlign = 0) (overflow : 2 ^ 31 ≤ options.heads * options.sectors) :
    ¬ WellPlaced lower (part :: rest) (mbrEntry options index start next part :: tail)
      ((printedBytes start, printedBytes (sectorsBetween start next)) :: more) := by
  have grows := integerEnd_ge options (integerStart options sect part) part
  obtain ⟨bound, value, -, forward⟩ := partitionStart_integer here (by omega) placed
  have reached := forward (Or.inr unaligned)
  have nonnegative : 0 ≤ integerStart options sect part := by
    rw [← value, toLong_of_lt (by omega)]
    omega
  obtain ⟨bound', e, final, short, large⟩ :=
    cylinder_overflows value bound nonnegative below unaligned overflow ended
  generalize integerStart options sect part = i at *
  have deep : -2 ^ 50 ≤ e - i := by omega
  have between := sectorsBetween_long value bound final bound' (by omega) (by omega)
  rw [wellPlaced_take sized]
  rintro ⟨-, enough, place, -⟩
  rcases Int.lt_or_le (e - i) 0 with negative | positive
  · exact printed_negative between deep negative (Prod.mk.inj place).2
  · have lengthEq := eq_of_toLong between sectorsBetween_lt positive
    have word : (mbrEntry options index start next part).length.toNat =
        sectorsBetween start next % 2 ^ 32 := UInt32.toNat_ofNat'
    rw [word] at enough
    clear place word
    generalize sectorsBetween start next = gap at enough lengthEq between
    omega

theorem writePtes_wellPlaced_iff (here : sect < 2 ^ 32) (total : TotalBelow options sect parts)
    (accepted : writePtes options index sect parts = .ok (entries, printed)) :
    WellPlaced (max 1 sect) parts entries printed ↔
      Forward options sect parts ∧ CylinderFits options parts := by
  induction parts generalizing index sect entries printed with
  | nil =>
      cases accepted
      refine iff_of_true ⟨?_, List.Pairwise.nil, ?_, rfl⟩ ⟨trivial, ?_⟩
      · intro request member
        cases member
      · intro request member
        cases member
      · rintro - ⟨other, member, -⟩
        cases member
  | cons part rest ih =>
      by_cases null : part.size = 0
      · obtain ⟨tail, others, rfl⟩ := writePtes_skip null accepted
        rw [TotalBelow, if_pos null] at total
        rw [wellPlaced_skip null, Forward, if_pos null, cylinderFits_skip null]
        exact ih here total others
      · obtain ⟨start, next, tail, more, placed, ended, others, rfl, rfl⟩ :=
          writePtes_take null accepted
        rw [TotalBelow, if_neg null] at total
        dsimp only at total
        obtain ⟨below, total⟩ := total
        have grows := integerEnd_ge options (integerStart options sect part) part
        obtain ⟨bound, value, lower, forward⟩ := partitionStart_integer here (by omega) placed
        by_cases fits : CylinderFits options (part :: rest)
        · have fitting := (cylinderFits_take null).mp fits
          obtain ⟨bound', final⟩ := partitionEnd_integer value lower bound below fitting ended
          rw [wellPlaced_take null, Forward, if_neg null]
          dsimp only
          by_cases backward : integerStart options sect part < max 1 sect
          · -- the start went back: the entry shows it, or what is printed is negative
            have implicit : part.start = 0 := by
              by_contra explicit
              have reached := forward (Or.inl explicit)
              have positive := options.sectors_pos
              rw [toLong_of_lt (by omega)] at value
              omega
            constructor
            · rintro ⟨behind, -, place, -⟩
              rcases Int.lt_or_le (integerStart options sect part) 0 with negative | nonnegative
              · exact absurd (Prod.mk.inj place).1 (printed_negative value (by omega) negative)
              · obtain ⟨startEq, -⟩ := entry_placed options index part value bound final
                  bound' nonnegative (by omega) below
                omega
            · rintro ⟨⟨onward, -⟩, -⟩
              have := onward implicit
              omega
          · obtain ⟨startEq, lengthEq, printedStart, printedLength⟩ :=
              entry_placed options index part value bound final bound' (by omega) (by omega) below
            have nextEq := eq_of_toLong final bound' (by omega)
            rw [← nextEq] at total
            have recursion := ih (by omega) total others
            have counter : (mbrEntry options index start next part).start.toNat +
                (mbrEntry options index start next part).length.toNat = max 1 next := by
              omega
            rw [counter, recursion, ← nextEq, startEq, lengthEq, printedStart, printedLength]
            constructor
            · rintro ⟨-, -, -, onward, -⟩
              exact ⟨⟨fun _ => by omega, onward⟩, fits⟩
            · rintro ⟨⟨-, onward⟩, -⟩
              exact ⟨by omega, by omega, rfl, onward, fits.tail⟩
        · obtain ⟨unaligned, overflow⟩ := Classical.not_imp.mp
            (fun implied => fits ((cylinderFits_take null).mpr implied))
          exact iff_of_false (not_wellPlaced_overflow null here below placed ended unaligned
            (Nat.le_of_not_lt overflow)) fun holds => fits holds.2

theorem writePtes_length (accepted : writePtes options index sect parts = .ok (entries, printed)) :
    entries.length = parts.length := by
  induction parts generalizing index sect entries printed with
  | nil => cases accepted; rfl
  | cons part rest ih =>
      by_cases null : part.size = 0
      · obtain ⟨tail, others, rfl⟩ := writePtes_skip null accepted
        rw [List.length_cons, List.length_cons, ih others]
      · obtain ⟨start, next, tail, more, -, -, others, rfl, -⟩ := writePtes_take null accepted
        rw [List.length_cons, List.length_cons, ih others]

theorem requestedEntries_padded (same : entries.length = parts.length) (padding : List Pte) :
    requestedEntries parts (entries ++ padding) = requestedEntries parts entries := by
  unfold requestedEntries
  rw [← List.append_nil parts, List.zip_append same.symm, List.zip_nil_left, List.append_nil,
    List.append_nil]

theorem wellPlaced_padded (same : entries.length = parts.length) (padding : List Pte) :
    WellPlaced lower parts (entries ++ padding) printed ↔ WellPlaced lower parts entries printed := by
  constructor
  · rintro ⟨behind, ordered, sized, equal⟩
    rw [requestedEntries_padded same] at behind ordered sized equal
    exact ⟨behind, ordered, sized, equal⟩
  · rintro ⟨behind, ordered, sized, equal⟩
    rw [← requestedEntries_padded same padding] at behind ordered sized equal
    exact ⟨behind, ordered, sized, equal⟩

/-- With an alignment that is not negative every start is behind the partition before. -/
theorem forward_of_align (align : 0 ≤ options.kbAlign) {sect : Int} (nonnegative : 0 ≤ sect) :
    Forward options sect parts := by
  induction parts generalizing sect with
  | nil => trivial
  | cons part rest ih =>
      rw [Forward]
      split
      · exact ih nonnegative
      · have positive := options.sectors_pos
        have reached : sect + options.sectors ≤ integerStart options sect part ∨
            part.start ≠ 0 ∧ 0 ≤ integerStart options sect part := by
          unfold integerStart
          dsimp only
          by_cases explicit : part.start ≠ 0
          · rw [if_pos explicit]
            exact Or.inr ⟨explicit, by omega⟩
          · rw [if_neg explicit]
            split
            · have unit := Int.tmod_lt_of_pos (sect + options.sectors - 1)
                (show 0 < options.kbAlign by omega)
              have parts := Int.tdiv_mul_add_tmod (sect + options.sectors - 1) options.kbAlign
              rw [Int.add_mul, Int.one_mul]
              omega
            · exact Or.inl (Int.le_refl _)
        have grows := integerEnd_ge options (integerStart options sect part) part
        exact ⟨fun implicit => by omega, ih (by omega)⟩

/-- Of the requests that stay below sector 2^32 those get entries in order, apart, as large as
requested and printed as they are that align forward and whose cylinder is an `int`. -/
theorem genPtable_wellPlaced_iff {table : Ptable} {signature : UInt32}
    (total : TotalBelow options 0 options.parts)
    (accepted : genPtable options signature = .ok (table, printed)) :
    WellPlaced 1 options.parts table.entries printed ↔
      Forward options 0 options.parts ∧ CylinderFits options options.parts := by
  obtain ⟨⟨entries, places⟩, written, made⟩ := bind_eq_ok.mp accepted
  cases made
  rw [wellPlaced_padded (writePtes_length written)]
  exact writePtes_wellPlaced_iff (by decide) total written

theorem sample_placed : ∃ table printed, genPtable sampleOptions 0x5452574F = .ok (table, printed) ∧
    WellPlaced 1 sampleOptions.parts table.entries printed := by
  have total : TotalBelow sampleOptions 0 sampleOptions.parts := by
    simp only [TotalBelow, sampleOptions]
    decide
  have forward : Forward sampleOptions 0 sampleOptions.parts :=
    forward_of_align (by decide) (by decide)
  have fits : CylinderFits sampleOptions sampleOptions.parts := fun _ _ => by decide
  exact ⟨_, _, rfl, (genPtable_wellPlaced_iff total rfl).mpr ⟨forward, fits⟩⟩

/-- `ptgen -h 46341 -s 46341 -p 1M`: a cylinder of 2147488281 sectors. -/
def wideOptions : Options where
  active := 1
  heads := 46341
  sectors := 46341
  kbAlign := 0
  ignoreNullSizedPartition := false
  guid := List.replicate 16 0
  parts := [⟨0, 1024, 0x83, zero_lt_start, megabyte_lt⟩]
  heads_pos := by decide
  heads_lt := by decide
  sectors_pos := by decide
  sectors_lt := by decide
  kbAlign_ge := by decide
  kbAlign_lt := by decide
  parts_le := by decide

/-- The size printed is negative. -/
theorem wideCylinder_misprinted : ¬ ∀ (options : Options) (signature : UInt32) (table : Ptable)
    (printed : List (Int × Int)), TotalBelow options 0 options.parts →
      genPtable options signature = .ok (table, printed) →
        WellPlaced 1 options.parts table.entries printed := by
  intro always
  have total : TotalBelow wideOptions 0 wideOptions.parts := by
    simp only [TotalBelow, wideOptions]
    decide
  have misprinted := (always wideOptions 0x5452574F _ _ total rfl).printed_eq
  revert misprinted
  decide +kernel

end Rut9xx.Ptgen
