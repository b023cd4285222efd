import Rut9xx.Ptgen.Layout

namespace Rut9xx.Ptgen

open Data

def Requested (options : Options) (index : Nat) (part : Partinfo) : Prop :=
  options.parts[index]? = some part ∧ part.size ≠ 0

/-- What a reader of the table relies on. Extents are in sectors, sizes in kilobytes. -/
structure WellFormed (options : Options) (table : Gptable) : Prop where
  requested : ∀ index part, Requested options index part →
    ∃ entry, table.entries[index]? = some entry ∧ entry.used = true ∧
      entry.type ≠ guidPartitionBiosBoot ∧ entry.start + part.size * 2 ≤ entry.end + 1
  biosBoot : table.entries[gptEntryMax - 1]? = some (biosBootEntry options)
  noOther : ∀ (index : Nat) entry, table.entries[index]? = some entry → entry.used = true →
    index = gptEntryMax - 1 ∨ ∃ part, Requested options index part
  disjoint : (usedExtents table.entries).Pairwise Apart
  usable : ∀ extent ∈ usedExtents table.entries,
    table.header.firstUsable ≤ extent.1 ∧ extent.1 ≤ extent.2 ∧
      extent.2 ≤ table.header.lastUsable

def firstRequested (parts : List Partinfo) : Option Partinfo :=
  parts.find? fun part => part.size ≠ 0

/-- The entry of the boot partition is not asked for, its sectors are there, the first
partition starts behind them, and the entry array fits behind the last partition. -/
structure Roomy (options : Options) : Prop where
  spareEntry : ∀ part, ¬ Requested options (gptEntryMax - 1) part
  bootSectors : 34 < alignedSector options options.sectors
  firstStart : ∀ first, firstRequested options.parts = some first → first.start ≠ 0 →
    alignedSector options options.sectors ≤ first.start * 2
  behindLast : if firstRequested options.parts = none then options.sectors < 34
    else 33 ≤ options.sectors

variable {options : Options} {part first : Partinfo} {parts : List Partinfo}
  {entries : List Gpte} {table : Gptable} {sect last : Nat}

/-! ## The ends of the layout -/

theorem exactExtents_none (options : Options) (sect : Nat) (nothing : firstRequested parts = none) :
    exactExtents options sect parts = [] ∧ exactLast options sect parts = sect := by
  induction parts with
  | nil => exact ⟨rfl, rfl⟩
  | cons part rest ih =>
      by_cases null : part.size = 0
      · have nothing : firstRequested rest = none := by
          simpa [firstRequested, null] using nothing
        simpa only [exactExtents, exactLast, if_pos null] using ih nothing
      · simp [firstRequested, null] at nothing

theorem exactExtents_first (options : Options) (sect : Nat) (request : firstRequested parts = some first) :
    ∃ next rest, exactExtents options sect parts =
      (exactStart options sect first, next) :: rest := by
  induction parts with
  | nil => cases request
  | cons part rest ih =>
      by_cases null : part.size = 0
      · have request : firstRequested rest = some first := by
          simpa [firstRequested, null] using request
        simpa only [exactExtents, if_pos null] using ih request
      · have same : part = first := by simpa [firstRequested, null] using request
        subst same
        simp only [exactExtents, if_neg null]
        exact ⟨_, _, rfl⟩

theorem exactExtents_last (options : Options) (sect : Nat) (request : firstRequested parts = some first) :
    ∃ extent ∈ exactExtents options sect parts,
      exactLast options sect parts ≤ extent.2 + 1 := by
  induction parts generalizing sect first with
  | nil => cases request
  | cons part rest ih =>
      by_cases null : part.size = 0
      · have request : firstRequested rest = some first := by
          simpa [firstRequested, null] using request
        simpa only [exactExtents, exactLast, if_pos null] using ih sect request
      · simp only [exactExtents, exactLast, if_neg null]
        cases more : firstRequested rest with
        | none =>
            obtain ⟨none, final⟩ := exactExtents_none options
              (exactEnd options (exactStart options sect part) part) more
            refine ⟨_, List.mem_cons_self, ?_⟩
            rw [final]
            dsimp only
            omega
        | some later =>
            obtain ⟨extent, member, reaches⟩ :=
              ih (exactEnd options (exactStart options sect part) part) more
            exact ⟨extent, List.mem_cons_of_mem _ member, reaches⟩

/-! ## The entry array -/

theorem gpteArray_getElem?_last (fits : entries.length ≤ gptEntryMax) :
    (gpteArray options entries)[gptEntryMax - 1]? = some (biosBootEntry options) := by
  rw [gpteArray, List.getElem?_set_self]
  simp only [List.length_append, List.length_replicate]
  simp only [gptEntryMax] at fits ⊢
  omega

theorem gpteArray_getElem? {index : Nat} (other : index ≠ gptEntryMax - 1)
    (within : index < entries.length) :
    (gpteArray options entries)[index]? = entries[index]? := by
  rw [gpteArray, List.getElem?_set_ne (by omega), List.getElem?_append_left within]

theorem usedExtents_append (front back : List Gpte) :
    usedExtents (front ++ back) = usedExtents front ++ usedExtents back := by
  simp only [usedExtents, List.filter_append, List.map_append]

theorem usedExtents_cleared (count : Nat) :
    usedExtents (List.replicate count Gpte.cleared) = [] := by
  induction count with
  | zero => rfl
  | succ count ih => exact ih

theorem usedExtents_gpteArray (fits : entries.length ≤ gptEntryMax)
    (spare : ∀ entry, entries[gptEntryMax - 1]? = some entry → entry = Gpte.cleared) :
    usedExtents (gpteArray options entries) =
      usedExtents entries ++ [extent (biosBootEntry options)] := by
  have boot : usedExtents [biosBootEntry options] = [extent (biosBootEntry options)] := rfl
  have whole : usedExtents (entries ++ List.replicate (gptEntryMax - entries.length) Gpte.cleared) =
      usedExtents entries := by
    rw [usedExtents_append, usedExtents_cleared, List.append_nil]
  have length : (entries ++
      List.replicate (gptEntryMax - entries.length) Gpte.cleared).length = gptEntryMax := by
    rw [List.length_append, List.length_replicate]
    omega
  have final : ∀ entry, (entries ++
      List.replicate (gptEntryMax - entries.length) Gpte.cleared)[gptEntryMax - 1]? = some entry →
        entry = Gpte.cleared := by
    intro entry found
    rcases Nat.lt_or_ge (gptEntryMax - 1) entries.length with within | beyond
    · rw [List.getElem?_append_left within] at found
      exact spare entry found
    · rw [List.getElem?_append_right beyond] at found
      exact List.eq_of_mem_replicate (List.mem_of_getElem? found)
  rw [gpteArray]
  generalize entries ++ List.replicate (gptEntryMax - entries.length) Gpte.cleared = array
    at whole length final
  obtain ⟨init, entry, rfl⟩ : ∃ init entry, array = init ++ [entry] :=
    ⟨array.dropLast, array.getLast (by rintro rfl; cases length),
      (List.dropLast_concat_getLast _).symm⟩
  have initLength : init.length = gptEntryMax - 1 := by
    rw [List.length_append, List.length_singleton] at length
    omega
  have cleared : entry = Gpte.cleared := final entry (by rw [← initLength]; simp)
  have skipped : usedExtents [Gpte.cleared] = [] := rfl
  rw [← initLength, List.set_append_right _ _ (Nat.le_refl _), Nat.sub_self, List.set_cons_zero,
    usedExtents_append, boot, ← whole, cleared, usedExtents_append, skipped, List.append_nil]

/-! ## The table -/

theorem genGptable_ok (ordinary : Ordinary options) (accepted : genGptable options = .ok table) :
    ∃ entries last, writeEntries options 0 0 options.parts = .ok (entries, last) ∧
      table.entries = gpteArray options entries ∧
        table.header.firstUsable = 34 ∧ entries.length = options.parts.length ∧
          table.header.lastUsable = (last + options.sectors + (2 ^ 64 - 34)) % 2 ^ 64 := by
  obtain ⟨⟨entries, last⟩, written, made⟩ := bind_eq_ok.mp accepted
  cases made
  have length := writeEntries_length ordinary.align ordinary.cylinder (by omega) ordinary.range
    written
  refine ⟨entries, last, written, rfl, rfl, length, ?_⟩
  have space : entrySectors = 32 := rfl
  simp only [space]
  omega

theorem genGptable_layout (ordinary : Ordinary options)
    (spare : ∀ part, ¬ Requested options (gptEntryMax - 1) part)
    (accepted : genGptable options = .ok table) :
    ∃ last, last = exactLast options 0 options.parts ∧
      Ascending 0 (exactExtents options 0 options.parts) last ∧
      table.header.firstUsable = 34 ∧
      table.header.lastUsable = (last + options.sectors + (2 ^ 64 - 34)) % 2 ^ 64 ∧
      usedExtents table.entries = exactExtents options 0 options.parts ++
        [(34, alignedSector options options.sectors - 1)] := by
  obtain ⟨entries, last, written, array, first, length, usable⟩ :=
    genGptable_ok ordinary accepted
  obtain ⟨extents, final, ascending⟩ := writeEntries_layout ordinary.align ordinary.cylinder
    (by omega) ordinary.range written
  refine ⟨last, final, ascending, first, usable, ?_⟩
  have reserved := reservedSectors_eq ordinary.align
  have bound := alignedSector_bound ordinary.align
  have positive := Nat.lt_of_lt_of_le options.sectors_pos
    (le_alignedSector options.sectors ordinary.align)
  have boot : extent (biosBootEntry options) =
      (34, alignedSector options options.sectors - 1) := by
    simp only [extent, biosBootEntry, reserved, Prod.mk.injEq]
    refine ⟨rfl, by omega⟩
  rw [array, usedExtents_gpteArray (length ▸ options.parts_le), extents, boot]
  intro entry found
  cases request : options.parts[gptEntryMax - 1]? with
  | none =>
      rw [List.getElem?_eq_none_iff, ← length, ← List.getElem?_eq_none_iff, found] at request
      cases request
  | some part =>
      obtain ⟨same, atLast, kind⟩ := writeEntries_getElem? ordinary.align ordinary.cylinder
        (by omega) ordinary.range written request
      rw [found] at atLast
      cases atLast
      rcases kind with ⟨-, cleared⟩ | ⟨sized, -⟩
      · exact cleared
      · exact absurd ⟨request, sized⟩ (spare part)

theorem exactLast_bound (range : InRange options sect parts) :
    exactLast options sect parts + options.sectors ≤ 2 ^ 63 := by
  induction parts generalizing sect with
  | nil => exact range
  | cons part rest ih =>
      simp only [InRange] at range
      simp only [exactLast]
      split at range
      · rename_i null
        rw [if_pos null]
        exact ih range
      · rename_i sized
        rw [if_neg sized]
        exact ih range.2

theorem genGptable_requested (ordinary : Ordinary options)
    (spare : ∀ part, ¬ Requested options (gptEntryMax - 1) part)
    (accepted : genGptable options = .ok table) {index : Nat}
    (request : Requested options index part) :
    ∃ entry, table.entries[index]? = some entry ∧ entry.used = true ∧
      entry.type ≠ guidPartitionBiosBoot ∧ entry.start + part.size * 2 ≤ entry.end + 1 := by
  obtain ⟨entries, last, written, array, -, length, -⟩ := genGptable_ok ordinary accepted
  obtain ⟨entry, found, kind⟩ := writeEntries_getElem? ordinary.align ordinary.cylinder
    (by omega) ordinary.range written request.1
  have other : index ≠ gptEntryMax - 1 := by
    intro same
    exact spare part (same ▸ request)
  have within := (List.getElem?_eq_some_iff.mp found).1
  rcases kind with ⟨null, -⟩ | ⟨-, kind⟩
  · exact absurd null request.2
  · exact ⟨entry, by rw [array, gpteArray_getElem? other within, found], kind⟩

theorem genGptable_noOther (ordinary : Ordinary options)
    (accepted : genGptable options = .ok table) {index : Nat} {entry : Gpte}
    (found : table.entries[index]? = some entry) (used : entry.used = true) :
    index = gptEntryMax - 1 ∨ ∃ part, Requested options index part := by
  obtain ⟨entries, last, written, array, -, length, -⟩ := genGptable_ok ordinary accepted
  by_cases final : index = gptEntryMax - 1
  · exact Or.inl final
  · rw [array] at found
    cases request : options.parts[index]? with
    | none =>
        rw [List.getElem?_eq_none_iff, ← length] at request
        rw [gpteArray, List.getElem?_set_ne (by omega), List.getElem?_append_right request] at found
        rw [List.eq_of_mem_replicate (List.mem_of_getElem? found)] at used
        exact absurd used (by decide)
    | some part =>
        obtain ⟨other, atIndex, kind⟩ := writeEntries_getElem? ordinary.align ordinary.cylinder
          (by omega) ordinary.range written request
        rw [gpteArray_getElem? final (List.getElem?_eq_some_iff.mp atIndex).1, atIndex] at found
        cases found
        rcases kind with ⟨-, rfl⟩ | ⟨sized, -⟩
        · exact absurd used (by decide)
        · exact Or.inr ⟨part, request, sized⟩

theorem genGptable_biosBoot (ordinary : Ordinary options)
    (accepted : genGptable options = .ok table) :
    table.entries[gptEntryMax - 1]? = some (biosBootEntry options) := by
  obtain ⟨entries, last, -, array, -, length, -⟩ := genGptable_ok ordinary accepted
  rw [array]
  exact gpteArray_getElem?_last (length ▸ options.parts_le)

/-- The layout, once it starts behind the boot partition, does not come back to it. -/
theorem layout_apart_boot {reserved : Nat} (ascending : Ascending 0 (exactExtents options 0 parts) last)
    (firstBehind : ∀ first, firstRequested parts = some first →
      reserved ≤ exactStart options 0 first) :
    ∀ extent ∈ exactExtents options 0 parts, reserved ≤ extent.1 := by
  cases request : firstRequested parts with
  | none =>
      rw [(exactExtents_none options 0 request).1]
      intro extent member
      cases member
  | some first =>
      obtain ⟨next, rest, layout⟩ := exactExtents_first options 0 request
      have behind := firstBehind first request
      rw [layout] at ascending ⊢
      have raised : Ascending reserved ((exactStart options 0 first, next) :: rest) last :=
        ⟨behind, ascending.2⟩
      intro extent member
      exact (raised.bounds extent member).1

theorem exactStart_behind
    (firstStart : first.start ≠ 0 → alignedSector options options.sectors ≤ first.start * 2) :
    alignedSector options options.sectors ≤ exactStart options 0 first := by
  by_cases explicit : first.start ≠ 0
  · rw [exactStart, if_pos explicit]
    exact firstStart explicit
  · have aligned : exactStart options 0 first = alignedSector options options.sectors := by
      rw [exactStart, if_neg explicit, Nat.zero_add]
    exact Nat.le_of_eq aligned.symm

theorem roomy_wellFormed (ordinary : Ordinary options) (roomy : Roomy options)
    (accepted : genGptable options = .ok table) : WellFormed options table := by
  obtain ⟨last, final, ascending, firstUsable, lastUsable, extents⟩ :=
    genGptable_layout ordinary roomy.spareEntry accepted
  have bound := exactLast_bound ordinary.range
  have gap := options.sectors_lt
  have boot := roomy.bootSectors
  have bootBound := alignedSector_bound ordinary.align
  have behind := layout_apart_boot ascending fun first request =>
    exactStart_behind (roomy.firstStart first request)
  have room := roomy.behindLast
  refine ⟨fun index part request => genGptable_requested ordinary roomy.spareEntry accepted request,
    genGptable_biosBoot ordinary accepted,
    fun index entry found used => genGptable_noOther ordinary accepted found used, ?_, ?_⟩
  · rw [extents, List.pairwise_append]
    refine ⟨ascending.pairwise, List.pairwise_singleton _ _, ?_⟩
    intro extent member other isBoot
    cases List.mem_singleton.mp isBoot
    have := behind extent member
    exact Or.inr (by dsimp only; omega)
  · rw [extents, firstUsable, lastUsable]
    intro extent member
    rcases List.mem_append.mp member with inLayout | isBoot
    · have positions := ascending.bounds extent inLayout
      have := behind extent inLayout
      cases request : firstRequested options.parts with
      | none =>
          rw [(exactExtents_none options 0 request).1] at inLayout
          cases inLayout
      | some first =>
          rw [request, if_neg (by simp)] at room
          omega
    · cases List.mem_singleton.mp isBoot
      dsimp only
      cases request : firstRequested options.parts with
      | none =>
          rw [request, if_pos rfl] at room
          rw [(exactExtents_none options 0 request).2] at final
          omega
      | some first =>
          rw [request, if_neg (by simp)] at room
          obtain ⟨next, rest, layout⟩ := exactExtents_first options 0 request
          have member : (exactStart options 0 first, next) ∈ exactExtents options 0 options.parts :=
            layout ▸ List.mem_cons_self
          have positions := ascending.bounds _ member
          have := behind _ member
          dsimp only at positions this
          omega

theorem wellFormed_roomy (ordinary : Ordinary options) (wellFormed : WellFormed options table)
    (accepted : genGptable options = .ok table) : Roomy options := by
  have spareEntry : ∀ part, ¬ Requested options (gptEntryMax - 1) part := by
    intro part request
    obtain ⟨entry, found, -, type, -⟩ := wellFormed.requested _ part request
    rw [wellFormed.biosBoot] at found
    cases found
    exact type rfl
  obtain ⟨last, final, ascending, firstUsable, lastUsable, extents⟩ :=
    genGptable_layout ordinary spareEntry accepted
  have bound := exactLast_bound ordinary.range
  have gap := options.sectors_lt
  have bootBound := alignedSector_bound ordinary.align
  have below := le_alignedSector options.sectors ordinary.align
  have positive := options.sectors_pos
  have usable := wellFormed.usable
  have disjoint := wellFormed.disjoint
  rw [extents, firstUsable, lastUsable] at usable
  rw [extents, List.pairwise_append] at disjoint
  have boot := usable _ (List.mem_append_right _ (List.mem_singleton_self _))
  dsimp only at boot
  refine ⟨spareEntry, by omega, ?_, ?_⟩
  · intro first request explicit
    obtain ⟨next, rest, layout⟩ := exactExtents_first options 0 request
    have member : (exactStart options 0 first, next) ∈ exactExtents options 0 options.parts :=
      layout ▸ List.mem_cons_self
    have positions := usable _ (List.mem_append_left _ member)
    have apart := disjoint.2.2 _ member _ (List.mem_singleton_self _)
    rw [exactStart, if_pos explicit] at positions apart
    dsimp only at positions
    rcases apart with before | behind
    · dsimp only at before
      omega
    · dsimp only at behind
      omega
  · cases request : firstRequested options.parts with
    | none =>
        rw [(exactExtents_none options 0 request).2] at final
        rw [if_pos rfl]
        omega
    | some first =>
        rw [if_neg (by simp)]
        obtain ⟨extent, member, reaches⟩ := exactExtents_last options 0 request
        have positions := usable _ (List.mem_append_left _ member)
        have := (ascending.bounds _ member).2.2
        omega

theorem sixteen_pos : 0 < 16 := by decide

theorem zero_lt_start : 0 < 2 ^ 64 := by decide

theorem megabyte_lt : 1024 < 2 ^ 64 := by decide

/-- `ptgen -g -h 16 -s 63 -l 256 -p 16M -p 104M`, as the x86 images are made. -/
def sampleOptions : Options where
  active := 1
  heads := 16
  sectors := 63
  kbAlign := 512
  ignoreNullSizedPartition := false
  guid := guidInit 0x5452574F 0x2211 0x4433 [0x55, 0x66, 0x77, 0x88, 0x99, 0xAA, 0xBB, 0x00]
  parts := [⟨0, 16384, 0x83, zero_lt_start, by decide⟩, ⟨0, 106496, 0x83, zero_lt_start, by decide⟩]
  heads_pos := sixteen_pos
  heads_lt := by decide
  sectors_pos := by decide
  sectors_lt := by decide
  kbAlign_ge := by decide
  kbAlign_lt := by decide
  parts_le := by decide

/-- `ptgen -g -h 16 -s 63 -l 1024 -p 1M@32`: sector 64 is behind the first track and inside
the boot partition, which alignment stretches to sector 2047. -/
def pinnedOptions : Options where
  active := 1
  heads := 16
  sectors := 63
  kbAlign := 2048
  ignoreNullSizedPartition := false
  guid := guidInit 0x5452574F 0x2211 0x4433 [0x55, 0x66, 0x77, 0x88, 0x99, 0xAA, 0xBB, 0x00]
  parts := [⟨32, 1024, 0x83, by decide, megabyte_lt⟩]
  heads_pos := sixteen_pos
  heads_lt := by decide
  sectors_pos := by decide
  sectors_lt := by decide
  kbAlign_ge := by decide
  kbAlign_lt := by decide
  parts_le := by decide

end Rut9xx.Ptgen
