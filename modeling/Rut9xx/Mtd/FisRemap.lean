import Rut9xx.Mtd.Fis

namespace Rut9xx.Mtd.Fis

open Rut9xx.Data

/-! # What a remap makes of the table -/

variable {old new : List FisPart} {desc : FisImageDesc} {first last index count fill : Nat}
  {entries table before range after : List FisImageDesc} {found : Option (Nat × Nat)}
  {high low stop offset size : UInt32}

/-- The entries that are replaced stand together, and behind the last entry the block is
erased. -/
structure ValidTable (old : List FisPart) (before range after : List FisImageDesc) (fill : Nat)
    (table : List FisImageDesc) : Prop where
  layout : table = before ++ range ++ after ++ List.replicate fill FisImageDesc.erased
  used : ∀ desc ∈ before ++ range ++ after, desc.inUse = true
  replaced : ∀ desc ∈ range, isNamed old desc = true
  others : ∀ desc ∈ before ++ after, isNamed old desc = false
  flash : ∀ desc ∈ before ++ range ++ after, desc.flashBase.toNat + desc.size.toNat ≤ 2 ^ 32
  small : table.length < 2 ^ 23

/-! ## The walks over the table -/

theorem ValidTable.inUse (valid : ValidTable old before range after fill table) :
    table.takeWhile FisImageDesc.inUse = before ++ range ++ after := by
  rw [valid.layout, List.takeWhile_append_of_pos valid.used]
  cases fill with
  | zero => simp
  | succ fill =>
      have erased : ¬ FisImageDesc.inUse FisImageDesc.erased = true := by decide
      rw [List.replicate_succ, List.takeWhile_cons_of_neg erased, List.append_nil]

theorem findReplaced_append :
    findReplaced old index (before ++ after) found =
      findReplaced old (index + before.length) after (findReplaced old index before found) := by
  induction before generalizing index found with
  | nil => rfl
  | cons desc before ih =>
      rw [List.cons_append, findReplaced, ih, findReplaced, List.length_cons]
      congr 1
      omega

theorem findReplaced_others (others : ∀ desc ∈ entries, isNamed old desc = false) :
    findReplaced old index entries found = found := by
  induction entries generalizing index with
  | nil => rfl
  | cons desc entries ih =>
      rw [List.forall_mem_cons] at others
      rw [findReplaced, others.1]
      exact ih others.2

theorem findReplaced_all (replaced : ∀ desc ∈ range, isNamed old desc = true) (some' : range ≠ []) :
    findReplaced old index range found =
      some ((found.map Prod.fst).getD index, index + range.length - 1) := by
  induction range generalizing index found with
  | nil => exact absurd rfl some'
  | cons desc range ih =>
      rw [List.forall_mem_cons] at replaced
      rw [findReplaced, replaced.1, if_pos rfl]
      cases range with
      | nil => rfl
      | cons next range =>
          rw [ih replaced.2 (List.cons_ne_nil _ _), Option.map_some, Option.getD_some]
          simp only [List.length_cons]
          congr 2
          omega

theorem ValidTable.findReplaced (valid : ValidTable old before range after fill table) :
    findReplaced old 0 (before ++ range ++ after) none =
      if range = [] then none else some (before.length, before.length + range.length - 1) := by
  have othersFront : ∀ desc ∈ before, isNamed old desc = false := fun desc member =>
    valid.others desc (List.mem_append_left _ member)
  have othersBack : ∀ desc ∈ after, isNamed old desc = false := fun desc member =>
    valid.others desc (List.mem_append_right _ member)
  rw [findReplaced_append, findReplaced_append, findReplaced_others othersFront,
    findReplaced_others othersBack, Nat.zero_add]
  by_cases empty : range = []
  · rw [if_pos empty, empty]
    rfl
  · rw [if_neg empty, findReplaced_all valid.replaced empty]
    rfl

/-! ## The space of the replaced entries -/

/-- Where the space from the base `high` on ends: at the next base of an entry, or at
`high` itself when there is none. -/
def SpaceEnd (entries : List FisImageDesc) (high stop : UInt32) : Prop :=
  (stop = high ∧ ∀ desc ∈ entries, desc.flashBase ≤ high) ∨
    (∃ desc ∈ entries, desc.flashBase = stop) ∧ high < stop ∧
      ∀ desc ∈ entries, high < desc.flashBase → stop ≤ desc.flashBase

theorem maxOffset_spec (start : UInt32) :
    let top := entries.foldl
      (fun offset desc => if offset < desc.flashBase then desc.flashBase else offset) start
    start ≤ top ∧ (∀ desc ∈ entries, desc.flashBase ≤ top) ∧
      (top = start ∨ ∃ desc ∈ entries, desc.flashBase = top) := by
  induction entries generalizing start with
  | nil => exact ⟨UInt32.le_refl _, fun desc member => absurd member List.not_mem_nil, .inl rfl⟩
  | cons desc entries ih =>
      obtain ⟨above, bound, attained⟩ := ih (if start < desc.flashBase then desc.flashBase else start)
      rw [List.foldl_cons]
      generalize entries.foldl _ _ = top at above bound attained
      have both : start ≤ top ∧ desc.flashBase ≤ top := by
        split at above <;> (simp only [UInt32.le_iff_toNat_le, UInt32.lt_iff_toNat_lt] at *; omega)
      refine ⟨both.1, List.forall_mem_cons.mpr ⟨both.2, bound⟩, ?_⟩
      rcases attained with same | ⟨other, member, same⟩
      · split at same
        · exact .inr ⟨desc, List.mem_cons_self, same.symm⟩
        · exact .inl same
      · exact .inr ⟨other, List.mem_cons_of_mem _ member, same⟩

theorem nextOffset_spec :
    nextOffset entries high offset ≤ offset ∧
      (∀ desc ∈ entries, high < desc.flashBase → nextOffset entries high offset ≤ desc.flashBase) ∧
      (nextOffset entries high offset = offset ∨ high < nextOffset entries high offset ∧
        ∃ desc ∈ entries, desc.flashBase = nextOffset entries high offset) := by
  induction entries generalizing offset with
  | nil => exact ⟨UInt32.le_refl _, fun desc member => absurd member List.not_mem_nil, .inl rfl⟩
  | cons desc entries ih =>
      have step : nextOffset (desc :: entries) high offset = nextOffset entries high
          (if high < desc.flashBase ∧ desc.flashBase < offset then desc.flashBase else offset) := rfl
      rw [step]
      obtain ⟨below, bound, attained⟩ := @ih
        (if high < desc.flashBase ∧ desc.flashBase < offset then desc.flashBase else offset)
      generalize nextOffset entries high _ = next at below bound attained
      split at below
      · rename_i nearer
        rw [if_pos nearer] at attained
        refine ⟨?_, List.forall_mem_cons.mpr ⟨fun _ => below, bound⟩, .inr ?_⟩
        · simp only [UInt32.le_iff_toNat_le, UInt32.lt_iff_toNat_lt] at *
          omega
        · rcases attained with same | ⟨above, other, member, same⟩
          · exact ⟨same ▸ nearer.1, desc, List.mem_cons_self, same.symm⟩
          · exact ⟨above, other, List.mem_cons_of_mem _ member, same⟩
      · rename_i further
        rw [if_neg further] at attained
        refine ⟨below, List.forall_mem_cons.mpr ⟨fun above => ?_, bound⟩, ?_⟩
        · have far : ¬ desc.flashBase < offset := fun near => further ⟨above, near⟩
          simp only [UInt32.le_iff_toNat_le, UInt32.lt_iff_toNat_lt] at *
          omega
        · rcases attained with same | ⟨above, other, member, same⟩
          · exact .inl same
          · exact .inr ⟨above, other, List.mem_cons_of_mem _ member, same⟩

theorem spaceEnd_offsets (member : desc ∈ entries) (here : desc.flashBase = high) :
    SpaceEnd entries high (nextOffset entries high (maxOffset entries)) := by
  obtain ⟨-, bound, attained⟩ := @maxOffset_spec entries 0
  change (∀ desc ∈ entries, desc.flashBase ≤ maxOffset entries) at bound
  change maxOffset entries = 0 ∨ ∃ desc ∈ entries, desc.flashBase = maxOffset entries at attained
  obtain ⟨below, nearest, found⟩ := @nextOffset_spec entries high (maxOffset entries)
  by_cases another : ∃ other ∈ entries, high < other.flashBase
  · obtain ⟨other, otherMember, above⟩ := another
    have near := nearest other otherMember above
    have most := bound other otherMember
    right
    rcases found with same | ⟨beyond, next, nextMember, same⟩
    · rw [same] at near nearest ⊢
      have equal : other.flashBase = maxOffset entries := UInt32.le_antisymm most near
      exact ⟨⟨other, otherMember, equal⟩, equal ▸ above, nearest⟩
    · exact ⟨⟨next, nextMember, same⟩, beyond, nearest⟩
  · left
    have top : ∀ other ∈ entries, other.flashBase ≤ high := by
      intro other otherMember
      rw [← UInt32.not_lt]
      exact fun above => another ⟨other, otherMember, above⟩
    have least := bound desc member
    rw [here] at least
    have same : maxOffset entries = high := by
      rcases attained with zero | ⟨other, otherMember, equal⟩
      · rw [zero] at least ⊢
        simp only [UInt32.le_iff_toNat_le, ← UInt32.toNat_inj] at least ⊢
        have nothing : (0 : UInt32).toNat = 0 := rfl
        omega
      · exact UInt32.le_antisymm (equal ▸ top other otherMember) least
    refine ⟨?_, top⟩
    rcases found with equal | ⟨beyond, next, nextMember, equal⟩
    · exact equal.trans same
    · exact absurd ⟨next, nextMember, equal ▸ beyond⟩ another

/-- There is one end. -/
theorem SpaceEnd.unique {other : UInt32} (ends : SpaceEnd entries high stop)
    (also : SpaceEnd entries high other) : stop = other := by
  rcases ends with ⟨rfl, top⟩ | ⟨⟨desc, member, same⟩, above, nearest⟩
  · rcases also with ⟨rfl, -⟩ | ⟨⟨desc, member, same⟩, above, -⟩
    · rfl
    · have most := top desc member
      rw [same] at most
      exact absurd above (UInt32.not_lt.mpr most)
  · rcases also with ⟨rfl, top⟩ | ⟨⟨next, nextMember, equal⟩, beyond, closest⟩
    · have most := top desc member
      rw [same] at most
      exact absurd above (UInt32.not_lt.mpr most)
    · have left := nearest next nextMember (equal.symm ▸ beyond)
      have right := closest desc member (same.symm ▸ above)
      rw [equal] at left
      rw [same] at right
      exact UInt32.le_antisymm left right

/-! ## Moving the tail -/

theorem toSize_nonneg (small : count < 2 ^ 24) : toSize (count : Int) = count := by
  unfold toSize
  omega

theorem memmove_length {moved : List FisImageDesc} {dest src : Nat} {amount : Int}
    (done : memmove table dest src amount = some moved) : moved.length = table.length := by
  rw [memmove] at done
  split at done
  · exact writeAt_length done
  · cases done

theorem moveTail_length {moved : List FisImageDesc} {dest : Nat}
    (done : moveTail table dest last = some moved) : moved.length = table.length := by
  rw [moveTail] at done
  split at done
  · cases done
    rfl
  · simp only [Option.bind_eq_bind, Option.bind_eq_some_iff] at done
    obtain ⟨shifted, shift, rest⟩ := done
    have same := memmove_length shift
    split at rest
    · rw [memsetErased] at rest
      split at rest
      · exact (writeAt_length rest).trans same
      · cases rest
    · cases rest
      exact same

/-- A shorter list lets `memset` run out of the block. -/
theorem moveTail_shrink {dest : Nat} (small : table.length < 2 ^ 23) (shorter : dest < last)
    (within : last ≤ table.length) : moveTail table dest last = none := by
  rw [moveTail, if_neg (by omega), if_neg (by omega)]
  dsimp only
  cases shift : memmove table dest last (table.length - last) with
  | none => rfl
  | some moved =>
      have length := memmove_length shift
      have overrun : ¬ ((table.length : Int) - (last - dest : Nat)).toNat +
          toSize ((table.length : Int) - (last - dest : Nat) - table.length) ≤ moved.length := by
        unfold toSize
        omega
      simp only [Option.bind_eq_bind, Option.bind_some, if_pos shorter]
      exact if_neg overrun

/-- Up to the end of the block the entries go back. -/
theorem moveTail_grow {dest : Nat} (small : table.length < 2 ^ 23) (longer : last ≤ dest)
    (within : dest ≤ table.length) :
    ∃ moved, moveTail table dest last = some moved ∧ moved.length = table.length ∧
      moved.take last = table.take last ∧
      moved.drop dest = (table.drop last).take (table.length - dest) := by
  rcases Nat.lt_or_eq_of_le longer with further | rfl
  · have amount : toSize ((table.length : Int) - dest) = table.length - dest := by
      rw [← Int.natCast_sub within]
      exact toSize_nonneg (by omega)
    have room : (slice table last (table.length - dest)).length = table.length - dest := by
      simp only [slice, List.length_take, List.length_drop]
      omega
    obtain ⟨moved, written⟩ := @writeAt_exists _ table (slice table last (table.length - dest)) dest
      (by omega)
    refine ⟨moved, ?_, writeAt_length written, writeAt_take written (by omega), ?_⟩
    · rw [moveTail, if_neg (by omega), if_pos further]
      simp only [memmove, amount, if_pos (by omega : last + (table.length - dest) ≤ table.length),
        written, Option.bind_eq_bind, Option.bind_some, if_neg (by omega : ¬ dest < last)]
      rfl
    · obtain ⟨-, rfl⟩ := writeAt_some_iff.mp written
      rw [room, Nat.add_sub_cancel' within, List.drop_length, List.append_nil,
        List.drop_left' (by rw [List.length_take]; omega), slice]
  · refine ⟨table, by rw [moveTail, if_pos rfl], rfl, rfl, ?_⟩
    rw [List.take_of_length_le (by rw [List.length_drop])]

/-! ## Writing the new entries -/

def madeDescs : List FisPart → UInt32 → UInt32 → List FisImageDesc
  | [], _, _ => []
  | part :: rest, offset, size =>
      let made := madeDesc part offset size
      made :: madeDescs rest (offset + made.size) (size - made.size)

theorem madeDescs_length : (madeDescs new offset size).length = new.length := by
  induction new generalizing offset size with
  | nil => rfl
  | cons part new ih => rw [madeDescs, List.length_cons, List.length_cons, ih]

theorem writeParts_fits {written : List FisImageDesc} (some' : new ≠ [])
    (done : writeParts new index offset size table = some written) :
    index + new.length ≤ table.length := by
  induction new generalizing index offset size table with
  | nil => exact absurd rfl some'
  | cons part new ih =>
      simp only [writeParts, Option.bind_eq_bind, Option.bind_eq_some_iff] at done
      obtain ⟨stored, store, rest⟩ := done
      have fits := writeAt_fits store
      rw [List.length_singleton] at fits
      cases new with
      | nil => exact fits
      | cons next new =>
          have more := ih (List.cons_ne_nil _ _) rest
          rw [writeAt_length store] at more
          simp only [List.length_cons] at more ⊢
          omega

theorem writeParts_eq (fits : index + new.length ≤ table.length) :
    writeParts new index offset size table =
      some (table.take index ++ madeDescs new offset size ++ table.drop (index + new.length)) := by
  induction new generalizing index offset size table with
  | nil => simp [writeParts, madeDescs]
  | cons part new ih =>
      rw [List.length_cons] at fits
      obtain ⟨stored, store⟩ := @writeAt_exists _ table [madeDesc part offset size] index (by
        rw [List.length_singleton]
        omega)
      have front : stored.take (index + 1) = table.take index ++ [madeDesc part offset size] := by
        obtain ⟨-, rfl⟩ := writeAt_some_iff.mp store
        exact List.take_left' (by
          rw [List.length_append, List.length_take, List.length_singleton]
          omega)
      have back : stored.drop (index + 1 + new.length) = table.drop (index + 1 + new.length) :=
        writeAt_drop store (by rw [List.length_singleton]; omega)
      have lengths : index + (part :: new).length = index + 1 + new.length := by
        rw [List.length_cons]
        omega
      have room : index + 1 + new.length ≤ stored.length := by
        rw [writeAt_length store]
        omega
      simp only [writeParts, store, Option.bind_eq_bind, Option.bind_some]
      rw [ih room, front, back, lengths, madeDescs]
      simp only [List.append_assoc, List.cons_append, List.nil_append]

/-! ## The table that comes out -/

/-- The lower base of the first and the last entry that is replaced. -/
def lowBase (first last : FisImageDesc) : UInt32 :=
  if first.flashBase > last.flashBase then last.flashBase else first.flashBase

def highBase (first last : FisImageDesc) : UInt32 :=
  if first.flashBase > last.flashBase then first.flashBase else last.flashBase

variable {firstDesc lastDesc : FisImageDesc}

theorem fisRemap_steps (new : List FisPart) (valid : ValidTable old before range after fill table)
    (head : range.head? = some firstDesc) (tail : range.getLast? = some lastDesc) :
    ∃ stop, SpaceEnd (before ++ range ++ after) (highBase firstDesc lastDesc) stop ∧
      fisRemap (some table) old new = (do
        let moved ← moveTail table (before.length + new.length) (before.length + range.length)
        let written ← writeParts new before.length (lowBase firstDesc lastDesc)
          (stop - lowBase firstDesc lastDesc) moved
        return (0, written)) := by
  have some' : range ≠ [] := by
    intro empty
    rw [empty] at head
    cases head
  have positive := List.length_pos_iff.mpr some'
  have firstMember := List.mem_of_head? head
  have lastMember := List.mem_of_getLast? tail
  have firstHere : table[before.length]? = some firstDesc := by
    rw [valid.layout, List.append_assoc, List.append_assoc, List.getElem?_append_right (by omega),
      Nat.sub_self, List.getElem?_append_left positive, ← List.head?_eq_getElem?, head]
  have lastHere : table[before.length + range.length - 1]? = some lastDesc := by
    rw [valid.layout, List.append_assoc, List.append_assoc, List.getElem?_append_right (by omega),
      List.getElem?_append_left (by omega),
      show before.length + range.length - 1 - before.length = range.length - 1 by omega,
      ← List.getLast?_eq_getElem?, tail]
  have highHere : ∃ desc ∈ before ++ range ++ after, desc.flashBase = highBase firstDesc lastDesc := by
    unfold highBase
    split
    · exact ⟨firstDesc, by simp [firstMember], rfl⟩
    · exact ⟨lastDesc, by simp [lastMember], rfl⟩
  obtain ⟨desc, member, here⟩ := highHere
  have lowEq : (if firstDesc.flashBase > lastDesc.flashBase then lastDesc else firstDesc).flashBase =
      lowBase firstDesc lastDesc := by
    unfold lowBase
    split <;> rfl
  have highEq : (if firstDesc.flashBase > lastDesc.flashBase then firstDesc else lastDesc).flashBase =
      highBase firstDesc lastDesc := by
    unfold highBase
    split <;> rfl
  refine ⟨_, spaceEnd_offsets member here, ?_⟩
  simp only [fisRemap, valid.inUse, valid.findReplaced, if_neg some', Option.bind_eq_bind,
    Option.bind_some, firstHere, lastHere, lowEq, highEq,
    show before.length + range.length - 1 + 1 = before.length + range.length by omega]

/-- Without an entry to replace there is no first one. -/
theorem fisRemap_nothing (valid : ValidTable old before [] after fill table) :
    fisRemap (some table) old new = none := by
  simp only [fisRemap, valid.inUse, valid.findReplaced, if_true]
  rfl

theorem fisRemap_shrinks (valid : ValidTable old before range after fill table)
    (shorter : new.length < range.length) : fisRemap (some table) old new = none := by
  have some' : range ≠ [] := List.length_pos_iff.mp (by omega)
  obtain ⟨stop, -, steps⟩ := fisRemap_steps new valid (List.head?_eq_some_head some')
    (List.getLast?_eq_some_getLast some')
  have within : before.length + range.length ≤ table.length := by
    rw [valid.layout]
    simp only [List.length_append]
    omega
  rw [steps, moveTail_shrink valid.small (by omega) within]
  rfl

theorem fisRemap_grows (valid : ValidTable old before range after fill table)
    (head : range.head? = some firstDesc) (tail : range.getLast? = some lastDesc)
    (longer : range.length ≤ new.length) :
    ∃ stop, SpaceEnd (before ++ range ++ after) (highBase firstDesc lastDesc) stop ∧
      fisRemap (some table) old new =
        if before.length + new.length ≤ table.length then
          some (0, before ++ madeDescs new (lowBase firstDesc lastDesc)
              (stop - lowBase firstDesc lastDesc) ++
            (after ++ List.replicate fill FisImageDesc.erased).take
              (table.length - (before.length + new.length)))
        else none := by
  obtain ⟨stop, ends, steps⟩ := fisRemap_steps new valid head tail
  refine ⟨stop, ends, ?_⟩
  rw [steps]
  have some' : new ≠ [] := by
    intro empty
    rw [empty, List.length_nil, Nat.le_zero, List.length_eq_zero_iff] at longer
    rw [longer] at head
    cases head
  by_cases fits : before.length + new.length ≤ table.length
  · obtain ⟨moved, moveEq, length, front, back⟩ :=
      @moveTail_grow (before.length + range.length) table _ valid.small (by omega) fits
    have frontBefore : moved.take before.length = before := by
      have same := congrArg (List.take before.length) front
      rw [List.take_take, List.take_take, Nat.min_eq_left (by omega)] at same
      rw [same, valid.layout, List.append_assoc, List.append_assoc, List.take_left]
    have tailEq : table.drop (before.length + range.length) =
        after ++ List.replicate fill FisImageDesc.erased := by
      rw [valid.layout, List.append_assoc _ after, List.drop_left' (by rw [List.length_append])]
    rw [if_pos fits, moveEq]
    simp only [Option.bind_eq_bind, Option.bind_some]
    rw [writeParts_eq (by omega), frontBefore, back, tailEq]
    rfl
  · rw [if_neg fits]
    cases moveEq : moveTail table (before.length + new.length) (before.length + range.length) with
    | none => rfl
    | some moved =>
        simp only [Option.bind_eq_bind, Option.bind_some]
        cases written : writeParts new before.length (lowBase firstDesc lastDesc)
            (stop - lowBase firstDesc lastDesc) moved with
        | none => rfl
        | some result =>
            have inside := writeParts_fits some' written
            rw [moveTail_length moveEq] at inside
            exact absurd inside fits

/-! ## The table that is asked for -/

/-- The entry of a partition at `base`; a size of zero is left to the remap. -/
structure MadeFrom (part : FisPart) (base : UInt32) (desc : FisImageDesc) : Prop where
  name : desc.name = part.name
  flashBase : desc.flashBase = base
  memBase : desc.memBase = part.loadaddr
  entryPoint : desc.entryPoint = part.loadaddr
  size : part.size ≠ 0 → desc.size = part.size
  dataLength : desc.dataLength = if part.length = 0 then desc.size else part.length
  crcFile : desc.crcFile = part.crc

/-- Each entry begins where the one before it ends. -/
inductive Contiguous : UInt32 → List FisPart → List FisImageDesc → Prop where
  | nil {base : UInt32} : Contiguous base [] []
  | cons {base : UInt32} {part : FisPart} {desc : FisImageDesc} {parts : List FisPart}
      {descs : List FisImageDesc} (made : MadeFrom part base desc)
      (rest : Contiguous (base + desc.size) parts descs) :
      Contiguous base (part :: parts) (desc :: descs)

def totalSize (descs : List FisImageDesc) : Nat := (descs.map fun desc => desc.size.toNat).sum

/-- Some replaced entry reaches up to this place. -/
def ReachedBy (range : List FisImageDesc) (place : Nat) : Prop :=
  ∃ desc ∈ range, place ≤ desc.flashBase.toNat + desc.size.toNat

def IsBase (range : List FisImageDesc) (base : UInt32) : Prop :=
  (∃ desc ∈ range, desc.flashBase = base) ∧ ∀ desc ∈ range, base ≤ desc.flashBase

/-- The new entries in the place of the replaced ones, the others as they were. -/
def Remapped (before range after : List FisImageDesc) (new : List FisPart) (capacity : Nat)
    (result : List FisImageDesc) : Prop :=
  ∃ base made fill, IsBase range base ∧ Contiguous base new made ∧
    ReachedBy range (base.toNat + totalSize made) ∧
    result = before ++ made ++ after ++ List.replicate fill FisImageDesc.erased ∧
    result.length = capacity

def RemapsTable (table : List FisImageDesc) (old new : List FisPart)
    (before range after : List FisImageDesc) : Prop :=
  ∃ result, fisRemap (some table) old new = some (0, result) ∧
    Remapped before range after new table.length result

/-! ## When it comes out -/

def askedSize (new : List FisPart) : Nat := (new.map fun part => part.size.toNat).sum

/-- The sizes asked for end in the space of the replaced entries; a last size of zero
stands for the rest up to the end that the code works out. -/
def SizesFit (entries range : List FisImageDesc) (low high : UInt32) (new : List FisPart) : Prop :=
  if new.getLast?.map FisPart.size = some 0 then
    ∃ stop, SpaceEnd entries high stop ∧ low.toNat + askedSize new ≤ stop.toNat ∧
      ReachedBy range stop.toNat
  else ReachedBy range (low.toNat + askedSize new)

/-- No fewer entries than are replaced, room for them, the lowest base at one end of the
replaced ones, and sizes that fit. -/
structure RemapFits (before range after : List FisImageDesc) (new : List FisPart)
    (capacity : Nat) : Prop where
  grows : range.length ≤ new.length
  room : before.length + new.length + after.length ≤ capacity
  region : ∃ first last, range.head? = some first ∧ range.getLast? = some last ∧
    (∀ desc ∈ range, lowBase first last ≤ desc.flashBase) ∧
    SizesFit (before ++ range ++ after) range (lowBase first last) (highBase first last) new

theorem madeDesc_madeFrom (part : FisPart) : MadeFrom part offset (madeDesc part offset size) := by
  have positive : ∀ number : UInt32, number > 0 ↔ number ≠ 0 := by
    intro number
    rw [gt_iff_lt, UInt32.lt_iff_toNat_lt, ne_eq, ← UInt32.toNat_inj]
    exact Nat.pos_iff_ne_zero
  refine ⟨rfl, rfl, rfl, rfl, fun some' => if_pos ((positive _).mpr some'), ?_, rfl⟩
  by_cases empty : part.length = 0
  · rw [if_pos empty]
    exact if_neg fun above => (positive _).mp above empty
  · rw [if_neg empty]
    exact if_pos ((positive _).mpr empty)

theorem madeDescs_contiguous : Contiguous offset new (madeDescs new offset size) := by
  induction new generalizing offset size with
  | nil => exact .nil
  | cons part new ih => exact .cons (madeDesc_madeFrom part) ih

theorem Contiguous.length {made : List FisImageDesc} (holds : Contiguous offset new made) :
    made.length = new.length := by
  induction holds with
  | nil => rfl
  | cons _ _ ih => rw [List.length_cons, List.length_cons, ih]

/-- Entries that follow two bases follow one. -/
theorem Contiguous.base_unique {made : List FisImageDesc} {base : UInt32} (some' : new ≠ [])
    (left : Contiguous base new made) (right : Contiguous offset new made) : base = offset := by
  cases left with
  | nil => exact absurd rfl some'
  | cons first _ =>
      cases right with
      | cons second _ => exact first.flashBase.symm.trans second.flashBase

/-- What the new entries take up when only the last size is left open. -/
theorem totalSize_madeDescs (fixed : ∀ part ∈ new.dropLast, part.size ≠ 0) :
    totalSize (madeDescs new offset size) =
      if new.getLast?.map FisPart.size = some 0 then
        askedSize new + (size - UInt32.ofNat (askedSize new)).toNat
      else askedSize new := by
  induction new generalizing offset size with
  | nil => rfl
  | cons part new ih =>
      cases new with
      | nil =>
          by_cases open' : part.size = 0
          · have nothing : ¬ (0 : UInt32) > 0 := by decide
            simp [totalSize, madeDescs, madeDesc, askedSize, open', nothing]
          · have sizeEq := (@madeDesc_madeFrom offset size part).size open'
            simp [totalSize, madeDescs, askedSize, open', sizeEq]
      | cons next new =>
          rw [List.dropLast_cons_cons, List.forall_mem_cons] at fixed
          have sizeEq := (@madeDesc_madeFrom offset size part).size fixed.1
          have rest := @ih (offset + part.size) (size - part.size) fixed.2
          rw [madeDescs]
          simp only [sizeEq]
          have split : totalSize (madeDesc part offset size ::
              madeDescs (next :: new) (offset + part.size) (size - part.size)) =
              part.size.toNat + totalSize (madeDescs (next :: new) (offset + part.size)
                (size - part.size)) := by
            rw [totalSize, List.map_cons, List.sum_cons, sizeEq]
            rfl
          have askedEq : askedSize (part :: next :: new) =
              part.size.toNat + askedSize (next :: new) := by
            rw [askedSize, List.map_cons, List.sum_cons]
            rfl
          rw [split, rest, askedEq, List.getLast?_cons_cons]
          split
          · have sub : size - part.size - UInt32.ofNat (askedSize (next :: new)) =
                size - UInt32.ofNat (part.size.toNat + askedSize (next :: new)) := by
              rw [UInt32.ofNat_add, UInt32.ofNat_toNat]
              exact sub_sub _ _ _
            rw [sub]
            omega
          · rfl

theorem lowBase_le_highBase : (lowBase firstDesc lastDesc).toNat ≤ (highBase firstDesc lastDesc).toNat := by
  unfold lowBase highBase
  split <;> (simp only [gt_iff_lt, UInt32.lt_iff_toNat_lt] at *; omega)

theorem SpaceEnd.above (ends : SpaceEnd entries high stop) : high.toNat ≤ stop.toNat := by
  rcases ends with ⟨rfl, -⟩ | ⟨-, above, -⟩
  · exact Nat.le_refl _
  · exact Nat.le_of_lt (UInt32.lt_iff_toNat_lt.mp above)

/-- The new entries stay in the space exactly if the sizes asked for fit. -/
theorem sizesFit_iff (flash : ∀ desc ∈ range, desc.flashBase.toNat + desc.size.toNat ≤ 2 ^ 32)
    (inside : ∀ desc ∈ range, desc ∈ entries) (ends : SpaceEnd entries high stop)
    (ordered : low.toNat ≤ high.toNat) (fixed : ∀ part ∈ new.dropLast, part.size ≠ 0) :
    ReachedBy range (low.toNat + totalSize (madeDescs new low (stop - low))) ↔
      SizesFit entries range low high new := by
  have above := ends.above
  rw [totalSize_madeDescs fixed, SizesFit]
  split
  · have stopBound := stop.toNat_lt
    have rest : (stop - low - UInt32.ofNat (askedSize new)).toNat =
        (2 ^ 32 - askedSize new % 2 ^ 32 + (stop.toNat - low.toNat)) % 2 ^ 32 := by
      rw [UInt32.toNat_sub, UInt32.toNat_sub, UInt32.toNat_ofNat']
      omega
    constructor
    · intro reached
      refine ⟨stop, ends, ?_⟩
      by_cases fits : low.toNat + askedSize new ≤ stop.toNat
      · refine ⟨fits, ?_⟩
        have place : low.toNat + (askedSize new + (stop - low - UInt32.ofNat (askedSize new)).toNat) =
            stop.toNat := by
          rw [rest]
          omega
        rwa [place] at reached
      · -- the rest has wrapped, and ends behind the last address
        obtain ⟨desc, member, reach⟩ := reached
        have most := flash desc member
        have size := desc.size.toNat_lt
        rw [rest] at reach
        have zero : stop.toNat = 0 := by omega
        rcases ends with ⟨-, top⟩ | ⟨-, beyond, -⟩
        · have low' := UInt32.le_iff_toNat_le.mp (top desc (inside desc member))
          omega
        · have less := UInt32.lt_iff_toNat_lt.mp beyond
          omega
    · intro fits
      obtain ⟨stop', ends', within, reached⟩ := fits
      obtain rfl := ends.unique ends'
      have place : low.toNat + (askedSize new + (stop - low - UInt32.ofNat (askedSize new)).toNat) =
          stop.toNat := by
        rw [rest]
        omega
      rwa [place]
  · rfl

theorem fixed_of_accepted (accepted : fisValidate (some table) old new = 1) :
    ∀ part ∈ new.dropLast, part.size ≠ 0 := by
  intro part member zero
  have open' : new.dropLast.any (fun part => part.size == 0) = true :=
    List.any_eq_true.mpr ⟨part, member, by simpa using zero⟩
  rw [fisValidate, if_pos open'] at accepted
  cases accepted

theorem take_fill {kept : Nat} (within : after.length ≤ kept) (few : kept ≤ after.length + fill) :
    (after ++ List.replicate fill FisImageDesc.erased).take kept =
      after ++ List.replicate (kept - after.length) FisImageDesc.erased := by
  rw [List.take_append, List.take_of_length_le within, List.take_replicate,
    Nat.min_eq_left (by omega)]

/-- A remap that was validated gives the table that is asked for exactly if it replaces
entries by at least as many, in the room and the space that there is. -/
theorem fisRemap_iff (valid : ValidTable old before range after fill table)
    (accepted : fisValidate (some table) old new = 1) :
    RemapsTable table old new before range after ↔
      RemapFits before range after new table.length := by
  have capacity : table.length = before.length + range.length + after.length + fill := by
    rw [valid.layout]
    simp only [List.length_append, List.length_replicate]
  have flash : ∀ desc ∈ range, desc.flashBase.toNat + desc.size.toNat ≤ 2 ^ 32 := fun desc member =>
    valid.flash desc (by simp [member])
  have inside : ∀ desc ∈ range, desc ∈ before ++ range ++ after := fun desc member => by simp [member]
  have fixed := fixed_of_accepted accepted
  constructor
  · intro remaps
    obtain ⟨result, ran, base, made, left, isBase, contiguous, reached, rfl, length⟩ := remaps
    have longer : range.length ≤ new.length := by
      by_contra shorter
      rw [fisRemap_shrinks valid (Nat.lt_of_not_le shorter)] at ran
      cases ran
    have some' : range ≠ [] := by
      obtain ⟨⟨desc, member, -⟩, -⟩ := isBase
      exact List.ne_nil_of_mem member
    have head := List.head?_eq_some_head some'
    have tail := List.getLast?_eq_some_getLast some'
    obtain ⟨stop, ends, remapEq⟩ := fisRemap_grows valid head tail longer
    rw [ran] at remapEq
    split at remapEq
    · rename_i fits
      rw [Option.some.injEq, Prod.mk.injEq] at remapEq
      have tables := remapEq.2
      rw [List.append_assoc, List.append_assoc, List.append_assoc, List.append_cancel_left_eq] at tables
      have lengths : made.length = (madeDescs new (lowBase (range.head some') (range.getLast some'))
          (stop - lowBase (range.head some') (range.getLast some'))).length := by
        rw [contiguous.length, madeDescs_length]
      obtain ⟨madeEq, -⟩ := List.append_inj tables lengths
      have newSome : new ≠ [] := by
        rw [← List.length_pos_iff]
        have positive := List.length_pos_iff.mpr some'
        omega
      have baseEq : base = lowBase (range.head some') (range.getLast some') :=
        contiguous.base_unique newSome (madeEq ▸ madeDescs_contiguous)
      subst baseEq
      rw [madeEq] at reached
      refine ⟨longer, ?_, _, _, head, tail, isBase.2, ?_⟩
      · simp only [List.length_append, List.length_replicate, contiguous.length] at length
        omega
      · exact (sizesFit_iff flash inside ends lowBase_le_highBase fixed).mp reached
    · cases remapEq
  · intro fits
    obtain ⟨longer, room, first, last, head, tail, lowest, sizes⟩ := fits
    obtain ⟨stop, ends, remapEq⟩ := fisRemap_grows valid head tail longer
    rw [if_pos (by omega), take_fill (by omega) (by omega), ← List.append_assoc] at remapEq
    refine ⟨_, remapEq, _, _, _, ⟨?_, lowest⟩, madeDescs_contiguous,
      (sizesFit_iff flash inside ends lowBase_le_highBase fixed).mpr sizes, rfl, ?_⟩
    · unfold lowBase
      split
      · exact ⟨last, List.mem_of_getLast? tail, rfl⟩
      · exact ⟨first, List.mem_of_head? head, rfl⟩
    · simp only [List.length_append, List.length_replicate, madeDescs_length]
      omega

/-! ## Two entries for one -/

def nameOf (text : List UInt8) : Vector UInt8 16 := Vector.ofFn fun index => text.getD index 0

def entryOf (text : List UInt8) (base size : UInt32) : FisImageDesc :=
  { FisImageDesc.zeroed with name := nameOf text, flashBase := base, size := size }

def partOf (text : List UInt8) (size : UInt32) : FisPart := ⟨nameOf text, 0, size, 0, 0⟩

/-- The boot loader in front, "ab" and "c" to be replaced, and an erased rest. -/
def twoEntries : List FisImageDesc :=
  [entryOf [0x52] 0 0x10000, entryOf [0x61, 0x62] 0x10000 0x20000, entryOf [0x63] 0x30000 0x10000] ++
    List.replicate 13 FisImageDesc.erased

theorem twoEntries_valid : ValidTable [partOf [0x61, 0x62] 0, partOf [0x63] 0]
    [entryOf [0x52] 0 0x10000] [entryOf [0x61, 0x62] 0x10000 0x20000, entryOf [0x63] 0x30000 0x10000]
    [] 13 twoEntries := by
  refine ⟨rfl, ?_, ?_, ?_, ?_, ?_⟩ <;> decide

theorem fisRemap_iff_two :
    RemapsTable twoEntries [partOf [0x61, 0x62] 0, partOf [0x63] 0] [partOf [0x64] 0x30000]
        [entryOf [0x52] 0 0x10000]
        [entryOf [0x61, 0x62] 0x10000 0x20000, entryOf [0x63] 0x30000 0x10000] [] ↔
      RemapFits [entryOf [0x52] 0 0x10000]
        [entryOf [0x61, 0x62] 0x10000 0x20000, entryOf [0x63] 0x30000 0x10000] []
        [partOf [0x64] 0x30000] twoEntries.length :=
  fisRemap_iff twoEntries_valid (by decide)

/-- One partition in the place of two is accepted, and the remap leaves the block. -/
theorem fisRemap_two_for_one :
    ValidTable [partOf [0x61, 0x62] 0, partOf [0x63] 0] [entryOf [0x52] 0 0x10000]
        [entryOf [0x61, 0x62] 0x10000 0x20000, entryOf [0x63] 0x30000 0x10000] [] 13 twoEntries ∧
      fisValidate (some twoEntries) [partOf [0x61, 0x62] 0, partOf [0x63] 0]
        [partOf [0x64] 0x30000] = 1 ∧
      ¬ RemapsTable twoEntries [partOf [0x61, 0x62] 0, partOf [0x63] 0] [partOf [0x64] 0x30000]
        [entryOf [0x52] 0 0x10000]
        [entryOf [0x61, 0x62] 0x10000 0x20000, entryOf [0x63] 0x30000 0x10000] [] := by
  refine ⟨twoEntries_valid, by decide, fun remaps => ?_⟩
  obtain ⟨result, ran, -⟩ := remaps
  rw [fisRemap_shrinks twoEntries_valid (by decide)] at ran
  cases ran

end Rut9xx.Mtd.Fis
