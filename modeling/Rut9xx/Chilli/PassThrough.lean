import Rut9xx.Data.Partial
import Rut9xx.Data.Recency
import Mathlib.Data.UInt

namespace Rut9xx.Chilli

open Data

/-! # The pass-through lists of the walled garden

An access outside the array has no result.
-/

structure PassThrough where
  host : UInt32
  mask : UInt32
  proto : UInt8
  port : UInt16
  /-- With the extended walled garden only; no part of an entry's identity. -/
  expiry : Int
  deriving DecidableEq, Repr

/-- `pt_equal` -/
def ptEqual (a b : PassThrough) : Bool :=
  a.host = b.host && a.mask = b.mask && a.proto = b.proto && a.port = b.port

/-- An array `ptlist` and the number of its used entries, `*ptcnt`. -/
structure PassThroughs where
  ptlist : List PassThrough
  ptcnt : UInt32
  deriving DecidableEq, Repr

namespace PassThroughs

def entries (list : PassThroughs) : List PassThrough := list.ptlist.take list.ptcnt.toNat

def find (list : PassThroughs) (pt : PassThrough) : Option Nat :=
  list.entries.findIdx? (ptEqual · pt)

/-- The entries behind `index` move up by one. -/
def removeAt (list : PassThroughs) (index : Nat) : Option PassThroughs := do
  let ptlist ← shiftDown list.ptlist index (list.ptcnt.toNat - 1 - index)
  some ⟨ptlist, list.ptcnt - 1⟩

/-- `ptlist[cnt] = *pt` -/
def put (list : PassThroughs) (pt : PassThrough) : Option PassThroughs :=
  if list.ptcnt.toNat < list.ptlist.length then
    some ⟨list.ptlist.set list.ptcnt.toNat pt, list.ptcnt + 1⟩
  else none

end PassThroughs

/-- `pass_through_rem`: its value and the list. -/
def passThroughRem (list : PassThroughs) (pt : PassThrough) : Option (Int × PassThroughs) :=
  match list.find pt with
  | some index => (list.removeAt index).map fun list => (0, list)
  | none => some (0, list)

/-- What `pass_through_add` does with an entry that is not in the list. -/
def passThroughAppend (ptlen : UInt32) (list : PassThroughs) (pt : PassThrough) (isDyn : Bool) :
    Option (Int × PassThroughs) :=
  if list.ptcnt = ptlen then
    if isDyn then do
      -- the bound of this loop is `ptlen - 1` and not the count
      let ptlist ← shiftDown list.ptlist 0 (ptlen - 1).toNat
      let list ← PassThroughs.put ⟨ptlist, list.ptcnt - 1⟩ pt
      some (0, list)
    else some (-1, list)
  else (list.put pt).map fun list => (0, list)

/-- `pass_through_add`: its value and the list. -/
def passThroughAdd (ptlen : UInt32) (list : PassThroughs) (pt : PassThrough) (isDyn : Bool) :
    Option (Int × PassThroughs) :=
  match list.find pt with
  | some index =>
      if isDyn then do
        let list ← list.removeAt index
        passThroughAppend ptlen list pt isDyn
      else some (0, list)
  | none => passThroughAppend ptlen list pt isDyn

inductive PassThroughCall where
  | add (pt : PassThrough) (isDyn : Bool)
  | rem (pt : PassThrough)
  deriving DecidableEq, Repr

def passThroughCall (ptlen : UInt32) (list : PassThroughs) :
    PassThroughCall → Option (Int × PassThroughs)
  | .add pt isDyn => passThroughAdd ptlen list pt isDyn
  | .rem pt => passThroughRem list pt

/-- A call, its value left out. -/
def passThroughStep (ptlen : UInt32) (list : PassThroughs) (call : PassThroughCall) :
    Option PassThroughs :=
  (passThroughCall ptlen list call).map Prod.snd

/-! ## The lists as they should be -/

variable {ptlen : UInt32} {list after : PassThroughs} {pt : PassThrough}

/-- A list in an array of `ptlen` entries. -/
structure Disciplined (ptlen : UInt32) (list : PassThroughs) : Prop where
  capacity : list.ptlist.length = ptlen.toNat
  fits : list.ptcnt.toNat ≤ ptlen.toNat
  distinct : Distinct ptEqual list.entries

/-- What a call makes of the entries, and the value that it returns. -/
def Obeys (ptlen : Nat) (call : PassThroughCall) (before after : List PassThrough) (ret : Int) : Prop :=
  match call with
  | .add pt true =>
      after = (if before.length = ptlen ∧ ∀ entry ∈ before, ptEqual entry pt = false then
          before.tail ++ [pt]
        else without ptEqual before pt ++ [pt]) ∧ ret = 0
  | .add pt false =>
      if ∃ entry ∈ before, ptEqual entry pt then after = before ∧ ret = 0
      else if before.length = ptlen then after = before ∧ ret = -1
      else after = before ++ [pt] ∧ ret = 0
  | .rem pt => after = without ptEqual before pt ∧ ret = 0

theorem ptEqual_symm {a b : PassThrough} (same : ptEqual a b = true) : ptEqual b a = true := by
  simp only [ptEqual, Bool.and_eq_true, decide_eq_true_eq] at same ⊢
  obtain ⟨⟨⟨host, mask⟩, proto⟩, port⟩ := same
  exact ⟨⟨⟨host.symm, mask.symm⟩, proto.symm⟩, port.symm⟩

theorem ptEqual_trans {a b c : PassThrough} (first : ptEqual a b = true)
    (second : ptEqual b c = true) : ptEqual a c = true := by
  simp only [ptEqual, Bool.and_eq_true, decide_eq_true_eq] at first second ⊢
  obtain ⟨⟨⟨host, mask⟩, proto⟩, port⟩ := first
  obtain ⟨⟨⟨host', mask'⟩, proto'⟩, port'⟩ := second
  exact ⟨⟨⟨host.trans host', mask.trans mask'⟩, proto.trans proto'⟩, port.trans port'⟩

namespace Disciplined

theorem length_entries (disciplined : Disciplined ptlen list) :
    list.entries.length = list.ptcnt.toNat := by
  have fits := disciplined.fits
  rw [PassThroughs.entries, List.length_take, disciplined.capacity]
  omega

/-- Taking out the entry at `index`, which is not behind the used ones. -/
theorem removeAt (disciplined : Disciplined ptlen list) {index : Nat}
    (inside : index < list.ptcnt.toNat) :
    ∃ after, list.removeAt index = some after ∧ Disciplined ptlen after ∧
      after.entries = list.entries.eraseIdx index ∧ after.ptcnt.toNat + 1 = list.ptcnt.toNat := by
  have room : list.ptcnt.toNat ≤ list.ptlist.length := disciplined.capacity ▸ disciplined.fits
  obtain ⟨shifted, done, length, front⟩ := shiftDown_removes inside room
  have count : (list.ptcnt - 1).toNat = list.ptcnt.toNat - 1 := by
    rw [UInt32.toNat_sub_of_le _ _ (UInt32.le_iff_toNat_le.mpr (by
      show 1 ≤ list.ptcnt.toNat
      omega))]
    rfl
  have entries : PassThroughs.entries ⟨shifted, list.ptcnt - 1⟩ = list.entries.eraseIdx index := by
    rw [PassThroughs.entries, count]
    exact front
  refine ⟨⟨shifted, list.ptcnt - 1⟩, ?_, ⟨length.trans disciplined.capacity, ?_, ?_⟩, entries, ?_⟩
  · rw [PassThroughs.removeAt, done]
    rfl
  · have fits := disciplined.fits
    show (list.ptcnt - 1).toNat ≤ ptlen.toNat
    omega
  · rw [entries]
    exact disciplined.distinct.sublist (List.eraseIdx_sublist _ _)
  · show (list.ptcnt - 1).toNat + 1 = list.ptcnt.toNat
    omega

/-- Writing an entry that is new behind the used ones. -/
theorem put (disciplined : Disciplined ptlen list) (room : list.ptcnt.toNat < ptlen.toNat)
    (new : ∀ entry ∈ list.entries, ptEqual entry pt = false) :
    ∃ after, list.put pt = some after ∧ Disciplined ptlen after ∧
      after.entries = list.entries ++ [pt] := by
  have inside : list.ptcnt.toNat < list.ptlist.length := disciplined.capacity.symm ▸ room
  have count : (list.ptcnt + 1).toNat = list.ptcnt.toNat + 1 := by
    have small := ptlen.toNat_lt
    rw [UInt32.toNat_add]
    exact Nat.mod_eq_of_lt (by
      show list.ptcnt.toNat + 1 < 2 ^ 32
      omega)
  have entries : PassThroughs.entries ⟨list.ptlist.set list.ptcnt.toNat pt, list.ptcnt + 1⟩ =
      list.entries ++ [pt] := by
    rw [PassThroughs.entries, count, List.take_succ_eq_append_getElem (by simpa using inside),
      List.getElem_set_self, List.take_set_of_le (Nat.le_refl _)]
    rfl
  refine ⟨⟨list.ptlist.set list.ptcnt.toNat pt, list.ptcnt + 1⟩, ?_, ⟨?_, ?_, ?_⟩, entries⟩
  · rw [PassThroughs.put, if_pos inside]
  · rw [List.length_set]
    exact disciplined.capacity
  · show (list.ptcnt + 1).toNat ≤ ptlen.toNat
    omega
  · rw [entries]
    exact Distinct.add disciplined.distinct new

/-- The first half of both calls: an entry that is there is at the place where it is found. -/
theorem found (disciplined : Disciplined ptlen list) {index : Nat}
    (here : list.find pt = some index) :
    (∃ entry ∈ list.entries, ptEqual entry pt) ∧
      ∃ after, list.removeAt index = some after ∧ Disciplined ptlen after ∧
        after.entries = without ptEqual list.entries pt ∧ after.ptcnt.toNat + 1 = list.ptcnt.toNat := by
  obtain ⟨inside, matched, -⟩ := List.findIdx?_eq_some_iff_getElem.mp here
  have below : index < list.ptcnt.toNat := disciplined.length_entries ▸ inside
  obtain ⟨after, removed, kept, entries, count⟩ := disciplined.removeAt below
  refine ⟨⟨_, List.getElem_mem inside, matched⟩, after, removed, kept, ?_, count⟩
  have erased : without ptEqual list.entries pt = list.entries.eraseIdx index := by
    rw [without, List.eraseP_eq_eraseIdx]
    rw [PassThroughs.find] at here
    rw [here]
  rw [entries, erased]

theorem notFound (absent : list.find pt = none) : ∀ entry ∈ list.entries, ptEqual entry pt = false :=
  List.findIdx?_eq_none_iff.mp absent

/-- The second half of a dynamic addition. -/
theorem append (disciplined : Disciplined ptlen list) (positive : 0 < ptlen)
    (new : ∀ entry ∈ list.entries, ptEqual entry pt = false) :
    ∃ after, passThroughAppend ptlen list pt true = some (0, after) ∧ Disciplined ptlen after ∧
      after.entries = list.entries.drop (list.entries.length + 1 - ptlen.toNat) ++ [pt] := by
  have size := disciplined.length_entries
  have fits := disciplined.fits
  have least : 0 < ptlen.toNat := positive
  rw [passThroughAppend]
  by_cases full : list.ptcnt = ptlen
  · have inside : 0 < list.ptcnt.toNat := full.symm ▸ least
    obtain ⟨shorter, removed, kept, entries, count⟩ := disciplined.removeAt inside
    have room : shorter.ptcnt.toNat < ptlen.toNat := by omega
    have others (entry : PassThrough) (member : entry ∈ shorter.entries) : ptEqual entry pt = false := by
      rw [entries] at member
      exact new entry (List.eraseIdx_subset member)
    obtain ⟨after, written, keptAfter, entriesAfter⟩ := kept.put room others
    have bound : (ptlen - 1).toNat = list.ptcnt.toNat - 1 - 0 := by
      rw [full, UInt32.toNat_sub_of_le _ _ (UInt32.le_iff_toNat_le.mpr (by
        show 1 ≤ ptlen.toNat
        omega))]
      rfl
    refine ⟨after, ?_, keptAfter, ?_⟩
    · obtain ⟨shifted, shift, same⟩ := Option.bind_eq_some_iff.mp removed
      cases same
      rw [if_pos full, if_pos rfl, bound, shift, Option.bind_eq_bind, Option.bind_some, written]
      rfl
    · rw [entriesAfter, entries, List.eraseIdx_zero, ← List.drop_one]
      congr 2
      have count := congrArg UInt32.toNat full
      omega
  · have room : list.ptcnt.toNat < ptlen.toNat := by
      have apart : list.ptcnt.toNat ≠ ptlen.toNat := fun same => full (UInt32.toNat_inj.mp same)
      omega
    obtain ⟨after, written, kept, entries⟩ := disciplined.put room new
    refine ⟨after, ?_, kept, ?_⟩
    · rw [if_neg full, written]
      rfl
    · rw [entries, Nat.sub_eq_zero_of_le (by omega), List.drop_zero]

/-- One call. -/
theorem call (disciplined : Disciplined ptlen list) (positive : 0 < ptlen) (call : PassThroughCall) :
    ∃ ret after, passThroughCall ptlen list call = some (ret, after) ∧ Disciplined ptlen after ∧
      Obeys ptlen.toNat call list.entries after.entries ret := by
  have size := disciplined.length_entries
  cases call with
  | rem pt =>
      cases here : list.find pt with
      | some index =>
          obtain ⟨-, after, removed, kept, entries, -⟩ := disciplined.found here
          refine ⟨0, after, ?_, kept, entries, rfl⟩
          simp only [passThroughCall, passThroughRem, here, removed, Option.map_some]
      | none =>
          refine ⟨0, list, ?_, disciplined, ?_, rfl⟩
          · simp only [passThroughCall, passThroughRem, here]
          · exact (without_eq_self (notFound here)).symm
  | add pt isDyn =>
      cases isDyn with
      | true =>
          cases here : list.find pt with
          | some index =>
              obtain ⟨-, shorter, removed, kept, entries, -⟩ := disciplined.found here
              have new : ∀ entry ∈ without ptEqual list.entries pt, ptEqual entry pt = false :=
                disciplined.distinct.not_same ptEqual_symm ptEqual_trans
              rw [← entries] at new
              obtain ⟨after, appended, keptAfter, entriesAfter⟩ := kept.append positive new
              refine ⟨0, after, ?_, keptAfter, ?_, rfl⟩
              · simp only [passThroughCall, passThroughAdd, here, removed, if_true]
                exact appended
              · rw [entriesAfter, entries, ← bringToEnd_eq (size.symm ▸ disciplined.fits)]
                rfl
          | none =>
              obtain ⟨after, appended, kept, entries⟩ := disciplined.append positive (notFound here)
              refine ⟨0, after, ?_, kept, ?_, rfl⟩
              · simp only [passThroughCall, passThroughAdd, here]
                exact appended
              · rw [entries, ← bringToEnd_eq (size.symm ▸ disciplined.fits), bringToEnd,
                  without_eq_self (notFound here)]
      | false =>
          cases here : list.find pt with
          | some index =>
              obtain ⟨there, -⟩ := disciplined.found here
              refine ⟨0, list, ?_, disciplined, ?_⟩
              · simp [passThroughCall, passThroughAdd, here]
              · rw [Obeys, if_pos there]
                exact ⟨rfl, rfl⟩
          | none =>
              have absent : ¬ ∃ entry ∈ list.entries, ptEqual entry pt := by
                rintro ⟨entry, member, same⟩
                rw [notFound here entry member] at same
                cases same
              simp only [passThroughCall, passThroughAdd, here, passThroughAppend, Obeys, if_neg absent]
              by_cases full : list.ptcnt = ptlen
              · refine ⟨-1, list, ?_, disciplined, ?_⟩
                · rw [if_pos full, if_neg Bool.false_ne_true]
                · rw [if_pos (by rw [size, full])]
                  exact ⟨rfl, rfl⟩
              · have apart : list.ptcnt.toNat ≠ ptlen.toNat :=
                  fun same => full (UInt32.toNat_inj.mp same)
                have fits := disciplined.fits
                obtain ⟨after, written, kept, entries⟩ := disciplined.put (by omega) (notFound here)
                refine ⟨0, after, ?_, kept, ?_⟩
                · rw [if_neg full, written]
                  rfl
                · rw [if_neg (by omega)]
                  exact ⟨entries, rfl⟩

/-- An array of which nothing is used yet. -/
theorem fresh (capacity : list.ptlist.length = ptlen.toNat) (empty : list.ptcnt = 0) :
    Disciplined ptlen list := by
  have none' : list.entries = [] := by
    rw [PassThroughs.entries, empty]
    rfl
  refine ⟨capacity, ?_, ?_⟩
  · rw [empty]
    exact Nat.zero_le _
  · rw [none']
    exact List.Pairwise.nil

end Disciplined

/-! ## Any sequence of calls -/

/-- No call leaves the array, and each one does what it should. -/
theorem passThroughs_disciplined (positive : 0 < ptlen) (disciplined : Disciplined ptlen list)
    (calls : List PassThroughCall) :
    (∃ final, run (passThroughStep ptlen) list calls = some final ∧ Disciplined ptlen final) ∧
      EveryStep (passThroughStep ptlen) (fun list call => ∃ ret after,
        passThroughCall ptlen list call = some (ret, after) ∧ Disciplined ptlen after ∧
          Obeys ptlen.toNat call list.entries after.entries ret) list calls := by
  induction calls generalizing list with
  | nil => exact ⟨⟨list, rfl, disciplined⟩, trivial⟩
  | cons call rest ih =>
      obtain ⟨ret, after, called, kept, obeyed⟩ := disciplined.call positive call
      have stepped : passThroughStep ptlen list call = some after := by
        rw [passThroughStep, called]
        rfl
      obtain ⟨⟨final, ran, keptFinal⟩, later⟩ := ih kept
      refine ⟨⟨final, ?_, keptFinal⟩, ⟨ret, after, called, kept, obeyed⟩, ?_⟩
      · rw [run, stepped]
        exact ran
      · intro next taken
        cases stepped.symm.trans taken
        exact later

def webServer : PassThrough := ⟨0x0a010001, 0xffffffff, 6, 80, 0⟩

def nameServer : PassThrough := ⟨0x0a010002, 0xffffffff, 17, 53, 0⟩

theorem passThroughs_disciplined_evicts :
    (∃ final, run (passThroughStep 1) ⟨[webServer], 0⟩
        [.add webServer false, .add nameServer true, .rem webServer] = some final ∧
      Disciplined 1 final) ∧
      EveryStep (passThroughStep 1) (fun list call => ∃ ret after,
        passThroughCall 1 list call = some (ret, after) ∧ Disciplined 1 after ∧
          Obeys 1 call list.entries after.entries ret) ⟨[webServer], 0⟩
        [.add webServer false, .add nameServer true, .rem webServer] :=
  passThroughs_disciplined (by decide) (Disciplined.fresh rfl rfl) _

/-- Adding an entry again is no failure, also where the list is full. -/
theorem passThroughAdd_full_again :
    Disciplined 1 ⟨[webServer], 1⟩ ∧
      passThroughAdd 1 ⟨[webServer], 1⟩ webServer false = some (0, ⟨[webServer], 1⟩) :=
  ⟨⟨rfl, Nat.le_refl _, List.pairwise_singleton _ _⟩, by decide⟩

end Rut9xx.Chilli
