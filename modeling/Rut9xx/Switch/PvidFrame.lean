import Rut9xx.Switch.VlanTables

namespace Rut9xx.Switch.Rtl8366

open Data

/-! # What a change of one port's VLAN does to the other ports -/

variable {chip : Chip} {smi after : Smi} {vlanmc : VlanMc} {i port other vid : Nat}

/-- The MC entry that a port selects. -/
def Smi.mcIndex (chip : Chip) (smi : Smi) (port : Nat) : Nat :=
  getField 0 chip.mcIndexBits (smi.pvidCtrl port)

/-- The VID of an MC entry. -/
def Smi.mcVid (chip : Chip) (smi : Smi) (i : Nat) : Nat := (decodeMc chip (smi.mcRegs i)).vid

/-- On success the port selects the VID and no other port's VID has changed, on failure none
has. -/
def Framed (chip : Chip) (smi : Smi) (port vid : Nat) (outcome : Outcome) : Prop :=
  match outcome.1 with
  | .ok () =>
      getPvid chip outcome.2 port = .ok vid ∧
        ∀ other ≠ port, getPvid chip outcome.2 other = getPvid chip smi other
  | .error _ => ∀ other, getPvid chip outcome.2 other = getPvid chip smi other

/-- An entry that the second search takes. -/
def Smi.IsEmpty (chip : Chip) (smi : Smi) (i : Nat) : Prop :=
  (decodeMc chip (smi.mcRegs i)).vid = 0 ∧ (decodeMc chip (smi.mcRegs i)).member = 0

/-- The VID has no entry yet, and the first empty entry, which takes it in, is selected by another
port. -/
structure TakesSelected (chip : Chip) (smi : Smi) (port vid : Nat) : Prop where
  small : vid < numVids
  loads : (decode4k chip vid (smi.vlanTable vid)).fid ≤ fidMax
  missing : ∀ i < chip.numVlans, smi.mcVid chip i ≠ vid
  selected : ∃ i < chip.numVlans, smi.IsEmpty chip i ∧ (∀ j < i, ¬ smi.IsEmpty chip j) ∧
    ∃ other ≠ port, other < chip.numPorts ∧ smi.mcIndex chip other = i

theorem isEmpty_iff :
    ((decodeMc chip (smi.mcRegs i)).vid == 0 && (decodeMc chip (smi.mcRegs i)).member == 0) = true ↔
      smi.IsEmpty chip i := by
  rw [Bool.and_eq_true, beq_iff_eq, beq_iff_eq, Smi.IsEmpty]

/-! ## The VIDs of the entries -/

theorem mcIndex_lt : smi.mcIndex chip port < chip.numVlans := by
  have below : smi.mcIndex chip port < 2 ^ chip.mcIndexBits := getField_lt
  cases chip <;> exact below

theorem getPvid_eq (chip : Chip) (smi : Smi) (port : Nat) :
    getPvid chip smi port =
      if port < chip.numPorts then .ok (smi.mcVid chip (smi.mcIndex chip port))
      else .error .einval := by
  rw [getPvid, getMcIndex]
  by_cases inside : port < chip.numPorts
  · rw [if_neg (Nat.not_le_of_lt inside), if_pos inside]
    have entry : getVlanMc chip smi (getField 0 chip.mcIndexBits (smi.pvidCtrl port)) =
        .ok (decodeMc chip (smi.mcRegs (getField 0 chip.mcIndexBits (smi.pvidCtrl port)))) :=
      getVlanMc_of_lt mcIndex_lt
    simp only [entry]
    rfl
  · rw [if_pos (Nat.le_of_not_lt inside), if_neg inside]

theorem setVlanMc_eq (smi : Smi) (vlanmc : VlanMc) (inside : i < chip.numVlans) :
    (vlanmc.Fits chip ∧ setVlanMc chip smi i vlanmc = .ok { smi with
      mcRegs := Function.update smi.mcRegs i (writeRegs (encodeMc chip vlanmc)) }) ∨
    ¬ vlanmc.Fits chip ∧ setVlanMc chip smi i vlanmc = .error .einval := by
  by_cases fits : vlanmc.Fits chip
  · exact .inl ⟨fits, setVlanMc_of_fits inside fits⟩
  · refine .inr ⟨fits, ?_⟩
    rw [setVlanMc, if_pos]
    by_contra passed
    have positive := Nat.two_pow_pos chip.portBits
    exact fits ⟨by omega, by omega, by omega, by omega, by omega⟩

theorem mcVid_written (fits : vlanmc.Fits chip) (j : Nat) :
    Smi.mcVid chip { smi with
      mcRegs := Function.update smi.mcRegs i (writeRegs (encodeMc chip vlanmc)) } j =
      if j = i then vlanmc.vid else smi.mcVid chip j := by
  rw [Smi.mcVid]
  dsimp only
  by_cases same : j = i
  · rw [same, Function.update_self, decodeMc_encodeMc fits, if_pos rfl]
  · rw [Function.update_of_ne same, if_neg same]
    rfl

theorem mcIndex_pointed (inside : i < chip.numVlans) (other : Nat) :
    Smi.mcIndex chip { smi with
      pvidCtrl := Function.update smi.pvidCtrl port (putField 0 chip.mcIndexBits i) } other =
      if other = port then i else smi.mcIndex chip other := by
  rw [Smi.mcIndex]
  dsimp only
  by_cases same : other = port
  · have bits : i < 2 ^ chip.mcIndexBits := by
      cases chip <;> exact inside
    rw [same, Function.update_self, getField_putField, getField_of_lt bits, if_pos rfl]
  · rw [Function.update_of_ne same, if_neg same]
    rfl

/-! ## Writing an entry and pointing the port to it -/

/-- A port that keeps its entry keeps its VID, unless the entry is the one that was written. -/
theorem getPvid_kept_iff (vids : ∀ j, after.mcVid chip j = if j = i then vid else smi.mcVid chip j)
    (index : after.mcIndex chip other = smi.mcIndex chip other) :
    getPvid chip after other = getPvid chip smi other ↔
      (other < chip.numPorts → smi.mcIndex chip other = i → smi.mcVid chip i = vid) := by
  rw [getPvid_eq, getPvid_eq, index, vids]
  by_cases inside : other < chip.numPorts
  · rw [if_pos inside, if_pos inside, Except.ok.injEq]
    by_cases selected : smi.mcIndex chip other = i
    · rw [if_pos selected, selected, eq_comm]
      simp [inside]
    · simp [selected]
  · simp [inside]

/-- Only a new VID in an entry that another port selects shows. -/
theorem assignMc_framed_iff (inside : i < chip.numVlans) (carries : vlanmc.vid = vid) :
    Framed chip smi port vid (assignMc chip smi port i vlanmc) ↔
      ¬ vlanmc.Fits chip ∨ smi.mcVid chip i = vid ∨
        ∀ other ≠ port, other < chip.numPorts → smi.mcIndex chip other ≠ i := by
  rw [assignMc]
  rcases setVlanMc_eq smi vlanmc inside with ⟨fits, stored⟩ | ⟨unfit, refused⟩
  · have others : (∀ other ≠ port, other < chip.numPorts → smi.mcIndex chip other = i →
        smi.mcVid chip i = vid) ↔
        ¬ vlanmc.Fits chip ∨ smi.mcVid chip i = vid ∨
          ∀ other ≠ port, other < chip.numPorts → smi.mcIndex chip other ≠ i := by
      by_cases same : smi.mcVid chip i = vid
      · simp [same]
      · simp [same, fits]
    have vids (j : Nat) := @mcVid_written chip smi vlanmc i fits j
    rw [carries] at vids
    rw [stored, ← others]
    simp only [setMcIndex]
    by_cases valid : port < chip.numPorts
    · rw [if_neg (by omega), Framed]
      dsimp only
      generalize hlast : ({ smi with
        mcRegs := Function.update smi.mcRegs i (writeRegs (encodeMc chip vlanmc))
        pvidCtrl := Function.update smi.pvidCtrl port (putField 0 chip.mcIndexBits i) } : Smi) = last
      have lastVids (j : Nat) : last.mcVid chip j = if j = i then vid else smi.mcVid chip j := by
        rw [← hlast]
        exact vids j
      have index (other : Nat) :
          last.mcIndex chip other = if other = port then i else smi.mcIndex chip other := by
        rw [← hlast]
        exact mcIndex_pointed inside other
      have own : getPvid chip last port = .ok vid := by
        rw [getPvid_eq, if_pos valid, index, if_pos rfl, lastVids, if_pos rfl]
      constructor
      · intro framed other apart
        exact (getPvid_kept_iff lastVids ((index other).trans (if_neg apart))).mp (framed.2 other apart)
      · intro kept
        refine ⟨own, fun other apart => ?_⟩
        exact (getPvid_kept_iff lastVids ((index other).trans (if_neg apart))).mpr (kept other apart)
    · rw [if_pos (.inl (Nat.le_of_not_lt valid)), Framed]
      dsimp only
      constructor
      · intro framed other apart
        exact (getPvid_kept_iff vids rfl).mp (framed other)
      · intro kept other
        apply (getPvid_kept_iff vids rfl).mpr
        intro port'
        exact kept other (fun same => valid (same ▸ port')) port'
  · rw [refused]
    simp [Framed, unfit]

/-! ## The three searches -/

/-- A search passes no wanted entry. -/
theorem findMc_first {wanted : VlanMc → Bool} {entries : List Nat} {last : VlanMc}
    (inside : ∀ j ∈ entries, j < chip.numVlans) (ascending : entries.Pairwise (· < ·))
    (found : findMc chip smi wanted entries vlanmc = .ok (some i, last)) :
    ∀ j ∈ entries, j < i → wanted (decodeMc chip (smi.mcRegs j)) = false := by
  induction entries generalizing vlanmc with
  | nil =>
      intro j member
      cases member
  | cons first rest ih =>
      obtain ⟨behind, ascending⟩ := List.pairwise_cons.mp ascending
      rw [findMc, getVlanMc_of_lt (inside first List.mem_cons_self)] at found
      dsimp only at found
      intro j member before
      by_cases hit : wanted (decodeMc chip (smi.mcRegs first)) = true
      · rw [if_pos hit] at found
        cases found
        cases member with
        | head => exact absurd before (Nat.lt_irrefl _)
        | tail _ later => exact absurd (behind j later) (Nat.not_lt_of_lt before)
      · rw [if_neg hit] at found
        cases member with
        | head => exact Bool.eq_false_iff.mpr hit
        | tail _ later =>
            exact ih (fun k listed => inside k (List.mem_cons_of_mem _ listed)) ascending found j
              later before

theorem mcIsUsed_cases {ports : List Nat} (inside : ∀ p ∈ ports, p < chip.numPorts) :
    ∃ used, mcIsUsed chip smi i ports = .ok used ∧
      (used = false → ∀ p ∈ ports, smi.mcIndex chip p ≠ i) := by
  induction ports with
  | nil => exact ⟨false, rfl, fun _ p member => absurd member List.not_mem_nil⟩
  | cons first rest ih =>
      obtain ⟨used, rest, unused⟩ := ih fun p listed => inside p (List.mem_cons_of_mem _ listed)
      rw [mcIsUsed, getMcIndex, if_neg (Nat.not_le_of_lt (inside first List.mem_cons_self))]
      dsimp only
      by_cases here : i = getField 0 chip.mcIndexBits (smi.pvidCtrl first)
      · rw [if_pos here]
        exact ⟨true, rfl, fun never => by cases never⟩
      · rw [if_neg here]
        refine ⟨used, rest, fun none' p member => ?_⟩
        cases member with
        | head => exact Ne.symm here
        | tail _ later => exact unused none' p later

theorem findUnused_cases (entries : List Nat) :
    findUnused chip smi entries = .ok none ∨
      ∃ i ∈ entries, findUnused chip smi entries = .ok (some i) ∧
        ∀ other < chip.numPorts, smi.mcIndex chip other ≠ i := by
  induction entries with
  | nil => exact .inl rfl
  | cons first rest ih =>
      obtain ⟨used, checked, unused⟩ := @mcIsUsed_cases chip smi first (List.range chip.numPorts)
        fun p member => List.mem_range.mp member
      rw [findUnused, checked]
      dsimp only
      cases used with
      | false =>
          refine .inr ⟨first, List.mem_cons_self, rfl, ?_⟩
          intro other inside
          exact unused rfl other (List.mem_range.mpr inside)
      | true =>
          rw [if_pos rfl]
          rcases ih with none' | ⟨i, member, found, free⟩
          · exact .inl none'
          · exact .inr ⟨i, List.mem_cons_of_mem _ member, found, free⟩

/-! ## Loading an entry from the 4K table -/

theorem decode4k_lt (data : Words) :
    (decode4k chip vid data).member < 2 ^ chip.portBits ∧
      (decode4k chip vid data).untag < 2 ^ chip.portBits := by
  have split {low high : Nat} (small : low < 2 ^ 2) (large : high < 2 ^ 14) :
      low ||| high <<< 2 < 2 ^ 16 := by
    apply Nat.or_lt_two_pow (Nat.lt_trans small (by decide))
    rw [Nat.shiftLeft_eq]
    omega
  cases chip with
  | rtl8366s => exact ⟨getField_lt, getField_lt⟩
  | rtl8366rb => exact ⟨getField_lt, getField_lt⟩
  | rtl8367 => exact ⟨getField_lt, split getField_lt getField_lt⟩
  | rtl8367b => exact ⟨getField_lt, getField_lt⟩

theorem fillMc_framed_of_unused (inside : i < chip.numVlans)
    (unused : ∀ other < chip.numPorts, smi.mcIndex chip other ≠ i) :
    Framed chip smi port vid (fillMc chip smi port vid i vlanmc) := by
  rw [fillMc]
  cases got : getVlan4k chip smi vid with
  | error e => exact fun other => rfl
  | ok vlan4k =>
      have small : vid < 2 ^ 16 := Nat.lt_trans (getVlan4k_ok got).1 (by decide)
      apply (assignMc_framed_iff inside (Nat.mod_eq_of_lt small)).mpr
      exact .inr (.inr fun other _ port' => unused other port')

theorem fillMc_framed_iff (inside : i < chip.numVlans) (priority : vlanmc.priority ≤ priorityMax) :
    Framed chip smi port vid (fillMc chip smi port vid i vlanmc) ↔
      ¬ (vid < numVids ∧ (decode4k chip vid (smi.vlanTable vid)).fid ≤ fidMax) ∨
        smi.mcVid chip i = vid ∨
        ∀ other ≠ port, other < chip.numPorts → smi.mcIndex chip other ≠ i := by
  rw [fillMc, getVlan4k]
  by_cases small : vid < numVids
  · have whole : vid % 2 ^ 16 = vid := Nat.mod_eq_of_lt (Nat.lt_trans small (by decide))
    rw [if_neg (Nat.not_le_of_lt small)]
    dsimp only
    rw [assignMc_framed_iff inside whole]
    obtain ⟨member, untag⟩ := @decode4k_lt chip vid (smi.vlanTable vid)
    have fits : VlanMc.Fits chip
        { vid := vid % 2 ^ 16
          untag := (decode4k chip vid (smi.vlanTable vid)).untag
          member := (decode4k chip vid (smi.vlanTable vid)).member
          fid := (decode4k chip vid (smi.vlanTable vid)).fid
          priority := vlanmc.priority } ↔ (decode4k chip vid (smi.vlanTable vid)).fid ≤ fidMax :=
      ⟨fun passed => passed.fid, fun loads => ⟨Nat.lt_of_le_of_lt (Nat.le_of_eq whole) small, priority, member, untag, loads⟩⟩
    rw [fits]
    simp [small]
  · rw [if_pos (Nat.le_of_not_lt small)]
    simp [Framed, small]

/-! ## The whole function -/

theorem setPvid_framed_iff (chip : Chip) (smi : Smi) (port vid : Nat) :
    Framed chip smi port vid (setPvid chip smi port vid) ↔ ¬ TakesSelected chip smi port vid := by
  rw [setPvid]
  rcases findMc_range chip smi (fun vlanmc => vid == vlanmc.vid) emptyMc with
    ⟨last, found, unwanted⟩ | ⟨i, inside, hit, found⟩
  · have missing : ∀ i < chip.numVlans, smi.mcVid chip i ≠ vid := by
      intro i inside same
      have other := unwanted i (List.mem_range.mpr inside)
      rw [← same] at other
      exact absurd (beq_self_eq_true _) (Bool.eq_false_iff.mp other)
    simp only [found]
    rcases findMc_range chip smi (fun vlanmc => vlanmc.vid == 0 && vlanmc.member == 0) last with
      ⟨last, found, full⟩ | ⟨i, inside, hit, found⟩
    · -- no entry is empty, and the one that is taken is not in use
      have none' : ¬ TakesSelected chip smi port vid := by
        intro takes
        obtain ⟨i, inside, empty, -⟩ := takes.selected
        have other := full i (List.mem_range.mpr inside)
        rw [isEmpty_iff.mpr empty] at other
        cases other
      simp only [found, none', not_false_iff, iff_true]
      rcases @findUnused_cases chip smi (List.range chip.numVlans) with allUsed | ⟨i, member, found, unused⟩
      · simp only [allUsed]
        exact fun other => rfl
      · simp only [found]
        exact fillMc_framed_of_unused (List.mem_range.mp member) unused
    · have first : ∀ j < i, ¬ smi.IsEmpty chip j := by
        intro j before empty
        have passed := findMc_first (fun k listed => List.mem_range.mp listed)
          List.pairwise_lt_range found j (List.mem_range.mpr (Nat.lt_trans before inside)) before
        rw [isEmpty_iff.mpr empty] at passed
        cases passed
      simp only [found]
      rw [fillMc_framed_iff inside (decodeMc_priority_le _)]
      constructor
      · intro framed takes
        obtain ⟨k, within, empty, least, other, apart, port', selected⟩ := takes.selected
        have same : k = i := by
          rcases Nat.lt_trichotomy k i with before | same | after
          · exact absurd empty (first k before)
          · exact same
          · exact absurd (isEmpty_iff.mp hit) (least i after)
        rcases framed with refused | same' | unselected
        · exact refused ⟨takes.small, takes.loads⟩
        · exact missing i inside same'
        · exact unselected other apart port' (selected.trans same)
      · intro clear
        by_contra open'
        obtain ⟨loads, -, selected⟩ := by
          rw [not_or, not_or, Classical.not_not] at open'
          exact open'
        apply clear
        refine ⟨loads.1, loads.2, missing, i, inside, isEmpty_iff.mp hit, first, ?_⟩
        by_contra nobody
        apply selected
        intro other apart port' here
        exact nobody ⟨other, apart, port', here⟩
  · simp only [found]
    have same : smi.mcVid chip i = vid := (eq_of_beq hit).symm
    constructor
    · exact fun _ takes => takes.missing i inside same
    · exact fun _ => (assignMc_framed_iff inside same).mpr (.inr (.inl same))

/-- In every run. -/
theorem runVlanOps_setPvid_framed_iff (chip : Chip) (smi : Smi) (ops : List VlanOp)
    (port vid : Nat) :
    Framed chip (runVlanOps chip smi ops) port vid (setPvid chip (runVlanOps chip smi ops) port vid) ↔
      ¬ TakesSelected chip (runVlanOps chip smi ops) port vid :=
  setPvid_framed_iff chip _ port vid

/-- After a reset every port selects entry 0, which port 1 takes for VLAN 5. -/
theorem setPvid_moves_others :
    ¬ Framed .rtl8366rb (runVlanOps .rtl8366rb blankSmi []) 1 5
      (setPvid .rtl8366rb (runVlanOps .rtl8366rb blankSmi []) 1 5) := by
  intro framed
  have other : getPvid .rtl8366rb (setPvid .rtl8366rb (runVlanOps .rtl8366rb blankSmi []) 1 5).2 2 =
      getPvid .rtl8366rb (runVlanOps .rtl8366rb blankSmi []) 2 := framed.2 2 (by decide)
  have before : getPvid .rtl8366rb (runVlanOps .rtl8366rb blankSmi []) 2 = .ok 0 := rfl
  have moved : getPvid .rtl8366rb
      (setPvid .rtl8366rb (runVlanOps .rtl8366rb blankSmi []) 1 5).2 2 = .ok 5 := rfl
  rw [before, moved] at other
  cases other

end Rut9xx.Switch.Rtl8366
