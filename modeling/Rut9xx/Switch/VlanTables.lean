import Rut9xx.Data.WriteThrough
import Rut9xx.Switch.Rtl8366

namespace Rut9xx.Switch.Rtl8366

open Data

/-! # The member configurations as copies of the 4K table -/

variable {chip : Chip} {smi after : Smi} {vlanmc : VlanMc} {vlan4k : Vlan4k} {i port vid vlan : Nat}

/-! ## What the registers keep of an entry -/

/-- Whether the MC registers of the chip have fields for the untag mask and the priority. -/
def Chip.mcHasUntag : Chip → Bool
  | .rtl8366s | .rtl8366rb => true
  | .rtl8367 | .rtl8367b => false

/-- What an MC entry keeps of an untag mask. -/
def Chip.keptUntag (chip : Chip) (untag : Nat) : Nat := if chip.mcHasUntag then untag else 0

section

variable {shift width first : Nat} {rest data : Words}

theorem word_zero : word (first :: rest) 0 = first := rfl

theorem word_succ (i : Nat) : word (first :: rest) (i + 1) = word rest i := rfl

theorem getField_writeRegs (ends : shift + width ≤ 16) (i : Nat) :
    getField shift width (word (writeRegs data) i) = getField shift width (word data i) := by
  have written : word (writeRegs data) i = word data i % 2 ^ 16 := by
    rw [word, word, writeRegs, List.getD_eq_getElem?_getD, List.getD_eq_getElem?_getD,
      List.getElem?_map]
    cases data[i]? <;> rfl
  rw [written, getField_mod ends]

end

/-- An MC entry that passes the checks of `set_vlan_mc`. -/
structure VlanMc.Fits (chip : Chip) (vlanmc : VlanMc) : Prop where
  vid : vlanmc.vid < numVids
  priority : vlanmc.priority ≤ priorityMax
  member : vlanmc.member < 2 ^ chip.portBits
  untag : vlanmc.untag < 2 ^ chip.portBits
  fid : vlanmc.fid ≤ fidMax

/-- A 4K entry that passes the checks of `set_vlan_4k`. -/
structure Vlan4k.Fits (chip : Chip) (vlan4k : Vlan4k) : Prop where
  vid : vlan4k.vid < numVids
  member : vlan4k.member < 2 ^ chip.portBits
  untag : vlan4k.untag < 2 ^ chip.portBits
  fid : vlan4k.fid ≤ fidMax

theorem decodeMc_encodeMc (fits : vlanmc.Fits chip) :
    decodeMc chip (writeRegs (encodeMc chip vlanmc)) =
      { vlanmc with
        untag := chip.keptUntag vlanmc.untag
        priority := if chip.mcHasUntag then vlanmc.priority else 0 } := by
  obtain ⟨vid, priority, member, untag, fid⟩ := fits
  rw [numVids] at vid
  rw [priorityMax] at priority
  rw [fidMax] at fid
  -- every field ends in its word, apart from the others, and is wide enough for what passed
  cases chip <;> simp only [Chip.portBits] at member untag
  all_goals
    simp (disch := omega) only [decodeMc, encodeMc, Chip.keptUntag, Chip.mcHasUntag,
      getField_writeRegs, word_zero, word_succ, getField_or, getField_putField, getField_of_lt,
      getField_putField_of_disjoint, Nat.or_zero, Nat.zero_or, Nat.mod_eq_of_lt, if_true,
      Bool.false_eq_true, if_false]

theorem decode4k_encode4k (fits : vlan4k.Fits chip) :
    decode4k chip vlan4k.vid (writeRegs (encode4k chip vlan4k)) = vlan4k := by
  obtain ⟨-, member, untag, fid⟩ := fits
  rw [fidMax] at fid
  cases chip <;> simp only [Chip.portBits] at member untag
  all_goals
    simp (disch := omega) only [decode4k, encode4k, getField_writeRegs, word_zero, word_succ,
      getField_or, getField_putField, getField_of_lt, getField_putField_of_disjoint, Nat.or_zero,
      Nat.zero_or, Nat.mod_eq_of_lt, getField_or_shiftLeft]

/-! ## The two tables -/

/-- What both tables hold of a VLAN. -/
structure Config where
  member : Nat
  untag : Nat
  fid : Nat

/-- An MC entry without a VID is free. -/
def VlanMc.slot (vlanmc : VlanMc) : Option (Nat × Config) :=
  if vlanmc.vid = 0 then none
  else some (vlanmc.vid, { member := vlanmc.member, untag := vlanmc.untag, fid := vlanmc.fid })

def Vlan4k.config (chip : Chip) (vlan4k : Vlan4k) : Config :=
  { member := vlan4k.member, untag := chip.keptUntag vlan4k.untag, fid := vlan4k.fid }

def Smi.slots (chip : Chip) (smi : Smi) (index : Nat) : Option (Nat × Config) :=
  if index < chip.numVlans then (decodeMc chip (smi.mcRegs index)).slot else none

def Smi.store (chip : Chip) (smi : Smi) (vid : Nat) : Option Config :=
  if vid < numVids then some ((decode4k chip vid (smi.vlanTable vid)).config chip) else none

/-- The MC entries are copies of 4K entries, one a VID. -/
def Smi.Coherent (chip : Chip) (smi : Smi) : Prop :=
  Data.Coherent (smi.slots chip) (smi.store chip)

theorem getVlanMc_of_lt (inside : i < chip.numVlans) :
    getVlanMc chip smi i = .ok (decodeMc chip (smi.mcRegs i)) :=
  if_neg (Nat.not_le_of_lt inside)

theorem getVlan4k_ok (got : getVlan4k chip smi vid = .ok vlan4k) :
    vid < numVids ∧ vlan4k = decode4k chip vid (smi.vlanTable vid) := by
  rw [getVlan4k] at got
  split at got
  · contradiction
  · rename_i inside
    exact ⟨Nat.lt_of_not_le inside, (Except.ok.inj got).symm⟩

theorem getVlan4k_store (got : getVlan4k chip smi vid = .ok vlan4k) :
    smi.store chip vid = some (vlan4k.config chip) := by
  obtain ⟨inside, read⟩ := getVlan4k_ok got
  rw [Smi.store, if_pos inside, read]

theorem decode4k_vid : (decode4k chip vid (smi.vlanTable vid)).vid = vid := by
  cases chip <;> rfl

/-- `set_vlan_4k` writes the entry of the VID and nothing else. -/
theorem setVlan4k_ok (written : setVlan4k chip smi vlan4k = .ok after) :
    vlan4k.Fits chip ∧ after.mcRegs = smi.mcRegs ∧
      after.store chip = Function.update (smi.store chip) vlan4k.vid (some (vlan4k.config chip)) := by
  rw [setVlan4k] at written
  split at written
  · contradiction
  · rename_i passed
    have positive := Nat.two_pow_pos chip.portBits
    have fits : vlan4k.Fits chip := ⟨by omega, by omega, by omega, by omega⟩
    cases written
    refine ⟨fits, rfl, ?_⟩
    funext vid
    by_cases same : vid = vlan4k.vid
    · subst same
      rw [Function.update_self, Smi.store, if_pos fits.vid]
      simp only [Function.update_self, decode4k_encode4k fits]
    · rw [Function.update_of_ne same, Smi.store, Smi.store]
      simp only [Function.update_of_ne same]

theorem setVlanMc_of_fits (inside : i < chip.numVlans) (fits : vlanmc.Fits chip) :
    setVlanMc chip smi i vlanmc = .ok { smi with
      mcRegs := Function.update smi.mcRegs i (writeRegs (encodeMc chip vlanmc)) } := by
  obtain ⟨vid, priority, member, untag, fid⟩ := fits
  rw [setVlanMc, if_neg]
  omega

/-- `set_vlan_mc` writes one slot. -/
theorem setVlanMc_ok (written : setVlanMc chip smi i vlanmc = .ok after) :
    after.store chip = smi.store chip ∧ i < chip.numVlans ∧
      after.slots chip = Function.update (smi.slots chip) i
        ({ vlanmc with untag := chip.keptUntag vlanmc.untag } : VlanMc).slot := by
  rw [setVlanMc] at written
  split at written
  · contradiction
  · rename_i passed
    have positive := Nat.two_pow_pos chip.portBits
    have fits : vlanmc.Fits chip := ⟨by omega, by omega, by omega, by omega, by omega⟩
    have inside : i < chip.numVlans := by omega
    cases written
    refine ⟨rfl, inside, ?_⟩
    funext index
    by_cases same : index = i
    · subst same
      rw [Function.update_self, Smi.slots, if_pos inside]
      simp only [Function.update_self, decodeMc_encodeMc fits]
      rfl
    · rw [Function.update_of_ne same, Smi.slots, Smi.slots]
      simp only [Function.update_of_ne same]

theorem setMcIndex_ok (written : setMcIndex chip smi port i = .ok after) :
    after.slots chip = smi.slots chip ∧ after.store chip = smi.store chip := by
  rw [setMcIndex] at written
  split at written
  · contradiction
  · cases written
    exact ⟨rfl, rfl⟩

/-! ## The searches -/

/-- A search over MC entries fails on none of them, and stops at the first that is wanted. -/
theorem findMc_cases {wanted : VlanMc → Bool} {entries : List Nat}
    (inside : ∀ i ∈ entries, i < chip.numVlans) (vlanmc : VlanMc) :
    (∃ last, findMc chip smi wanted entries vlanmc = .ok (none, last) ∧
        ∀ i ∈ entries, wanted (decodeMc chip (smi.mcRegs i)) = false) ∨
      ∃ i ∈ entries, wanted (decodeMc chip (smi.mcRegs i)) = true ∧
        findMc chip smi wanted entries vlanmc = .ok (some i, decodeMc chip (smi.mcRegs i)) := by
  induction entries generalizing vlanmc with
  | nil => exact Or.inl ⟨vlanmc, rfl, fun i member => absurd member List.not_mem_nil⟩
  | cons i rest ih =>
      have here := inside i List.mem_cons_self
      have later := fun j member => inside j (List.mem_cons_of_mem i member)
      rw [findMc, getVlanMc_of_lt here]
      simp only
      by_cases hit : wanted (decodeMc chip (smi.mcRegs i)) = true
      · rw [if_pos hit]
        exact Or.inr ⟨i, List.mem_cons_self, hit, rfl⟩
      · rw [if_neg hit]
        rcases ih later (decodeMc chip (smi.mcRegs i)) with ⟨last, found, unwanted⟩ | ⟨j, member, rest⟩
        · refine Or.inl ⟨last, found, ?_⟩
          intro j member
          rcases List.mem_cons.mp member with same | member
          · rw [same]
            exact Bool.eq_false_of_not_eq_true hit
          · exact unwanted j member
        · exact Or.inr ⟨j, List.mem_cons_of_mem i member, rest⟩

theorem findMc_range (chip : Chip) (smi : Smi) (wanted : VlanMc → Bool) (vlanmc : VlanMc) :
    (∃ last, findMc chip smi wanted (List.range chip.numVlans) vlanmc = .ok (none, last) ∧
        ∀ i ∈ List.range chip.numVlans, wanted (decodeMc chip (smi.mcRegs i)) = false) ∨
      ∃ i < chip.numVlans, wanted (decodeMc chip (smi.mcRegs i)) = true ∧
        findMc chip smi wanted (List.range chip.numVlans) vlanmc =
          .ok (some i, decodeMc chip (smi.mcRegs i)) := by
  rcases findMc_cases (fun i member => List.mem_range.mp member) vlanmc with none | ⟨i, member, found⟩
  · exact Or.inl none
  · exact Or.inr ⟨i, List.mem_range.mp member, found⟩

/-- No MC entry with the VID is found where there is none. -/
theorem missing_of_not_found
    (unwanted : ∀ i ∈ List.range chip.numVlans, (vid == (decodeMc chip (smi.mcRegs i)).vid) = false) :
    Missing (smi.slots chip) vid := by
  intro i config found
  rw [Smi.slots] at found
  split at found
  · rename_i inside
    rw [VlanMc.slot] at found
    split at found
    · contradiction
    · have other := unwanted i (List.mem_range.mpr inside)
      cases found
      rw [beq_self_eq_true] at other
      contradiction
  · contradiction

/-! ## Each operation keeps the copies -/

variable {untag member fid : Nat} {ports : List SwitchPort}

theorem assignMc_coherent (coherent : smi.Coherent chip)
    (written : Data.Coherent (Function.update (smi.slots chip) i
      ({ vlanmc with untag := chip.keptUntag vlanmc.untag } : VlanMc).slot) (smi.store chip)) :
    (assignMc chip smi port i vlanmc).2.Coherent chip := by
  rw [assignMc]
  cases set : setVlanMc chip smi i vlanmc with
  | error e => exact coherent
  | ok after =>
      obtain ⟨store, -, slots⟩ := setVlanMc_ok set
      have kept : after.Coherent chip := by
        rw [Smi.Coherent, store, slots]
        exact written
      simp only
      cases pointed : setMcIndex chip after port i with
      | error e => exact kept
      | ok last =>
          obtain ⟨slots, store⟩ := setMcIndex_ok pointed
          rw [Smi.Coherent, slots, store]
          exact kept

/-- The untag mask of an entry that is read is one the registers keep. -/
theorem keptUntag_decodeMc (data : Words) :
    chip.keptUntag (decodeMc chip data).untag = (decodeMc chip data).untag := by
  cases chip <;> rfl

/-- An entry is written back as it was read. -/
theorem assignMc_decodeMc_coherent (coherent : smi.Coherent chip) (inside : i < chip.numVlans) :
    (assignMc chip smi port i (decodeMc chip (smi.mcRegs i))).2.Coherent chip := by
  apply assignMc_coherent coherent
  rw [keptUntag_decodeMc]
  have same : Function.update (smi.slots chip) i (decodeMc chip (smi.mcRegs i)).slot = smi.slots chip := by
    rw [Function.update_eq_self_iff, Smi.slots, if_pos inside]
  rw [same]
  exact coherent

/-- An entry is loaded from the 4K table when no entry has the VID. -/
theorem fillMc_coherent (coherent : smi.Coherent chip) (missing : Missing (smi.slots chip) vid) :
    (fillMc chip smi port vid i vlanmc).2.Coherent chip := by
  rw [fillMc]
  cases got : getVlan4k chip smi vid with
  | error e => exact coherent
  | ok vlan4k =>
      have small : vid < numVids := (getVlan4k_ok got).1
      have whole : vid % 2 ^ 16 = vid := Nat.mod_eq_of_lt (Nat.lt_trans small (by decide))
      apply assignMc_coherent coherent
      rw [whole, VlanMc.slot]
      by_cases zero : vid = 0
      · rw [if_pos zero]
        exact coherent.evict i
      · rw [if_neg zero]
        exact coherent.load i missing (getVlan4k_store got)

theorem setPvid_coherent (coherent : smi.Coherent chip) :
    (setPvid chip smi port vid).2.Coherent chip := by
  rw [setPvid]
  rcases findMc_range chip smi (fun vlanmc => vid == vlanmc.vid) emptyMc with
    ⟨last, found, unwanted⟩ | ⟨i, inside, -, found⟩
  · have missing := missing_of_not_found unwanted
    simp only [found]
    rcases findMc_range chip smi (fun vlanmc => vlanmc.vid == 0 && vlanmc.member == 0) last with
      ⟨last, found, -⟩ | ⟨i, -, -, found⟩
    · simp only [found]
      split
      · exact coherent
      · exact fillMc_coherent coherent missing
      · exact coherent
    · simp only [found]
      exact fillMc_coherent coherent missing
  · simp only [found]
    exact assignMc_decodeMc_coherent coherent inside

theorem decodeMc_priority_le (data : Words) : (decodeMc chip data).priority ≤ priorityMax := by
  cases chip with
  | rtl8366s => exact Nat.le_of_lt_succ getField_lt
  | rtl8366rb => exact Nat.le_of_lt_succ getField_lt
  | rtl8367 => exact Nat.zero_le _
  | rtl8367b => exact Nat.zero_le _

/-- The 4K entry is written, and then the MC entry of the VID, which passes the same checks. -/
theorem setVlan_coherent (coherent : smi.Coherent chip) (real : vid ≠ 0) :
    (setVlan chip smi vid member untag fid).2.Coherent chip := by
  rw [setVlan]
  cases got : getVlan4k chip smi vid with
  | error e => exact coherent
  | ok vlan4k =>
      have same : vlan4k.vid = vid := by rw [(getVlan4k_ok got).2, decode4k_vid]
      simp only
      cases written : setVlan4k chip smi { vlan4k with
          member := member % 2 ^ 16, untag := untag % 2 ^ 16, fid := fid % 2 ^ 8 } with
      | error e => exact coherent
      | ok after =>
          obtain ⟨fits, mcRegs, store⟩ := setVlan4k_ok written
          have slots : after.slots chip = smi.slots chip := by
            funext index
            rw [Smi.slots, Smi.slots, mcRegs]
          simp only
          rcases findMc_range chip after (fun vlanmc => vid == vlanmc.vid) emptyMc with
            ⟨last, found, unwanted⟩ | ⟨i, inside, hit, found⟩
          · simp only [found]
            have missing := missing_of_not_found unwanted
            rw [Smi.Coherent, slots, store, same]
            rw [slots] at missing
            exact coherent.write_missing missing _
          · simp only [found]
            have held := eq_of_beq hit
            generalize read : decodeMc chip (after.mcRegs i) = vlanmc at held
            have priority : vlanmc.priority ≤ priorityMax := read ▸ decodeMc_priority_le _
            have mcFits : ({ vlanmc with
                member := member % 2 ^ 16, untag := untag % 2 ^ 16, fid := fid % 2 ^ 8 } :
                  VlanMc).Fits chip :=
              ⟨held ▸ same ▸ fits.vid, priority, fits.member, fits.untag, fits.fid⟩
            cases set : setVlanMc chip after i { vlanmc with
                member := member % 2 ^ 16, untag := untag % 2 ^ 16, fid := fid % 2 ^ 8 } with
            | error e =>
                rw [setVlanMc_of_fits inside mcFits] at set
                contradiction
            | ok last =>
                obtain ⟨lastStore, -, lastSlots⟩ := setVlanMc_ok set
                have before : smi.slots chip i = some (vid, ⟨vlanmc.member, vlanmc.untag, vlanmc.fid⟩) := by
                  rw [← slots, Smi.slots, if_pos inside, read, VlanMc.slot, if_neg (held ▸ real), held]
                simp only
                rw [Smi.Coherent, lastSlots, lastStore, slots, store, same, VlanMc.slot, if_neg (held ▸ real)]
                rw [← held]
                exact coherent.write_held before _

theorem swSetPorts_coherent (coherent : smi.Coherent chip) :
    (swSetPorts chip vlan ports member untag smi).2.Coherent chip := by
  induction ports generalizing member untag smi with
  | nil => exact coherent
  | cons port rest ih =>
      rw [swSetPorts]
      cases read : getPvid chip smi port.id with
      | error e => exact coherent
      | ok pvid =>
          simp only
          by_cases unset : pvid = 0
          · rw [if_pos unset]
            have assigned : (setPvid chip smi port.id vlan).2.Coherent chip := setPvid_coherent coherent
            rcases outcome : setPvid chip smi port.id vlan with ⟨status, after⟩
            rw [outcome] at assigned
            cases status with
            | error e => exact assigned
            | ok done => exact ih assigned
          · rw [if_neg unset]
            exact ih coherent

theorem isVlanValid_ne_zero (valid : isVlanValid chip smi vlan = true) : vlan ≠ 0 := by
  intro zero
  rw [isVlanValid, zero] at valid
  contradiction

theorem swSetVlanPorts_coherent (coherent : smi.Coherent chip) :
    (swSetVlanPorts chip smi vlan ports).2.Coherent chip := by
  rw [swSetVlanPorts]
  split
  · rename_i valid
    have assigned : (swSetPorts chip vlan ports 0 0 smi).2.Coherent chip :=
      swSetPorts_coherent coherent
    rcases outcome : swSetPorts chip vlan ports 0 0 smi with ⟨status, after⟩
    rw [outcome] at assigned
    cases status with
    | error e => exact assigned
    | ok masks => exact setVlan_coherent assigned (isVlanValid_ne_zero valid)
  · exact coherent

theorem swSetVlanFid_coherent (coherent : smi.Coherent chip) (value : Int) :
    (swSetVlanFid chip smi vlan value).2.Coherent chip := by
  rw [swSetVlanFid]
  split
  · rename_i valid
    split
    · exact coherent
    · cases getVlan4k chip smi vlan with
      | error e => exact coherent
      | ok vlan4k => exact setVlan_coherent coherent (isVlanValid_ne_zero valid)
  · exact coherent

theorem emptyMc_fits (chip : Chip) : emptyMc.Fits chip where
  vid := by decide
  priority := by decide
  member := Nat.two_pow_pos _
  untag := Nat.two_pow_pos _
  fid := by decide

/-- Each entry of the loop is free afterwards. -/
theorem clearMc_slots {entries : List Nat} (inside : ∀ i ∈ entries, i < chip.numVlans) :
    (clearMc chip smi entries).2.slots chip i = if i ∈ entries then none else smi.slots chip i := by
  induction entries generalizing smi with
  | nil => rw [if_neg List.not_mem_nil]; rfl
  | cons first rest ih =>
      have here := inside first List.mem_cons_self
      have later := fun j member => inside j (List.mem_cons_of_mem first member)
      rw [clearMc]
      cases set : setVlanMc chip smi first emptyMc with
      | error e =>
          rw [setVlanMc_of_fits here (emptyMc_fits chip)] at set
          contradiction
      | ok after =>
          obtain ⟨-, -, slots⟩ := setVlanMc_ok set
          simp only
          rw [ih later, slots]
          by_cases tail : i ∈ rest
          · rw [if_pos tail, if_pos (List.mem_cons_of_mem first tail)]
          · rw [if_neg tail]
            by_cases same : i = first
            · subst same
              rw [if_pos List.mem_cons_self, Function.update_self]
              rfl
            · rw [if_neg (List.not_mem_cons_of_ne_of_not_mem same tail), Function.update_of_ne same]

theorem resetVlan_coherent (chip : Chip) (smi : Smi) : (resetVlan chip smi).2.Coherent chip := by
  apply Data.Coherent.empty
  intro i
  rw [resetVlan, clearMc_slots (fun i member => List.mem_range.mp member)]
  split
  · rfl
  · rename_i outside
    rw [Smi.slots, if_neg (fun inside => outside (List.mem_range.mpr inside))]

/-! ## Runs -/

/-- An operation of the switch interface. -/
inductive VlanOp where
  | setVlanPorts (vlan : Nat) (ports : List SwitchPort)
  | setPvid (port vid : Nat)
  | setFid (vlan : Nat) (value : Int)
  | resetVlan
  | enableVlan (enable : Bool)
  | enableVlan4k (enable : Bool)

def VlanOp.apply (chip : Chip) (smi : Smi) : VlanOp → Smi
  | .setVlanPorts vlan ports => (swSetVlanPorts chip smi vlan ports).2
  | .setPvid port vid => (swSetPortPvid chip smi port vid).2
  | .setFid vlan value => (swSetVlanFid chip smi vlan value).2
  | .resetVlan => (Rtl8366.resetVlan chip smi).2
  | .enableVlan enable => Rtl8366.enableVlan smi enable
  | .enableVlan4k enable => Rtl8366.enableVlan4k smi enable

/-- The switch after a reset and the operations, whatever its tables held before. -/
def runVlanOps (chip : Chip) (smi : Smi) (ops : List VlanOp) : Smi :=
  ops.foldl (VlanOp.apply chip) (resetVlan chip smi).2

theorem enableVlan_coherent (coherent : smi.Coherent chip) (enable : Bool) :
    (enableVlan smi enable).Coherent chip := by
  cases enable with
  | true => exact coherent
  | false => exact coherent

theorem VlanOp.apply_coherent (coherent : smi.Coherent chip) (op : VlanOp) :
    (op.apply chip smi).Coherent chip := by
  cases op with
  | setVlanPorts vlan ports => exact swSetVlanPorts_coherent coherent
  | setPvid port vid => exact setPvid_coherent coherent
  | setFid vlan value => exact swSetVlanFid_coherent coherent value
  | resetVlan => exact resetVlan_coherent chip smi
  | enableVlan enable => exact enableVlan_coherent coherent enable
  | enableVlan4k enable => exact coherent

theorem runVlanOps_coherent (chip : Chip) (smi : Smi) (ops : List VlanOp) :
    (runVlanOps chip smi ops).Coherent chip := by
  rw [runVlanOps]
  generalize start : (resetVlan chip smi).2 = first
  have coherent : first.Coherent chip := start ▸ resetVlan_coherent chip smi
  clear start
  induction ops generalizing first with
  | nil => exact coherent
  | cons op rest ih => exact ih _ (VlanOp.apply_coherent coherent op)

/-- What the driver reads back from the two tables: no VID is in two MC entries, and an MC entry
with a VID has the values of the 4K entry, the untag mask as far as `untagOf` says. -/
def MirrorsVlan4k (untagOf : Nat → Nat) (chip : Chip) (smi : Smi) : Prop :=
  (∀ i j mc other, getVlanMc chip smi i = .ok mc → getVlanMc chip smi j = .ok other →
    mc.vid ≠ 0 → other.vid = mc.vid → i = j) ∧
  ∀ i mc, getVlanMc chip smi i = .ok mc → mc.vid ≠ 0 →
    ∃ vlan4k, getVlan4k chip smi mc.vid = .ok vlan4k ∧ mc.member = vlan4k.member ∧
      mc.untag = untagOf vlan4k.untag ∧ mc.fid = vlan4k.fid

theorem getVlanMc_slots {mc : VlanMc} (got : getVlanMc chip smi i = .ok mc) (real : mc.vid ≠ 0) :
    smi.slots chip i = some (mc.vid, ⟨mc.member, mc.untag, mc.fid⟩) := by
  rw [getVlanMc] at got
  split at got
  · contradiction
  · rename_i inside
    have read := Except.ok.inj got
    rw [Smi.slots, if_pos (Nat.lt_of_not_le inside), read, VlanMc.slot, if_neg real]

theorem Smi.Coherent.mirrors (coherent : smi.Coherent chip) :
    MirrorsVlan4k chip.keptUntag chip smi := by
  constructor
  · intro i j mc other first second real same
    have second := getVlanMc_slots second (same ▸ real)
    rw [same] at second
    exact coherent.unique (getVlanMc_slots first real) second
  · intro i mc got real
    have stored := coherent.same (getVlanMc_slots got real)
    rw [Smi.store] at stored
    split at stored
    · rename_i inside
      have values := Option.some.inj stored
      rw [Vlan4k.config, Config.mk.injEq] at values
      refine ⟨_, if_neg (Nat.not_le_of_lt inside), values.1.symm, values.2.1.symm, values.2.2.symm⟩
    · contradiction

/-- In every run the MC entries are copies of the 4K entries, the untag mask where the chip has room
for it. -/
theorem runVlanOps_mirrors (chip : Chip) (smi : Smi) (ops : List VlanOp) :
    MirrorsVlan4k chip.keptUntag chip (runVlanOps chip smi ops) :=
  (runVlanOps_coherent chip smi ops).mirrors

def blankSmi : Smi where
  vlanEnabled := false
  vlan4kEnabled := false
  mcRegs := fun _ => [0, 0, 0, 0]
  vlanTable := fun _ => [0, 0]
  pvidCtrl := fun _ => 0

/-- The MC registers of RTL8367B have no untag mask: VLAN 1 with port 0 untagged. -/
theorem untag_not_mirrored :
    ¬ ∀ chip smi ops, MirrorsVlan4k id chip (runVlanOps chip smi ops) := by
  intro mirrors
  have run := mirrors .rtl8367b blankSmi [.setVlanPorts 1 [⟨0, false⟩]]
  have entry : getVlanMc .rtl8367b (runVlanOps .rtl8367b blankSmi [.setVlanPorts 1 [⟨0, false⟩]]) 0 =
      .ok { vid := 1, untag := 0, member := 1, fid := 0, priority := 0 } := by rfl
  have stored : getVlan4k .rtl8367b (runVlanOps .rtl8367b blankSmi [.setVlanPorts 1 [⟨0, false⟩]]) 1 =
      .ok { vid := 1, untag := 1, member := 1, fid := 0 } := by rfl
  obtain ⟨vlan4k, found, -, untag, -⟩ := run.2 0 _ entry (by decide)
  rw [stored] at found
  cases found
  contradiction

end Rut9xx.Switch.Rtl8366
