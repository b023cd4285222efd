import Rut9xx.Switch.Ar8327
import Mathlib.Data.List.Nodup

namespace Rut9xx.Switch.Ar8327

open Data

/-! # What is reported of the tags, and what the hardware is told -/

/-- The egress mode that a reported list of ports implies. -/
def impliedMode (ports : List SwitchPort) (port : Nat) : Nat :=
  if ports.any fun p => p.id == port && p.tagged then egModeTag
  else if ports.any fun p => p.id == port then egModeUntag
  else egModeNot

/-- No two entries of the VLAN-id table are the same. -/
def DistinctVids (priv : Priv) : Prop :=
  ∀ i < maxVlans, ∀ j < maxVlans, priv.vlanId i = priv.vlanId j → i = j

/-- Every port's default VLAN is an entry of the table. -/
def PvidsInTable (priv : Priv) : Prop := ∀ port < numPorts, priv.pvid port < maxVlans

variable {priv : Priv} {portVlan port vlan : Nat} {p : SwitchPort} {ports : List SwitchPort}

/-- The flag that is reported of a member. -/
def shownTagged (priv : Priv) (portVlan port : Nat) : Bool :=
  priv.vlanTagged.getLsbD port || decide (priv.pvid port ≠ portVlan)

theorem mem_swGetPorts :
    p ∈ swGetPorts priv portVlan ↔
      p.id < numPorts ∧ (priv.vlanTable portVlan).getLsbD p.id = true ∧
        p.tagged = shownTagged priv portVlan p.id := by
  rw [swGetPorts, List.mem_filterMap]
  constructor
  · intro listed
    obtain ⟨i, inside, shown⟩ := listed
    split at shown
    · cases shown
    · next member =>
        cases shown
        exact ⟨List.mem_range.mp inside, (Bool.not_eq_false _).mp member, rfl⟩
  · intro reported
    obtain ⟨inside, member, flag⟩ := reported
    refine ⟨p.id, List.mem_range.mpr inside, ?_⟩
    rw [if_neg (by rw [member]; decide)]
    cases p
    exact congrArg (fun tagged => some (SwitchPort.mk _ tagged)) flag.symm

theorem swGetPorts_nodup : ((swGetPorts priv portVlan).map (·.id)).Nodup := by
  rw [swGetPorts, List.map_filterMap]
  apply List.Nodup.filterMap
  · intro i j id first second
    rw [Option.mem_def, Option.map_eq_some_iff] at first second
    obtain ⟨shown, here, rfl⟩ := first
    obtain ⟨other, there, same⟩ := second
    split at here
    · cases here
    · split at there
      · cases there
      · cases here
        cases there
        exact same.symm
  · exact List.nodup_range

/-! ## The word for the translation unit -/

theorem egMode_lt (priv : Priv) (vid : BitVec 16) (portMask : BitVec 8) (i : Nat) :
    egMode priv vid portMask i < 2 ^ 2 := by
  rw [egMode]
  split
  · decide
  · split
    · decide
    · split <;> decide

theorem getField_shiftLeft {shift width value other : Nat} (fits : value < 2 ^ width)
    (apart : shift + width ≤ other ∨ other + width ≤ shift ∨ shift = other) :
    getField shift width (value <<< other) = if shift = other then value else 0 := by
  have packed : value <<< other = putField other width value := by
    rw [putField, Nat.and_two_pow_sub_one_eq_mod, Nat.mod_eq_of_lt fits]
  rw [packed]
  by_cases same : shift = other
  · rw [if_pos same, same, getField_putField, getField_of_lt fits]
  · rw [if_neg same]
    exact getField_putField_of_disjoint (by omega)

/-- Each port has its own two bits of the word. -/
theorem writtenMode_foldl {mode : Nat → Nat} (small : ∀ i, mode i < 2 ^ 2) (base count port : Nat) :
    writtenMode ((List.range count).foldl (fun val i => val ||| mode i <<< egModeShift i) base)
        port =
      writtenMode base port ||| if port < count then mode port else 0 := by
  induction count with
  | zero => rw [if_neg (Nat.not_lt_zero port), Nat.or_zero]; rfl
  | succ count ih =>
      have added := @getField_shiftLeft (egModeShift port) 2 (mode count) (egModeShift count)
        (small count) (by rw [egModeShift, egModeShift]; omega)
      rw [List.range_succ, List.foldl_append, writtenMode, List.foldl_cons, List.foldl_nil,
        getField_or, ← writtenMode, ih, added, Nat.or_assoc]
      congr 1
      rcases Nat.lt_trichotomy port count with below | same | above
      · rw [if_pos below, if_neg (by rw [egModeShift, egModeShift]; omega), Nat.or_zero,
          if_pos (by omega)]
      · rw [same, if_neg (Nat.lt_irrefl count), if_pos rfl, Nat.zero_or, if_pos (Nat.lt_succ_self _)]
      · rw [if_neg (by omega), if_neg (by rw [egModeShift, egModeShift]; omega), Nat.or_zero,
          if_neg (by omega)]

theorem vtuLoadVlan_mode (vid : BitVec 16) (portMask : BitVec 8) (inside : port < numPorts) :
    writtenMode (vtuLoadVlan priv vid portMask).2 port = egMode priv vid portMask port := by
  have flags : writtenMode (2 ^ 20 ||| 2 ^ 19) port = 0 := by
    revert inside
    revert port
    decide
  rw [vtuLoadVlan, writtenMode_foldl (egMode_lt priv vid portMask), flags, if_pos inside,
    Nat.zero_or]

/-- The list names each member once, with its flag. -/
theorem impliedMode_swGetPorts (inside : port < numPorts) :
    impliedMode (swGetPorts priv vlan) port =
      if (priv.vlanTable vlan).getLsbD port = false then egModeNot
      else if shownTagged priv vlan port = true then egModeTag
      else egModeUntag := by
  have named : (swGetPorts priv vlan).any (fun p => p.id == port) =
      (priv.vlanTable vlan).getLsbD port := by
    rw [Bool.eq_iff_iff, List.any_eq_true]
    constructor
    · intro found
      obtain ⟨p, listed, same⟩ := found
      rw [← eq_of_beq same]
      exact (mem_swGetPorts.mp listed).2.1
    · intro member
      exact ⟨⟨port, shownTagged priv vlan port⟩, mem_swGetPorts.mpr ⟨inside, member, rfl⟩,
        beq_self_eq_true port⟩
  have tagged : (swGetPorts priv vlan).any (fun p => p.id == port && p.tagged) =
      ((priv.vlanTable vlan).getLsbD port && shownTagged priv vlan port) := by
    rw [Bool.eq_iff_iff, List.any_eq_true, Bool.and_eq_true]
    constructor
    · intro found
      obtain ⟨p, listed, both⟩ := found
      obtain ⟨same, flag⟩ := Bool.and_eq_true_iff.mp both
      obtain ⟨-, member, shown⟩ := mem_swGetPorts.mp listed
      rw [← eq_of_beq same, ← shown]
      exact ⟨member, flag⟩
    · intro both
      refine ⟨⟨port, shownTagged priv vlan port⟩, mem_swGetPorts.mpr ⟨inside, both.1, rfl⟩, ?_⟩
      rw [both.2]
      exact Bool.and_eq_true_iff.mpr ⟨beq_self_eq_true port, rfl⟩
  rw [impliedMode, named, tagged]
  cases (priv.vlanTable vlan).getLsbD port <;> cases shownTagged priv vlan port <;> rfl

theorem egMode_implied (enabled : priv.vlan = true) (distinct : DistinctVids priv)
    (pvids : PvidsInTable priv) (bound : vlan < maxVlans) (inside : port < numPorts) :
    egMode priv (priv.vlanId vlan) (priv.vlanTable vlan) port =
      impliedMode (swGetPorts priv vlan) port := by
  have same : (priv.vlanTagged.getLsbD port = true ∨
      priv.vlanId (priv.pvid port) ≠ priv.vlanId vlan) ↔ shownTagged priv vlan port = true := by
    have vids : priv.vlanId (priv.pvid port) = priv.vlanId vlan ↔ priv.pvid port = vlan := by
      constructor
      · exact distinct _ (pvids port inside) vlan bound
      · exact congrArg priv.vlanId
    rw [shownTagged, Bool.or_eq_true, decide_eq_true_iff, Ne, vids]
  rw [impliedMode_swGetPorts inside, egMode, enabled]
  simp only [same, Bool.true_eq_false, if_false]

/-! ## The list that was set -/

theorem setPort_member (inside : p.id < 8) :
    ((setPort portVlan priv p).vlanTable portVlan).getLsbD port =
      ((priv.vlanTable portVlan).getLsbD port || decide (p.id = port)) := by
  have kept : (setPort portVlan priv p).vlanTable =
      Function.update priv.vlanTable portVlan (priv.vlanTable portVlan ||| bit 8 p.id) := by
    unfold setPort
    dsimp only
    split
    · split <;> rfl
    · rfl
  rw [kept, Function.update_self, getLsbD_insert inside]

theorem setPort_shown_self (inside : p.id < 8) :
    shownTagged (setPort portVlan priv p) portVlan p.id = p.tagged := by
  unfold setPort shownTagged
  cases flag : p.tagged with
  | true =>
      by_cases default : portVlan = priv.pvid p.id
      · simp [default, getLsbD_insert inside]
      · simp [default, Ne.symm default]
  | false => simp [getLsbD_bit_self inside]

theorem setPort_shown_other (apart : p.id ≠ port) :
    shownTagged (setPort portVlan priv p) portVlan port = shownTagged priv portVlan port := by
  unfold setPort shownTagged
  cases flag : p.tagged with
  | true =>
      by_cases default : portVlan = priv.pvid p.id
      · simp [default, getLsbD_bit, apart]
      · simp [default]
  | false =>
      simp only [Bool.false_eq_true, if_false, Function.update_of_ne (Ne.symm apart),
        getLsbD_erase, decide_eq_false apart, Bool.not_false, Bool.and_true]

/-- The flags and the members once a list without repeats is set. -/
theorem foldl_setPort (inside : ∀ p ∈ ports, p.id < 8) (once : (ports.map (·.id)).Nodup) :
    (∀ port, ((ports.foldl (setPort portVlan) priv).vlanTable portVlan).getLsbD port = true ↔
      (priv.vlanTable portVlan).getLsbD port = true ∨ port ∈ ports.map (·.id)) ∧
    (∀ port, port ∉ ports.map (·.id) →
      shownTagged (ports.foldl (setPort portVlan) priv) portVlan port =
        shownTagged priv portVlan port) ∧
    ∀ p ∈ ports, shownTagged (ports.foldl (setPort portVlan) priv) portVlan p.id = p.tagged := by
  induction ports generalizing priv with
  | nil => simp
  | cons first rest ih =>
      rw [List.map_cons, List.nodup_cons] at once
      have small := inside first List.mem_cons_self
      obtain ⟨members, others, flags⟩ := @ih (setPort portVlan priv first)
        (fun p listed => inside p (List.mem_cons_of_mem _ listed)) once.2
      rw [List.foldl_cons]
      refine ⟨?_, ?_, ?_⟩
      · intro port
        rw [members, setPort_member small, List.map_cons, List.mem_cons, Bool.or_eq_true,
          decide_eq_true_iff, or_assoc, @eq_comm _ first.id port]
      · intro port absent
        rw [List.map_cons, List.mem_cons, not_or] at absent
        rw [others port absent.2, setPort_shown_other (Ne.symm absent.1)]
      · intro p listed
        cases listed with
        | head => rw [others first.id once.1, setPort_shown_self small]
        | tail _ later => exact flags p later

/-- What is reported directly afterwards is what was set. -/
theorem swGetPorts_swSetPorts (inside : ∀ p ∈ ports, p.id < numPorts)
    (once : (ports.map (·.id)).Nodup) :
    p ∈ swGetPorts (swSetPorts priv portVlan ports) portVlan ↔ p ∈ ports := by
  have small : ∀ p ∈ ports, p.id < 8 := fun p listed => Nat.lt_succ_of_lt (inside p listed)
  obtain ⟨members, -, flags⟩ := @foldl_setPort
    { priv with vlanTable := Function.update priv.vlanTable portVlan 0 } portVlan ports small once
  have member (port : Nat) :
      ((swSetPorts priv portVlan ports).vlanTable portVlan).getLsbD port = true ↔
        port ∈ ports.map (·.id) := by
    rw [swSetPorts, members port]
    simp
  rw [mem_swGetPorts, member, List.mem_map]
  constructor
  · intro reported
    obtain ⟨-, ⟨given, listed, same⟩, flag⟩ := reported
    rw [swSetPorts, ← same, flags given listed] at flag
    cases p
    cases given
    cases flag
    cases same
    exact listed
  · intro listed
    exact ⟨inside p listed, ⟨p, listed, rfl⟩, (flags p listed).symm⟩

/-! ## Every run -/

theorem swSetPorts_pvids (pvids : PvidsInTable priv) (bound : portVlan < maxVlans) :
    PvidsInTable (swSetPorts priv portVlan ports) := by
  rw [swSetPorts]
  generalize h : ({ priv with vlanTable := Function.update priv.vlanTable portVlan 0 } : Priv) = start
  have start' : PvidsInTable start := by
    rw [← h]
    exact pvids
  clear h
  induction ports generalizing start with
  | nil => exact start'
  | cons first rest ih =>
      apply ih
      intro port inside
      unfold setPort
      dsimp only
      split
      · split <;> exact start' port inside
      · dsimp only
        by_cases same : port = first.id
        · rw [same, Function.update_self]
          exact bound
        · rw [Function.update_of_ne same]
          exact start' port inside

theorem TagOp.apply_pvids (pvids : PvidsInTable priv) {op : TagOp} (valid : op.Valid) :
    PvidsInTable (op.apply priv) := by
  cases op with
  | setVlan enable => exact pvids
  | setVid portVlan value => exact pvids
  | setPvid port vlan =>
      intro other inside
      rw [TagOp.apply, swSetPvid]
      split
      · exact pvids other inside
      · next accepted =>
          rw [ar8xxxSwSetPvid]
          dsimp only
          by_cases same : other = port
          · rw [same, Function.update_self]
            omega
          · rw [Function.update_of_ne same]
            exact pvids other inside
  | setPorts portVlan ports => exact swSetPorts_pvids pvids valid.1

theorem runTagOps_pvids {ops : List TagOp} (pvids : PvidsInTable priv)
    (valid : ∀ op ∈ ops, op.Valid) : PvidsInTable (runTagOps priv ops) := by
  induction ops generalizing priv with
  | nil => exact pvids
  | cons op rest ih =>
      exact ih (TagOp.apply_pvids pvids (valid op List.mem_cons_self))
        fun later listed => valid later (List.mem_cons_of_mem _ listed)

/-- In every run the modes written to the translation unit are those that the reported lists
imply, and a list that is set is reported as it was given. -/
theorem tagView_agrees (start : Priv) (ops : List TagOp) (valid : ∀ op ∈ ops, op.Valid)
    (enabled : (runTagOps (resetTags start) ops).vlan = true)
    (distinct : DistinctVids (runTagOps (resetTags start) ops)) :
    (∀ vlan < maxVlans, ∀ port < numPorts,
      writtenMode (vtuLoadVlan (runTagOps (resetTags start) ops)
          ((runTagOps (resetTags start) ops).vlanId vlan)
          ((runTagOps (resetTags start) ops).vlanTable vlan)).2 port =
        impliedMode (swGetPorts (runTagOps (resetTags start) ops) vlan) port) ∧
      ∀ portVlan ports, (TagOp.setPorts portVlan ports).Valid →
        (∀ p, p ∈ swGetPorts (swSetPorts (runTagOps (resetTags start) ops) portVlan ports)
            portVlan ↔ p ∈ ports) ∧
          ((swGetPorts (swSetPorts (runTagOps (resetTags start) ops) portVlan ports)
            portVlan).map (·.id)).Nodup := by
  have pvids : PvidsInTable (runTagOps (resetTags start) ops) :=
    runTagOps_pvids (fun port inside => (show 0 < maxVlans by decide)) valid
  constructor
  · intro vlan bound port inside
    rw [vtuLoadVlan_mode _ _ inside]
    exact egMode_implied enabled distinct pvids bound inside
  · intro portVlan ports given
    exact ⟨fun p => swGetPorts_swSetPorts given.2.1 given.2.2, swGetPorts_nodup⟩

def blankPriv : Priv where
  init := false
  vlan := false
  vlanId := fun _ => 0
  vlanTable := fun _ => 0
  vlanTagged := 0
  pvid := fun _ => 0
  registers := fun _ => 0
  vtu := []

/-- A tagged CPU port and an untagged one. -/
def trunkOps : List TagOp := [.setVlan true, .setPorts 1 [⟨0, true⟩, ⟨2, false⟩], .setPvid 3 1]

theorem tagView_agrees_trunk :
    writtenMode (vtuLoadVlan (runTagOps (resetTags blankPriv) trunkOps)
        ((runTagOps (resetTags blankPriv) trunkOps).vlanId 1)
        ((runTagOps (resetTags blankPriv) trunkOps).vlanTable 1)).2 2 =
      impliedMode (swGetPorts (runTagOps (resetTags blankPriv) trunkOps) 1) 2 := by
  have valid : ∀ op ∈ trunkOps, op.Valid := by
    simp [trunkOps, TagOp.Valid, maxVlans, numPorts]
  have distinct : DistinctVids (runTagOps (resetTags blankPriv) trunkOps) := by
    intro i first j second same
    have table (vlan : Nat) : (runTagOps (resetTags blankPriv) trunkOps).vlanId vlan =
        if vlan < maxVlans then BitVec.ofNat 16 vlan else 0 := rfl
    rw [table, table, if_pos first, if_pos second] at same
    have numbers := congrArg BitVec.toNat same
    rw [BitVec.toNat_ofNat, BitVec.toNat_ofNat] at numbers
    rw [maxVlans] at first second
    omega
  exact (tagView_agrees blankPriv trunkOps valid rfl distinct).1 1 (by decide) 2 (by decide)

end Rut9xx.Switch.Ar8327
