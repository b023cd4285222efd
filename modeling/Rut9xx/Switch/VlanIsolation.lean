import Rut9xx.Data.WriteThrough
import Rut9xx.Switch.Ar8216
import Mathlib.Data.List.Induction
import Mathlib.Tactic.IntervalCases

namespace Rut9xx.Switch

open Data

/-! # What the VLAN configuration lets the ports reach -/

variable {chip : Chip} {priv : Priv} {vlans portVlan port other vlan : Nat}

/-- The port is in the VLAN table entry. -/
def Priv.Member (priv : Priv) (vlan port : Nat) : Prop :=
  (priv.vlanTable vlan).getLsbD port = true

theorem ports_le (chip : Chip) : chip.ports ≤ 6 := by
  cases chip <;> decide

instance : NeZero chip.ports := ⟨by cases chip <;> decide⟩

instance : NeZero chip.vlans := ⟨by cases chip <;> decide⟩

/-! ## Membership -/

theorem removeFromOthers_eq (table : Nat → BitVec 8) :
    removeFromOthers vlans portVlan port table vlan =
      if vlan < vlans ∧ vlan ≠ portVlan then table vlan &&& ~~~bit 8 port else table vlan := by
  have loop := foldl_update (· ≠ portVlan) (fun _ entry => entry &&& ~~~bit 8 port) vlans vlan table
  simp only [ne_eq, ite_not] at loop
  exact loop

/-- The entry that is set gains the port. -/
theorem setPort_member_self {p : SwitchPort} (inside : p.id < 8) :
    (setPort chip portVlan priv p).Member portVlan port ↔
      priv.Member portVlan port ∨ p.id = port := by
  have kept : removeFromOthers chip.vlans portVlan p.id priv.vlanTable portVlan =
      priv.vlanTable portVlan := by
    rw [removeFromOthers_eq, if_neg (fun both => both.2 rfl)]
  cases tagged : p.tagged with
  | true => simp [setPort, Priv.Member, tagged, getLsbD_insert inside]
  | false => simp [setPort, Priv.Member, tagged, getLsbD_insert inside, kept]

/-- The others lose it if it is untagged. -/
theorem setPort_member_other {p : SwitchPort} (apart : vlan ≠ portVlan) :
    (setPort chip portVlan priv p).Member vlan port ↔
      priv.Member vlan port ∧ (p.tagged = false → vlan < chip.vlans → p.id ≠ port) := by
  cases tagged : p.tagged with
  | true => simp [setPort, Priv.Member, tagged, Function.update_of_ne apart]
  | false =>
      simp only [setPort, Priv.Member, tagged, Bool.false_eq_true, if_false,
        Function.update_of_ne apart, removeFromOthers_eq]
      by_cases inside : vlan < chip.vlans
      · rw [if_pos ⟨inside, apart⟩, getLsbD_erase]
        simp [inside]
      · rw [if_neg (fun both => inside both.1)]
        simp [inside]

/-- The port is a member of at most one VLAN. -/
def Lone (chip : Chip) (priv : Priv) (port : Nat) : Prop :=
  ∀ vlan < chip.vlans, ∀ other < chip.vlans, priv.Member vlan port → priv.Member other port →
    vlan = other

/-- An untagged port ends up in the entry that is set alone. -/
theorem setPort_lone {p : SwitchPort} (untagged : p.tagged = false)
    (same : p.id = port) : Lone chip (setPort chip portVlan priv p) port := by
  have only {vlan : Nat} (bound : vlan < chip.vlans)
      (member : (setPort chip portVlan priv p).Member vlan port) : vlan = portVlan := by
    by_contra apart
    exact ((setPort_member_other apart).mp member).2 untagged bound same
  intro vlan bound other boundOther member memberOther
  rw [only bound member, only boundOther memberOther]

theorem setPort_keeps_lone {p : SwitchPort} (inside : p.id < 8) (apart : p.id ≠ port)
    (lone : Lone chip priv port) : Lone chip (setPort chip portVlan priv p) port := by
  have before {vlan : Nat} (member : (setPort chip portVlan priv p).Member vlan port) :
      priv.Member vlan port := by
    by_cases same : vlan = portVlan
    · subst same
      exact ((setPort_member_self inside).mp member).resolve_right apart
    · exact ((setPort_member_other same).mp member).1
  intro vlan bound other boundOther member memberOther
  exact lone vlan bound other boundOther (before member) (before memberOther)

/-! ## Runs of the switch interface -/

/-- An operation with numbers in range. -/
inductive SwOp (chip : Chip) where
  | setPorts (portVlan : Fin chip.vlans) (ports : List (Fin chip.ports × Bool))
  | setPvid (port : Fin chip.ports) (vlan : Fin chip.vlans)
  | setVid (portVlan : Fin chip.vlans) (value : BitVec 16)
  | setVlan (value : Bool)

def switchPort (entry : Fin chip.ports × Bool) : SwitchPort := ⟨entry.1, entry.2⟩

def perform (chip : Chip) (priv : Priv) : SwOp chip → Priv
  | .setPorts portVlan ports => ar8xxxSwSetPorts chip priv portVlan (ports.map switchPort)
  | .setPvid port vlan => ar8xxxSwSetPvid priv port vlan
  | .setVid portVlan value => ar8xxxSwSetVid priv portVlan value
  | .setVlan value => ar8xxxSwSetVlan priv value

def run (chip : Chip) (priv : Priv) (ops : List (SwOp chip)) : Priv := ops.foldl (perform chip) priv

/-- How a list of ports configures a port: tagged or not, by its last mention. -/
def mention (port : Nat) (flag : Option Bool) (p : SwitchPort) : Option Bool :=
  if p.id = port then some p.tagged else flag

/-- How `set_ports` last configured the port. -/
def lastConfigured (port : Nat) (ops : List (SwOp chip)) : Option Bool :=
  ops.foldl (fun flag op =>
    match op with
    | .setPorts _ ports => (ports.map switchPort).foldl (mention port) flag
    | _ => flag) none

theorem setPorts_lone {flag : Option Bool} {ports : List SwitchPort}
    (inside : ∀ p ∈ ports, p.id < 8) (lone : flag = some false → Lone chip priv port) :
    ports.foldl (mention port) flag = some false →
      Lone chip (ports.foldl (setPort chip portVlan) priv) port := by
  induction ports generalizing priv flag with
  | nil => exact lone
  | cons p ports ih =>
      have bound := inside p List.mem_cons_self
      refine ih (fun later member => inside later (List.mem_cons_of_mem _ member)) ?_
      intro last
      unfold mention at last
      split at last
      · rename_i same
        exact setPort_lone (Option.some.inj last) same
      · rename_i apart
        exact setPort_keeps_lone bound apart (lone last)

theorem clear_lone {vlanTable : Nat → BitVec 8} (lone : Lone chip priv port)
    (table : vlanTable = Function.update priv.vlanTable portVlan 0) :
    Lone chip { priv with vlanTable := vlanTable } port := by
  have before {vlan : Nat} (member : ({ priv with vlanTable := vlanTable } : Priv).Member vlan port) :
      priv.Member vlan port := by
    by_cases same : vlan = portVlan
    · subst same
      simp [Priv.Member, table] at member
    · simpa [Priv.Member, table, Function.update_of_ne same] using member
  intro vlan bound other boundOther member memberOther
  exact lone vlan bound other boundOther (before member) (before memberOther)

theorem run_lone (start : Priv) (ops : List (SwOp chip)) :
    lastConfigured port ops = some false → Lone chip (run chip start ops) port := by
  induction ops using List.reverseRecOn with
  | nil => exact fun never => by cases never
  | append_singleton ops op ih =>
      rw [lastConfigured, run, List.foldl_append, List.foldl_append]
      cases op with
      | setPorts portVlan ports =>
          apply setPorts_lone
          · intro p member
            obtain ⟨entry, -, rfl⟩ := List.mem_map.mp member
            have bound := ports_le chip
            have inside := entry.1.isLt
            simp only [switchPort]
            omega
          · intro last
            exact clear_lone (ih last) rfl
      | setPvid port vlan => exact ih
      | setVid portVlan value => exact ih
      | setVlan value => exact ih

/-! ## The destination masks -/

theorem and_bit_ne_zero {vp : BitVec 8} (inside : port < 8) :
    vp &&& bit 8 port ≠ 0 ↔ vp.getLsbD port = true := by
  constructor
  · intro nonzero
    by_contra missing
    apply nonzero
    apply BitVec.eq_of_getLsbD_eq
    intro index bound
    rw [BitVec.getLsbD_and, getLsbD_bit]
    by_cases same : port = index
    · subst same
      simp [missing]
    · simp [same]
  · intro member zero
    have bits := congrArg (fun word => BitVec.getLsbD word port) zero
    simp [getLsbD_bit_self inside, member] at bits

/-- The share of one VLAN: its other members, for each of its members. -/
theorem spreadMembers_bit {vp : BitVec 8} {portmask : Nat → BitVec 8} {count : Nat}
    (inside : port < count) (small : count ≤ 8) :
    (spreadMembers count vp portmask port).getLsbD other = true ↔
      (portmask port).getLsbD other = true ∨
        other ≠ port ∧ vp.getLsbD port = true ∧ vp.getLsbD other = true := by
  have loop := foldl_update (fun i => vp &&& bit 8 i ≠ 0)
    (fun i mask => mask ||| vp &&& ~~~bit 8 i) count port portmask
  rw [spreadMembers, loop]
  by_cases member : vp.getLsbD port = true
  · rw [if_pos ⟨inside, (and_bit_ne_zero (by omega)).mpr member⟩, BitVec.getLsbD_or, getLsbD_erase]
    simp only [Bool.or_eq_true, Bool.and_eq_true, Bool.not_eq_true', decide_eq_false_iff_not,
      member, ne_eq, true_and]
    rw [and_comm, ← ne_eq, ← ne_eq, ne_comm]
  · rw [if_neg (fun both => member ((and_bit_ne_zero (by omega)).mp both.2))]
    simp [member]

/-- The port can reach the other one. -/
def Reaches (chip : Chip) (priv : Priv) (port other : Nat) : Prop :=
  other ≠ port ∧ ∃ vlan < chip.vlans, priv.Member vlan port ∧ priv.Member vlan other

theorem reaches_comm : Reaches chip priv port other ↔ Reaches chip priv other port := by
  have swap {port other : Nat} (reach : Reaches chip priv port other) :
      Reaches chip priv other port := by
    obtain ⟨apart, vlan, bound, member, memberOther⟩ := reach
    exact ⟨apart.symm, vlan, bound, memberOther, member⟩
  exact ⟨swap, swap⟩

theorem loadVlans_bit (inside : port < chip.ports) :
    ((loadVlans chip priv).1 port).getLsbD other = true ↔ Reaches chip priv port other := by
  have bound := ports_le chip
  unfold loadVlans Reaches
  generalize chip.vlans = vlans
  induction vlans with
  | zero => simp
  | succ vlans ih =>
      rw [List.range_succ, List.foldl_append, List.foldl_cons, List.foldl_nil]
      generalize (List.range vlans).foldl _ _ = loaded at ih ⊢
      obtain ⟨portmask, vtu⟩ := loaded
      have last : (∃ vlan < vlans + 1, priv.Member vlan port ∧ priv.Member vlan other) ↔
          (∃ vlan < vlans, priv.Member vlan port ∧ priv.Member vlan other) ∨
            priv.Member vlans port ∧ priv.Member vlans other := by
        constructor
        · intro shared
          obtain ⟨vlan, below, members⟩ := shared
          by_cases same : vlan = vlans
          · exact Or.inr (same ▸ members)
          · exact Or.inl ⟨vlan, by omega, members⟩
        · intro shared
          obtain ⟨vlan, below, members⟩ | members := shared
          · exact ⟨vlan, by omega, members⟩
          · exact ⟨vlans, Nat.lt_succ_self _, members⟩
      have before : (portmask port).getLsbD other = true ↔ _ := ih
      rw [last, and_or_left]
      by_cases empty : priv.vlanTable vlans = 0
      · simp [empty, Priv.Member, before]
      · simp only [if_neg empty]
        rw [spreadMembers_bit inside (by omega), before]
        rfl

/-! ## The registers -/

theorem rmw_at {reg : Nat} {mask value : BitVec 32} {index : Nat}
    (masked : mask.getLsbD index = true) :
    ((priv.rmw reg mask value).registers reg).getLsbD index = value.getLsbD index := by
  simp only [Priv.rmw, Function.update_self]
  exact getLsbD_rmw masked

theorem rmw_apart {reg at' : Nat} {mask value : BitVec 32} (apart : at' ≠ reg) :
    (priv.rmw reg mask value).registers at' = priv.registers at' := by
  simp only [Priv.rmw, Function.update_of_ne apart]

/-- The default VLAN stays below the destination bits. -/
theorem portMode_pvid {index : Nat} (own : port < chip.ports) (high : 16 ≤ index) :
    (priv.portMode port).1.getLsbD index = false := by
  have bound := ports_le chip
  have small : (priv.portMode port).1.toNat < 2 ^ 16 := by
    unfold Priv.portMode
    split
    · rw [BitVec.toNat_setWidth]
      have := (priv.vlanId (priv.pvid port)).isLt
      omega
    · rw [BitVec.toNat_ofNat]
      omega
  rw [BitVec.getLsbD]
  exact Nat.testBit_lt_two_pow (Nat.lt_of_lt_of_le small (Nat.pow_le_pow_right (by omega) high))

theorem members_bit {members : BitVec 8} (inside : other < 6) :
    (members.setWidth 32 <<< 16).getLsbD (16 + other) = members.getLsbD other := by
  have bound : 16 + other < 32 := by omega
  have high : ¬ 16 + other < 16 := by omega
  have back : 16 + other - 16 = other := by omega
  simp [bound, back]

theorem ingress_bit {ingress : BitVec 32} (inside : other < 6) :
    (ingress <<< 30).getLsbD (16 + other) = false := by
  have low : 16 + other < 30 := by omega
  simp [BitVec.getLsbD_shiftLeft, low]

theorem ar8216SetupPort_bit {members : BitVec 8} {athHdrEn : Bool} (inside : other < 6)
    (own : port < chip.ports) :
    ((ar8216SetupPort priv port (members.setWidth 32) athHdrEn).registers
      (regPortVlan port)).getLsbD (16 + other) = members.getLsbD other := by
  have masked : (bits 16 9 ||| bits 30 2 ||| bits 0 12).getLsbD (16 + other) = true := by
    interval_cases other <;> decide
  have pvid : (priv.portMode port).1.getLsbD (16 + other) = false :=
    portMode_pvid own (Nat.le_add_right 16 other)
  unfold ar8216SetupPort
  rw [rmw_at masked, BitVec.getLsbD_or, BitVec.getLsbD_or, members_bit inside, ingress_bit inside]
  simp only [BitVec.shiftLeft_zero, pvid, Bool.or_false]

theorem ar8236SetupPort_bit {members : BitVec 8} (inside : other < 6) :
    ((ar8236SetupPort priv port (members.setWidth 32)).registers
      (regPortVlan2 port)).getLsbD (16 + other) = members.getLsbD other := by
  have masked : (bits 30 2 ||| bits 16 7).getLsbD (16 + other) = true := by
    interval_cases other <;> decide
  unfold ar8236SetupPort
  rw [rmw_at masked, BitVec.getLsbD_or, members_bit inside, ingress_bit inside, Bool.false_or]

theorem setupPort_bit {members : BitVec 8} (inside : other < chip.ports) (own : port < chip.ports) :
    ((setupPort chip priv port (members.setWidth 32)).registers (destRegister chip port)).getLsbD
      (16 + other) = members.getLsbD other := by
  have small : other < 6 := Nat.lt_of_lt_of_le inside (ports_le chip)
  cases chip with
  | ar7240sw => exact ar8216SetupPort_bit small own
  | ar8216 => exact ar8216SetupPort_bit small own
  | ar8229 => exact ar8236SetupPort_bit small
  | ar8236 => exact ar8236SetupPort_bit small
  | ar8316 => exact ar8216SetupPort_bit small own

theorem setupPort_apart {members : BitVec 32} (apart : port ≠ other) :
    (setupPort chip priv port members).registers (destRegister chip other) =
      priv.registers (destRegister chip other) := by
  have ctrl : destRegister chip other ≠ regPortCtrl port := by
    cases chip <;> simp only [destRegister, regPortCtrl, regPortVlan, regPortVlan2, portOffset] <;>
      omega
  have vlanReg : destRegister chip other ≠ regPortVlan port := by
    cases chip <;> simp only [destRegister, regPortVlan, regPortVlan2, portOffset] <;> omega
  have vlanReg2 : destRegister chip other ≠ regPortVlan2 port := by
    cases chip <;> simp only [destRegister, regPortVlan, regPortVlan2, portOffset] <;> omega
  cases chip with
  | ar8229 =>
      exact ((rmw_apart vlanReg2).trans (rmw_apart vlanReg)).trans (rmw_apart ctrl)
  | ar8236 =>
      exact ((rmw_apart vlanReg2).trans (rmw_apart vlanReg)).trans (rmw_apart ctrl)
  | ar7240sw => exact (rmw_apart vlanReg).trans (rmw_apart ctrl)
  | ar8216 => exact (rmw_apart vlanReg).trans (rmw_apart ctrl)
  | ar8316 => exact (rmw_apart vlanReg).trans (rmw_apart ctrl)

/-- The loop over the ports programs each port that it comes to. -/
theorem setupPorts_bit {portmask : Nat → BitVec 8} {count : Nat} (few : count ≤ chip.ports)
    (own : port < chip.ports) (inside : other < chip.ports) (reached : port < count) :
    (((List.range count).foldl (fun priv i => setupPort chip priv i ((portmask i).setWidth 32))
      priv).registers (destRegister chip port)).getLsbD (16 + other) =
        (portmask port).getLsbD other := by
  induction count with
  | zero => omega
  | succ count ih =>
      rw [List.range_succ, List.foldl_append, List.foldl_cons, List.foldl_nil]
      by_cases last : port = count
      · subst last
        exact setupPort_bit inside own
      · rw [setupPort_apart (Ne.symm last)]
        exact ih (by omega) (by omega)

/-! ## Isolation -/

theorem hwApply_bit (ready : priv.init = false) (own : port < chip.ports)
    (inside : other < chip.ports) :
    ((ar8xxxSwHwApply chip priv).registers (destRegister chip port)).getLsbD (16 + other) = true ↔
      Reaches chip priv port other := by
  rw [← loadVlans_bit own, ar8xxxSwHwApply, ready]
  simp only [Bool.false_eq_true, if_false]
  rw [setupPorts_bit (Nat.le_refl _) own inside own]

theorem setPorts_init (ports : List SwitchPort) :
    (ports.foldl (setPort chip portVlan) priv).init = priv.init := by
  induction ports generalizing priv with
  | nil => rfl
  | cons p ports ih =>
      refine ih.trans ?_
      cases tagged : p.tagged <;> simp [setPort, tagged]

theorem run_init (start : Priv) (ops : List (SwOp chip)) :
    (run chip start ops).init = start.init := by
  induction ops generalizing start with
  | nil => rfl
  | cons op ops ih =>
      refine (ih (perform chip start op)).trans ?_
      cases op with
      | setPorts portVlan ports => exact setPorts_init (ports.map switchPort)
      | setPvid port vlan => rfl
      | setVid portVlan value => rfl
      | setVlan value => rfl

/-- The destination mask is the set of the other ports that share a VLAN with the port, and an
untagged port is in one VLAN at most. -/
theorem run_isolates (chip : Chip) (start : Priv) (started : start.init = false)
    (ops : List (SwOp chip)) :
    let priv := run chip start ops
    let programmed := ar8xxxSwHwApply chip priv
    (∀ port < chip.ports, ∀ other < chip.ports,
      (programmed.registers (destRegister chip port)).getLsbD (16 + other) = true ↔
        other ≠ port ∧ ∃ vlan < chip.vlans, priv.Member vlan port ∧ priv.Member vlan other) ∧
    (∀ port < chip.ports, ∀ other < chip.ports,
      (programmed.registers (destRegister chip port)).getLsbD (16 + other) =
        (programmed.registers (destRegister chip other)).getLsbD (16 + port)) ∧
    ∀ port, lastConfigured port ops = some false → Lone chip priv port := by
  intro priv programmed
  have ready : priv.init = false := (run_init start ops).trans started
  refine ⟨?_, ?_, ?_⟩
  · intro port own other inside
    exact hwApply_bit ready own inside
  · intro port own other inside
    rw [Bool.eq_iff_iff]
    exact (hwApply_bit ready own inside).trans
      (reaches_comm.trans (hwApply_bit ready inside own).symm)
  · intro port last
    exact run_lone start ops last

/-- Two VLANs of one port each and the CPU port, tagged. -/
theorem run_isolates_two :
    (ar8xxxStart .ar8216 ⟨false, false, fun _ => 0, fun _ => 0, 0, fun _ => 0, fun _ => 0, []⟩).init =
        false ∧
      Lone .ar8216 (run .ar8216
        (ar8xxxStart .ar8216
          ⟨false, false, fun _ => 0, fun _ => 0, 0, fun _ => 0, fun _ => 0, []⟩)
        [.setPorts 1 [(0, true), (1, false)], .setPorts 2 [(0, true), (2, false)],
          .setVlan true]) 2 :=
  ⟨rfl, (run_isolates .ar8216 _ rfl _).2.2 2 (by decide)⟩

end Rut9xx.Switch
