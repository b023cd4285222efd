import Rut9xx.Switch.Ar8327

namespace Rut9xx.Switch.Swconfig

open Data

/-! # Port lists through the generic layer (`swconfig.c`) -/

inductive Errno where
  | einval
  | eopnotsupp
  deriving DecidableEq

/-- What an operation returns, and the switch as it leaves it. -/
abbrev Outcome (σ : Type) := Except Errno Unit × σ

/-- `switch_dev` with the operations of its driver that a port list goes through. -/
structure SwitchDev (σ : Type) where
  ports : Nat
  vlans : Nat
  setVlanPorts : Option (σ → Nat → List SwitchPort → Outcome σ)
  setPortPvid : Option (σ → Nat → Nat → Outcome σ)

section

variable {σ : Type} (dev : SwitchDev σ)

/-- The loop over the ports; what `set_port_pvid` returns is not looked at. -/
def setPvids (portVlan : Nat) : List SwitchPort → σ → Outcome σ
  | [], state => (.ok (), state)
  | p :: rest, state =>
      if dev.ports ≤ p.id then (.error .einval, state)
      else
        match dev.setPortPvid with
        | none => setPvids portVlan rest state
        | some setPortPvid =>
            setPvids portVlan rest (if p.tagged then state else (setPortPvid state p.id portVlan).2)

/-- `swconfig_set_vlan_ports` -/
def setVlanPorts (state : σ) (portVlan : Nat) (ports : List SwitchPort) : Outcome σ :=
  if dev.vlans ≤ portVlan then (.error .einval, state)
  else if dev.ports < ports.length then (.error .einval, state)
  else
    match dev.setVlanPorts with
    | none => (.error .eopnotsupp, state)
    | some setVlanPorts =>
        match setPvids dev portVlan ports state with
        | (.error e, state) => (.error e, state)
        | (.ok (), state) => setVlanPorts state portVlan ports

end

/-! ## The drivers of `ar8216.c` and `ar8327.c` -/

inductive Driver where
  | ar8xxx (chip : Chip) (port4Phy : Bool)
  | ar8327
  deriving DecidableEq

namespace Driver

/-- A separate PHY on port 4 takes a port from an AR8316. -/
def ports : Driver → Nat
  | ar8xxx chip port4Phy => if chip = .ar8316 ∧ port4Phy then chip.ports - 1 else chip.ports
  | ar8327 => Ar8327.numPorts

def vlans : Driver → Nat
  | ar8xxx chip _ => chip.vlans
  | ar8327 => Ar8327.maxVlans

/-- `ar8xxx_sw_set_pvid` -/
def swSetPvid (driver : Driver) (priv : Priv) (port vlan : Nat) : Outcome Priv :=
  if driver.vlans ≤ vlan ∨ Ar8327.maxPorts ≤ port then (.error .einval, priv)
  else (.ok (), ar8xxxSwSetPvid priv port vlan)

def swSetPorts (driver : Driver) (priv : Priv) (portVlan : Nat) (ports : List SwitchPort) :
    Outcome Priv :=
  match driver with
  | ar8xxx chip _ => (.ok (), ar8xxxSwSetPorts chip priv portVlan ports)
  | ar8327 => (.ok (), Ar8327.swSetPorts priv portVlan ports)

def dev (driver : Driver) : SwitchDev Priv where
  ports := driver.ports
  vlans := driver.vlans
  setVlanPorts := some driver.swSetPorts
  setPortPvid := some driver.swSetPvid

end Driver

/-! ## Requests that fail -/

variable {driver : Driver} {priv : Priv} {portVlan port : Nat} {ports : List SwitchPort}

/-- The ports that are looked at before one that the switch does not have. -/
def leading (driver : Driver) (ports : List SwitchPort) : List SwitchPort :=
  ports.takeWhile fun p => decide (p.id < driver.ports)

/-- A request that returns an error has changed neither a port's default VLAN nor the members and
tags of a VLAN. -/
def Atomic (driver : Driver) (priv : Priv) (portVlan : Nat) (ports : List SwitchPort) : Prop :=
  ∀ e, (setVlanPorts driver.dev priv portVlan ports).1 = .error e →
    (setVlanPorts driver.dev priv portVlan ports).2.pvid = priv.pvid ∧
      (setVlanPorts driver.dev priv portVlan ports).2.vlanTable = priv.vlanTable ∧
      (setVlanPorts driver.dev priv portVlan ports).2.vlanTagged = priv.vlanTagged

/-- Where the request gets to the ports and one of them does not exist, the untagged ports in front
of it have the VLAN as their default already. -/
def NothingToUndo (driver : Driver) (priv : Priv) (portVlan : Nat) (ports : List SwitchPort) :
    Prop :=
  portVlan < driver.vlans → ports.length ≤ driver.ports →
    (∃ p ∈ ports, driver.ports ≤ p.id) →
    ∀ p ∈ leading driver ports, p.tagged = false → priv.pvid p.id = portVlan

theorem ports_lt (driver : Driver) : driver.ports < Ar8327.maxPorts := by
  cases driver with
  | ar8xxx chip port4Phy =>
      rw [Driver.ports]
      cases chip <;> cases port4Phy <;> decide
  | ar8327 => decide

theorem leading_cons {p : SwitchPort} (inside : p.id < driver.ports) :
    leading driver (p :: ports) = p :: leading driver ports := by
  rw [leading, List.takeWhile_cons, if_pos (decide_eq_true inside), leading]

/-- The loop changes the default VLAN of the untagged ports that it passes. -/
theorem setPvids_spec (bound : portVlan < driver.vlans) :
    ∃ pvid : Nat → Nat,
      setPvids driver.dev portVlan ports priv =
        (if ∃ p ∈ ports, driver.ports ≤ p.id then .error .einval else .ok (),
          { priv with pvid := pvid }) ∧
      ∀ port, pvid port =
        if ∃ p ∈ leading driver ports, p.tagged = false ∧ p.id = port then portVlan
        else priv.pvid port := by
  induction ports generalizing priv with
  | nil => exact ⟨priv.pvid, by simp [setPvids], by simp [leading]⟩
  | cons p rest ih =>
      have fields : driver.dev.ports = driver.ports ∧
          driver.dev.setPortPvid = some driver.swSetPvid := ⟨rfl, rfl⟩
      rw [setPvids, fields.1, fields.2]
      by_cases inside : p.id < driver.ports
      · have passed : ¬(driver.vlans ≤ portVlan ∨ Ar8327.maxPorts ≤ p.id) := by
          have := ports_lt driver
          omega
        obtain ⟨first, step, here⟩ : ∃ first : Nat → Nat,
            (if p.tagged then priv else (driver.swSetPvid priv p.id portVlan).2) =
              { priv with pvid := first } ∧
            ∀ port, first port =
              if p.tagged = false ∧ p.id = port then portVlan else priv.pvid port := by
          rw [Driver.swSetPvid, if_neg passed]
          cases p.tagged with
          | true => exact ⟨priv.pvid, rfl, fun port => by simp⟩
          | false =>
              refine ⟨Function.update priv.pvid p.id portVlan, rfl, fun port => ?_⟩
              by_cases same : port = p.id
              · simp [same]
              · simp [Function.update_of_ne same, Ne.symm same]
        obtain ⟨pvid, rest', values⟩ := @ih { priv with pvid := first }
        rw [if_neg (Nat.not_le_of_lt inside)]
        dsimp only
        rw [step, rest']
        refine ⟨pvid, ?_, ?_⟩
        · simp [Nat.not_le_of_lt inside]
        · intro port
          rw [values, leading_cons inside]
          simp only [here]
          simp only [List.mem_cons, or_and_right, exists_or, exists_eq_left]
          by_cases own : p.tagged = false ∧ p.id = port
          · simp [own]
          · simp [own]
      · rw [if_pos (Nat.le_of_not_lt inside)]
        refine ⟨priv.pvid, ?_, ?_⟩
        · rw [if_pos ⟨p, List.mem_cons_self, Nat.le_of_not_lt inside⟩]
        · intro port
          have none' : leading driver (p :: rest) = [] := by
            rw [leading, List.takeWhile_cons, decide_eq_false inside]
            rfl
          rw [none']
          simp

/-- A port list is refused as a whole exactly when it has nothing to undo. -/
theorem setVlanPorts_atomic_iff (driver : Driver) (priv : Priv) (portVlan : Nat)
    (ports : List SwitchPort) :
    Atomic driver priv portVlan ports ↔ NothingToUndo driver priv portVlan ports := by
  have fields : driver.dev.ports = driver.ports ∧ driver.dev.vlans = driver.vlans ∧
      driver.dev.setVlanPorts = some driver.swSetPorts := ⟨rfl, rfl, rfl⟩
  rw [Atomic, NothingToUndo, setVlanPorts, fields.1, fields.2.1, fields.2.2]
  by_cases bound : portVlan < driver.vlans
  · rw [if_neg (Nat.not_le_of_lt bound)]
    by_cases few : ports.length ≤ driver.ports
    · rw [if_neg (Nat.not_lt_of_le few)]
      obtain ⟨pvid, loop, values⟩ := @setPvids_spec driver priv portVlan ports bound
      dsimp only
      rw [loop]
      by_cases missing : ∃ p ∈ ports, driver.ports ≤ p.id
      · rw [if_pos missing]
        dsimp only
        constructor
        · intro atomic _ _ _ p listed untagged
          have kept := congrFun (atomic .einval rfl).1 p.id
          rw [values, if_pos ⟨p, listed, untagged, rfl⟩] at kept
          exact kept.symm
        · intro nothing _ _
          refine ⟨funext fun port => ?_, rfl, rfl⟩
          rw [values]
          by_cases passed : ∃ p ∈ leading driver ports, p.tagged = false ∧ p.id = port
          · obtain ⟨p, listed, untagged, same⟩ := passed
            rw [if_pos ⟨p, listed, untagged, same⟩, ← same]
            exact (nothing bound few missing p listed untagged).symm
          · rw [if_neg passed]
      · -- the drivers take every list
        rw [if_neg missing]
        dsimp only
        constructor
        · exact fun _ _ _ found => absurd found missing
        · intro _ e refused
          cases driver <;> cases refused
    · rw [if_pos (Nat.lt_of_not_le few)]
      simp [few]
  · rw [if_pos (Nat.le_of_not_lt bound)]
    simp [bound]

def blankPriv : Priv where
  init := false
  vlan := false
  vlanId := fun _ => 0
  vlanTable := fun _ => 0
  vlanTagged := 0
  pvid := fun _ => 0
  registers := fun _ => 0
  vtu := []

/-- Port 2 untagged in VLAN 1, then a port that an AR8327 does not have. -/
theorem setVlanPorts_not_atomic : ¬ Atomic .ar8327 blankPriv 1 [⟨2, false⟩, ⟨7, false⟩] := by
  intro atomic
  have kept := congrFun (atomic .einval rfl).1 2
  cases kept

end Rut9xx.Switch.Swconfig
