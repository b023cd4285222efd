import Rut9xx.Data.BitField
import Rut9xx.Switch.Ar8216

namespace Rut9xx.Switch.Ar8327

open Data

/-! # The VLAN tags of an AR8327 -/

/-- `AR8327_NUM_PORTS` -/
def numPorts : Nat := 7

/-- `AR83X7_MAX_VLANS` -/
def maxVlans : Nat := 4096

/-- `AR8X16_MAX_PORTS` -/
def maxPorts : Nat := 8

/-! ## The VLAN translation unit -/

def egModeKeep : Nat := 0
def egModeUntag : Nat := 1
def egModeTag : Nat := 2
def egModeNot : Nat := 3

/-- `AR8327_VTU_FUNC0_EG_MODE_S` -/
def egModeShift (port : Nat) : Nat := 4 + port * 2

def egMode (priv : Priv) (vid : BitVec 16) (portMask : BitVec 8) (i : Nat) : Nat :=
  if portMask.getLsbD i = false then egModeNot
  else if priv.vlan = false then egModeKeep
  else if priv.vlanTagged.getLsbD i = true ∨ priv.vlanId (priv.pvid i) ≠ vid then egModeTag
  else egModeUntag

/-- `ar8327_vtu_load_vlan`: the words for `VTU_FUNC1` and `VTU_FUNC0`. -/
def vtuLoadVlan (priv : Priv) (vid : BitVec 16) (portMask : BitVec 8) : Nat × Nat :=
  (2 ||| vid.toNat <<< 16,
    (List.range numPorts).foldl (fun val i => val ||| egMode priv vid portMask i <<< egModeShift i)
      (2 ^ 20 ||| 2 ^ 19))

/-- The egress mode of a port in a word of `VTU_FUNC0`. -/
def writtenMode (val port : Nat) : Nat := getField (egModeShift port) 2 val

/-! ## The switch interface -/

def swGetPorts (priv : Priv) (portVlan : Nat) : List SwitchPort :=
  (List.range numPorts).filterMap fun i =>
    if (priv.vlanTable portVlan).getLsbD i = false then none
    else some
      { id := i
        tagged := priv.vlanTagged.getLsbD i || decide (priv.pvid i ≠ portVlan) }

/-- One port of the list. -/
def setPort (portVlan : Nat) (priv : Priv) (p : SwitchPort) : Priv :=
  let priv :=
    if p.tagged then
      if portVlan = priv.pvid p.id then { priv with vlanTagged := priv.vlanTagged ||| bit 8 p.id }
      else priv
    else { priv with
      vlanTagged := priv.vlanTagged &&& ~~~bit 8 p.id
      pvid := Function.update priv.pvid p.id portVlan }
  { priv with
    vlanTable := Function.update priv.vlanTable portVlan (priv.vlanTable portVlan ||| bit 8 p.id) }

def swSetPorts (priv : Priv) (portVlan : Nat) (ports : List SwitchPort) : Priv :=
  ports.foldl (setPort portVlan)
    { priv with vlanTable := Function.update priv.vlanTable portVlan 0 }

/-- `ar8xxx_sw_set_pvid`; it leaves the switch alone where it returns `-EINVAL`. -/
def swSetPvid (priv : Priv) (port vlan : Nat) : Priv :=
  if maxVlans ≤ vlan ∨ maxPorts ≤ port then priv else ar8xxxSwSetPvid priv port vlan

/-! ## Runs -/

/-- What is set from outside. The lists have been through `swconfig_set_vlan_ports`. -/
inductive TagOp where
  | setVlan (enable : Bool)
  | setVid (portVlan : Nat) (value : BitVec 16)
  | setPvid (port vlan : Nat)
  | setPorts (portVlan : Nat) (ports : List SwitchPort)

/-- `swconfig` checks the VLAN and the ports, and no port is listed twice. -/
def TagOp.Valid : TagOp → Prop
  | .setVlan _ => True
  | .setVid portVlan _ => portVlan < maxVlans
  | .setPvid port _ => port < numPorts
  | .setPorts portVlan ports =>
      portVlan < maxVlans ∧ (∀ p ∈ ports, p.id < numPorts) ∧ (ports.map (·.id)).Nodup

def TagOp.apply (priv : Priv) : TagOp → Priv
  | .setVlan enable => ar8xxxSwSetVlan priv enable
  | .setVid portVlan value => ar8xxxSwSetVid priv portVlan value
  | .setPvid port vlan => swSetPvid priv port vlan
  | .setPorts portVlan ports => swSetPorts priv portVlan ports

def runTagOps (priv : Priv) (ops : List TagOp) : Priv := ops.foldl TagOp.apply priv

/-- The VLAN state that `ar8xxx_sw_reset_switch` leaves. -/
def resetTags (priv : Priv) : Priv :=
  { priv with
    vlan := false
    vlanId := fun vlan => if vlan < maxVlans then BitVec.ofNat 16 vlan else 0
    vlanTable := fun _ => 0
    vlanTagged := 0
    pvid := fun _ => 0 }

end Rut9xx.Switch.Ar8327
