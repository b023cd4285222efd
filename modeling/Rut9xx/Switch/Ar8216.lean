import Rut9xx.Data.BitField
import Mathlib.Algebra.Group.Nat.Defs

namespace Rut9xx.Switch

open Data

/-- The chips that `ar8xxx_sw_ops` serves. -/
inductive Chip where
  | ar7240sw
  | ar8216
  | ar8229
  | ar8236
  | ar8316
  deriving DecidableEq

namespace Chip

def ports : Chip → Nat
  | .ar7240sw => 5
  | _ => 6

def vlans : Chip → Nat
  | .ar8316 => 128
  | _ => 16

end Chip

/-- `ar8xxx_priv`. The registers are those of the ports, `vtu` is the VLAN translation unit. -/
structure Priv where
  init : Bool
  vlan : Bool
  vlanId : Nat → BitVec 16
  vlanTable : Nat → BitVec 8
  vlanTagged : BitVec 8
  pvid : Nat → Nat
  registers : Nat → BitVec 32
  vtu : List (BitVec 16 × BitVec 8)

structure SwitchPort where
  id : Nat
  tagged : Bool

/-! ## The operations of the switch interface -/

def ar8xxxSwSetVlan (priv : Priv) (value : Bool) : Priv := { priv with vlan := value }

def ar8xxxSwSetPvid (priv : Priv) (port vlan : Nat) : Priv :=
  { priv with pvid := Function.update priv.pvid port vlan }

def ar8xxxSwSetVid (priv : Priv) (portVlan : Nat) (value : BitVec 16) : Priv :=
  { priv with vlanId := Function.update priv.vlanId portVlan value }

/-- The loop that takes an untagged port out of the other VLANs. -/
def removeFromOthers (vlans portVlan port : Nat) (table : Nat → BitVec 8) : Nat → BitVec 8 :=
  (List.range vlans).foldl (fun table j =>
    if j = portVlan then table else Function.update table j (table j &&& ~~~bit 8 port)) table

/-- One port of the list. -/
def setPort (chip : Chip) (portVlan : Nat) (priv : Priv) (p : SwitchPort) : Priv :=
  let priv :=
    if p.tagged then { priv with vlanTagged := priv.vlanTagged ||| bit 8 p.id }
    else { priv with
      vlanTagged := priv.vlanTagged &&& ~~~bit 8 p.id
      pvid := Function.update priv.pvid p.id portVlan
      vlanTable := removeFromOthers chip.vlans portVlan p.id priv.vlanTable }
  { priv with
    vlanTable := Function.update priv.vlanTable portVlan (priv.vlanTable portVlan ||| bit 8 p.id) }

def ar8xxxSwSetPorts (chip : Chip) (priv : Priv) (portVlan : Nat) (ports : List SwitchPort) : Priv :=
  ports.foldl (setPort chip portVlan)
    { priv with vlanTable := Function.update priv.vlanTable portVlan 0 }

/-! ## The registers of a port -/

def portOffset (port : Nat) : Nat := 0x100 * (port + 1)

def regPortCtrl (port : Nat) : Nat := portOffset port + 0x4

def regPortVlan (port : Nat) : Nat := portOffset port + 0x8

def regPortVlan2 (port : Nat) : Nat := portOffset port + 0xc

/-- `BITS(s, n)` -/
def bits (start count : Nat) : BitVec 32 := BitVec.ofNat 32 ((2 ^ count - 1) * 2 ^ start)

def Priv.rmw (priv : Priv) (reg : Nat) (mask value : BitVec 32) : Priv :=
  { priv with
    registers := Function.update priv.registers reg (Data.rmw (priv.registers reg) mask value) }

/-- The default VLAN, the egress mode and the ingress mode of a port. -/
def Priv.portMode (priv : Priv) (port : Nat) : BitVec 32 × BitVec 32 × BitVec 32 :=
  if priv.vlan then
    ((priv.vlanId (priv.pvid port)).setWidth 32, if priv.vlanTagged.getLsbD port then 2 else 1, 3)
  else (BitVec.ofNat 32 port, 0, 0)

/-- The part of `AR8216_REG_PORT_CTRL` that both ways to set up a port share. -/
def Priv.setupCtrl (priv : Priv) (port : Nat) (header egress : BitVec 32) : Priv :=
  priv.rmw (regPortCtrl port)
    (bit 32 14 ||| bits 8 2 ||| bit 32 13 ||| bits 0 3 ||| bit 32 11 ||| bit 32 7)
    (bit 32 14 ||| header ||| egress <<< 8 ||| 4 <<< 0)

/-- `__ar8216_setup_port` -/
def ar8216SetupPort (priv : Priv) (port : Nat) (members : BitVec 32) (athHdrEn : Bool) : Priv :=
  let (pvid, egress, ingress) := priv.portMode port
  (priv.setupCtrl port (if athHdrEn then bit 32 11 else 0) egress).rmw (regPortVlan port)
    (bits 16 9 ||| bits 30 2 ||| bits 0 12) (members <<< 16 ||| ingress <<< 30 ||| pvid <<< 0)

def ar8236SetupPort (priv : Priv) (port : Nat) (members : BitVec 32) : Priv :=
  let (pvid, egress, ingress) := priv.portMode port
  let priv := (priv.setupCtrl port 0 egress).rmw (regPortVlan port) (bits 16 12) (pvid <<< 16)
  priv.rmw (regPortVlan2 port) (bits 30 2 ||| bits 16 7) (ingress <<< 30 ||| members <<< 16)

/-- `chip->setup_port` -/
def setupPort (chip : Chip) (priv : Priv) (port : Nat) (members : BitVec 32) : Priv :=
  match chip with
  | .ar7240sw => ar8216SetupPort priv port members false
  | .ar8216 => ar8216SetupPort priv port members (priv.vlan && port = 0)
  | .ar8316 => ar8216SetupPort priv port members false
  | .ar8229 => ar8236SetupPort priv port members
  | .ar8236 => ar8236SetupPort priv port members

/-- The register whose bits from 16 on are the destination ports of a port. -/
def destRegister (chip : Chip) (port : Nat) : Nat :=
  match chip with
  | .ar8229 => regPortVlan2 port
  | .ar8236 => regPortVlan2 port
  | _ => regPortVlan port

/-! ## Taking over the configuration -/

/-- One VLAN's share of the destination masks. -/
def spreadMembers (ports : Nat) (vp : BitVec 8) (portmask : Nat → BitVec 8) : Nat → BitVec 8 :=
  (List.range ports).foldl (fun portmask i =>
    if vp &&& bit 8 i ≠ 0 then Function.update portmask i (portmask i ||| vp &&& ~~~bit 8 i)
    else portmask) portmask

/-- The masks and the VLANs for the VLAN translation unit, once `init` is over. -/
def loadVlans (chip : Chip) (priv : Priv) : (Nat → BitVec 8) × List (BitVec 16 × BitVec 8) :=
  (List.range chip.vlans).foldl (fun (portmask, vtu) j =>
    let vp := priv.vlanTable j
    if vp = 0 then (portmask, vtu)
    else (spreadMembers chip.ports vp portmask, vtu ++ [(priv.vlanId j, vp)])) (fun _ => 0, [])

/-- All ports isolated, but connected to the CPU port. -/
def isolatePorts (chip : Chip) : Nat → BitVec 8 :=
  (List.range chip.ports).foldl (fun portmask i =>
    if i = 0 then portmask
    else
      let portmask := Function.update portmask i (bit 8 0)
      Function.update portmask 0 (portmask 0 ||| bit 8 i)) (fun _ => 0)

def ar8xxxSwHwApply (chip : Chip) (priv : Priv) : Priv :=
  let (portmask, vtu) := if priv.init then (isolatePorts chip, []) else loadVlans chip priv
  (List.range chip.ports).foldl (fun priv i => setupPort chip priv i ((portmask i).setWidth 32))
    { priv with vtu := vtu }

/-- What `ar8xxx_sw_reset_switch` clears, with the VLAN numbers set to themselves. -/
def ar8xxxSwResetSwitch (chip : Chip) (priv : Priv) : Priv :=
  ar8xxxSwHwApply chip { priv with
    vlan := false
    vlanId := fun vlan => if vlan < chip.vlans then BitVec.ofNat 16 vlan else 0
    vlanTable := fun _ => 0
    vlanTagged := 0
    pvid := fun _ => 0 }

/-- `init` only lasts while the switch starts. -/
def ar8xxxStart (chip : Chip) (priv : Priv) : Priv :=
  { ar8xxxSwResetSwitch chip { priv with init := true } with init := false }

end Rut9xx.Switch
