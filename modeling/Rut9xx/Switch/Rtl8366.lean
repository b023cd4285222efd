import Rut9xx.Data.BitField
import Rut9xx.Switch.Ar8216

namespace Rut9xx.Switch.Rtl8366

open Data

/-- The chips that use the `rtl8366_smi` operations. -/
inductive Chip where
  | rtl8366s
  | rtl8366rb
  | rtl8367
  | rtl8367b
  deriving DecidableEq

inductive Errno where
  | einval
  | enospc
  deriving DecidableEq

/-- `rtl8366_vlan_mc` -/
structure VlanMc where
  vid : Nat
  untag : Nat
  member : Nat
  fid : Nat
  priority : Nat
  deriving DecidableEq

/-- `rtl8366_vlan_4k` -/
structure Vlan4k where
  vid : Nat
  untag : Nat
  member : Nat
  fid : Nat
  deriving DecidableEq

namespace Chip

def numPorts : Chip → Nat
  | rtl8366s | rtl8366rb => 6
  | rtl8367 => 10
  | rtl8367b => 8

/-- `NUM_VLANS`, also `num_vlan_mc` -/
def numVlans : Chip → Nat
  | rtl8366s | rtl8366rb => 16
  | rtl8367 | rtl8367b => 32

/-- The bits of `VLAN_MEMBER_MASK` and of `VLAN_UNTAG_MASK`. -/
def portBits : Chip → Nat
  | rtl8366s => 6
  | rtl8366rb | rtl8367b => 8
  | rtl8367 => 16

/-- The bits of the port's field in `PORT_VLAN_CTRL`. -/
def mcIndexBits : Chip → Nat
  | rtl8366s | rtl8366rb => 4
  | rtl8367 | rtl8367b => 5

end Chip

def numVids : Nat := 4096
def priorityMax : Nat := 7
def fidMax : Nat := 7

/-! ## The registers of an entry -/

/-- The words of an entry, 16 bits each. -/
abbrev Words := List Nat

def word (data : Words) (i : Nat) : Nat := data.getD i 0

def writeRegs (data : Words) : Words := data.map (· % 2 ^ 16)

def encodeMc (chip : Chip) (vlanmc : VlanMc) : Words :=
  match chip with
  | .rtl8366s =>
      [putField 0 12 vlanmc.vid ||| putField 12 3 vlanmc.priority,
        putField 0 6 vlanmc.member ||| putField 6 6 vlanmc.untag ||| putField 12 3 vlanmc.fid]
  | .rtl8366rb =>
      [putField 0 12 vlanmc.vid ||| putField 12 3 vlanmc.priority,
        putField 0 8 vlanmc.member ||| putField 8 8 vlanmc.untag, putField 0 3 vlanmc.fid]
  | .rtl8367 => [putField 0 16 vlanmc.member, putField 0 12 vlanmc.fid, 0, putField 0 16 vlanmc.vid]
  | .rtl8367b => [putField 0 8 vlanmc.member, putField 0 4 vlanmc.fid, 0, putField 0 14 vlanmc.vid]

def decodeMc (chip : Chip) (data : Words) : VlanMc :=
  match chip with
  | .rtl8366s =>
      { vid := getField 0 12 (word data 0), priority := getField 12 3 (word data 0),
        untag := getField 6 6 (word data 1), member := getField 0 6 (word data 1),
        fid := getField 12 3 (word data 1) }
  | .rtl8366rb =>
      { vid := getField 0 12 (word data 0), priority := getField 12 3 (word data 0),
        untag := getField 8 8 (word data 1), member := getField 0 8 (word data 1),
        fid := getField 0 3 (word data 2) }
  -- `memset` leaves the untag mask and the priority zero, `fid` is a byte
  | .rtl8367 =>
      { vid := getField 0 16 (word data 3), priority := 0, untag := 0,
        member := getField 0 16 (word data 0), fid := getField 0 12 (word data 1) % 2 ^ 8 }
  | .rtl8367b =>
      { vid := getField 0 14 (word data 3), priority := 0, untag := 0,
        member := getField 0 8 (word data 0), fid := getField 0 4 (word data 1) }

def encode4k (chip : Chip) (vlan4k : Vlan4k) : Words :=
  match chip with
  | .rtl8366s =>
      [putField 0 12 vlan4k.vid,
        putField 0 6 vlan4k.member ||| putField 6 6 vlan4k.untag ||| putField 12 3 vlan4k.fid]
  | .rtl8366rb =>
      [putField 0 12 vlan4k.vid, putField 0 8 vlan4k.member ||| putField 8 8 vlan4k.untag,
        putField 0 3 vlan4k.fid]
  -- the untag mask is split: its two low bits are the high bits of the third word
  | .rtl8367 =>
      [putField 0 16 vlan4k.member, putField 0 12 vlan4k.fid, putField 14 2 vlan4k.untag,
        putField 0 14 (vlan4k.untag >>> 2)]
  | .rtl8367b => [putField 0 8 vlan4k.member ||| putField 8 8 vlan4k.untag, putField 0 4 vlan4k.fid]

def decode4k (chip : Chip) (vid : Nat) (data : Words) : Vlan4k :=
  match chip with
  | .rtl8366s =>
      { vid := vid, untag := getField 6 6 (word data 1), member := getField 0 6 (word data 1),
        fid := getField 12 3 (word data 1) }
  | .rtl8366rb =>
      { vid := vid, untag := getField 8 8 (word data 1), member := getField 0 8 (word data 1),
        fid := getField 0 3 (word data 2) }
  | .rtl8367 =>
      { vid := vid, untag := getField 14 2 (word data 2) ||| getField 0 14 (word data 3) <<< 2,
        member := getField 0 16 (word data 0), fid := getField 0 12 (word data 1) % 2 ^ 8 }
  | .rtl8367b =>
      { vid := vid, untag := getField 8 8 (word data 0), member := getField 0 8 (word data 0),
        fid := getField 0 4 (word data 1) }

/-- `rtl8366_smi`, with the tables and registers of the switch behind it. -/
structure Smi where
  vlanEnabled : Bool
  vlan4kEnabled : Bool
  mcRegs : Nat → Words
  vlanTable : Nat → Words
  pvidCtrl : Nat → Nat

/-! ## `rtl8366_smi_ops` -/

variable (chip : Chip) (smi : Smi)

def getVlan4k (vid : Nat) : Except Errno Vlan4k :=
  if numVids ≤ vid then .error .einval else .ok (decode4k chip vid (smi.vlanTable vid))

def setVlan4k (vlan4k : Vlan4k) : Except Errno Smi :=
  if numVids ≤ vlan4k.vid ∨ 2 ^ chip.portBits - 1 < vlan4k.member ∨
      2 ^ chip.portBits - 1 < vlan4k.untag ∨ fidMax < vlan4k.fid then .error .einval
  else .ok { smi with
    vlanTable := Function.update smi.vlanTable vlan4k.vid (writeRegs (encode4k chip vlan4k)) }

def getVlanMc (index : Nat) : Except Errno VlanMc :=
  if chip.numVlans ≤ index then .error .einval else .ok (decodeMc chip (smi.mcRegs index))

def setVlanMc (index : Nat) (vlanmc : VlanMc) : Except Errno Smi :=
  if chip.numVlans ≤ index ∨ numVids ≤ vlanmc.vid ∨ priorityMax < vlanmc.priority ∨
      2 ^ chip.portBits - 1 < vlanmc.member ∨ 2 ^ chip.portBits - 1 < vlanmc.untag ∨
      fidMax < vlanmc.fid then .error .einval
  else .ok { smi with mcRegs := Function.update smi.mcRegs index (writeRegs (encodeMc chip vlanmc)) }

def getMcIndex (port : Nat) : Except Errno Nat :=
  if chip.numPorts ≤ port then .error .einval
  else .ok (getField 0 chip.mcIndexBits (smi.pvidCtrl port))

def setMcIndex (port index : Nat) : Except Errno Smi :=
  if chip.numPorts ≤ port ∨ chip.numVlans ≤ index then .error .einval
  else .ok { smi with pvidCtrl := Function.update smi.pvidCtrl port (putField 0 chip.mcIndexBits index) }

def isVlanValid (vlan : Nat) : Bool :=
  let max := if smi.vlan4kEnabled then numVids - 1 else chip.numVlans
  !(vlan == 0 || decide (max ≤ vlan))

/-! ## The operations on both tables -/

/-- What an operation returns, and the switch as it leaves it. -/
abbrev Outcome := Except Errno Unit × Smi

/-- The loops over the MC entries: the first entry that is wanted, and what `vlanmc` holds behind
the loop. -/
def findMc (wanted : VlanMc → Bool) : List Nat → VlanMc → Except Errno (Option Nat × VlanMc)
  | [], vlanmc => .ok (none, vlanmc)
  | i :: rest, _ =>
      match getVlanMc chip smi i with
      | .error e => .error e
      | .ok vlanmc => if wanted vlanmc then .ok (some i, vlanmc) else findMc wanted rest vlanmc

def mcIsUsed (mcIndex : Nat) : List Nat → Except Errno Bool
  | [] => .ok false
  | i :: rest =>
      match getMcIndex chip smi i with
      | .error e => .error e
      | .ok index => if mcIndex = index then .ok true else mcIsUsed mcIndex rest

def findUnused : List Nat → Except Errno (Option Nat)
  | [] => .ok none
  | i :: rest =>
      match mcIsUsed chip smi i (List.range chip.numPorts) with
      | .error e => .error e
      | .ok used => if used then findUnused rest else .ok (some i)

def emptyMc : VlanMc := { vid := 0, untag := 0, member := 0, fid := 0, priority := 0 }

def setVlan (vid member untag fid : Nat) : Outcome :=
  match getVlan4k chip smi vid with
  | .error e => (.error e, smi)
  | .ok vlan4k =>
      match setVlan4k chip smi
        { vlan4k with member := member % 2 ^ 16, untag := untag % 2 ^ 16, fid := fid % 2 ^ 8 } with
      | .error e => (.error e, smi)
      | .ok smi =>
          match findMc chip smi (fun vlanmc => vid == vlanmc.vid) (List.range chip.numVlans) emptyMc with
          | .error e => (.error e, smi)
          | .ok (none, _) => (.ok (), smi)
          | .ok (some i, vlanmc) =>
              match setVlanMc chip smi i
                { vlanmc with member := member % 2 ^ 16, untag := untag % 2 ^ 16, fid := fid % 2 ^ 8 } with
              | .error e => (.error e, smi)
              | .ok smi => (.ok (), smi)

def getPvid (port : Nat) : Except Errno Nat :=
  match getMcIndex chip smi port with
  | .error e => .error e
  | .ok index =>
      match getVlanMc chip smi index with
      | .error e => .error e
      | .ok vlanmc => .ok vlanmc.vid

/-- The entry is written and the port pointed to it. -/
def assignMc (port i : Nat) (vlanmc : VlanMc) : Outcome :=
  match setVlanMc chip smi i vlanmc with
  | .error e => (.error e, smi)
  | .ok smi =>
      match setMcIndex chip smi port i with
      | .error e => (.error e, smi)
      | .ok smi => (.ok (), smi)

/-- The entry is updated from the 4K table. -/
def fillMc (port vid i : Nat) (vlanmc : VlanMc) : Outcome :=
  match getVlan4k chip smi vid with
  | .error e => (.error e, smi)
  | .ok vlan4k =>
      assignMc chip smi port i
        { vlanmc with
          vid := vid % 2 ^ 16, member := vlan4k.member, untag := vlan4k.untag, fid := vlan4k.fid }

def setPvid (port vid : Nat) : Outcome :=
  let entries := List.range chip.numVlans
  -- an existing entry for this VID
  match findMc chip smi (fun vlanmc => vid == vlanmc.vid) entries emptyMc with
  | .error e => (.error e, smi)
  | .ok (some i, vlanmc) => assignMc chip smi port i vlanmc
  | .ok (none, vlanmc) =>
      -- an empty one
      match findMc chip smi (fun vlanmc => vlanmc.vid == 0 && vlanmc.member == 0) entries vlanmc with
      | .error e => (.error e, smi)
      | .ok (some i, vlanmc) => fillMc chip smi port vid i vlanmc
      | .ok (none, vlanmc) =>
          -- one that no port uses, over the priority of the entry read last
          match findUnused chip smi entries with
          | .error e => (.error e, smi)
          | .ok (some i) => fillMc chip smi port vid i vlanmc
          | .ok none => (.error .enospc, smi)

def enableVlan (enable : Bool) : Smi :=
  if enable then { smi with vlanEnabled := true }
  else { smi with vlanEnabled := false, vlan4kEnabled := false }

def enableVlan4k (enable : Bool) : Smi :=
  { smi with vlanEnabled := smi.vlanEnabled || enable, vlan4kEnabled := enable }

def clearMc (smi : Smi) : List Nat → Outcome
  | [] => (.ok (), smi)
  | i :: rest =>
      match setVlanMc chip smi i emptyMc with
      | .error e => (.error e, smi)
      | .ok smi => clearMc smi rest

def resetVlan : Outcome :=
  clearMc chip (enableVlan4k (enableVlan smi false) false) (List.range chip.numVlans)

/-! ## The switch interface -/

/-- The loop of `rtl8366_sw_set_vlan_ports` over the ports. -/
def swSetPorts (vlan : Nat) : List SwitchPort → Nat → Nat → Smi → Except Errno (Nat × Nat) × Smi
  | [], member, untag, smi => (.ok (member, untag), smi)
  | port :: rest, member, untag, smi =>
      let member := member ||| 1 <<< port.id
      let untag := if port.tagged then untag else untag ||| 1 <<< port.id
      match getPvid chip smi port.id with
      | .error e => (.error e, smi)
      | .ok pvid =>
          if pvid = 0 then
            match setPvid chip smi port.id vlan with
            | (.error e, smi) => (.error e, smi)
            | (.ok (), smi) => swSetPorts vlan rest member untag smi
          else swSetPorts vlan rest member untag smi

def swSetVlanPorts (vlan : Nat) (ports : List SwitchPort) : Outcome :=
  if isVlanValid chip smi vlan then
    match swSetPorts chip vlan ports 0 0 smi with
    | (.error e, smi) => (.error e, smi)
    | (.ok (member, untag), smi) => setVlan chip smi vlan member untag 0
  else (.error .einval, smi)

def swSetVlanFid (vlan : Nat) (value : Int) : Outcome :=
  if isVlanValid chip smi vlan then
    if value < 0 ∨ fidMax < value then (.error .einval, smi)
    else
      match getVlan4k chip smi vlan with
      | .error e => (.error e, smi)
      | .ok vlan4k => setVlan chip smi vlan vlan4k.member vlan4k.untag value.toNat
  else (.error .einval, smi)

def swSetPortPvid (port vid : Nat) : Outcome := setPvid chip smi port vid

end Rut9xx.Switch.Rtl8366
