import Rut9xx.RouterBoot.Dynparts

namespace Rut9xx.RouterBoot

open Data

/-! # The partitions that `routerbootpart.c` registers -/

/-- A child node, with the properties that the parser reads. -/
structure Node where
  name : String
  label : Option String
  nameProp : Option String
  reg : Option (List UInt8)
  size : Option (List UInt8)
  readOnly : Bool
  lock : Bool
  deriving DecidableEq

def Node.partname (node : Node) : String := (node.label.or node.nameProp).getD node.name

/-- The node of the device; the cell counts are those of the children. -/
structure Description where
  aCells : Nat
  sCells : Nat
  nodes : List Node

structure MtdPartition where
  name : String
  offset : Nat
  size : Nat
  ofNode : Node
  maskFlags : UInt32
  deriving DecidableEq

def mtdWriteable : UInt32 := 0x400

def mtdPowerupLock : UInt32 := 0x2000

def Node.maskFlags (node : Node) : UInt32 :=
  (if node.readOnly then mtdWriteable else 0) ||| (if node.lock then mtdPowerupLock else 0)

/-- `of_read_number`, cut to a `size_t`. -/
def ofReadNumber (cells : List UInt8) (size : Nat) : UInt32 :=
  UInt32.ofNat ((List.range size).foldl (fun r cell =>
    (r * 2 ^ 32 + (be32At cells (4 * cell)).toNat) % 2 ^ 64) 0)

namespace Description

/-- The offset and the size that a node describes; `none` is a property of the
wrong length. -/
def bounds (tree : Description) (dynparts : List Dynpart) (masterOfs : UInt32) (pp : Node) :
    Option (UInt32 × UInt32) :=
  match pp.reg with
  | some reg =>
      if reg.length / 4 ≠ tree.aCells + tree.sCells then none
      else some (ofReadNumber reg tree.aCells,
        ofReadNumber (reg.drop (4 * tree.aCells)) tree.sCells)
  | none =>
      let (offset, size) :=
        match dynparts.find? fun part => pp.partname = part.name && part.found with
        | some part => (part.offset, part.size)
        | none => (masterOfs, 0)
      match pp.size with
      | none => some (offset, size)
      | some sz =>
          if sz.length / 4 ≠ tree.sCells then none else some (offset, ofReadNumber sz tree.sCells)

end Description

/-- `ALIGN(end, RB_BLOCK_SIZE)` -/
def alignUp (stop : UInt32) : UInt32 := alignDown (stop + (rbBlockSize - 1))

/-- The partition before the current one is the first of `parts`. -/
def overlaps (offset : UInt32) : List MtdPartition → Bool
  | [] => false
  | prev :: _ => offset.toNat < prev.offset + prev.size

def fixupEnd (offset : UInt32) : List MtdPartition → List MtdPartition
  | [] => []
  | prev :: done =>
      (if prev.size = 0 then { prev with size := offset.toNat - prev.offset } else prev) :: done

/-- The loop over the nodes, with the partitions so far in `parts`, the latest
first; `none` is `-EINVAL`. -/
def Description.parseNodes (tree : Description) (master : Master) (dynparts : List Dynpart) :
    UInt32 → List MtdPartition → List Node → Option (List MtdPartition)
  | _, parts, [] => some parts.reverse
  | masterOfs, parts, pp :: rest =>
      match tree.bounds dynparts masterOfs pp with
      | none => none
      | some (offset, size) =>
          if overlaps offset parts then none
          else if master.size < (offset + size).toNat then none
          else tree.parseNodes master dynparts (alignUp (offset + size))
            (⟨pp.partname, offset.toNat, size.toNat, pp, pp.maskFlags⟩ :: fixupEnd offset parts) rest

/-- `routerboot_partitions_parse`, with `rb_dynparts` as the last device left
it. The outer `none` is a scan of the flash that has not ended. -/
def routerbootPartitionsParse (master : Master) (fuel : Nat) (rbpartNode : Option Description)
    (dynparts : List Dynpart) : Option (List Dynpart × Option (List MtdPartition)) :=
  match rbpartNode with
  | none => some (dynparts, some [])
  | some tree =>
      if tree.nodes = [] then some (dynparts, some [])
      else (findDynparts master fuel 0 dynparts).map fun dynparts =>
        (dynparts, tree.parseNodes master dynparts 0 [] tree.nodes)

/-! ## What is accepted -/

variable {tree : Description} {master : Master} {dynparts : List Dynpart} {masterOfs : UInt32}
  {nodes : List Node} {parts accepted : List MtdPartition}

/-- Partitions in reverse order, each behind the next one of the list. -/
def Stacked : List MtdPartition → Prop :=
  List.Pairwise fun later earlier => earlier.offset + earlier.size ≤ later.offset

theorem fixupEnd_stacked {offset : UInt32} (stacked : Stacked parts)
    (free : overlaps offset parts = false) :
    Stacked (fixupEnd offset parts) ∧
      ∀ part ∈ fixupEnd offset parts, part.offset + part.size ≤ offset.toNat := by
  cases parts with
  | nil => exact ⟨List.Pairwise.nil, fun part member => by cases member⟩
  | cons prev done =>
      obtain ⟨behind, tail⟩ := List.pairwise_cons.mp stacked
      have before : prev.offset + prev.size ≤ offset.toNat := by
        simpa [overlaps] using free
      generalize hfixed : (if prev.size = 0 then { prev with size := offset.toNat - prev.offset }
        else prev) = fixed
      have same : fixed.offset = prev.offset := by
        rw [← hfixed]
        split <;> rfl
      have ends : fixed.offset + fixed.size ≤ offset.toNat := by
        rw [← hfixed]
        split
        · show prev.offset + (offset.toNat - prev.offset) ≤ offset.toNat
          omega
        · exact before
      rw [fixupEnd, hfixed]
      constructor
      · apply List.Pairwise.cons _ tail
        intro earlier member
        exact same ▸ behind earlier member
      · intro part member
        cases member with
        | head => exact ends
        | tail _ member =>
            have := behind part member
            omega

/-- What it takes to go past a node. -/
theorem parseNodes_cons {pp : Node}
    (parsed : tree.parseNodes master dynparts masterOfs parts (pp :: nodes) = some accepted) :
    ∃ offset size, tree.bounds dynparts masterOfs pp = some (offset, size) ∧
      overlaps offset parts = false ∧ (offset + size).toNat ≤ master.size ∧
      tree.parseNodes master dynparts (alignUp (offset + size))
        (⟨pp.partname, offset.toNat, size.toNat, pp, pp.maskFlags⟩ :: fixupEnd offset parts) nodes =
          some accepted := by
  rw [Description.parseNodes] at parsed
  split at parsed
  · cases parsed
  · rename_i offset size described
    split at parsed
    · cases parsed
    · rename_i free
      split at parsed
      · cases parsed
      · rename_i inside
        exact ⟨offset, size, described, Bool.eq_false_iff.mpr free, Nat.le_of_not_lt inside, parsed⟩

/-- The bounds of the last node, with the offset that the nodes before it leave. -/
def Description.lastBounds (tree : Description) (dynparts : List Dynpart) :
    UInt32 → List Node → Option (UInt32 × UInt32)
  | _, [] => none
  | masterOfs, [pp] => tree.bounds dynparts masterOfs pp
  | masterOfs, pp :: next :: rest =>
      match tree.bounds dynparts masterOfs pp with
      | none => none
      | some (offset, size) => tree.lastBounds dynparts (alignUp (offset + size)) (next :: rest)

/-- The partitions are always in order, and the check against the end of the
device has been made, in 32 bits, for the last of them. -/
theorem parseNodes_accepts {pp : Node} (stacked : Stacked parts)
    (parsed : tree.parseNodes master dynparts masterOfs parts (pp :: nodes) = some accepted) :
    ∃ last done offset size, accepted.reverse = last :: done ∧ Stacked (last :: done) ∧
      tree.lastBounds dynparts masterOfs (pp :: nodes) = some (offset, size) ∧
      last.offset = offset.toNat ∧ last.size = size.toNat ∧
      (offset + size).toNat ≤ master.size := by
  induction nodes generalizing pp masterOfs parts with
  | nil =>
      obtain ⟨offset, size, described, free, inside, rest⟩ := parseNodes_cons parsed
      obtain ⟨ordered, before⟩ := fixupEnd_stacked stacked free
      cases rest
      exact ⟨_, _, offset, size, List.reverse_reverse _, List.Pairwise.cons before ordered,
        described, rfl, rfl, inside⟩
  | cons next nodes ih =>
      obtain ⟨offset, size, described, free, inside, rest⟩ := parseNodes_cons parsed
      obtain ⟨ordered, before⟩ := fixupEnd_stacked stacked free
      obtain ⟨last, done, found⟩ := ih (List.Pairwise.cons before ordered) rest
      refine ⟨last, done, ?_⟩
      simp only [Description.lastBounds, described]
      exact found

/-! ## When the partitions are sound -/

/-- Ascending, disjoint, inside the device and without a sum that wraps. -/
def Sound (master : Master) (parts : List MtdPartition) : Prop :=
  (parts.Pairwise fun earlier later =>
    earlier.offset ≤ later.offset ∧ earlier.offset + earlier.size ≤ later.offset) ∧
  ∀ part ∈ parts, part.offset + part.size ≤ master.size ∧ part.offset + part.size < 2 ^ 32

/-- The last node does not wrap: the offset and the size of its properties, or
of the partition that the scan found for it. -/
def Description.LastFits (tree : Description) (dynparts : List Dynpart) : Prop :=
  ∀ offset size, tree.lastBounds dynparts 0 tree.nodes = some (offset, size) →
    offset.toNat + size.toNat < 2 ^ 32

/-- All partitions are sound as soon as the last one is. -/
theorem sound_of_last {last : MtdPartition} {done : List MtdPartition}
    (order : parts.reverse = last :: done) (stacked : Stacked (last :: done))
    (inside : last.offset + last.size ≤ master.size) (fits : last.offset + last.size < 2 ^ 32) :
    Sound master parts := by
  obtain ⟨behind, -⟩ := List.pairwise_cons.mp stacked
  constructor
  · have forward : parts.Pairwise fun earlier later =>
        earlier.offset + earlier.size ≤ later.offset := by
      rw [← List.reverse_reverse parts, order]
      exact List.pairwise_reverse.mpr stacked
    apply forward.imp
    intro earlier later ends
    exact ⟨by omega, ends⟩
  · intro part member
    rw [← List.mem_reverse, order] at member
    cases member with
    | head => exact ⟨inside, fits⟩
    | tail _ member =>
        have := behind part member
        omega

/-- The partitions returned are sound exactly if the end of the last node stays
below 2^32. -/
theorem partitions_sound_iff {fuel : Nat} {rbpartNode : Option Description}
    {found : List Dynpart}
    (returned : routerbootPartitionsParse master fuel rbpartNode dynparts =
      some (found, some accepted)) :
    Sound master accepted ↔ ∀ tree ∈ rbpartNode, tree.LastFits found := by
  have empty : Sound master [] := ⟨List.Pairwise.nil, fun part member => by cases member⟩
  cases rbpartNode with
  | none =>
      cases returned
      exact ⟨fun _ tree member => (by cases member), fun _ => empty⟩
  | some tree =>
      rw [routerbootPartitionsParse] at returned
      split at returned
      · rename_i bare
        cases returned
        refine ⟨fun _ other member => ?_, fun _ => empty⟩
        cases member
        intro offset size last
        rw [bare] at last
        cases last
      · rename_i children
        obtain ⟨scan, -, same⟩ := Option.map_eq_some_iff.mp returned
        obtain ⟨rfl, parsed⟩ := Prod.mk.inj same
        obtain ⟨pp, rest, nodes⟩ := List.exists_cons_of_ne_nil children
        rw [nodes] at parsed
        obtain ⟨last, done, offset, size, order, stacked, bounds, sameOffset, sameSize, inside⟩ :=
          parseNodes_accepts List.Pairwise.nil parsed
        rw [UInt32.toNat_add] at inside
        constructor
        · intro sound other member last' size' bounds'
          cases member
          rw [nodes, bounds] at bounds'
          cases bounds'
          have member : last ∈ accepted := by
            rw [← List.mem_reverse, order]
            exact List.mem_cons_self
          have := (sound.2 last member).2
          omega
        · intro fits
          have fits := fits tree rfl offset size (nodes ▸ bounds)
          apply sound_of_last order stacked
          · rw [Nat.mod_eq_of_lt fits] at inside
            omega
          · omega

/-- A device tree blob at 0x1000 with its `totalsize`. -/
def blob (totalsize : UInt32) : Master where
  size := 0x10000
  order := .big
  content := fun address =>
    if address < 0x1000 then 0
    else (be32 ofDtHeader ++ be32 totalsize).getD (address - 0x1000) 0

def dtbConfig : Description := ⟨1, 1, [⟨"dtb_config", none, none, none, none, false, false⟩]⟩

/-- What the scan finds on it. -/
def blobFound (totalsize : UInt32) : List Dynpart :=
  (rbDynparts .big).take 2 ++ [⟨"dtb_config", ofDtHeader, true, 0x1000, totalsize, true⟩]

def blobPart (totalsize : UInt32) : MtdPartition :=
  ⟨"dtb_config", 0x1000, totalsize.toNat, ⟨"dtb_config", none, none, none, none, false, false⟩, 0⟩

/-- The end of the partition wraps to 0, which passes the check. -/
theorem hugeBlob_accepted :
    routerbootPartitionsParse (blob 0xfffff000) 64 (some dtbConfig) (rbDynparts .big) =
        some (blobFound 0xfffff000, some [blobPart 0xfffff000]) ∧
      ¬Sound (blob 0xfffff000) [blobPart 0xfffff000] := by
  constructor
  · rfl
  · intro sound
    have inside := (sound.2 _ List.mem_cons_self).1
    revert inside
    decide

theorem partitions_sound_small :
    routerbootPartitionsParse (blob 0x2000) 64 (some dtbConfig) (rbDynparts .big) =
        some (blobFound 0x2000, some [blobPart 0x2000]) ∧
      Sound (blob 0x2000) [blobPart 0x2000] := by
  have returned : routerbootPartitionsParse (blob 0x2000) 64 (some dtbConfig) (rbDynparts .big) =
      some (blobFound 0x2000, some [blobPart 0x2000]) := by rfl
  refine ⟨returned, (partitions_sound_iff returned).mpr ?_⟩
  intro tree member offset size last
  cases member
  have bounds : dtbConfig.lastBounds (blobFound 0x2000) 0 dtbConfig.nodes =
      some (0x1000, 0x2000) := by rfl
  rw [bounds] at last
  cases last
  decide

end Rut9xx.RouterBoot
