import Rut9xx.Safeloader.Conversion

namespace Rut9xx.Safeloader

open Data

/-! # The split of the firmware partition, in both kinds of image -/

/-- A layout with the partitions that a sysupgrade image begins and ends with. -/
structure BoardInfo extends DeviceInfo where
  firstSysupgradePartition : Text
  lastSysupgradePartition : Text

/-- Only a factory image has the file system at an erase block. -/
def fileSystemBase (sysupgrade : Bool) (firmware : FlashPartitionEntry) (kernelSize : Nat) : UInt32 :=
  let behind := firmware.base.toNat + kernelSize
  UInt32.ofNat (if sysupgrade then behind else align behind)

def fileSystemFrom (firmware : FlashPartitionEntry) (base : UInt32) : FlashPartitionEntry :=
  { name := ascii "file-system", base := base, size := firmware.size - base }

/-- The split of `build_image`, with `-S` or without. -/
def splitFirmwareFor (sysupgrade : Bool) (partitions : List FlashPartitionEntry) (kernelSize : Nat) :
    Option (List FlashPartitionEntry × Option FlashPartitionEntry) :=
  match findFirmware partitions with
  | none => some (partitions, none)
  | some (front, firmware, back) =>
      let fileSystem := fileSystemFrom firmware (fileSystemBase sysupgrade firmware kernelSize)
      if firmware.size.toNat < kernelSize ∨ maxPartitions ≤ partitions.length then none
      else some (front ++ osImagePartition firmware kernelSize :: fileSystem :: back, some fileSystem)

def imagePartsFor (sysupgrade : Bool) (info : DeviceInfo) (tm : Tm) (kernel rootfs : List UInt8)
    (addJffs2Eof : Bool) : Option (List FlashPartitionEntry × List ImagePartitionEntry) := do
  let split ← splitFirmwareFor sysupgrade info.partitions kernel.length
  partsBehind info tm kernel rootfs addJffs2Eof split

/-- `flash_first_partition` and `flash_last_partition`, with their indices. -/
structure Ends where
  first : Option (Nat × FlashPartitionEntry)
  last : Option (Nat × FlashPartitionEntry)

def findEnds (first last : Text) : Nat → List FlashPartitionEntry → Ends → Ends
  | _, [], ends => ends
  | index, p :: rest, ends =>
      findEnds first last (index + 1) rest
        (if p.name = first then { ends with first := some (index, p) }
        else if p.name = last then { ends with last := some (index, p) }
        else ends)

/-- Each partition's part, as far behind the start of the image as the partition is behind the
first. -/
def copyPartitions (parts : List ImagePartitionEntry) (first : UInt32) :
    List FlashPartitionEntry → List UInt8 → Option (List UInt8)
  | [], image => some image
  | p :: rest, image =>
      match parts.find? fun part => part.name = p.name with
      | none => copyPartitions parts first rest image
      | some part => do
          require (part.data.length ≤ p.size.toNat)
          require (first ≤ p.base)
          let image ← writeAt image (p.base.toNat - first.toNat) part.data
          copyPartitions parts first rest image

def generateSysupgradeImage (info : BoardInfo) (partitions : List FlashPartitionEntry)
    (parts : List ImagePartitionEntry) : Option (List UInt8) := do
  let ends := findEnds info.firstSysupgradePartition info.lastSysupgradePartition 0 partitions
    ⟨none, none⟩
  let (firstIndex, first) ← ends.first
  let (lastIndex, last) ← ends.last
  require (firstIndex < lastIndex)
  let lastPart ← parts.find? fun part => part.name = info.lastSysupgradePartition
  let len := (last.base - first.base).toNat + lastPart.data.length
  copyPartitions parts first.base (slice partitions firstIndex (lastIndex + 1 - firstIndex))
    (List.replicate len 0xff)

/-- `build_image` -/
def buildImageFor (md5 : List UInt8 → Md5Sum) (sysupgrade : Bool) (info : BoardInfo) (tm : Tm)
    (kernel rootfs : List UInt8) (addJffs2Eof : Bool) : Option (List UInt8) := do
  let (partitions, parts) ← imagePartsFor sysupgrade info.toDeviceInfo tm kernel rootfs addJffs2Eof
  if sysupgrade then generateSysupgradeImage info partitions parts
  else generateFactoryImage md5 info.vendor partitions parts

variable {md5 : List UInt8 → Md5Sum} {info : BoardInfo} {tm : Tm} {kernel rootfs fsData : List UInt8}
  {addJffs2Eof sysupgrade : Bool} {partitions flashParts front back : List FlashPartitionEntry}
  {firmware : FlashPartitionEntry} {parts : List ImagePartitionEntry} {image after : List UInt8}
  {first last : Text} {ends : Ends} {index kernelSize : Nat}

theorem splitFirmwareFor_factory :
    splitFirmwareFor false partitions kernelSize = splitFirmware partitions kernelSize :=
  rfl

theorem buildImageFor_factory :
    buildImageFor md5 false info tm kernel rootfs addJffs2Eof =
      buildImage md5 info.toDeviceInfo tm kernel rootfs addJffs2Eof :=
  rfl

/-! ## The ends of a sysupgrade image -/

theorem findEnds_append (behind : List FlashPartitionEntry) :
    findEnds first last index (partitions ++ behind) ends =
      findEnds first last (index + partitions.length) behind
        (findEnds first last index partitions ends) := by
  induction partitions generalizing index ends with
  | nil => rfl
  | cons p rest ih =>
      rw [List.cons_append, findEnds, ih, findEnds, List.length_cons]
      congr 1
      omega

theorem findEnds_first (absent : ∀ p ∈ partitions, p.name ≠ first) :
    (findEnds first last index partitions ends).first = ends.first := by
  induction partitions generalizing index ends with
  | nil => rfl
  | cons p rest ih =>
      rw [findEnds, ih fun other member => absent other (List.mem_cons_of_mem p member),
        if_neg (absent p List.mem_cons_self)]
      split
      · rfl
      · rfl

/-- The partition that a sysupgrade image ends with is the last of its name. -/
theorem findEnds_last (differ : first ≠ last) :
    (findEnds first last index partitions ends).last = ends.last ∧
        (partitions.reverse.find? fun p => p.name = last) = none ∨
      ∃ place p, (findEnds first last index partitions ends).last = some (place, p) ∧
        (partitions.reverse.find? fun p => p.name = last) = some p ∧
        index ≤ place ∧ place < index + partitions.length := by
  induction partitions generalizing index ends with
  | nil => exact .inl ⟨rfl, rfl⟩
  | cons p rest ih =>
      rw [findEnds, List.reverse_cons, List.find?_append, List.length_cons]
      rcases @ih (if p.name = first then { ends with first := some (index, p) }
          else if p.name = last then { ends with last := some (index, p) } else ends) (index + 1) with
        ⟨kept, none⟩ | ⟨place, q, found, same, low, high⟩
      · rw [kept, none, Option.none_or]
        by_cases isFirst : p.name = first
        · rw [if_pos isFirst, List.find?_cons_of_neg (by simpa [isFirst] using differ)]
          exact .inl ⟨rfl, rfl⟩
        · rw [if_neg isFirst]
          by_cases isLast : p.name = last
          · rw [if_pos isLast, List.find?_cons_of_pos (by simpa using isLast)]
            exact .inr ⟨index, p, rfl, rfl, Nat.le_refl _, by omega⟩
          · rw [if_neg isLast, List.find?_cons_of_neg (by simpa using isLast)]
            exact .inl ⟨rfl, rfl⟩
      · rw [found, same]
        exact .inr ⟨place, q, rfl, rfl, by omega, by omega⟩

/-- Where both ends have one name, there is no last partition. -/
theorem findEnds_same : (findEnds first first index partitions ends).last = ends.last := by
  induction partitions generalizing index ends with
  | nil => rfl
  | cons p rest ih =>
      rw [findEnds, ih]
      split
      · rfl
      · rfl

theorem copyPartitions_length {base : UInt32}
    (copied : copyPartitions parts base partitions image = some after) :
    after.length = image.length := by
  induction partitions generalizing image with
  | nil =>
      cases copied
      rfl
  | cons p rest ih =>
      rw [copyPartitions] at copied
      split at copied
      · exact ih copied
      · obtain ⟨_, -, copied⟩ := Option.bind_eq_some_iff.mp copied
        obtain ⟨_, -, copied⟩ := Option.bind_eq_some_iff.mp copied
        obtain ⟨next, written, copied⟩ := Option.bind_eq_some_iff.mp copied
        rw [ih copied, writeAt_length written]

theorem copyPartitions_fits {base : UInt32} {p : FlashPartitionEntry} {part : ImagePartitionEntry}
    (copied : copyPartitions parts base partitions image = some after) (member : p ∈ partitions)
    (found : (parts.find? fun part => part.name = p.name) = some part) :
    part.data.length ≤ p.size.toNat := by
  induction partitions generalizing image with
  | nil => exact absurd member List.not_mem_nil
  | cons q rest ih =>
      rw [copyPartitions] at copied
      rcases List.mem_cons.mp member with here | later
      · rw [← here, found] at copied
        obtain ⟨_, fits, -⟩ := Option.bind_eq_some_iff.mp copied
        rwa [require_eq_some, decide_eq_true_iff] at fits
      · split at copied
        · exact ih copied later
        · obtain ⟨_, -, copied⟩ := Option.bind_eq_some_iff.mp copied
          obtain ⟨_, -, copied⟩ := Option.bind_eq_some_iff.mp copied
          obtain ⟨next, -, copied⟩ := Option.bind_eq_some_iff.mp copied
          exact ih copied later

end Rut9xx.Safeloader
