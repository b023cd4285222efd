import Rut9xx.Safeloader.Sysupgrade

namespace Rut9xx.Safeloader

open Data

/-! # Whether the split tiles the firmware partition -/

variable {md5 : List UInt8 → Md5Sum} {info : BoardInfo} {tm : Tm} {kernel rootfs fsData : List UInt8}
  {addJffs2Eof sysupgrade : Bool} {partitions flashParts front back : List FlashPartitionEntry}
  {firmware os fs : FlashPartitionEntry} {parts : List ImagePartitionEntry} {image : List UInt8}
  {base : UInt32} {kernelSize : Nat}

/-- A layout as the device table has them, with one partition to split. -/
structure DynamicLayout (info : BoardInfo) (front : List FlashPartitionEntry)
    (firmware : FlashPartitionEntry) (back : List FlashPartitionEntry) : Prop where
  whole : info.partitions = front ++ firmware :: back
  named : firmware.name = ascii "firmware"
  single : ∀ p ∈ front ++ back, p.name ≠ ascii "firmware"
  unsplit : ∀ p ∈ front ++ back, p.name ≠ ascii "os-image" ∧ p.name ≠ ascii "file-system"
  first : info.firstSysupgradePartition = ascii "os-image"

/-- The two partitions of an accepted build, and its image. -/
structure Tiles (sysupgrade : Bool) (firmware os fs : FlashPartitionEntry)
    (kernel fsData image : List UInt8) : Prop where
  start : os.base = firmware.base
  apart : os.base.toNat + os.size.toNat ≤ fs.base.toNat
  aligned : fs.base.toNat < os.base.toNat + os.size.toNat + if sysupgrade then 1 else 0x10000
  stop : fs.base.toNat + fs.size.toNat = firmware.base.toNat + firmware.size.toNat
  kernelFits : kernel.length ≤ os.size.toNat
  rootfsFits : fs.base.toNat + fsData.length ≤ firmware.base.toNat + firmware.size.toNat
  imageFits : sysupgrade = true → image.length ≤ firmware.size.toNat

/-- The length of the parts that are neither kernel nor root file system. -/
def metaLength (info : DeviceInfo) (tm : Tm) (name : Text) : Option Nat :=
  if name = ascii "partition-table" then some 0x800
  else
    (([makeSoftVersion info tm, makeSupportList info] ++
      ((extraPara info.id).map (makeExtraPara info)).toList).find? fun part => part.name = name).map
        fun part => part.data.length

/-- The last partition of a sysupgrade image is the file system, or ends within the length of the
firmware partition. -/
def LastInside (info : BoardInfo) (tm : Tm) (firmware : FlashPartitionEntry)
    (back : List FlashPartitionEntry) : Prop :=
  info.lastSysupgradePartition = ascii "file-system" ∨
    ∀ p count, (back.reverse.find? fun p => p.name = info.lastSysupgradePartition) = some p →
      metaLength info.toDeviceInfo tm info.lastSysupgradePartition = some count →
      p.base.toNat + count ≤ firmware.size.toNat

/-! ## The partitions of a build -/

theorem findFirmware_none (absent : ∀ p ∈ partitions, p.name ≠ ascii "firmware") :
    findFirmware partitions = none := by
  induction partitions with
  | nil => rfl
  | cons p rest ih =>
      rw [findFirmware, ih fun other member => absent other (List.mem_cons_of_mem p member)]
      exact if_neg (absent p List.mem_cons_self)

theorem findFirmware_single (named : firmware.name = ascii "firmware")
    (absent : ∀ p ∈ back, p.name ≠ ascii "firmware") :
    findFirmware (front ++ firmware :: back) = some (front, firmware, back) := by
  induction front with
  | nil =>
      rw [List.nil_append, findFirmware, findFirmware_none absent]
      exact if_pos named
  | cons p rest ih => rw [List.cons_append, findFirmware, ih]

/-- The file system partition of a build. -/
def fileSystemFor (sysupgrade : Bool) (firmware : FlashPartitionEntry) (kernelSize : Nat) :
    FlashPartitionEntry :=
  fileSystemFrom firmware (fileSystemBase sysupgrade firmware kernelSize)

theorem imagePartsFor_cases (layout : DynamicLayout info front firmware back)
    (listed : imagePartsFor sysupgrade info.toDeviceInfo tm kernel rootfs addJffs2Eof =
      some (flashParts, parts)) :
    ∃ table fsData, kernel.length ≤ firmware.size.toNat ∧
      flashParts = front ++ osImagePartition firmware kernel.length ::
        fileSystemFor sysupgrade firmware kernel.length :: back ∧
      makePartitionTable flashParts = some table ∧
      parts = [table, makeSoftVersion info.toDeviceInfo tm, makeSupportList info.toDeviceInfo,
          osPart kernel, fsPart fsData] ++
        ((extraPara info.id).map (makeExtraPara info.toDeviceInfo)).toList := by
  obtain ⟨split, divided, listed⟩ := Option.bind_eq_some_iff.mp listed
  obtain ⟨table, fsData, same, tabled, -, -, whole⟩ := partsBehind_cases listed
  have found : findFirmware info.partitions = some (front, firmware, back) := by
    rw [layout.whole]
    exact findFirmware_single layout.named fun p member =>
      layout.single p (List.mem_append_right front member)
  rw [splitFirmwareFor, found] at divided
  simp only at divided
  split at divided
  · contradiction
  · rename_i fits
    cases divided
    exact ⟨table, fsData, by omega, same.symm, tabled, whole⟩

theorem find_osImage (layout : DynamicLayout info front firmware back) :
    (front ++ osImagePartition firmware kernelSize :: fs :: back).find?
      (fun p => p.name = ascii "os-image") = some (osImagePartition firmware kernelSize) := by
  apply find_skip
  · intro p member
    exact (layout.unsplit p (List.mem_append_left back member)).1
  · rfl

theorem find_fileSystem (layout : DynamicLayout info front firmware back)
    (named : fs.name = ascii "file-system") :
    (front ++ osImagePartition firmware kernelSize :: fs :: back).find?
      (fun p => p.name = ascii "file-system") = some fs := by
  have others := @find_skip (ascii "file-system") (front ++ [osImagePartition firmware kernelSize]) back
    fs
  rw [List.append_assoc, List.singleton_append] at others
  apply others
  · intro p member
    rcases List.mem_append.mp member with member | member
    · exact (layout.unsplit p (List.mem_append_left back member)).2
    · rw [List.mem_singleton.mp member]
      exact (show ascii "os-image" ≠ ascii "file-system" by decide)
  · exact named

/-- A part other than the kernel and the root file system. -/
theorem find_meta {table : ImagePartitionEntry} {name : Text}
    (tabled : makePartitionTable flashParts = some table) (notKernel : name ≠ ascii "os-image")
    (notRootfs : name ≠ ascii "file-system") :
    (([table, makeSoftVersion info.toDeviceInfo tm, makeSupportList info.toDeviceInfo, osPart kernel,
        fsPart fsData] ++
      ((extraPara info.id).map (makeExtraPara info.toDeviceInfo)).toList).find?
        fun part => part.name = name).map (fun part => part.data.length) =
      metaLength info.toDeviceInfo tm name := by
  have tableName := makePartitionTable_name tabled
  have tableLength := makePartitionTable_length tabled
  rw [metaLength, List.cons_append]
  by_cases isTable : name = ascii "partition-table"
  · rw [if_pos isTable, List.find?_cons_of_pos (by simpa [tableName] using isTable.symm),
      Option.map_some, tableLength]
  · have neither : [osPart kernel, fsPart fsData].find? (fun part => part.name = name) = none := by
      rw [List.find?_eq_none]
      intro part member
      simp only [List.mem_cons, List.not_mem_nil, or_false] at member
      rw [decide_eq_true_iff]
      rcases member with rfl | rfl
      · exact fun same => notKernel same.symm
      · exact fun same => notRootfs same.symm
    rw [if_neg isTable, List.find?_cons_of_neg (by simpa [tableName] using Ne.symm isTable),
      show [makeSoftVersion info.toDeviceInfo tm, makeSupportList info.toDeviceInfo, osPart kernel,
          fsPart fsData] = [makeSoftVersion info.toDeviceInfo tm, makeSupportList info.toDeviceInfo] ++
          [osPart kernel, fsPart fsData] from rfl,
      List.append_assoc, List.find?_append, List.find?_append, neither, Option.none_or,
      ← List.find?_append]

theorem find_rootfs {table : ImagePartitionEntry}
    (tabled : makePartitionTable flashParts = some table) (more : List ImagePartitionEntry) :
    ([table, makeSoftVersion info.toDeviceInfo tm, makeSupportList info.toDeviceInfo, osPart kernel,
      fsPart fsData] ++ more).find? (fun part => part.name = ascii "file-system") =
      some (fsPart fsData) := by
  have table : ¬ table.name = ascii "file-system" := by
    rw [makePartitionTable_name tabled]
    decide
  have version : ¬ (makeSoftVersion info.toDeviceInfo tm).name = ascii "file-system" := by
    rw [makeSoftVersion_name]
    decide
  have support : ¬ (makeSupportList info.toDeviceInfo).name = ascii "file-system" :=
    show ¬ ascii "support-list" = ascii "file-system" by decide
  have kernel : ¬ (osPart kernel).name = ascii "file-system" :=
    show ¬ ascii "os-image" = ascii "file-system" by decide
  simp only [List.cons_append, List.find?_cons, table, version, support, kernel, decide_false,
    decide_true, fsPart]

/-! ## The sysupgrade image -/

/-- What is checked of a sysupgrade image, and how long it is. -/
theorem generateSysupgradeImage_spec (layout : DynamicLayout info front firmware back)
    (built : generateSysupgradeImage info
      (front ++ osImagePartition firmware kernelSize :: fs :: back) parts = some image)
    (named : fs.name = ascii "file-system") :
    info.lastSysupgradePartition ≠ ascii "os-image" ∧
      (∀ part, parts.find? (fun part => part.name = ascii "file-system") = some part →
        part.data.length ≤ fs.size.toNat) ∧
      ∃ p part, ((fs :: back).reverse.find? fun p => p.name = info.lastSysupgradePartition) = some p ∧
        parts.find? (fun part => part.name = info.lastSysupgradePartition) = some part ∧
        image.length = (p.base - firmware.base).toNat + part.data.length := by
  rw [generateSysupgradeImage, layout.first, findEnds_append, findEnds,
    if_pos (show (osImagePartition firmware kernelSize).name = ascii "os-image" from rfl)] at built
  obtain ⟨⟨firstIndex, first⟩, starts, built⟩ := Option.bind_eq_some_iff.mp built
  obtain ⟨⟨lastIndex, last⟩, ends, built⟩ := Option.bind_eq_some_iff.mp built
  obtain ⟨_, ordered, built⟩ := Option.bind_eq_some_iff.mp built
  obtain ⟨part, partFound, built⟩ := Option.bind_eq_some_iff.mp built
  rw [require_eq_some, decide_eq_true_iff] at ordered
  have behind : ∀ p ∈ fs :: back, p.name ≠ ascii "os-image" := by
    intro p member
    rcases List.mem_cons.mp member with rfl | member
    · rw [named]
      decide
    · exact (layout.unsplit p (List.mem_append_right front member)).1
  rw [findEnds_first behind] at starts
  cases starts
  rw [Nat.zero_add] at ordered ends built
  have differ : ascii "os-image" ≠ info.lastSysupgradePartition := by
    intro same
    rw [← same, findEnds_same, findEnds_same] at ends
    contradiction
  -- A last partition in front of the first is turned down.
  have found : ((fs :: back).reverse.find? fun p => p.name = info.lastSysupgradePartition) = some last := by
    rcases @findEnds_last (fs :: back) _ _ _ (front.length + 1) differ with
      ⟨kept, -⟩ | ⟨place, p, set, found, -, -⟩
    · rw [kept] at ends
      simp only at ends
      rcases @findEnds_last front _ _ ⟨none, none⟩ 0 differ with
        ⟨kept, -⟩ | ⟨place, p, set, -, -, high⟩
      · rw [kept] at ends
        contradiction
      · rw [set] at ends
        cases ends
        omega
    · rw [set] at ends
      cases ends
      exact found
  refine ⟨fun same => differ same.symm, ?_, last, part, found, partFound, ?_⟩
  · intro rootfs rootfsFound
    rw [← named] at rootfsFound
    apply copyPartitions_fits built _ rootfsFound
    obtain ⟨more, count⟩ := Nat.exists_eq_add_of_lt ordered
    rw [slice, List.drop_left, show lastIndex + 1 - front.length = more + 2 by omega,
      List.take_succ_cons, List.take_succ_cons]
    exact List.mem_cons_of_mem _ List.mem_cons_self
  · rw [copyPartitions_length built, List.length_replicate]
    rfl

/-! ## Tiling -/

/-- The end of the file system partition is that of the firmware partition only where this begins
the flash. -/
theorem fileSystem_end_iff :
    base.toNat + (fileSystemFrom firmware base).size.toNat =
        firmware.base.toNat + firmware.size.toNat ↔
      firmware.base = 0 ∧ base.toNat ≤ firmware.size.toNat := by
  have baseSmall := base.toNat_lt
  have startSmall := firmware.base.toNat_lt
  have sizeSmall := firmware.size.toNat_lt
  have zero : firmware.base = 0 ↔ firmware.base.toNat = 0 := by
    rw [← UInt32.toNat_inj]
    rfl
  rw [fileSystemFrom, UInt32.toNat_sub, zero]
  omega

theorem fileSystemBase_factory (noBase : firmware.base = 0)
    (fits : kernelSize ≤ firmware.size.toNat) :
    kernelSize ≤ (fileSystemBase false firmware kernelSize).toNat ∧
        (fileSystemBase false firmware kernelSize).toNat ≤ firmware.size.toNat ↔
      align kernelSize ≤ firmware.size.toNat := by
  have sizeSmall := firmware.size.toNat_lt
  have above := le_align kernelSize
  have below := align_le kernelSize
  have zero : firmware.base.toNat = 0 := by rw [noBase]; rfl
  have value : (fileSystemBase false firmware kernelSize).toNat = align kernelSize % 2 ^ 32 := by
    rw [fileSystemBase, zero, Nat.zero_add, UInt32.toNat_ofNat']
    rfl
  rw [value]
  omega

theorem fileSystemBase_sysupgrade (noBase : firmware.base = 0)
    (fits : kernelSize ≤ firmware.size.toNat) :
    (fileSystemBase true firmware kernelSize).toNat = kernelSize := by
  have sizeSmall := firmware.size.toNat_lt
  have zero : firmware.base.toNat = 0 := by rw [noBase]; rfl
  rw [fileSystemBase, zero, Nat.zero_add, UInt32.toNat_ofNat', if_pos rfl, Nat.mod_eq_of_lt (by omega)]

/-- The condition on the inputs of a build under which the split tiles the partition. -/
def SplitFits (sysupgrade : Bool) (info : BoardInfo) (tm : Tm) (firmware : FlashPartitionEntry)
    (back : List FlashPartitionEntry) (kernelSize : Nat) : Prop :=
  firmware.base = 0 ∧
    if sysupgrade then LastInside info tm firmware back else align kernelSize ≤ firmware.size.toNat

theorem osImage_size (fits : kernelSize ≤ firmware.size.toNat) :
    (osImagePartition firmware kernelSize).size.toNat = kernelSize := by
  have sizeSmall := firmware.size.toNat_lt
  rw [osImagePartition, UInt32.toNat_ofNat', Nat.mod_eq_of_lt (by omega)]

theorem tiles_factory_iff (kernelFits : kernel.length ≤ firmware.size.toNat)
    (rootfsFits : fsData.length ≤ (fileSystemFor false firmware kernel.length).size.toNat) :
    Tiles false firmware (osImagePartition firmware kernel.length)
        (fileSystemFor false firmware kernel.length) kernel fsData image ↔
      firmware.base = 0 ∧ align kernel.length ≤ firmware.size.toNat := by
  have osSize := osImage_size kernelFits
  have osBase : (osImagePartition firmware kernel.length).base = firmware.base := rfl
  have fsBase : (fileSystemFor false firmware kernel.length).base =
      fileSystemBase false firmware kernel.length := rfl
  have ends : (fileSystemBase false firmware kernel.length).toNat +
      (fileSystemFor false firmware kernel.length).size.toNat =
        firmware.base.toNat + firmware.size.toNat ↔ _ := fileSystem_end_iff
  constructor
  · intro tiles
    have apart := tiles.apart
    rw [osSize, osBase, fsBase] at apart
    obtain ⟨noBase, inside⟩ := ends.mp tiles.stop
    exact ⟨noBase, (fileSystemBase_factory noBase kernelFits).mp ⟨by omega, inside⟩⟩
  · intro ⟨noBase, aligned⟩
    have zero : firmware.base.toNat = 0 := by rw [noBase]; rfl
    have sizeSmall := firmware.size.toNat_lt
    have below := align_le kernel.length
    have value : (fileSystemBase false firmware kernel.length).toNat = align kernel.length := by
      rw [fileSystemBase, zero, Nat.zero_add, UInt32.toNat_ofNat', if_neg Bool.false_ne_true,
        Nat.mod_eq_of_lt (by omega)]
    have stop := ends.mpr ⟨noBase, by omega⟩
    refine ⟨osBase, ?_, ?_, stop, by omega, ?_, fun impossible => Bool.noConfusion impossible⟩
    · rw [osSize, osBase, fsBase, zero, value, Nat.zero_add]
      exact le_align _
    · rw [osSize, osBase, fsBase, zero, value, if_neg Bool.false_ne_true]
      omega
    · rw [fsBase]
      omega

theorem tiles_sysupgrade_iff (kernelFits : kernel.length ≤ firmware.size.toNat)
    (rootfsFits : fsData.length ≤ (fileSystemFor true firmware kernel.length).size.toNat) :
    Tiles true firmware (osImagePartition firmware kernel.length)
        (fileSystemFor true firmware kernel.length) kernel fsData image ↔
      firmware.base = 0 ∧ image.length ≤ firmware.size.toNat := by
  have osSize := osImage_size kernelFits
  have osBase : (osImagePartition firmware kernel.length).base = firmware.base := rfl
  have fsBase : (fileSystemFor true firmware kernel.length).base =
      fileSystemBase true firmware kernel.length := rfl
  have ends : (fileSystemBase true firmware kernel.length).toNat +
      (fileSystemFor true firmware kernel.length).size.toNat =
        firmware.base.toNat + firmware.size.toNat ↔ _ := fileSystem_end_iff
  constructor
  · intro tiles
    exact ⟨(ends.mp tiles.stop).1, tiles.imageFits rfl⟩
  · intro ⟨noBase, short⟩
    have zero : firmware.base.toNat = 0 := by rw [noBase]; rfl
    have value := fileSystemBase_sysupgrade noBase kernelFits
    have stop := ends.mpr ⟨noBase, by omega⟩
    refine ⟨osBase, ?_, ?_, stop, by omega, ?_, fun _ => short⟩
    · rw [osSize, osBase, fsBase]
      omega
    · rw [osSize, osBase, fsBase, if_pos rfl]
      omega
    · rw [fsBase]
      omega

/-- A sysupgrade image stays within the length of a firmware partition at the start of the flash
exactly if its last partition does. -/
theorem sysupgrade_length_iff {table : ImagePartitionEntry}
    (layout : DynamicLayout info front firmware back) (noBase : firmware.base = 0)
    (kernelFits : kernel.length ≤ firmware.size.toNat)
    (tabled : makePartitionTable flashParts = some table)
    (whole : parts = [table, makeSoftVersion info.toDeviceInfo tm, makeSupportList info.toDeviceInfo,
        osPart kernel, fsPart fsData] ++
      ((extraPara info.id).map (makeExtraPara info.toDeviceInfo)).toList)
    (built : generateSysupgradeImage info (front ++ osImagePartition firmware kernel.length ::
      fileSystemFor true firmware kernel.length :: back) parts = some image) :
    image.length ≤ firmware.size.toNat ↔ LastInside info tm firmware back := by
  obtain ⟨notKernel, rootfsFits, p, part, last, lastPart, length⟩ :=
    generateSysupgradeImage_spec layout built rfl
  have rootfs := whole ▸ find_rootfs tabled
    ((extraPara info.id).map (makeExtraPara info.toDeviceInfo)).toList
  rw [noBase, UInt32.sub_zero] at length
  rw [List.reverse_cons, List.find?_append] at last
  by_cases isRootfs : info.lastSysupgradePartition = ascii "file-system"
  · have none : (back.reverse.find? fun p => p.name = info.lastSysupgradePartition) = none := by
      rw [List.find?_eq_none]
      intro q member
      rw [decide_eq_true_iff, isRootfs]
      exact (layout.unsplit q (List.mem_append_right front (List.mem_reverse.mp member))).2
    rw [none, Option.none_or, isRootfs, List.find?_cons_of_pos (by simp [fileSystemFor,
      fileSystemFrom])] at last
    rw [isRootfs, rootfs] at lastPart
    cases last
    cases lastPart
    have stop := fileSystem_end_iff.mpr ⟨noBase,
      (fileSystemBase_sysupgrade noBase kernelFits).symm ▸ kernelFits⟩
    have fits : fsData.length ≤ (fileSystemFrom firmware
        (fileSystemBase true firmware kernel.length)).size.toNat := rootfsFits _ rootfs
    have zero : firmware.base.toNat = 0 := by rw [noBase]; rfl
    have start : (fileSystemFor true firmware kernel.length).base =
        fileSystemBase true firmware kernel.length := rfl
    rw [start, fsPart] at length
    simp only at length
    exact ⟨fun _ => .inl isRootfs, fun _ => by omega⟩
  · have notHere : ¬ (fileSystemFor true firmware kernel.length).name = info.lastSysupgradePartition :=
      fun same => isRootfs same.symm
    rw [List.find?_cons_of_neg (by simpa using notHere), List.find?_nil, Option.or_none] at last
    have counted : metaLength info.toDeviceInfo tm info.lastSysupgradePartition =
        some part.data.length := by
      have counted := @find_meta info tm kernel fsData flashParts table _ tabled notKernel isRootfs
      rw [← whole, lastPart] at counted
      exact counted.symm
    rw [length]
    constructor
    · intro short
      refine .inr fun q count found known => ?_
      rw [last] at found
      rw [counted] at known
      cases found
      cases known
      exact short
    · intro inside
      exact inside.resolve_left isRootfs p part.data.length last counted

/-- The two partitions of an accepted build tile the firmware partition exactly if this begins the
flash: its file system partition is sized by its base in the flash. -/
theorem buildImageFor_tiles_iff (layout : DynamicLayout info front firmware back)
    (built : buildImageFor md5 sysupgrade info tm kernel rootfs addJffs2Eof = some image) :
    ∃ flashParts parts os fs fsData,
      imagePartsFor sysupgrade info.toDeviceInfo tm kernel rootfs addJffs2Eof =
        some (flashParts, parts) ∧
      flashParts.find? (fun p => p.name = ascii "os-image") = some os ∧
      flashParts.find? (fun p => p.name = ascii "file-system") = some fs ∧
      parts.find? (fun part => part.name = ascii "file-system") = some (fsPart fsData) ∧
      (Tiles sysupgrade firmware os fs kernel fsData image ↔
        SplitFits sysupgrade info tm firmware back kernel.length) := by
  obtain ⟨⟨flashParts, parts⟩, listed, built⟩ := Option.bind_eq_some_iff.mp built
  obtain ⟨table, fsData, kernelFits, flash, tabled, whole⟩ := imagePartsFor_cases layout listed
  have osFound := @find_osImage info front back firmware
    (fileSystemFor sysupgrade firmware kernel.length) kernel.length layout
  have fsFound := @find_fileSystem info front back firmware
    (fileSystemFor sysupgrade firmware kernel.length) kernel.length layout rfl
  have rootfs := whole ▸ find_rootfs tabled
    ((extraPara info.id).map (makeExtraPara info.toDeviceInfo)).toList
  rw [← flash] at osFound fsFound
  refine ⟨flashParts, parts, _, _, fsData, listed, osFound, fsFound, rootfs, ?_⟩
  cases sysupgrade with
  | false =>
      have factory := generateFactoryImage_spec (show generateFactoryImage md5 info.vendor flashParts
        parts = some image from built)
      obtain ⟨fs, found, fits⟩ := factory.fits (fsPart fsData) (List.mem_of_find?_eq_some rootfs)
      rw [show (fsPart fsData).name = ascii "file-system" from rfl, fsFound] at found
      cases found
      exact tiles_factory_iff kernelFits fits
  | true =>
      have image' : generateSysupgradeImage info flashParts parts = some image := built
      rw [flash] at image'
      obtain ⟨-, rootfsFits, -⟩ := generateSysupgradeImage_spec layout image' rfl
      have fits : fsData.length ≤ (fileSystemFor true firmware kernel.length).size.toNat :=
        rootfsFits _ rootfs
      rw [tiles_sysupgrade_iff kernelFits fits, SplitFits, if_pos rfl]
      apply and_congr_right
      intro noBase
      exact sysupgrade_length_iff layout noBase kernelFits tabled whole image'

/-! ## A board -/

def eap245V3Board : BoardInfo where
  toDeviceInfo := eap245V3
  firstSysupgradePartition := ascii "os-image"
  lastSysupgradePartition := ascii "file-system"

theorem eap245V3_dynamic :
    DynamicLayout eap245V3Board (eap245V3.partitions.take 9) eap245V3Firmware
      (eap245V3.partitions.drop 10) where
  whole := rfl
  named := rfl
  single := by decide
  unsplit := by decide
  first := rfl

/-- A factory image of one byte of kernel and one of root file system. -/
theorem buildImageFor_tiles_iff_small :
    ∃ image flashParts parts os fs fsData,
      buildImageFor (fun _ => ⟨List.replicate 16 0, List.length_replicate⟩) false eap245V3Board
        ⟨120, 0, 1⟩ [1] [2] false = some image ∧
      imagePartsFor false eap245V3 ⟨120, 0, 1⟩ [1] [2] false = some (flashParts, parts) ∧
      flashParts.find? (fun p => p.name = ascii "os-image") = some os ∧
      flashParts.find? (fun p => p.name = ascii "file-system") = some fs ∧
      parts.find? (fun part => part.name = ascii "file-system") = some (fsPart fsData) ∧
      (Tiles false eap245V3Firmware os fs [1] fsData image ↔
        SplitFits false eap245V3Board ⟨120, 0, 1⟩ eap245V3Firmware (eap245V3.partitions.drop 10) 1) := by
  obtain ⟨table, tabled⟩ := Option.isSome_iff_exists.mp
    (show (makePartitionTable (eap245V3Flash [(1 : UInt8)].length)).isSome = true by decide)
  have listed : imageParts eap245V3 ⟨120, 0, 1⟩ [1] [2] false =
      some (eap245V3Flash [(1 : UInt8)].length, eap245V3Parts table ⟨120, 0, 1⟩ [1] [2]) :=
    eap245V3_listed (by decide) tabled (by decide) (by decide)
  have rootfsFits : [(2 : UInt8)].length ≤
      (fileSystemPartition eap245V3Firmware [(1 : UInt8)].length).size.toNat := by decide
  obtain ⟨image, factory⟩ : ∃ image,
      generateFactoryImage (fun _ => ⟨List.replicate 16 0, List.length_replicate⟩) eap245V3.vendor
        (eap245V3Flash [(1 : UInt8)].length) (eap245V3Parts table ⟨120, 0, 1⟩ [1] [2]) = some image :=
    eap245V3_built (by decide) tabled rootfsFits
  have built := buildImage_of_listed listed factory
  obtain ⟨flashParts, parts, os, fs, fsData, known⟩ := buildImageFor_tiles_iff eap245V3_dynamic
    (show buildImageFor _ false eap245V3Board _ _ _ _ = _ from built)
  exact ⟨image, flashParts, parts, os, fs, fsData, built, known⟩

/-- A kernel that leaves `0xb0000` bytes of its partition, and a root file system of `0x100000` bytes:
the size of the file system partition wraps around. -/
theorem eap245V3_overflows (kernelLength : kernel.length = 0xd90000)
    (rootfsLength : rootfs.length = 0x100000) (md5 : List UInt8 → Md5Sum) :
    ∃ image flashParts parts os fs,
      buildImageFor md5 false eap245V3Board ⟨120, 0, 1⟩ kernel rootfs false = some image ∧
      imagePartsFor false eap245V3 ⟨120, 0, 1⟩ kernel rootfs false = some (flashParts, parts) ∧
      flashParts.find? (fun p => p.name = ascii "os-image") = some os ∧
      flashParts.find? (fun p => p.name = ascii "file-system") = some fs ∧
      parts.find? (fun part => part.name = ascii "file-system") = some (fsPart rootfs) ∧
      fs.base.toNat = 0xe50000 := by
  obtain ⟨table, tabled⟩ := Option.isSome_iff_exists.mp
    (show (makePartitionTable (eap245V3Flash 0xd90000)).isSome = true by decide)
  rw [← kernelLength] at tabled
  have kernelFits : kernel.length ≤ 0xe40000 := by omega
  have rootfsFits : rootfs.length ≤
      (fileSystemPartition eap245V3Firmware kernel.length).size.toNat := by
    rw [rootfsLength, kernelLength]
    decide
  have listed : imageParts eap245V3 ⟨120, 0, 1⟩ kernel rootfs false =
      some (eap245V3Flash kernel.length, eap245V3Parts table ⟨120, 0, 1⟩ kernel rootfs) :=
    eap245V3_listed kernelFits tabled (List.ne_nil_of_length_pos (by omega))
      (List.ne_nil_of_length_pos (by omega))
  obtain ⟨image, factory⟩ : ∃ image, generateFactoryImage md5 eap245V3.vendor
      (eap245V3Flash kernel.length) (eap245V3Parts table ⟨120, 0, 1⟩ kernel rootfs) = some image :=
    eap245V3_built kernelFits tabled rootfsFits
  have rootfsFound := @find_rootfs eap245V3Board ⟨120, 0, 1⟩ kernel rootfs _ table tabled
    [makeExtraPara eap245V3 [0x01, 0x01]]
  refine ⟨image, _, _, osImagePartition eap245V3Firmware kernel.length,
    fileSystemPartition eap245V3Firmware kernel.length, buildImage_of_listed listed factory, listed,
    rfl, rfl, rootfsFound, ?_⟩
  rw [kernelLength]
  rfl

theorem split_not_tiled :
    ¬ ∀ md5 sysupgrade info tm kernel rootfs addJffs2Eof image front firmware back flashParts parts os fs
        fsData,
      DynamicLayout info front firmware back →
      buildImageFor md5 sysupgrade info tm kernel rootfs addJffs2Eof = some image →
      imagePartsFor sysupgrade info.toDeviceInfo tm kernel rootfs addJffs2Eof =
        some (flashParts, parts) →
      flashParts.find? (fun p => p.name = ascii "os-image") = some os →
      flashParts.find? (fun p => p.name = ascii "file-system") = some fs →
      parts.find? (fun part => part.name = ascii "file-system") = some (fsPart fsData) →
      Tiles sysupgrade firmware os fs kernel fsData image := by
  intro tiled
  obtain ⟨image, flashParts, parts, os, fs, built, listed, osFound, fsFound, rootfsFound, start⟩ :=
    eap245V3_overflows List.length_replicate (List.length_replicate (n := 0x100000) (a := 0))
      fun _ => ⟨List.replicate 16 0, List.length_replicate⟩
  have tiles := tiled _ _ _ _ (List.replicate 0xd90000 0) _ _ _ _ _ _ _ _ _ _ _ eap245V3_dynamic built
    listed osFound fsFound rootfsFound
  have fits := tiles.rootfsFits
  rw [start, List.length_replicate] at fits
  exact absurd fits (by decide)

end Rut9xx.Safeloader
