import Rut9xx.Data.Memory
import Rut9xx.Safeloader.RoundTrip

namespace Rut9xx.Safeloader

open Data

/-! # Converting a factory image -/

variable {md5 : List UInt8 → Md5Sum} {info : DeviceInfo} {tm : Tm} {kernel rootfs : List UInt8}
  {addJffs2Eof : Bool} {flashParts : List FlashPartitionEntry} {parts : List ImagePartitionEntry}
  {image file data osData fsData : List UInt8} {os fs : FlashPartitionEntry} {name : Text}

/-! ## The output file -/

theorem fwrite_behind {position : Nat} (behind : file.length ≤ position) (some' : data ≠ []) :
    fwrite file position data = file ++ List.replicate (position - file.length) 0 ++ data := by
  have length : (file ++ List.replicate (position - file.length) (0 : UInt8)).length = position := by
    rw [List.length_append, List.length_replicate, Nat.add_sub_cancel' behind]
  rw [fwrite, if_neg some', List.take_of_length_le (Nat.le_of_eq length),
    List.drop_of_length_le (by omega), List.append_nil]

theorem fwrite_end {position : Nat} (here : file.length = position) :
    fwrite file position data = file ++ data := by
  by_cases none : data = []
  · rw [fwrite, if_pos none, none, List.append_nil]
  · rw [fwrite_behind (Nat.le_of_eq here) none, here, Nat.sub_self, List.replicate_zero,
      List.append_nil]

theorem writeFf_eq (size : Nat) : writeFf size = List.replicate size 0xff := by
  have blocks := Nat.div_mul_le_self (size - 1) 4096
  rw [writeFf, List.flatten_replicate_replicate, ← List.replicate_add]
  congr 1
  omega

/-- The four writes of the converter, when the file system begins behind the kernel's partition. -/
theorem converted_eq (kernelFits : osData.length ≤ os.size.toNat)
    (rootfsFits : fsData.length ≤ fs.size.toNat) (some' : fsData ≠ [])
    (ordered : os.base.toNat + os.size.toNat ≤ fs.base.toNat) :
    fwrite
        (fwrite
          (fwrite (fwrite [] 0 osData) osData.length
            (writeFf (os.size - UInt32.ofNat osData.length).toNat))
          (fs.base - os.base).toNat fsData)
        ((fs.base - os.base).toNat + fsData.length)
        (writeFf (fs.size - UInt32.ofNat fsData.length).toNat) =
      osData ++ List.replicate (os.size.toNat - osData.length) 0xff ++
        List.replicate (fs.base.toNat - os.base.toNat - os.size.toNat) 0 ++ fsData ++
        List.replicate (fs.size.toNat - fsData.length) 0xff := by
  have osBound := os.size.toNat_lt
  have fsBound := fs.size.toNat_lt
  have cut (size : Nat) (small : size < 2 ^ 32) : (UInt32.ofNat size).toNat = size := by
    rw [UInt32.toNat_ofNat', Nat.mod_eq_of_lt small]
  have osPad : (os.size - UInt32.ofNat osData.length).toNat = os.size.toNat - osData.length := by
    rw [UInt32.toNat_sub_of_le _ _ (UInt32.le_iff_toNat_le.mpr (by rw [cut _ (by omega)]; omega)),
      cut _ (by omega)]
  have fsPad : (fs.size - UInt32.ofNat fsData.length).toNat = fs.size.toNat - fsData.length := by
    rw [UInt32.toNat_sub_of_le _ _ (UInt32.le_iff_toNat_le.mpr (by rw [cut _ (by omega)]; omega)),
      cut _ (by omega)]
  have position : (fs.base - os.base).toNat = fs.base.toNat - os.base.toNat :=
    UInt32.toNat_sub_of_le _ _ (UInt32.le_iff_toNat_le.mpr (by omega))
  have first : (osData ++ List.replicate (os.size.toNat - osData.length) (0xff : UInt8)).length =
      os.size.toNat := by
    rw [List.length_append, List.length_replicate]
    omega
  have start : fwrite [] 0 osData = [] ++ osData := fwrite_end rfl
  rw [osPad, fsPad, position, writeFf_eq, writeFf_eq, start, List.nil_append, fwrite_end rfl,
    fwrite_behind (by omega) some', first, fwrite_end]
  simp only [List.length_append, List.length_replicate]
  omega

/-! ## The flash -/

/-- Erased flash with the kernel and the file system written to their partitions. -/
def flashed (os fs : FlashPartitionEntry) (kernel fileSystem : List UInt8) : Memory UInt8 :=
  store (store (fun _ => 0xff) os.base.toNat kernel) fs.base.toNat fileSystem

/-- The flash from the kernel partition to the end of the file system partition. -/
def flashedFirmware (os fs : FlashPartitionEntry) (kernel fileSystem : List UInt8) : List UInt8 :=
  load (flashed os fs kernel fileSystem) os.base.toNat
    (fs.base.toNat - os.base.toNat + fs.size.toNat)

theorem load_const {value : UInt8} {start count : Nat} :
    load (fun _ => value) start count = List.replicate count value := by
  rw [load, List.map_const', List.length_range]

theorem flashedFirmware_eq (kernelFits : kernel.length ≤ os.size.toNat)
    (rootfsFits : fsData.length ≤ fs.size.toNat)
    (ordered : os.base.toNat + os.size.toNat ≤ fs.base.toNat) :
    flashedFirmware os fs kernel fsData =
      kernel ++ List.replicate (fs.base.toNat - os.base.toNat - kernel.length) 0xff ++ fsData ++
        List.replicate (fs.size.toNat - fsData.length) 0xff := by
  have split : fs.base.toNat - os.base.toNat + fs.size.toNat =
      kernel.length + (fs.base.toNat - os.base.toNat - kernel.length) +
        (fsData.length + (fs.size.toNat - fsData.length)) := by omega
  have meet : os.base.toNat + (kernel.length + (fs.base.toNat - os.base.toNat - kernel.length)) =
      fs.base.toNat := by omega
  rw [flashedFirmware, split, load_append, load_append, meet, load_append, flashed, load_store,
    load_store_apart (by omega), load_store, load_store_apart (by omega),
    load_store_apart (by omega), load_store_apart (by omega), load_store_apart (by omega), load_const,
    load_const, List.append_assoc, List.append_assoc, List.append_assoc]

/-! ## The flash table is read back -/

/-- A layout as the device table has them: names are words, `os-image` lies in front of
`file-system`, and a partition that is split at build time is the only one with their names. -/
structure WellFormed (info : DeviceInfo) : Prop where
  words : ∀ p ∈ info.partitions, Plain p.name
  fixed : ∀ os fs, info.partitions.find? (fun p => p.name = ascii "os-image") = some os →
    info.partitions.find? (fun p => p.name = ascii "file-system") = some fs →
    os.base.toNat + os.size.toNat ≤ fs.base.toNat
  dynamic : ∀ front firmware back, findFirmware info.partitions = some (front, firmware, back) →
    firmware.base.toNat + firmware.size.toNat + 0x10000 ≤ 2 ^ 32 ∧
      ∀ p ∈ info.partitions, p.name ≠ ascii "os-image" ∧ p.name ≠ ascii "file-system"

theorem findFirmware_eq {partitions front back : List FlashPartitionEntry}
    {firmware : FlashPartitionEntry}
    (found : findFirmware partitions = some (front, firmware, back)) :
    partitions = front ++ firmware :: back := by
  induction partitions generalizing front with
  | nil => contradiction
  | cons p rest ih =>
      rw [findFirmware] at found
      cases later : findFirmware rest with
      | none =>
          rw [later] at found
          simp only at found
          split at found
          · cases found
            rfl
          · contradiction
      | some split =>
          obtain ⟨more, other, behind⟩ := split
          rw [later] at found
          cases found
          rw [ih later, List.cons_append]

theorem le_align (x : Nat) : x ≤ align x := by
  rw [align]
  omega

theorem align_le (x : Nat) : align x ≤ x + 0xffff := by
  rw [align]
  omega

theorem plain_osImage : Plain (ascii "os-image") := ⟨by decide, by decide, by decide⟩

theorem plain_fileSystem : Plain (ascii "file-system") := ⟨by decide, by decide, by decide⟩

/-- What the split leaves of a layout. -/
structure Divided (flashParts : List FlashPartitionEntry) : Prop where
  words : ∀ p ∈ flashParts, Plain p.name
  few : flashParts.length ≤ maxPartitions
  ordered : ∀ os fs, flashParts.find? (fun p => p.name = ascii "os-image") = some os →
    flashParts.find? (fun p => p.name = ascii "file-system") = some fs →
    os.base.toNat + os.size.toNat ≤ fs.base.toNat

theorem split_ordered {firmware : FlashPartitionEntry} {kernelSize : Nat}
    (fits : kernelSize ≤ firmware.size.toNat)
    (bounded : firmware.base.toNat + firmware.size.toNat + 0x10000 ≤ 2 ^ 32) :
    (osImagePartition firmware kernelSize).base.toNat +
        (osImagePartition firmware kernelSize).size.toNat ≤
      (fileSystemPartition firmware kernelSize).base.toNat := by
  have aligned := align_le (firmware.base.toNat + kernelSize)
  have above := le_align (firmware.base.toNat + kernelSize)
  rw [osImagePartition, fileSystemPartition]
  simp only [UInt32.toNat_ofNat']
  rw [Nat.mod_eq_of_lt (by omega), Nat.mod_eq_of_lt (by omega)]
  exact above

theorem find_skip (front back : List FlashPartitionEntry) (target : FlashPartitionEntry)
    (absent : ∀ p ∈ front, p.name ≠ name) (named : target.name = name) :
    (front ++ target :: back).find? (fun p => p.name = name) = some target := by
  rw [List.find?_append, List.find?_eq_none.mpr, Option.none_or, List.find?_cons_of_pos]
  · rw [decide_eq_true_iff]
    exact named
  · intro p member
    rw [decide_eq_true_iff]
    exact absent p member

theorem splitFirmware_divided (wellFormed : WellFormed info) {fileSystem : Option FlashPartitionEntry}
    {kernelSize : Nat}
    (divided : splitFirmware info.partitions kernelSize = some (flashParts, fileSystem)) :
    Divided flashParts := by
  rw [splitFirmware] at divided
  cases found : findFirmware info.partitions with
  | none =>
      rw [found] at divided
      cases divided
      exact ⟨wellFormed.words, info.fits, wellFormed.fixed⟩
  | some parts =>
      obtain ⟨front, firmware, back⟩ := parts
      rw [found] at divided
      simp only at divided
      split at divided
      · contradiction
      · rename_i fits
        cases divided
        have whole := findFirmware_eq found
        obtain ⟨bounded, unnamed⟩ := wellFormed.dynamic front firmware back found
        have length := congrArg List.length whole
        rw [List.length_append, List.length_cons] at length
        have inFront : ∀ p ∈ front, p ∈ info.partitions := by
          intro p member
          rw [whole]
          exact List.mem_append_left _ member
        have behind : ∀ p ∈ back, p ∈ info.partitions := by
          intro p member
          rw [whole]
          exact List.mem_append_right _ (List.mem_cons_of_mem _ member)
        constructor
        · intro p member
          rw [List.mem_append, List.mem_cons, List.mem_cons] at member
          rcases member with member | rfl | rfl | member
          · exact wellFormed.words p (inFront p member)
          · exact plain_osImage
          · exact plain_fileSystem
          · exact wellFormed.words p (behind p member)
        · rw [List.length_append, List.length_cons, List.length_cons]
          omega
        · intro os fs osFound fsFound
          have osIs := find_skip front (fileSystemPartition firmware kernelSize :: back)
            (osImagePartition firmware kernelSize) (fun p member => (unnamed p (inFront p member)).1) rfl
          have others : ∀ p ∈ front ++ [osImagePartition firmware kernelSize],
              p.name ≠ ascii "file-system" := by
            intro p member
            rcases List.mem_append.mp member with member | member
            · exact (unnamed p (inFront p member)).2
            · rw [List.mem_singleton.mp member]
              exact (show ascii "os-image" ≠ ascii "file-system" by decide)
          have fsIs := find_skip (front ++ [osImagePartition firmware kernelSize]) back
            (fileSystemPartition firmware kernelSize) others rfl
          rw [List.append_assoc, List.singleton_append] at fsIs
          rw [osIs] at osFound
          rw [fsIs] at fsFound
          cases osFound
          cases fsFound
          exact split_ordered (by omega) bounded

theorem ending_flash : Ending [] where
  noNewline := List.not_mem_nil
  stop := by
    intro tail
    exact ⟨0x0a, tail, rfl, by decide⟩

theorem printLines_flatten {room : Nat} {lines : List Text} {text : Text}
    (printed : printLines room lines = some text) : text = lines.flatten := by
  induction lines generalizing room text with
  | nil =>
      cases printed
      rfl
  | cons line rest ih =>
      rw [printLines] at printed
      split at printed
      · contradiction
      · obtain ⟨tail, later, rfl⟩ := Option.map_eq_some_iff.mp printed
        rw [ih later, List.flatten_cons]

/-- The text behind the header of the partition table. -/
theorem makePartitionTable_text {table : ImagePartitionEntry}
    (made : makePartitionTable flashParts = some table) :
    (flashParts.flatMap (entryLine (ascii "partition") [])).length ≤ 0x7fb ∧
      slice table.data 4 ((flashParts.flatMap (entryLine (ascii "partition") [])).length + 1) =
        flashParts.flatMap (entryLine (ascii "partition") []) ++ [0] := by
  obtain ⟨text, printed, made⟩ := Option.bind_eq_some_iff.mp made
  have short := printLines_length printed
  have whole : text = flashParts.flatMap (entryLine (ascii "partition") []) :=
    printLines_flatten printed
  cases made
  rw [← whole]
  refine ⟨short, ?_⟩
  have header : ([0x00, 0x04, 0x00, 0x00] : List UInt8).length = 4 := rfl
  rw [slice, ← header, List.drop_left, List.take_length_add_append, List.take_succ_cons,
    List.take_zero]

theorem find_map_readEntry (short : name.length < 31) :
    findPartition (flashParts.map readEntry) name =
      (flashParts.find? fun p => p.name = name).map readEntry := by
  have same (entry : FlashPartitionEntry) : ((readEntry entry).name = name) ↔ entry.name = name := by
    rw [readEntry]
    constructor
    · intro cut
      by_cases long : entry.name.length ≤ 31
      · rwa [List.take_of_length_le long] at cut
      · have length := congrArg List.length cut
        rw [List.length_take] at length
        omega
    · intro whole
      rw [whole, List.take_of_length_le (by omega)]
  rw [findPartition, List.find?_map]
  congr 2
  funext entry
  simp only [Function.comp, same]

/-- The flash partition table is read from the partition table's data, behind its header. -/
theorem read_flashTable (factory : Factory flashParts parts image) (divided : Divided flashParts)
    {table : ImagePartitionEntry} (made : makePartitionTable flashParts = some table)
    (placed : (table, 0x800) ∈ place 0x800 parts) (some' : flashParts ≠ [])
    (long : 0x2018 ≤ image.length) :
    readPartitionTable image (tableOffset + 0x800 + 4) maxPartitions (ascii "partition") =
      some (flashParts.map readEntry) := by
  have headerPlain : Plain (ascii "partition") := ⟨by decide, by decide, by decide⟩
  have stands := factory.holds.data _ placed
  obtain ⟨short, text⟩ := makePartitionTable_text made
  simp only at stands
  rw [← stands, slice_slice (by rw [makePartitionTable_length made]; omega)] at text
  exact readPartitionTable_table headerPlain ending_flash divided.words (by decide) some' divided.few
    text (by omega) (by rw [tableOffset]; omega)

theorem mem_place_append (front back : List ImagePartitionEntry) (part : ImagePartitionEntry)
    (base : Nat) :
    (part, base + (front.map fun part => part.data.length).sum) ∈ place base (front ++ part :: back) := by
  rw [place_append]
  exact List.mem_append_right _ List.mem_cons_self

theorem find_fwupTable (front back : List ImagePartitionEntry) (part : ImagePartitionEntry)
    (base : Nat) (absent : ∀ other ∈ front, other.name ≠ part.name) :
    findPartition (fwupTable base (front ++ part :: back)) part.name =
      some (fwupEntry (part, base + (front.map fun part => part.data.length).sum)) := by
  rw [fwupTable, place_append, List.map_append, place, List.map_cons]
  apply find_skip
  · intro entry member
    obtain ⟨other, present, same⟩ := fwupTable_name member
    rw [← same]
    exact absent other present
  · rfl

/-! ## The converter on a factory image -/

def osPart (kernel : List UInt8) : ImagePartitionEntry :=
  { name := ascii "os-image", data := kernel }

def fsPart (fsData : List UInt8) : ImagePartitionEntry :=
  { name := ascii "file-system", data := fsData }

/-- The parts of `build_image`, by the ones that the converter looks for. -/
structure Listed (flashParts : List FlashPartitionEntry) (parts front more : List ImagePartitionEntry)
    (kernel fsData : List UInt8) : Prop where
  whole : parts = front ++ osPart kernel :: fsPart fsData :: more
  tabled : ∃ table, makePartitionTable flashParts = some table ∧
    (table, 0x800) ∈ place 0x800 parts ∧
    findPartition (fwupTable 0x800 parts) (ascii "partition-table") = some (fwupEntry (table, 0x800))
  others : ∀ part ∈ front, part.name ≠ ascii "os-image" ∧ part.name ≠ ascii "file-system"
  named : ∀ part ∈ parts, part.name ∈ partNames
  few : parts.length ≤ 6
  size : 0x804 ≤ (parts.map fun part => part.data.length).sum
  present : fsData ≠ []

/-- Where the kernel and the file system are put into the image. -/
def osPlaced (front : List ImagePartitionEntry) (kernel : List UInt8) : ImagePartitionEntry × Nat :=
  (osPart kernel, 0x800 + (front.map fun part => part.data.length).sum)

def fsPlaced (front : List ImagePartitionEntry) (kernel fsData : List UInt8) :
    ImagePartitionEntry × Nat :=
  (fsPart fsData, 0x800 + ((front ++ [osPart kernel]).map fun part => part.data.length).sum)

variable {front more : List ImagePartitionEntry}

theorem Listed.osFound (listed : Listed flashParts parts front more kernel fsData) :
    findPartition (fwupTable 0x800 parts) (ascii "os-image") =
        some (fwupEntry (osPlaced front kernel)) ∧
      osPlaced front kernel ∈ place 0x800 parts := by
  rw [listed.whole]
  constructor
  · exact find_fwupTable front _ (osPart kernel) 0x800 fun other member =>
      (listed.others other member).1
  · exact mem_place_append front _ (osPart kernel) 0x800

theorem Listed.fsFound (listed : Listed flashParts parts front more kernel fsData) :
    findPartition (fwupTable 0x800 parts) (ascii "file-system") =
        some (fwupEntry (fsPlaced front kernel fsData)) ∧
      fsPlaced front kernel fsData ∈ place 0x800 parts := by
  have whole : parts = (front ++ [osPart kernel]) ++ fsPart fsData :: more := by
    rw [listed.whole, List.append_assoc, List.singleton_append]
  have others : ∀ part ∈ front ++ [osPart kernel], part.name ≠ ascii "file-system" := by
    intro other member
    rcases List.mem_append.mp member with member | member
    · exact (listed.others other member).2
    · rw [List.mem_singleton.mp member]
      exact (show ascii "os-image" ≠ ascii "file-system" by decide)
  rw [whole]
  constructor
  · exact find_fwupTable (front ++ [osPart kernel]) more (fsPart fsData) 0x800 others
  · exact mem_place_append (front ++ [osPart kernel]) more (fsPart fsData) 0x800

theorem writePartition_length {input : List UInt8} {offset : Nat} {entry : FlashPartitionEntry}
    (written : writePartition input offset entry = some data) : data.length = entry.size.toNat := by
  rw [writePartition_eq] at written
  obtain ⟨⟨taken, rest⟩, read, rfl⟩ := Option.map_eq_some_iff.mp written
  rw [fread] at read
  split at read
  · contradiction
  · cases read
    rw [List.length_take]
    omega

/-- The tables lead the converter to the parts and their flash partitions. -/
theorem convertFirmware_eq (factory : Factory flashParts parts image) (divided : Divided flashParts)
    (listed : Listed flashParts parts front more kernel fsData)
    (osTarget : flashParts.find? (fun p => p.name = ascii "os-image") = some os)
    (fsTarget : flashParts.find? (fun p => p.name = ascii "file-system") = some fs) :
    convertFirmware image =
      (writePartition image tableOffset (fwupEntry (osPlaced front kernel))).bind fun osData =>
        (writePartition image tableOffset (fwupEntry (fsPlaced front kernel fsData))).bind fun fsData' =>
          some (fwrite
            (fwrite
              (fwrite (fwrite [] 0 osData) osData.length
                (writeFf (os.size - UInt32.ofNat kernel.length).toNat))
              (fs.base - os.base).toNat fsData')
            ((fs.base - os.base).toNat + fsData'.length)
            (writeFf (fs.size - UInt32.ofNat fsData.length).toNat)) := by
  obtain ⟨table, made, placed, tableFound⟩ := listed.tabled
  have some' : parts ≠ [] := by
    rw [listed.whole]
    exact List.append_ne_nil_of_right_ne_nil _ (List.cons_ne_nil _ _)
  have flashSome : flashParts ≠ [] := by
    intro empty
    rw [empty] at osTarget
    contradiction
  have long : 0x2018 ≤ image.length := by
    have size := listed.size
    rw [factory.length, imageSize]
    omega
  have fwup := read_fwupTable factory some' listed.named
    (Nat.le_trans listed.few (show 6 ≤ maxPartitions by decide))
  have offset : tableOffset + (fwupEntry (table, 0x800)).base.toNat + 4 = tableOffset + 0x800 + 4 := rfl
  rw [convertFirmware]
  simp only [Option.bind_eq_bind, fwup, Option.bind_some, listed.osFound.1, listed.fsFound.1, tableFound,
    offset, read_flashTable factory divided made placed flashSome long,
    find_map_readEntry (show (ascii "os-image").length < 31 by decide),
    find_map_readEntry (show (ascii "file-system").length < 31 by decide), osTarget, fsTarget,
    Option.map_some]
  rfl

theorem replicate_ne {count : Nat} (positive : 0 < count) :
    List.replicate count (0 : UInt8) ≠ List.replicate count 0xff := by
  intro same
  cases count with
  | zero => exact Nat.lt_irrefl 0 positive
  | succ count =>
      rw [List.replicate_succ, List.replicate_succ] at same
      exact absurd (List.cons.inj same).1 (by decide)

/-- The converted file is the flash, exactly if the two partitions touch and both parts are found. -/
theorem convert_factory_iff (factory : Factory flashParts parts image) (divided : Divided flashParts)
    (listed : Listed flashParts parts front more kernel fsData)
    (osTarget : flashParts.find? (fun p => p.name = ascii "os-image") = some os)
    (fsTarget : flashParts.find? (fun p => p.name = ascii "file-system") = some fs) :
    convertFirmware image = some (flashedFirmware os fs kernel fsData) ↔
      os.base.toNat + os.size.toNat = fs.base.toNat ∧
        FoundAtBase image (osPlaced front kernel) ∧
        FoundAtBase image (fsPlaced front kernel fsData) := by
  have ordered := divided.ordered os fs osTarget fsTarget
  obtain ⟨osFound, osMember⟩ := listed.osFound
  obtain ⟨fsFound, fsMember⟩ := listed.fsFound
  have kernelFits : kernel.length ≤ os.size.toNat := by
    obtain ⟨target, found, fits⟩ := factory.fits (osPart kernel) (mem_of_mem_place osMember)
    rw [show (osPart kernel).name = ascii "os-image" from rfl, osTarget] at found
    cases found
    exact fits
  have rootfsFits : fsData.length ≤ fs.size.toNat := by
    obtain ⟨target, found, fits⟩ := factory.fits (fsPart fsData) (mem_of_mem_place fsMember)
    rw [show (fsPart fsData).name = ascii "file-system" from rfl, fsTarget] at found
    cases found
    exact fits
  have osFoundIff := write_fwupEntry_iff factory osMember
  have fsFoundIff := write_fwupEntry_iff factory fsMember
  have osSize : (fwupEntry (osPlaced front kernel)).size.toNat = kernel.length :=
    (UInt32.toNat_ofNat' ..).trans (Nat.mod_eq_of_lt (factory.part_small (mem_of_mem_place osMember)))
  have fsSize : (fwupEntry (fsPlaced front kernel fsData)).size.toNat = fsData.length :=
    (UInt32.toNat_ofNat' ..).trans (Nat.mod_eq_of_lt (factory.part_small (mem_of_mem_place fsMember)))
  rw [convertFirmware_eq factory divided listed osTarget fsTarget, ← osFoundIff, ← fsFoundIff,
    flashedFirmware_eq kernelFits rootfsFits ordered]
  cases osWritten : writePartition image tableOffset (fwupEntry (osPlaced front kernel)) with
  | none => simp
  | some osData =>
      cases fsWritten : writePartition image tableOffset (fwupEntry (fsPlaced front kernel fsData)) with
      | none => simp
      | some fsRead =>
          have osLength : osData.length = kernel.length := (writePartition_length osWritten).trans osSize
          have fsLength : fsRead.length = fsData.length := (writePartition_length fsWritten).trans fsSize
          have some' : fsRead ≠ [] := by
            intro empty
            rw [empty, List.length_nil] at fsLength
            exact listed.present (List.length_eq_zero_iff.mp fsLength.symm)
          rw [Option.bind_some, Option.bind_some, ← osLength, ← fsLength,
            converted_eq (by omega) (by omega) some' ordered]
          have gap : fs.base.toNat - os.base.toNat - osData.length =
              (os.size.toNat - osData.length) + (fs.base.toNat - os.base.toNat - os.size.toNat) := by omega
          rw [gap, List.replicate_add, ← List.append_assoc, Option.some.injEq, Option.some.injEq,
            Option.some.injEq, List.append_cancel_right_eq]
          generalize fs.base.toNat - os.base.toNat - os.size.toNat = hole at gap
          constructor
          · intro same
            obtain ⟨before, fsSame⟩ := List.append_inj' same fsLength
            rw [List.append_assoc, List.append_assoc] at before
            obtain ⟨osSame, padding⟩ := List.append_inj before osLength
            have closed : hole = 0 := by
              by_contra open'
              exact replicate_ne (Nat.pos_of_ne_zero open') (List.append_cancel_left padding)
            exact ⟨by omega, osSame, fsSame⟩
          · intro both
            obtain ⟨touching, osSame, fsSame⟩ := both
            have closed : hole = 0 := by omega
            rw [closed, List.replicate_zero, List.replicate_zero, osSame, fsSame]
            rfl

theorem makeSoftVersion_length : 8 ≤ (makeSoftVersion info tm).data.length := by
  have meta' (name : Text) (data : List UInt8) (pad : Option UInt8) :
      8 ≤ (initMetaPartitionEntry name data pad).data.length := by
    rw [initMetaPartitionEntry]
    simp only [List.length_append, be32_length]
    omega
  rw [makeSoftVersion]
  split
  · exact meta' _ _ _
  · exact meta' _ _ _

theorem readFile_ne_nil {fileSystem : Option FlashPartitionEntry} {part : ImagePartitionEntry}
    (read : readFile name rootfs addJffs2Eof fileSystem = some part) : part.data ≠ [] := by
  obtain ⟨_, present, read⟩ := Option.bind_eq_some_iff.mp read
  rw [require_eq_some, decide_eq_true_iff] at present
  split at read
  · cases read
    exact List.append_ne_nil_of_left_ne_nil (List.append_ne_nil_of_left_ne_nil present _) _
  · cases read
    exact present

theorem imageParts_listed
    (listed : imageParts info tm kernel rootfs addJffs2Eof = some (flashParts, parts)) :
    ∃ front more fsData, Listed flashParts parts front more kernel fsData := by
  obtain ⟨-, few, named⟩ := imageParts_names listed
  obtain ⟨fileSystem, table, fsData, -, made, read, -, rfl⟩ := imageParts_cases listed
  have tableName := makePartitionTable_name made
  refine ⟨[table, makeSoftVersion info tm, makeSupportList info],
    ((extraPara info.id).map (makeExtraPara info)).toList, fsData, ?_⟩
  constructor
  · rfl
  · refine ⟨table, made, List.mem_cons_self, ?_⟩
    have found := find_fwupTable [] ([makeSoftVersion info tm, makeSupportList info, osPart kernel,
      fsPart fsData] ++ ((extraPara info.id).map (makeExtraPara info)).toList) table 0x800
      fun other member => absurd member List.not_mem_nil
    rw [tableName] at found
    exact found
  · intro part member
    simp only [List.mem_cons, List.not_mem_nil, or_false] at member
    rcases member with rfl | rfl | rfl
    · rw [tableName]
      decide
    · rw [makeSoftVersion_name]
      decide
    · exact (show ascii "support-list" ≠ ascii "os-image" ∧ ascii "support-list" ≠ ascii "file-system" by
        decide)
  · exact named
  · exact few
  · have tableLength := makePartitionTable_length made
    have version : 8 ≤ (makeSoftVersion info tm).data.length := makeSoftVersion_length
    simp only [List.map_append, List.map_cons, List.sum_append, List.sum_cons]
    omega
  · exact readFile_ne_nil read

theorem imageParts_divided (wellFormed : WellFormed info)
    (listed : imageParts info tm kernel rootfs addJffs2Eof = some (flashParts, parts)) :
    Divided flashParts := by
  obtain ⟨fileSystem, table, fsData, divided, -⟩ := imageParts_cases listed
  exact splitFirmware_divided wellFormed divided

/-- What the converter makes of a factory image is the content of the flash, from the kernel
partition to the end of the file system partition, exactly if these partitions touch and both parts
are found at the bases that the image's table has room for. -/
theorem convertFirmware_iff (wellFormed : WellFormed info)
    (built : buildImage md5 info tm kernel rootfs addJffs2Eof = some image) :
    ∃ flashParts front more fsData os fs,
      imageParts info tm kernel rootfs addJffs2Eof =
        some (flashParts, front ++ osPart kernel :: fsPart fsData :: more) ∧
      flashParts.find? (fun p => p.name = ascii "os-image") = some os ∧
      flashParts.find? (fun p => p.name = ascii "file-system") = some fs ∧
      (convertFirmware image = some (flashedFirmware os fs kernel fsData) ↔
        os.base.toNat + os.size.toNat = fs.base.toNat ∧
          FoundAtBase image (osPlaced front kernel) ∧
          FoundAtBase image (fsPlaced front kernel fsData)) := by
  rw [buildImage] at built
  obtain ⟨⟨flashParts, parts⟩, listed, built⟩ := Option.bind_eq_some_iff.mp built
  have factory := generateFactoryImage_spec built
  obtain ⟨front, more, fsData, known⟩ := imageParts_listed listed
  obtain ⟨os, osTarget, -⟩ := factory.fits (osPart kernel) (mem_of_mem_place known.osFound.2)
  obtain ⟨fs, fsTarget, -⟩ := factory.fits (fsPart fsData) (mem_of_mem_place known.fsFound.2)
  have converted := convert_factory_iff factory (imageParts_divided wellFormed listed) known osTarget
    fsTarget
  rw [known.whole] at listed
  exact ⟨flashParts, front, more, fsData, os, fs, listed, osTarget, fsTarget, converted⟩

theorem eap245V3_wellFormed : WellFormed eap245V3 where
  words := by
    have all : ∀ p ∈ eap245V3.partitions, 0x20 ∉ p.name ∧ 0x0a ∉ p.name ∧ 0 ∉ p.name := by decide
    intro p member
    obtain ⟨noBlank, noNewline, noNul⟩ := all p member
    exact ⟨noBlank, noNewline, noNul⟩
  fixed := by
    have none : eap245V3.partitions.find? (fun p => p.name = ascii "os-image") = none := by decide
    intro os fs found
    rw [none] at found
    contradiction
  dynamic := by
    have split : findFirmware eap245V3.partitions =
        some (eap245V3.partitions.take 9, eap245V3Firmware, eap245V3.partitions.drop 10) := by decide
    intro front firmware back found
    rw [split] at found
    cases found
    exact ⟨by decide, by decide⟩

/-- A kernel that fills one erase block. -/
theorem convertFirmware_iff_aligned :
    ∃ image flashParts front more fsData os fs,
      buildImage (fun _ => ⟨List.replicate 16 0, List.length_replicate⟩) eap245V3 ⟨120, 0, 1⟩
        (List.replicate 0x10000 0) [2] false = some image ∧
      imageParts eap245V3 ⟨120, 0, 1⟩ (List.replicate 0x10000 0) [2] false =
        some (flashParts, front ++ osPart (List.replicate 0x10000 0) :: fsPart fsData :: more) ∧
      flashParts.find? (fun p => p.name = ascii "os-image") = some os ∧
      flashParts.find? (fun p => p.name = ascii "file-system") = some fs ∧
      convertFirmware image = some (flashedFirmware os fs (List.replicate 0x10000 0) fsData) := by
  have general : ∀ kernel : List UInt8, kernel.length = 0x10000 →
      ∃ image flashParts front more fsData os fs,
        buildImage (fun _ => ⟨List.replicate 16 0, List.length_replicate⟩) eap245V3 ⟨120, 0, 1⟩ kernel
          [2] false = some image ∧
        imageParts eap245V3 ⟨120, 0, 1⟩ kernel [2] false =
          some (flashParts, front ++ osPart kernel :: fsPart fsData :: more) ∧
        flashParts.find? (fun p => p.name = ascii "os-image") = some os ∧
        flashParts.find? (fun p => p.name = ascii "file-system") = some fs ∧
        convertFirmware image = some (flashedFirmware os fs kernel fsData) := by
    intro kernel kernelLength
    obtain ⟨table, tabled⟩ := Option.isSome_iff_exists.mp
      (show (makePartitionTable (eap245V3Flash 0x10000)).isSome = true by decide)
    rw [← kernelLength] at tabled
    have kernelFits : kernel.length ≤ 0xe40000 := by omega
    have rootfsFits : [(2 : UInt8)].length ≤
        (fileSystemPartition eap245V3Firmware kernel.length).size.toNat := by
      rw [kernelLength]
      decide
    have listed : imageParts eap245V3 ⟨120, 0, 1⟩ kernel [2] false =
        some (eap245V3Flash kernel.length, eap245V3Parts table ⟨120, 0, 1⟩ kernel [2]) :=
      eap245V3_listed kernelFits tabled (List.ne_nil_of_length_pos (by omega)) (by decide)
    obtain ⟨image, factory⟩ : ∃ image,
        generateFactoryImage (fun _ => ⟨List.replicate 16 0, List.length_replicate⟩) eap245V3.vendor
          (eap245V3Flash kernel.length) (eap245V3Parts table ⟨120, 0, 1⟩ kernel [2]) = some image :=
      eap245V3_built kernelFits tabled rootfsFits
    have built := buildImage_of_listed listed factory
    obtain ⟨flashParts, front, more, fsData, os, fs, known, osFound, fsFound, converted⟩ :=
      convertFirmware_iff eap245V3_wellFormed built
    refine ⟨image, flashParts, front, more, fsData, os, fs, built, known, osFound, fsFound, ?_⟩
    have same := Option.some.inj (listed.symm.trans known)
    have partsSame := congrArg Prod.snd same
    have flashSame : eap245V3Flash kernel.length = flashParts := congrArg Prod.fst same
    rw [← flashSame, kernelLength] at osFound fsFound
    have osIs : os = osImagePartition eap245V3Firmware 0x10000 := (Option.some.inj osFound).symm
    have fsIs : fs = fileSystemPartition eap245V3Firmware 0x10000 := (Option.some.inj fsFound).symm
    have total := congrArg (fun parts => (parts.map fun part => part.data.length).sum) partsSame
    have tableLength := makePartitionTable_length tabled
    have version : (makeSoftVersion eap245V3 ⟨120, 0, 1⟩).data.length = 24 := rfl
    have support : (makeSupportList eap245V3).data.length = 55 := rfl
    have extra : (makeExtraPara eap245V3 [0x01, 0x01]).data.length = 10 := rfl
    simp only [eap245V3Parts, List.map_append, List.map_cons, List.map_nil, List.sum_append,
      List.sum_cons, List.sum_nil, tableLength, version, support, extra, kernelLength,
      List.length_cons, List.length_nil] at total
    apply converted.mpr
    rw [osIs, fsIs]
    refine ⟨by decide, Or.inl ?_, Or.inl ?_⟩
    · rw [osPlaced]
      simp only
      omega
    · rw [fsPlaced]
      simp only [List.map_append, List.map_cons, List.map_nil, List.sum_append, List.sum_cons,
        List.sum_nil]
      omega
  exact general _ List.length_replicate

/-- A kernel of one byte: from it to the next erase block the converter leaves a hole in its file. -/
theorem hole_converted :
    ¬ ∀ md5 info tm kernel rootfs addJffs2Eof image flashParts front more fsData os fs,
      WellFormed info →
      buildImage md5 info tm kernel rootfs addJffs2Eof = some image →
      imageParts info tm kernel rootfs addJffs2Eof =
        some (flashParts, front ++ osPart kernel :: fsPart fsData :: more) →
      flashParts.find? (fun p => p.name = ascii "os-image") = some os →
      flashParts.find? (fun p => p.name = ascii "file-system") = some fs →
      convertFirmware image = some (flashedFirmware os fs kernel fsData) := by
  intro agrees
  obtain ⟨table, tabled⟩ := Option.isSome_iff_exists.mp
    (show (makePartitionTable (eap245V3Flash [(1 : UInt8)].length)).isSome = true by decide)
  have listed : imageParts eap245V3 ⟨120, 0, 1⟩ [1] [2] false =
      some (eap245V3Flash [(1 : UInt8)].length, eap245V3Parts table ⟨120, 0, 1⟩ [1] [2]) :=
    eap245V3_listed (by decide) tabled (by decide) (by decide)
  have rootfsFits : [(2 : UInt8)].length ≤
      (fileSystemPartition eap245V3Firmware [(1 : UInt8)].length).size.toNat := by decide
  obtain ⟨image, factory⟩ : ∃ image,
      generateFactoryImage (fun _ => ⟨List.replicate 16 0, List.length_replicate⟩) eap245V3.vendor
        (eap245V3Flash [(1 : UInt8)].length) (eap245V3Parts table ⟨120, 0, 1⟩ [1] [2]) = some image :=
    eap245V3_built (by decide) tabled rootfsFits
  obtain ⟨front, more, fsData, known⟩ := imageParts_listed listed
  have osFound : (eap245V3Flash [(1 : UInt8)].length).find? (fun p => p.name = ascii "os-image") =
      some (osImagePartition eap245V3Firmware 1) := rfl
  have fsFound : (eap245V3Flash [(1 : UInt8)].length).find? (fun p => p.name = ascii "file-system") =
      some (fileSystemPartition eap245V3Firmware 1) := rfl
  have spec := generateFactoryImage_spec factory
  have converted := (convert_factory_iff spec (imageParts_divided eap245V3_wellFormed listed) known
    osFound fsFound).mp (agrees _ _ _ _ _ _ _ _ _ _ _ _ _ eap245V3_wellFormed
      (buildImage_of_listed listed factory) (known.whole ▸ listed) osFound fsFound)
  exact absurd converted.1 (by decide)

end Rut9xx.Safeloader
