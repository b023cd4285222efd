import Rut9xx.Safeloader.Layout

namespace Rut9xx.Safeloader

open Data

/-! # Extracting a factory image -/

variable {md5 : List UInt8 → Md5Sum} {info : DeviceInfo} {tm : Tm} {kernel rootfs : List UInt8}
  {addJffs2Eof : Bool} {flashParts : List FlashPartitionEntry} {parts : List ImagePartitionEntry}
  {image stream data : List UInt8} {base count more : Nat}

/-! ## The parts that are put in -/

/-- The parts of `build_image` behind a split of the firmware partition. -/
def partsBehind (info : DeviceInfo) (tm : Tm) (kernel rootfs : List UInt8) (addJffs2Eof : Bool)
    (split : List FlashPartitionEntry × Option FlashPartitionEntry) :
    Option (List FlashPartitionEntry × List ImagePartitionEntry) := do
  let table ← makePartitionTable split.1
  let osImage ← readFile (ascii "os-image") kernel false none
  let fileSystem ← readFile (ascii "file-system") rootfs addJffs2Eof split.2
  some (split.1, [table, makeSoftVersion info tm, makeSupportList info, osImage, fileSystem] ++
    ((extraPara info.id).map (makeExtraPara info)).toList)

theorem imageParts_eq :
    imageParts info tm kernel rootfs addJffs2Eof =
      (splitFirmware info.partitions kernel.length).bind
        (partsBehind info tm kernel rootfs addJffs2Eof) :=
  rfl

/-- The partition table, the kernel and the root file system are where they are named. -/
theorem partsBehind_cases
    {split : List FlashPartitionEntry × Option FlashPartitionEntry}
    (listed : partsBehind info tm kernel rootfs addJffs2Eof split = some (flashParts, parts)) :
    ∃ table fileData, split.1 = flashParts ∧ makePartitionTable flashParts = some table ∧
      readFile (ascii "file-system") rootfs addJffs2Eof split.2 =
        some { name := ascii "file-system", data := fileData } ∧
      kernel ≠ [] ∧
      parts = [table, makeSoftVersion info tm, makeSupportList info,
          { name := ascii "os-image", data := kernel },
          { name := ascii "file-system", data := fileData }] ++
        ((extraPara info.id).map (makeExtraPara info)).toList := by
  rw [partsBehind] at listed
  obtain ⟨table, tabled, listed⟩ := Option.bind_eq_some_iff.mp listed
  obtain ⟨osImage, kernelRead, listed⟩ := Option.bind_eq_some_iff.mp listed
  obtain ⟨⟨name, fileData⟩, rootfsRead, listed⟩ := Option.bind_eq_some_iff.mp listed
  cases listed
  obtain ⟨_, present, kernelRead⟩ := Option.bind_eq_some_iff.mp kernelRead
  rw [require_eq_some, decide_eq_true_iff] at present
  cases kernelRead
  have named : name = ascii "file-system" := by
    obtain ⟨_, -, rootfsData⟩ := Option.bind_eq_some_iff.mp rootfsRead
    split at rootfsData
    · cases rootfsData
      rfl
    · cases rootfsData
      rfl
  subst named
  exact ⟨table, fileData, rfl, tabled, rootfsRead, present, rfl⟩

theorem imageParts_cases
    (listed : imageParts info tm kernel rootfs addJffs2Eof = some (flashParts, parts)) :
    ∃ fileSystem table fileData, splitFirmware info.partitions kernel.length =
        some (flashParts, fileSystem) ∧
      makePartitionTable flashParts = some table ∧
      readFile (ascii "file-system") rootfs addJffs2Eof fileSystem =
        some { name := ascii "file-system", data := fileData } ∧
      kernel ≠ [] ∧
      parts = [table, makeSoftVersion info tm, makeSupportList info,
          { name := ascii "os-image", data := kernel },
          { name := ascii "file-system", data := fileData }] ++
        ((extraPara info.id).map (makeExtraPara info)).toList := by
  rw [imageParts_eq] at listed
  obtain ⟨⟨split, fileSystem⟩, divided, listed⟩ := Option.bind_eq_some_iff.mp listed
  obtain ⟨table, fileData, same, tabled, rootfsRead, present, whole⟩ := partsBehind_cases listed
  cases same
  exact ⟨fileSystem, table, fileData, divided, tabled, rootfsRead, present, whole⟩

def partNames : List Text :=
  [ascii "partition-table", ascii "soft-version", ascii "support-list", ascii "os-image",
    ascii "file-system", ascii "extra-para"]

theorem makePartitionTable_name {table : ImagePartitionEntry}
    (made : makePartitionTable flashParts = some table) : table.name = ascii "partition-table" := by
  obtain ⟨text, -, made⟩ := Option.bind_eq_some_iff.mp made
  cases made
  rfl

theorem makeSoftVersion_name : (makeSoftVersion info tm).name = ascii "soft-version" := by
  rw [makeSoftVersion]
  split
  · rfl
  · rfl

theorem imageParts_names
    (listed : imageParts info tm kernel rootfs addJffs2Eof = some (flashParts, parts)) :
    parts ≠ [] ∧ parts.length ≤ 6 ∧ ∀ part ∈ parts, part.name ∈ partNames := by
  obtain ⟨fileSystem, table, fileData, -, tabled, -, -, rfl⟩ := imageParts_cases listed
  have extra : ((extraPara info.id).map (makeExtraPara info)).toList.length ≤ 1 := by
    cases extraPara info.id with
    | none => exact Nat.zero_le 1
    | some extra => exact Nat.le_refl 1
  refine ⟨List.cons_ne_nil _ _, ?_, ?_⟩
  · rw [List.length_append]
    simp only [List.length_cons, List.length_nil]
    omega
  · intro part member
    rw [List.mem_append] at member
    rcases member with member | member
    · simp only [List.mem_cons, List.not_mem_nil, or_false] at member
      rcases member with rfl | rfl | rfl | rfl | rfl
      · rw [makePartitionTable_name tabled]
        decide
      · rw [makeSoftVersion_name]
        decide
      · exact (show ascii "support-list" ∈ partNames by decide)
      · exact (show ascii "os-image" ∈ partNames by decide)
      · exact (show ascii "file-system" ∈ partNames by decide)
    · rw [Option.mem_toList, Option.map_eq_some_iff] at member
      obtain ⟨extra, -, rfl⟩ := member
      exact (show ascii "extra-para" ∈ partNames by decide)

theorem plain_partNames {name : Text} (member : name ∈ partNames) :
    Plain name ∧ name.take 31 = name := by
  have all : ∀ name ∈ partNames,
      (0x20 ∉ name ∧ 0x0a ∉ name ∧ 0 ∉ name) ∧ name.take 31 = name := by decide
  obtain ⟨⟨noBlank, noNewline, noNul⟩, short⟩ := all name member
  exact ⟨⟨noBlank, noNewline, noNul⟩, short⟩

/-! ## The table is read back -/

theorem ending_fwup : Ending fwupEnding where
  noNewline := by decide
  stop := by
    intro tail
    exact ⟨0x09, 0x0d :: 0x0a :: tail, rfl, by decide⟩

theorem map_readEntry_fwupTable (base : Nat)
    (short : ∀ part ∈ parts, part.name.take 31 = part.name) :
    (fwupTable base parts).map readEntry = fwupTable base parts := by
  induction parts generalizing base with
  | nil => rfl
  | cons part rest ih =>
      have head := short part List.mem_cons_self
      have tail := ih (base + part.data.length)
        (fun other member => short other (List.mem_cons_of_mem part member))
      rw [fwupTable] at tail
      rw [fwupTable, place, List.map_cons, List.map_cons, tail, readEntry, fwupEntry]
      simp only [head]

theorem fwupTable_length (base : Nat) (parts : List ImagePartitionEntry) :
    (fwupTable base parts).length = parts.length := by
  induction parts generalizing base with
  | nil => rfl
  | cons part rest ih =>
      have tail := ih (base + part.data.length)
      rw [fwupTable] at tail
      rw [fwupTable, place, List.map_cons, List.length_cons, List.length_cons, tail]

theorem fwupTable_name {entry : FlashPartitionEntry} (member : entry ∈ fwupTable base parts) :
    ∃ part ∈ parts, part.name = entry.name := by
  induction parts generalizing base with
  | nil => exact absurd member List.not_mem_nil
  | cons part rest ih =>
      rw [fwupTable, place, List.map_cons, List.mem_cons] at member
      rcases member with same | member
      · exact ⟨part, List.mem_cons_self, same ▸ rfl⟩
      · obtain ⟨other, later, named⟩ := ih member
        exact ⟨other, List.mem_cons_of_mem part later, named⟩

theorem tableOffset_room (factory : Factory flashParts parts image) :
    tableOffset + 2048 ≤ image.length := by
  rw [factory.length, imageSize, tableOffset]
  omega

theorem read_fwupTable (factory : Factory flashParts parts image) (some' : parts ≠ [])
    (named : ∀ part ∈ parts, part.name ∈ partNames) {maxEntries : Nat}
    (room : parts.length ≤ maxEntries) :
    readPartitionTable image tableOffset maxEntries (ascii "fwup-ptn") =
      some (fwupTable 0x800 parts) := by
  have headerPlain : Plain (ascii "fwup-ptn") := ⟨by decide, by decide, by decide⟩
  have plain : ∀ entry ∈ fwupTable 0x800 parts, Plain entry.name := by
    intro entry member
    obtain ⟨part, member, same⟩ := fwupTable_name member
    exact same ▸ (plain_partNames (named part member)).1
  have tableSome : fwupTable 0x800 parts ≠ [] := by
    intro empty
    have length := fwupTable_length 0x800 parts
    rw [empty] at length
    exact some' (List.length_eq_zero_iff.mp length.symm)
  have length : (fwupText 0x800 parts).length < 2048 := by
    have inside := factory.holds.room some'
    omega
  have read := readPartitionTable_table headerPlain ending_fwup plain (by decide) tableSome
    ((fwupTable_length 0x800 parts).trans_le room) (factory.holds.text some') length (tableOffset_room factory)
  rwa [map_readEntry_fwupTable 0x800 fun part member => (plain_partNames (named part member)).2] at read

/-! ## The data is copied out -/

/-- Two reads in a row are one. -/
theorem fread_add (stream : List UInt8) (count more : Nat) :
    (fread stream count).bind (fun first =>
        (fread first.2 more).map fun second => (first.1 ++ second.1, second.2)) =
      fread stream (count + more) := by
  by_cases short : stream.length < count
  · rw [fread, if_pos short, fread, if_pos (by omega)]
    rfl
  · rw [fread, if_neg short, Option.bind_some]
    simp only [fread, List.length_drop]
    by_cases end' : stream.length - count < more
    · rw [if_pos end', if_pos (by omega)]
      rfl
    · rw [if_neg end', if_neg (by omega), Option.map_some, List.drop_drop, List.take_add]

theorem fread_zero : fread stream 0 = some ([], stream) := by
  rw [fread, if_neg (Nat.not_lt_zero _), List.take_zero, List.drop_zero]

theorem copyBlocks_eq (blocks : Nat) : copyBlocks blocks stream = fread stream (4096 * blocks) := by
  induction blocks generalizing stream with
  | zero => exact fread_zero.symm
  | succ blocks ih =>
      rw [copyBlocks, Nat.mul_succ, Nat.add_comm (4096 * blocks), ← fread_add]
      simp only [ih]

/-- The blocks and the rest make up one read of the partition. -/
theorem writePartition_eq (input : List UInt8) (offset : Nat) (entry : FlashPartitionEntry) :
    writePartition input offset entry =
      (fread (input.drop (entry.base.toNat + offset)) entry.size.toNat).map Prod.fst := by
  have whole := Nat.div_add_mod entry.size.toNat 4096
  rw [writePartition]
  simp only [copyBlocks_eq]
  by_cases even : entry.size.toNat % 4096 = 0
  · simp only [if_pos even]
    rw [even, Nat.add_zero] at whole
    rw [whole, Option.map_eq_bind]
    rfl
  · have together := fread_add (input.drop (entry.base.toNat + offset))
      (4096 * (entry.size.toNat / 4096)) (entry.size.toNat % 4096)
    rw [whole] at together
    rw [← together]
    simp only [if_neg even]
    cases fread (input.drop (entry.base.toNat + offset)) (4096 * (entry.size.toNat / 4096)) with
    | none => rfl
    | some first =>
        rw [Option.bind_some, Option.bind_some, Option.map_map]
        rfl

theorem writePartition_eq_some_iff {input : List UInt8} {offset : Nat}
    {entry : FlashPartitionEntry} (sized : data.length = entry.size.toNat) :
    writePartition input offset entry = some data ↔
      slice input (offset + entry.base.toNat) data.length = data := by
  rw [writePartition_eq, fread, Nat.add_comm offset, sized]
  by_cases short : (input.drop (entry.base.toNat + offset)).length < entry.size.toNat
  · rw [if_pos short]
    constructor
    · intro impossible
      cases impossible
    · intro same
      have length := congrArg List.length same
      rw [slice, List.length_take, sized] at length
      omega
  · rw [if_neg short, Option.map_some, Option.some.injEq, slice]

/-! ## The round trip -/

/-- A part is found at the base that the table has for it, which is cut to 32 bits. -/
def FoundAtBase (image : List UInt8) (placed : ImagePartitionEntry × Nat) : Prop :=
  placed.2 < 2 ^ 32 ∨
    slice image (tableOffset + placed.2 % 2 ^ 32) placed.1.data.length = placed.1.data

theorem Factory.part_small (factory : Factory flashParts parts image) {part : ImagePartitionEntry}
    (member : part ∈ parts) : part.data.length < 2 ^ 32 := by
  obtain ⟨flashPart, -, fits⟩ := factory.fits part member
  exact Nat.lt_of_le_of_lt fits flashPart.size.toNat_lt

theorem mem_of_mem_place {placed : ImagePartitionEntry × Nat} (member : placed ∈ place base parts) :
    placed.1 ∈ parts := by
  induction parts generalizing base with
  | nil => exact absurd member List.not_mem_nil
  | cons part rest ih =>
      rw [place, List.mem_cons] at member
      rcases member with same | member
      · rw [same]
        exact List.mem_cons_self
      · exact List.mem_cons_of_mem part (ih member)

/-- What is copied for a table entry is the part exactly when it is found there. -/
theorem write_fwupEntry_iff (factory : Factory flashParts parts image)
    {placed : ImagePartitionEntry × Nat} (member : placed ∈ place 0x800 parts) :
    writePartition image tableOffset (fwupEntry placed) = some placed.1.data ↔
      FoundAtBase image placed := by
  have small := factory.part_small (mem_of_mem_place member)
  have stands := factory.holds.data placed member
  have sized : placed.1.data.length = (fwupEntry placed).size.toNat := by
    rw [fwupEntry, UInt32.toNat_ofNat', Nat.mod_eq_of_lt small]
  rw [writePartition_eq_some_iff sized, fwupEntry, UInt32.toNat_ofNat', FoundAtBase]
  constructor
  · intro found
    exact Or.inr found
  · intro found
    rcases found with low | found
    · rw [Nat.mod_eq_of_lt low]
      exact stands
    · exact found

theorem map_place (base : Nat) {β : Type} (g : ImagePartitionEntry → β) :
    (place base parts).map (fun placed => g placed.1) = parts.map g := by
  induction parts generalizing base with
  | nil => rfl
  | cons part rest ih => rw [place, List.map_cons, List.map_cons, ih]

theorem extract_factory_iff (factory : Factory flashParts parts image) (some' : parts ≠ [])
    (few : parts.length ≤ 6) (named : ∀ part ∈ parts, part.name ∈ partNames) :
    extractFirmware image = some (parts.map fun part => (part.name, part.data)) ↔
      ∀ placed ∈ place 0x800 parts, FoundAtBase image placed := by
  rw [extractFirmware, read_fwupTable factory some' named (Nat.le_trans few (by decide)),
    Option.bind_some, fwupTable, List.mapM_map,
    ← map_place 0x800 fun part => (part.name, part.data), mapM_eq_some_iff]
  apply forall_congr'
  intro placed
  apply forall_congr'
  intro member
  rw [← write_fwupEntry_iff factory member]
  simp only [Function.comp, fwupEntry, Option.map_eq_some_iff, Prod.mk.injEq, true_and,
    exists_eq_right]

/-! ## A device -/

/-- The layout of the EAP245 v3. -/
def eap245V3 : DeviceInfo where
  id := ['E', 'A', 'P', '2', '4', '5', '-', 'V', '3']
  vendor := none
  supportList := ascii "SupportList:" ++ [0x0d, 0x0a] ++ ascii "EAP245(TP-Link|UN|AC1750-D):3.0" ++
    [0x0d, 0x0a]
  partTrail := none
  softVer := none
  softVerCompatLevel := 1
  partitions :=
    [⟨ascii "factroy-boot", 0x00000, 0x40000⟩, ⟨ascii "fs-uboot", 0x40000, 0x40000⟩,
      ⟨ascii "partition-table", 0x80000, 0x10000⟩, ⟨ascii "default-mac", 0x90000, 0x01000⟩,
      ⟨ascii "support-list", 0x91000, 0x00100⟩, ⟨ascii "product-info", 0x91100, 0x00400⟩,
      ⟨ascii "soft-version", 0x92000, 0x00100⟩, ⟨ascii "radio", 0xa0000, 0x10000⟩,
      ⟨ascii "extra-para", 0xb0000, 0x10000⟩, ⟨ascii "firmware", 0xc0000, 0xe40000⟩,
      ⟨ascii "config", 0xf00000, 0x30000⟩, ⟨ascii "mutil-log", 0xf30000, 0x80000⟩,
      ⟨ascii "oops", 0xfb0000, 0x40000⟩]
  fits := by decide

theorem printLines_length {room : Nat} {lines : List Text} {text : Text}
    (printed : printLines room lines = some text) : text.length ≤ room - 1 := by
  induction lines generalizing room text with
  | nil =>
      cases printed
      exact Nat.zero_le _
  | cons line rest ih =>
      rw [printLines] at printed
      split at printed
      · contradiction
      · obtain ⟨tail, later, rfl⟩ := Option.map_eq_some_iff.mp printed
        have short := ih later
        rw [List.length_append]
        omega

theorem makePartitionTable_length {table : ImagePartitionEntry}
    (made : makePartitionTable flashParts = some table) : table.data.length = 0x800 := by
  obtain ⟨text, printed, made⟩ := Option.bind_eq_some_iff.mp made
  have short := printLines_length printed
  cases made
  simp only [List.length_append, List.length_cons, List.length_nil, List.length_replicate]
  omega

theorem slice_replicate {value : UInt8} {total start : Nat} (within : start + count ≤ total) :
    slice (List.replicate total value) start count = List.replicate count value := by
  rw [slice, List.drop_replicate, List.take_replicate, Nat.min_eq_left (by omega)]

def eap245V3Firmware : FlashPartitionEntry := ⟨ascii "firmware", 0xc0000, 0xe40000⟩

def eap245V3Flash (kernelSize : Nat) : List FlashPartitionEntry :=
  eap245V3.partitions.take 9 ++ osImagePartition eap245V3Firmware kernelSize ::
    fileSystemPartition eap245V3Firmware kernelSize :: eap245V3.partitions.drop 10

def eap245V3Parts (table : ImagePartitionEntry) (tm : Tm) (kernel rootfs : List UInt8) :
    List ImagePartitionEntry :=
  [table, makeSoftVersion eap245V3 tm, makeSupportList eap245V3,
    { name := ascii "os-image", data := kernel }, { name := ascii "file-system", data := rootfs },
    makeExtraPara eap245V3 [0x01, 0x01]]

theorem eap245V3_split (fits : kernel.length ≤ 0xe40000) :
    splitFirmware eap245V3.partitions kernel.length =
      some (eap245V3Flash kernel.length,
        some (fileSystemPartition eap245V3Firmware kernel.length)) := by
  have found : findFirmware eap245V3.partitions =
      some (eap245V3.partitions.take 9, eap245V3Firmware, eap245V3.partitions.drop 10) := by decide
  have size : eap245V3Firmware.size.toNat = 0xe40000 := rfl
  have room : eap245V3.partitions.length = 13 := rfl
  have checked : ¬ (eap245V3Firmware.size.toNat < kernel.length ∨
      maxPartitions ≤ eap245V3.partitions.length) := by
    rw [size, room, maxPartitions]
    omega
  rw [splitFirmware, found]
  simp only [if_neg checked]
  rfl

theorem eap245V3_listed {table : ImagePartitionEntry} (fits : kernel.length ≤ 0xe40000)
    (tabled : makePartitionTable (eap245V3Flash kernel.length) = some table)
    (kernelSome : kernel ≠ []) (rootfsSome : rootfs ≠ []) :
    imageParts eap245V3 tm kernel rootfs false =
      some (eap245V3Flash kernel.length, eap245V3Parts table tm kernel rootfs) := by
  have extra : extraPara eap245V3.id = some [0x01, 0x01] := by decide
  have kernelRead : require (decide (kernel ≠ [])) = some () := by
    rw [require_eq_some, decide_eq_true_iff]
    exact kernelSome
  have rootfsRead : require (decide (rootfs ≠ [])) = some () := by
    rw [require_eq_some, decide_eq_true_iff]
    exact rootfsSome
  rw [imageParts, eap245V3_split fits]
  simp only [Option.bind_eq_bind, Option.bind_some, tabled, readFile, kernelRead, rootfsRead, extra]
  rfl

theorem eap245V3_built {table : ImagePartitionEntry} (fits : kernel.length ≤ 0xe40000)
    (tabled : makePartitionTable (eap245V3Flash kernel.length) = some table)
    (rootfsFits : rootfs.length ≤
      (fileSystemPartition eap245V3Firmware kernel.length).size.toNat) :
    ∃ image, generateFactoryImage md5 none (eap245V3Flash kernel.length)
      (eap245V3Parts table tm kernel rootfs) = some image := by
  have tableName := makePartitionTable_name tabled
  have tableLength := makePartitionTable_length tabled
  have kernelFits : kernel.length ≤ (osImagePartition eap245V3Firmware kernel.length).size.toNat := by
    rw [osImagePartition, UInt32.toNat_ofNat', Nat.mod_eq_of_lt (by omega)]
  apply generateFactoryImage_exists
  · intro part member
    simp only [eap245V3Parts, List.mem_cons, List.not_mem_nil, or_false] at member
    rcases member with rfl | rfl | rfl | rfl | rfl | rfl
    · rw [Targeted, tableName, tableLength]
      exact ⟨_, rfl, by decide⟩
    · exact ⟨⟨ascii "soft-version", 0x92000, 0x00100⟩, rfl, (show 24 ≤ 0x100 by decide)⟩
    · exact ⟨⟨ascii "support-list", 0x91000, 0x00100⟩, rfl, by decide⟩
    · exact ⟨osImagePartition eap245V3Firmware kernel.length, rfl, kernelFits⟩
    · exact ⟨fileSystemPartition eap245V3Firmware kernel.length, rfl, rootfsFits⟩
    · exact ⟨⟨ascii "extra-para", 0xb0000, 0x10000⟩, rfl, by decide⟩
  · intro part member
    simp only [eap245V3Parts, List.mem_cons, List.not_mem_nil, or_false] at member
    rcases member with rfl | rfl | rfl | rfl | rfl | rfl
    · rw [tableName]
      decide
    · exact (show (ascii "soft-version").length ≤ 15 by decide)
    · exact (show (ascii "support-list").length ≤ 15 by decide)
    · exact (show (ascii "os-image").length ≤ 15 by decide)
    · exact (show (ascii "file-system").length ≤ 15 by decide)
    · exact (show (ascii "extra-para").length ≤ 15 by decide)
  · exact Nat.le_refl 6
  · intro text impossible
    cases impossible

theorem place_append (front rest : List ImagePartitionEntry) :
    place base (front ++ rest) =
      place base front ++ place (base + (front.map fun part => part.data.length).sum) rest := by
  induction front generalizing base with
  | nil => rfl
  | cons part more ih =>
      rw [List.cons_append, place, ih, place, List.cons_append, List.map_cons, List.sum_cons,
        Nat.add_assoc]

theorem eap245V3_place {table : ImagePartitionEntry} (tableLength : table.data.length = 0x800) :
    place 0x800 (eap245V3Parts table tm kernel rootfs) =
      [(table, 0x800), (makeSoftVersion eap245V3 tm, 0x1000), (makeSupportList eap245V3, 0x1018),
        ({ name := ascii "os-image", data := kernel }, 0x104f),
        ({ name := ascii "file-system", data := rootfs }, 0x104f + kernel.length),
        (makeExtraPara eap245V3 [0x01, 0x01], 0x104f + kernel.length + rootfs.length)] := by
  have version : (makeSoftVersion eap245V3 tm).data.length = 24 := rfl
  have support : (makeSupportList eap245V3).data.length = 55 := rfl
  simp only [eap245V3Parts, place, tableLength, version, support]

/-! ## The round trip -/

theorem buildImage_of_listed
    (listed : imageParts info tm kernel rootfs addJffs2Eof = some (flashParts, parts))
    (built : generateFactoryImage md5 info.vendor flashParts parts = some image) :
    buildImage md5 info tm kernel rootfs addJffs2Eof = some image := by
  rw [buildImage, listed]
  exact built

/-- Extraction gives back every part, and nothing else, exactly if each part is found at the 32
bits of its base that the table has room for. -/
theorem extractFirmware_iff (built : buildImage md5 info tm kernel rootfs addJffs2Eof = some image)
    (listed : imageParts info tm kernel rootfs addJffs2Eof = some (flashParts, parts)) :
    extractFirmware image = some (parts.map fun part => (part.name, part.data)) ↔
      ∀ placed ∈ place 0x800 parts, FoundAtBase image placed := by
  rw [buildImage, listed] at built
  obtain ⟨some', few, named⟩ := imageParts_names listed
  exact extract_factory_iff (generateFactoryImage_spec built) some' few named

/-- A build on the first of January 2020, with one byte of kernel and one of root file system. -/
theorem extractFirmware_iff_small :
    ∃ image table, buildImage
        (fun _ => ⟨[0x99, 0x0c, 0x41, 0x92, 0x97, 0xb8, 0x63, 0xd5, 0xee, 0xd0, 0xbe, 0xae, 0xef, 0xd7,
          0x8f, 0xa0], rfl⟩) eap245V3 ⟨120, 0, 1⟩ [1] [2] false = some image ∧
      extractFirmware image =
        some ((eap245V3Parts table ⟨120, 0, 1⟩ [1] [2]).map fun part => (part.name, part.data)) := by
  obtain ⟨table, tabled⟩ := Option.isSome_iff_exists.mp
    (show (makePartitionTable (eap245V3Flash [(1 : UInt8)].length)).isSome = true by decide)
  have listed : imageParts eap245V3 ⟨120, 0, 1⟩ [1] [2] false =
      some (eap245V3Flash [(1 : UInt8)].length, eap245V3Parts table ⟨120, 0, 1⟩ [1] [2]) :=
    eap245V3_listed (by decide) tabled (by decide) (by decide)
  have rootfsFits : [(2 : UInt8)].length ≤
      (fileSystemPartition eap245V3Firmware [(1 : UInt8)].length).size.toNat := by decide
  obtain ⟨image, built⟩ := eap245V3_built (by decide) tabled rootfsFits
  have whole := buildImage_of_listed listed built
  refine ⟨image, table, whole, ?_⟩
  apply (extractFirmware_iff whole listed).mpr
  rw [eap245V3_place (makePartitionTable_length tabled)]
  intro placed member
  apply Or.inl
  simp only [List.mem_cons, List.not_mem_nil, or_false] at member
  rcases member with rfl | rfl | rfl | rfl | rfl | rfl
  · exact (show 0x800 < 2 ^ 32 by decide)
  · exact (show 0x1000 < 2 ^ 32 by decide)
  · exact (show 0x1018 < 2 ^ 32 by decide)
  · exact (show 0x104f < 2 ^ 32 by decide)
  · exact (show 0x1050 < 2 ^ 32 by decide)
  · exact (show 0x1051 < 2 ^ 32 by decide)

/-- With a kernel that fills most of its partition, the file system may be almost 4 GiB long, and
the base of `extra-para` is cut: it is not found there if the kernel has zeros in that place. -/
theorem eap245V3_lost (kernelLength : kernel.length = 0xd90000)
    (rootfsLength : rootfs.length = 0xffff0000)
    (zeros : slice kernel 0xd80000 10 = List.replicate 10 0) (md5 : List UInt8 → Md5Sum) :
    ∃ image flashParts parts, buildImage md5 eap245V3 ⟨120, 0, 1⟩ kernel rootfs false = some image ∧
      imageParts eap245V3 ⟨120, 0, 1⟩ kernel rootfs false = some (flashParts, parts) ∧
      extractFirmware image ≠ some (parts.map fun part => (part.name, part.data)) := by
  obtain ⟨table, tabled⟩ := Option.isSome_iff_exists.mp
    (show (makePartitionTable (eap245V3Flash 0xd90000)).isSome = true by decide)
  rw [← kernelLength] at tabled
  have kernelSome : kernel ≠ [] := List.ne_nil_of_length_pos (by omega)
  have rootfsSome : rootfs ≠ [] := List.ne_nil_of_length_pos (by omega)
  have kernelFits : kernel.length ≤ 0xe40000 := by omega
  have rootfsFits : rootfs.length ≤
      (fileSystemPartition eap245V3Firmware kernel.length).size.toNat := by
    rw [rootfsLength, kernelLength]
    decide
  have listed : imageParts eap245V3 ⟨120, 0, 1⟩ kernel rootfs false =
      some (eap245V3Flash kernel.length, eap245V3Parts table ⟨120, 0, 1⟩ kernel rootfs) :=
    eap245V3_listed kernelFits tabled kernelSome rootfsSome
  obtain ⟨image, built⟩ : ∃ image, generateFactoryImage md5 eap245V3.vendor
      (eap245V3Flash kernel.length) (eap245V3Parts table ⟨120, 0, 1⟩ kernel rootfs) = some image :=
    eap245V3_built kernelFits tabled rootfsFits
  refine ⟨image, _, _, buildImage_of_listed listed built, listed, ?_⟩
  intro extracted
  have factory := generateFactoryImage_spec built
  obtain ⟨some', few, named⟩ := imageParts_names listed
  have found := (extract_factory_iff factory some' few named).mp extracted
  have stands := factory.holds.data
  rw [eap245V3_place (makePartitionTable_length tabled)] at found stands
  have osImage := stands ({ name := ascii "os-image", data := kernel }, 0x104f) (by simp)
  have last := found (makeExtraPara eap245V3 [0x01, 0x01], 0x104f + kernel.length + rootfs.length)
    (by simp)
  have cut : (0x104f + kernel.length + rootfs.length) % 2 ^ 32 = 0x104f + 0xd80000 := by omega
  have length : (makeExtraPara eap245V3 [0x01, 0x01]).data.length = 10 := rfl
  rcases last with low | other
  · simp only at low
    omega
  · simp only at other osImage
    rw [cut, length, ← Nat.add_assoc,
      ← slice_slice (show 0xd80000 + 10 ≤ kernel.length by omega), osImage, zeros] at other
    exact absurd other (by decide)

theorem cutBase_extracted :
    ¬ ∀ md5 info tm kernel rootfs addJffs2Eof image flashParts parts,
      buildImage md5 info tm kernel rootfs addJffs2Eof = some image →
      imageParts info tm kernel rootfs addJffs2Eof = some (flashParts, parts) →
      extractFirmware image = some (parts.map fun part => (part.name, part.data)) := by
  intro roundTrip
  have zeros : slice (List.replicate 0xd90000 (0 : UInt8)) 0xd80000 10 = List.replicate 10 0 :=
    slice_replicate (by decide)
  have lost := eap245V3_lost List.length_replicate (List.length_replicate (n := 0xffff0000) (a := 0))
    zeros fun _ => ⟨List.replicate 16 0, List.length_replicate⟩
  obtain ⟨image, flashParts, parts, built, listed, lost⟩ := lost
  exact lost (roundTrip _ _ _ _ _ _ _ _ _ built listed)

end Rut9xx.Safeloader
