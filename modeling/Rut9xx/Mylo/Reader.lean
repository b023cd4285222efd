import Rut9xx.Data.Align
import Rut9xx.Data.Chunks
import Rut9xx.Mylo.Image

namespace Rut9xx.Mylo

open Data

/-! # Reading an image of `mkmylofw`

A header, descriptors up to one that is unused, and the data of each block.
-/

def readDesc (bytes : List UInt8) : FwBlockdesc :=
  ⟨le32At bytes 0, le32At bytes 4, le32At bytes 8, le32At bytes 12⟩

/-- The descriptors in front of the unused one, and what is behind that. -/
def readDescs (bytes : List UInt8) : Option (List FwBlockdesc × List UInt8) :=
  if bytes.length < 16 then none
  else if (readDesc bytes).type = FW_DESC_TYPE_UNUSED then some ([], bytes.drop 16)
  else (readDescs (bytes.drop 16)).map fun found => (readDesc bytes :: found.1, found.2)
termination_by bytes.length
decreasing_by
  rw [List.length_drop]
  omega

def announced (desc : FwBlockdesc) : Nat := desc.dlen.toNat

/-- The descriptors with as many bytes as each announces, if nothing else is in the image. -/
def readImage (image : List UInt8) : Option (List (FwBlockdesc × List UInt8)) :=
  if image.length < 40 ∨ le32At image 0 ≠ MYLO_MAGIC_FIRMWARE then none
  else (readDescs (image.drop 40)).bind fun found => readAnnounced announced found.1 found.2

variable {files : Files} {flash : UInt32} {given b block : FwBlock} {desc : FwBlockdesc}
  {descs : List FwBlockdesc} {bytes rest data : List UInt8} {fw next : Firmware} {built : Built}
  {board : CpxBoard} {parts : List FwPart} {blocks : List FwBlock} {size : UInt32}

/-! ## Descriptors -/

theorem writeOutDesc_length : (writeOutDesc desc).length = 16 := rfl

theorem readDesc_here : readDesc (writeOutDesc desc ++ rest) = desc := by
  have words : writeOutDesc desc ++ rest = le32 desc.type ++ (le32 desc.addr ++ (le32 desc.dlen ++
      (le32 desc.blen ++ rest))) := by
    simp only [writeOutDesc, List.append_assoc]
  have second : le32At (writeOutDesc desc ++ rest) 4 = desc.addr := by
    rw [words]
    exact (le32At_past32 _ _ 0).trans (le32At_here _ _)
  have third : le32At (writeOutDesc desc ++ rest) 8 = desc.dlen := by
    rw [words]
    exact (le32At_past32 _ _ 4).trans ((le32At_past32 _ _ 0).trans (le32At_here _ _))
  have fourth : le32At (writeOutDesc desc ++ rest) 12 = desc.blen := by
    rw [words]
    exact (le32At_past32 _ _ 8).trans ((le32At_past32 _ _ 4).trans
      ((le32At_past32 _ _ 0).trans (le32At_here _ _)))
  rw [readDesc, second, third, fourth, words, le32At_here]

theorem readDescs_write (used : ∀ desc ∈ descs, desc.type ≠ FW_DESC_TYPE_UNUSED) :
    readDescs (descs.flatMap writeOutDesc ++ (writeOutDesc nullDesc ++ rest)) = some (descs, rest) := by
  induction descs with
  | nil =>
      rw [List.flatMap_nil, List.nil_append, readDescs, if_neg (by
        rw [List.length_append, writeOutDesc_length]
        omega), readDesc_here, if_pos (show nullDesc.type = FW_DESC_TYPE_UNUSED by rfl),
        List.drop_left' writeOutDesc_length]
  | cons desc more ih =>
      rw [List.forall_mem_cons] at used
      rw [List.flatMap_cons, List.append_assoc, readDescs, if_neg (by
        rw [List.length_append, writeOutDesc_length]
        omega), readDesc_here, if_neg used.1, List.drop_left' writeOutDesc_length, ih used.2, Option.map_some]

theorem writeOutHeader_length {header : FwHeader} : (writeOutHeader header).length = 40 := rfl

theorem readImage_write {header : FwHeader} {contents : List (FwBlockdesc × List UInt8)}
    (used : ∀ part ∈ contents, part.1.type ≠ FW_DESC_TYPE_UNUSED) :
    readImage (writeOutHeader header ++ ((contents.map Prod.fst).flatMap writeOutDesc ++
        (writeOutDesc nullDesc ++ contents.flatMap Prod.snd))) = some contents ↔
      ∀ part ∈ contents, part.2.length = announced part.1 := by
  have magic (rest : List UInt8) : le32At (writeOutHeader header ++ rest) 0 = MYLO_MAGIC_FIRMWARE := by
    rw [writeOutHeader, List.append_assoc, le32At_here]
  rw [readImage, if_neg (by
    rw [not_or, List.length_append, writeOutHeader_length]
    exact ⟨by omega, not_not.mpr (magic _)⟩), List.drop_left' writeOutHeader_length,
    readDescs_write (List.forall_mem_map.mpr used)]
  exact readAnnounced_iff

/-! ## What is written for a block -/

/-- The bytes of a block by its format. -/
def blockData (files : Files) (b : FwBlock) : List UInt8 :=
  match b.name.bind files with
  | none => []
  | some data =>
    (if haveHdr b then le32 (UInt32.ofNat data.length) ++ le32 (updateCrc data 0) else []) ++
      (data ++ List.replicate ((4 - data.length % 4) % 4) 0xFF)

/-- What the check makes of a block. -/
structure Processed (files : Files) (flash : UInt32) (given b : FwBlock) : Prop where
  addr : b.addr = given.addr
  flags : b.flags = given.flags
  name : b.name = given.name
  lies : b.addr.toNat + b.blocklen.toNat ≤ flash.toNat ↔
    given.addr.toNat + given.blocklen.toNat < 2 ^ 32
  empty : given.name = none → b.size = given.size
  file : ∀ name, given.name = some name →
    ∃ data, files name = some data ∧ data.length < 2 ^ 32 ∧ b.size = UInt32.ofNat data.length

/-- A length that passes the check is inside unless the sum wraps. -/
theorem sum_le_iff {addr length : UInt32} (passed : addr + length ≤ flash) :
    addr.toNat + length.toNat ≤ flash.toNat ↔ addr.toNat + length.toNat < 2 ^ 32 := by
  rw [UInt32.le_iff_toNat_le, UInt32.toNat_add] at passed
  have := flash.toNat_lt
  constructor
  · intro inside
    omega
  · intro small
    rwa [Nat.mod_eq_of_lt small] at passed

theorem processFile_processed (done : processFile files flash given = some b) :
    Processed files flash given b := by
  rw [processFile] at done
  split at done
  · cases done
  rename_i passed
  rw [gt_iff_lt, UInt32.not_lt] at passed
  split at done
  · rename_i none'
    cases done
    exact ⟨rfl, rfl, rfl, sum_le_iff passed, fun _ => rfl,
      fun name some' => absurd (some'.symm.trans none') (Option.some_ne_none name)⟩
  · rename_i name some'
    obtain ⟨data, opened, done⟩ := Option.bind_eq_some_iff.mp done
    by_cases large : data.length >
        (if given.blocklen = 0 then flash - given.addr else given.blocklen).toNat
    · rw [if_pos large] at done
      cases done
    rw [if_neg large] at done
    cases done
    refine ⟨rfl, rfl, rfl, ?_, fun none' => absurd (some'.symm.trans none') (Option.some_ne_none name), ?_⟩
    · by_cases whole : given.blocklen = 0
      · rw [if_pos whole]
        rw [whole, UInt32.add_zero, UInt32.le_iff_toNat_le] at passed
        show given.addr.toNat + (flash - given.addr).toNat ≤ _ ↔ _
        rw [UInt32.toNat_sub_of_le _ _ (UInt32.le_iff_toNat_le.mpr passed), whole]
        have small := given.addr.toNat_lt
        have none' : (0 : UInt32).toNat = 0 := rfl
        constructor
        · intro _
          omega
        · intro _
          omega
      · rw [if_neg whole]
        exact sum_le_iff passed
    · intro other same
      rw [some'] at same
      cases same
      have small := (if given.blocklen = 0 then flash - given.addr else given.blocklen).toNat_lt
      exact ⟨data, opened, by omega, rfl⟩

theorem copyFile_eq {count : Nat} (whole : count = data.length) : copyFile data count = data := by
  induction data, count using copyFile.induct with
  | case1 data =>
      rw [copyFile, if_pos rfl, List.length_eq_zero_iff.mp whole.symm]
  | case2 data count some' ih =>
      rw [copyFile, if_neg some', ih (by rw [List.length_drop]; omega)]
      by_cases last : count ≤ FILE_BUF_LEN
      · rw [Nat.min_eq_left last, List.take_of_length_le (by omega), List.drop_of_length_le (by omega),
          List.append_nil]
      · rw [Nat.min_eq_right (by omega), List.take_append_drop]

theorem padding_eq {length : Nat} (small : length < 2 ^ 32) :
    padding (UInt32.ofNat length) = (4 - length % 4) % 4 := by
  have masked (x : UInt32) : (0 + (4 - 1) &&& x).toNat = x.toNat % 4 := by
    rw [UInt32.toNat_and, Nat.and_comm]
    exact Nat.and_two_pow_sub_one_eq_mod x.toNat 2
  rw [padding, masked, UInt32.toNat_sub, UInt32.toNat_ofNat', Nat.mod_eq_of_lt small]
  have mask : (~~~3 : UInt32).toNat = 2 ^ 32 - 4 := rfl
  rw [mask]
  omega

theorem writeOutFile_eq (processed : Processed files flash given b) :
    writeOutFile files b = some (blockData files b) := by
  rw [writeOutFile, blockData, processed.name]
  cases named : given.name with
  | none => rfl
  | some name =>
      obtain ⟨data, opened, small, size⟩ := processed.file name named
      have length : (UInt32.ofNat data.length).toNat = data.length := by
        rw [UInt32.toNat_ofNat', Nat.mod_eq_of_lt small]
      simp only [opened, Option.map_some, Option.bind_some, size]
      rw [copyFile_eq length, padding_eq small]

/-- The length of the data is not rounded past 2^32. -/
def Announceable (files : Files) (given : FwBlock) : Prop :=
  match given.name with
  | none => haveHdr given = false
  | some name =>
    ∀ data, files name = some data → data.length + (if haveHdr given then 8 else 0) + 4 ≤ 2 ^ 32

theorem alignFour_toNat (x : UInt32) : (alignFour x).toNat = (x.toNat + 3) % 2 ^ 32 / 4 * 4 := by
  have rounded := @and_not_mask_toNat (x + (4 - 1)) 4 2 rfl
  rw [alignFour, rounded, UInt32.toNat_add]
  rfl

theorem blockData_length_iff (processed : Processed files flash given b) (zero : given.size = 0) :
    (blockData files b).length = announced (blockDesc b) ↔ Announceable files given := by
  have sameHdr : haveHdr b = haveHdr given := by rw [haveHdr, haveHdr, processed.flags]
  rw [announced, blockDesc, alignFour_toNat, Announceable, blockData, processed.name, sameHdr]
  cases named : given.name with
  | none =>
      rw [processed.empty named, zero]
      cases haveHdr given with
      | false => exact iff_of_true rfl rfl
      | true => exact iff_of_false (show ¬ (0 : Nat) = 8 by decide) Bool.noConfusion
  | some name =>
      obtain ⟨data, opened, small, size⟩ := processed.file name named
      have whole : (UInt32.ofNat data.length).toNat = data.length := by
        rw [UInt32.toNat_ofNat', Nat.mod_eq_of_lt small]
      have length : ((if haveHdr given then le32 (UInt32.ofNat data.length) ++ le32 (updateCrc data 0)
          else []) ++ (data ++ List.replicate ((4 - data.length % 4) % 4) 0xFF)).length =
            (if haveHdr given then 8 else 0) + (data.length + (4 - data.length % 4) % 4) := by
        rw [List.length_append, List.length_append, List.length_replicate]
        split <;> rfl
      simp only [Option.bind_some, opened, size, length, Option.some.injEq, forall_eq']
      cases haveHdr given with
      | false =>
          simp only [Bool.false_eq_true, if_false, whole]
          omega
      | true =>
          simp only [if_true, UInt32.toNat_add, whole]
          rw [show (8 : UInt32).toNat = 8 by rfl]
          omega

/-! ## What the options leave -/

structure Parsed (fw : Firmware) : Prop where
  sizes : ∀ block ∈ fw.fwBlocks, block.size = 0
  few : fw.fwParts.length ≤ MYLO_MAX_PARTITIONS
  names : ∀ part ∈ fw.fwParts, part.name.length = PART_NAME_LEN

theorem Parsed.addBlock (parsed : Parsed fw) (zero : block.size = 0) :
    Parsed { fw with fwBlocks := fw.fwBlocks ++ [block] } where
  sizes := List.forall_mem_append.mpr ⟨parsed.sizes, List.forall_mem_singleton.mpr zero⟩
  few := parsed.few
  names := parsed.names

theorem Parsed.addPart (parsed : Parsed fw) {part : FwPart} (room : fw.fwParts.length < MYLO_MAX_PARTITIONS)
    (name : part.name.length = PART_NAME_LEN) :
    Parsed { fw with fwParts := fw.fwParts ++ [part] } where
  sizes := parsed.sizes
  few := by
    rw [List.length_append, List.length_singleton]
    exact room
  names := List.forall_mem_append.mpr ⟨parsed.names, List.forall_mem_singleton.mpr name⟩

theorem partName_length {text : Option (List UInt8)} : (partName text).length = PART_NAME_LEN := by
  rw [partName, List.length_take, List.length_append, List.length_replicate]
  omega

variable {strtoul : List UInt8 → Option UInt64} {option : MyloOption} {arg : List UInt8} {stale : Argv}
  {strdup : Bool}

theorem Parsed.optBlock (parsed : Parsed fw) (done : parseOptBlock strtoul arg stale strdup fw = some next) :
    Parsed next := by
  simp only [parseOptBlock, Option.bind_eq_bind, Option.bind_eq_some_iff, require_eq_some] at done
  obtain ⟨_, _, _, _, addr, _, blocklen, _, done⟩ := done
  split at done
  · cases done
    exact parsed.addBlock rfl
  · simp only [Option.bind_eq_some_iff] at done
    obtain ⟨flags, _, name, _, _, _, done⟩ := done
    cases done
    exact parsed.addBlock rfl

theorem Parsed.optPartition (parsed : Parsed fw)
    (done : parseOptPartition strtoul arg stale strdup fw = some next) : Parsed next := by
  simp only [parseOptPartition, Option.bind_eq_bind, Option.bind_eq_some_iff, require_eq_some] at done
  obtain ⟨_, _, _, room, addr, _, size, _, flags, _, param, _, done⟩ := done
  have added := @Parsed.addPart _ parsed ⟨⟨flags, addr, if size = 0 then fw.flashSize - addr else size, param⟩,
    partName (argText (parseArg arg stale).2 4)⟩ (of_decide_eq_true room) partName_length
  split at done
  · cases done
    exact added
  · simp only [Option.bind_eq_some_iff] at done
    obtain ⟨_, _, done⟩ := done
    cases done
    exact added.addBlock rfl

theorem Parsed.step (parsed : Parsed fw) (done : parseOption strtoul fw option = some next) :
    Parsed next := by
  cases option with
  | b arg stale strdup => exact parsed.optBlock done
  | p arg stale strdup => exact parsed.optPartition done
  | B arg =>
      simp only [parseOption, parseOptBoard, Option.bind_eq_bind, Option.bind_eq_some_iff] at done
      obtain ⟨_, _, board, _, done⟩ := done
      cases done
      exact { parsed with }
  | f arg =>
      simp only [parseOption, parseOptFlags, Option.bind_eq_bind, Option.bind_eq_some_iff] at done
      obtain ⟨_, _, flags, _, done⟩ := done
      cases done
      exact { parsed with }
  | i arg stale =>
      simp only [parseOption, parseOptId, Option.bind_eq_bind, Option.bind_eq_some_iff] at done
      obtain ⟨_, _, vid, _, did, _, svid, _, sdid, _, rev, _, done⟩ := done
      cases done
      exact { parsed with }
  | r arg =>
      simp only [parseOption, parseOptRev, Option.bind_eq_bind, Option.bind_eq_some_iff] at done
      obtain ⟨_, _, rev, _, done⟩ := done
      cases done
      exact { parsed with }
  | s arg =>
      simp only [parseOption, parseOptSize, Option.bind_eq_bind, Option.bind_eq_some_iff] at done
      obtain ⟨_, _, size, _, done⟩ := done
      cases done
      exact { parsed with }
  | v =>
      cases done
      exact parsed
  | other => cases done

theorem start_parsed : Parsed Firmware.start := ⟨by simp [Firmware.start], Nat.zero_le _, by simp [Firmware.start]⟩

/-! ## The image as a whole -/

/-- What should be in an image: each descriptor with the data of its block. -/
def contents (files : Files) (board : CpxBoard) (parts : List FwPart) (blocks : List FwBlock) :
    List (FwBlockdesc × List UInt8) :=
  (if parts = [] then [] else [(tableDesc board, writeOutPartitions parts)]) ++
    blocks.map fun b => (blockDesc b, blockData files b)

def Built.contents (files : Files) (built : Built) : List (FwBlockdesc × List UInt8) :=
  Mylo.contents files built.board built.parts built.blocks

/-- All is inside the flash, and a reader finds every block as it should be. -/
structure Correct (files : Files) (built : Built) : Prop where
  blocks : ∀ block ∈ built.blocks, block.addr.toNat + block.blocklen.toNat ≤ built.flashSize.toNat
  table : built.parts ≠ [] →
    built.board.partOffset.toNat + built.board.partSize.toNat ≤ built.flashSize.toNat
  partitions : ∀ part ∈ built.parts,
    part.mylo.addr.toNat + part.mylo.size.toNat ≤ built.flashSize.toNat
  read : readImage built.image = some (built.contents files)

/-- What the options leave stays clear of what goes wrong. -/
structure Clear (files : Files) (fw : Firmware) : Prop where
  blocks : ∀ block ∈ fw.fwBlocks, block.addr.toNat + block.blocklen.toNat < 2 ^ 32
  table : fw.fwParts ≠ [] → ∀ board, fw.board = some board →
    board.partOffset.toNat + board.partSize.toNat ≤ fw.flashSize.toNat
  partitions : ∀ part ∈ fw.fwParts, part.mylo.addr.toNat + part.mylo.size.toNat < 2 ^ 32
  lengths : ∀ block ∈ fw.fwBlocks, Announceable files block

theorem partitionBytes_length {part : MyloPartition} : (partitionBytes part).length = 16 := rfl

theorem writeOutPartitions_length (parsed : Parsed fw) (some' : fw.fwParts ≠ []) (board : CpxBoard) :
    (writeOutPartitions fw.fwParts).length = announced (tableDesc board) := by
  have few := parsed.few
  have partitions : (fw.fwParts.flatMap fun part => partitionBytes part.mylo).length =
      fw.fwParts.length * 16 := by
    rw [List.length_flatMap, List.map_congr_left fun part _ => partitionBytes_length,
      List.map_const', List.sum_replicate]
    rfl
  have names : (fw.fwParts.flatMap FwPart.name).length = fw.fwParts.length * PART_NAME_LEN := by
    rw [List.length_flatMap, List.map_congr_left parsed.names, List.map_const', List.sum_replicate]
    rfl
  rw [writeOutPartitions, if_neg some']
  simp only [List.length_append, List.length_replicate, le32_length, partitions, names]
  show _ = 400
  rw [MYLO_MAX_PARTITIONS] at few ⊢
  rw [PART_NAME_LEN]
  omega

/-- Two lists of blocks, one before the check and one behind it. -/
theorem forall_processed {before after : FwBlock → Prop}
    (processed : List.Forall₂ (Processed files flash) (fw.fwBlocks) blocks)
    (same : ∀ given ∈ fw.fwBlocks, ∀ b, Processed files flash given b → (after b ↔ before given)) :
    (∀ b ∈ blocks, after b) ↔ ∀ given ∈ fw.fwBlocks, before given := by
  generalize fw.fwBlocks = givens at processed same
  induction processed with
  | nil => simp
  | cons first rest ih =>
      rw [List.forall_mem_cons, List.forall_mem_cons, ih fun given member b processed =>
        same given (List.mem_cons_of_mem _ member) b processed]
      exact and_congr_left fun _ => same _ List.mem_cons_self _ first

theorem writeOutBlocks_eq
    (written : blocks.mapM (writeOutFile files) = some (blocks.map (blockData files))) :
    writeOutBlocks files board parts blocks =
      some (((contents files board parts blocks).map Prod.fst).flatMap writeOutDesc ++
        (writeOutDesc nullDesc ++ (contents files board parts blocks).flatMap Prod.snd)) := by
  rw [writeOutBlocks, written, Option.map_some, contents]
  by_cases none' : parts = []
  · simp [none', writeOutPartitions, List.flatMap_def, Function.comp_def]
  · simp [none', List.flatMap_def, Function.comp_def]

theorem build_image (done : build files fw = some built) :
    fw.board = some built.board ∧ built.flashSize = fw.flashSize ∧ built.parts = fw.fwParts ∧
      List.Forall₂ (Processed files fw.flashSize) fw.fwBlocks built.blocks ∧
      processPartitions fw.flashSize fw.fwParts = true ∧
      ∃ header, built.image = writeOutHeader header ++
        (((built.contents files).map Prod.fst).flatMap writeOutDesc ++
          (writeOutDesc nullDesc ++ (built.contents files).flatMap Prod.snd)) := by
  simp only [build, Option.bind_eq_bind, Option.bind_eq_some_iff, require_eq_some] at done
  obtain ⟨board, found, _, _, blocks, checked, _, partitions, body, written, done⟩ := done
  cases done
  have processed : List.Forall₂ (Processed files fw.flashSize) fw.fwBlocks blocks :=
    (forall₂_of_mapM checked).imp fun _ _ => processFile_processed
  have bytes : blocks.mapM (writeOutFile files) = some (blocks.map (blockData files)) := by
    rw [mapM_eq_some_iff]
    exact (forall_processed processed fun _ _ _ processed =>
      iff_true_intro (writeOutFile_eq processed)).mpr fun _ _ => trivial
  rw [writeOutBlocks_eq bytes] at written
  cases written
  exact ⟨found, rfl, rfl, processed, partitions, _, rfl⟩

theorem blockDesc_used : (blockDesc b).type ≠ FW_DESC_TYPE_UNUSED :=
  show FW_DESC_TYPE_USED ≠ FW_DESC_TYPE_UNUSED by decide

theorem tableDesc_used : (tableDesc board).type ≠ FW_DESC_TYPE_UNUSED :=
  show FW_DESC_TYPE_USED ≠ FW_DESC_TYPE_UNUSED by decide

theorem contents_used : ∀ part ∈ built.contents files, part.1.type ≠ FW_DESC_TYPE_UNUSED := by
  rw [Built.contents, contents, List.forall_mem_append, List.forall_mem_map]
  refine ⟨?_, fun b _ => blockDesc_used⟩
  split
  · simp
  · exact List.forall_mem_singleton.mpr tableDesc_used

/-- What is accepted is right if and only if the options stay clear of what goes wrong. -/
theorem mkmylofw_iff {options : List MyloOption}
    (parsed : run (parseOption strtoul) Firmware.start options = some fw)
    (done : mkmylofw strtoul files options = some built) : Correct files built ↔ Clear files fw := by
  have built' : build files fw = some built := by
    rw [mkmylofw, parsed] at done
    exact done
  have kept : Parsed fw := run_keeps (fun _ _ _ parsed step => parsed.step step) start_parsed parsed
  obtain ⟨board, flash, parts, processed, partitions, header, image⟩ := build_image built'
  have lies : (∀ b ∈ built.blocks, b.addr.toNat + b.blocklen.toNat ≤ fw.flashSize.toNat) ↔
      ∀ given ∈ fw.fwBlocks, given.addr.toNat + given.blocklen.toNat < 2 ^ 32 :=
    forall_processed processed fun _ _ _ processed => processed.lies
  have inFlash : (∀ part ∈ fw.fwParts, part.mylo.addr.toNat + part.mylo.size.toNat ≤ fw.flashSize.toNat) ↔
      ∀ part ∈ fw.fwParts, part.mylo.addr.toNat + part.mylo.size.toNat < 2 ^ 32 := by
    refine forall₂_congr fun part member => sum_le_iff ?_
    have passed := List.all_eq_true.mp partitions part member
    rw [Bool.and_eq_true, decide_eq_true_eq, decide_eq_true_eq] at passed
    exact passed.2
  have table : (built.parts ≠ [] →
      built.board.partOffset.toNat + built.board.partSize.toNat ≤ built.flashSize.toNat) ↔
        (fw.fwParts ≠ [] → ∀ board, fw.board = some board →
          board.partOffset.toNat + board.partSize.toNat ≤ fw.flashSize.toNat) := by
    rw [parts, flash, board]
    simp
  have read : readImage built.image = some (built.contents files) ↔
      ∀ given ∈ fw.fwBlocks, Announceable files given := by
    have lengths : (∀ b ∈ built.blocks, (blockData files b).length = announced (blockDesc b)) ↔
        ∀ given ∈ fw.fwBlocks, Announceable files given :=
      forall_processed processed fun given member _ processed =>
        blockData_length_iff processed (kept.sizes given member)
    rw [image, readImage_write contents_used, Built.contents, contents, List.forall_mem_append, List.forall_mem_map,
      lengths, and_iff_right]
    split
    · simp
    · rename_i some'
      rw [parts] at some' ⊢
      exact List.forall_mem_singleton.mpr (writeOutPartitions_length kept some' built.board)
  constructor
  · intro correct
    refine ⟨lies.mp ?_, table.mp correct.table, inFlash.mp ?_, read.mp correct.read⟩
    · rw [← flash]
      exact correct.blocks
    · rw [← flash, ← parts]
      exact correct.partitions
  · intro clear
    refine ⟨?_, table.mpr clear.table, ?_, read.mpr clear.lengths⟩
    · rw [flash]
      exact lies.mpr clear.blocks
    · rw [flash, parts]
      exact inFlash.mpr clear.partitions

/-! ## A partition up to the end of the flash -/

/-- The numbers of the options below. -/
def sampleNumber (text : List UInt8) : Option UInt64 :=
  if text = ascii "0x20000" then some 0x20000 else if text = ascii "0" then some 0 else none

def sampleFiles (name : List UInt8) : Option (List UInt8) :=
  if name = ascii "kernel" then some [1, 2, 3] else none

def boardOption : MyloOption := .B (ascii "WP543")

def partitionOption : MyloOption := .p (ascii "0x20000:0:h:::kernel") (fun _ => none) true

theorem mkmylofw_boardFirst : ∃ built,
    mkmylofw sampleNumber sampleFiles [boardOption, partitionOption] = some built ∧
      Correct sampleFiles built := by
  obtain ⟨fw, parsed⟩ : ∃ fw, run (parseOption sampleNumber) Firmware.start
      [boardOption, partitionOption] = some fw := ⟨_, rfl⟩
  obtain ⟨built, done⟩ : ∃ built, mkmylofw sampleNumber sampleFiles [boardOption, partitionOption] =
      some built := ⟨_, rfl⟩
  refine ⟨built, done, (mkmylofw_iff parsed done).mpr ?_⟩
  cases parsed
  refine ⟨List.forall_mem_singleton.mpr (by decide), ?_, List.forall_mem_singleton.mpr (by decide),
    List.forall_mem_singleton.mpr ?_⟩
  · rintro - board ⟨⟩
    decide
  · rintro data ⟨⟩
    decide

/-- The size of the flash is not known yet when the partition is read. -/
theorem mkmylofw_partitionFirst : ∃ built,
    mkmylofw sampleNumber sampleFiles [partitionOption, boardOption] = some built ∧
      (∃ part ∈ built.parts, built.flashSize.toNat < part.mylo.addr.toNat + part.mylo.size.toNat) ∧
      ¬ Correct sampleFiles built := by
  obtain ⟨built, done, part, member, outside⟩ : ∃ built,
      mkmylofw sampleNumber sampleFiles [partitionOption, boardOption] = some built ∧
        ∃ part ∈ built.parts, built.flashSize.toNat < part.mylo.addr.toNat + part.mylo.size.toNat :=
    ⟨_, rfl, _, List.mem_cons_self, by decide⟩
  refine ⟨built, done, ⟨part, member, outside⟩, fun correct => ?_⟩
  have inside := correct.partitions part member
  omega

end Rut9xx.Mylo
