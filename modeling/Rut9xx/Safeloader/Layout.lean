import Rut9xx.Safeloader.TableText

namespace Rut9xx.Safeloader

open Data

/-! # Where the parts of a factory image are -/

variable {md5 : List UInt8 → Md5Sum} {flashParts : List FlashPartitionEntry}
  {parts : List ImagePartitionEntry} {image after : List UInt8} {imagePt base start count : Nat}

/-- Each part with its base, one behind the other. -/
def place (base : Nat) : List ImagePartitionEntry → List (ImagePartitionEntry × Nat)
  | [] => []
  | part :: rest => (part, base) :: place (base + part.data.length) rest

/-- The entry that the image partition table has for a part. -/
def fwupEntry (placed : ImagePartitionEntry × Nat) : FlashPartitionEntry :=
  { name := placed.1.name, base := UInt32.ofNat placed.2, size := UInt32.ofNat placed.1.data.length }

def fwupTable (base : Nat) (parts : List ImagePartitionEntry) : List FlashPartitionEntry :=
  (place base parts).map fwupEntry

/-- `\t\r\n` without the newline -/
def fwupEnding : Text := [0x09, 0x0d]

def fwupText (base : Nat) (parts : List ImagePartitionEntry) : Text :=
  (fwupTable base parts).flatMap (entryLine (ascii "fwup-ptn") fwupEnding)

theorem fwupLine_eq (name : Text) (base size : Nat) :
    fwupLine name base size =
      entryLine (ascii "fwup-ptn") fwupEnding
        { name := name, base := UInt32.ofNat base, size := UInt32.ofNat size } := by
  rw [fwupLine, entryLine, UInt32.toNat_ofNat', UInt32.toNat_ofNat']
  rfl

theorem fwupText_cons (base : Nat) (part : ImagePartitionEntry) (rest : List ImagePartitionEntry) :
    fwupText base (part :: rest) =
      fwupLine part.name base part.data.length ++ fwupText (base + part.data.length) rest := by
  rw [fwupLine_eq]
  rfl

/-- What is put into the buffer stays in front of `imagePt`, and between the table and `base`. -/
structure Keeps (imagePt base : Nat) (image after : List UInt8) : Prop where
  length : after.length = image.length
  table : ∀ {start count}, start + count ≤ tableOffset + imagePt →
    slice after start count = slice image start count
  payload : ∀ {start count}, tableOffset + 0x800 ≤ start → start + count ≤ tableOffset + base →
    slice after start count = slice image start count

/-- The buffer behind `put_partitions`: the lines with a zero byte behind them, and each part at
its base. -/
structure Holds (imagePt base : Nat) (parts : List ImagePartitionEntry) (after : List UInt8) :
    Prop where
  text : parts ≠ [] → slice after (tableOffset + imagePt) ((fwupText base parts).length + 1) =
    fwupText base parts ++ [0]
  room : parts ≠ [] → imagePt + (fwupText base parts).length < 0x800
  data : ∀ placed ∈ place base parts,
    slice after (tableOffset + placed.2) placed.1.data.length = placed.1.data

/-- One part: what has to hold for it to be put in, and the writes. -/
theorem putPartitions_cons {part : ImagePartitionEntry} {rest : List ImagePartitionEntry}
    (put : putPartitions flashParts (part :: rest) imagePt base image = some after) :
    ∃ flashPart data table, flashParts.find? (fun p => p.name = part.name) = some flashPart ∧
      part.data.length ≤ flashPart.size.toNat ∧
      writeAt image (tableOffset + base) part.data = some data ∧
      (fwupLine part.name base part.data.length).length ≤ 0x800 - imagePt - 1 ∧
      writeAt data (tableOffset + imagePt) (fwupLine part.name base part.data.length ++ [0]) =
        some table ∧
      putPartitions flashParts rest (imagePt + (fwupLine part.name base part.data.length).length)
        (base + part.data.length) table = some after := by
  rw [putPartitions] at put
  obtain ⟨flashPart, found, put⟩ := Option.bind_eq_some_iff.mp put
  obtain ⟨_, fits, put⟩ := Option.bind_eq_some_iff.mp put
  obtain ⟨data, copied, put⟩ := Option.bind_eq_some_iff.mp put
  obtain ⟨_, room, put⟩ := Option.bind_eq_some_iff.mp put
  obtain ⟨table, printed, put⟩ := Option.bind_eq_some_iff.mp put
  rw [require_eq_some, decide_eq_true_iff] at fits room
  exact ⟨flashPart, data, table, found, fits, copied, room, printed, put⟩

theorem line_positive (name : Text) (base size : Nat) : 0 < (fwupLine name base size).length :=
  Nat.lt_of_le_of_lt (Nat.zero_le _) (header_length_lt _ _ _ _ _)

theorem putPartitions_spec (behindTable : 0x800 ≤ base)
    (put : putPartitions flashParts parts imagePt base image = some after) :
    Keeps imagePt base image after ∧ Holds imagePt base parts after := by
  induction parts generalizing imagePt base image with
  | nil =>
      cases put
      refine ⟨⟨rfl, fun _ => rfl, fun _ _ => rfl⟩, ⟨?_, ?_, ?_⟩⟩
      · intro none
        exact absurd rfl none
      · intro none
        exact absurd rfl none
      · intro placed member
        exact absurd member List.not_mem_nil
  | cons part rest ih =>
      obtain ⟨flashPart, data, table, -, -, copied, room, printed, put⟩ := putPartitions_cons put
      have positive := line_positive part.name base part.data.length
      have split := fwupText_cons base part rest
      generalize fwupLine part.name base part.data.length = line at room printed put positive split
      obtain ⟨kept, holds⟩ := ih (Nat.le_trans behindTable (Nat.le_add_right _ _)) put
      have printedLength : (line ++ [0]).length = line.length + 1 := by
        rw [List.length_append, List.length_singleton]
      have imageFits := writeAt_fits copied
      constructor
      · constructor
        · rw [kept.length, writeAt_length printed, writeAt_length copied]
        · intro start count before
          rw [kept.table (by omega), slice_writeAt_before printed before,
            slice_writeAt_before copied (by omega)]
        · intro start count behind before
          rw [kept.payload behind (by omega), slice_writeAt_after printed (by omega),
            slice_writeAt_before copied before]
      · have here : slice table (tableOffset + imagePt) (line.length + 1) = line ++ [0] :=
          printedLength ▸ slice_writeAt printed
        constructor
        · intro _
          rw [split]
          by_cases last : rest = []
          · subst last
            cases put
            rw [show fwupText (base + part.data.length) [] = [] from rfl, List.append_nil]
            exact here
          · have front : slice after (tableOffset + imagePt) line.length = line := by
              rw [kept.table (by omega)]
              have inner := congrArg (List.take line.length) here
              rwa [slice, List.take_take, Nat.min_eq_left (by omega), List.take_left] at inner
            have tail := holds.text last
            rw [← Nat.add_assoc] at tail
            rw [List.length_append, Nat.add_assoc, slice_add, front, tail, List.append_assoc]
        · intro _
          rw [split, List.length_append]
          by_cases last : rest = []
          · rw [last, show fwupText (base + part.data.length) [] = [] from rfl, List.length_nil]
            omega
          · have tail := holds.room last
            omega
        · intro placed member
          rw [place, List.mem_cons] at member
          rcases member with same | member
          · rw [same]
            simp only
            rw [kept.payload (by omega) (by omega), slice_writeAt_after printed (by omega),
              slice_writeAt copied]
          · exact holds.data placed member

/-- Every part has a flash partition that it fits into. -/
theorem putPartitions_fits (put : putPartitions flashParts parts imagePt base image = some after) :
    ∀ part ∈ parts, ∃ flashPart, flashParts.find? (fun p => p.name = part.name) = some flashPart ∧
      part.data.length ≤ flashPart.size.toNat := by
  induction parts generalizing imagePt base image with
  | nil =>
      intro part member
      exact absurd member List.not_mem_nil
  | cons part rest ih =>
      obtain ⟨flashPart, data, table, found, fits, -, -, -, put⟩ := putPartitions_cons put
      intro other member
      rcases List.mem_cons.mp member with same | member
      · exact ⟨flashPart, same ▸ found, same ▸ fits⟩
      · exact ih put other member

/-! ## The whole image -/

variable {vendor : Option Text}

theorem putVendor_length (put : putVendor vendor image = some after) :
    after.length = image.length := by
  cases vendor with
  | none =>
      cases put
      rfl
  | some text =>
      rw [putVendor] at put
      obtain ⟨middle, first, second⟩ := Option.bind_eq_some_iff.mp put
      rw [writeAt_length second, writeAt_length first]

/-- What a factory image holds behind its header. -/
structure Factory (flashParts : List FlashPartitionEntry) (parts : List ImagePartitionEntry)
    (image : List UInt8) : Prop where
  length : image.length = imageSize parts
  holds : Holds 0 0x800 parts image
  fits : ∀ part ∈ parts, ∃ flashPart, flashParts.find? (fun p => p.name = part.name) = some flashPart ∧
    part.data.length ≤ flashPart.size.toNat

theorem Holds.of_slices (holds : Holds imagePt base parts image)
    (same : ∀ {start count}, tableOffset ≤ start → slice after start count = slice image start count) :
    Holds imagePt base parts after where
  text := by
    intro some'
    rw [same (Nat.le_add_right _ _)]
    exact holds.text some'
  room := holds.room
  data := by
    intro placed member
    rw [same (Nat.le_add_right _ _)]
    exact holds.data placed member

theorem generateFactoryImage_spec
    (built : generateFactoryImage md5 vendor flashParts parts = some image) :
    Factory flashParts parts image := by
  rw [generateFactoryImage] at built
  obtain ⟨sized, first, built⟩ := Option.bind_eq_some_iff.mp built
  obtain ⟨labelled, second, built⟩ := Option.bind_eq_some_iff.mp built
  obtain ⟨filled, put, summed⟩ := Option.bind_eq_some_iff.mp built
  obtain ⟨kept, holds⟩ := putPartitions_spec (Nat.le_refl _) put
  constructor
  · rw [writeAt_length summed, kept.length, putVendor_length second, writeAt_length first,
      List.length_replicate]
  · apply holds.of_slices
    intro start count behind
    rw [slice_writeAt_after summed]
    rw [(md5 _).2]
    exact Nat.le_trans (by decide) behind
  · exact putPartitions_fits put

/-! ## What is accepted -/

theorem fwupLine_length_le (name : Text) (base size : Nat) :
    (fwupLine name base size).length ≤ name.length + 44 := by
  have small (value : Nat) : value % 2 ^ 32 < 2 ^ 32 := Nat.mod_lt _ (by decide)
  have baseDigits : (printHex 5 (base % 2 ^ 32)).length ≤ 8 := printHex_length_le (by decide) (small _)
  have sizeDigits : (printHex 5 (size % 2 ^ 32)).length ≤ 8 := printHex_length_le (by decide) (small _)
  have header : (ascii "fwup-ptn").length = 8 := rfl
  have baseWord : (ascii "base").length = 4 := rfl
  have sizeWord : (ascii "size").length = 4 := rfl
  simp only [fwupLine, tableLine, hexText, List.length_append, List.length_cons, List.length_nil,
    header, baseWord, sizeWord]
  omega

/-- The flash partition of a part, large enough for it. -/
def Targeted (flashParts : List FlashPartitionEntry) (part : ImagePartitionEntry) : Prop :=
  ∃ flashPart, flashParts.find? (fun p => p.name = part.name) = some flashPart ∧
    part.data.length ≤ flashPart.size.toNat

theorem putPartitions_exists (targets : ∀ part ∈ parts, Targeted flashParts part)
    (short : ∀ part ∈ parts, part.name.length ≤ 15) (behindTable : 0x800 ≤ base)
    (room : imagePt + parts.length * 60 < 0x800)
    (within : tableOffset + base + (parts.map fun part => part.data.length).sum ≤ image.length) :
    ∃ after, putPartitions flashParts parts imagePt base image = some after := by
  induction parts generalizing imagePt base image with
  | nil => exact ⟨image, rfl⟩
  | cons part rest ih =>
      obtain ⟨flashPart, found, fits⟩ := targets part List.mem_cons_self
      rw [List.map_cons, List.sum_cons] at within
      rw [List.length_cons] at room
      have line := fwupLine_length_le part.name base part.data.length
      have name := short part List.mem_cons_self
      have fits' : require (part.data.length ≤ flashPart.size.toNat) = some () := by
        rw [require_eq_some, decide_eq_true_iff]
        exact fits
      have lineFits : require ((fwupLine part.name base part.data.length).length ≤
          0x800 - imagePt - 1) = some () := by
        rw [require_eq_some, decide_eq_true_iff]
        omega
      obtain ⟨data, copied⟩ := writeAt_exists (show tableOffset + base + part.data.length ≤
        image.length by omega)
      have dataLength := writeAt_length copied
      have lineLength : (fwupLine part.name base part.data.length ++ [0]).length =
          (fwupLine part.name base part.data.length).length + 1 := by
        rw [List.length_append, List.length_singleton]
      obtain ⟨table, printed⟩ := writeAt_exists (show tableOffset + imagePt +
        (fwupLine part.name base part.data.length ++ [0]).length ≤ data.length by omega)
      have tableLength := writeAt_length printed
      obtain ⟨after, put⟩ := ih
        (fun other member => targets other (List.mem_cons_of_mem part member))
        (fun other member => short other (List.mem_cons_of_mem part member))
        (show 0x800 ≤ base + part.data.length by omega)
        (show imagePt + (fwupLine part.name base part.data.length).length + rest.length * 60 < 0x800 by
          omega)
        (show tableOffset + (base + part.data.length) +
          (rest.map fun part => part.data.length).sum ≤ table.length by omega)
      refine ⟨after, ?_⟩
      rw [putPartitions, found]
      simp only [Option.bind_eq_bind, Option.bind_some, fits', copied, lineFits, printed, put]

/-- Parts that fit their flash partitions make an image, as does any vendor text up to the parts. -/
theorem generateFactoryImage_exists (targets : ∀ part ∈ parts, Targeted flashParts part)
    (short : ∀ part ∈ parts, part.name.length ≤ 15) (few : parts.length ≤ 6)
    (vendorFits : ∀ text, vendor = some text → text.length ≤ 0x17fc) :
    ∃ image, generateFactoryImage md5 vendor flashParts parts = some image := by
  have size : imageSize parts = 0x1814 + (parts.map fun part => part.data.length).sum := rfl
  have blank : (List.replicate (imageSize parts) (0xff : UInt8)).length = imageSize parts :=
    List.length_replicate
  obtain ⟨sized, first⟩ := writeAt_exists (show 0 + (be32 (UInt32.ofNat (imageSize parts))).length ≤
    (List.replicate (imageSize parts) (0xff : UInt8)).length by rw [be32_length]; omega)
  have sizedLength := (writeAt_length first).trans blank
  obtain ⟨labelled, second⟩ : ∃ labelled, putVendor vendor sized = some labelled := by
    cases vendor with
    | none => exact ⟨sized, rfl⟩
    | some text =>
        have fits := vendorFits text rfl
        obtain ⟨middle, counted⟩ := writeAt_exists (show 0x14 +
          (be32 (UInt32.ofNat text.length)).length ≤ sized.length by rw [be32_length]; omega)
        have middleLength := writeAt_length counted
        obtain ⟨labelled, written⟩ := writeAt_exists (show 0x18 + text.length ≤ middle.length by omega)
        refine ⟨labelled, ?_⟩
        rw [putVendor]
        simp only [Option.bind_eq_bind, counted, Option.bind_some, written]
  have labelledLength := putVendor_length second
  have offset : tableOffset = 0x1014 := rfl
  obtain ⟨filled, put⟩ := putPartitions_exists targets short (Nat.le_refl 0x800)
    (show 0 + parts.length * 60 < 0x800 by omega)
    (show tableOffset + 0x800 + (parts.map fun part => part.data.length).sum ≤ labelled.length by omega)
  have filledLength := (putPartitions_spec (Nat.le_refl _) put).1.length
  obtain ⟨image, summed⟩ : ∃ image, putMd5 md5 filled = some image := by
    apply writeAt_exists
    rw [(md5 _).2]
    omega
  refine ⟨image, ?_⟩
  rw [generateFactoryImage]
  simp only [Option.bind_eq_bind, first, Option.bind_some, second, put, summed]

end Rut9xx.Safeloader
