import Rut9xx.Data.Endian
import Rut9xx.Data.Partial
import Rut9xx.Mtd.Jffs2
import Mathlib.Data.Int.DivMod

namespace Rut9xx.Trx

open Data

section

def trxMagic : UInt32 := 0x30524448
def trxFlagsOffset : Nat := 12
def trxMaxParts : Nat := 3

structure TrxHeader where
  magic : UInt32
  length : UInt32
  crc32 : UInt32
  flags : UInt16
  version : UInt16
  offset : List UInt32

def sizeofHdr : Nat := 28

def TrxHeader.bytes (hdr : TrxHeader) : List UInt8 :=
  le32 hdr.magic ++ (le32 hdr.length ++ (le32 hdr.crc32 ++ (le16 hdr.flags ++ (le16 hdr.version ++
    (le32 (hdr.offset.getD 0 0) ++ (le32 (hdr.offset.getD 1 0) ++ le32 (hdr.offset.getD 2 0)))))))

/-- `crc32_tbl` is the table of `crc32Entry`. -/
def otrxCrc32 (crc : UInt32) (buf : List UInt8) : UInt32 :=
  buf.foldl (fun crc byte => Mtd.crc32Entry ((crc ^^^ byte.toUInt32) &&& 0xff) ^^^ (crc >>> 8)) crc

/-- `fread` of up to `length` bytes from `offset` on. -/
def readFrom (file : List UInt8) (offset length : Nat) : List UInt8 := (file.drop offset).take length

/-! ## Create -/

/-- One option of `otrx create`: the contents of its file, none when it cannot be opened,
or what `strtol` makes of its argument. -/
inductive CreateOption where
  | f (file : Option (List UInt8))
  | A (file : Option (List UInt8))
  | a (alignment : Int)
  | b (offset : Int)

/-- `body` is what has been written behind the place of the header. -/
structure Creation where
  body : List UInt8
  currIdx : Nat
  currOffset : Nat
  offset : List UInt32

def Creation.start : Creation :=
  { body := [], currIdx := 0, currOffset := sizeofHdr, offset := List.replicate trxMaxParts 0 }

/-- Zeros behind the body, or the body as it was when `malloc` refuses them. -/
def otrxCreateAppendZeros (malloc : Nat → Bool) (length : Nat) (trx : Creation) : Creation :=
  if malloc length then
    { trx with body := trx.body ++ List.replicate length 0, currOffset := trx.currOffset + length }
  else trx

/-- No result when the remainder by an alignment of zero traps. -/
def otrxCreateAlign (malloc : Nat → Bool) (alignment : Nat) (trx : Creation) : Option Creation :=
  if trx.currOffset &&& ((alignment + 2 ^ 64 - 1) % 2 ^ 64) ≠ 0 then
    if alignment = 0 then none
    else some (otrxCreateAppendZeros malloc (alignment - trx.currOffset % alignment) trx)
  else some trx

def otrxCreateAppendFile (file : List UInt8) (trx : Creation) : Creation :=
  { trx with body := trx.body ++ file, currOffset := trx.currOffset + file.length }

/-- A round of the option loop; no result for the partition limit and the trap. -/
def createStep (malloc : Nat → Bool) (trx : Creation) : CreateOption → Option Creation
  | .f file =>
      if trx.currIdx ≥ trxMaxParts then none
      else
        let trx :=
          match file with
          | none => trx
          | some file =>
              otrxCreateAppendFile file
                { trx with
                    offset := trx.offset.set trx.currIdx (UInt32.ofNat trx.currOffset)
                    currIdx := trx.currIdx + 1 }
        otrxCreateAlign malloc 4 trx
  | .A file =>
      otrxCreateAlign malloc 4
        (match file with
        | none => trx
        | some file => otrxCreateAppendFile file trx)
  | .a alignment => otrxCreateAlign malloc (alignment % 2 ^ 64).toNat trx
  | .b offset =>
      -- long minus size_t, read as ssize_t
      let sbytes := Int.bmod (offset - trx.currOffset) (2 ^ 64)
      if sbytes < 0 then some trx else some (otrxCreateAppendZeros malloc sbytes.toNat trx)

def createRun (malloc : Nat → Bool) (trx : Creation) : List CreateOption → Option Creation
  | [] => some trx
  | option :: rest => (createStep malloc trx option).bind fun next => createRun malloc next rest

/-- The header is written with a CRC of zero, the file is read back, the header is written again. -/
def otrxCreateWriteHdr (body : List UInt8) (length : UInt32) (offset : List UInt32) : List UInt8 :=
  let hdr : TrxHeader :=
    { magic := trxMagic, length, crc32 := 0, flags := 0, version := 1, offset }
  let size := (length.toNat + 2 ^ 64 - trxFlagsOffset) % 2 ^ 64
  let crc32 := otrxCrc32 0xffffffff (readFrom (hdr.bytes ++ body) trxFlagsOffset size)
  { hdr with crc32 }.bytes ++ body

def otrxCreate (malloc : Nat → Bool) (options : List CreateOption) : Option (List UInt8) := do
  let trx ← createRun malloc Creation.start options
  let trx ← otrxCreateAlign malloc 0x1000 trx
  some (otrxCreateWriteHdr trx.body (UInt32.ofNat trx.currOffset) trx.offset)

/-! ## Check and extract -/

def readHeader (trx : List UInt8) (trxOffset : Nat) : Option TrxHeader :=
  let bytes := readFrom trx trxOffset sizeofHdr
  if bytes.length ≠ sizeofHdr then none
  else
    some
      { magic := le32At bytes 0
        length := le32At bytes 4
        crc32 := le32At bytes 8
        flags := UInt16.ofNat (le32At bytes 12).toNat
        version := UInt16.ofNat ((le32At bytes 12).toNat / 2 ^ 16)
        offset := [le32At bytes 16, le32At bytes 20, le32At bytes 24] }

def otrxCheck (trx : List UInt8) (trxOffset : Nat) : Bool :=
  match readHeader trx trxOffset with
  | none => false
  | some hdr =>
      if hdr.magic ≠ trxMagic ∨ hdr.length.toNat < sizeofHdr then false
      else
        let length := hdr.length.toNat - trxFlagsOffset
        let data := readFrom trx (trxOffset + trxFlagsOffset) length
        data.length = length ∧ otrxCrc32 0xffffffff data = hdr.crc32

def otrxExtractCopy (malloc : Nat → Bool) (trx : List UInt8) (offset length : Nat) :
    Option (List UInt8) :=
  if malloc length then
    let bytes := readFrom trx offset length
    if bytes.length ≠ length then none else some bytes
  else none

/-- What is written for partition `i`, counted from zero. -/
def otrxExtract (malloc : Nat → Bool) (trx : List UInt8) (trxOffset i : Nat) :
    Option (List UInt8) :=
  match readHeader trx trxOffset with
  | none => none
  | some hdr =>
      if hdr.magic ≠ trxMagic then none
      else if hdr.offset.getD i 0 = 0 then none
      else
        let length :=
          if i + 1 ≥ trxMaxParts ∨ hdr.offset.getD (i + 1) 0 = 0 then
            hdr.length - hdr.offset.getD i 0
          else hdr.offset.getD (i + 1) 0 - hdr.offset.getD i 0
        otrxExtractCopy malloc trx (trxOffset + (hdr.offset.getD i 0).toNat) length.toNat

end

/-! # What an image is for: a front part and partitions, each made of files and zeros -/

section

/-- The files one after the other, each followed by zero padding. -/
inductive Padded : List (List UInt8) → List UInt8 → Prop where
  | file (file : List UInt8) : Padded [file] file
  | zeros {files : List (List UInt8)} {content : List UInt8} (count : Nat)
      (padded : Padded files content) : Padded files (content ++ List.replicate count 0)
  | append {files : List (List UInt8)} {content : List UInt8} (file : List UInt8)
      (padded : Padded files content) : Padded (files ++ [file]) (content ++ file)

theorem Padded.nonempty {files : List (List UInt8)} {content : List UInt8}
    (padded : Padded files content) : files ≠ [] := by
  induction padded with
  | file file => simp
  | zeros count padded ih => exact ih
  | append file padded ih => simp

/-- Without appended files there is the file and its padding. -/
theorem Padded.single {files : List (List UInt8)} {file content : List UInt8}
    (padded : Padded files content) (single : files = [file]) :
    ∃ count, content = file ++ List.replicate count 0 := by
  induction padded with
  | file other =>
      cases single
      exact ⟨0, by simp⟩
  | zeros count padded ih =>
      obtain ⟨already, same⟩ := ih single
      exact ⟨already + count, by rw [same, List.append_assoc, List.replicate_append_replicate]⟩
  | append other padded ih =>
      have length := congrArg List.length single
      simp only [List.length_append, List.length_singleton, Nat.add_eq_right] at length
      exact absurd (List.eq_nil_of_length_eq_zero length) padded.nonempty

/-- The partitions an option list asks for, the latest first: each `-f` file that can be
opened, with the `-A` files given before the next. -/
def partitionStep (parts : List (List (List UInt8))) : CreateOption → List (List (List UInt8))
  | .f (some file) => [file] :: parts
  | .A (some file) =>
      match parts with
      | [] => []
      | last :: older => (last ++ [file]) :: older
  | _ => parts

def partitionFiles (options : List CreateOption) : List (List (List UInt8)) :=
  (options.foldl partitionStep []).reverse

variable {malloc : Nat → Bool} {trx next : Creation} {parts : List (List (List UInt8))}

/-- `contents` are the partitions as written, the latest first. -/
structure Laid (trx : Creation) (parts : List (List (List UInt8))) (front : List UInt8)
    (contents : List (List UInt8)) : Prop where
  padded : List.Forall₂ Padded parts contents
  body : trx.body = front ++ contents.reverse.flatten
  offset : trx.currOffset = sizeofHdr + trx.body.length
  count : trx.currIdx = contents.length
  atMost : contents.length ≤ trxMaxParts
  slots : trx.offset.length = trxMaxParts
  starts : ∀ index, index < contents.length → trx.offset[index]? =
    some (UInt32.ofNat (sizeofHdr + front.length + (contents.reverse.take index).flatten.length))
  free : ∀ index, contents.length ≤ index → index < trxMaxParts → trx.offset[index]? = some 0

theorem start_laid : Laid Creation.start [] [] [] where
  padded := .nil
  body := rfl
  offset := rfl
  count := rfl
  atMost := by decide
  slots := rfl
  starts := by simp
  free index _ inside := by
    simp only [Creation.start, List.getElem?_replicate, inside, if_true]

/-- Before the first partition whatever is written goes to the front part. -/
theorem Laid.grow_front {front bytes : List UInt8} (laid : Laid trx [] front []) :
    Laid { trx with body := trx.body ++ bytes, currOffset := trx.currOffset + bytes.length }
      [] (front ++ bytes) [] where
  padded := .nil
  body := by simp [laid.body]
  offset := by
    simp only [laid.offset, List.length_append]
    omega
  count := laid.count
  atMost := laid.atMost
  slots := laid.slots
  starts := by simp
  free := laid.free

/-- Otherwise it goes to the last partition. -/
theorem Laid.grow_last {front bytes content : List UInt8} {contents : List (List UInt8)}
    {files more : List (List UInt8)} (laid : Laid trx (files :: parts) front (content :: contents))
    (padded : Padded more (content ++ bytes)) :
    Laid { trx with body := trx.body ++ bytes, currOffset := trx.currOffset + bytes.length }
      (more :: parts) front ((content ++ bytes) :: contents) where
  padded := .cons padded (List.forall₂_cons.mp laid.padded).2
  body := by simp [laid.body]
  offset := by
    simp only [laid.offset, List.length_append]
    omega
  count := laid.count
  atMost := laid.atMost
  slots := laid.slots
  starts index inside := by
    have before := laid.starts index inside
    simp only [List.length_cons] at inside
    simp only [List.reverse_cons] at before ⊢
    rwa [List.take_append_of_le_length (by rw [List.length_reverse]; omega)] at before ⊢
  free := laid.free

/-- A `-f` file opens the next partition. -/
theorem Laid.open_part {front file : List UInt8} {contents : List (List UInt8)}
    (laid : Laid trx parts front contents) (room : trx.currIdx < trxMaxParts) :
    Laid (otrxCreateAppendFile file
        { trx with
            offset := trx.offset.set trx.currIdx (UInt32.ofNat trx.currOffset)
            currIdx := trx.currIdx + 1 })
      ([file] :: parts) front (file :: contents) where
  padded := .cons (.file file) laid.padded
  body := by simp [otrxCreateAppendFile, laid.body]
  offset := by
    simp only [otrxCreateAppendFile, laid.offset, List.length_append]
    omega
  count := by simp only [otrxCreateAppendFile, laid.count, List.length_cons]
  atMost := by
    rw [List.length_cons, ← laid.count]
    exact room
  slots := by simp only [otrxCreateAppendFile, List.length_set, laid.slots]
  starts index inside := by
    simp only [List.length_cons] at inside
    simp only [otrxCreateAppendFile, List.reverse_cons]
    rw [List.take_append_of_le_length (by rw [List.length_reverse]; omega)]
    by_cases here : index = contents.length
    · rw [here, laid.count, List.getElem?_set_self (by rw [laid.slots, ← laid.count]; exact room),
        laid.offset, laid.body, List.take_of_length_le (by rw [List.length_reverse]),
        List.length_append, Nat.add_assoc]
    · rw [laid.count, List.getElem?_set_ne (by omega)]
      exact laid.starts index (by omega)
  free index outside inside := by
    simp only [List.length_cons] at outside
    simp only [otrxCreateAppendFile]
    rw [laid.count, List.getElem?_set_ne (by omega)]
    exact laid.free index (by omega) inside

/-! ## Every option keeps the layout -/

def IsLaid (trx : Creation) (parts : List (List (List UInt8))) : Prop :=
  ∃ front contents, Laid trx parts front contents

theorem IsLaid.zeros (laid : IsLaid trx parts) (length : Nat) :
    IsLaid (otrxCreateAppendZeros malloc length trx) parts := by
  unfold otrxCreateAppendZeros
  split
  · obtain ⟨front, contents, laid⟩ := laid
    have size : length = (List.replicate length (0 : UInt8)).length := by simp
    cases contents with
    | nil =>
        cases laid.padded
        refine ⟨front ++ List.replicate length 0, [], ?_⟩
        have grown := @Laid.grow_front _ front (List.replicate length 0) laid
        rwa [List.length_replicate] at grown
    | cons content contents =>
        cases parts with
        | nil => cases laid.padded
        | cons files parts =>
            have padded := (List.forall₂_cons.mp laid.padded).1
            have grown := laid.grow_last (padded.zeros length)
            rw [List.length_replicate] at grown
            exact ⟨_, _, grown⟩
  · exact laid

theorem IsLaid.align {alignment : Nat} (laid : IsLaid trx parts)
    (aligned : otrxCreateAlign malloc alignment trx = some next) : IsLaid next parts := by
  unfold otrxCreateAlign at aligned
  split at aligned
  · split at aligned
    · cases aligned
    · cases aligned
      exact laid.zeros _
  · cases aligned
    exact laid

theorem IsLaid.append {file : List UInt8} (laid : IsLaid trx parts) :
    IsLaid (otrxCreateAppendFile file trx) (partitionStep parts (.A (some file))) := by
  obtain ⟨front, contents, laid⟩ := laid
  cases contents with
  | nil =>
      cases laid.padded
      exact ⟨_, _, laid.grow_front⟩
  | cons content contents =>
      cases parts with
      | nil => cases laid.padded
      | cons files parts =>
          have padded := (List.forall₂_cons.mp laid.padded).1
          exact ⟨_, _, laid.grow_last (padded.append file)⟩

theorem createStep_laid {option : CreateOption} (laid : IsLaid trx parts)
    (stepped : createStep malloc trx option = some next) :
    IsLaid next (partitionStep parts option) := by
  cases option with
  | f file =>
      simp only [createStep] at stepped
      split at stepped
      · cases stepped
      · rename_i room
        cases file with
        | none => exact laid.align stepped
        | some file =>
            obtain ⟨front, contents, laid⟩ := laid
            exact IsLaid.align ⟨_, _, laid.open_part (by omega)⟩ stepped
  | A file =>
      simp only [createStep] at stepped
      cases file with
      | none => exact laid.align stepped
      | some file => exact laid.append.align stepped
  | a alignment => exact laid.align stepped
  | b offset =>
      simp only [createStep] at stepped
      split at stepped
      · cases stepped
        exact laid
      · cases stepped
        exact laid.zeros _

theorem createRun_laid {options : List CreateOption} (laid : IsLaid trx parts)
    (ran : createRun malloc trx options = some next) :
    IsLaid next (options.foldl partitionStep parts) := by
  induction options generalizing trx parts with
  | nil =>
      cases ran
      exact laid
  | cons option rest ih =>
      obtain ⟨middle, stepped, finished⟩ := Option.bind_eq_some_iff.mp ran
      exact ih (createStep_laid laid stepped) finished

end

end Rut9xx.Trx
