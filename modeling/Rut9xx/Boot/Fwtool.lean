import Rut9xx.Boot.Bootm
import Rut9xx.Data.Search

namespace Rut9xx.Boot

open Data

/-! # The trailers of a firmware image, and the manifest between them -/

def FWIMAGE_MAGIC : UInt32 := 0x46577830

/-- `sizeof(struct fwimage_trailer)`. -/
def fwimageTrailerSize : UInt32 := 16

/-- `sizeof(buffer)`. -/
def manifestBufferSize : UInt32 := 512

structure FwimageTrailer where
  magic : UInt32
  crc32 : UInt32
  type : UInt8
  size : UInt32

inductive FwtoolRetId where
  | firmwareValid
  | invalidFile
  deriving DecidableEq, Repr

/-- Bytes the function reads from the image, by their offset in it, and bytes it writes into its
buffer, by their index. -/
inductive FwtoolAccess where
  | image (offset : UInt32) (count : Nat)
  | buffer (index : Int) (count : Nat)
  deriving DecidableEq, Repr

def FwtoolAccess.InBounds (length : UInt32) : FwtoolAccess → Prop
  | .image offset count => count = 0 ∨ offset.toNat + count ≤ length.toNat
  | .buffer index count => count = 0 ∨ (0 ≤ index ∧ index + count ≤ 512)

section

variable (memory : Memory) (ptr offset size length : UInt32)

def readTrailer : FwimageTrailer :=
  let tr := ptr + offset
  ⟨memory.word tr, memory.word (tr + 4), memory (tr + 8), memory.word (tr + 12)⟩

/-- The check both trailers are put to. -/
def FwimageTrailer.Accepted (tr : FwimageTrailer) : Prop :=
  tr.magic = FWIMAGE_MAGIC ∧ tr.size < length

instance (tr : FwimageTrailer) : Decidable (tr.Accepted length) :=
  inferInstanceAs (Decidable (_ ∧ _))

/-- `offset` after the manifest trailer has been taken from it. -/
def manifestOffset : UInt32 := offset - (size - fwimageTrailerSize - 8)

/-- `len`, an `int` that is compared with a `size_t`. -/
def manifestLen : UInt32 :=
  if manifestBufferSize < size - fwimageTrailerSize then manifestBufferSize
  else size - fwimageTrailerSize

/-- The zeroed buffer with the manifest copied in and the last byte of the copy overwritten. -/
def manifestBuffer : List UInt8 :=
  let len := (manifestLen size).toNat
  memory.bytes (ptr + manifestOffset offset size) (len - 1) ++ List.replicate (512 - (len - 1)) 0

def manifestAccesses : List FwtoolAccess :=
  let len := (manifestLen size).toNat
  [.image (manifestOffset offset size) len, .buffer 0 len, .buffer (len - 1 : Int) 1]

end

def supportedDevices : List UInt8 := "supported_devices".toUTF8.toList
def teltonika : List UInt8 := "teltonika,".toUTF8.toList

/-- The three `strstr`s on the text up to the first NUL. -/
def checkManifest (deviceModelManifest buffer : List UInt8) : FwtoolRetId :=
  let text := buffer.takeWhile (· ≠ 0)
  if strstr supportedDevices text = none then .invalidFile
  else if strstr teltonika text = none then .invalidFile
  else if strstr deviceModelManifest text = none then .invalidFile
  else .firmwareValid

/-- The accesses made, in order, and the value returned. -/
def fwtoolValidateManifest (deviceModelManifest : List UInt8) (memory : Memory)
    (ptr length : UInt32) : List FwtoolAccess × FwtoolRetId :=
  if length < fwimageTrailerSize * 2 then ([], .invalidFile)
  else
    let signatureAt := length - fwimageTrailerSize
    let signature := readTrailer memory ptr signatureAt
    if signature.Accepted length then
      let manifestAt := length - fwimageTrailerSize - signature.size
      let manifest := readTrailer memory ptr manifestAt
      if manifest.Accepted length then
        (.image signatureAt 16 :: .image manifestAt 16 :: manifestAccesses manifestAt manifest.size,
          checkManifest deviceModelManifest (manifestBuffer memory ptr manifestAt manifest.size))
      else ([.image signatureAt 16, .image manifestAt 16], .invalidFile)
    else ([.image signatureAt 16], .invalidFile)

/-! ## Which trailers keep the accesses inside -/

variable {deviceModelManifest : List UInt8} {memory : Memory}
  {ptr length offset size signatureSize : UInt32}

/-- The trailer in front of a signature of this size lies in the image. -/
def SignatureInside (length signatureSize : Nat) : Prop := signatureSize + 16 ≤ length

/-- How much of a manifest of this size is copied. -/
def manifestCopied (manifestSize : Nat) : Nat :=
  if manifestSize < 16 ∨ 528 < manifestSize then 512 else manifestSize - 16

/-- There is a byte to copy, and what is copied lies in the image; offsets count modulo 2 ^ 32. -/
def ManifestInside (length signatureSize manifestSize : Nat) : Prop :=
  manifestSize ≠ 16 ∧
    (((length : Int) - 16 - signatureSize + 24 - manifestSize) % 2 ^ 32).toNat +
      manifestCopied manifestSize ≤ length

/-- The sizes in the trailers that are looked at agree with the image. -/
def TrailersInside (memory : Memory) (ptr length : UInt32) : Prop :=
  let signature := readTrailer memory ptr (length - fwimageTrailerSize)
  let manifest := readTrailer memory ptr (length - fwimageTrailerSize - signature.size)
  fwimageTrailerSize * 2 ≤ length → signature.Accepted length →
    SignatureInside length.toNat signature.size.toNat ∧
    (manifest.Accepted length → ManifestInside length.toNat signature.size.toNat manifest.size.toNat)

theorem manifestLen_eq : (manifestLen size).toNat = manifestCopied size.toNat := by
  have bound := size.toNat_lt
  have less : (size - fwimageTrailerSize).toNat = (2 ^ 32 - 16 + size.toNat) % 2 ^ 32 :=
    UInt32.toNat_sub size fwimageTrailerSize
  unfold manifestLen manifestCopied
  split
  · rename_i long
    have many : 512 < (size - fwimageTrailerSize).toNat := UInt32.lt_iff_toNat_lt.mp long
    rw [if_pos (by omega)]
    rfl
  · rename_i short
    have few : (size - fwimageTrailerSize).toNat ≤ 512 :=
      Nat.le_of_not_lt fun many => short (UInt32.lt_iff_toNat_lt.mpr many)
    rw [less]
    split <;> omega

theorem manifestCopied_le (manifestSize : Nat) : manifestCopied manifestSize ≤ 512 := by
  unfold manifestCopied
  split <;> omega

theorem manifestCopied_eq_zero_iff {manifestSize : Nat} :
    manifestCopied manifestSize = 0 ↔ manifestSize = 16 := by
  unfold manifestCopied
  split <;> omega

theorem signatureTrailer_inside (enough : fwimageTrailerSize * 2 ≤ length) :
    (FwtoolAccess.image (length - fwimageTrailerSize) 16).InBounds length := by
  have bound := length.toNat_lt
  have long : 32 ≤ length.toNat := UInt32.le_iff_toNat_le.mp enough
  have less : (length - fwimageTrailerSize).toNat = (2 ^ 32 - 16 + length.toNat) % 2 ^ 32 :=
    UInt32.toNat_sub length fwimageTrailerSize
  right
  omega

theorem manifestAt_toNat : (length - fwimageTrailerSize - signatureSize).toNat =
    (((length.toNat : Int) - 16 - signatureSize.toNat) % 2 ^ 32).toNat := by
  have less : (length - fwimageTrailerSize).toNat = (2 ^ 32 - 16 + length.toNat) % 2 ^ 32 :=
    UInt32.toNat_sub length fwimageTrailerSize
  have bound := length.toNat_lt
  have sizeBound := signatureSize.toNat_lt
  rw [UInt32.toNat_sub, less]
  omega

theorem manifestTrailer_inside_iff (small : signatureSize < length) :
    (FwtoolAccess.image (length - fwimageTrailerSize - signatureSize) 16).InBounds length ↔
      SignatureInside length.toNat signatureSize.toNat := by
  have below := UInt32.lt_iff_toNat_lt.mp small
  have bound := length.toNat_lt
  unfold FwtoolAccess.InBounds SignatureInside
  dsimp only
  rw [manifestAt_toNat]
  omega

theorem manifestOffset_toNat :
    (manifestOffset (length - fwimageTrailerSize - signatureSize) size).toNat =
      (((length.toNat : Int) - 16 - signatureSize.toNat + 24 - size.toNat) % 2 ^ 32).toNat := by
  have less : (size - fwimageTrailerSize).toNat = (2 ^ 32 - 16 + size.toNat) % 2 ^ 32 :=
    UInt32.toNat_sub size fwimageTrailerSize
  have lessHeader : (size - fwimageTrailerSize - 8).toNat =
      (2 ^ 32 - 8 + (size - fwimageTrailerSize).toNat) % 2 ^ 32 :=
    UInt32.toNat_sub (size - fwimageTrailerSize) 8
  have sizeBound := size.toNat_lt
  have lengthBound := length.toNat_lt
  have signatureBound := signatureSize.toNat_lt
  rw [manifestOffset, UInt32.toNat_sub, lessHeader, less, manifestAt_toNat]
  omega

theorem manifestAccesses_inside_iff :
    (∀ access ∈ manifestAccesses (length - fwimageTrailerSize - signatureSize) size,
      access.InBounds length) ↔ ManifestInside length.toNat signatureSize.toNat size.toNat := by
  have few := manifestCopied_le size.toNat
  have none := @manifestCopied_eq_zero_iff size.toNat
  simp only [manifestAccesses, List.forall_mem_cons, FwtoolAccess.InBounds, manifestOffset_toNat,
    manifestLen_eq]
  unfold ManifestInside
  constructor
  · rintro ⟨image, -, last, -⟩
    omega
  · rintro ⟨some', image⟩
    exact ⟨Or.inr image, by omega, by omega, by simp⟩

/-- Nothing outside of the image is read and nothing outside of the buffer written exactly when the
sizes agree; whatever they are, the walk is over after the second trailer. -/
theorem fwtoolValidateManifest_inBounds_iff (deviceModelManifest : List UInt8) (memory : Memory)
    (ptr length : UInt32) :
    ((∀ access ∈ (fwtoolValidateManifest deviceModelManifest memory ptr length).1,
      access.InBounds length) ↔ TrailersInside memory ptr length) ∧
    (fwtoolValidateManifest deviceModelManifest memory ptr length).1.length ≤ 5 := by
  unfold fwtoolValidateManifest TrailersInside
  by_cases short : length < fwimageTrailerSize * 2
  · rw [if_pos short]
    have never : ¬ fwimageTrailerSize * 2 ≤ length := UInt32.not_le.mpr short
    exact ⟨iff_of_true (by simp) (fun enough => absurd enough never), by simp⟩
  · rw [if_neg short]
    have enough : fwimageTrailerSize * 2 ≤ length := UInt32.not_lt.mp short
    have first := signatureTrailer_inside enough
    dsimp only
    generalize readTrailer memory ptr (length - fwimageTrailerSize) = signature
    by_cases accepted : signature.Accepted length
    · rw [if_pos accepted]
      have second := manifestTrailer_inside_iff accepted.2
      generalize readTrailer memory ptr (length - fwimageTrailerSize - signature.size) = manifest
      by_cases followed : manifest.Accepted length
      · rw [if_pos followed]
        have third := @manifestAccesses_inside_iff length manifest.size signature.size
        refine ⟨?_, by simp [manifestAccesses]⟩
        simp only [List.forall_mem_cons, second, third, first, enough, accepted, followed,
          true_and, forall_const]
      · rw [if_neg followed]
        refine ⟨?_, by simp⟩
        simp only [List.forall_mem_cons, List.not_mem_nil, second, first, enough, accepted,
          followed, true_and, and_true, forall_const, IsEmpty.forall_iff, implies_true]
    · rw [if_neg accepted]
      refine ⟨?_, by simp⟩
      simp only [List.forall_mem_cons, List.not_mem_nil, first, accepted, true_and,
        IsEmpty.forall_iff, implies_true]

/-- In an image below 2 GiB: the manifest reaches back over its header to the image's start at
most, or, when its size does not even cover the trailer, ends early enough for a full buffer. -/
theorem manifestInside_iff_of_small {length signatureSize manifestSize : Nat}
    (small : length < 2 ^ 31) (below : manifestSize < length)
    (inside : SignatureInside length signatureSize) :
    ManifestInside length signatureSize manifestSize ↔
      (manifestSize < 16 ∧ 520 ≤ signatureSize + manifestSize) ∨
        (16 < manifestSize ∧ signatureSize + manifestSize ≤ length + 8) := by
  unfold SignatureInside at inside
  unfold ManifestInside manifestCopied
  split <;> omega

/-- 32 bytes that end in a trailer which claims a signature of 31. -/
def oversizedSignature : Memory := fun address =>
  if address = 16 then 0x46 else if address = 17 then 0x57 else if address = 18 then 0x78
  else if address = 19 then 0x30 else if address = 31 then 31 else 0

/-- The second trailer would begin 15 bytes in front of the image. -/
theorem trailer_read_before_image :
    ¬ ∀ (deviceModelManifest : List UInt8) (memory : Memory) (ptr length : UInt32),
      ∀ access ∈ (fwtoolValidateManifest deviceModelManifest memory ptr length).1,
        access.InBounds length := by
  intro always
  have read : FwtoolAccess.image (0 - 15) 16 ∈
      (fwtoolValidateManifest [] oversizedSignature 0 32).1 := by decide
  have inside := always [] oversizedSignature 0 32 _ read
  revert inside
  unfold FwtoolAccess.InBounds
  decide

end Rut9xx.Boot
