import Rut9xx.Data.Endian
import Rut9xx.Data.FileReads
import Rut9xx.Data.PackedStrings
import Rut9xx.Data.Partial
import Rut9xx.Tplink.Builder
import Mathlib.Order.MinMax

namespace Rut9xx.Seama

open Data
open Tplink (Md5Sum)

/-! # `seama`: verifying and sealing

Files can be opened, and reads only come up short at the end of a file.
-/

section

def SEAMA_MAGIC : UInt32 := 0x5EA3A417
def MAX_SEAMA_META_SIZE : Nat := 1024

/-- `sizeof(seamahdr_t)`. -/
def seamahdrSize : Nat := 12

/-- `ntohs(shdr.metasize)`. -/
def metasize (shdr : List UInt8) : Nat := 2 ^ 8 * (shdr.getD 6 0).toNat + (shdr.getD 7 0).toNat

/-- `ntohl(shdr.size)`. -/
def imageSize (shdr : List UInt8) : Nat := (be32At shdr 8).toNat

theorem metasize_take {bytes : List UInt8} {count : Nat} (within : 8 ≤ count) :
    metasize (bytes.take count) = metasize bytes := by
  rw [metasize, metasize, List.getD_eq_getElem?_getD, List.getD_eq_getElem?_getD,
    List.getElem?_take_of_lt (by omega), List.getElem?_take_of_lt (by omega),
    ← List.getD_eq_getElem?_getD, ← List.getD_eq_getElem?_getD]

theorem imageSize_take {bytes : List UInt8} {count : Nat} (within : 12 ≤ count) :
    imageSize (bytes.take count) = imageSize bytes := by
  rw [imageSize, imageSize, be32At_take within]

/-- The checksum exists only if the size is greater than zero. -/
def checksumSize (isize : Nat) : Nat := if isize = 0 then 0 else 16

/-- One round over the file: whether it carried an image, and how it goes on.  No result where the
loop breaks off. -/
def verifyRound (md5 : List UInt8 → Md5Sum) (file : ReadStream) : Option (Bool × ReadStream) := do
  require (!file.eof)
  let (shdr, file) := file.fread seamahdrSize
  require (shdr.length = seamahdrSize)
  require (be32At shdr 0 = SEAMA_MAGIC)
  let isize := imageSize shdr
  let msize := metasize shdr
  let (checksum, file) := file.fread (checksumSize isize)
  require (checksum.length = checksumSize isize)
  require (msize ≤ MAX_SEAMA_META_SIZE)
  let (buf, file) := file.fread msize
  require (buf.length = msize)
  let (image, file) := file.fread isize
  require (isize = 0 ∨ checksum = (md5 image).val)
  some (decide (isize ≠ 0), file)

theorem verifyRound_shorter {md5 : List UInt8 → Md5Sum} {file next : ReadStream} {carried : Bool}
    (round : verifyRound md5 file = some (carried, next)) : next.rest.length < file.rest.length := by
  simp only [verifyRound, Option.bind_eq_bind, Option.bind_eq_some_iff, require_eq_some,
    exists_const, Option.some.injEq, Prod.mk.injEq, ReadStream.fread_data,
    ReadStream.fread_rest] at round
  obtain ⟨-, header, -, -, -, -, -, -, rfl⟩ := round
  have header := of_decide_eq_true header
  rw [List.length_take, seamahdrSize] at header
  simp only [ReadStream.fread_rest, List.length_drop, seamahdrSize]
  omega

/-- `ret` says whether an entity was found good so far. -/
def verifyLoop (md5 : List UInt8 → Md5Sum) (file : ReadStream) (ret : Bool) : Bool :=
  match _ : verifyRound md5 file with
  | none => ret
  | some (carried, next) => verifyLoop md5 next (ret || carried)
termination_by file.rest.length
decreasing_by exact verifyRound_shorter ‹_›

/-- Whether `verify_seama` returns 0. -/
def verifySeama (md5 : List UInt8 → Md5Sum) (file : List UInt8) : Bool :=
  verifyLoop md5 ⟨file, false⟩ false

/-- The arguments of `-m`, each with its end. -/
def metaText (metas : List CText) : List UInt8 := metas.flatMap fun text => text.val ++ [0]

/-- The size goes through a `uint16_t`. -/
def sealHeader (metas : List CText) : List UInt8 :=
  let size := (metaText metas).length % 2 ^ 16
  be32 SEAMA_MAGIC ++ be16 0 ++ be16 (UInt16.ofNat ((size + 3) / 4 * 4)) ++ be32 0

def sealMetaData (metas : List CText) : List UInt8 :=
  let size := (metaText metas).length
  metaText metas ++ List.replicate ((size + 3) / 4 * 4 - size) 0

/-- What `seal_files` writes, unless it refuses a file. -/
def sealFiles (md5 : List UInt8 → Md5Sum) (metas : List CText) (files : List (List UInt8)) :
    Option (List UInt8) :=
  if files.all (verifySeama md5) then some (sealHeader metas ++ sealMetaData metas ++ files.flatten)
  else none

end

/-! # The entities of a file, and what verifying it says of them -/

section

variable {md5 : List UInt8 → Md5Sum} {bytes : List UInt8} {file : ReadStream} {ret : Bool}

structure Entity where
  size : Nat
  metasize : Nat
  checksum : List UInt8
  metadata : List UInt8
  image : List UInt8

def Entity.CarriesImage (entity : Entity) : Prop := entity.size ≠ 0

instance (entity : Entity) : Decidable entity.CarriesImage := inferInstanceAs (Decidable (_ ≠ _))

def HasHeader (bytes : List UInt8) : Prop :=
  seamahdrSize ≤ bytes.length ∧ be32At bytes 0 = SEAMA_MAGIC

instance : Decidable (HasHeader bytes) := inferInstanceAs (Decidable (_ ∧ _))

/-- The entity that begins with `bytes`; its parts end where the file does. -/
def entityAt (bytes : List UInt8) : Entity where
  size := imageSize bytes
  metasize := metasize bytes
  checksum := slice bytes seamahdrSize (checksumSize (imageSize bytes))
  metadata := slice bytes (seamahdrSize + checksumSize (imageSize bytes)) (metasize bytes)
  image := slice bytes (seamahdrSize + checksumSize (imageSize bytes) + metasize bytes)
    (imageSize bytes)

def entityLength (bytes : List UInt8) : Nat :=
  seamahdrSize + checksumSize (imageSize bytes) + metasize bytes + imageSize bytes

/-- One entity stands behind the other, up to where no header follows. -/
def entities (bytes : List UInt8) : List Entity :=
  if HasHeader bytes then entityAt bytes :: entities (bytes.drop (entityLength bytes)) else []
termination_by bytes.length
decreasing_by
  rename_i headed
  have long := headed.1
  rw [List.length_drop, entityLength]
  rw [seamahdrSize] at long ⊢
  omega

/-- The stored digest is that of the image, and the metadata fits the buffer. -/
def Entity.Good (md5 : List UInt8 → Md5Sum) (entity : Entity) : Prop :=
  entity.checksum = (md5 entity.image).val ∧ entity.metasize ≤ MAX_SEAMA_META_SIZE

/-- Every entity of the file that carries an image is good. -/
def Undamaged (md5 : List UInt8 → Md5Sum) (bytes : List UInt8) : Prop :=
  ∀ entity ∈ entities bytes, entity.CarriesImage → entity.Good md5

/-- The walk of `verify_seama` goes on behind the entity. -/
def Entity.Passes (md5 : List UInt8 → Md5Sum) (entity : Entity) : Prop :=
  entity.metasize ≤ MAX_SEAMA_META_SIZE ∧ entity.metadata.length = entity.metasize ∧
    (entity.CarriesImage → entity.checksum = (md5 entity.image).val)

instance (entity : Entity) : Decidable (entity.Passes md5) := inferInstanceAs (Decidable (_ ∧ _ ∧ _))

/-- What the walk gets to see: the entities in front of the first that it breaks off at. -/
def walked (md5 : List UInt8 → Md5Sum) (bytes : List UInt8) : List Entity :=
  (entities bytes).takeWhile fun entity => decide (entity.Passes md5)

/-! ## The walk -/

/-- The file when its first entity has been read. -/
def behindEntity (file : ReadStream) : ReadStream :=
  ((((file.fread seamahdrSize).2.fread (checksumSize (imageSize file.rest))).2.fread
    (metasize file.rest)).2.fread (imageSize file.rest)).2

theorem behindEntity_rest : (behindEntity file).rest = file.rest.drop (entityLength file.rest) := by
  simp only [behindEntity, ReadStream.fread_rest, List.drop_drop, entityLength]

theorem behindEntity_settled (settled : file.Settled) : (behindEntity file).Settled :=
  ReadStream.fread_settled (ReadStream.fread_settled (ReadStream.fread_settled
    (ReadStream.fread_settled settled)))

theorem hasHeader_iff : (bytes.take seamahdrSize).length = seamahdrSize ∧
    be32At (bytes.take seamahdrSize) 0 = SEAMA_MAGIC ↔ HasHeader bytes := by
  rw [HasHeader, be32At_take (show 0 + 4 ≤ seamahdrSize by decide), List.length_take, min_eq_left_iff]

/-- What a round asks of the entity. -/
theorem passes_iff : (entityAt bytes).Passes md5 ↔
    (entityAt bytes).checksum.length = checksumSize (imageSize bytes) ∧
      metasize bytes ≤ MAX_SEAMA_META_SIZE ∧ (entityAt bytes).metadata.length = metasize bytes ∧
      (imageSize bytes = 0 ∨ (entityAt bytes).checksum = (md5 (entityAt bytes).image).val) := by
  rw [Entity.Passes, Entity.CarriesImage]
  show _ ∧ _ ∧ (imageSize bytes ≠ 0 → _) ↔ _
  rw [← or_iff_not_imp_left]
  constructor
  · rintro ⟨small, whole, digest⟩
    refine ⟨?_, small, whole, digest⟩
    rcases digest with none' | digest
    · rw [checksumSize, if_pos none']
      show (slice bytes seamahdrSize (checksumSize (imageSize bytes))).length = 0
      rw [checksumSize, if_pos none', slice, List.take_zero, List.length_nil]
    · by_cases none' : imageSize bytes = 0
      · show (slice bytes seamahdrSize (checksumSize (imageSize bytes))).length = _
        rw [checksumSize, if_pos none', slice, List.take_zero, List.length_nil]
      · rw [digest, checksumSize, if_neg none']
        exact (md5 _).property
  · rintro ⟨-, small, whole, digest⟩
    exact ⟨small, whole, digest⟩

theorem verifyRound_eq_some_iff {carried : Bool} {next : ReadStream} :
    verifyRound md5 file = some (carried, next) ↔
      file.eof = false ∧ HasHeader file.rest ∧ (entityAt file.rest).Passes md5 ∧
        decide (entityAt file.rest).CarriesImage = carried ∧ behindEntity file = next := by
  simp only [verifyRound, Option.bind_eq_bind, Option.bind_eq_some_iff, require_eq_some,
    decide_eq_true_eq, exists_const, Option.some.injEq, Prod.mk.injEq, Bool.not_eq_true']
  simp only [ReadStream.fread_data, ReadStream.fread_rest, imageSize_take (Nat.le_refl seamahdrSize),
    metasize_take (show 8 ≤ seamahdrSize by decide), List.drop_drop]
  rw [← hasHeader_iff, passes_iff]
  simp only [and_assoc]
  rfl

theorem walked_stops (stops : ¬ (HasHeader bytes ∧ (entityAt bytes).Passes md5)) :
    walked md5 bytes = [] := by
  rw [walked, entities]
  split
  · rename_i headed
    rw [List.takeWhile_cons_of_neg]
    rw [decide_eq_true_eq]
    exact fun passes => stops ⟨headed, passes⟩
  · rfl

theorem walked_goesOn (headed : HasHeader bytes) (passes : (entityAt bytes).Passes md5) :
    walked md5 bytes = entityAt bytes :: walked md5 (bytes.drop (entityLength bytes)) := by
  rw [walked, entities, if_pos headed, List.takeWhile_cons, decide_eq_true passes,
    if_pos rfl, walked]

/-- Only an entity that the walk comes to makes the result good, and none makes it bad again. -/
theorem verifyLoop_eq (settled : file.Settled) : verifyLoop md5 file ret = true ↔
    ret = true ∨ ∃ entity ∈ walked md5 file.rest, entity.CarriesImage := by
  induction file, ret using verifyLoop.induct md5 with
  | case1 file ret stops =>
      rw [verifyLoop]
      split
      · have nothing : walked md5 file.rest = [] := by
          apply walked_stops
          intro ⟨headed, passes⟩
          cases eof : file.eof with
          | true =>
              have long := headed.1
              rw [settled eof] at long
              exact absurd long (by decide)
          | false =>
              have round := @verifyRound_eq_some_iff md5 file _ _ |>.mpr ⟨eof, headed, passes, rfl, rfl⟩
              rw [stops] at round
              cases round
        simp [nothing]
      · rename_i round
        rw [stops] at round
        cases round
  | case2 file ret carried next round ih =>
      obtain ⟨-, headed, passes, carries, rfl⟩ := verifyRound_eq_some_iff.mp round
      rw [verifyLoop]
      split
      · rename_i stops
        rw [stops] at round
        cases round
      · rename_i again
        rw [round] at again
        cases again
        rw [ih (behindEntity_settled settled), behindEntity_rest, walked_goesOn headed passes,
          Bool.or_eq_true, ← carries, decide_eq_true_eq, or_assoc]
        simp only [List.exists_mem_cons_iff]

theorem verifySeama_iff : verifySeama md5 bytes = true ↔
    ∃ entity ∈ walked md5 bytes, entity.CarriesImage := by
  have fresh : ReadStream.Settled ⟨bytes, false⟩ := by
    intro impossible
    cases impossible
  rw [verifySeama, verifyLoop_eq fresh]
  simp

/-- No image stands in front of the first entity that the walk breaks off at, unless none of them
is damaged. -/
def Covered (md5 : List UInt8 → Md5Sum) (bytes : List UInt8) : Prop :=
  Undamaged md5 bytes ∨ ∀ entity ∈ walked md5 bytes, ¬ entity.CarriesImage

theorem verifySeama_covers_iff :
    (verifySeama md5 bytes = true → Undamaged md5 bytes) ↔ Covered md5 bytes := by
  rw [verifySeama_iff, Covered, imp_iff_not_or, or_comm]
  simp only [not_exists, not_and]

end

end Rut9xx.Seama
