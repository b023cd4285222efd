import Rut9xx.Data.Loop
import Rut9xx.Data.PackedStrings
import Rut9xx.Data.FileReads
import Rut9xx.Oseama.Extract

namespace Rut9xx.Oseama

open Data Relation
open Seama (SEAMA_MAGIC metasize imageSize)

/-! # `oseama info`

What is printed is left out, apart from the strings of the metadata.
-/

/-- How each call turns out; those in the loop over the entities are numbered. -/
structure InfoCalls where
  openSeama : Bool
  sealRead : Limit
  metaRead : Limit
  headerRead : Nat → Limit
  skipSeek : Nat → Bool
  entityMetaRead : Nat → Limit
  imageSeek : Nat → Bool

def EINVAL : Int := 22
def EIO : Int := 5
def EACCES : Int := 13

/-- The strings from `tmp` up to `last`; no result where one is read on behind the buffer. -/
def metaEntries (buf : List UInt8) (last tmp : Nat) : Option (List (List UInt8)) :=
  if tmp < last then
    match _ : strEnd buf tmp with
    | none => none
    | some place =>
        if place = tmp then some []
        else (metaEntries buf last (place + 1)).map (slice buf tmp (place - tmp) :: ·)
  else some []
termination_by last - tmp
decreasing_by
  have := (strEnd_eq_some ‹_›).1
  omega

/-- Ends the metadata with a zero and goes over it; no result where that byte is in front of the
buffer. -/
def showMeta (buf : Cells bufSize) (metasize : Nat) : Option (List (List UInt8)) :=
  if metasize = 0 then none
  else metaEntries (buf.val.set (metasize - 1) 0) (metasize - 1) 0

structure InfoState where
  i : Nat
  pos : Nat
  buf : Cells bufSize

/-- One round of `oseama_info_entities`, or what the function returns. -/
def infoStep (calls : InfoCalls) (file : List UInt8) (entityIdx : Int) (state : InfoState) :
    Option (InfoState ⊕ Int) :=
  let hdr := freadAt file state.pos entityHeaderSize (calls.headerRead state.i)
  if hdr.length ≠ entityHeaderSize then some (.inr 0)
  else if be32At hdr 0 ≠ SEAMA_MAGIC then some (.inr (-EINVAL))
  else
    let behind := state.pos + entityHeaderSize
    if 0 ≤ entityIdx ∧ (state.i : Int) ≠ entityIdx then
      some (.inl ⟨state.i + 1, seekFrom (calls.skipSeek state.i) behind (bodySize hdr), state.buf⟩)
    else if bufSize ≤ metasize hdr then some (.inr (-EINVAL))
    else
      let data := freadAt file behind (metasize hdr) (calls.entityMetaRead state.i)
      if data.length ≠ metasize hdr then some (.inr (- EIO))
      else
        let buf := state.buf.fill data
        (showMeta buf (metasize hdr)).map fun _ =>
          .inl ⟨state.i + 1,
            seekFrom (calls.imageSeek state.i) (behind + metasize hdr) (imageSize hdr),
            ⟨buf.val.set (metasize hdr - 1) 0, by rw [List.length_set, buf.property]⟩⟩

/-- `oseama_info` up to its entities: an error, or where they begin. -/
def infoSeal (calls : InfoCalls) (file : List UInt8) (entityIdx : Int) (buf : Cells bufSize) :
    Option (Int ⊕ Nat) :=
  if calls.openSeama = false then some (.inl (-EACCES))
  else
    let hdr := freadAt file 0 sealHeaderSize calls.sealRead
    if hdr.length ≠ sealHeaderSize then some (.inl (- EIO))
    else if be32At hdr 0 ≠ SEAMA_MAGIC then some (.inl (-EINVAL))
    else if bufSize ≤ metasize hdr then some (.inl (-EINVAL))
    else if imageSize hdr ≠ 0 then some (.inl (-EINVAL))
    else
      let data := freadAt file sealHeaderSize (metasize hdr) calls.metaRead
      if data.length ≠ metasize hdr then some (.inl (- EIO))
      else if entityIdx < 0 then
        (showMeta (buf.fill data) (metasize hdr)).map fun _ => .inr (sealHeaderSize + metasize hdr)
      else some (.inr (sealHeaderSize + metasize hdr))

/-- Whatever the buffers hold at first, no byte outside them is read or written. -/
structure InfoInside (calls : InfoCalls) (file : List UInt8) (entityIdx : Int) (buf : Cells bufSize) :
    Prop where
  sealed : infoSeal calls file entityIdx buf ≠ none
  entities : ∀ pos, infoSeal calls file entityIdx buf = some (.inr pos) →
    NeverOutside (infoStep calls file entityIdx) ⟨0, pos, buf⟩

/-! ## What leaves a buffer -/

variable {calls : InfoCalls} {file : List UInt8} {entityIdx : Int} {buf : Cells bufSize}
  {state : InfoState} {bytes : List UInt8} {last tmp size : Nat}

theorem metaEntries_goesOn {place : Nat} (more : tmp < last) (ended : strEnd bytes tmp = some place) :
    metaEntries bytes last tmp =
      if place = tmp then some []
      else (metaEntries bytes last (place + 1)).map (slice bytes tmp (place - tmp) :: ·) := by
  rw [metaEntries, if_pos more]
  split
  · rename_i missing
    rw [ended] at missing
    cases missing
  · rename_i found
    rw [ended] at found
    cases found
    rfl

theorem metaEntries_inside (ends : bytes[last]? = some 0) : metaEntries bytes last tmp ≠ none := by
  induction tmp using metaEntries.induct bytes last with
  | case1 tmp more ended => exact absurd ends (strEnd_eq_none ended (by omega))
  | case2 tmp more ended =>
      rw [metaEntries_goesOn more ended, if_pos rfl]
      exact Option.some_ne_none _
  | case3 tmp more place ended some' ih =>
      rw [metaEntries_goesOn more ended, if_neg some', ne_eq, Option.map_eq_none_iff]
      exact ih
  | case4 tmp done =>
      rw [metaEntries, if_neg done]
      exact Option.some_ne_none _

/-- Only metadata of no bytes is ended outside. -/
theorem showMeta_inside_iff (fits : size < bufSize) : showMeta buf size ≠ none ↔ size ≠ 0 := by
  rw [showMeta]
  by_cases none' : size = 0
  · simp [none']
  · rw [if_neg none']
    refine iff_of_true (metaEntries_inside ?_) none'
    rw [List.getElem?_set_self (by rw [buf.property]; omega)]

/-- The metadata of the entity at which the walk stands is shown. -/
def EntityShown (calls : InfoCalls) (file : List UInt8) (entityIdx : Int) (state : InfoState) : Prop :=
  let hdr := freadAt file state.pos entityHeaderSize (calls.headerRead state.i)
  hdr.length = entityHeaderSize ∧ be32At hdr 0 = SEAMA_MAGIC ∧
    ¬ (0 ≤ entityIdx ∧ (state.i : Int) ≠ entityIdx) ∧ metasize hdr < bufSize ∧
    (freadAt file (state.pos + entityHeaderSize) (metasize hdr)
      (calls.entityMetaRead state.i)).length = metasize hdr

theorem infoStep_inside_iff : infoStep calls file entityIdx state ≠ none ↔
    (EntityShown calls file entityIdx state → metasize (file.drop state.pos) ≠ 0) := by
  rw [infoStep, EntityShown]
  by_cases whole : (freadAt file state.pos entityHeaderSize (calls.headerRead state.i)).length =
      entityHeaderSize
  · have header : metasize (freadAt file state.pos entityHeaderSize (calls.headerRead state.i)) =
        metasize (file.drop state.pos) := by
      rw [freadAt, (header_read_iff.mp whole).1, slice, Seama.metasize_take (by decide)]
    simp only [whole, header, ne_eq, not_true_eq_false, if_false, true_and]
    split
    · rename_i invalid
      exact iff_of_true (by simp) fun shown => absurd shown.1 invalid
    · split
      · rename_i other
        exact iff_of_true (by simp) fun shown => absurd other shown.2.1
      · rename_i valid wanted
        by_cases large : bufSize ≤ metasize (file.drop state.pos)
        · rw [if_pos large]
          exact iff_of_true (by simp) fun shown => absurd shown.2.2.1 (by omega)
        · rw [if_neg large]
          split
          · rename_i short
            exact iff_of_true (by simp) fun shown => absurd shown.2.2.2 short
          · rename_i read
            rw [Option.map_eq_none_iff, ← ne_eq, showMeta_inside_iff (by omega)]
            refine ⟨fun some' _ => some', fun fits => fits ⟨?_, wanted, by omega, ?_⟩⟩
            · exact not_not.mp valid
            · exact not_not.mp read
  · simp only [whole, ne_eq, not_false_eq_true, if_true, false_and, false_implies, iff_true]
    exact Option.some_ne_none _

/-- The header of the container passes all checks, and its metadata is read. -/
def SealAccepted (calls : InfoCalls) (file : List UInt8) : Prop :=
  let hdr := freadAt file 0 sealHeaderSize calls.sealRead
  calls.openSeama = true ∧ hdr.length = sealHeaderSize ∧ be32At hdr 0 = SEAMA_MAGIC ∧
    metasize hdr < bufSize ∧ imageSize hdr = 0 ∧
    (freadAt file sealHeaderSize (metasize hdr) calls.metaRead).length = metasize hdr

theorem infoSeal_accepted (accepted : SealAccepted calls file) :
    infoSeal calls file entityIdx buf =
      if entityIdx < 0 ∧ metasize file = 0 then none
      else some (.inr (sealHeaderSize + metasize file)) := by
  obtain ⟨opened, whole, magic, fits, empty, read⟩ := accepted
  have header : metasize (freadAt file 0 sealHeaderSize calls.sealRead) = metasize file := by
    obtain ⟨limit, -⟩ := freadAt_whole_iff.mp whole
    rw [freadAt, limit, slice, List.drop_zero, Seama.metasize_take (by decide)]
  rw [header] at fits read
  rw [infoSeal]
  simp only [opened, whole, magic, header, empty, read, ne_eq, not_true_eq_false, if_false,
    Bool.true_eq_false, Nat.not_le.mpr fits]
  by_cases all : entityIdx < 0
  · simp only [all, if_true, true_and]
    have shown := @showMeta_inside_iff
      (buf.fill (freadAt file sealHeaderSize (metasize file) calls.metaRead)) (metasize file) fits
    by_cases none' : metasize file = 0
    · rw [if_pos none', showMeta, if_pos none', Option.map_none]
    · obtain ⟨entries, here⟩ := Option.ne_none_iff_exists'.mp (shown.mpr none')
      rw [if_neg none', here, Option.map_some]
  · simp only [all, if_false, false_and]

theorem infoSeal_rejected (rejected : ¬ SealAccepted calls file) :
    ∃ err, infoSeal calls file entityIdx buf = some (.inl err) := by
  rw [infoSeal]
  split
  · exact ⟨_, rfl⟩
  · rename_i opened
    simp only
    split
    · exact ⟨_, rfl⟩
    · split
      · exact ⟨_, rfl⟩
      · split
        · exact ⟨_, rfl⟩
        · split
          · exact ⟨_, rfl⟩
          · split
            · exact ⟨_, rfl⟩
            · rename_i whole magic fits empty read
              exact absurd ⟨by simpa using opened, not_not.mp whole, not_not.mp magic, by omega,
                not_not.mp empty, not_not.mp read⟩ rejected

/-- Whatever metadata is shown has a byte. -/
def MetadataShown (calls : InfoCalls) (file : List UInt8) (entityIdx : Int) (buf : Cells bufSize) : Prop :=
  SealAccepted calls file →
    (entityIdx < 0 → metasize file ≠ 0) ∧
      ∀ place, ReflTransGen (Follows (infoStep calls file entityIdx))
          ⟨0, sealHeaderSize + metasize file, buf⟩ place →
        EntityShown calls file entityIdx place → metasize (file.drop place.pos) ≠ 0

theorem infoInside_iff :
    InfoInside calls file entityIdx buf ↔ MetadataShown calls file entityIdx buf := by
  by_cases accepted : SealAccepted calls file
  · have sealed := @infoSeal_accepted calls file entityIdx buf accepted
    simp only [MetadataShown, accepted, true_implies]
    constructor
    · rintro ⟨inside, entities⟩
      rw [sealed] at inside entities
      have some' : ¬ (entityIdx < 0 ∧ metasize file = 0) := by
        intro outside
        rw [if_pos outside] at inside
        exact inside rfl
      rw [if_neg some'] at entities
      exact ⟨fun all none' => some' ⟨all, none'⟩,
        fun place reached => infoStep_inside_iff.mp (entities _ rfl place reached)⟩
    · rintro ⟨container, entities⟩
      rw [if_neg fun outside => container outside.1 outside.2] at sealed
      constructor
      · rw [sealed]
        exact Option.some_ne_none _
      · intro pos here place reached
        rw [sealed] at here
        cases here
        exact infoStep_inside_iff.mpr (entities place reached)
  · obtain ⟨err, sealed⟩ := @infoSeal_rejected calls file entityIdx buf accepted
    refine iff_of_true ⟨?_, ?_⟩ fun impossible => absurd impossible accepted
    · rw [sealed]
      exact Option.some_ne_none _
    · intro pos here
      rw [sealed] at here
      cases here

/-! ## Both commands -/

theorem oseama_honest_iff (extractCalls : ExtractCalls) (infoCalls : InfoCalls) (file : List UInt8)
    (entityIdx : Int) (outPath : Bool) (buf : Cells bufSize) :
    (ExtractHonest extractCalls file entityIdx outPath ↔
      Refused extractCalls file entityIdx outPath ∨ Carried extractCalls file entityIdx.toNat) ∧
    (InfoInside infoCalls file entityIdx buf ↔ MetadataShown infoCalls file entityIdx buf) :=
  ⟨extractHonest_iff, infoInside_iff⟩

/-- No call fails. -/
def smoothExtract : ExtractCalls :=
  ⟨true, true, none, true, fun _ => none, fun _ => true, true, fun _ => none, fun _ => none, none⟩

def smoothInfo : InfoCalls :=
  ⟨true, none, none, fun _ => none, fun _ => true, fun _ => none, fun _ => true⟩

/-- A container without metadata and without entities. -/
def emptyContainer : List UInt8 := be32 SEAMA_MAGIC ++ List.replicate 8 0

theorem oseama_emptyContainer :
    ¬ ∀ (extractCalls : ExtractCalls) (infoCalls : InfoCalls) (file : List UInt8) (entityIdx : Int)
      (outPath : Bool) (buf : Cells bufSize),
      ExtractHonest extractCalls file entityIdx outPath ∧ InfoInside infoCalls file entityIdx buf := by
  intro always
  have honest := (always smoothExtract smoothInfo emptyContainer 0 true
    ⟨List.replicate bufSize 0, List.length_replicate⟩).1
  have accepted : ¬ Refused smoothExtract emptyContainer 0 true := by
    simp only [Refused]
    decide
  have delivered := honest (by rw [oseamaExtract_accepted accepted])
  exact absurd (delivered.there 0 (Nat.zero_le _)).1 (by decide)

end Rut9xx.Oseama
