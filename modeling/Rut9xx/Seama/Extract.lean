import Rut9xx.Data.Loop
import Rut9xx.Seama.Entities

namespace Rut9xx.Seama

open Data Relation
open Tplink (Md5Sum)

/-! # `seama`: extracting an image

The header and the buffer are variables of the function: what a short read leaves of them stays
there, also from one file to the next.
-/

/-- No result where a string is read on behind the buffer. -/
def matchMeta (buf : List UInt8) (size : Nat) : List CText → Option Bool
  | [] => some true
  | option :: rest =>
      match findString buf option.val size 0 with
      | none => none
      | some false => some false
      | some true => matchMeta buf size rest

/-- The loops that read `count` bytes in pieces of the buffer's size. -/
def skip (count : Nat) (file : ReadStream) (buf : Cells MAX_SEAMA_META_SIZE) :
    ReadStream × Cells MAX_SEAMA_META_SIZE :=
  if count = 0 then (file, buf)
  else
    let (data, next) := file.fread (min count MAX_SEAMA_META_SIZE)
    if data.length = 0 then (next, buf) else skip (count - data.length) next (buf.fill data)
termination_by count

structure Walk where
  /-- The file that is open, and what is still to be read of it. -/
  current : Option (List UInt8 × ReadStream)
  files : List (List UInt8)
  shdr : Cells seamahdrSize
  buf : Cells MAX_SEAMA_META_SIZE

/-- Reads the metadata and compares it; no result where one or the other leaves the buffer. -/
def examine (metas : List CText) (msize : Nat) (file : ReadStream)
    (buf : Cells MAX_SEAMA_META_SIZE) :
    Option (Bool × ReadStream × Cells MAX_SEAMA_META_SIZE) :=
  if msize = 0 then some (false, file, buf)
  else do
    let (data, file) := file.fread msize
    require (data.length ≤ MAX_SEAMA_META_SIZE)
    let buf := buf.fill data
    let found ← matchMeta buf.val msize metas
    some (found, file, buf)

/-- One round of `extract_file`: it opens a file or reads an entity.  The result is the file that an
image was found in, with what is written of the image. -/
def extractStep (md5 : List UInt8 → Md5Sum) (metas : List CText) (walk : Walk) :
    Option (Walk ⊕ Option (List UInt8 × List UInt8)) :=
  match walk.current with
  | none =>
      match walk.files with
      | [] => some (.inr none)
      | file :: files =>
          let current := if verifySeama md5 file then some (file, ReadStream.mk file false) else none
          some (.inl { walk with current := current, files := files })
  | some (name, file) =>
      if file.eof then some (.inl { walk with current := none })
      else
        let (data, file) := file.fread seamahdrSize
        let shdr := walk.shdr.fill data
        if be32At shdr.val 0 ≠ SEAMA_MAGIC then
          some (.inl { walk with current := none, shdr := shdr })
        else
          let isize := imageSize shdr.val
          let msize := metasize shdr.val
          if isize = 0 then
            let (file, buf) := skip msize file walk.buf
            some (.inl { walk with current := some (name, file), shdr := shdr, buf := buf })
          else
            let (data, file) := file.fread 16
            match examine metas msize file (walk.buf.fill data) with
            | none => none
            | some (true, file, _) => some (.inr (some (name, file.rest.take isize)))
            | some (false, file, buf) =>
                let (file, buf) := skip isize file buf
                some (.inl { walk with current := some (name, file), shdr := shdr, buf := buf })

/-- `extract_file` without metadata to look for does nothing. -/
def extractStart (metas : List CText) (files : List (List UInt8)) (shdr : Cells seamahdrSize)
    (buf : Cells MAX_SEAMA_META_SIZE) : Walk where
  current := none
  files := if metas = [] then [] else files
  shdr := shdr
  buf := buf

/-! ## Reading metadata -/

variable {md5 : List UInt8 → Md5Sum} {metas : List CText} {msize size : Nat} {file : ReadStream}
  {buf : Cells MAX_SEAMA_META_SIZE} {walk next : Walk}

/-- Comparing `size` bytes of metadata stays inside: a zero byte ends their last string, or every
string that is looked for stands there. -/
def MetadataEnds (metas : List CText) (buf : List UInt8) (size : Nat) : Prop :=
  EndsInside buf size ∨ ∀ option ∈ metas, ∃ place, StringAt buf place option.val

theorem matchMeta_inside_iff {bytes : List UInt8} (some' : 0 < size) :
    matchMeta bytes size metas ≠ none ↔ MetadataEnds metas bytes size := by
  induction metas with
  | nil =>
      rw [matchMeta, MetadataEnds]
      exact iff_of_true (by simp) (Or.inr (by simp))
  | cons option rest ih =>
      have leaves := @findString_eq_none_iff bytes option.val 0 size option.property (Or.inl rfl)
      simp only [some', Nat.zero_le, true_and] at leaves
      rw [MetadataEnds] at ih ⊢
      rw [List.forall_mem_cons, matchMeta]
      cases found : findString bytes option.val size 0 with
      | none =>
          obtain ⟨open', absent⟩ := leaves.mp found
          simp [open', absent]
      | some found' =>
          have stays : EndsInside bytes size ∨ ∃ place, StringAt bytes place option.val := by
            rw [or_iff_not_and_not, ← leaves, found]
            simp
          cases found' with
          | false =>
              have ends := (findString_eq_false found).resolve_left (by omega)
              simp [ends]
          | true =>
              rw [ih]
              constructor
              · rintro (ends | present)
                · exact Or.inl ends
                · exact stays.imp_right fun here => ⟨here, present⟩
              · exact Or.imp_right And.right

theorem examine_inside_iff : examine metas msize file buf ≠ none ↔
    msize = 0 ∨ (file.rest.take msize).length ≤ MAX_SEAMA_META_SIZE ∧
      MetadataEnds metas (buf.fill (file.rest.take msize)).val msize := by
  by_cases none' : msize = 0
  · simp [examine, none']
  · rw [← matchMeta_inside_iff (Nat.pos_of_ne_zero none'), examine, if_neg none']
    by_cases fits : (file.fread msize).1.length ≤ MAX_SEAMA_META_SIZE
    · have fits' : (file.rest.take msize).length ≤ MAX_SEAMA_META_SIZE := fits
      simp only [require, decide_true, if_true, Option.bind_eq_bind, Option.bind_some,
        ReadStream.fread_data, none', false_or, fits', true_and]
      cases matchMeta (buf.fill (file.rest.take msize)).val msize metas <;> simp
    · have fits' : ¬ (file.rest.take msize).length ≤ MAX_SEAMA_META_SIZE := fits
      simp only [require, fits, decide_false, Bool.false_eq_true, if_false, Option.bind_eq_bind,
        Option.bind_none, none', false_or, fits', false_and, ne_eq, not_true_eq_false]

/-- The header that a round works with: after a short read part of it is an older one. -/
def heldHeader (walk : Walk) (file : ReadStream) : List UInt8 :=
  (walk.shdr.fill (file.rest.take seamahdrSize)).val

/-- If the round that comes looks at metadata, then no more of it is read than the buffer holds, and
comparing it stays inside. -/
def MetadataFits (metas : List CText) (walk : Walk) : Prop :=
  ∀ name file, walk.current = some (name, file) → file.eof = false →
    be32At (heldHeader walk file) 0 = SEAMA_MAGIC → imageSize (heldHeader walk file) ≠ 0 →
    metasize (heldHeader walk file) ≠ 0 →
      let msize := metasize (heldHeader walk file)
      let checksum := (file.rest.drop seamahdrSize).take 16
      let metadata := ((file.rest.drop seamahdrSize).drop 16).take msize
      metadata.length ≤ MAX_SEAMA_META_SIZE ∧
        MetadataEnds metas ((walk.buf.fill checksum).fill metadata).val msize

theorem extractStep_inside_iff : extractStep md5 metas walk ≠ none ↔ MetadataFits metas walk := by
  rw [extractStep, MetadataFits]
  cases walk.current with
  | none =>
      refine iff_of_true ?_ fun _ _ impossible => by cases impossible
      cases walk.files <;> simp
  | some opened =>
      obtain ⟨name, file⟩ := opened
      simp only [Option.some.injEq, Prod.mk.injEq, and_imp]
      cases ended : file.eof with
      | true =>
          refine iff_of_true (by simp) ?_
          rintro _ _ rfl rfl more
          rw [ended] at more
          cases more
      | false =>
          simp only [Bool.false_eq_true, if_false, ReadStream.fread_data, ReadStream.fread_rest]
          have headerEq : (walk.shdr.fill (file.rest.take seamahdrSize)).val = heldHeader walk file := rfl
          simp only [headerEq]
          by_cases magic : be32At (heldHeader walk file) 0 = SEAMA_MAGIC
          · by_cases empty : imageSize (heldHeader walk file) = 0
            · rw [if_neg (not_not.mpr magic), if_pos empty]
              refine iff_of_true (by simp) ?_
              rintro _ _ rfl rfl - - some'
              exact absurd empty some'
            · rw [if_neg (not_not.mpr magic), if_neg empty]
              have inside := @examine_inside_iff metas (metasize (heldHeader walk file))
                ((file.fread seamahdrSize).2.fread 16).2
                (walk.buf.fill ((file.rest.drop seamahdrSize).take 16))
              simp only [ReadStream.fread_rest] at inside
              constructor
              · rintro stays _ _ rfl rfl - - - some'
                refine (inside.mp fun leaves => stays ?_).resolve_left some'
                exact by rw [leaves]
              · intro fits
                have stays := inside.mpr (or_iff_not_imp_left.mpr
                  (fits name file rfl rfl ended magic empty))
                cases looked : examine metas (metasize (heldHeader walk file))
                    ((file.fread seamahdrSize).2.fread 16).2
                    (walk.buf.fill ((file.rest.drop seamahdrSize).take 16)) with
                | none => exact absurd looked stays
                | some result =>
                    obtain ⟨found, file, buf⟩ := result
                    cases found <;> simp
          · rw [if_pos magic]
            refine iff_of_true (by simp) ?_
            rintro _ _ rfl rfl - valid
            exact absurd valid magic

/-! ## The run -/

variable {name out : List UInt8} {files : List (List UInt8)}

/-- A round opens the next file, if that verifies, or stays with the one that is open. -/
theorem extractStep_next (step : Follows (extractStep md5 metas) walk next) :
    (∃ file, walk.files = file :: next.files ∧
        ∀ name rest, next.current = some (name, rest) → name = file ∧ verifySeama md5 name = true) ∨
      walk.files = next.files ∧
        ∀ name rest, next.current = some (name, rest) → ∃ before, walk.current = some (name, before) := by
  rw [Follows, extractStep] at step
  split at step
  · split at step
    · simp at step
    · rename_i file rest files
      simp only [Option.some.injEq, Sum.inl.injEq] at step
      subst step
      refine Or.inl ⟨file, files, fun name rest opened => ?_⟩
      simp only at opened
      split at opened
      · rename_i verified
        cases opened
        exact ⟨rfl, verified⟩
      · cases opened
  · rename_i name file opened
    have stays (other : Option (List UInt8 × ReadStream))
        (same : other = none ∨ ∃ rest, other = some (name, rest)) (name' : List UInt8)
        (rest' : ReadStream) (here : other = some (name', rest')) :
        ∃ before, walk.current = some (name', before) := by
      rcases same with rfl | ⟨rest, rfl⟩
      · cases here
      · cases here
        exact ⟨file, opened⟩
    right
    simp only at step
    split at step
    · simp only [Option.some.injEq, Sum.inl.injEq] at step
      subst step
      exact ⟨rfl, stays _ (Or.inl rfl)⟩
    · split at step
      · simp only [Option.some.injEq, Sum.inl.injEq] at step
        subst step
        exact ⟨rfl, stays _ (Or.inl rfl)⟩
      · split at step
        · simp only [Option.some.injEq, Sum.inl.injEq] at step
          subst step
          exact ⟨rfl, stays _ (Or.inr ⟨_, rfl⟩)⟩
        · split at step
          · cases step
          · simp at step
          · simp only [Option.some.injEq, Sum.inl.injEq] at step
            subst step
            exact ⟨rfl, stays _ (Or.inr ⟨_, rfl⟩)⟩

theorem extractStep_found (found : extractStep md5 metas walk = some (.inr (some (name, out)))) :
    ∃ file, walk.current = some (name, file) := by
  rw [extractStep] at found
  split at found
  · split at found <;> simp at found
  · rename_i name' file opened
    simp only at found
    split at found
    · simp at found
    · split at found
      · simp at found
      · split at found
        · simp at found
        · split at found
          · cases found
          · simp only [Option.some.injEq, Sum.inr.injEq, Prod.mk.injEq] at found
            obtain ⟨rfl, -⟩ := found
            exact ⟨file, opened⟩
          · simp at found

/-- The walk is only ever inside a file that verifies. -/
structure InsideVerified (md5 : List UInt8 → Md5Sum) (files : List (List UInt8)) (walk : Walk) : Prop where
  current : ∀ name rest, walk.current = some (name, rest) → name ∈ files ∧ verifySeama md5 name = true
  files : ∀ file ∈ walk.files, file ∈ files

theorem insideVerified_step (inside : InsideVerified md5 files walk)
    (step : Follows (extractStep md5 metas) walk next) : InsideVerified md5 files next := by
  obtain ⟨current, rest⟩ := inside
  rcases extractStep_next step with ⟨file, filesEq, opened⟩ | ⟨filesEq, stays⟩
  · rw [filesEq, List.forall_mem_cons] at rest
    refine ⟨fun name left here => ?_, rest.2⟩
    obtain ⟨rfl, verified⟩ := opened name left here
    exact ⟨rest.1, verified⟩
  · refine ⟨fun name left here => ?_, filesEq ▸ rest⟩
    obtain ⟨before, there⟩ := stays name left here
    exact current name before there

/-- An image is only taken from a file that verifies. -/
theorem extract_verified {fuel : Nat} {shdr : Cells seamahdrSize}
    (done : loop (extractStep md5 metas) fuel (extractStart metas files shdr buf) =
      .done (some (name, out))) : name ∈ files ∧ verifySeama md5 name = true := by
  have started : InsideVerified md5 files (extractStart metas files shdr buf) := by
    refine ⟨fun name rest impossible => (by cases impossible), fun file member => ?_⟩
    rw [extractStart] at member
    split at member
    · cases member
    · exact member
  have found (walk : Walk) (result : Option (List UInt8 × List UInt8))
      (inside : InsideVerified md5 files walk) (ends : extractStep md5 metas walk = some (.inr result)) :
      ∀ name out, result = some (name, out) → name ∈ files ∧ verifySeama md5 name = true := by
    rintro name out rfl
    obtain ⟨file, opened⟩ := extractStep_found ends
    exact inside.current name file opened
  exact loop_invariant (fun _ _ inside step => insideVerified_step inside step) found started done
    name out rfl

/-- Verifying covers every entity, so neither sealing nor extracting touches a damaged file, and
extracting reads metadata only inside its buffer. -/
structure Honest (md5 : List UInt8 → Md5Sum) (metas : List CText) (files : List (List UInt8))
    (start : Walk) : Prop where
  verified : ∀ file ∈ files, verifySeama md5 file = true → Undamaged md5 file
  sealed : ∀ image, sealFiles md5 metas files = some image → ∀ file ∈ files, Undamaged md5 file
  extracted : ∀ fuel name out,
    loop (extractStep md5 metas) fuel start = .done (some (name, out)) → Undamaged md5 name
  inside : NeverOutside (extractStep md5 metas) start

theorem seama_honest_iff (md5 : List UInt8 → Md5Sum) (metas : List CText)
    (files : List (List UInt8)) (shdr : Cells seamahdrSize) (buf : Cells MAX_SEAMA_META_SIZE) :
    Honest md5 metas files (extractStart metas files shdr buf) ↔
      (∀ file ∈ files, Covered md5 file) ∧
        ∀ place, ReflTransGen (Follows (extractStep md5 metas)) (extractStart metas files shdr buf) place →
          MetadataFits metas place := by
  have covers : (∀ file ∈ files, verifySeama md5 file = true → Undamaged md5 file) ↔
      ∀ file ∈ files, Covered md5 file :=
    forall₂_congr fun file _ => verifySeama_covers_iff
  have fits : NeverOutside (extractStep md5 metas) (extractStart metas files shdr buf) ↔
      ∀ place, ReflTransGen (Follows (extractStep md5 metas)) (extractStart metas files shdr buf) place →
        MetadataFits metas place :=
    forall₂_congr fun place _ => extractStep_inside_iff
  rw [← covers, ← fits]
  constructor
  · exact fun honest => ⟨honest.verified, honest.inside⟩
  · rintro ⟨verified, inside⟩
    refine ⟨verified, ?_, ?_, inside⟩
    · intro image written file member
      rw [sealFiles] at written
      split at written
      · rename_i all
        exact verified file member (List.all_eq_true.mp all file member)
      · cases written
    · intro fuel name out done
      obtain ⟨member, verifies⟩ := extract_verified done
      exact verified name member verifies

/-- The digest of a zero byte. -/
def zeroByteMd5 : List UInt8 → Md5Sum := fun _ =>
  ⟨[0x93, 0xb8, 0x85, 0xad, 0xfe, 0x0d, 0xa0, 0x89, 0xcd, 0xf6, 0x34, 0x90, 0x4f, 0xd5, 0x9f, 0x71], rfl⟩

/-- Two entities with one zero byte each; the digest of the second is wrong. -/
def halfDamaged : List UInt8 :=
  be32 SEAMA_MAGIC ++ [0, 0, 0, 0] ++ be32 1 ++ (zeroByteMd5 []).val ++ [0] ++
    (be32 SEAMA_MAGIC ++ [0, 0, 0, 0] ++ be32 1 ++ List.replicate 16 0 ++ [0])

theorem seama_halfDamaged :
    ¬ ∀ (md5 : List UInt8 → Md5Sum) (metas : List CText) (files : List (List UInt8))
      (shdr : Cells seamahdrSize) (buf : Cells MAX_SEAMA_META_SIZE),
      Honest md5 metas files (extractStart metas files shdr buf) := by
  intro always
  have honest := always zeroByteMd5 [] [halfDamaged] ⟨List.replicate seamahdrSize 0, List.length_replicate⟩
    ⟨List.replicate MAX_SEAMA_META_SIZE 0, List.length_replicate⟩
  have verifies : verifySeama zeroByteMd5 halfDamaged = true := by
    rw [verifySeama_iff, walked_goesOn (by decide) (by decide)]
    exact ⟨_, List.mem_cons_self, by decide⟩
  have undamaged := honest.verified halfDamaged (List.mem_singleton.mpr rfl) verifies
  have second : entityAt (halfDamaged.drop 29) ∈ entities halfDamaged := by
    rw [entities, if_pos (by decide), show entityLength halfDamaged = 29 by decide, entities,
      if_pos (by decide)]
    exact List.mem_cons_of_mem _ List.mem_cons_self
  exact absurd (undamaged _ second (by decide)).1 (by decide)

end Rut9xx.Seama
