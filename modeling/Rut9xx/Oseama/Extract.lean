import Rut9xx.Data.FileReads
import Rut9xx.Seama.Entities

namespace Rut9xx.Oseama

open Data
open Seama (SEAMA_MAGIC metasize imageSize)

/-! # `oseama extract` -/

/-- `sizeof(struct seama_seal_header)`. -/
def sealHeaderSize : Nat := 12

/-- `sizeof(struct seama_entity_header)`. -/
def entityHeaderSize : Nat := 28

/-- `sizeof(buf)`. -/
def bufSize : Nat := 1024

/-- What the header at the front of `hdr` says of the bytes behind it. -/
def bodySize (hdr : List UInt8) : Nat := metasize hdr + imageSize hdr

/-- How each call turns out; those in loops are numbered. -/
structure ExtractCalls where
  openSeama : Bool
  openOut : Bool
  sealRead : Limit
  sealSeek : Bool
  headerRead : Nat → Limit
  skipSeek : Nat → Bool
  rewindSeek : Bool
  copyRead : Nat → Limit
  copyWrite : Nat → Limit
  /-- What closing the output writes of it. -/
  close : Limit

/-- The copying loop from its round `j` on: what goes to the output, and the `length` left. -/
def copyLoop (calls : ExtractCalls) (file : List UInt8) (j pos length : Nat) : List UInt8 × Nat :=
  let data := freadAt file pos (min bufSize length) (calls.copyRead j)
  if data.length = 0 then ([], length)
  else if (calls.copyWrite j).cut data.length < data.length then
    (data.take ((calls.copyWrite j).cut data.length), length)
  else
    let next := copyLoop calls file (j + 1) (pos + data.length) (length - data.length)
    (data ++ next.1, next.2)
termination_by length
decreasing_by
  rename_i some' _
  have := @Limit.cut_le (min bufSize length) (calls.copyRead j)
  simp only [data, freadAt_length] at some' ⊢
  omega

/-- `oseama_extract_entity` from the `i`-th header on, with `left` entities to go: whether it
returns 0, and what goes to the output. -/
def extractEntity (calls : ExtractCalls) (file : List UInt8) : Nat → Nat → Nat → Bool × List UInt8
  | left, i, pos =>
      let hdr := freadAt file pos entityHeaderSize (calls.headerRead i)
      if hdr.length ≠ entityHeaderSize then (true, [])
      else if be32At hdr 0 ≠ SEAMA_MAGIC then (false, [])
      else
        let behind := pos + entityHeaderSize
        match left with
        | left + 1 =>
            extractEntity calls file left (i + 1) (seekFrom (calls.skipSeek i) behind (bodySize hdr))
        | 0 =>
            let start := bif calls.rewindSeek then pos else behind
            let (out, length) := copyLoop calls file 0 start (entityHeaderSize + bodySize hdr)
            (length = 0, out)

/-- `oseama_extract`, with the index and whether an output is named: whether it returns 0, and what
is in the output in the end. -/
def oseamaExtract (calls : ExtractCalls) (file : List UInt8) (entityIdx : Int) (outPath : Bool) :
    Bool × List UInt8 :=
  if entityIdx < 0 ∨ outPath = false then (false, [])
  else if calls.openSeama = false ∨ calls.openOut = false then (false, [])
  else
    let hdr := freadAt file 0 sealHeaderSize calls.sealRead
    if hdr.length ≠ sealHeaderSize then (false, [])
    else
      let pos := seekFrom calls.sealSeek sealHeaderSize (metasize hdr)
      -- What `oseama_extract_entity` returns is not looked at.
      let (_, out) := extractEntity calls file entityIdx.toNat 0 pos
      (true, out.take (calls.close.cut out.length))

/-! ## What is copied -/

variable {calls : ExtractCalls} {file out : List UInt8} {entityIdx : Int} {outPath : Bool}
  {j pos length avail left i : Nat}

/-- How many bytes go through the copying loop, if `avail` are there to be read. -/
def copyAmount (calls : ExtractCalls) (avail j length : Nat) : Nat :=
  let read := min ((calls.copyRead j).cut (min bufSize length)) avail
  if read = 0 then 0
  else if (calls.copyWrite j).cut read < read then (calls.copyWrite j).cut read
  else read + copyAmount calls (avail - read) (j + 1) (length - read)
termination_by length
decreasing_by
  have := @Limit.cut_le (min bufSize length) (calls.copyRead j)
  omega

theorem copyAmount_eq {read : Nat}
    (readEq : read = min ((calls.copyRead j).cut (min bufSize length)) avail) :
    copyAmount calls avail j length =
      if read = 0 then 0
      else if (calls.copyWrite j).cut read < read then (calls.copyWrite j).cut read
      else read + copyAmount calls (avail - read) (j + 1) (length - read) := by
  rw [copyAmount, readEq]

theorem copyAmount_le : copyAmount calls avail j length ≤ min avail length := by
  induction avail, j, length using copyAmount.induct calls with
  | case1 avail j length read none' =>
      rw [copyAmount_eq rfl, if_pos none']
      exact Nat.zero_le _
  | case2 avail j length read some' short =>
      have cut := @Limit.cut_le (min bufSize length) (calls.copyRead j)
      have readEq : read = min ((calls.copyRead j).cut (min bufSize length)) avail := rfl
      rw [copyAmount_eq readEq, if_neg some', if_pos short]
      omega
  | case3 avail j length read some' whole ih =>
      have cut := @Limit.cut_le (min bufSize length) (calls.copyRead j)
      have readEq : read = min ((calls.copyRead j).cut (min bufSize length)) avail := rfl
      rw [copyAmount_eq readEq, if_neg some', if_neg whole]
      omega

theorem copyLoop_out : (copyLoop calls file j pos length).1 =
    slice file pos (copyAmount calls (file.length - pos) j length) := by
  induction j, pos, length using copyLoop.induct calls file with
  | case1 j pos length data none' =>
      have lengthEq : data.length = min ((calls.copyRead j).cut (min bufSize length)) (file.length - pos) :=
        freadAt_length
      rw [copyLoop, if_pos none', copyAmount_eq lengthEq, if_pos none', slice, List.take_zero]
  | case2 j pos length data some' short =>
      have lengthEq : data.length = min ((calls.copyRead j).cut (min bufSize length)) (file.length - pos) :=
        freadAt_length
      have cut := @Limit.cut_le data.length (calls.copyWrite j)
      rw [copyLoop, if_neg some', if_pos short, copyAmount_eq lengthEq, if_neg some', if_pos short]
      show (slice file pos _).take ((calls.copyWrite j).cut data.length) = _
      rw [slice_front, Nat.min_eq_left (by omega)]
  | case3 j pos length data some' whole ih =>
      have lengthEq : data.length = min ((calls.copyRead j).cut (min bufSize length)) (file.length - pos) :=
        freadAt_length
      have dataEq : slice file pos data.length = data := freadAt_slice
      have next : (copyLoop calls file j pos length).1 = data ++
          (copyLoop calls file (j + 1) (pos + data.length) (length - data.length)).1 := by
        rw [copyLoop, if_neg some', if_neg whole]
      rw [next, ih, copyAmount_eq lengthEq, if_neg some', if_neg whole, slice_add, dataEq, Nat.sub_sub]

/-! ## The way to the entity -/

/-- Where the header of an entity is read: a seek that fails leaves the walk behind the header
before. -/
def headerPlace (calls : ExtractCalls) (file : List UInt8) : Nat → Nat
  | 0 => seekFrom calls.sealSeek sealHeaderSize (metasize file)
  | i + 1 =>
      let pos := headerPlace calls file i
      seekFrom (calls.skipSeek i) (pos + entityHeaderSize) (bodySize (file.drop pos))

def HasEntityHeader (file : List UInt8) (pos : Nat) : Prop :=
  pos + entityHeaderSize ≤ file.length ∧ be32At (file.drop pos) 0 = SEAMA_MAGIC

/-- The header is there, and its read comes through. -/
def HeaderRead (calls : ExtractCalls) (file : List UInt8) (i : Nat) : Prop :=
  (calls.headerRead i).cut entityHeaderSize = entityHeaderSize ∧
    HasEntityHeader file (headerPlace calls file i)

def copyPlace (calls : ExtractCalls) (file : List UInt8) (i : Nat) : Nat :=
  bif calls.rewindSeek then headerPlace calls file i
  else headerPlace calls file i + entityHeaderSize

def copyLength (file : List UInt8) (pos : Nat) : Nat := entityHeaderSize + bodySize (file.drop pos)

/-- What goes through the copying loop. -/
def copied (calls : ExtractCalls) (file : List UInt8) (i : Nat) : List UInt8 :=
  slice file (copyPlace calls file i)
    (copyAmount calls (file.length - copyPlace calls file i) 0
      (copyLength file (headerPlace calls file i)))

theorem header_read_iff {pos : Nat} {limit : Limit} :
    (freadAt file pos entityHeaderSize limit).length = entityHeaderSize ↔
      limit.cut entityHeaderSize = entityHeaderSize ∧ pos + entityHeaderSize ≤ file.length := by
  rw [freadAt_whole_iff]
  exact and_congr_right fun _ => or_iff_left (by decide)

theorem header_read {pos : Nat} {limit : Limit}
    (whole : limit.cut entityHeaderSize = entityHeaderSize) :
    bodySize (freadAt file pos entityHeaderSize limit) = bodySize (file.drop pos) ∧
      be32At (freadAt file pos entityHeaderSize limit) 0 = be32At (file.drop pos) 0 := by
  rw [freadAt, whole, slice, bodySize, bodySize, Seama.metasize_take (by decide),
    Seama.imageSize_take (by decide), be32At_take (by decide)]
  exact ⟨rfl, rfl⟩

theorem extractEntity_stops (stops : ¬ HeaderRead calls file i) :
    (extractEntity calls file left i (headerPlace calls file i)).2 = [] := by
  rw [extractEntity]
  by_cases whole : (freadAt file (headerPlace calls file i) entityHeaderSize (calls.headerRead i)).length =
      entityHeaderSize
  · obtain ⟨limit, inside⟩ := header_read_iff.mp whole
    rw [if_neg (not_not.mpr whole), if_pos]
    rw [(header_read limit).2]
    exact fun magic => stops ⟨limit, inside, magic⟩
  · rw [if_pos whole]

theorem extractEntity_reads (read : HeaderRead calls file i) :
    (extractEntity calls file left i (headerPlace calls file i)).2 =
      match left with
      | left + 1 => (extractEntity calls file left (i + 1) (headerPlace calls file (i + 1))).2
      | 0 => copied calls file i := by
  obtain ⟨limit, inside, magic⟩ := read
  have whole := header_read_iff.mpr ⟨limit, inside⟩
  obtain ⟨body, word⟩ := @header_read file (headerPlace calls file i) _ limit
  rw [extractEntity, if_neg (not_not.mpr whole), if_neg (by rw [word]; exact not_not.mpr magic)]
  cases left with
  | succ left =>
      simp only [body]
      rfl
  | zero =>
      simp only [body]
      exact copyLoop_out

theorem extractEntity_found (read : ∀ k, i ≤ k → k ≤ i + left → HeaderRead calls file k) :
    (extractEntity calls file left i (headerPlace calls file i)).2 = copied calls file (i + left) := by
  induction left generalizing i with
  | zero =>
      rw [extractEntity_reads (read i (Nat.le_refl _) (Nat.le_refl _))]
      rfl
  | succ left ih =>
      rw [extractEntity_reads (read i (Nat.le_refl _) (by omega))]
      simp only
      rw [ih fun k above below => read k (by omega) (by omega), Nat.add_right_comm, Nat.add_assoc]

/-- The output stays empty unless all the headers on the way are read. -/
theorem extractEntity_lost {k : Nat} (above : i ≤ k) (below : k ≤ i + left)
    (stops : ¬ HeaderRead calls file k) :
    (extractEntity calls file left i (headerPlace calls file i)).2 = [] := by
  induction left generalizing i with
  | zero => exact extractEntity_stops ((show k = i by omega) ▸ stops)
  | succ left ih =>
      by_cases read : HeaderRead calls file i
      · rw [extractEntity_reads read]
        rcases Nat.eq_or_lt_of_le above with rfl | behind
        · exact absurd read stops
        · exact ih behind (by omega)
      · exact extractEntity_stops read

/-! ## Honesty -/

/-- Where the format has its entities: one behind the other, behind the metadata of the seal. -/
def entityPlace (file : List UInt8) : Nat → Nat
  | 0 => sealHeaderSize + metasize file
  | i + 1 => entityPlace file i + copyLength file (entityPlace file i)

def EntityExists (file : List UInt8) (idx : Nat) : Prop :=
  ∀ k, k ≤ idx → HasEntityHeader file (entityPlace file k)

/-- Header, metadata and image of the entity. -/
def entityData (file : List UInt8) (idx : Nat) : List UInt8 :=
  slice file (entityPlace file idx) (copyLength file (entityPlace file idx))

/-- The entity exists, none of it is missing, and this is what the output holds. -/
structure Delivered (file : List UInt8) (idx : Nat) (out : List UInt8) : Prop where
  there : EntityExists file idx
  whole : entityPlace file idx + copyLength file (entityPlace file idx) ≤ file.length
  written : out = entityData file idx

def ExtractHonest (calls : ExtractCalls) (file : List UInt8) (entityIdx : Int) (outPath : Bool) : Prop :=
  (oseamaExtract calls file entityIdx outPath).1 = true →
    Delivered file entityIdx.toNat (oseamaExtract calls file entityIdx outPath).2

/-- The command ends with an error before it looks for the entity. -/
def Refused (calls : ExtractCalls) (file : List UInt8) (entityIdx : Int) (outPath : Bool) : Prop :=
  entityIdx < 0 ∨ outPath = false ∨ calls.openSeama = false ∨ calls.openOut = false ∨
    calls.sealRead.cut sealHeaderSize < sealHeaderSize ∨ file.length < sealHeaderSize

/-- All headers on the way are read, and what goes through from where the walk ends is the entity. -/
structure Carried (calls : ExtractCalls) (file : List UInt8) (idx : Nat) : Prop where
  there : EntityExists file idx
  whole : entityPlace file idx + copyLength file (entityPlace file idx) ≤ file.length
  read : ∀ k, k ≤ idx → HeaderRead calls file k
  copied : (copied calls file idx).take (calls.close.cut (copied calls file idx).length) =
    entityData file idx

theorem entityData_length
    (whole : entityPlace file i + copyLength file (entityPlace file i) ≤ file.length) :
    (entityData file i).length = copyLength file (entityPlace file i) := by
  rw [entityData, slice, List.length_take, List.length_drop]
  omega

/-- What the command comes to unless it is refused. -/
theorem oseamaExtract_accepted (accepted : ¬ Refused calls file entityIdx outPath) :
    oseamaExtract calls file entityIdx outPath =
      let out := (extractEntity calls file entityIdx.toNat 0 (headerPlace calls file 0)).2
      (true, out.take (calls.close.cut out.length)) := by
  simp only [Refused, not_or, Bool.not_eq_false, Nat.not_lt, Int.not_lt] at accepted
  obtain ⟨index, named, openSeama, openOut, limit, long⟩ := accepted
  have whole : (freadAt file 0 sealHeaderSize calls.sealRead).length = sealHeaderSize := by
    rw [freadAt_whole_iff]
    exact ⟨Nat.le_antisymm Limit.cut_le limit, Or.inl (by omega)⟩
  have header : metasize (freadAt file 0 sealHeaderSize calls.sealRead) = metasize file := by
    rw [freadAt, Nat.le_antisymm Limit.cut_le limit, slice, List.drop_zero,
      Seama.metasize_take (by decide)]
  rw [oseamaExtract, if_neg (by simp [named, index]), if_neg (by simp [openSeama, openOut])]
  simp only [whole, ne_eq, not_true_eq_false, if_false, header]
  rfl

theorem oseamaExtract_refused (refused : Refused calls file entityIdx outPath) :
    (oseamaExtract calls file entityIdx outPath).1 = false := by
  rw [oseamaExtract]
  split
  · rfl
  · rename_i asked
    split
    · rfl
    · rename_i opened
      simp only [not_or] at asked opened
      have short : (freadAt file 0 sealHeaderSize calls.sealRead).length ≠ sealHeaderSize := by
        rw [freadAt_length]
        rcases refused with index | named | seama | out | limit | short
        · exact absurd index asked.1
        · exact absurd named asked.2
        · exact absurd seama opened.1
        · exact absurd out opened.2
        · omega
        · omega
      simp only [short, ne_eq, not_false_eq_true, if_true]

theorem extractHonest_iff : ExtractHonest calls file entityIdx outPath ↔
    Refused calls file entityIdx outPath ∨ Carried calls file entityIdx.toNat := by
  by_cases refused : Refused calls file entityIdx outPath
  · refine iff_of_true ?_ (Or.inl refused)
    intro success
    rw [oseamaExtract_refused refused] at success
    cases success
  · rw [ExtractHonest, oseamaExtract_accepted refused]
    simp only [refused, false_or, true_implies]
    constructor
    · rintro ⟨there, whole, written⟩
      have read : ∀ k, k ≤ entityIdx.toNat → HeaderRead calls file k := by
        by_contra stops
        simp only [not_forall] at stops
        obtain ⟨k, below, stops⟩ := stops
        rw [extractEntity_lost (Nat.zero_le k) (by omega) stops] at written
        have length := entityData_length whole
        rw [← written, List.take_nil, List.length_nil, copyLength, entityHeaderSize] at length
        omega
      refine ⟨there, whole, read, ?_⟩
      rwa [extractEntity_found fun k _ below => read k (by omega), Nat.zero_add] at written
    · rintro ⟨there, whole, read, written⟩
      refine ⟨there, whole, ?_⟩
      rwa [extractEntity_found fun k _ below => read k (by omega), Nat.zero_add]

/-! ## When all seeks succeed -/

structure SeeksSucceed (calls : ExtractCalls) (idx : Nat) : Prop where
  sealSeek : calls.sealSeek = true
  skipSeek : ∀ k, k < idx → calls.skipSeek k = true
  rewindSeek : calls.rewindSeek = true

theorem headerPlace_eq {idx : Nat} (seeks : SeeksSucceed calls idx) (below : i ≤ idx) :
    headerPlace calls file i = entityPlace file i := by
  induction i with
  | zero => rw [headerPlace, seeks.sealSeek, entityPlace, seekFrom, cond_true]
  | succ i ih =>
      simp only [headerPlace]
      rw [ih (by omega), seeks.skipSeek i (by omega), seekFrom, cond_true, entityPlace, copyLength,
        Nat.add_assoc]

/-- Nothing else can go wrong than that a header is not read, that the copying comes up short or
that the output is not written when it is closed. -/
theorem carried_iff {idx : Nat} (seeks : SeeksSucceed calls idx) :
    Carried calls file idx ↔ EntityExists file idx ∧
      entityPlace file idx + copyLength file (entityPlace file idx) ≤ file.length ∧
      (∀ k, k ≤ idx → (calls.headerRead k).cut entityHeaderSize = entityHeaderSize) ∧
      copyAmount calls (file.length - entityPlace file idx) 0
        (copyLength file (entityPlace file idx)) = copyLength file (entityPlace file idx) ∧
      calls.close.cut (copyLength file (entityPlace file idx)) =
        copyLength file (entityPlace file idx) := by
  have place := @headerPlace_eq calls file idx idx seeks (Nat.le_refl _)
  have start : copyPlace calls file idx = entityPlace file idx := by
    rw [copyPlace, seeks.rewindSeek, cond_true, place]
  have bound := @copyAmount_le calls 0 (copyLength file (entityPlace file idx))
    (file.length - entityPlace file idx)
  have outLength : (copied calls file idx).length =
      copyAmount calls (file.length - entityPlace file idx) 0
        (copyLength file (entityPlace file idx)) := by
    rw [copied, start, place, slice, List.length_take, List.length_drop]
    omega
  constructor
  · rintro ⟨there, whole, read, written⟩
    have length := congrArg List.length written
    rw [List.length_take, entityData_length whole, outLength] at length
    have cut := @Limit.cut_le (copyAmount calls (file.length - entityPlace file idx) 0
      (copyLength file (entityPlace file idx))) calls.close
    have all : copyAmount calls (file.length - entityPlace file idx) 0
        (copyLength file (entityPlace file idx)) = copyLength file (entityPlace file idx) := by omega
    rw [all] at length
    exact ⟨there, whole, fun k below => (read k below).1, all, by
      have := @Limit.cut_le (copyLength file (entityPlace file idx)) calls.close
      omega⟩
  · rintro ⟨there, whole, limits, all, closed⟩
    refine ⟨there, whole, fun k below => ⟨limits k below, ?_⟩, ?_⟩
    · rw [headerPlace_eq seeks below]
      exact there k below
    · rw [outLength, all, closed, copied, start, place, all, slice_front, Nat.min_self, entityData]

end Rut9xx.Oseama
