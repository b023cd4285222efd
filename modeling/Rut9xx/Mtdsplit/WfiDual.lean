import Rut9xx.Mtdsplit.WfiParsers

namespace Rut9xx.Mtdsplit

open Rut9xx.Data Rut9xx.Tplink Rut9xx.Mtd

/-! # What the parsers for dual images hand out -/

variable {master mtd : MtdInfo} {name : List UInt8} {wantName valid cfePart erased : Bool}
  {fuel rounds offs place off size : Nat} {stop : Int} {out : Option FoundName} {bf1 bf2 : Int}
  {half : MtdPartition}

theorem andThen_ok_iff {α β : Type} {step : Outcome (Except WfiError α)}
    {rest : α → Outcome (Except WfiError β)} {value : β} :
    andThen step rest = .done (.ok value) ↔
      ∃ first, step = .done (.ok first) ∧ rest first = .done (.ok value) := by
  rw [andThen, Outcome.bind_done_iff]
  constructor
  · intro ⟨result, done, next⟩
    cases result with
    | error err => cases next
    | ok first => exact ⟨first, done, next⟩
  · intro ⟨first, done, next⟩
    exact ⟨.ok first, done, next⟩

/-- What is found stands between the start and the end. -/
theorem findInBlocks_place
    (found : findInBlocks mtd name wantName fuel stop rounds offs valid = .done (.ok (place, out))) :
    offs ≤ place ∧ (place : Int) < stop := by
  induction rounds generalizing offs valid with
  | zero => cases found
  | succ rounds ih =>
      have further {flag : Bool} (next : findInBlocks mtd name wantName fuel stop rounds
          (offs + mtd.erasesize) flag = .done (.ok (place, out))) : offs ≤ place ∧ (place : Int) < stop := by
        obtain ⟨reached, below⟩ := ih next
        exact ⟨by omega, below⟩
      simp only [findInBlocks] at found
      split at found
      · rename_i below
        split at found
        · exact further found
        · split at found
          · exact further found
          · split at found
            · cases found
            · obtain ⟨reached, -, rest⟩ := Outcome.bind_done_iff.mp found
              cases reached with
              | more flag => exact further rest
              | invalid => cases rest
              | found out =>
                  cases rest
                  exact ⟨Nat.le_refl _, below⟩
      · cases found

theorem jffs2FindFile_place {size : Int}
    (found : jffs2FindFile mtd name wantName fuel offs size = .done (.ok (place, out))) :
    offs ≤ place ∧ (place : Int) < offs + size := findInBlocks_place found

theorem ubifsLoop_place (found : ubifsLoop mtd stop rounds offs = .done (.ok place)) :
    offs ≤ place ∧ (place : Int) < stop := by
  induction rounds generalizing offs with
  | zero => cases found
  | succ rounds ih =>
      rw [ubifsLoop] at found
      split at found
      · rename_i below
        split at found
        · cases found
          exact ⟨Nat.le_refl _, below⟩
        · obtain ⟨reached, inside⟩ := ih found
          exact ⟨by omega, inside⟩
      · cases found

theorem ubifsLoop_found_iff : (∃ place, ubifsLoop mtd stop rounds offs = .done (.ok place)) ↔
    ∃ index, index < rounds ∧ ((offs + index * mtd.erasesize : Nat) : Int) < stop ∧
      ubiAt mtd (offs + index * mtd.erasesize) = true := by
  induction rounds generalizing offs with
  | zero => simp [ubifsLoop]
  | succ rounds ih =>
      have shift (index : Nat) :
          offs + (index + 1) * mtd.erasesize = offs + mtd.erasesize + index * mtd.erasesize := by
        rw [Nat.succ_mul]
        omega
      rw [ubifsLoop]
      constructor
      · intro ⟨place, found⟩
        split at found
        · rename_i below
          split at found
          · rename_i here
            exact ⟨0, Nat.succ_pos _, by simpa using below, by simpa using here⟩
          · obtain ⟨index, few, inside, there⟩ := ih.mp ⟨place, found⟩
            exact ⟨index + 1, by omega, shift index ▸ inside, shift index ▸ there⟩
        · cases found
      · intro ⟨index, few, inside, there⟩
        have below : (offs : Int) < stop := by
          have reached := Nat.le_add_right offs (index * mtd.erasesize)
          omega
        rw [if_pos below]
        by_cases here : ubiAt mtd offs = true
        · exact ⟨offs, if_pos here⟩
        · rw [if_neg here]
          cases index with
          | zero => simp [here] at there
          | succ index =>
              rw [shift] at inside there
              exact ih.mpr ⟨index, by omega, inside, there⟩

/-- The rounds are enough for every block of the region. -/
theorem ubifsFind_found_iff {size : Int} : (∃ place, ubifsFind mtd offs size = .done (.ok place)) ↔
    ∃ index, ((offs + index * mtd.erasesize : Nat) : Int) < offs + size ∧
      ubiAt mtd (offs + index * mtd.erasesize) = true := by
  rw [ubifsFind, ubifsLoop_found_iff]
  constructor
  · intro ⟨index, _, found⟩
    exact ⟨index, found⟩
  · intro ⟨index, inside, there⟩
    rcases Nat.eq_zero_or_pos mtd.erasesize with zero | positive
    · refine ⟨0, Nat.succ_pos _, ?_, ?_⟩
      · simpa [zero] using inside
      · simpa [zero] using there
    · have least : index ≤ index * mtd.erasesize := Nat.le_mul_of_pos_right index positive
      exact ⟨index, by omega, inside, there⟩

/-! ## A half that splits -/

/-- The boot loader, where it is asked for, the kernel behind it, and a UBI block behind that one. -/
def HalfSplits (master : MtdInfo) (fuel : Nat) (half : MtdPartition) (cfePart : Bool) : Prop :=
  ∃ cfe start kernelOff out,
    findCfe master fuel half.offset half.size cfePart = .done (.ok (cfe, start)) ∧
    jffs2FindFile master KERNEL_NAME false fuel start (half.size - (start - half.offset : Int)) =
      .done (.ok (kernelOff, out)) ∧
    ∃ index, kernelOff + (index + 1) * master.erasesize < half.offset + half.size ∧
      ubiAt master (kernelOff + (index + 1) * master.erasesize) = true

/-- A kernel and a rootfs behind it take up the half from the kernel on. -/
def SplitInto (parts : List MtdPartition) (half : MtdPartition) : Prop :=
  ∃ kernelOff rootfsOff, half.offset ≤ kernelOff ∧ kernelOff ≤ rootfsOff ∧
    rootfsOff < half.offset + half.size ∧
    ⟨KERNEL_PART_NAME, kernelOff, rootfsOff - kernelOff⟩ ∈ parts ∧
    ⟨WFI_UBI_PART_NAME, rootfsOff, half.offset + half.size - rootfsOff⟩ ∈ parts

theorem findCfe_start {cfe : Option Nat} {start : Nat}
    (found : findCfe master fuel off size cfePart = .done (.ok (cfe, start))) : off ≤ start := by
  unfold findCfe at found
  split at found
  · obtain ⟨⟨cfeOff, out⟩, located, done⟩ := Iff.mp andThen_ok_iff found
    cases done
    have reached := (jffs2FindFile_place located).1
    omega
  · cases found
    exact Nat.le_refl _

theorem parseBcmWfi_splits_iff :
    (∃ parts, parseBcmWfi master fuel half.offset half.size cfePart = .done (.ok parts)) ↔
      HalfSplits master fuel half cfePart := by
  have rest (start : Nat) : ((start : Int) + (half.size - (start - half.offset))) =
      ((half.offset + half.size : Nat) : Int) := by omega
  have shift (kernelOff index : Nat) : kernelOff + master.erasesize + index * master.erasesize =
      kernelOff + (index + 1) * master.erasesize := by
    rw [Nat.succ_mul]
    omega
  constructor
  · intro ⟨parts, done⟩
    obtain ⟨⟨cfe, start⟩, located, done⟩ := Iff.mp andThen_ok_iff done
    obtain ⟨⟨kernelOff, out⟩, kernel, done⟩ := Iff.mp andThen_ok_iff done
    obtain ⟨rootfsOff, rootfs, -⟩ := Iff.mp andThen_ok_iff done
    obtain ⟨index, inside, there⟩ := ubifsFind_found_iff.mp ⟨rootfsOff, rootfs⟩
    rw [rest, shift] at inside
    rw [shift] at there
    exact ⟨cfe, start, kernelOff, out, located, kernel, index, Int.ofNat_lt.mp inside, there⟩
  · intro ⟨cfe, start, kernelOff, out, located, kernel, index, inside, there⟩
    obtain ⟨rootfsOff, rootfs⟩ := (@ubifsFind_found_iff master (kernelOff + master.erasesize)
      (half.size - ((kernelOff + master.erasesize : Nat) - half.offset))).mpr
        ⟨index, by rw [rest, shift]; exact Int.ofNat_lt.mpr inside, by rw [shift]; exact there⟩
    exact ⟨_, Iff.mpr andThen_ok_iff ⟨_, located, Iff.mpr andThen_ok_iff ⟨_, kernel,
      Iff.mpr andThen_ok_iff ⟨_, rootfs, rfl⟩⟩⟩⟩

theorem parseBcmWfi_splitInto {parts : List MtdPartition}
    (done : parseBcmWfi master fuel half.offset half.size cfePart = .done (.ok parts)) :
    SplitInto parts half := by
  obtain ⟨⟨cfe, start⟩, located, done⟩ := Iff.mp andThen_ok_iff done
  obtain ⟨⟨kernelOff, out⟩, kernel, done⟩ := Iff.mp andThen_ok_iff done
  obtain ⟨rootfsOff, rootfs, done⟩ := Iff.mp andThen_ok_iff done
  cases done
  have begins := findCfe_start located
  obtain ⟨kernelReached, kernelBelow⟩ := jffs2FindFile_place kernel
  obtain ⟨rootfsReached, rootfsBelow⟩ := ubifsLoop_place rootfs
  refine ⟨kernelOff, rootfsOff, by omega, by omega, by omega, ?_, ?_⟩
  · simp [wfiParts]
  · rw [show half.offset + half.size - rootfsOff = half.size - (rootfsOff - half.offset) by omega]
    simp [wfiParts]

/-! ## The parsers -/

def activeHalf (master : MtdInfo) (bf1 bf2 : Int) : MtdPartition :=
  if bf1 ≥ bf2 then img1 master else img2 master

def inactiveHalf (master : MtdInfo) (bf1 bf2 : Int) : MtdPartition :=
  if bf1 ≥ bf2 then img2 master else img1 master

/-- A positive count of partitions with the inactive half as a whole and the active one split or as a
whole; and no array with an error. -/
structure KeepsHalves (active inactive : MtdPartition) (parsed : Parsed) : Prop where
  positive : 0 < parsed.ret
  parts : ∃ parts, parsed.pparts = some parts ∧ parsed.ret = parts.length ∧ inactive ∈ parts ∧
    (SplitInto parts active ∨ active ∈ parts)
  noArray : parsed.ret < 0 → parsed.pparts = none

theorem splitActive_eq : splitActive master fuel bf1 bf2 cfePart erased =
    (parseBcmWfi master fuel (activeHalf master bf1 bf2).offset (activeHalf master bf1 bf2).size
      cfePart).bind (handOut master (inactiveHalf master bf1 bf2) erased) := by
  by_cases first : bf1 ≥ bf2
  · simp only [splitActive, activeHalf, inactiveHalf, if_pos first]
  · simp only [splitActive, activeHalf, inactiveHalf, if_neg first]

theorem splitActive_keeps_iff :
    (∃ parsed, splitActive master fuel bf1 bf2 cfePart erased = .done parsed ∧
      KeepsHalves (activeHalf master bf1 bf2) (inactiveHalf master bf1 bf2) parsed) ↔
      HalfSplits master fuel (activeHalf master bf1 bf2) cfePart := by
  rw [← parseBcmWfi_splits_iff, splitActive_eq]
  constructor
  · intro ⟨parsed, done, keeps⟩
    obtain ⟨result, split, done⟩ := Outcome.bind_done_iff.mp done
    cases result with
    | ok parts => exact ⟨parts, split⟩
    | error err =>
        cases done
        have positive := keeps.positive
        cases err <;> cases positive
  · intro ⟨parts, split⟩
    obtain ⟨kernelOff, rootfsOff, above, order, below, kernel, rootfs⟩ := parseBcmWfi_splitInto split
    refine ⟨_, Outcome.bind_done_iff.mpr ⟨_, split, rfl⟩, ?_⟩
    refine ⟨Int.natCast_succ_pos parts.length, ⟨_, rfl, ?_, ?_, .inl ?_⟩, ?_⟩
    · simp
    · exact List.mem_append_right parts List.mem_cons_self
    · exact ⟨kernelOff, rootfsOff, above, order, below, List.mem_append_left _ kernel,
        List.mem_append_left _ rootfs⟩
    · intro negative
      have positive := Int.natCast_succ_pos parts.length
      exact absurd (Int.lt_trans positive negative) (Int.lt_irrefl 0)

/-- A dual-image parser keeps both halves reachable exactly when it can split the active one. -/
theorem dualImages_kept_iff (master : MtdInfo) (fuel : Nat) :
    (∀ behind, (∃ first second parsed,
        jffs2FindFile master CFERAM_NAME true fuel (img1 master).offset (img1 master).size = .done first ∧
        jffs2FindFile master CFERAM_NAME true fuel (img2 master).offset (img2 master).size = .done second ∧
        mtdsplitParseBcmWfiSplit master behind fuel = .done parsed ∧
        KeepsHalves
          (activeHalf master (cferamBootflagValue (behind false) (cfeName first))
            (cferamBootflagValue (behind true) (cfeName second)))
          (inactiveHalf master (cferamBootflagValue (behind false) (cfeName first))
            (cferamBootflagValue (behind true) (cfeName second))) parsed) ↔
      ∃ first second,
        jffs2FindFile master CFERAM_NAME true fuel (img1 master).offset (img1 master).size = .done first ∧
        jffs2FindFile master CFERAM_NAME true fuel (img2 master).offset (img2 master).size = .done second ∧
        HalfSplits master fuel
          (activeHalf master (cferamBootflagValue (behind false) (cfeName first))
            (cferamBootflagValue (behind true) (cfeName second))) true) ∧
    ∀ bootflag1 bootflag2, (∃ mtdBf1 mtdBf2 bf1 bf2 parsed, bootflag1 = some mtdBf1 ∧
        bootflag2 = some mtdBf2 ∧ sercommBootflagValue mtdBf1 = .done bf1 ∧
        sercommBootflagValue mtdBf2 = .done bf2 ∧
        mtdsplitParseSerWfi master bootflag1 bootflag2 fuel = .done parsed ∧
        KeepsHalves (activeHalf master bf1 bf2) (inactiveHalf master bf1 bf2) parsed) ↔
      ∃ mtdBf1 mtdBf2 bf1 bf2, bootflag1 = some mtdBf1 ∧ bootflag2 = some mtdBf2 ∧
        sercommBootflagValue mtdBf1 = .done bf1 ∧ sercommBootflagValue mtdBf2 = .done bf2 ∧
        HalfSplits master fuel (activeHalf master bf1 bf2) false := by
  constructor
  · intro behind
    have parser {first second : Lookup}
        (one : jffs2FindFile master CFERAM_NAME true fuel (img1 master).offset (img1 master).size =
          .done first)
        (two : jffs2FindFile master CFERAM_NAME true fuel (img2 master).offset (img2 master).size =
          .done second) :
        mtdsplitParseBcmWfiSplit master behind fuel =
          splitActive master fuel (cferamBootflagValue (behind false) (cfeName first))
            (cferamBootflagValue (behind true) (cfeName second)) true false := by
      rw [mtdsplitParseBcmWfiSplit, one, two]
      rfl
    constructor
    · intro given
      obtain ⟨first, second, parsed, one, two, done, keeps⟩ := given
      rw [parser one two] at done
      exact ⟨first, second, one, two, splitActive_keeps_iff.mp ⟨parsed, done, keeps⟩⟩
    · intro given
      obtain ⟨first, second, one, two, splits⟩ := given
      obtain ⟨parsed, done, keeps⟩ := splitActive_keeps_iff.mpr splits
      exact ⟨first, second, parsed, one, two, (parser one two).trans done, keeps⟩
  · intro bootflag1 bootflag2
    have parser {mtdBf1 mtdBf2 : MtdInfo} {bf1 bf2 : Int}
        (one : sercommBootflagValue mtdBf1 = .done bf1) (two : sercommBootflagValue mtdBf2 = .done bf2) :
        (∃ parsed, mtdsplitParseSerWfi master (some mtdBf1) (some mtdBf2) fuel = .done parsed ∧
          KeepsHalves (activeHalf master bf1 bf2) (inactiveHalf master bf1 bf2) parsed) ↔
        HalfSplits master fuel (activeHalf master bf1 bf2) false := by
      simp only [mtdsplitParseSerWfi, one, two, Outcome.bind]
      split
      · rename_i tie
        -- The first half is the active one before and after the second flag is erased.
        have before : bf1 ≥ bf2 := Int.le_of_eq tie.1.symm
        have after : bf1 ≥ WfiError.ENOENT.code := Int.le_trans (by decide) (tie.1 ▸ tie.2)
        have active : activeHalf master bf1 bf2 = activeHalf master bf1 WfiError.ENOENT.code := by
          rw [activeHalf, activeHalf, if_pos before, if_pos after]
        have inactive : inactiveHalf master bf1 bf2 = inactiveHalf master bf1 WfiError.ENOENT.code := by
          rw [inactiveHalf, inactiveHalf, if_pos before, if_pos after]
        rw [active, inactive]
        exact splitActive_keeps_iff
      · exact splitActive_keeps_iff
    constructor
    · intro given
      obtain ⟨mtdBf1, mtdBf2, bf1, bf2, parsed, here1, here2, one, two, done, keeps⟩ := given
      rw [here1, here2] at done
      exact ⟨mtdBf1, mtdBf2, bf1, bf2, here1, here2, one, two, (parser one two).mp ⟨parsed, done, keeps⟩⟩
    · intro given
      obtain ⟨mtdBf1, mtdBf2, bf1, bf2, here1, here2, one, two, splits⟩ := given
      obtain ⟨parsed, done, keeps⟩ := (parser one two).mpr splits
      rw [← here1, ← here2] at done
      exact ⟨mtdBf1, mtdBf2, bf1, bf2, parsed, here1, here2, one, two, done, keeps⟩

/-! ## Erased flash -/

def erasedFlash : MtdInfo := ⟨List.replicate 24 0xff, 12, .big⟩

/-- The halves are handed out with an error. -/
theorem dualImages_errorWithArray :
    mtdsplitParseBcmWfiSplit erasedFlash (fun _ _ => 0) 1 =
        .done ⟨-2, some [⟨PART_IMAGE_1, 0, 12⟩, ⟨PART_IMAGE_2, 12, 12⟩], false⟩ ∧
      mtdsplitParseSerWfi erasedFlash (some erasedFlash) (some erasedFlash) 1 =
        .done ⟨-2, some [⟨PART_IMAGE_1, 0, 12⟩, ⟨PART_IMAGE_2, 12, 12⟩], false⟩ ∧
      ∀ active inactive, ¬ KeepsHalves active inactive
        ⟨-2, some [⟨PART_IMAGE_1, 0, 12⟩, ⟨PART_IMAGE_2, 12, 12⟩], false⟩ := by
  refine ⟨by decide, by decide, ?_⟩
  intro active inactive keeps
  have nothing := keeps.noArray (by decide)
  cases nothing

end Rut9xx.Mtdsplit
