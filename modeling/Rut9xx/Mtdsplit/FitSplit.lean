import Rut9xx.Mtdsplit.UimageSplit
import Rut9xx.Tplink.Builder

namespace Rut9xx.Mtdsplit

open Rut9xx.Data Rut9xx.Tplink

/-! # `mtdsplit`: the FIT parser -/

section

def OF_DT_HEADER : UInt32 := 0xd00dfeed

/-- `sizeof(struct fdt_header)`. -/
def fdtHeaderSize : Nat := 40

/-- The search on erase block boundaries, with `offset` and `hdr` at its end. It also ends where no
header has been found, and then `hdr` is what was read last. -/
def findFit (mtd : MtdInfo) : Nat → Nat → List UInt8 → Option (Except Errno (Nat × List UInt8))
  | 0, _, _ => none
  | fuel + 1, offset, hdr =>
      if (offset + fdtHeaderSize) % 2 ^ 32 ≤ mtd.size then
        match mtdRead mtd offset fdtHeaderSize with
        | .error err => some (.error err)
        | .ok hdr =>
            if be32At hdr 0 ≠ OF_DT_HEADER then
              findFit mtd fuel ((offset + mtd.erasesize) % 2 ^ 32) hdr
            else some (.ok (offset, hdr))
      else some (.ok (offset, hdr))

def fitKernelSize (mtd : MtdInfo) (fitSize : Nat) : Nat :=
  fitSize - fitSize % mtd.erasesize + mtd.erasesize

def fitParts (mtd : MtdInfo) (fitOffset fitSize rootfsOffset : Nat) : List MtdPartition :=
  [⟨KERNEL_PART_NAME, fitOffset, fitKernelSize mtd fitSize⟩,
   ⟨ROOTFS_PART_NAME, rootfsOffset, (mtd.size - rootfsOffset) % 2 ^ 32⟩]

/-- `mtdsplit_fit_parse`; `hdr` is what the stack holds before. A round of the search that goes on
has read below the size, so that `size + 1` rounds are enough as long as offsets do not repeat. -/
def mtdsplitFitParse (kzalloc : Bool) (hdr : List UInt8) (mtd : MtdInfo) :
    Option (Except Errno (List MtdPartition)) :=
  match findFit mtd (mtd.size + 1) 0 hdr with
  | none => none
  | some (.error err) => some (.error err)
  | some (.ok (fitOffset, hdr)) =>
      let fitSize := (be32At hdr 4).toNat
      if fitSize = 0 then some (.error .ENODEV)
      else
        (mtdFindRootfsFrom mtd ((fitOffset + fitSize) % 2 ^ 32) mtd.size).map fun found =>
          found.bind fun (rootfsOffset, _) =>
            if kzalloc then .ok (fitParts mtd fitOffset fitSize rootfsOffset) else .error .ENOMEM

end

/-! # The parts that the FIT parser finds -/

section

variable {mtd : MtdInfo} {hdr out : List UInt8} {place offset : Nat} {kzalloc : Bool}
  {parts : List MtdPartition}

/-! ## The search for the header -/

structure FdtHeader (mtd : MtdInfo) (place : Nat) : Prop where
  inside : place + fdtHeaderSize ≤ mtd.size
  magic : be32At mtd.flash place = OF_DT_HEADER

def fitSizeAt (mtd : MtdInfo) (place : Nat) : Nat := (be32At mtd.flash (place + 4)).toNat

/-- The offset of the search in round `index`. -/
def blockAt (mtd : MtdInfo) (index : Nat) : Nat := index * mtd.erasesize % 2 ^ 32

theorem blockAt_succ (mtd : MtdInfo) (index : Nat) :
    (blockAt mtd index + mtd.erasesize) % 2 ^ 32 = blockAt mtd (index + 1) := by
  rw [blockAt, blockAt, Nat.mod_add_mod, Nat.succ_mul]

/-- There is room for a header, and no header. -/
structure Passed (mtd : MtdInfo) (place : Nat) : Prop where
  room : place + fdtHeaderSize ≤ mtd.size
  other : be32At mtd.flash place ≠ OF_DT_HEADER

/-- The header that a search from the start of the master meets first. -/
def FirstHeader (mtd : MtdInfo) (place : Nat) : Prop :=
  ∃ index, blockAt mtd index = place ∧ FdtHeader mtd place ∧
    ∀ earlier, earlier < index → Passed mtd (blockAt mtd earlier)

/-- The search has run into the end of the master. -/
def FellThrough (mtd : MtdInfo) (place : Nat) : Prop :=
  ∃ index, blockAt mtd index = place ∧ mtd.size < place + fdtHeaderSize ∧
    ∀ earlier, earlier < index → Passed mtd (blockAt mtd earlier)

theorem findFit_found {fuel index : Nat}
    (passed : ∀ earlier, earlier < index → Passed mtd (blockAt mtd earlier))
    (found : findFit mtd fuel (blockAt mtd index) hdr = some (.ok (place, out))) :
    FirstHeader mtd place ∧ out = slice mtd.flash place fdtHeaderSize ∨ FellThrough mtd place := by
  induction fuel generalizing index hdr with
  | zero => cases found
  | succ fuel ih =>
      rw [findFit] at found
      split at found
      · cases read : mtdRead mtd (blockAt mtd index) fdtHeaderSize with
        | error err =>
            rw [read] at found
            cases found
        | ok buf =>
            obtain ⟨inside, rfl⟩ := (mtdRead_ok_iff (show 0 < fdtHeaderSize by decide)).mp read
            have word : be32At (slice mtd.flash (blockAt mtd index) fdtHeaderSize) 0 =
                be32At mtd.flash (blockAt mtd index) := be32At_slice (by decide)
            simp only [read, word] at found
            split at found
            · rename_i other
              rw [blockAt_succ] at found
              apply ih _ found
              intro earlier before
              rcases Nat.lt_succ_iff_lt_or_eq.mp before with before | rfl
              · exact passed earlier before
              · exact ⟨inside, other⟩
            · rename_i magic
              cases found
              exact .inl ⟨⟨index, rfl, ⟨inside, Decidable.not_not.mp magic⟩, passed⟩, rfl⟩
      · rename_i ended
        cases found
        have wrapped := Nat.mod_le (blockAt mtd index + fdtHeaderSize) (2 ^ 32)
        exact .inr ⟨index, rfl, by omega, passed⟩

theorem FirstHeader.unique {other : Nat} (found : FirstHeader mtd place)
    (again : FirstHeader mtd other) : place = other := by
  obtain ⟨index, rfl, header, passed⟩ := found
  obtain ⟨index', rfl, header', passed'⟩ := again
  rcases Nat.lt_trichotomy index index' with before | same | behind
  · exact absurd header.magic (passed' index before).other
  · rw [same]
  · exact absurd header'.magic (passed index' behind).other

theorem FellThrough.noHeader {other : Nat} (ended : FellThrough mtd place) :
    ¬ FirstHeader mtd other := by
  intro ⟨index', here', header', passed'⟩
  obtain ⟨index, rfl, short, passed⟩ := ended
  rcases Nat.lt_trichotomy index index' with before | same | behind
  · have room := (passed' index before).room
    omega
  · have room := header'.inside
    rw [← here', ← same] at room
    omega
  · exact absurd (here' ▸ header'.magic) (passed index' behind).other

/-! ## The search for the rootfs -/

/-- What is found is where the search began, on a boundary, or behind a wrap. -/
theorem findRootfs_searched {fuel limit : Nat} {type : MtdsplitPartType}
    (positive : 0 < mtd.erasesize) (small : limit ≤ 2 ^ 32)
    (found : mtdFindRootfsLoop mtd limit fuel offset = some (.ok (place, type))) :
    place < limit ∧ mtdCheckRootfsMagic mtd place = .ok type ∧
      (place = offset ∨ mtd.erasesize ∣ place ∨ place < mtd.erasesize) := by
  induction fuel generalizing offset with
  | zero => cases found
  | succ fuel ih =>
      rw [mtdFindRootfsLoop] at found
      split at found
      · rename_i inside
        split at found
        · obtain ⟨below, magic, where'⟩ := ih found
          refine ⟨below, magic, .inr ?_⟩
          rcases where' with same | aligned | low
          · have boundary : mtd.erasesize ∣ offset - offset % mtd.erasesize + mtd.erasesize :=
              Nat.dvd_add (Nat.dvd_sub_mod offset) (Nat.dvd_refl _)
            rw [mtdNextEb] at same
            by_cases wraps : offset - offset % mtd.erasesize + mtd.erasesize < 2 ^ 32
            · rw [Nat.mod_eq_of_lt wraps] at same
              exact .inl (same ▸ boundary)
            · right
              have rest := Nat.mod_lt (offset - offset % mtd.erasesize + mtd.erasesize)
                (show 0 < 2 ^ 32 by decide)
              by_cases wide : 2 ^ 32 < mtd.erasesize
              · omega
              · rw [Nat.mod_eq_sub_mod (by omega), Nat.mod_eq_of_lt (by omega)] at same
                omega
          · exact .inl aligned
          · exact .inr low
        · rename_i kind magic
          cases found
          exact ⟨inside, magic, .inl rfl⟩
      · cases found

/-- With a rootfs further on, nothing that the search looks at before is one. -/
theorem findRootfs_least {fuel limit target : Nat} {type kind : MtdsplitPartType}
    (positive : 0 < mtd.erasesize) (small : limit ≤ 2 ^ 32)
    (found : mtdFindRootfsLoop mtd limit fuel offset = some (.ok (place, type)))
    (searched : Searched mtd offset target) (below : target < limit)
    (magic : mtdCheckRootfsMagic mtd target = .ok kind) :
    place ≤ target ∧ Searched mtd offset place ∧
      ∀ earlier, earlier < place → Searched mtd offset earlier →
        ∀ type, mtdCheckRootfsMagic mtd earlier ≠ .ok type := by
  induction fuel generalizing offset with
  | zero => cases found
  | succ fuel ih =>
      rw [mtdFindRootfsLoop] at found
      split at found
      · split at found
        · rename_i err failed
          have other : target ≠ offset := by
            intro same
            rw [← same, magic] at failed
            cases failed
          have onBlock : mtd.erasesize ∣ offset - offset % mtd.erasesize := Nat.dvd_sub_mod offset
          have rest := Nat.mod_lt offset positive
          have next : mtdNextEb mtd offset = offset - offset % mtd.erasesize + mtd.erasesize :=
            Nat.mod_eq_of_lt (by have := (searched.behind positive other).1; omega)
          have again {later : Nat} (looked : Searched mtd offset later) (apart : later ≠ offset) :
              Searched mtd (mtdNextEb mtd offset) later := by
            obtain ⟨reached, boundary⟩ := looked.behind positive apart
            rw [next]
            rcases Nat.eq_or_lt_of_le reached with same | above
            · exact .inl same.symm
            · exact .inr ⟨above, boundary⟩
          obtain ⟨most, looked, first⟩ := ih found (again searched other)
          refine ⟨most, .inr ?_, ?_⟩
          · rw [next] at looked
            rcases looked with same | ⟨above, boundary⟩
            · exact ⟨by omega, same ▸ Nat.dvd_add onBlock (Nat.dvd_refl _)⟩
            · exact ⟨by omega, boundary⟩
          · intro earlier before looked' other'
            by_cases here : earlier = offset
            · rw [here, failed]
              intro impossible
              cases impossible
            · exact first earlier before (again looked' here) other'
        · cases found
          refine ⟨?_, .inl rfl, ?_⟩
          · rcases searched with same | ⟨above, -⟩ <;> omega
          · intro earlier before looked
            rcases looked with same | ⟨above, -⟩ <;> omega
      · cases found

/-! ## Soundness of the parts -/

structure SoundParts (mtd : MtdInfo) (kernel rootfs : MtdPartition) : Prop where
  header : FdtHeader mtd kernel.offset
  whole : fitSizeAt mtd kernel.offset ≤ kernel.size
  recognised : ∃ type, mtdCheckRootfsMagic mtd rootfs.offset = .ok type
  kernelInside : kernel.offset + kernel.size ≤ mtd.size
  rootfsInside : rootfs.offset + rootfs.size ≤ mtd.size
  disjoint : kernel.offset + kernel.size ≤ rootfs.offset ∨
    rootfs.offset + rootfs.size ≤ kernel.offset

/-- Behind a FIT that ends at `fitEnd`, the first rootfs is not below the `kernelEnd` of its part. -/
structure RootfsBehind (mtd : MtdInfo) (fitEnd kernelEnd : Nat) : Prop where
  small : fitEnd < 2 ^ 32
  clear : ∀ place, Searched mtd fitEnd place → place < kernelEnd →
    ∀ type, mtdCheckRootfsMagic mtd place ≠ .ok type
  some' : ∃ place type, Searched mtd fitEnd place ∧ kernelEnd ≤ place ∧
    place < mtd.size % 2 ^ 32 ∧ mtdCheckRootfsMagic mtd place = .ok type

/-- There is a FIT and a rootfs clear of the kernel part, which on a master beyond 4 GiB can also
stand behind all that a search for the rootfs looks at. -/
def RootfsClear (mtd : MtdInfo) : Prop :=
  0 < mtd.erasesize ∧ ∃ fit, FirstHeader mtd fit ∧
    (RootfsBehind mtd (fit + fitSizeAt mtd fit) (fit + fitKernelSize mtd (fitSizeAt mtd fit)) ∨
      mtd.size % 2 ^ 32 ≤ fit ∧ fit + fitKernelSize mtd (fitSizeAt mtd fit) ≤ mtd.size)

theorem fitSize_lt (positive : 0 < mtd.erasesize) (fitSize : Nat) :
    fitSize < fitKernelSize mtd fitSize ∧ mtd.erasesize ≤ fitKernelSize mtd fitSize := by
  have rest := Nat.mod_lt fitSize positive
  have part := Nat.mod_le fitSize mtd.erasesize
  rw [fitKernelSize]
  omega

theorem mtdsplitFitParse_ok (done : mtdsplitFitParse kzalloc hdr mtd = some (.ok parts)) :
    ∃ fit out rootfs type, findFit mtd (mtd.size + 1) (blockAt mtd 0) hdr = some (.ok (fit, out)) ∧
      (be32At out 4).toNat ≠ 0 ∧
      mtdFindRootfsFrom mtd ((fit + (be32At out 4).toNat) % 2 ^ 32) mtd.size =
        some (.ok (rootfs, type)) ∧
      parts = fitParts mtd fit (be32At out 4).toNat rootfs := by
  have start : blockAt mtd 0 = 0 := by rw [blockAt, Nat.zero_mul, Nat.zero_mod]
  rw [start]
  rw [mtdsplitFitParse] at done
  split at done
  · cases done
  · cases done
  · rename_i fit out found
    dsimp only at done
    split at done
    · cases done
    · rename_i some'
      obtain ⟨result, searched, done⟩ := Option.map_eq_some_iff.mp done
      cases result with
      | error err => cases done
      | ok rootfs =>
          obtain ⟨rootfs, type⟩ := rootfs
          simp only [Except.bind] at done
          split at done
          · cases done
            exact ⟨fit, out, rootfs, type, found, some', searched, rfl⟩
          · cases done

/-- The rootfs part reaches up to the size as the parser's arithmetic has it. -/
theorem rootfs_end {rootfs : Nat} (below : rootfs < mtd.size % 2 ^ 32) :
    rootfs + (mtd.size - rootfs) % 2 ^ 32 = mtd.size % 2 ^ 32 := by omega

/-- The parts are sound exactly when the rootfs stands clear of the kernel part. -/
theorem mtdsplitFitParse_sound_iff (done : mtdsplitFitParse kzalloc hdr mtd = some (.ok parts)) :
    (∃ kernel rootfs, parts = [kernel, rootfs] ∧ SoundParts mtd kernel rootfs) ↔
      RootfsClear mtd := by
  obtain ⟨fit, out, rootfs, type, found, some', searched, rfl⟩ := mtdsplitFitParse_ok done
  have none' : ∀ earlier, earlier < 0 → Passed mtd (blockAt mtd earlier) :=
    fun earlier before => absurd before (Nat.not_lt_zero earlier)
  rcases findFit_found none' found with ⟨header, rfl⟩ | ended
  · have size : (be32At (slice mtd.flash fit fdtHeaderSize) 4).toNat = fitSizeAt mtd fit := by
      rw [be32At_slice (by decide), fitSizeAt]
    rw [size] at some' searched ⊢
    rw [mtdFindRootfsFrom] at searched
    have limit : mtd.size % 2 ^ 32 ≤ 2 ^ 32 := Nat.le_of_lt (Nat.mod_lt _ (by decide))
    constructor
    · intro given
      obtain ⟨kernel, part, same, sound⟩ := given
      obtain ⟨rfl, rfl⟩ : _ = kernel ∧ _ = part := by
        simpa only [fitParts, List.cons.injEq, and_true] using same
      have whole := sound.whole
      have inside := sound.kernelInside
      have disjoint := sound.disjoint
      dsimp only at whole inside disjoint
      have positive : 0 < mtd.erasesize := by
        rcases Nat.eq_zero_or_pos mtd.erasesize with zero | positive
        · rw [fitKernelSize, zero, Nat.mod_zero, Nat.sub_self] at whole
          omega
        · exact positive
      have larger := fitSize_lt positive (fitSizeAt mtd fit)
      obtain ⟨below, magic, where'⟩ := findRootfs_searched positive limit searched
      refine ⟨positive, fit, header, ?_⟩
      rw [rootfs_end below] at disjoint
      rcases disjoint with behind | front
      · have small : fit + fitSizeAt mtd fit < 2 ^ 32 := by omega
        rw [Nat.mod_eq_of_lt small] at searched where'
        have looked : Searched mtd (fit + fitSizeAt mtd fit) rootfs := by
          rcases where' with same | boundary | low
          · exact .inl same
          · exact .inr ⟨by omega, boundary⟩
          · omega
        obtain ⟨-, -, first⟩ := findRootfs_least positive limit searched looked below magic
        refine .inl ⟨small, ?_, rootfs, type, looked, behind, below, magic⟩
        intro earlier searched' before
        exact first earlier (by omega) searched'
      · exact .inr ⟨front, inside⟩
    · intro given
      obtain ⟨positive, other, first, clear⟩ := given
      obtain rfl := header.unique first
      have larger := fitSize_lt positive (fitSizeAt mtd fit)
      have part := Nat.mod_le mtd.size (2 ^ 32)
      obtain ⟨below, magic, -⟩ := findRootfs_searched positive limit searched
      refine ⟨_, _, rfl, ?_⟩
      have inside : fit + fitKernelSize mtd (fitSizeAt mtd fit) ≤ mtd.size ∧
          (fit + fitKernelSize mtd (fitSizeAt mtd fit) ≤ rootfs ∨ mtd.size % 2 ^ 32 ≤ fit) := by
        rcases clear with ⟨small, clear, target, kind, looked, reached, belowTarget, magic'⟩ | front
        · rw [Nat.mod_eq_of_lt small] at searched
          obtain ⟨-, looked', -⟩ := findRootfs_least positive limit searched looked belowTarget magic'
          have behind : fit + fitKernelSize mtd (fitSizeAt mtd fit) ≤ rootfs := by
            by_contra before
            exact clear rootfs looked' (by omega) type magic
          exact ⟨by omega, .inl behind⟩
        · exact ⟨front.2, .inr front.1⟩
      obtain ⟨_, _, headerHere, _⟩ := first
      constructor
      · exact headerHere
      · exact Nat.le_of_lt larger.1
      · exact ⟨type, magic⟩
      · exact inside.1
      · dsimp only
        rw [rootfs_end below]
        exact part
      · dsimp only
        rw [rootfs_end below]
        exact inside.2
  · constructor
    · intro given
      obtain ⟨kernel, part, same, sound⟩ := given
      obtain ⟨rfl, rfl⟩ : _ = kernel ∧ _ = part := by
        simpa only [fitParts, List.cons.injEq, and_true] using same
      obtain ⟨_, _, short, _⟩ := ended
      have whole := sound.header.inside
      dsimp only at whole
      omega
    · intro given
      obtain ⟨_, other, first, _⟩ := given
      exact absurd first ended.noHeader

/-! ## A FIT of one block, with its rootfs in the next one -/

def fitBesideRootfs : MtdInfo where
  flash := be32 OF_DT_HEADER ++ be32 64 ++ List.replicate 56 0 ++ squashfsMagic ++
    List.replicate 60 0
  erasesize := 64
  order := .big

theorem fitBesideRootfs_split : mtdsplitFitParse true [] fitBesideRootfs =
    some (.ok [⟨KERNEL_PART_NAME, 0, 128⟩, ⟨ROOTFS_PART_NAME, 64, 64⟩]) := by
  decide +kernel

theorem mtdsplitFitParse_sound_iff_beside :
    (∃ kernel rootfs, [⟨KERNEL_PART_NAME, 0, 128⟩, ⟨ROOTFS_PART_NAME, 64, 64⟩] = [kernel, rootfs] ∧
      SoundParts fitBesideRootfs kernel rootfs) ↔ RootfsClear fitBesideRootfs :=
  mtdsplitFitParse_sound_iff fitBesideRootfs_split

theorem mtdsplitFitParse_overlap :
    ¬ ∀ (hdr : List UInt8) (mtd : MtdInfo) (parts : List MtdPartition),
      mtdsplitFitParse true hdr mtd = some (.ok parts) →
      ∃ kernel rootfs, parts = [kernel, rootfs] ∧ SoundParts mtd kernel rootfs := by
  intro always
  obtain ⟨kernel, rootfs, same, sound⟩ := always [] fitBesideRootfs _ fitBesideRootfs_split
  cases same
  exact absurd sound.disjoint (by decide)

end

end Rut9xx.Mtdsplit
