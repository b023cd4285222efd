import Rut9xx.Tplink.Builder

namespace Rut9xx.Mtdsplit

open Rut9xx.Data Rut9xx.Tplink

/-! # `mtdsplit`: the uImage parser

As in the other parsers `size_t` arithmetic is taken modulo `2^32`.  A header
read outside the buffer has no result, and neither has a scan without end.
-/

section

def IH_MAGIC : UInt32 := 0x27051956
def IH_TYPE_KERNEL : UInt32 := 2
def IH_OS_LINUX : UInt8 := 5

def UBI_PART_NAME : List Char := ['u', 'b', 'i']

/-- The device-tree node of the master, with its `openwrt,*` properties. -/
structure DeviceNode where
  openwrtUimage : Bool
  padding : Option UInt32
  ihMagic : Option UInt32
  ihType : Option UInt32
  offset : Option UInt32
  partitionMagic : Option UInt32

structure UimageParams where
  extralen : UInt32
  ihMagic : UInt32
  ihType : UInt32
  headerOffset : UInt32
  partMagic : UInt32
  deriving DecidableEq, Repr

def defaultParams : UimageParams := ⟨0, IH_MAGIC, IH_TYPE_KERNEL, 0, 0⟩

def uimageParseDt (np : Option DeviceNode) : UimageParams :=
  match np with
  | none => defaultParams
  | some node =>
      if node.openwrtUimage then
        { extralen := node.padding.getD defaultParams.extralen
          ihMagic := node.ihMagic.getD defaultParams.ihMagic
          ihType := node.ihType.getD defaultParams.ihType
          headerOffset := node.offset.getD defaultParams.headerOffset
          partMagic := node.partitionMagic.getD defaultParams.partMagic }
      else defaultParams

/-- `struct uimage_header`, as far as the parser looks at it. -/
structure UimageHeader where
  ihMagic : UInt32
  ihSize : UInt32
  ihOs : UInt8
  ihType : UInt8
  deriving DecidableEq, Repr

/-- `sizeof(struct uimage_header)`. -/
def uimageHeaderSize : UInt32 := 64

def uimageHeaderAt (buf : List UInt8) (place : Nat) : Option UimageHeader :=
  if place + 64 ≤ buf.length then
    some ⟨be32At buf place, be32At buf (place + 12), buf.getD (place + 28) 0, buf.getD (place + 30) 0⟩
  else none

def uimageVerifyDefault (header : UimageHeader) (ihMagic ihType : UInt32) : Except Errno Unit :=
  if header.ihMagic ≠ ihMagic then .error .EINVAL
  else if header.ihOs ≠ IH_OS_LINUX then .error .EINVAL
  else if header.ihType.toUInt32 ≠ ihType then .error .EINVAL
  else .ok ()

def partMagicMatches (params : UimageParams) (buf : List UInt8) : Option Bool :=
  if params.headerOffset = 0 ∨ params.partMagic = 0 then some true
  else if 4 ≤ buf.length then some (be32At buf 0 == params.partMagic)
  else none

/-- The `uimage_size` of a valid header behind `offset`; `some none` where the
loop goes on to the next block. -/
def uimageAt (params : UimageParams) (master : MtdInfo) (buflen offset : Nat) :
    Option (Option UInt32) :=
  match mtdRead master offset buflen with
  | .error _ => some none
  | .ok buf => do
      let wanted ← partMagicMatches params buf
      if wanted then
        let header ← uimageHeaderAt buf params.headerOffset.toNat
        match uimageVerifyDefault header params.ihMagic params.ihType with
        | .error _ => some none
        | .ok () =>
            some (some (uimageHeaderSize + header.ihSize + params.headerOffset + params.extralen))
      else some none

/-- The search on erase block boundaries, with the `offset` and `uimage_size` at
its end.  A size that was found too large is still there after the last block. -/
def findUimage (params : UimageParams) (master : MtdInfo) (buflen : Nat) :
    Nat → Nat → UInt32 → Option (Nat × UInt32)
  | 0, _, _ => none
  | fuel + 1, offset, uimageSize =>
      if offset < master.size then
        let next := (offset + master.erasesize) % 2 ^ 32
        match uimageAt params master buflen offset with
        | none => none
        | some none => findUimage params master buflen fuel next 0
        | some (some size) =>
            if master.size < (offset + size.toNat) % 2 ^ 32 then
              findUimage params master buflen fuel next size
            else some (offset, size)
      else some (offset, uimageSize)

def rootfsName : MtdsplitPartType → List Char
  | .ubi => UBI_PART_NAME
  | _ => ROOTFS_PART_NAME

/-- The two parts of a uImage at the start of the master. -/
def splitBehind (master : MtdInfo) (uimageSize : UInt32) : Option (Except Errno (List MtdPartition)) :=
  (mtdFindRootfsFrom master uimageSize.toNat master.size).map fun found =>
    found.bind fun (rootfsOffset, type) =>
      let rootfsSize := (master.size - rootfsOffset) % 2 ^ 32
      if rootfsSize = 0 then .error .ENODEV
      else .ok [⟨KERNEL_PART_NAME, 0, rootfsOffset⟩, ⟨rootfsName type, rootfsOffset, rootfsSize⟩]

/-- The two parts of a uImage behind its rootfs. -/
def splitBefore (master : MtdInfo) (uimageOffset : Nat) (uimageSize : UInt32) :
    Except Errno (List MtdPartition) :=
  (mtdCheckRootfsMagic master 0).bind fun type =>
    .ok [⟨rootfsName type, 0, uimageOffset⟩, ⟨KERNEL_PART_NAME, uimageOffset, uimageSize.toNat⟩]

/-- `__mtdsplit_parse_uimage`.  As long as offsets below the size do not repeat,
`size + 1` rounds are enough. -/
def mtdsplitParseUimage (kzalloc : Bool) (vmalloc : Nat → Bool) (np : Option DeviceNode)
    (master : MtdInfo) : Option (Except Errno (List MtdPartition)) :=
  let params := uimageParseDt np
  let buflen := (uimageHeaderSize + params.headerOffset).toNat
  if !kzalloc then some (.error .ENOMEM)
  else if !vmalloc buflen then some (.error .ENOMEM)
  else (findUimage params master buflen (master.size + 1) 0 0).bind fun (offset, uimageSize) =>
    if uimageSize = 0 then some (.error .ENODEV)
    else if offset = 0 then splitBehind master uimageSize
    else some (splitBefore master offset uimageSize)

end

/-! # The parts that the uImage parser finds -/

section

variable {params : UimageParams} {master : MtdInfo} {np : Option DeviceNode} {kzalloc : Bool}
  {vmalloc : Nat → Bool} {parts : List MtdPartition} {offset : Nat}

/-! ## Headers on flash -/

/-- A valid header behind `offset`, whose image takes up `len` bytes from there. -/
structure ValidHeader (params : UimageParams) (master : MtdInfo) (offset len : Nat) : Prop where
  inside : offset + params.headerOffset.toNat + 64 ≤ master.size
  partMagic : params.headerOffset ≠ 0 → params.partMagic ≠ 0 →
    be32At master.flash offset = params.partMagic
  magic : be32At master.flash (offset + params.headerOffset.toNat) = params.ihMagic
  os : master.flash.getD (offset + params.headerOffset.toNat + 28) 0 = IH_OS_LINUX
  type : (master.flash.getD (offset + params.headerOffset.toNat + 30) 0).toUInt32 = params.ihType
  len : len = 64 + (be32At master.flash (offset + params.headerOffset.toNat + 12)).toNat +
    params.headerOffset.toNat + params.extralen.toNat

theorem uimageVerifyDefault_ok_iff {header : UimageHeader} {ihMagic ihType : UInt32} :
    uimageVerifyDefault header ihMagic ihType = .ok () ↔
      header.ihMagic = ihMagic ∧ header.ihOs = IH_OS_LINUX ∧ header.ihType.toUInt32 = ihType := by
  unfold uimageVerifyDefault
  split
  · simp [*]
  · split
    · simp [*]
    · split <;> simp_all

theorem partMagicMatches_true_iff {buf : List UInt8} (long : 4 ≤ buf.length) :
    partMagicMatches params buf = some true ↔
      (params.headerOffset ≠ 0 → params.partMagic ≠ 0 → be32At buf 0 = params.partMagic) := by
  unfold partMagicMatches
  split
  · rename_i unused
    simp only [true_iff]
    intro shifted wanted
    rcases unused with zero | zero
    · exact absurd zero shifted
    · exact absurd zero wanted
  · rename_i used
    rw [Option.some.injEq, beq_iff_eq]
    constructor
    · intro same _ _
      exact same
    · intro wanted
      exact wanted (fun zero => used (.inl zero)) (fun zero => used (.inr zero))

theorem uimageAt_eq_some_iff {buflen : Nat} {size : UInt32} :
    uimageAt params master buflen offset = some (some size) ↔
      ∃ buf header, mtdRead master offset buflen = .ok buf ∧
        partMagicMatches params buf = some true ∧
        uimageHeaderAt buf params.headerOffset.toNat = some header ∧
        uimageVerifyDefault header params.ihMagic params.ihType = .ok () ∧
        uimageHeaderSize + header.ihSize + params.headerOffset + params.extralen = size := by
  unfold uimageAt
  cases read : mtdRead master offset buflen with
  | error err => simp
  | ok buf =>
      simp only [Option.bind_eq_bind, Option.bind_eq_some_iff]
      constructor
      · rintro ⟨wanted, partMagic, found⟩
        cases wanted with
        | false => simp at found
        | true =>
            simp only [if_true, Option.bind_eq_some_iff] at found
            obtain ⟨header, headerRead, found⟩ := found
            split at found
            · cases found
            · rename_i verified
              exact ⟨buf, header, rfl, partMagic, headerRead, verified, by simpa using found⟩
      · rintro ⟨_, header, ⟨⟩, partMagic, headerRead, verified, sum⟩
        refine ⟨true, partMagic, ?_⟩
        simp only [if_true, headerRead, Option.bind_some, verified, sum]

/-- The header that a buffer read from `offset` on has at `headerOffset`. -/
theorem uimageHeaderAt_slice {shift count : Nat} (whole : shift + 64 ≤ count)
    (inside : offset + count ≤ master.size) :
    uimageHeaderAt (slice master.flash offset count) shift =
      some ⟨be32At master.flash (offset + shift), be32At master.flash (offset + shift + 12),
        master.flash.getD (offset + shift + 28) 0, master.flash.getD (offset + shift + 30) 0⟩ := by
  have length : (slice master.flash offset count).length = count := by
    simp only [MtdInfo.size] at inside
    rw [slice, List.length_take, List.length_drop]
    omega
  rw [uimageHeaderAt, if_pos (by omega), be32At_slice (by omega), be32At_slice (by omega),
    getD_slice (by omega), getD_slice (by omega)]
  simp only [Nat.add_assoc]

theorem mtdRead_ok_iff {len : Nat} {buf : List UInt8} (positive : 0 < len) :
    mtdRead master offset len = .ok buf ↔
      offset + len ≤ master.size ∧ slice master.flash offset len = buf := by
  unfold mtdRead
  split
  · simp only [Except.ok.injEq]
    constructor
    · intro same
      exact ⟨by omega, same⟩
    · exact fun inside => inside.2
  · simp only [reduceCtorEq, false_iff]
    omega

/-- A buffer length that wraps is too short for the header behind `headerOffset`. -/
theorem uimageAt_small {size : UInt32}
    (found : uimageAt params master (uimageHeaderSize + params.headerOffset).toNat offset =
      some (some size)) : 64 + params.headerOffset.toNat < 2 ^ 32 := by
  obtain ⟨buf, header, read, -, headerRead, -⟩ := uimageAt_eq_some_iff.mp found
  have bound := params.headerOffset.toNat_lt
  unfold mtdRead at read
  split at read
  · cases read
    unfold uimageHeaderAt at headerRead
    split at headerRead
    · rename_i whole
      simp only [slice, List.length_take, uimageHeaderSize, UInt32.toNat_add,
        UInt32.reduceToNat] at whole
      omega
    · cases headerRead
  · cases read

/-- What the loop takes for a header is one, with the size in 32 bits. -/
theorem uimageAt_iff {size : UInt32} (small : 64 + params.headerOffset.toNat < 2 ^ 32) :
    uimageAt params master (uimageHeaderSize + params.headerOffset).toNat offset =
        some (some size) ↔
      ∃ len, ValidHeader params master offset len ∧ UInt32.ofNat len = size := by
  have buflen : (uimageHeaderSize + params.headerOffset).toNat = 64 + params.headerOffset.toNat := by
    simp only [uimageHeaderSize, UInt32.toNat_add, UInt32.reduceToNat]
    omega
  have sum (ihSize : UInt32) : uimageHeaderSize + ihSize + params.headerOffset + params.extralen =
      UInt32.ofNat (64 + ihSize.toNat + params.headerOffset.toNat + params.extralen.toNat) := by
    apply UInt32.toNat_inj.mp
    simp only [uimageHeaderSize, UInt32.toNat_add, UInt32.toNat_ofNat', UInt32.reduceToNat]
    omega
  have long (inside : offset + (64 + params.headerOffset.toNat) ≤ master.size) :
      4 ≤ (slice master.flash offset (64 + params.headerOffset.toNat)).length := by
    simp only [MtdInfo.size] at inside
    rw [slice, List.length_take, List.length_drop]
    omega
  have front : be32At (slice master.flash offset (64 + params.headerOffset.toNat)) 0 =
      be32At master.flash offset := be32At_slice (by omega)
  rw [buflen, uimageAt_eq_some_iff]
  constructor
  · rintro ⟨buf, header, read, partMagic, headerRead, verified, rfl⟩
    obtain ⟨inside, rfl⟩ := (mtdRead_ok_iff (by omega)).mp read
    rw [uimageHeaderAt_slice (by omega) inside, Option.some.injEq] at headerRead
    subst headerRead
    obtain ⟨magic, os, type⟩ := uimageVerifyDefault_ok_iff.mp verified
    rw [partMagicMatches_true_iff (long inside), front] at partMagic
    exact ⟨_, ⟨by omega, partMagic, magic, os, type, rfl⟩, (sum _).symm⟩
  · rintro ⟨len, valid, rfl⟩
    have inside : offset + (64 + params.headerOffset.toNat) ≤ master.size := by
      have fits := valid.inside
      omega
    refine ⟨_, _, (mtdRead_ok_iff (by omega)).mpr ⟨inside, rfl⟩, ?_,
      uimageHeaderAt_slice (by omega) inside,
      uimageVerifyDefault_ok_iff.mpr ⟨valid.magic, valid.os, valid.type⟩, ?_⟩
    · rw [partMagicMatches_true_iff (long inside), front]
      exact valid.partMagic
    · rw [sum, valid.len]

/-! ## The search for the kernel -/

/-- The multiples of `unit` from one on are it and those from the next one on. -/
theorem multiple_next {unit low place : Nat} (onLow : unit ∣ low) (onPlace : unit ∣ place)
    (above : low ≤ place) (other : place ≠ low) : low + unit ≤ place := by
  obtain ⟨gap, same⟩ := Nat.dvd_sub onPlace onLow
  have positive : 0 < gap := by
    rcases Nat.eq_zero_or_pos gap with rfl | positive
    · omega
    · exact positive
  have step : unit * 1 ≤ unit * gap := Nat.mul_le_mul_left unit positive
  omega

/-- The erase block boundary the parser settles on. -/
structure FirstFitting (params : UimageParams) (master : MtdInfo) (low place len : Nat) : Prop where
  reached : low ≤ place
  boundary : master.erasesize ∣ place
  header : ValidHeader params master place len
  fits : place + len ≤ master.size
  first : ∀ earlier, low ≤ earlier → earlier < place → master.erasesize ∣ earlier →
    ∀ len, ValidHeader params master earlier len → master.size < earlier + len

/-- No sum of the parser leaves 32 bits. -/
structure NoWrap (params : UimageParams) (master : MtdInfo) : Prop where
  blocks : 0 < master.erasesize
  size : master.size + master.erasesize ≤ 2 ^ 32
  images : ∀ place len, master.erasesize ∣ place → ValidHeader params master place len →
    place + len < 2 ^ 32

/-- A valid header in the last block whose image does not fit. -/
def LastTooLarge (params : UimageParams) (master : MtdInfo) : Prop :=
  ∃ last len, master.erasesize ∣ last ∧ master.size ≤ last + master.erasesize ∧
    ValidHeader params master last len ∧ master.size < last + len

theorem FirstFitting.extend {low place len : Nat} (boundary : master.erasesize ∣ low)
    (behind : FirstFitting params master (low + master.erasesize) place len)
    (none : ∀ len, ValidHeader params master low len → master.size < low + len) :
    FirstFitting params master low place len where
  reached := by
    have reached := behind.reached
    omega
  boundary := behind.boundary
  header := behind.header
  fits := behind.fits
  first := by
    intro earlier above below onEarlier
    by_cases here : earlier = low
    · subst here
      exact none
    · exact behind.first earlier (multiple_next boundary onEarlier above here) below onEarlier

theorem ValidHeader.small {place len : Nat} (exact : NoWrap params master)
    (valid : ValidHeader params master place len) : 64 + params.headerOffset.toNat < 2 ^ 32 := by
  have inside := valid.inside
  have blocks := exact.blocks
  have size := exact.size
  omega

theorem ValidHeader.unique {place len other : Nat} (valid : ValidHeader params master place len)
    (again : ValidHeader params master place other) : len = other := by
  rw [valid.len, again.len]

theorem findUimage_first {fuel place : Nat} {carried size : UInt32} (exact : NoWrap params master)
    (boundary : master.erasesize ∣ offset)
    (found : findUimage params master (uimageHeaderSize + params.headerOffset).toNat fuel offset
      carried = some (place, size)) :
    FirstFitting params master offset place size.toNat ∨ LastTooLarge params master ∨ size = 0 ∨
      master.size ≤ offset ∧ size = carried := by
  induction fuel generalizing offset carried with
  | zero => cases found
  | succ fuel ih =>
      have sizeFits := exact.size
      rw [findUimage] at found
      split at found
      · rename_i inside
        have next : (offset + master.erasesize) % 2 ^ 32 = offset + master.erasesize :=
          Nat.mod_eq_of_lt (by have blocks := exact.blocks; omega)
        have onNext : master.erasesize ∣ offset + master.erasesize :=
          Nat.dvd_add boundary (Nat.dvd_refl _)
        simp only [next] at found
        split at found
        · cases found
        · rename_i skipped
          have none (len : Nat) (valid : ValidHeader params master offset len) :
              master.size < offset + len := by
            have taken := (uimageAt_iff (valid.small exact)).mpr ⟨len, valid, rfl⟩
            rw [skipped] at taken
            cases taken
          rcases ih onNext found with first | last | zero | ⟨-, same⟩
          · exact .inl (first.extend boundary none)
          · exact .inr (.inl last)
          · exact .inr (.inr (.inl zero))
          · exact .inr (.inr (.inl same))
        · rename_i taken
          obtain ⟨len, valid, rfl⟩ := (uimageAt_iff (uimageAt_small taken)).mp taken
          have image := exact.images offset len boundary valid
          have len32 : (UInt32.ofNat len).toNat = len := by
            rw [UInt32.toNat_ofNat']
            omega
          rw [len32, Nat.mod_eq_of_lt image] at found
          split at found
          · rename_i large
            have none (other : Nat) (again : ValidHeader params master offset other) :
                master.size < offset + other := again.unique valid ▸ large
            rcases ih onNext found with first | last | zero | ⟨ended, -⟩
            · exact .inl (first.extend boundary none)
            · exact .inr (.inl last)
            · exact .inr (.inr (.inl zero))
            · exact .inr (.inl ⟨offset, len, boundary, ended, valid, large⟩)
          · rename_i small
            cases found
            left
            rw [len32]
            exact ⟨Nat.le_refl _, boundary, valid, by omega, by omega⟩
      · cases found
        exact .inr (.inr (.inr ⟨by omega, rfl⟩))

/-! ## The search for the rootfs -/

/-- Where a search from `start` on looks: there, and on the boundaries behind. -/
def Searched (master : MtdInfo) (start place : Nat) : Prop :=
  place = start ∨ start < place ∧ master.erasesize ∣ place

structure FirstRootfs (master : MtdInfo) (start place : Nat) (type : MtdsplitPartType) : Prop where
  searched : Searched master start place
  below : place < master.size
  magic : mtdCheckRootfsMagic master place = .ok type
  first : ∀ earlier, earlier < place → Searched master start earlier →
    ∀ type, mtdCheckRootfsMagic master earlier ≠ .ok type

theorem mtdNextEb_eq (exact : NoWrap params master) (inside : offset < master.size) :
    mtdNextEb master offset = offset - offset % master.erasesize + master.erasesize := by
  have size := exact.size
  exact Nat.mod_eq_of_lt (by omega)

/-- What is looked at behind `offset` is a boundary, and not before the next one. -/
theorem Searched.behind {place : Nat} (positive : 0 < master.erasesize)
    (looked : Searched master offset place) (apart : place ≠ offset) :
    offset - offset % master.erasesize + master.erasesize ≤ place ∧ master.erasesize ∣ place := by
  rcases looked with same | ⟨above, boundary⟩
  · exact absurd same apart
  · have onBlock : master.erasesize ∣ offset - offset % master.erasesize := Nat.dvd_sub_mod offset
    have rest := Nat.mod_lt offset positive
    have part := Nat.mod_le offset master.erasesize
    exact ⟨multiple_next onBlock boundary (by omega) (by omega), boundary⟩

theorem searched_next (exact : NoWrap params master) (inside : offset < master.size) {place : Nat}
    (behind : Searched master offset place) (other : place ≠ offset) :
    mtdNextEb master offset ≤ place ∧ Searched master (mtdNextEb master offset) place := by
  obtain ⟨next, boundary⟩ := behind.behind exact.blocks other
  rw [mtdNextEb_eq exact inside]
  refine ⟨next, ?_⟩
  by_cases here : place = offset - offset % master.erasesize + master.erasesize
  · exact .inl here
  · exact .inr ⟨by omega, boundary⟩

theorem findRootfs_first {fuel place : Nat} {type : MtdsplitPartType} (exact : NoWrap params master)
    (found : mtdFindRootfsLoop master master.size fuel offset = some (.ok (place, type))) :
    FirstRootfs master offset place type ∧ offset ≤ place := by
  induction fuel generalizing offset with
  | zero => cases found
  | succ fuel ih =>
      rw [mtdFindRootfsLoop] at found
      split at found
      · rename_i inside
        split at found
        · rename_i err failed
          obtain ⟨behind, reached⟩ := ih found
          have next := mtdNextEb_eq exact inside
          have rest := Nat.mod_lt offset exact.blocks
          have boundary : master.erasesize ∣ mtdNextEb master offset := by
            rw [next]
            exact Nat.dvd_add (Nat.dvd_sub_mod offset) (Nat.dvd_refl _)
          refine ⟨⟨.inr ⟨by omega, ?_⟩, behind.below, behind.magic, ?_⟩, by omega⟩
          · rcases behind.searched with same | ⟨-, onBoundary⟩
            · exact same ▸ boundary
            · exact onBoundary
          · intro earlier before looked other
            by_cases here : earlier = offset
            · rw [here, failed]
              intro impossible
              cases impossible
            · exact behind.first earlier before (searched_next exact inside looked here).2 other
        · rename_i kind magic
          cases found
          refine ⟨⟨.inl rfl, inside, magic, ?_⟩, Nat.le_refl _⟩
          intro earlier before looked
          rcases looked with same | ⟨above, -⟩ <;> omega
      · cases found

/-! ## The two parts -/

/-- Two parts inside the master, one behind the other and neither empty. -/
structure Apart (master : MtdInfo) (front back : MtdPartition) : Prop where
  frontPositive : 0 < front.size
  backPositive : 0 < back.size
  disjoint : front.offset + front.size ≤ back.offset
  inside : back.offset + back.size ≤ master.size

/-- A kernel at the start of the master has its rootfs behind it, any other one
has it at the start. -/
inductive Parts (params : UimageParams) (master : MtdInfo) : List MtdPartition → Prop where
  | behind (len rootfs : Nat) (type : MtdsplitPartType)
      (kernel : FirstFitting params master 0 0 len) (found : FirstRootfs master len rootfs type) :
      Parts params master
        [⟨KERNEL_PART_NAME, 0, rootfs⟩, ⟨rootfsName type, rootfs, master.size - rootfs⟩]
  | before (place len : Nat) (type : MtdsplitPartType) (moved : place ≠ 0)
      (kernel : FirstFitting params master 0 place len)
      (found : mtdCheckRootfsMagic master 0 = .ok type) :
      Parts params master [⟨rootfsName type, 0, place⟩, ⟨KERNEL_PART_NAME, place, len⟩]

theorem ValidHeader.positive {place len : Nat} (valid : ValidHeader params master place len) :
    0 < len := by
  have sum := valid.len
  omega

theorem FirstRootfs.reached {start place : Nat} {type : MtdsplitPartType}
    (found : FirstRootfs master start place type) : start ≤ place := by
  rcases found.searched with same | ⟨above, -⟩ <;> omega

theorem Parts.apart (split : Parts params master parts) :
    ∃ front back, parts = [front, back] ∧ Apart master front back := by
  cases split with
  | behind len rootfs type kernel found =>
      have positive := kernel.header.positive
      have reached := found.reached
      have below := found.below
      refine ⟨_, _, rfl, ⟨?_, ?_, ?_, ?_⟩⟩ <;> dsimp only <;> omega
  | before place len type moved kernel found =>
      have positive := kernel.header.positive
      have fits := kernel.fits
      refine ⟨_, _, rfl, ⟨?_, ?_, ?_, ?_⟩⟩ <;> dsimp only <;> omega

theorem splitBehind_parts {size : UInt32} (exact : NoWrap params master)
    (kernel : FirstFitting params master 0 0 size.toNat)
    (done : splitBehind master size = some (.ok parts)) : Parts params master parts := by
  have sizeFits := exact.size
  have blocks := exact.blocks
  have limit : master.size % 2 ^ 32 = master.size := Nat.mod_eq_of_lt (by omega)
  obtain ⟨found, searched, done⟩ := Option.map_eq_some_iff.mp done
  cases found with
  | error err => cases done
  | ok rootfs =>
      obtain ⟨place, type⟩ := rootfs
      rw [mtdFindRootfsFrom, limit] at searched
      obtain ⟨first, -⟩ := findRootfs_first exact searched
      have rest : (master.size - place) % 2 ^ 32 = master.size - place :=
        Nat.mod_eq_of_lt (by omega)
      simp only [Except.bind, rest] at done
      split at done
      · cases done
      · cases done
        exact .behind _ place type kernel first

theorem splitBefore_parts {size : UInt32} {place : Nat} (moved : place ≠ 0)
    (kernel : FirstFitting params master 0 place size.toNat)
    (done : splitBefore master place size = .ok parts) : Parts params master parts := by
  unfold splitBefore at done
  cases found : mtdCheckRootfsMagic master 0 with
  | error err =>
      rw [found] at done
      cases done
  | ok type =>
      rw [found] at done
      cases done
      exact .before place _ type moved kernel found

/-- When no sum wraps and no header in the last block announces too large an
image, the parts are the first fitting kernel and the rootfs that belongs to it. -/
theorem mtdsplitParseUimage_parts (exact : NoWrap (uimageParseDt np) master)
    (last : ¬ LastTooLarge (uimageParseDt np) master)
    (done : mtdsplitParseUimage kzalloc vmalloc np master = some (.ok parts)) :
    Parts (uimageParseDt np) master parts ∧
      ∃ front back, parts = [front, back] ∧ Apart master front back := by
  suffices split : Parts (uimageParseDt np) master parts from ⟨split, split.apart⟩
  simp only [mtdsplitParseUimage] at done
  split at done
  · cases done
  split at done
  · cases done
  obtain ⟨⟨place, size⟩, found, done⟩ := Option.bind_eq_some_iff.mp done
  dsimp only at done
  split at done
  · cases done
  rename_i nonzero
  have kernel : FirstFitting (uimageParseDt np) master 0 place size.toNat := by
    rcases findUimage_first exact (Nat.dvd_zero _) found with first | large | zero | ⟨-, zero⟩
    · exact first
    · exact absurd large last
    · exact absurd zero nonzero
    · exact absurd zero nonzero
  split at done
  · rename_i start
    subst start
    exact splitBehind_parts exact kernel done
  · rename_i moved
    exact splitBefore_parts moved kernel (Option.some.inj done)

/-- A master of two blocks: a squashfs magic, then a header with an empty image. -/
def rootfsFirst : MtdInfo where
  flash := squashfsMagic ++ List.replicate 60 0 ++
    (be32 IH_MAGIC ++ List.replicate 24 0 ++ [IH_OS_LINUX, 0, 2, 0] ++ List.replicate 32 0)
  erasesize := 64
  order := .big

theorem rootfsFirst_size : rootfsFirst.size = 128 := by rfl

theorem rootfsFirst_header {place len : Nat} (boundary : rootfsFirst.erasesize ∣ place)
    (valid : ValidHeader (uimageParseDt none) rootfsFirst place len) : place = 64 ∧ len = 64 := by
  have inside := valid.inside
  rw [rootfsFirst_size] at inside
  obtain ⟨count, rfl⟩ := boundary
  have erasesize : rootfsFirst.erasesize = 64 := rfl
  rw [erasesize] at inside valid ⊢
  have blocks : count = 0 ∨ count = 1 := by omega
  rcases blocks with rfl | rfl
  · exact absurd valid.magic (by decide)
  · exact ⟨rfl, valid.len.trans (by rfl)⟩

theorem rootfsFirst_split : mtdsplitParseUimage true (fun _ => true) none rootfsFirst =
    some (.ok [⟨ROOTFS_PART_NAME, 0, 64⟩, ⟨KERNEL_PART_NAME, 64, 64⟩]) := by
  decide +kernel

theorem rootfsFirst_noWrap : NoWrap (uimageParseDt none) rootfsFirst where
  blocks := Nat.zero_lt_succ 63
  size := by
    rw [rootfsFirst_size]
    decide
  images := by
    intro place len boundary valid
    obtain ⟨rfl, rfl⟩ := rootfsFirst_header boundary valid
    decide

theorem rootfsFirst_lastFits : ¬ LastTooLarge (uimageParseDt none) rootfsFirst := by
  rintro ⟨place, len, boundary, -, valid, large⟩
  obtain ⟨rfl, rfl⟩ := rootfsFirst_header boundary valid
  rw [rootfsFirst_size] at large
  omega

theorem mtdsplitParseUimage_parts_rootfsFirst :
    Parts (uimageParseDt none) rootfsFirst
        [⟨ROOTFS_PART_NAME, 0, 64⟩, ⟨KERNEL_PART_NAME, 64, 64⟩] ∧
      ∃ front back, [⟨ROOTFS_PART_NAME, 0, 64⟩, ⟨KERNEL_PART_NAME, 64, 64⟩] = [front, back] ∧
        Apart rootfsFirst front back :=
  mtdsplitParseUimage_parts rootfsFirst_noWrap rootfsFirst_lastFits rootfsFirst_split

/-- A kernel that is not at the start of the master has its rootfs in front. -/
theorem mtdsplitParseUimage_rootfs_in_front :
    ¬ ∀ (np : Option DeviceNode) (master : MtdInfo) (parts : List MtdPartition),
      mtdsplitParseUimage true (fun _ => true) np master = some (.ok parts) →
      ∀ kernel ∈ parts, ∀ rootfs ∈ parts, kernel.name = KERNEL_PART_NAME →
        rootfs.name = ROOTFS_PART_NAME → kernel.offset + kernel.size ≤ rootfs.offset := by
  intro always
  have behind := always none rootfsFirst _ rootfsFirst_split ⟨KERNEL_PART_NAME, 64, 64⟩ (by decide)
    ⟨ROOTFS_PART_NAME, 0, 64⟩ (by decide) rfl rfl
  exact absurd behind (by decide)

end

end Rut9xx.Mtdsplit
