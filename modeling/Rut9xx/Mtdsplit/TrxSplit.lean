import Rut9xx.Data.Endian
import Rut9xx.Mtdsplit.FitSplit
import Rut9xx.Tplink.Builder
import Rut9xx.Trx.RoundTrip

namespace Rut9xx.Mtdsplit

section

open Rut9xx.Data Rut9xx.Tplink

/-! # `mtdsplit`: the TRX parser -/

def TRX_MAGIC : UInt32 := 0x30524448

/-- `sizeof(struct trx_header)`, with four offsets. -/
def trxHeaderSize : Nat := 32

/-- A word of a header in the byte order of the CPU. -/
def nativeAt (order : ByteOrder) (bytes : List UInt8) (place : Nat) : UInt32 :=
  match order with
  | .big => be32At bytes place
  | .little => le32At bytes place

def readTrxHeader (mtd : MtdInfo) (offset : Nat) : Except Errno (List UInt8) :=
  mtdRead mtd offset trxHeaderSize

/-- The search on erase block boundaries, with `offset`, `trx_size` and `hdr` at its end. The size
of an image that was found too large is still there after the last block. -/
def findTrx (master : MtdInfo) : Nat → Nat → Nat → List UInt8 → Option (Nat × Nat × List UInt8)
  | 0, _, _, _ => none
  | fuel + 1, offset, trxSize, hdr =>
      if offset < master.size then
        let next := (offset + master.erasesize) % 2 ^ 32
        match readTrxHeader master offset with
        | .error _ => findTrx master fuel next 0 hdr
        | .ok hdr =>
            if le32At hdr 0 ≠ TRX_MAGIC then findTrx master fuel next 0 hdr
            else
              let trxSize := (le32At hdr 4).toNat
              if master.size < (offset + trxSize) % 2 ^ 32 then findTrx master fuel next trxSize hdr
              else some (offset, trxSize, hdr)
      else some (offset, trxSize, hdr)

/-- The offsets of the header are taken as they stand in memory. -/
def trxParts (master : MtdInfo) (offset : Nat) (hdr : List UInt8) : Except Errno (List MtdPartition) :=
  let trxOffset := (offset + (nativeAt master.order hdr 16).toNat) % 2 ^ 32
  let rootfsOffset := (offset + (nativeAt master.order hdr 20).toNat) % 2 ^ 32
  -- The size has 64 bits, a `size_t` has 32.
  let rootfsSize := (master.size + 2 ^ 32 - rootfsOffset) % 2 ^ 32
  let trxSize := (rootfsOffset + 2 ^ 32 - trxOffset) % 2 ^ 32
  if rootfsSize = 0 then .error .ENODEV
  else .ok [⟨KERNEL_PART_NAME, trxOffset, trxSize⟩, ⟨ROOTFS_PART_NAME, rootfsOffset, rootfsSize⟩]

/-- `mtdsplit_parse_trx`; `hdr` is what the stack holds before. As long as offsets below the size do
not repeat, `size + 1` rounds are enough. -/
def mtdsplitParseTrx (kzalloc : Bool) (hdr : List UInt8) (master : MtdInfo) :
    Option (Except Errno (List MtdPartition)) :=
  if !kzalloc then some (.error .ENOMEM)
  else (findTrx master (master.size + 1) 0 0 hdr).map fun (offset, trxSize, hdr) =>
    if trxSize = 0 then .error .ENODEV else trxParts master offset hdr

end

section

open Rut9xx.Data Rut9xx.Tplink Rut9xx.Trx

/-! # The parts that the TRX parser finds -/

variable {master : MtdInfo} {hdr out : List UInt8} {place offset : Nat}
  {kzalloc : Bool} {parts : List MtdPartition}

theorem nativeAt_slice {order : ByteOrder} {bytes : List UInt8} {start count place : Nat}
    (within : place + 4 ≤ count) :
    nativeAt order (slice bytes start count) place = nativeAt order bytes (start + place) := by
  cases order with
  | big => exact be32At_slice within
  | little => exact le32At_slice within

/-! ## The search for the header -/

structure TrxMagicAt (master : MtdInfo) (place : Nat) : Prop where
  inside : place + trxHeaderSize ≤ master.size
  magic : le32At master.flash place = TRX_MAGIC

def trxLenAt (master : MtdInfo) (place : Nat) : Nat := (le32At master.flash (place + 4)).toNat

/-- The image reaches beyond the master, as the parser computes it. -/
def TooLong (master : MtdInfo) (place : Nat) : Prop :=
  master.size < (place + trxLenAt master place) % 2 ^ 32

/-- A block that the search goes on from. -/
structure Refused (master : MtdInfo) (place : Nat) : Prop where
  below : place < master.size
  noImage : TrxMagicAt master place → TooLong master place

/-- The header the search ends with stands at `place`, and `offset` is added to its offsets: the
header's own place, or the end of the search when the last image is too long. -/
def Settled (master : MtdInfo) (place offset : Nat) : Prop :=
  ∃ index, blockAt master index = place ∧ TrxMagicAt master place ∧
    (∀ earlier, earlier < index → Refused master (blockAt master earlier)) ∧
    (¬ TooLong master place ∧ offset = place ∨
      TooLong master place ∧ offset = blockAt master (index + 1) ∧ master.size ≤ offset)

theorem TrxMagicAt.below (header : TrxMagicAt master place) : place < master.size := by
  have inside := header.inside
  rw [trxHeaderSize] at inside
  omega

theorem Settled.not_before {place' offset' : Nat} {index index' : Nat}
    (header' : TrxMagicAt master (blockAt master index'))
    (refused' : ∀ earlier, earlier < index' → Refused master (blockAt master earlier))
    (header : TrxMagicAt master (blockAt master index))
    (ended : ¬ TooLong master (blockAt master index) ∧ offset = place' ∨
      TooLong master (blockAt master index) ∧ offset' = blockAt master (index + 1) ∧
        master.size ≤ offset') : ¬ index < index' := by
  intro before
  rcases ended with ⟨fits, -⟩ | ⟨-, last, beyond⟩
  · exact fits ((refused' index before).noImage header)
  · rcases Nat.lt_or_ge (index + 1) index' with earlier | here
    · have below := (refused' _ earlier).below
      omega
    · have below := header'.below
      rw [show index' = index + 1 by omega] at below
      omega

theorem Settled.unique {place' offset' : Nat} (settled : Settled master place offset)
    (again : Settled master place' offset') : place = place' ∧ offset = offset' := by
  obtain ⟨index, rfl, header, refused, ended⟩ := settled
  obtain ⟨index', rfl, header', refused', ended'⟩ := again
  have same : index = index' := by
    have first := Settled.not_before header' refused' header ended
    have second := Settled.not_before header refused header' ended'
    omega
  subst same
  refine ⟨rfl, ?_⟩
  rcases ended with ⟨fits, here⟩ | ⟨long, there, -⟩
  · rcases ended' with ⟨-, here'⟩ | ⟨long', -, -⟩
    · rw [here, here']
    · exact absurd long' fits
  · rcases ended' with ⟨fits', -⟩ | ⟨-, there', -⟩
    · exact absurd long fits'
    · rw [there, there']

/-- What the search carries from a block to the next: nothing, or an image that was too long. -/
def Carried (master : MtdInfo) (index trxSize : Nat) (hdr : List UInt8) : Prop :=
  trxSize ≠ 0 → ∃ last, index = last + 1 ∧ TrxMagicAt master (blockAt master last) ∧
    TooLong master (blockAt master last) ∧ trxSize = trxLenAt master (blockAt master last) ∧
    hdr = slice master.flash (blockAt master last) trxHeaderSize

theorem findTrx_settled {fuel index trxSize size : Nat}
    (refused : ∀ earlier, earlier < index → Refused master (blockAt master earlier))
    (carried : Carried master index trxSize hdr)
    (found : findTrx master fuel (blockAt master index) trxSize hdr = some (offset, size, out))
    (some' : size ≠ 0) :
    ∃ place, Settled master place offset ∧ size = trxLenAt master place ∧
      out = slice master.flash place trxHeaderSize := by
  induction fuel generalizing index trxSize hdr with
  | zero => cases found
  | succ fuel ih =>
      rw [findTrx] at found
      split at found
      · rename_i below
        have more (here : Refused master (blockAt master index)) : ∀ earlier, earlier < index + 1 →
            Refused master (blockAt master earlier) := by
          intro earlier before
          rcases Nat.lt_succ_iff_lt_or_eq.mp before with before | rfl
          · exact refused earlier before
          · exact here
        have nothing {hdr : List UInt8} : Carried master (index + 1) 0 hdr :=
          fun nonzero => absurd rfl nonzero
        simp only [blockAt_succ, readTrxHeader] at found
        cases read : mtdRead master (blockAt master index) trxHeaderSize with
        | error err =>
            simp only [read] at found
            refine ih (more ⟨below, ?_⟩) nothing found
            intro header
            rw [(mtdRead_ok_iff (show 0 < trxHeaderSize by decide)).mpr ⟨header.inside, rfl⟩] at read
            cases read
        | ok buf =>
            obtain ⟨inside, rfl⟩ := (mtdRead_ok_iff (show 0 < trxHeaderSize by decide)).mp read
            have magicWord : le32At (slice master.flash (blockAt master index) trxHeaderSize) 0 =
                le32At master.flash (blockAt master index) := le32At_slice (by decide)
            have lenWord : (le32At (slice master.flash (blockAt master index) trxHeaderSize) 4).toNat =
                trxLenAt master (blockAt master index) := by
              rw [le32At_slice (by decide), trxLenAt]
            simp only [read, magicWord, lenWord] at found
            split at found
            · rename_i other
              exact ih (more ⟨below, fun header => absurd header.magic other⟩) nothing found
            · rename_i magic
              have header : TrxMagicAt master (blockAt master index) :=
                ⟨inside, Decidable.not_not.mp magic⟩
              split at found
              · rename_i long
                exact ih (more ⟨below, fun _ => long⟩) (fun _ => ⟨index, rfl, header, long, rfl, rfl⟩) found
              · rename_i fits
                cases found
                exact ⟨_, ⟨index, rfl, header, refused, .inl ⟨fits, rfl⟩⟩, rfl, rfl⟩
      · rename_i ended
        cases found
        obtain ⟨last, rfl, header, long, sameSize, same⟩ := carried some'
        refine ⟨_, ⟨last, rfl, header, ?_, .inr ⟨long, rfl, Nat.le_of_not_lt ended⟩⟩, sameSize,
          same⟩
        intro earlier before
        exact refused earlier (by omega)

/-! ## Parts of any flash -/

structure DisjointInside (master : MtdInfo) (front back : MtdPartition) : Prop where
  frontInside : front.offset + front.size ≤ master.size
  backInside : back.offset + back.size ≤ master.size
  disjoint : front.offset + front.size ≤ back.offset ∨ back.offset + back.size ≤ front.offset

/-- The offsets are in order and the second one is inside; or, on a master beyond 4 GiB, they are
the other way round and the kernel, with its size wrapped, still stands behind the rootfs. -/
def InOrder (master : MtdInfo) (kernel rootfs : Nat) : Prop :=
  kernel ≤ rootfs ∧ rootfs ≤ master.size ∨
    rootfs < kernel ∧ rootfs + 2 ^ 32 ≤ master.size ∧
      rootfs + (master.size - rootfs) % 2 ^ 32 ≤ kernel

/-- Where the parser places a part, by the offset that stands `slot` bytes behind the header's start. -/
def partAt (master : MtdInfo) (place offset slot : Nat) : Nat :=
  (offset + (nativeAt master.order master.flash (place + slot)).toNat) % 2 ^ 32

theorem mtdsplitParseTrx_ok (done : mtdsplitParseTrx kzalloc hdr master = some (.ok parts)) :
    ∃ place offset, Settled master place offset ∧ trxLenAt master place ≠ 0 ∧
      (master.size + 2 ^ 32 - partAt master place offset 20) % 2 ^ 32 ≠ 0 ∧
      parts = [⟨KERNEL_PART_NAME, partAt master place offset 16,
          (partAt master place offset 20 + 2 ^ 32 - partAt master place offset 16) % 2 ^ 32⟩,
        ⟨ROOTFS_PART_NAME, partAt master place offset 20,
          (master.size + 2 ^ 32 - partAt master place offset 20) % 2 ^ 32⟩] := by
  rw [mtdsplitParseTrx] at done
  split at done
  · cases done
  obtain ⟨⟨offset, size, out⟩, found, done⟩ := Option.map_eq_some_iff.mp done
  dsimp only at done
  split at done
  · cases done
  · rename_i some'
    have first : findTrx master (master.size + 1) (blockAt master 0) 0 hdr =
        some (offset, size, out) := by
      rw [blockAt, Nat.zero_mul, Nat.zero_mod]
      exact found
    obtain ⟨place, settled, rfl, rfl⟩ := findTrx_settled
      (fun earlier before => absurd before (Nat.not_lt_zero earlier))
      (fun nonzero => absurd rfl nonzero) first some'
    refine ⟨place, offset, settled, some', ?_⟩
    simp only [trxParts] at done
    rw [nativeAt_slice (by decide), nativeAt_slice (by decide)] at done
    split at done
    · cases done
    · rename_i nonempty
      cases done
      exact ⟨nonempty, rfl⟩

theorem mtdsplitParseTrx_sound_iff (done : mtdsplitParseTrx kzalloc hdr master = some (.ok parts)) :
    (∃ kernel rootfs, parts = [kernel, rootfs] ∧ DisjointInside master kernel rootfs) ↔
      ∃ place offset, Settled master place offset ∧
        InOrder master (partAt master place offset 16) (partAt master place offset 20) := by
  obtain ⟨place, offset, settled, -, nonempty, rfl⟩ := mtdsplitParseTrx_ok done
  have kernelSmall : partAt master place offset 16 < 2 ^ 32 := Nat.mod_lt _ (by decide)
  have rootfsSmall : partAt master place offset 20 < 2 ^ 32 := Nat.mod_lt _ (by decide)
  constructor
  · intro ⟨kernel, rootfs, same, sound⟩
    obtain ⟨rfl, rfl⟩ : _ = kernel ∧ _ = rootfs := by
      simpa only [List.cons.injEq, and_true] using same
    refine ⟨place, offset, settled, ?_⟩
    obtain ⟨frontInside, backInside, disjoint⟩ := sound
    dsimp only at frontInside backInside disjoint
    generalize partAt master place offset 16 = kernel at *
    generalize partAt master place offset 20 = rootfs at *
    unfold InOrder
    omega
  · intro ⟨place', offset', settled', order⟩
    obtain ⟨rfl, rfl⟩ := settled.unique settled'
    refine ⟨_, _, rfl, ?_⟩
    generalize partAt master place offset 16 = kernel at *
    generalize partAt master place offset 20 = rootfs at *
    unfold InOrder at order
    constructor <;> dsimp only <;> omega

/-! ## Images at the start of the master -/

/-- An offset, written as the builder does it, is the same for the parser. -/
def ReadsBack (order : ByteOrder) (start : Nat) : Prop :=
  (nativeAt order (Data.le32 (UInt32.ofNat start)) 0).toNat = start

/-- On a little-endian CPU every offset of 32 bits is. -/
theorem readsBack_little {start : Nat} : ReadsBack .little start ↔ start < 2 ^ 32 := by
  have word := le32At_here (UInt32.ofNat start) []
  rw [List.append_nil] at word
  rw [ReadsBack, nativeAt, word, UInt32.toNat_ofNat']
  constructor
  · intro same
    rw [← same]
    exact Nat.mod_lt _ (by decide)
  · exact Nat.mod_eq_of_lt

/-- The parser finds the partitions from `kernel` and `rootfs` on in an image of `length` bytes. -/
structure Splits (master : MtdInfo) (length kernel rootfs : Nat) : Prop where
  header : trxHeaderSize ≤ master.size
  length : length % 2 ^ 32 ≠ 0
  kernelOffset : ReadsBack master.order kernel
  rootfsOffset : ReadsBack master.order rootfs
  nonempty : rootfs < master.size
  small : master.size < rootfs + 2 ^ 32

theorem le32At_append_left {front back : List UInt8} {place : Nat}
    (within : place + 4 ≤ front.length) : le32At (front ++ back) place = le32At front place := by
  have step (index : Nat) (inside : index < front.length) :
      (front ++ back).getD index 0 = front.getD index 0 := List.getD_append _ _ _ _ inside
  rw [le32At, le32At, step _ (by omega), step _ (by omega), step _ (by omega), step _ (by omega)]

section Image

variable {body more : List UInt8} {slots : List UInt32} {length kernel rootfs : Nat}

/-- The header of an image, as the parser reads it. -/
theorem image_header (layout : master.flash =
      otrxCreateWriteHdr body (UInt32.ofNat length) slots ++ more) :
    le32At master.flash 0 = TRX_MAGIC ∧ trxLenAt master 0 = length % 2 ^ 32 ∧
      nativeAt master.order master.flash 16 =
        nativeAt master.order (Data.le32 (slots.getD 0 0)) 0 ∧
      nativeAt master.order master.flash 20 =
        nativeAt master.order (Data.le32 (slots.getD 1 0)) 0 := by
  rw [trxLenAt, layout, otrxCreateWriteHdr]
  dsimp only
  generalize otrxCrc32 _ _ = crc
  generalize written : TrxHeader.mk trxMagic (UInt32.ofNat length) crc 0 1 slots = header
  have place (start : Nat) (inside : start + 4 ≤ 28) :
      nativeAt master.order (header.bytes ++ body ++ more) start =
        nativeAt master.order (slice header.bytes start 4) 0 := by
    have whole : start + 4 ≤ header.bytes.length := inside
    rw [nativeAt_slice (by omega), List.append_assoc, Nat.add_zero,
      ← Nat.add_zero start, ← @nativeAt_slice _ _ start 4 0 (by omega), slice_append_left whole,
      nativeAt_slice (by omega)]
  refine ⟨?_, ?_, ?_, ?_⟩
  · rw [List.append_assoc, le32At_append_left (by rw [TrxHeader.bytes_length, sizeofHdr]; omega),
      ← written, TrxHeader.bytes, le32At_here]
    rfl
  · rw [List.append_assoc, le32At_append_left (by rw [TrxHeader.bytes_length, sizeofHdr]; omega),
      ← written, TrxHeader.bytes, le32At_past32 _ _ 0, le32At_here, UInt32.toNat_ofNat']
  · rw [place 16 (by decide), ← written]
    rfl
  · rw [place 20 (by decide), ← written]
    rfl

/-- On an image the search ends where it begins. -/
theorem image_settled (layout : master.flash =
      otrxCreateWriteHdr body (UInt32.ofNat length) slots ++ more)
    (whole : length ≤ master.size) (room : trxHeaderSize ≤ master.size) :
    Settled master 0 0 := by
  obtain ⟨magic, len, -, -⟩ := image_header layout
  have reduced := Nat.mod_le length (2 ^ 32)
  refine ⟨0, ?_, ⟨by omega, magic⟩, fun earlier before => absurd before (Nat.not_lt_zero earlier), ?_⟩
  · rw [blockAt, Nat.zero_mul, Nat.zero_mod]
  · refine .inl ⟨?_, rfl⟩
    rw [TooLong, len]
    omega

theorem image_parsed (layout : master.flash =
      otrxCreateWriteHdr body (UInt32.ofNat length) slots ++ more)
    (whole : length ≤ master.size) (room : trxHeaderSize ≤ master.size)
    (some' : length % 2 ^ 32 ≠ 0) :
    mtdsplitParseTrx true hdr master =
      some (trxParts master 0 (slice master.flash 0 trxHeaderSize)) := by
  obtain ⟨magic, len, -, -⟩ := image_header layout
  have reduced := Nat.mod_le length (2 ^ 32)
  have below : 0 < master.size := by
    rw [trxHeaderSize] at room
    omega
  have read : mtdRead master 0 trxHeaderSize = .ok (slice master.flash 0 trxHeaderSize) :=
    (mtdRead_ok_iff (by decide)).mpr ⟨by omega, rfl⟩
  have lenWord : (le32At (slice master.flash 0 trxHeaderSize) 4).toNat = length % 2 ^ 32 := by
    rw [le32At_slice (by decide), ← len, trxLenAt]
  have magicWord : le32At (slice master.flash 0 trxHeaderSize) 0 = TRX_MAGIC := by
    rw [le32At_slice (by decide), magic]
  have fits : ¬ master.size < (0 + length % 2 ^ 32) % 2 ^ 32 := by omega
  rw [mtdsplitParseTrx, findTrx, if_pos below, readTrxHeader, read]
  simp only [magicWord, ne_eq, not_true_eq_false, if_false, lenWord, fits, Bool.not_true,
    Bool.false_eq_true, Option.map_some, some']

theorem image_split_iff (layout : master.flash =
      otrxCreateWriteHdr body (UInt32.ofNat length) slots ++ more)
    (whole : length ≤ master.size) (order : kernel ≤ rootfs) (inside : rootfs ≤ length)
    (first : slots.getD 0 0 = UInt32.ofNat kernel) (second : slots.getD 1 0 = UInt32.ofNat rootfs) :
    mtdsplitParseTrx true hdr master =
        some (.ok [⟨KERNEL_PART_NAME, kernel, rootfs - kernel⟩,
          ⟨ROOTFS_PART_NAME, rootfs, master.size - rootfs⟩]) ↔
      Splits master length kernel rootfs := by
  obtain ⟨-, len, kernelWord, rootfsWord⟩ := image_header layout
  rw [first] at kernelWord
  rw [second] at rootfsWord
  have kernelPart : partAt master 0 0 16 =
      (nativeAt master.order (Data.le32 (UInt32.ofNat kernel)) 0).toNat := by
    rw [partAt, Nat.zero_add, Nat.zero_add, kernelWord, Nat.mod_eq_of_lt (UInt32.toNat_lt _)]
  have rootfsPart : partAt master 0 0 20 =
      (nativeAt master.order (Data.le32 (UInt32.ofNat rootfs)) 0).toNat := by
    rw [partAt, Nat.zero_add, Nat.zero_add, rootfsWord, Nat.mod_eq_of_lt (UInt32.toNat_lt _)]
  constructor
  · intro done
    obtain ⟨place, offset, settled, some', nonempty, same⟩ := mtdsplitParseTrx_ok done
    have room : trxHeaderSize ≤ master.size := by
      obtain ⟨_, _, header, _⟩ := settled
      have inside := header.inside
      omega
    obtain ⟨rfl, rfl⟩ := settled.unique (image_settled layout whole room)
    simp only [List.cons.injEq, MtdPartition.mk.injEq, true_and, and_true] at same
    obtain ⟨⟨kernelIs, -⟩, rootfsIs, rest⟩ := same
    rw [← rootfsIs] at nonempty rest
    refine ⟨room, len ▸ some', ?_, ?_, by omega, by omega⟩
    · rw [ReadsBack, ← kernelPart, kernelIs]
    · rw [ReadsBack, ← rootfsPart, rootfsIs]
  · intro splits
    have kernelBack := splits.kernelOffset
    have rootfsBack := splits.rootfsOffset
    rw [ReadsBack] at kernelBack rootfsBack
    have nonempty := splits.nonempty
    have small := splits.small
    have kernelSmall : kernel < 2 ^ 32 := kernelBack ▸ UInt32.toNat_lt _
    have rootfsSmall : rootfs < 2 ^ 32 := rootfsBack ▸ UInt32.toNat_lt _
    rw [image_parsed layout whole splits.header splits.length, trxParts,
      nativeAt_slice (by decide), nativeAt_slice (by decide), Nat.zero_add, Nat.zero_add,
      Nat.zero_add, Nat.zero_add, kernelWord, rootfsWord, kernelBack, rootfsBack,
      Nat.mod_eq_of_lt kernelSmall, Nat.mod_eq_of_lt rootfsSmall]
    have rest : (master.size + 2 ^ 32 - rootfs) % 2 ^ 32 = master.size - rootfs := by omega
    have gap : (rootfs + 2 ^ 32 - kernel) % 2 ^ 32 = rootfs - kernel := by omega
    simp only [rest, gap]
    rw [if_neg (by omega)]

end Image

theorem created_split_iff {malloc : Nat → Bool} {options : List CreateOption} {image more : List UInt8}
    (created : otrxCreate malloc options = some image) (layout : master.flash = image ++ more) :
    ∃ front contents, image.drop sizeofHdr = front ++ contents.flatten ∧
      List.Forall₂ Padded (partitionFiles options) contents ∧
      ∀ kernel rootfs rest, contents = kernel :: rootfs :: rest →
        (mtdsplitParseTrx true hdr master =
            some (.ok [⟨KERNEL_PART_NAME, sizeofHdr + front.length, kernel.length⟩,
              ⟨ROOTFS_PART_NAME, sizeofHdr + front.length + kernel.length,
                master.size - (sizeofHdr + front.length + kernel.length)⟩]) ↔
          Splits master image.length (sizeofHdr + front.length)
            (sizeofHdr + front.length + kernel.length)) := by
  obtain ⟨trx, ran, final, aligned, written⟩ : ∃ trx, createRun malloc Creation.start options = some trx ∧
      ∃ final, otrxCreateAlign malloc 0x1000 trx = some final ∧
        otrxCreateWriteHdr final.body (UInt32.ofNat final.currOffset) final.offset = image := by
    simpa only [otrxCreate, Option.bind_eq_bind, Option.bind_eq_some_iff, Option.some.injEq] using created
  obtain ⟨front, contents, laid⟩ := (createRun_laid ⟨[], [], start_laid⟩ ran).align aligned
  have total : image.length = final.currOffset := by
    rw [← written, otrxCreateWriteHdr_length, laid.offset]
  refine ⟨front, contents.reverse, ?_, List.rel_reverse laid.padded, ?_⟩
  · rw [← written, ← laid.body]
    exact List.drop_left' rfl
  · intro kernel rootfs rest split
    have count : contents.length = rest.length + 2 := by
      have length := congrArg List.length split
      rwa [List.length_reverse] at length
    have kernelSlot := laid.starts 0 (by omega)
    have rootfsSlot := laid.starts 1 (by omega)
    have body := congrArg List.length laid.body
    have offset := laid.offset
    rw [split] at kernelSlot rootfsSlot body
    simp only [List.take_zero, List.take_succ_cons, List.flatten_cons, List.flatten_nil,
      List.append_nil, List.length_nil, List.length_append, Nat.add_zero] at kernelSlot rootfsSlot body
    have size : master.size = image.length + more.length := by
      rw [MtdInfo.size, layout, List.length_append]
    rw [← written] at layout
    have same := @image_split_iff master hdr final.body more final.offset final.currOffset
      (sizeofHdr + front.length) (sizeofHdr + front.length + kernel.length) layout (by omega)
      (Nat.le_add_right _ _) (by omega)
      (by rw [List.getD_eq_getElem?_getD, kernelSlot, Option.getD_some])
      (by rw [List.getD_eq_getElem?_getD, rootfsSlot, Option.getD_some])
    rwa [Nat.add_sub_cancel_left, ← total] at same

/-- The image of the builder is split as it was built, and what is split of any flash is disjoint and
inside, exactly when the offsets read back and are in order. -/
theorem mtdsplitParseTrx_iff (master : MtdInfo) (hdr : List UInt8) :
    (∀ (malloc : Nat → Bool) (options : List CreateOption) (image more : List UInt8),
      otrxCreate malloc options = some image → master.flash = image ++ more →
      ∃ front contents, image.drop sizeofHdr = front ++ contents.flatten ∧
        List.Forall₂ Padded (partitionFiles options) contents ∧
        ∀ kernel rootfs rest, contents = kernel :: rootfs :: rest →
          (mtdsplitParseTrx true hdr master =
              some (.ok [⟨KERNEL_PART_NAME, sizeofHdr + front.length, kernel.length⟩,
                ⟨ROOTFS_PART_NAME, sizeofHdr + front.length + kernel.length,
                  master.size - (sizeofHdr + front.length + kernel.length)⟩]) ↔
            Splits master image.length (sizeofHdr + front.length)
              (sizeofHdr + front.length + kernel.length))) ∧
    ∀ (kzalloc : Bool) (parts : List MtdPartition),
      mtdsplitParseTrx kzalloc hdr master = some (.ok parts) →
      ((∃ kernel rootfs, parts = [kernel, rootfs] ∧ DisjointInside master kernel rootfs) ↔
        ∃ place offset, Settled master place offset ∧
          InOrder master (partAt master place offset 16) (partAt master place offset 20)) :=
  ⟨fun _ _ _ _ created layout => created_split_iff created layout,
    fun _ _ done => mtdsplitParseTrx_sound_iff done⟩

/-! ## Two files, and a hostile header -/

def twoFiles : List UInt8 :=
  otrxCreateWriteHdr ([1] ++ List.replicate 3 0 ++ [2] ++ List.replicate 3 0 ++ List.replicate 4060 0)
    4096 [28, 32, 0]

theorem twoFiles_created :
    otrxCreate (fun _ => true) [.f (some [1]), .f (some [2])] = some twoFiles := rfl

theorem twoFiles_size (order : ByteOrder) : MtdInfo.size ⟨twoFiles, 4096, order⟩ = 4096 := by
  rw [MtdInfo.size, twoFiles, otrxCreateWriteHdr_length]
  simp only [List.length_append, List.length_replicate, List.length_singleton, sizeofHdr]

theorem twoFiles_split_iff (order : ByteOrder) :
    mtdsplitParseTrx true [] ⟨twoFiles, 4096, order⟩ =
        some (.ok [⟨KERNEL_PART_NAME, 28, 4⟩, ⟨ROOTFS_PART_NAME, 32, 4064⟩]) ↔
      Splits ⟨twoFiles, 4096, order⟩ 4096 28 32 := by
  have same := @image_split_iff ⟨twoFiles, 4096, order⟩ [] _ [] [28, 32, 0] 4096 28 32
    (List.append_nil _).symm (by rw [twoFiles_size]) (by decide) (by decide) rfl rfl
  rwa [twoFiles_size] at same

/-- Offsets that point backwards. -/
def backwards : MtdInfo where
  flash := Data.le32 TRX_MAGIC ++ Data.le32 64 ++ List.replicate 8 0 ++ Data.le32 48 ++ Data.le32 32 ++
    List.replicate 40 0
  erasesize := 64
  order := .little

theorem backwards_split : mtdsplitParseTrx true [] backwards =
    some (.ok [⟨KERNEL_PART_NAME, 48, 4294967280⟩, ⟨ROOTFS_PART_NAME, 32, 32⟩]) := by
  decide +kernel

theorem mtdsplitParseTrx_iff_backwards :
    (∃ kernel rootfs, [⟨KERNEL_PART_NAME, 48, 4294967280⟩, ⟨ROOTFS_PART_NAME, 32, 32⟩] =
        [kernel, rootfs] ∧ DisjointInside backwards kernel rootfs) ↔
      ∃ place offset, Settled backwards place offset ∧
        InOrder backwards (partAt backwards place offset 16) (partAt backwards place offset 20) :=
  (mtdsplitParseTrx_iff backwards []).2 true _ backwards_split

theorem mtdsplitParseTrx_wrong :
    (otrxCreate (fun _ => true) [.f (some [1]), .f (some [2])] = some twoFiles ∧
      mtdsplitParseTrx true [] ⟨twoFiles, 4096, .little⟩ =
        some (.ok [⟨KERNEL_PART_NAME, 28, 4⟩, ⟨ROOTFS_PART_NAME, 32, 4064⟩]) ∧
      mtdsplitParseTrx true [] ⟨twoFiles, 4096, .big⟩ ≠
        some (.ok [⟨KERNEL_PART_NAME, 28, 4⟩, ⟨ROOTFS_PART_NAME, 32, 4064⟩])) ∧
    ∃ parts, mtdsplitParseTrx true [] backwards = some (.ok parts) ∧
      ¬ ∃ kernel rootfs, parts = [kernel, rootfs] ∧ DisjointInside backwards kernel rootfs := by
  refine ⟨⟨twoFiles_created, ?_, ?_⟩, _, backwards_split, ?_⟩
  · rw [twoFiles_split_iff]
    constructor
    · rw [twoFiles_size]
      decide
    · decide
    · exact readsBack_little.mpr (by decide)
    · exact readsBack_little.mpr (by decide)
    · rw [twoFiles_size]
      decide
    · rw [twoFiles_size]
      decide
  · rw [ne_eq, twoFiles_split_iff]
    intro splits
    exact absurd splits.kernelOffset (by unfold ReadsBack; decide)
  · intro ⟨kernel, rootfs, same, sound⟩
    cases same
    exact absurd sound.frontInside (by decide)

end

end Rut9xx.Mtdsplit
