import Rut9xx.Data.Align
import Rut9xx.Data.Endian

namespace Rut9xx.Brnimg

open Data

/-! # `mkbrnimg`: files padded to 1 KiB with a footer at the end of each -/

def crcBit (poly crc : UInt32) : UInt32 :=
  if crc &&& 1 ≠ 0 then poly ^^^ (crc >>> 1) else crc >>> 1

/-- An entry of the table that `init_crc32` fills in. -/
def crc32Entry (poly : UInt32) (n : UInt8) : UInt32 := (crcBit poly)^[8] n.toUInt32

def crc32buf (poly : UInt32) (buf : List UInt8) : UInt32 :=
  ~~~buf.foldl (fun crc byte => crc32Entry poly (crc.toUInt8 ^^^ byte) ^^^ (crc >>> 8)) 0xffffffff

def ntohl (word : UInt32) : UInt32 := be32At (le32 word) 0

structure Options where
  magic : UInt32
  signature : List UInt8
  crc32Poly : UInt32

/-- "BRNDTW502" -/
def defaultOptions : Options :=
  ⟨0x12345678, [0x42, 0x52, 0x4e, 0x44, 0x54, 0x57, 0x35, 0x30, 0x32], 0x2083b8ed⟩

def footerSize : Nat := 12

/-- `((len + sizeof(footer) + sizeof(padding) - 1) & ~(sizeof(padding) - 1)) - sizeof(footer)`. -/
def paddedLen (len : Nat) : Nat := roundUp (len + footerSize) 0x400 - footerSize

def footer (opts : Options) (file : List UInt8) : List UInt8 :=
  le32 (UInt32.ofNat file.length) ++ le32 opts.magic ++
    le32 (crc32buf (ntohl opts.crc32Poly) file)

def lzmaSignature : List UInt8 := [0x5d, 0x00, 0x00, 0x80]

/-- A mapping of an empty file fails; behind the end of a short one it has zeros. -/
def appendfile (opts : Options) (kernel : Bool) (file : List UInt8) : Option (List UInt8) :=
  let len := file.length
  if len = 0 then none
  else if kernel ∧ (List.range 4).map (file.getD · 0) ≠ lzmaSignature then none
  else some (file ++ List.replicate (paddedLen len - len) 0xff ++ footer opts file)

def mkbrnimg (opts : Options) : List (List UInt8) → Option (List UInt8)
  | [] => none
  | kernel :: files => do
      let first ← appendfile opts true kernel
      let others ← files.mapM (appendfile opts false)
      some (first ++ others.flatten ++ (opts.signature ++ [0]))

variable {opts : Options} {kernel rootfs file image : List UInt8} {len : Nat}

theorem paddedLen_bounds (len : Nat) : len ≤ paddedLen len ∧ paddedLen len < len + 0x400 ∧
    paddedLen len + footerSize = roundUp (len + footerSize) 0x400 := by
  have reached := le_roundUp (len + footerSize) (show 0 < 0x400 by decide)
  have near := roundUp_lt (len + footerSize) (show 0 < 0x400 by decide)
  rw [paddedLen]
  omega

@[simp] theorem footer_length : (footer opts file).length = footerSize := by
  simp [footer, footerSize]

/-- A file with its padding and footer, as far as the boundary behind them. -/
def padded (opts : Options) (file : List UInt8) : List UInt8 :=
  file ++ List.replicate (paddedLen file.length - file.length) 0xff ++ footer opts file

theorem padded_length : (padded opts file).length = roundUp (file.length + footerSize) 0x400 := by
  obtain ⟨reached, -, boundary⟩ := paddedLen_bounds file.length
  simp only [padded, List.length_append, List.length_replicate, footer_length]
  omega

/-- The footer begins with the length of the file. -/
theorem footer_word (behind : List UInt8) :
    le32At (padded opts file ++ behind) (paddedLen file.length) = UInt32.ofNat file.length := by
  obtain ⟨reached, -⟩ := paddedLen_bounds file.length
  have front : (file ++ List.replicate (paddedLen file.length - file.length) 0xff).length =
      paddedLen file.length := by
    rw [List.length_append, List.length_replicate]
    omega
  have skip := le32At_skip (file ++ List.replicate (paddedLen file.length - file.length) 0xff)
    (footer opts file ++ behind) 0
  rw [front, Nat.add_zero] at skip
  rw [padded, List.append_assoc, skip, footer, List.append_assoc, List.append_assoc, le32At_here]

theorem appendfile_eq_some {kernel : Bool} {bytes : List UInt8} :
    appendfile opts kernel file = some bytes ↔
      file.length ≠ 0 ∧ (kernel → (List.range 4).map (file.getD · 0) = lzmaSignature) ∧
        bytes = padded opts file := by
  rw [appendfile]
  by_cases empty : file.length = 0
  · simp [empty]
  · by_cases refused : kernel ∧ (List.range 4).map (file.getD · 0) ≠ lzmaSignature
    · simp only [if_neg empty, if_pos refused, reduceCtorEq, false_iff]
      intro ⟨_, fits, _⟩
      exact refused.2 (fits refused.1)
    · simp only [if_neg empty, if_neg refused, Option.some.injEq]
      constructor
      · rintro rfl
        exact ⟨empty, fun here => by_contra fun other => refused ⟨here, other⟩, rfl⟩
      · rintro ⟨-, -, rfl⟩
        rfl

theorem mkbrnimg_pair_eq_some : mkbrnimg opts [kernel, rootfs] = some image ↔
    (kernel.length ≠ 0 ∧ (List.range 4).map (kernel.getD · 0) = lzmaSignature) ∧
      rootfs.length ≠ 0 ∧
      image = padded opts kernel ++ (padded opts rootfs ++ (opts.signature ++ [0])) := by
  simp only [mkbrnimg, List.mapM_cons, List.mapM_nil, Option.bind_eq_bind, Option.bind_eq_some_iff,
    appendfile_eq_some, Option.pure_def]
  constructor
  · rintro ⟨_, ⟨some', lzma, rfl⟩, _, ⟨_, ⟨rootfsSome, -, rfl⟩, _, rest, same⟩, whole⟩
    cases rest
    cases same
    cases whole
    refine ⟨⟨some', lzma trivial⟩, rootfsSome, ?_⟩
    simp
  · rintro ⟨⟨some', lzma⟩, rootfsSome, rfl⟩
    refine ⟨_, ⟨some', fun _ => lzma, rfl⟩, _, ⟨_, ⟨rootfsSome, by simp, rfl⟩, _, rfl, rfl⟩, ?_⟩
    simp

end Rut9xx.Brnimg
