import Rut9xx.Data.Memory
import Rut9xx.Data.BlockPass
import Mathlib.Data.UInt

namespace Rut9xx.Pc1crypt

open Data

/-! # `pc1crypt`: the PC1 cipher -/

structure Pc1Ctx where
  ax : UInt16
  bx : UInt16
  cx : UInt16
  dx : UInt16
  si : UInt16
  tmp : UInt16
  x1a2 : UInt16
  x1a0 : Memory UInt16
  res : UInt16
  i : UInt16
  inter : UInt16
  cfc : UInt16
  cfd : UInt16
  compte : UInt16
  cle : Memory UInt8

def pc1Code (pc1 : Pc1Ctx) : Pc1Ctx :=
  let pc1 := { pc1 with dx := pc1.x1a2 + pc1.i, ax := pc1.x1a0 pc1.i.toNat, cx := 0x015a, bx := 0x4e35 }
  let pc1 := { pc1 with tmp := pc1.ax, ax := pc1.si, si := pc1.ax }
  let pc1 := { pc1 with tmp := pc1.ax, ax := pc1.dx, dx := pc1.ax }
  let pc1 := if pc1.ax ≠ 0 then { pc1 with ax := pc1.ax * pc1.bx } else pc1
  let pc1 := { pc1 with tmp := pc1.ax, ax := pc1.cx, cx := pc1.ax }
  let pc1 :=
    if pc1.ax ≠ 0 then { pc1 with ax := pc1.ax * pc1.si, cx := pc1.ax * pc1.si + pc1.cx } else pc1
  let pc1 := { pc1 with tmp := pc1.ax, ax := pc1.si, si := pc1.ax }
  let pc1 := { pc1 with ax := pc1.ax * pc1.bx, dx := pc1.cx + pc1.dx }
  let pc1 := { pc1 with ax := pc1.ax + 1 }
  { pc1 with
      x1a2 := pc1.dx
      x1a0 := store pc1.x1a0 pc1.i.toNat [pc1.ax]
      res := pc1.ax ^^^ pc1.dx
      i := pc1.i + 1 }

/-- Two bytes of the key as a word. -/
def keyWord (pc1 : Pc1Ctx) (place : Nat) : UInt16 :=
  (pc1.cle place).toUInt16 * 256 + (pc1.cle (place + 1)).toUInt16

/-- The words behind the first are combined with the word before them. -/
def assembleWord (pc1 : Pc1Ctx) (index : Nat) : Pc1Ctx :=
  let word := pc1.x1a0 (index - 1) ^^^ keyWord pc1 (2 * index)
  let pc1 := pc1Code { pc1 with x1a0 := store pc1.x1a0 index [word] }
  { pc1 with inter := pc1.inter ^^^ pc1.res }

def pc1Assemble (pc1 : Pc1Ctx) : Pc1Ctx :=
  let pc1 := pc1Code { pc1 with x1a0 := store pc1.x1a0 0 [keyWord pc1 0] }
  let pc1 := [1, 2, 3, 4, 5, 6, 7].foldl assembleWord { pc1 with inter := pc1.res }
  { pc1 with i := 0 }

/-- Mixes a plaintext byte with the key. -/
def mixKey (pc1 : Pc1Ctx) (c : UInt16) : Pc1Ctx :=
  { pc1 with
      cle := (List.range 16).foldl
        (fun cle compte => store cle compte [((cle compte).toUInt16 ^^^ c).toUInt8]) pc1.cle
      compte := 16 }

/-- `pc1_assemble` with the two halves of `inter`, whose combination is the random byte. -/
def assembled (pc1 : Pc1Ctx) : Pc1Ctx :=
  let pc1 := pc1Assemble pc1
  { pc1 with cfc := pc1.inter >>> 8, cfd := pc1.inter &&& 255 }

def pc1Decrypt (pc1 : Pc1Ctx) (byte : UInt8) : UInt8 × Pc1Ctx :=
  let pc1 := assembled pc1
  let c := byte.toUInt16 ^^^ (pc1.cfc ^^^ pc1.cfd)
  (c.toUInt8, mixKey pc1 c)

def pc1Encrypt (pc1 : Pc1Ctx) (byte : UInt8) : UInt8 × Pc1Ctx :=
  let pc1 := assembled pc1
  let c := byte.toUInt16
  ((c ^^^ (pc1.cfc ^^^ pc1.cfd)).toUInt8, mixKey pc1 c)

/-- "Remsaalps!123456" -/
def defaultKey : List UInt8 :=
  [0x52, 0x65, 0x6d, 0x73, 0x61, 0x61, 0x6c, 0x70, 0x73, 0x21, 0x31, 0x32, 0x33, 0x34, 0x35, 0x36]

def pc1Init : Pc1Ctx where
  ax := 0
  bx := 0
  cx := 0
  dx := 0
  si := 0
  tmp := 0
  x1a2 := 0
  x1a0 := fun _ => 0
  res := 0
  i := 0
  inter := 0
  cfc := 0
  cfd := 0
  compte := 0
  cle := store (fun _ => 0) 0 defaultKey

def pc1DecryptBuf (pc1 : Pc1Ctx) (buf : List UInt8) : List UInt8 × Pc1Ctx :=
  transduce pc1Decrypt pc1 buf

def pc1EncryptBuf (pc1 : Pc1Ctx) (buf : List UInt8) : List UInt8 × Pc1Ctx :=
  transduce pc1Encrypt pc1 buf

def BUFSIZE : Nat := 64 * 1024

/-- The loop of `main` over chunks of the input, with what is written to the output. -/
def cryptLoop (decrypt : Bool) (total : Nat) (pc1 : Pc1Ctx) (infile : List UInt8) : List UInt8 :=
  if total = 0 then []
  else
    let datalen := if BUFSIZE < total then BUFSIZE else total
    let buf := infile.take datalen
    let (buf, pc1) := if decrypt then pc1DecryptBuf pc1 buf else pc1EncryptBuf pc1 buf
    buf ++ cryptLoop decrypt (total - datalen) pc1 (infile.drop datalen)
termination_by total
decreasing_by
  rw [BUFSIZE]
  split <;> omega

/-- `main` once both files are open. The size of the file goes into an `unsigned`. -/
def pc1crypt (decrypt : Bool) (infile : List UInt8) : List UInt8 :=
  cryptLoop decrypt (infile.length % 2 ^ 32) pc1Init infile

/-! ## Decrypting what was encrypted -/

variable {pc1 : Pc1Ctx} {infile : List UInt8} {total : Nat}

/-- The random byte is a byte. -/
theorem random_lt : ((assembled pc1).cfc ^^^ (assembled pc1).cfd).toNat < 2 ^ 8 := by
  have high : ((assembled pc1).cfc).toNat < 2 ^ 8 := by
    have bound := (pc1Assemble pc1).inter.toNat_lt
    simp only [assembled, UInt16.toNat_shiftRight]
    change (pc1Assemble pc1).inter.toNat >>> 8 < 2 ^ 8
    rw [Nat.shiftRight_eq_div_pow]
    omega
  have low : ((assembled pc1).cfd).toNat < 2 ^ 8 := by
    simp only [assembled, UInt16.toNat_and]
    exact Nat.lt_of_le_of_lt Nat.and_le_right (by decide)
  rw [UInt16.toNat_xor]
  exact Nat.xor_lt_two_pow high low

/-- A byte that was combined with the random byte, narrowed and combined again, is back. -/
theorem uncombine {byte : UInt8} {random : UInt16} (small : random.toNat < 2 ^ 8) :
    (byte.toUInt16 ^^^ random).toUInt8.toUInt16 ^^^ random = byte.toUInt16 := by
  have fits : (byte.toUInt16 ^^^ random).toNat < 2 ^ 8 := by
    rw [UInt16.toNat_xor]
    exact Nat.xor_lt_two_pow byte.toNat_lt small
  have kept : (byte.toUInt16 ^^^ random).toUInt8.toUInt16 = byte.toUInt16 ^^^ random := by
    apply UInt16.toNat_inj.mp
    rw [UInt8.toNat_toUInt16, UInt16.toNat_toUInt8, Nat.mod_eq_of_lt fits]
  rw [kept, UInt16.xor_assoc, UInt16.xor_self, UInt16.xor_zero]

/-- Both directions mix the plaintext byte into the key, so they go on in the same state. -/
theorem pc1Decrypt_encrypt (pc1 : Pc1Ctx) (byte : UInt8) :
    pc1Decrypt pc1 (pc1Encrypt pc1 byte).1 = (byte, (pc1Encrypt pc1 byte).2) := by
  simp only [pc1Decrypt, pc1Encrypt, uncombine random_lt]
  rw [show byte.toUInt16.toUInt8 = byte from UInt8.toUInt8_toUInt16 byte]

def coder (decrypt : Bool) : Pc1Ctx → UInt8 → UInt8 × Pc1Ctx :=
  if decrypt then pc1Decrypt else pc1Encrypt

/-- The chunks are one stream. -/
theorem cryptLoop_eq (decrypt : Bool) (total : Nat) (pc1 : Pc1Ctx) (infile : List UInt8) :
    cryptLoop decrypt total pc1 infile = (transduce (coder decrypt) pc1 (infile.take total)).1 := by
  induction total using Nat.strong_induction_on generalizing pc1 infile with
  | _ total ih =>
      rw [cryptLoop]
      split
      · rename_i zero
        rw [zero, List.take_zero, transduce]
      · rename_i some'
        have whole (datalen : Nat) (within : datalen ≤ total) :
            infile.take total = infile.take datalen ++ (infile.drop datalen).take (total - datalen) := by
          rw [← List.take_add, Nat.add_sub_cancel' within]
        have chunk (datalen : Nat) (within : datalen ≤ total) (positive : 0 < datalen) :
            (transduce (coder decrypt) pc1 (infile.take datalen)).1 ++
              cryptLoop decrypt (total - datalen)
                (transduce (coder decrypt) pc1 (infile.take datalen)).2 (infile.drop datalen) =
            (transduce (coder decrypt) pc1 (infile.take total)).1 := by
          rw [ih _ (by omega), whole datalen within, transduce_append]
        have bufsize : 0 < BUFSIZE := by decide
        cases decrypt <;> exact chunk _ (by split <;> omega) (by split <;> omega)

theorem pc1crypt_eq (decrypt : Bool) (infile : List UInt8) :
    pc1crypt decrypt infile =
      (transduce (coder decrypt) pc1Init (infile.take (infile.length % 2 ^ 32))).1 :=
  cryptLoop_eq decrypt _ pc1Init infile

/-- What comes back is as much of the input as its 32-bit length says. -/
theorem pc1crypt_crypt (infile : List UInt8) :
    pc1crypt true (pc1crypt false infile) = infile.take (infile.length % 2 ^ 32) := by
  have short : (infile.take (infile.length % 2 ^ 32)).length = infile.length % 2 ^ 32 :=
    List.length_take_of_le (Nat.mod_le _ _)
  have length : (pc1crypt false infile).length = infile.length % 2 ^ 32 := by
    rw [pc1crypt_eq, transduce_length, short]
  rw [pc1crypt_eq true, length, Nat.mod_mod, List.take_of_length_le (Nat.le_of_eq length),
    pc1crypt_eq false]
  exact congrArg Prod.fst (transduce_back pc1Decrypt_encrypt)

theorem pc1crypt_roundTrip_iff (infile : List UInt8) :
    pc1crypt true (pc1crypt false infile) = infile ↔ infile.length < 2 ^ 32 := by
  rw [pc1crypt_crypt, List.take_eq_self_iff]
  exact ⟨fun long => Nat.lt_of_le_of_lt long (Nat.mod_lt _ (by decide)),
    fun short => Nat.le_of_eq (Nat.mod_eq_of_lt short).symm⟩

/-- A file of 4 GiB comes back empty. -/
theorem pc1crypt_fourGiB :
    ¬ ∀ infile : List UInt8, pc1crypt true (pc1crypt false infile) = infile := by
  intro always
  have back := always (List.replicate (2 ^ 32) 0)
  rw [pc1crypt_crypt, List.length_replicate, Nat.mod_self, List.take_zero] at back
  exact absurd (congrArg List.length back) (by rw [List.length_replicate]; decide)

end Rut9xx.Pc1crypt
