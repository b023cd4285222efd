import Rut9xx.Data.Endian
import Rut9xx.Data.Partial
import Rut9xx.Data.XorChain

namespace Rut9xx.Buffalo

open Data

section

def bcryptDefaultStateLen : Nat := 256
def bcryptMaxKeylen : Nat := 254

/-- A `-k` string that `check_params` lets through. -/
structure Key where
  chars : List UInt8
  noNul : 0 ∉ chars
  short : chars.length ≤ bcryptMaxKeylen

structure BcryptCtx where
  i : Nat
  j : Nat
  state : Memory UInt8
  stateLen : Nat

/-- What the key schedule's loop carries. -/
structure Schedule where
  i : Nat
  j : Nat
  k : Nat
  state : Memory UInt8

def scheduleStep (key : List UInt8) (stateLen : Nat) (loop : Schedule) : Schedule :=
  let t := loop.state loop.i
  let k := (loop.k + (key.getD loop.j 0).toNat + t.toNat) % stateLen
  let state := store loop.state loop.i [loop.state k]
  { i := loop.i + 1
    j := (loop.j + 1) % key.length
    k := k
    state := store state k [t] }

def schedule (key : List UInt8) (stateLen : Nat) : Nat → Schedule → Schedule
  | 0, loop => loop
  | count + 1, loop => schedule key stateLen count (scheduleStep key stateLen loop)

/-- `malloc` says which requests are granted. -/
def bcryptInit (malloc : Nat → Bool) (key : List UInt8) (stateLen : Nat) : Option BcryptCtx :=
  if malloc stateLen then
    -- state[i] = i keeps the low byte of the index
    let identity : Memory UInt8 := UInt8.ofNat
    some
      { i := 0
        j := 0
        state := (schedule key stateLen stateLen { i := 0, j := 0, k := 0, state := identity }).state
        stateLen := stateLen }
  else none

/-- The local `i` and `j` of `bcrypt_process` are bytes. -/
structure Cipher where
  i : UInt8
  j : UInt8
  state : Memory UInt8

/-- One round of `bcrypt_process`: the byte combined with the text, and the state after it. -/
def cipherStep (stateLen : Nat) (cipher : Cipher) : UInt8 × Cipher :=
  let i := UInt8.ofNat ((cipher.i.toNat + 1) % stateLen)
  let j := UInt8.ofNat ((cipher.j.toNat + (cipher.state i.toNat).toNat) % stateLen)
  let t := cipher.state j.toNat
  let state := store cipher.state j.toNat [cipher.state i.toNat]
  let state := store state i.toNat [t]
  (state (((state i.toNat).toNat + (state j.toNat).toNat) % stateLen), ⟨i, j, state⟩)

def bcryptProcess (ctx : BcryptCtx) (src dst len : Nat) (memory : Memory UInt8) : Memory UInt8 :=
  xorStream (cipherStep ctx.stateLen) len ⟨UInt8.ofNat ctx.i, UInt8.ofNat ctx.j, ctx.state⟩ src dst
    memory

def stateLenFor (longstate : Bool) (len : Nat) : Nat :=
  if longstate then len else bcryptDefaultStateLen

def bcryptBuf (malloc : Nat → Bool) (seed : UInt8) (key : Key) (longstate : Bool)
    (src dst len : Nat) (memory : Memory UInt8) : Option (Memory UInt8) := do
  let ctx ← bcryptInit malloc (seed :: key.chars) (stateLenFor longstate len)
  some (bcryptProcess ctx src dst len memory)

/-! ## The cipher on byte strings -/

def seededCtx (seed : UInt8) (key : Key) (stateLen : Nat) : Cipher :=
  ⟨0, 0, (schedule (seed :: key.chars) stateLen stateLen ⟨0, 0, 0, UInt8.ofNat⟩).state⟩

def crypt (seed : UInt8) (key : Key) (longstate : Bool) (text : List UInt8) : List UInt8 :=
  let stateLen := stateLenFor longstate text.length
  xorBytes (keystream (cipherStep stateLen) text.length (seededCtx seed key stateLen)) text

variable {malloc : Nat → Bool} {seed : UInt8} {key : Key} {longstate : Bool} {src dst len : Nat}
  {memory : Memory UInt8} {text : List UInt8}

@[simp] theorem crypt_length : (crypt seed key longstate text).length = text.length :=
  xorBytes_length (by simp)

theorem crypt_crypt : crypt seed key longstate (crypt seed key longstate text) = text := by
  rw [crypt, crypt_length]
  exact xorBytes_xorBytes (by simp)

theorem bcryptBuf_eq (behind : dst ≤ src) :
    bcryptBuf malloc seed key longstate src dst len memory =
      if malloc (stateLenFor longstate len) then
        some (store memory dst (crypt seed key longstate (load memory src len)))
      else none := by
  unfold bcryptBuf bcryptInit
  cases malloc (stateLenFor longstate len) with
  | false => rfl
  | true =>
      simp only [if_true, Option.bind_eq_bind, Option.bind_some, bcryptProcess,
        xorStream_eq behind, crypt, load_length]
      rfl

end

section

def encProductLen : Nat := 32
def encVersionLen : Nat := 8
def encMagicLen : Nat := 6

/-- A string that fits, with its terminator, an array of `capacity` bytes. -/
structure CString (capacity : Nat) where
  chars : List UInt8
  noNul : 0 ∉ chars
  fits : chars.length < capacity

namespace CString

variable {capacity : Nat}

def bytes (string : CString capacity) : List UInt8 := string.chars ++ [0]

/-- `strcpy` into a zeroed array. -/
def array (string : CString capacity) : Memory UInt8 := store (fun _ => 0) 0 string.bytes

@[simp] theorem bytes_length (string : CString capacity) :
    string.bytes.length = string.chars.length + 1 := by simp [bytes]

end CString

structure EncParam where
  key : Key
  magic : Memory UInt8
  product : Memory UInt8
  version : Memory UInt8
  seed : UInt8
  longstate : Bool
  datalen : UInt32
  csum : UInt32

/-- No result when the array holds no terminator. -/
def strlen (array : Memory UInt8) (capacity : Nat) : Option Nat :=
  (List.range capacity).find? fun index => array index = 0

def putBe32 (memory : Memory UInt8) (start : Nat) (val : UInt32) : Memory UInt8 :=
  store memory start (be32 val)

def getBe32 (memory : Memory UInt8) (start : Nat) : UInt32 := be32At (load memory start 4) 0

/-- `csum ^= *p` with a signed `*p`. -/
def signExtend (byte : UInt8) : UInt32 :=
  if byte < 128 then byte.toUInt32 else byte.toUInt32 ||| 0xffffff00

def csumShift : Nat → UInt32 → UInt32
  | 0, csum => csum
  | count + 1, csum => csumShift count ((csum >>> 1) ^^^ if csum &&& 1 = 1 then 0xedb88320 else 0)

def buffaloCsum (csum : UInt32) (buf : List UInt8) : UInt32 :=
  buf.foldl (fun csum byte => csumShift 8 (csum ^^^ signExtend byte)) csum

def startMagic : List UInt8 := [0x73, 0x74, 0x61, 0x72, 0x74, 0]
def asar1Magic : List UInt8 := [0x61, 0x73, 0x61, 0x72, 0x31, 0]

def checkMagic (magic : List UInt8) : Bool := magic = startMagic ∨ magic = asar1Magic

def encComputeHeaderLen (product : CString encProductLen) (version : CString encVersionLen) : Nat :=
  encMagicLen + 1 + product.chars.length + 1 + version.chars.length + 1 + 3 * 4

def encryptBuf (malloc : Nat → Bool) (ep : EncParam) (hdr data : Nat) (memory : Memory UInt8) :
    Option (Memory UInt8) := do
  let magicLen ← strlen ep.magic encMagicLen
  let productLen ← strlen ep.product encProductLen
  let versionLen ← strlen ep.version encVersionLen
  -- setup magic and seed
  let memory := store memory hdr (load ep.magic 0 (magicLen + 1))
  let p := hdr + (magicLen + 1)
  let memory := store memory p [ep.seed]
  let p := p + 1
  -- put product len, copy and crypt product name
  let memory := putBe32 memory p (UInt32.ofNat (productLen + 1))
  let p := p + 4
  let memory := store memory p (load ep.product 0 (productLen + 1))
  let memory ← bcryptBuf malloc ep.seed ep.key ep.longstate p p (productLen + 1) memory
  let s := memory p
  let p := p + (productLen + 1)
  -- put version length, copy and crypt version
  let memory := putBe32 memory p (UInt32.ofNat (versionLen + 1))
  let p := p + 4
  let memory := store memory p (load ep.version 0 (versionLen + 1))
  let memory ← bcryptBuf malloc s ep.key ep.longstate p p (versionLen + 1) memory
  let s := memory p
  let p := p + (versionLen + 1)
  -- put data length, encrypt data, put checksum
  let memory := putBe32 memory p ep.datalen
  let memory ← bcryptBuf malloc s ep.key ep.longstate data data ep.datalen.toNat memory
  some (putBe32 memory (data + ep.datalen.toNat) ep.csum)

/-- `p` and `remain` of `decrypt_buf`. -/
structure Cursor where
  p : Nat
  remain : Nat

/-- `CHECKLEN` and `INCP`. -/
def Cursor.skip (cursor : Cursor) (len : Nat) : Option Cursor :=
  if cursor.remain < len then none else some ⟨cursor.p + len, cursor.remain - len⟩

def decryptBuf (malloc : Nat → Bool) (ep : EncParam) (data datalen : Nat) (memory : Memory UInt8) :
    Option (EncParam × Memory UInt8) := do
  let seedAt ← Cursor.skip ⟨data, datalen⟩ encMagicLen
  require (checkMagic (load memory data encMagicLen))
  let prodLenAt ← seedAt.skip 1
  let productAt ← prodLenAt.skip 4
  let prodLen := (getBe32 memory prodLenAt.p).toNat
  require (prodLen ≤ encProductLen)
  let verLenAt ← productAt.skip prodLen
  let product := store ep.product 0 (load memory productAt.p prodLen)
  let versionAt ← verLenAt.skip 4
  let verLen := (getBe32 memory verLenAt.p).toNat
  require (verLen ≤ encVersionLen)
  let lengthAt ← versionAt.skip verLen
  let version := store ep.version 0 (load memory versionAt.p verLen)
  let payloadAt ← lengthAt.skip 4
  let length := getBe32 memory lengthAt.p
  let csumAt ← payloadAt.skip length.toNat
  -- the plain data goes to the start of the buffer, over the header
  let plain ← bcryptBuf malloc (version 0) ep.key ep.longstate payloadAt.p data length.toNat memory
  let _ ← csumAt.skip 4
  let csum := getBe32 plain csumAt.p
  require (buffaloCsum length (load plain data length.toNat) = csum)
  let plainVersion ← bcryptBuf malloc (product 0) ep.key ep.longstate 0 0 verLen version
  let plainProduct ← bcryptBuf malloc (memory seedAt.p) ep.key ep.longstate 0 0 prodLen product
  some
    ({ ep with
        magic := store ep.magic 0 (load memory data encMagicLen)
        seed := memory seedAt.p
        product := plainProduct
        version := plainVersion
        datalen := length
        csum := csum }, plain)

end

end Rut9xx.Buffalo
