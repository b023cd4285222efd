import Rut9xx.Buffalo.EncryptedImage
import Mathlib.Data.List.Range

namespace Rut9xx.Buffalo

open Data

/-- The fields of an encrypted image. -/
structure Packed where
  magic : List UInt8
  seed : UInt8
  product : List UInt8
  version : List UInt8
  payload : List UInt8
  csum : UInt32

namespace Packed

def header (image : Packed) : List UInt8 :=
  image.magic ++ ([image.seed] ++ (be32 (UInt32.ofNat image.product.length) ++ (image.product ++
    (be32 (UInt32.ofNat image.version.length) ++ (image.version ++
      be32 (UInt32.ofNat image.payload.length))))))

def trailer (image : Packed) : List UInt8 := image.payload ++ be32 image.csum

def bytes (image : Packed) : List UInt8 := image.header ++ image.trailer

end Packed

/-- What `encrypt_buf` makes of the plain strings and data. -/
def packed (magic : CString encMagicLen) (product : CString encProductLen)
    (version : CString encVersionLen) (key : Key) (seed : UInt8) (longstate : Bool)
    (data : List UInt8) (csum : UInt32) : Packed :=
  let sealedProduct := crypt seed key longstate product.bytes
  let sealedVersion := crypt (sealedProduct.headD 0) key longstate version.bytes
  { magic := magic.bytes
    seed := seed
    product := sealedProduct
    version := sealedVersion
    payload := crypt (sealedVersion.headD 0) key longstate data
    csum := csum }

variable {capacity : Nat} {malloc : Nat → Bool} {key : Key} {seed : UInt8} {longstate : Bool}
  {memory encrypted : Memory UInt8}

theorem array_holds (string : CString capacity) : Holds string.array 0 string.bytes := holds_store

theorem strlen_array (string : CString capacity) :
    strlen string.array capacity = some string.chars.length := by
  obtain ⟨chars, ended⟩ := holds_append.mp (array_holds string)
  rw [Nat.zero_add] at ended
  rw [strlen, List.find?_range_eq_some]
  refine ⟨?_, List.mem_range.mpr string.fits, ?_⟩
  · simpa using (holds_cons.mp ended).1
  · intro index inside
    have char : string.array index = string.chars[index] := by
      have here : (load string.array 0 string.chars.length)[index]? = string.chars[index]? := by
        rw [show load string.array 0 string.chars.length = string.chars from chars]
      simpa only [load_getElem?, inside, if_true, Nat.zero_add, List.getElem?_eq_getElem,
        Option.some.injEq] using here
    have member := List.getElem_mem inside
    rw [char]
    simp only [Bool.not_eq_true', decide_eq_false_iff_not]
    intro null
    rw [null] at member
    exact string.noNul member

/-- A field copied into place and encrypted there. -/
theorem bcryptBuf_store {start len : Nat} {text : List UInt8} (whole : text.length = len) :
    bcryptBuf malloc seed key longstate start start len (store memory start text) =
      if malloc (stateLenFor longstate len) then
        some (store memory start (crypt seed key longstate text))
      else none := by
  subst len
  rw [bcryptBuf_eq le_rfl, load_store, store_store crypt_length]

theorem load_array (string : CString capacity) :
    load string.array 0 (string.chars.length + 1) = string.bytes := by
  have holds := array_holds string
  rwa [Holds, CString.bytes_length] at holds

section

variable {magic : CString encMagicLen} {product : CString encProductLen}
  {version : CString encVersionLen} {datalen csum : UInt32} {hdr data : Nat}

def encParam (key : Key) (magic : CString encMagicLen) (product : CString encProductLen)
    (version : CString encVersionLen) (seed : UInt8) (longstate : Bool) (datalen csum : UInt32) :
    EncParam :=
  { key, magic := magic.array, product := product.array, version := version.array, seed, longstate,
    datalen, csum }

theorem encryptBuf_eq
    (image : Packed) (shape : image = packed magic product version key seed longstate
      (load memory data datalen.toNat) csum)
    (adjacent : data = hdr + image.header.length) :
    encryptBuf malloc (encParam key magic product version seed longstate datalen csum) hdr data memory =
        some encrypted ↔
      (malloc (stateLenFor longstate (product.chars.length + 1)) ∧
        malloc (stateLenFor longstate (version.chars.length + 1)) ∧
        malloc (stateLenFor longstate datalen.toNat)) ∧
        store memory hdr image.bytes = encrypted := by
  have headerForm : image.header = magic.bytes ++ [seed] ++
      be32 (UInt32.ofNat (product.chars.length + 1)) ++ crypt seed key longstate product.bytes ++
      be32 (UInt32.ofNat (version.chars.length + 1)) ++
      crypt (image.product.headD 0) key longstate version.bytes ++ be32 datalen := by
    rw [shape]
    simp only [Packed.header, packed, crypt_length, load_length, CString.bytes_length,
      UInt32.ofNat_toNat, List.append_assoc]
  have trailerForm : image.trailer = crypt (image.version.headD 0) key longstate
      (load memory data datalen.toNat) ++ be32 csum := by
    rw [shape]
    rfl
  simp only [encryptBuf, encParam, strlen_array, Option.bind_eq_bind, Option.bind_some, load_array,
    putBe32]
  rw [bcryptBuf_store (by simp)]
  by_cases first : malloc (stateLenFor longstate (product.chars.length + 1))
  · simp only [first, if_true, Option.bind_some, true_and]
    rw [bcryptBuf_store (by simp)]
    by_cases second : malloc (stateLenFor longstate (version.chars.length + 1))
    · simp only [second, if_true, Option.bind_some, true_and]
      rw [bcryptBuf_eq le_rfl]
      by_cases third : malloc (stateLenFor longstate datalen.toNat)
      · simp only [third, if_true, Option.bind_some, true_and]
        have productFirst (front : Memory UInt8) (start : Nat) :
            store front start (crypt seed key longstate product.bytes) start = image.product.headD 0 := by
          rw [shape]
          exact store_headD (by simp [← List.length_pos_iff])
        have versionFirst (front : Memory UInt8) (start : Nat) :
            store front start (crypt (image.product.headD 0) key longstate version.bytes) start =
              image.version.headD 0 := by
          rw [shape]
          exact store_headD (by simp [← List.length_pos_iff])
        simp only [productFirst, versionFirst]
        simp (disch := (simp only [List.length_append, List.length_singleton, CString.bytes_length,
          crypt_length, be32_length, load_length, Nat.add_assoc])) only [store_next]
        rw [← headerForm, load_store_apart (Or.inr adjacent.ge), adjacent, store_append,
          ← adjacent, ← trailerForm, Option.some.injEq]
        rfl
      · simp [third]
    · simp [second]
  · simp [first]
end

theorem getBe32_of_holds {start : Nat} {word : UInt32} (holds : Holds memory start (be32 word)) :
    getBe32 memory start = word := by
  rw [getBe32, show load memory start 4 = be32 word from holds]
  simpa using be32At_here word []

theorem getBe32_store_apart {start other : Nat} {text : List UInt8}
    (apart : start + text.length ≤ other) :
    getBe32 (store memory start text) other = getBe32 memory other := by
  rw [getBe32, load_store_apart (Or.inr apart), getBe32]

theorem skip_within {cursor : Cursor} {len : Nat} (room : len ≤ cursor.remain) :
    cursor.skip len = some ⟨cursor.p + len, cursor.remain - len⟩ := by
  rw [Cursor.skip, if_neg (Nat.not_lt.mpr room)]

theorem bcryptBuf_field {array : Memory UInt8} {text : List UInt8} {len : Nat}
    (whole : text.length = len) (granted : malloc (stateLenFor longstate len)) :
    bcryptBuf malloc seed key longstate 0 0 len (store array 0 text) =
      some (store array 0 (crypt seed key longstate text)) := by
  rw [bcryptBuf_store whole, if_pos granted]

theorem decryptBuf_packed {image : Packed} {ep : EncParam} {data total : Nat}
    (holds : Holds memory data image.bytes) (known : checkMagic image.magic)
    (magicWhole : image.magic.length = encMagicLen)
    (productSome : image.product ≠ []) (productFits : image.product.length ≤ encProductLen)
    (versionSome : image.version ≠ []) (versionFits : image.version.length ≤ encVersionLen)
    (payloadFits : image.payload.length < 2 ^ 32) (room : image.bytes.length ≤ total)
    (productState : malloc (stateLenFor ep.longstate image.product.length))
    (versionState : malloc (stateLenFor ep.longstate image.version.length))
    (payloadState : malloc (stateLenFor ep.longstate image.payload.length))
    (text : List UInt8)
    (decrypted : text = crypt (image.version.headD 0) ep.key ep.longstate image.payload) :
    decryptBuf malloc ep data total memory =
      if buffaloCsum (UInt32.ofNat image.payload.length) text = image.csum then
        some
          ({ ep with
              magic := store ep.magic 0 image.magic
              seed := image.seed
              product := store ep.product 0 (crypt image.seed ep.key ep.longstate image.product)
              version := store ep.version 0
                (crypt (image.product.headD 0) ep.key ep.longstate image.version)
              datalen := UInt32.ofNat image.payload.length
              csum := image.csum }, store memory data text)
      else none := by
  simp only [Packed.bytes, Packed.header, Packed.trailer, holds_append, List.length_append,
    List.length_singleton, be32_length, magicWhole, List.append_assoc] at holds room
  obtain ⟨magicAt, seedAt, productLenAt, productAt, versionLenAt, versionAt, lengthAt, payloadAt, csumAt⟩ := holds
  have productLen : (UInt32.ofNat image.product.length).toNat = image.product.length :=
    UInt32.toNat_ofNat_of_lt' (by simp only [encProductLen] at productFits; simp only [UInt32.size]; omega)
  have versionLen : (UInt32.ofNat image.version.length).toNat = image.version.length :=
    UInt32.toNat_ofNat_of_lt' (by simp only [encVersionLen] at versionFits; simp only [UInt32.size]; omega)
  have payloadLen : (UInt32.ofNat image.payload.length).toNat = image.payload.length :=
    UInt32.toNat_ofNat_of_lt' payloadFits
  have seedIs : memory (data + encMagicLen) = image.seed := (holds_cons.mp seedAt).1
  have magicIs : load memory data encMagicLen = image.magic := by rw [← magicWhole]; exact magicAt
  have productIs := productAt
  have versionIs := versionAt
  have payloadIs := payloadAt
  unfold Holds at productIs versionIs payloadIs
  have productFirst : store ep.product 0 image.product 0 = image.product.headD 0 :=
    store_headD productSome
  have versionFirst : store ep.version 0 image.version 0 = image.version.headD 0 :=
    store_headD versionSome
  have goOn {Result : Type} (condition : Bool) (met : condition = true) (next : Unit → Option Result) :
      (require condition).bind next = next () := by
    rw [require_eq_some.mpr met, Option.bind_some]
  simp only [decryptBuf, Option.bind_eq_bind]
  rw [skip_within (by simp only; omega), Option.bind_some, goOn _ (by rw [magicIs, known]),
    skip_within (by simp only; omega), Option.bind_some, skip_within (by simp only; omega), Option.bind_some]
  simp only [getBe32_of_holds productLenAt, productLen, productIs, seedIs, magicIs]
  rw [goOn _ (decide_eq_true productFits), skip_within (by simp only; omega), Option.bind_some,
    skip_within (by simp only; omega), Option.bind_some]
  simp only [getBe32_of_holds versionLenAt, versionLen, versionIs]
  rw [goOn _ (decide_eq_true versionFits), skip_within (by simp only; omega), Option.bind_some,
    skip_within (by simp only; omega), Option.bind_some]
  simp only [getBe32_of_holds lengthAt, payloadLen]
  rw [skip_within (by simp only; omega), Option.bind_some]
  have textLength : text.length = image.payload.length := by rw [decrypted, crypt_length]
  have reread : load (store memory data text) data image.payload.length = text := by
    rw [← textLength, load_store]
  have csumIs := getBe32_of_holds (@Holds.store_apart _ _ text data _ _ csumAt (Or.inr (by omega)))
  rw [versionFirst, productFirst, bcryptBuf_eq (by omega), payloadIs, ← decrypted, if_pos payloadState,
    Option.bind_some, skip_within (by simp only; omega), Option.bind_some]
  simp only [csumIs, reread]
  by_cases accepted : buffaloCsum (UInt32.ofNat image.payload.length) text = image.csum
  · rw [goOn _ (decide_eq_true accepted), bcryptBuf_field rfl versionState, Option.bind_some,
      bcryptBuf_field rfl productState, Option.bind_some, if_pos accepted]
  · rw [if_neg accepted]
    simp [require, accepted]

/-! ## The round trip -/

/-- The array holds the string and its terminator. -/
def Spells (array : Memory UInt8) (string : CString capacity) : Prop := Holds array 0 string.bytes

/-! The offsets `decrypt_buf` finds, from the lengths stored in the buffer. -/

def versionStart (memory : Memory UInt8) (data : Nat) : Nat :=
  data + encMagicLen + 1 + 4 + (getBe32 memory (data + encMagicLen + 1)).toNat + 4

def versionLen (memory : Memory UInt8) (data : Nat) : Nat :=
  (getBe32 memory (versionStart memory data - 4)).toNat

def payloadStart (memory : Memory UInt8) (data : Nat) : Nat :=
  versionStart memory data + versionLen memory data + 4

def payloadLen (memory : Memory UInt8) (data : Nat) : UInt32 :=
  getBe32 memory (payloadStart memory data - 4)

def storedCsum (memory : Memory UInt8) (data : Nat) : UInt32 :=
  getBe32 memory (payloadStart memory data + (payloadLen memory data).toNat)

/-- The data decrypted with the first byte of the version still encrypted. -/
def decryptedData (ep : EncParam) (memory : Memory UInt8) (data : Nat) : List UInt8 :=
  crypt (store ep.version 0 (load memory (versionStart memory data) (versionLen memory data)) 0)
    ep.key ep.longstate (load memory (payloadStart memory data) (payloadLen memory data).toNat)

theorem skip_eq_some {cursor next : Cursor} {len : Nat} : cursor.skip len = some next ↔
    len ≤ cursor.remain ∧ next = ⟨cursor.p + len, cursor.remain - len⟩ := by
  unfold Cursor.skip
  split
  · rename_i short
    simp only [reduceCtorEq, false_iff, not_and]
    intro long
    omega
  · rename_i long
    simp only [Option.some.injEq]
    constructor
    · intro same
      exact ⟨by omega, same.symm⟩
    · intro both
      exact both.2.symm

theorem decryptBuf_checked {ep : EncParam} {data total : Nat} {result : EncParam × Memory UInt8}
    (accepted : decryptBuf malloc ep data total memory = some result) :
    buffaloCsum (payloadLen memory data) (decryptedData ep memory data) = storedCsum memory data := by
  simp only [decryptBuf, Option.bind_eq_bind, Option.bind_eq_some_iff, skip_eq_some,
    require_eq_some] at accepted
  obtain ⟨_, ⟨-, rfl⟩, _, -, _, ⟨-, rfl⟩, _, ⟨-, rfl⟩, _, -, _, ⟨-, rfl⟩, _, ⟨-, rfl⟩, _, -, _,
    ⟨-, rfl⟩, _, ⟨-, rfl⟩, _, ⟨-, rfl⟩, plain, decrypted, _, ⟨-, rfl⟩, _, same, -⟩ := accepted
  have sealedPayload : bcryptBuf malloc
      (store ep.version 0 (load memory (versionStart memory data) (versionLen memory data)) 0)
      ep.key ep.longstate (payloadStart memory data) data (payloadLen memory data).toNat memory =
        some plain := decrypted
  have compared : buffaloCsum (payloadLen memory data)
      (load plain data (payloadLen memory data).toNat) =
        getBe32 plain (payloadStart memory data + (payloadLen memory data).toNat) :=
    of_decide_eq_true same
  have inFront : data ≤ payloadStart memory data := by
    simp only [payloadStart, versionStart]
    omega
  rw [bcryptBuf_eq inFront] at sealedPayload
  split at sealedPayload
  · cases sealedPayload
    have reread := @load_store _ memory (decryptedData ep memory data) data
    simp only [decryptedData, crypt_length, load_length] at reread
    rw [reread, getBe32_store_apart (by simp only [crypt_length, load_length]; omega)] at compared
    exact compared
  · cases sealedPayload

/-- Whatever the buffer, a stored checksum other than that of the decrypted data is refused. -/
theorem decryptBuf_refuses {ep : EncParam} {data total : Nat}
    (differs : storedCsum memory data ≠
      buffaloCsum (payloadLen memory data) (decryptedData ep memory data)) :
    decryptBuf malloc ep data total memory = none := by
  cases outcome : decryptBuf malloc ep data total memory with
  | none => rfl
  | some result => exact absurd (decryptBuf_checked outcome).symm differs

theorem decryptBuf_unknown_magic {ep : EncParam} {data total : Nat}
    (unknown : checkMagic (load memory data encMagicLen) = false) :
    decryptBuf malloc ep data total memory = none := by
  simp only [decryptBuf, unknown, Option.bind_eq_bind]
  cases Cursor.skip ⟨data, total⟩ encMagicLen <;> rfl

theorem spells_store {array : Memory UInt8} {string : CString capacity} :
    Spells (store array 0 string.bytes) string := holds_store

theorem encComputeHeaderLen_eq {magic : CString encMagicLen} {product : CString encProductLen}
    {version : CString encVersionLen} {data : List UInt8} {csum : UInt32}
    (whole : magic.bytes.length = encMagicLen) :
    (packed magic product version key seed longstate data csum).header.length =
      encComputeHeaderLen product version := by
  simp only [Packed.header, packed, List.length_append, List.length_singleton, be32_length,
    crypt_length, whole, CString.bytes_length, encComputeHeaderLen]
  omega

theorem decryptBuf_encryptBuf {magic : CString encMagicLen} {product : CString encProductLen}
    {version : CString encVersionLen} {datalen : UInt32} {hdr total : Nat} {ep : EncParam}
    (known : checkMagic magic.bytes)
    (encryption : encryptBuf malloc
      (encParam key magic product version seed longstate datalen
        (buffaloCsum datalen
          (load memory (hdr + encComputeHeaderLen product version) datalen.toNat)))
      hdr (hdr + encComputeHeaderLen product version) memory = some encrypted)
    (sameKey : ep.key = key) (sameMode : ep.longstate = longstate)
    (room : encComputeHeaderLen product version + datalen.toNat + 4 ≤ total) :
    (∃ decoded plain, decryptBuf malloc ep hdr total encrypted = some (decoded, plain) ∧
      Spells decoded.magic magic ∧ decoded.seed = seed ∧
      Spells decoded.product product ∧ Spells decoded.version version ∧
      decoded.datalen = datalen ∧
      load plain hdr datalen.toNat =
        load memory (hdr + encComputeHeaderLen product version) datalen.toNat) ∧
      ∀ other buffer start size, storedCsum buffer start ≠
          buffaloCsum (payloadLen buffer start) (decryptedData other buffer start) →
        decryptBuf malloc other start size buffer = none := by
  refine ⟨?_, fun other buffer start size differs => decryptBuf_refuses differs⟩
  subst sameKey sameMode
  have whole : magic.bytes.length = encMagicLen := by
    simp only [checkMagic, decide_eq_true_eq] at known
    rcases known with same | same <;> rw [same] <;> rfl
  generalize plainText : load memory (hdr + encComputeHeaderLen product version) datalen.toNat =
    text at encryption
  have textLength : text.length = datalen.toNat := by rw [← plainText, load_length]
  generalize shape : packed magic product version ep.key seed ep.longstate text
    (buffaloCsum datalen text) = image
  have headerLength : image.header.length = encComputeHeaderLen product version := by
    rw [← shape, encComputeHeaderLen_eq whole]
  obtain ⟨⟨productState, versionState, payloadState⟩, final⟩ :=
    (encryptBuf_eq image (by rw [plainText]; exact shape.symm) (by rw [headerLength])).mp encryption
  have holds : Holds encrypted hdr image.bytes := by
    rw [← final]
    exact holds_store
  have productLength : image.product.length = product.chars.length + 1 := by
    rw [← shape]
    simp [packed]
  have versionLength : image.version.length = version.chars.length + 1 := by
    rw [← shape]
    simp [packed]
  have payloadLength : image.payload.length = datalen.toNat := by
    rw [← shape]
    simp [packed, textLength]
  have recovered : text = crypt (image.version.headD 0) ep.key ep.longstate image.payload := by
    rw [← shape]
    exact crypt_crypt.symm
  have decryption := @decryptBuf_packed malloc encrypted image ep hdr total holds
    (by rw [← shape]; exact known) (by rw [← shape]; exact whole)
    (List.ne_nil_of_length_pos (by omega))
    (by rw [productLength]; exact product.fits) (List.ne_nil_of_length_pos (by omega))
    (by rw [versionLength]; exact version.fits) (by rw [payloadLength]; exact datalen.toNat_lt)
    (by
      simp only [Packed.bytes, Packed.trailer, List.length_append, be32_length, headerLength,
        payloadLength]
      omega)
    (by rw [productLength]; exact productState) (by rw [versionLength]; exact versionState)
    (by rw [payloadLength]; exact payloadState) text recovered
  rw [payloadLength, UInt32.ofNat_toNat, if_pos (by rw [← shape]; rfl)] at decryption
  refine ⟨_, _, decryption, ?_, by rw [← shape]; rfl, ?_, ?_, rfl, ?_⟩
  · rw [← shape]
    exact spells_store
  · rw [← shape]
    simp only [packed, crypt_crypt]
    exact spells_store
  · rw [← shape]
    simp only [packed, crypt_crypt]
    exact spells_store
  · rw [← textLength, load_store]

def buffaloKey : Key :=
  ⟨[0x42, 0x75, 0x66, 0x66, 0x61, 0x6c, 0x6f], by decide, by decide⟩

def startString : CString encMagicLen := ⟨[0x73, 0x74, 0x61, 0x72, 0x74], by decide, by decide⟩
def helloString : CString encMagicLen := ⟨[0x68, 0x65, 0x6c, 0x6c, 0x6f], by decide, by decide⟩
def sampleProduct : CString encProductLen := ⟨[0x57, 0x5a, 0x52], by decide, by decide⟩
def sampleVersion : CString encVersionLen := ⟨[0x31, 0x2e, 0x30], by decide, by decide⟩

/-- The image of the sample strings, with a byte of data, under a given magic. -/
def sampleImage (magic : CString encMagicLen) : Packed :=
  packed magic sampleProduct sampleVersion buffaloKey 0x4f false [0]
    (buffaloCsum 1 [0])

theorem encryptBuf_sample (magic : CString encMagicLen) (whole : magic.bytes.length = encMagicLen) :
    encryptBuf (fun _ => true)
      (encParam buffaloKey magic sampleProduct sampleVersion 0x4f false 1 (buffaloCsum 1 [0]))
      0 (0 + encComputeHeaderLen sampleProduct sampleVersion) (fun _ => 0) =
        some (store (fun _ => 0) 0 (sampleImage magic).bytes) := by
  refine (encryptBuf_eq (sampleImage magic) rfl ?_).mpr ⟨⟨rfl, rfl, rfl⟩, rfl⟩
  rw [sampleImage, encComputeHeaderLen_eq whole]

theorem decryptBuf_encryptBuf_sample : ∃ decoded plain,
    decryptBuf (fun _ => true)
      (encParam buffaloKey startString sampleProduct sampleVersion 0 false 0 0) 0 64
      (store (fun _ => 0) 0 (sampleImage startString).bytes) = some (decoded, plain) ∧
      Spells decoded.product sampleProduct ∧ load plain 0 1 = [0] := by
  obtain ⟨⟨decoded, plain, decryption, -, -, product, -, -, data⟩, -⟩ :=
    @decryptBuf_encryptBuf (fun _ => true) buffaloKey 0x4f false (fun _ => 0)
      (store (fun _ => 0) 0 (sampleImage startString).bytes) startString sampleProduct sampleVersion
      1 0 64 (encParam buffaloKey startString sampleProduct sampleVersion 0 false 0 0)
      (by decide) (encryptBuf_sample startString rfl) rfl rfl (by decide)
  exact ⟨decoded, plain, decryption, product, data⟩

/-- `encrypt_buf` takes any magic, `decrypt_buf` only the two it knows. -/
theorem helloMagic_refused : ∃ encrypted,
    encryptBuf (fun _ => true)
      (encParam buffaloKey helloString sampleProduct sampleVersion 0x4f false 1 (buffaloCsum 1 [0]))
      0 (0 + encComputeHeaderLen sampleProduct sampleVersion) (fun _ => 0) = some encrypted ∧
      ∀ ep total, decryptBuf (fun _ => true) ep 0 total encrypted = none := by
  refine ⟨_, encryptBuf_sample helloString rfl, fun ep total => decryptBuf_unknown_magic ?_⟩
  have magicAt : Holds (store (fun _ => 0) 0 (sampleImage helloString).bytes) 0 helloString.bytes :=
    (holds_append.mp (holds_append.mp holds_store).1).1
  rw [show load _ 0 encMagicLen = helloString.bytes from magicAt]
  decide

end Rut9xx.Buffalo
