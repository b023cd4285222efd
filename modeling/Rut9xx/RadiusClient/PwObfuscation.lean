import Rut9xx.RadiusClient.KeyObfuscation

namespace Rut9xx.RadiusClient

open Data

/-! # Passwords through the encoder and the decoder -/

variable {md5 : Md5} {secret before buffer password : List UInt8} {authenticator : Authenticator}
  {count n dstsize : Nat}

theorem pwencodeBlocks_eq : pwencodeBlocks md5 secret buffer count n before =
    (chain (blockHash md5 secret) before
      ((List.range' n count).map fun n => slice buffer (n * radiusMd5len) radiusMd5len)).flatten := by
  induction count generalizing n before with
  | zero => rfl
  | succ count ih =>
      simp only [pwencodeBlocks, List.range'_succ, List.map_cons, chain, List.flatten_cons, ih]
      rfl

/-- The password with its zeros. -/
def padded (password : List UInt8) : List UInt8 :=
  password ++ List.replicate (pwPadded password.length - password.length) 0

theorem pwPadded_short (short : password.length ≤ 128) :
    pwPadded password.length = (password.length + 15) / radiusMd5len * radiusMd5len := by
  generalize password.length = length at short
  revert length
  decide +kernel

theorem padded_length (short : password.length ≤ 128) :
    (padded password).length = pwPadded password.length := by
  have whole := pwPadded_short short
  simp only [padded, List.length_append, List.length_replicate]
  unfold radiusMd5len at whole
  omega

def pwBlocks (text : List UInt8) : List (List UInt8) :=
  (List.range' 0 (text.length / radiusMd5len)).map fun n => slice text (n * radiusMd5len) radiusMd5len

theorem pwBlocks_getElem? {text : List UInt8} (inside : n < text.length / radiusMd5len) :
    (pwBlocks text)[n]? = some (slice text (n * radiusMd5len) radiusMd5len) := by
  rw [pwBlocks, List.getElem?_map, List.getElem?_range' inside, Nat.one_mul, Nat.zero_add]
  rfl

theorem pwBlocks_sizes {text : List UInt8} : ∀ block ∈ pwBlocks text, block.length = radiusMd5len := by
  intro block member
  obtain ⟨n, inside, rfl⟩ := List.mem_map.mp member
  rw [List.mem_range'_1] at inside
  have whole := Nat.div_mul_le_self text.length radiusMd5len
  have fits : (n + 1) * radiusMd5len ≤ text.length / radiusMd5len * radiusMd5len :=
    Nat.mul_le_mul_right _ (by omega)
  rw [Nat.succ_mul] at fits
  simp only [slice, List.length_take, List.length_drop]
  omega

/-- A password as it goes out. -/
def pwSent (md5 : Md5) (secret : List UInt8) (authenticator : Authenticator) (password : List UInt8) :
    List (List UInt8) :=
  chain (blockHash md5 secret) authenticator.1 (pwBlocks (padded password))

theorem pwSent_sizes : ∀ block ∈ pwSent md5 secret authenticator password,
    block.length = radiusMd5len :=
  chain_sizes pwBlocks_sizes fun _ => by simp

theorem padded_whole (short : password.length ≤ 128) : radiusMd5len ∣ (padded password).length := by
  rw [padded_length short, pwPadded_short short]
  exact Nat.dvd_mul_left _ _

theorem pwSent_length (short : password.length ≤ 128) :
    (pwSent md5 secret authenticator password).flatten.length = (padded password).length := by
  rw [flatten_length pwSent_sizes, pwSent, chain_length, pwBlocks, List.length_map,
    List.length_range', Nat.div_mul_cancel (padded_whole short)]

theorem radiusPwencode_fits (short : password.length ≤ 128)
    (fits : (padded password).length ≤ dstsize) :
    radiusPwencode md5 secret authenticator password dstsize =
      some (pwSent md5 secret authenticator password).flatten := by
  have length := padded_length short
  have sent := @pwSent_length md5 secret password authenticator short
  have dst : password.take 128 ++ List.replicate (dstsize - min 128 password.length) 0 =
      padded password ++ List.replicate (dstsize - (padded password).length) 0 := by
    have more : (padded password).length = password.length +
        (pwPadded password.length - password.length) := by simp [padded]
    rw [List.take_of_length_le short, Nat.min_eq_right short, padded, List.append_assoc,
      List.replicate_append_replicate, ← padded, more]
    congr 2
    omega
  simp only [radiusPwencode, if_neg (Nat.not_lt.mpr fits), dst, pwencodeBlocks_eq, ← length]
  by_cases empty : (padded password).length = 0
  · rw [List.length_eq_zero_iff.mp (sent.trans empty), empty, List.take_zero]
  · obtain ⟨blocks, same⟩ := padded_whole short
    have size : max 1 ((padded password).length / radiusMd5len) =
        (padded password).length / radiusMd5len := by
      unfold radiusMd5len at same ⊢
      omega
    have slices : ((List.range' 0 ((padded password).length / radiusMd5len)).map fun n =>
          slice (padded password ++ List.replicate (dstsize - (padded password).length) 0)
            (n * radiusMd5len) radiusMd5len) = pwBlocks (padded password) := by
      apply List.map_congr_left
      intro n inside
      rw [List.mem_range'_1] at inside
      apply slice_append_left
      unfold radiusMd5len at same inside ⊢
      omega
    rw [size, slices, ← pwSent, ← sent, List.take_length]

/-- A block is decoded under what went out before it. -/
theorem pwSent_block (inside : n < (padded password).length / radiusMd5len) :
    ∃ last, (authenticator.1 :: pwSent md5 secret authenticator password)[n]? = some last ∧
      xorBytes (md5 (secret ++ last)).1
          (slice (pwSent md5 secret authenticator password).flatten (n * radiusMd5len) radiusMd5len) =
        slice (padded password) (n * radiusMd5len) radiusMd5len := by
  have here := pwBlocks_getElem? inside
  have size := pwBlocks_sizes _ (List.mem_of_getElem? here)
  obtain ⟨last, sent, before, out, same⟩ := @chain_decode (blockHash md5 secret) authenticator.1 _ _ _ _
    here (Nat.le_of_eq size) fun _ => by simp
  rw [slice_flatten pwSent_sizes out]
  exact ⟨last, before, same⟩

theorem radiusPwdecode_sent {dst : List UInt8} (short : password.length ≤ 128)
    (room : (padded password).length ≤ dst.length) :
    radiusPwdecode md5 secret authenticator (pwSent md5 secret authenticator password).flatten dst =
      some (padded password) := by
  have length := @pwSent_length md5 secret password authenticator short
  have most : (padded password).length ≤ 128 := by
    rw [padded_length short, pwPadded_short short]
    unfold radiusMd5len
    omega
  obtain ⟨blocks, whole⟩ := padded_whole short
  have none' : (padded password).length % radiusMd5len = 0 := by
    rw [whole]
    exact Nat.mul_mod_right _ _
  rw [radiusPwdecode, length, if_neg (by omega), if_neg (by simp [none']), Option.some_inj]
  by_cases empty : (padded password).length = 0
  · rw [empty, List.take_zero, List.length_eq_zero_iff.mp empty]
  · unfold radiusMd5len at whole
    have count : min 8 ((padded password).length / radiusMd5len) = blocks := by
      unfold radiusMd5len
      omega
    have quotient : (padded password).length / radiusMd5len = blocks := by
      unfold radiusMd5len
      omega
    obtain ⟨_, before, first⟩ := @pwSent_block md5 secret password authenticator 0 (by omega)
    cases before
    rw [Nat.zero_mul] at first
    have rest : ((List.range' 1 (blocks - 1)).flatMap fun n =>
        xorBytes (md5 (secret ++ slice (pwSent md5 secret authenticator password).flatten
            ((n - 1) * radiusMd5len) radiusMd5len)).1
          (slice (pwSent md5 secret authenticator password).flatten (n * radiusMd5len) radiusMd5len)) =
        slice (padded password) radiusMd5len ((blocks - 1) * radiusMd5len) := by
      have slices := @flatten_slices (padded password) 1 (blocks - 1) radiusMd5len
      rw [Nat.one_mul] at slices
      rw [← slices, ← List.flatMap_def]
      apply List.flatMap_congr
      intro n member
      rw [List.mem_range'_1] at member
      obtain ⟨last, before, same⟩ := @pwSent_block md5 secret password authenticator n (by omega)
      obtain ⟨m, rfl⟩ : ∃ m, n = m + 1 := ⟨n - 1, by omega⟩
      rw [List.getElem?_cons_succ] at before
      rw [Nat.add_sub_cancel, slice_flatten pwSent_sizes before, same]
    have joined : slice (padded password) 0 radiusMd5len ++
        slice (padded password) radiusMd5len ((blocks - 1) * radiusMd5len) = padded password := by
      have together := @slice_add _ (padded password) 0 radiusMd5len ((blocks - 1) * radiusMd5len)
      rw [Nat.zero_add] at together
      rw [← together, slice, List.drop_zero]
      apply List.take_of_length_le
      unfold radiusMd5len
      omega
    rw [count, first, rest, joined, List.take_left' rfl]

/-! ## What comes back -/

/-- A password with zeros up to a multiple of 16. -/
def zeroPadded (password : List UInt8) : List UInt8 :=
  password ++ List.replicate ((16 - password.length % 16) % 16) 0

theorem padded_eq (short : password.length ≤ 128) : padded password = zeroPadded password := by
  have whole := pwPadded_short short
  rw [padded, zeroPadded]
  congr 2
  unfold radiusMd5len at whole
  omega

/-- A key comes back, with nothing read behind it, exactly when its last block is full or the first,
and its length is a byte; a password of up to 128 bytes always does. -/
theorem obfuscation_iff (md5 : Md5) (secret : List UInt8) (authenticator : Authenticator) :
    (∀ salt src srclen dstsize keysize,
      keyBlocks srclen * 16 + 2 ≤ dstsize → srclen ≤ keysize →
        ((∃ out, radiusKeyencode md5 secret authenticator (some salt) src srclen dstsize = some out ∧
            (∀ place ∈ out.reads, place < srclen) ∧
            radiusKeydecode md5 secret authenticator out.bytes keysize = some (load src 0 srclen)) ↔
          (srclen < 16 ∨ 16 ∣ srclen + 1) ∧ srclen < 256)) ∧
    ∀ password dstsize (dst : List UInt8), password.length ≤ 128 →
      (zeroPadded password).length ≤ dstsize → (zeroPadded password).length ≤ dst.length →
        ∃ sent, radiusPwencode md5 secret authenticator password dstsize = some sent ∧
          radiusPwdecode md5 secret authenticator sent dst = some (zeroPadded password) := by
  constructor
  · intro (salt0, salt1) src srclen dstsize keysize fits room
    have decoded := @radiusKeydecode_keyAttr md5 secret src srclen salt0 salt1 authenticator keysize
      (Nat.le_trans (Nat.mod_le _ _) room)
    rw [keyAttr] at decoded
    have back : load src 0 (srclen % 256) = load src 0 srclen ↔ srclen < 256 := by
      constructor
      · intro same
        have lengths := congrArg List.length same
        simp only [load_length] at lengths
        omega
      · intro byte
        rw [Nat.mod_eq_of_lt byte]
    simp only [radiusKeyencode_fits fits, Option.some_inj, exists_eq_left', keyReads_inside_iff, decoded,
      back]
  · intro password dstsize dst short fits room
    rw [← padded_eq short] at fits room ⊢
    exact ⟨_, radiusPwencode_fits short fits, radiusPwdecode_sent short room⟩

/-- The key of 15 bytes and a password of one. -/
theorem obfuscation_fifteen :
    (∃ out, radiusKeyencode (fun _ => noAuthenticator) [] noAuthenticator (some (0, 0)) (fun _ => 7) 15 18 =
        some out ∧ (∀ place ∈ out.reads, place < 15) ∧
        radiusKeydecode (fun _ => noAuthenticator) [] noAuthenticator out.bytes 15 =
          some (load (fun _ => 7) 0 15)) ∧
      ∃ sent, radiusPwencode (fun _ => noAuthenticator) [] noAuthenticator [7] 16 = some sent ∧
        radiusPwdecode (fun _ => noAuthenticator) [] noAuthenticator sent (List.replicate 16 0) =
          some (zeroPadded [7]) := by
  have obfuscation := obfuscation_iff (fun _ => noAuthenticator) [] noAuthenticator
  exact ⟨(obfuscation.1 (0, 0) (fun _ => 7) 15 18 15 (by decide) (by decide)).mpr (by decide),
    obfuscation.2 [7] 16 (List.replicate 16 0) (by decide) (by decide) (by decide)⟩

/-- The last byte that is read for a key of 16 bytes is the 15th behind it. -/
theorem radiusKeyencode_overreads : ∃ out,
    radiusKeyencode (fun _ => noAuthenticator) [] noAuthenticator (some (0, 0)) (fun _ => 7) 16 34 =
      some out ∧ 30 ∈ out.reads ∧ ¬ ∀ place ∈ out.reads, place < 16 := by
  refine ⟨_, rfl, ?_, ?_⟩
  · decide
  · intro inside
    exact absurd (inside 30 (by decide)) (by decide)

end Rut9xx.RadiusClient
