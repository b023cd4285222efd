import Rut9xx.RadiusClient.Obfuscation

namespace Rut9xx.RadiusClient

open Data

/-! # Keys through the encoder and the decoder -/

variable {md5 : Md5} {secret : List UInt8} {src : Nat → UInt8} {srclen dstlen count n i : Nat}
  {before : List UInt8}

/-- What the blocks after a block are combined with. -/
def blockHash (md5 : Md5) (secret before : List UInt8) : List UInt8 := (md5 (secret ++ before)).1

@[simp] theorem blockHash_length : (blockHash md5 secret before).length = radiusMd5len :=
  (md5 (secret ++ before)).2

/-! ## Blocks of a key -/

def keyBlocks (srclen : Nat) : Nat := (srclen + radiusMd5len) / radiusMd5len

def plainByte (src : Nat → UInt8) (srclen n i : Nat) : UInt8 := (keyPlace srclen n i).elim 0 src

def plainBlock (src : Nat → UInt8) (srclen n : Nat) : List UInt8 :=
  (List.range radiusMd5len).map (plainByte src srclen n)

def firstBlock (src : Nat → UInt8) (srclen : Nat) : List UInt8 :=
  UInt8.ofNat srclen :: (List.range' 1 15).map (plainByte src srclen 0)

def plainBlocks (src : Nat → UInt8) (srclen : Nat) : List (List UInt8) :=
  firstBlock src srclen ::
    (List.range' 1 (keyBlocks srclen - 1)).map (plainBlock src srclen)

theorem keyBlocks_pos : 0 < keyBlocks srclen := by
  unfold keyBlocks radiusMd5len
  omega

theorem plainBlocks_sizes : ∀ block ∈ plainBlocks src srclen, block.length = radiusMd5len := by
  intro block member
  rcases List.mem_cons.mp member with rfl | later
  · simp [firstBlock, radiusMd5len]
  · obtain ⟨n, _, rfl⟩ := List.mem_map.mp later
    simp [plainBlock]

@[simp] theorem plainBlocks_length : (plainBlocks src srclen).length = keyBlocks srclen := by
  have some' := @keyBlocks_pos srclen
  simp only [plainBlocks, List.length_cons, List.length_map, List.length_range']
  omega

theorem plainBlocks_getElem? (inside : n < keyBlocks srclen) :
    (plainBlocks src srclen)[n]? =
      some (if n = 0 then firstBlock src srclen else plainBlock src srclen n) := by
  cases n with
  | zero => rfl
  | succ n =>
      have there : n < keyBlocks srclen - 1 := by omega
      rw [plainBlocks, List.getElem?_cons_succ, List.getElem?_map, List.getElem?_range' there,
        Nat.one_mul, Nat.add_comm 1 n]
      rfl

/-! ## The encoder is a chain -/

theorem keyByte_eq {b : Authenticator} :
    keyByte b src srclen n i = plainByte src srclen n i ^^^ b.1.getD i 0 := by
  unfold keyByte plainByte
  split
  · rename_i place found
    rw [found]
    rfl
  · rename_i ended
    rw [ended]
    exact UInt8.zero_xor.symm

/-- Bytes made one by one are the block under the hash. -/
theorem map_keyByte {b : Authenticator} :
    (List.range radiusMd5len).map (keyByte b src srclen n) = xorBytes b.1 (plainBlock src srclen n) := by
  have size : b.1.length = radiusMd5len := b.2
  apply List.ext_getElem
  · simp [xorBytes, plainBlock, size]
  · intro i inside _
    have here : i < b.1.length := by simpa [size] using inside
    simp [xorBytes, plainBlock, keyByte_eq, here]

theorem map_keyByte_first {b : Authenticator} :
    (UInt8.ofNat srclen ^^^ b.1.getD 0 0) :: (List.range' 1 15).map (keyByte b src srclen 0) =
      xorBytes b.1 (firstBlock src srclen) := by
  have size : b.1.length = 16 := b.2
  apply List.ext_getElem
  · simp [xorBytes, firstBlock, size]
  · intro i inside _
    have here : i < b.1.length := by simpa [size] using inside
    cases i with
    | zero => simp [xorBytes, firstBlock, here]
    | succ i => simp [xorBytes, firstBlock, keyByte_eq, here, Nat.add_comm]

theorem keyencodeBlocks_eq : keyencodeBlocks md5 secret src srclen count n before =
    (chain (blockHash md5 secret) before
      ((List.range' n count).map (plainBlock src srclen))).flatten := by
  induction count generalizing n before with
  | zero => rfl
  | succ count ih =>
      simp only [keyencodeBlocks, List.range'_succ, List.map_cons, chain, List.flatten_cons, ih,
        map_keyByte]
      rfl

/-- The places of the key that are read. -/
def keyReads (srclen : Nat) : List Nat :=
  (List.range' 1 15).filterMap (keyPlace srclen 0) ++
    (List.range' 1 (keyBlocks srclen - 1)).flatMap fun n =>
      (List.range radiusMd5len).filterMap (keyPlace srclen n)

/-- A key whose blocks fit is encoded into a salt and the chain of its blocks. -/
theorem radiusKeyencode_fits {authenticator : Authenticator} {salt0 salt1 : UInt8} {dstsize : Nat}
    (fits : keyBlocks srclen * radiusMd5len + 2 ≤ dstsize) :
    radiusKeyencode md5 secret authenticator (some (salt0, salt1)) src srclen dstsize =
      some ⟨[salt0, salt1] ++ (chain (blockHash md5 secret) (authenticator.1 ++ [salt0, salt1])
        (plainBlocks src srclen)).flatten, keyReads srclen⟩ := by
  have blocks : (if (srclen + 1) / radiusMd5len * radiusMd5len < srclen + 1 then
      (srclen + 1) / radiusMd5len + 1 else (srclen + 1) / radiusMd5len) = keyBlocks srclen := by
    unfold keyBlocks radiusMd5len
    split <;> omega
  simp only [radiusKeyencode, blocks, if_neg (Nat.not_lt.mpr fits), Option.map_some,
    map_keyByte_first, keyencodeBlocks_eq, plainBlocks, chain, List.flatten_cons, List.append_assoc]
  rfl

/-! ## What is read -/

theorem keyPlace_eq_some_iff {place : Nat} :
    keyPlace srclen n i = some place ↔ (i : Int) - 1 < srclen ∧ i + n * radiusMd5len - 1 = place := by
  unfold keyPlace
  split <;> simp [*]

/-- Only the last block can be read behind the key, and is as soon as it is not full. -/
theorem keyReads_inside_iff :
    (∀ place ∈ keyReads srclen, place < srclen) ↔ srclen < 16 ∨ 16 ∣ srclen + 1 := by
  simp only [keyReads, List.mem_append, List.mem_filterMap, List.mem_flatMap, keyPlace_eq_some_iff,
    List.mem_range, List.mem_range'_1, radiusMd5len]
  constructor
  · intro inside
    by_contra outside
    have last := inside (15 + (keyBlocks srclen - 1) * 16 - 1) (.inr
      ⟨keyBlocks srclen - 1, by unfold keyBlocks radiusMd5len; omega, 15, by omega, by omega, rfl⟩)
    unfold keyBlocks radiusMd5len at last
    omega
  · intro full place read
    rcases read with ⟨i, bounds, early, same⟩ | ⟨n, block, i, bounds, early, same⟩
    · omega
    · unfold keyBlocks radiusMd5len at block
      omega

/-! ## The decoder -/

section Decoder

variable {iv : List UInt8} {salt0 salt1 : UInt8} {authenticator : Authenticator}

/-- The attribute after its vendor length. -/
def keyAttr (md5 : Md5) (secret iv : List UInt8) (src : Nat → UInt8) (srclen : Nat)
    (salt0 salt1 : UInt8) : List UInt8 :=
  [salt0, salt1] ++ (chain (blockHash md5 secret) iv (plainBlocks src srclen)).flatten

theorem keyAttr_sizes : ∀ block ∈ chain (blockHash md5 secret) iv (plainBlocks src srclen),
    block.length = radiusMd5len :=
  chain_sizes plainBlocks_sizes fun _ => by simp

theorem keyAttr_length :
    (keyAttr md5 secret iv src srclen salt0 salt1).length = keyBlocks srclen * radiusMd5len + 2 := by
  simp only [keyAttr, List.length_append, flatten_length keyAttr_sizes, chain_length,
    plainBlocks_length, List.length_cons, List.length_nil]
  omega

/-- A block as it went out, at its place in the attribute. -/
theorem keyAttr_block {block : List UInt8}
    (here : (chain (blockHash md5 secret) iv (plainBlocks src srclen))[n]? = some block) :
    slice (keyAttr md5 secret iv src srclen salt0 salt1) (2 + n * radiusMd5len) radiusMd5len = block := by
  have place := slice_flatten keyAttr_sizes here
  rw [slice] at place
  rw [slice, keyAttr, ← List.drop_drop]
  exact place

/-- Under the hash of the block before, a byte of a block is the byte it was made of. -/
theorem keyAttr_plain {last block : List UInt8} (inside : i < radiusMd5len)
    (size : block.length = radiusMd5len)
    (out : (chain (blockHash md5 secret) iv (plainBlocks src srclen))[n]? =
      some (xorBytes (blockHash md5 secret last) block)) :
    (keyAttr md5 secret iv src srclen salt0 salt1).getD (i + 2 + n * radiusMd5len) 0 ^^^
      (blockHash md5 secret last).getD i 0 = block.getD i 0 := by
  have place : i + 2 + n * radiusMd5len = 2 + n * radiusMd5len + i := by omega
  rw [place, slice_getD (keyAttr_block out) inside, xorBytes_getD (by rw [blockHash_length, size]),
    UInt8.xor_assoc, UInt8.xor_self, UInt8.xor_zero]

/-- The byte of the key at a place counted from the length byte. -/
def keyAt (src : Nat → UInt8) (dstlen place : Nat) : Option UInt8 :=
  if place < dstlen + 1 then some (src (place - 1)) else none

theorem plainBlocks_getD {block : List UInt8} (inside : i < radiusMd5len) (past : 0 < n ∨ 0 < i)
    (here : (plainBlocks src srclen)[n]? = some block) : block.getD i 0 = plainByte src srclen n i := by
  have blocks : n < keyBlocks srclen := by
    rw [← @plainBlocks_length src]
    exact (List.getElem?_eq_some_iff.mp here).1
  rw [plainBlocks_getElem? blocks, Option.some_inj] at here
  subst here
  unfold radiusMd5len at inside
  by_cases first : n = 0
  · obtain ⟨j, rfl⟩ : ∃ j, i = j + 1 := ⟨i - 1, by omega⟩
    have short : j < 15 := by omega
    simp [first, firstBlock, short, Nat.add_comm]
  · simp [first, plainBlock, radiusMd5len, inside]

theorem keydecodeByte_keyAttr {last block : List UInt8} {b : Authenticator}
    (hash : b.1 = blockHash md5 secret last) (inside : i < radiusMd5len) (past : 0 < n ∨ 0 < i)
    (short : dstlen ≤ srclen) (here : (plainBlocks src srclen)[n]? = some block)
    (out : (chain (blockHash md5 secret) iv (plainBlocks src srclen))[n]? =
      some (xorBytes (blockHash md5 secret last) block)) :
    keydecodeByte b (keyAttr md5 secret iv src srclen salt0 salt1) dstlen n i =
      keyAt src dstlen (i + n * radiusMd5len) := by
  have size := plainBlocks_sizes block (List.mem_of_getElem? here)
  rw [keydecodeByte, hash, keyAttr_plain inside size out, plainBlocks_getD inside past here]
  by_cases early : i + n * radiusMd5len < dstlen + 1
  · rw [keyAt, if_pos early, if_pos (by omega), plainByte, keyPlace,
      if_pos (by unfold radiusMd5len at early; omega)]
    rfl
  · rw [keyAt, if_neg early, if_neg (by omega)]

/-! ### The bytes in their order -/

theorem filterMap_keyAt_block : (List.range radiusMd5len).filterMap
      (fun i => keyAt src dstlen (i + n * radiusMd5len)) =
    (List.range' (n * radiusMd5len) radiusMd5len).filterMap (keyAt src dstlen) := by
  rw [List.range'_eq_map_range, List.filterMap_map]
  congr 1
  funext i
  rw [Function.comp, Nat.add_comm]

theorem filterMap_keyAt (whole : dstlen ≤ count) :
    (List.range' 1 count).filterMap (keyAt src dstlen) = load src 0 dstlen := by
  obtain ⟨more, rfl⟩ := Nat.exists_eq_add_of_le whole
  have none' : (List.range' (1 + dstlen) more).filterMap (keyAt src dstlen) = [] := by
    rw [List.filterMap_eq_nil_iff]
    intro place behind
    rw [List.mem_range'_1] at behind
    exact if_neg (by omega)
  have every : (List.range' 1 dstlen).filterMap (keyAt src dstlen) =
      (List.range' 1 dstlen).map fun place => src (place - 1) := by
    rw [← List.filterMap_eq_map]
    apply List.filterMap_congr
    intro place inside
    rw [List.mem_range'_1] at inside
    exact if_pos (by omega)
  rw [← List.range'_append_1, List.filterMap_append, none', every, List.append_nil,
    List.range'_eq_map_range, List.map_map, load]
  apply List.map_congr_left
  intro place _
  simp [Function.comp]

theorem keydecode_first {b : Authenticator} (hash : b.1 = blockHash md5 secret iv)
    (short : dstlen ≤ srclen) :
    (List.range' 1 15).filterMap
        (keydecodeByte b (keyAttr md5 secret iv src srclen salt0 salt1) dstlen 0) =
      (List.range' 1 15).filterMap (keyAt src dstlen) := by
  have here := @plainBlocks_getElem? src srclen 0 keyBlocks_pos
  obtain ⟨_, first, out⟩ := @chain_getElem? (blockHash md5 secret) iv _ _ 0 here
  cases first
  apply List.filterMap_congr
  intro i inside
  rw [List.mem_range'_1] at inside
  rw [keydecodeByte_keyAttr hash (by unfold radiusMd5len; omega) (.inr inside.1) short here out,
    Nat.zero_mul, Nat.add_zero]

theorem keydecode_block (past : 1 ≤ n) (inside : n < keyBlocks srclen) (short : dstlen ≤ srclen) :
    (List.range radiusMd5len).filterMap
        (keydecodeByte
          (md5 (secret ++ slice (keyAttr md5 secret iv src srclen salt0 salt1)
            (2 + (n - 1) * radiusMd5len) radiusMd5len))
          (keyAttr md5 secret iv src srclen salt0 salt1) dstlen n) =
      (List.range' (n * radiusMd5len) radiusMd5len).filterMap (keyAt src dstlen) := by
  obtain ⟨m, rfl⟩ : ∃ m, n = m + 1 := ⟨n - 1, by omega⟩
  have here := @plainBlocks_getElem? src srclen _ inside
  obtain ⟨last, before, out⟩ := @chain_getElem? (blockHash md5 secret) iv _ _ _ here
  rw [List.getElem?_cons_succ] at before
  rw [Nat.add_sub_cancel, keyAttr_block before, ← filterMap_keyAt_block]
  apply List.filterMap_congr
  intro i member
  exact keydecodeByte_keyAttr rfl (List.mem_range.mp member) (.inl past) short here out

theorem keydecode_later (short : dstlen ≤ srclen) :
    ((List.range' 1 (keyBlocks srclen - 1)).flatMap fun n =>
        (List.range radiusMd5len).filterMap
          (keydecodeByte
            (md5 (secret ++ slice (keyAttr md5 secret iv src srclen salt0 salt1)
              (2 + (n - 1) * radiusMd5len) radiusMd5len))
            (keyAttr md5 secret iv src srclen salt0 salt1) dstlen n)) =
      (List.range' 16 ((keyBlocks srclen - 1) * radiusMd5len)).filterMap (keyAt src dstlen) := by
  have blocks := @flatMap_range' 1 (keyBlocks srclen - 1) radiusMd5len
  rw [Nat.one_mul] at blocks
  rw [← show radiusMd5len = 16 from rfl, ← blocks, List.filterMap_flatMap]
  apply List.flatMap_congr
  intro n member
  rw [List.mem_range'_1] at member
  exact keydecode_block member.1 (by omega) short

/-- The decoder gives back as much of the key as the length byte counts. -/
theorem radiusKeydecode_keyAttr {dstsize : Nat} (room : srclen % 256 ≤ dstsize) :
    radiusKeydecode md5 secret authenticator
        (keyAttr md5 secret (authenticator.1 ++ [salt0, salt1]) src srclen salt0 salt1) dstsize =
      some (load src 0 (srclen % 256)) := by
  have whole : srclen + 1 ≤ keyBlocks srclen * 16 := by
    unfold keyBlocks radiusMd5len
    omega
  have blocks : (keyBlocks srclen * radiusMd5len + 2 - 2) / radiusMd5len = keyBlocks srclen := by
    rw [Nat.add_sub_cancel]
    exact Nat.mul_div_cancel _ (by decide)
  have short : srclen % 256 ≤ srclen := Nat.mod_le _ _
  have salt : (keyAttr md5 secret (authenticator.1 ++ [salt0, salt1]) src srclen salt0 salt1).take 2 =
      [salt0, salt1] := rfl
  have counted : (keyAttr md5 secret (authenticator.1 ++ [salt0, salt1]) src srclen salt0 salt1).getD 2 0 ^^^
      (md5 (secret ++ (authenticator.1 ++ [salt0, salt1]))).1.getD 0 0 = UInt8.ofNat srclen := by
    have here := @plainBlocks_getElem? src srclen 0 keyBlocks_pos
    obtain ⟨_, first, out⟩ := @chain_getElem? (blockHash md5 secret)
      (authenticator.1 ++ [salt0, salt1]) _ _ 0 here
    cases first
    have plain : (keyAttr md5 secret (authenticator.1 ++ [salt0, salt1]) src srclen salt0 salt1).getD
        (0 + 2 + 0 * radiusMd5len) 0 ^^^ (blockHash md5 secret (authenticator.1 ++ [salt0, salt1])).getD 0 0 =
          UInt8.ofNat srclen :=
      keyAttr_plain (show 0 < radiusMd5len by decide) (plainBlocks_sizes _ (List.mem_of_getElem? here)) out
    rw [Nat.zero_mul] at plain
    exact plain
  have byte : (UInt8.ofNat srclen).toNat = srclen % 256 := by simp
  have joined := @List.range'_append_1 1 15 ((keyBlocks srclen - 1) * radiusMd5len)
  rw [radiusKeydecode, keyAttr_length, if_neg (by unfold radiusMd5len; omega)]
  simp only [blocks, salt, List.append_assoc, counted, byte]
  rw [if_neg (by simp), if_neg (by unfold radiusMd5len; omega), if_neg (by omega),
    keydecode_first rfl short, keydecode_later short, ← List.filterMap_append, joined,
    filterMap_keyAt]
  unfold radiusMd5len
  omega

end Decoder

end Rut9xx.RadiusClient
