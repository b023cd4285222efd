import Rut9xx.Data.XorChain
import Rut9xx.RadiusClient.Packet

namespace Rut9xx.RadiusClient

open Data

/-! # Obfuscated keys and passwords (`radius.c`)

Sizes are small enough for an `int`. A result is what stands in the first `*dstlen` bytes of `dst`. -/

def radiusMd5len : Nat := 16

/-! ## Keys -/

/-- The place of `src` that byte `i` of block `n` is made of. Whichever block it is, `i - 1` is what
is compared with the length. -/
def keyPlace (srclen n i : Nat) : Option Nat :=
  if (i : Int) - 1 < srclen then some (i + n * radiusMd5len - 1) else none

def keyByte (b : Authenticator) (src : Nat → UInt8) (srclen n i : Nat) : UInt8 :=
  match keyPlace srclen n i with
  | some place => src place ^^^ b.1.getD i 0
  | none => b.1.getD i 0

/-- The blocks from `n` on, each under the hash of the one before. -/
def keyencodeBlocks (md5 : Md5) (secret : List UInt8) (src : Nat → UInt8) (srclen : Nat) :
    Nat → Nat → List UInt8 → List UInt8
  | 0, _, _ => []
  | count + 1, n, before =>
      let b := md5 (secret ++ before)
      let block := (List.range radiusMd5len).map (keyByte b src srclen n)
      block ++ keyencodeBlocks md5 secret src srclen count (n + 1) block

/-- What is written, and the places of `src` that are read. -/
structure Encoded where
  bytes : List UInt8
  reads : List Nat

/-- `salt` is what the read of two random bytes gives. -/
def radiusKeyencode (md5 : Md5) (secret : List UInt8) (authenticator : Authenticator)
    (salt : Option (UInt8 × UInt8)) (src : Nat → UInt8) (srclen dstsize : Nat) : Option Encoded :=
  let blocks := (srclen + 1) / radiusMd5len
  let blocks := if blocks * radiusMd5len < srclen + 1 then blocks + 1 else blocks
  if blocks * radiusMd5len + 2 > dstsize then none
  else
    salt.map fun (salt0, salt1) =>
      let b := md5 (secret ++ authenticator.1 ++ [salt0, salt1])
      let first := (UInt8.ofNat srclen ^^^ b.1.getD 0 0) ::
        (List.range' 1 15).map (keyByte b src srclen 0)
      { bytes := [salt0, salt1] ++ first ++
          keyencodeBlocks md5 secret src srclen (blocks - 1) 1 first
        reads := (List.range' 1 15).filterMap (keyPlace srclen 0) ++
          (List.range' 1 (blocks - 1)).flatMap fun n =>
            (List.range radiusMd5len).filterMap (keyPlace srclen n) }

/-- The byte of the key that byte `i` of block `n` is for, unless the key has ended. -/
def keydecodeByte (b : Authenticator) (src : List UInt8) (dstlen n i : Nat) : Option UInt8 :=
  if (i : Int) - 1 + n * radiusMd5len < dstlen then
    some (src.getD (i + 2 + n * radiusMd5len) 0 ^^^ b.1.getD i 0)
  else none

def radiusKeydecode (md5 : Md5) (secret : List UInt8) (authenticator : Authenticator)
    (src : List UInt8) (dstsize : Nat) : Option (List UInt8) :=
  if src.length < 18 then none
  else
    let blocks := (src.length - 2) / radiusMd5len
    if blocks * radiusMd5len + 2 ≠ src.length then none
    else
      let b := md5 (secret ++ authenticator.1 ++ src.take 2)
      let dstlen := (src.getD 2 0 ^^^ b.1.getD 0 0).toNat
      if dstlen > src.length - 3 then none
      else if dstlen > dstsize then none
      else
        some ((List.range' 1 15).filterMap (keydecodeByte b src dstlen 0) ++
          (List.range' 1 (blocks - 1)).flatMap fun n =>
            let b := md5 (secret ++ slice src (2 + (n - 1) * radiusMd5len) radiusMd5len)
            (List.range radiusMd5len).filterMap (keydecodeByte b src dstlen n))

/-! ## Passwords -/

def pwencodeBlocks (md5 : Md5) (secret dst : List UInt8) : Nat → Nat → List UInt8 → List UInt8
  | 0, _, _ => []
  | count + 1, n, before =>
      let block := xorBytes (md5 (secret ++ before)).1 (slice dst (n * radiusMd5len) radiusMd5len)
      block ++ pwencodeBlocks md5 secret dst count (n + 1) block

def pwPadded (srclen : Nat) : Nat :=
  if srclen &&& 0x0f ≠ 0 then (srclen &&& 0xf0) + 0x10 else srclen

/-- The first block is made of any password, even of one without bytes. -/
def radiusPwencode (md5 : Md5) (secret : List UInt8) (authenticator : Authenticator)
    (src : List UInt8) (dstsize : Nat) : Option (List UInt8) :=
  let dstlen := pwPadded src.length
  if dstsize < dstlen then none
  else
    let dst := src.take 128 ++ List.replicate (dstsize - min 128 src.length) 0
    some ((pwencodeBlocks md5 secret dst (max 1 (dstlen / radiusMd5len)) 0 authenticator.1).take dstlen)

/-- `dst` is the destination as it is before; no more than 128 bytes are decoded. -/
def radiusPwdecode (md5 : Md5) (secret : List UInt8) (authenticator : Authenticator)
    (src dst : List UInt8) : Option (List UInt8) :=
  if src.length > dst.length then none
  else if src.length % radiusMd5len ≠ 0 then none
  else
    let first := xorBytes (md5 (secret ++ authenticator.1)).1 (slice src 0 radiusMd5len)
    let rest := (List.range' 1 (min 8 (src.length / radiusMd5len) - 1)).flatMap fun n =>
      xorBytes (md5 (secret ++ slice src ((n - 1) * radiusMd5len) radiusMd5len)).1
        (slice src (n * radiusMd5len) radiusMd5len)
    let decoded := first ++ rest
    some ((decoded ++ dst.drop decoded.length).take src.length)

end Rut9xx.RadiusClient
