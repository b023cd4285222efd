import Rut9xx.Data.Endian

namespace Rut9xx.RadiusClient

open Data

/-! # RADIUS packets (`radius.c`)

MD5 is a parameter. -/

abbrev Authenticator := { bytes : List UInt8 // bytes.length = 16 }

abbrev Md5 := List UInt8 → Authenticator

def radiusAuthlen : Nat := 16

def radiusHdrsize : Nat := 20

def radiusPacksize : Nat := 1600

def codeAccessRequest : UInt8 := 1
def codeAccessAccept : UInt8 := 2
def codeAccessReject : UInt8 := 3
def codeAccountingRequest : UInt8 := 4
def codeAccountingResponse : UInt8 := 5
def codeAccessChallenge : UInt8 := 11
def codeDisconnectRequest : UInt8 := 40
def codeDisconnectAck : UInt8 := 41
def codeDisconnectNak : UInt8 := 42
def codeCoaRequest : UInt8 := 43
def codeStatusAccept : UInt8 := 47
def codeStatusReject : UInt8 := 48

def attrMessageAuthenticator : UInt8 := 80

/-- The `payload` of a packet is the part of the buffer that its length field covers. -/
structure RadiusPacket where
  code : UInt8
  id : UInt8
  authenticator : Authenticator
  payload : List UInt8
  deriving DecidableEq

def RadiusPacket.length (pack : RadiusPacket) : UInt16 :=
  UInt16.ofNat (radiusHdrsize + pack.payload.length)

/-- The bytes of a packet, with `authenticator` in the place of its own. -/
def RadiusPacket.bytesWith (pack : RadiusPacket) (authenticator : Authenticator) : List UInt8 :=
  [pack.code, pack.id] ++ be16 pack.length ++ authenticator.1 ++ pack.payload

def noAuthenticator : Authenticator := ⟨List.replicate 16 0, List.length_replicate⟩

/-! ## Requests -/

def keyPad (pad : UInt8) (key : List UInt8) : List UInt8 :=
  (List.range 64).map fun i => pad ^^^ key.getD i 0

def radiusHmacMd5 (md5 : Md5) (secret : List UInt8) (pack : RadiusPacket) : Authenticator :=
  let key := if 64 < secret.length then (md5 secret).1 else secret
  let inner := md5 (keyPad 0x36 key ++ pack.bytesWith pack.authenticator)
  md5 (keyPad 0x5c key ++ inner.1)

/-- The walk of `radius_getattr` for the first attribute of a type: where the attribute begins. -/
def radiusGetattr (payload : List UInt8) (type : UInt8) : Nat → Nat → Option Nat
  | 0, _ => none
  | fuel + 1, offset =>
      if payload.length ≤ offset then none
      else
        let t := payload.getD offset 0
        let l := payload.getD (offset + 1) 0
        if t = 0 ∨ l < 2 then none
        else if t = type then some offset
        else radiusGetattr payload type fuel (offset + l.toNat)

/-- Every attribute moves the walk on, so that fuel for the payload is enough. -/
def fillMessageAuthenticator (md5 : Md5) (secret : List UInt8) (pack : RadiusPacket) :
    RadiusPacket :=
  match radiusGetattr pack.payload attrMessageAuthenticator pack.payload.length 0 with
  | none => pack
  | some offset =>
      let digest := (radiusHmacMd5 md5 secret pack).1
      { pack with
        payload := (pack.payload.take (offset + 2) ++ digest ++
          pack.payload.drop (offset + 2 + radiusAuthlen)).take pack.payload.length }

def radiusAcctreqAuthenticator (md5 : Md5) (secret : List UInt8) (pack : RadiusPacket) :
    RadiusPacket :=
  { pack with authenticator := md5 (pack.bytesWith noAuthenticator ++ secret) }

/-- What `radius_queue_in` does to a packet before it is stored. -/
def signRequest (md5 : Md5) (secret : List UInt8) (pack : RadiusPacket) : RadiusPacket :=
  let pack := fillMessageAuthenticator md5 secret pack
  if pack.code = codeAccountingRequest then radiusAcctreqAuthenticator md5 secret pack else pack

@[simp] theorem signRequest_id (md5 : Md5) (secret : List UInt8) (pack : RadiusPacket) :
    (signRequest md5 secret pack).id = pack.id := by
  have filled : (fillMessageAuthenticator md5 secret pack).id = pack.id := by
    rw [fillMessageAuthenticator]
    split
    · rfl
    · rfl
  rw [signRequest]
  split
  · exact filled
  · exact filled

/-! ## Replies -/

/-- Whether the authenticator on a reply differs from the one that answers the request. -/
def radiusAuthcheck (md5 : Md5) (secret : List UInt8) (pack packReq : RadiusPacket) : Bool :=
  pack.authenticator ≠ md5 (pack.bytesWith packReq.authenticator ++ secret)

def radiusAcctcheck (md5 : Md5) (secret : List UInt8) (pack : RadiusPacket) : Bool :=
  pack.authenticator ≠ md5 (pack.bytesWith noAuthenticator ++ secret)

/-- The packet in a datagram. What does not fit into the buffer is cut off, and a packet that is too
short or has the wrong length field is refused. -/
def readPacket (datagram : List UInt8) : Option RadiusPacket :=
  match datagram.take radiusPacksize with
  | code :: id :: lengthHigh :: lengthLow :: rest =>
      if room : radiusAuthlen ≤ rest.length then
        let pack : RadiusPacket := {
          code := code
          id := id
          authenticator := ⟨rest.take 16, by
            rw [List.length_take]
            exact Nat.min_eq_left room⟩
          payload := rest.drop 16 }
        if [lengthHigh, lengthLow] = be16 pack.length then some pack else none
      else none
  | _ => none

end Rut9xx.RadiusClient
