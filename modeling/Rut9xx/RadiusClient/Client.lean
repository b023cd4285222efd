import Rut9xx.RadiusClient.Operations

namespace Rut9xx.RadiusClient

/-! # Requests and replies (`radius.c`) -/

variable {Cbp : Type} (options : Options) (md5 : Md5)

/-! ## Requests -/

/-- The identifier of a new packet: the slot that is free now when there is one for each identifier,
and else a count that steps over 0. -/
def assignId (radius : Radius Cbp) : Radius Cbp × Option UInt8 :=
  if radius.qsize = 0 then
    let (radius, qnext) := radiusQueueNext radius
    (radius, qnext.map UInt8.ofNat)
  else if radius.nextid = 0 then ({ radius with nextid := 2 }, some 1)
  else ({ radius with nextid := radius.nextid + 1 }, some radius.nextid)

/-- `random` is what the read of 16 random bytes gives. -/
def radiusDefaultPack (radius : Radius Cbp) (code : UInt8) (random : Option Authenticator) :
    Radius Cbp × Option RadiusPacket :=
  let (radius, id) := assignId radius
  (radius, id.bind fun id => random.map fun authenticator =>
    { code := code, id := id, authenticator := authenticator, payload := [] })

def radiusReq (radius : Radius Cbp) (pack : RadiusPacket) (cbp : Option Cbp) (now : Timeval)
    (allocated : Bool) : Radius Cbp × List (Output Cbp) :=
  match radiusQueueIn options md5 radius pack cbp now allocated with
  | (radius, none) => (radius, [])
  | (radius, some pack) =>
      (radius, [.sent pack (serverAddr radius radius.lastreply) (serverPort radius pack)])

/-! ## Replies -/

def authReplies : List UInt8 :=
  [codeAccessAccept, codeAccessReject, codeAccessChallenge, codeDisconnectAck, codeDisconnectNak,
    codeStatusAccept, codeStatusReject]

/-- The confirmation of a request that got a reply. -/
def confirmReply (radius : Radius Cbp) (pack packReq : RadiusPacket) (cbp : Option Cbp) :
    List (Output Cbp) :=
  if pack.code ∈ authReplies then
    if radius.cbAuthConf then [.authConf (some pack) packReq cbp] else []
  else if pack.code = codeAccountingResponse then
    if radius.cbAcctConf then [.acctConf (some pack) packReq cbp] else []
  else []

def fromServer (radius : Radius Cbp) (addr : UInt32) : Bool :=
  addr = radius.hisaddr0 ∨ addr = radius.hisaddr1

def radiusDecaps (radius : Radius Cbp) (datagram : List UInt8) (addr : UInt32) (port : UInt16) :
    Radius Cbp × List (Output Cbp) :=
  match readPacket datagram with
  | none => (radius, [])
  | some pack =>
      if pack.code = codeDisconnectRequest ∨ pack.code = codeCoaRequest then
        if !radius.coanocheck && !fromServer radius addr then (radius, [])
        else if radiusAcctcheck md5 radius.secret pack then (radius, [])
        else (radius, if radius.cbCoaInd then [.coaInd pack addr port] else [])
      else if !fromServer radius addr then (radius, [])
      else if port ≠ radius.authport ∧ port ≠ radius.acctport then (radius, [])
      else
        match radiusQueueOut md5 radius none (some pack) with
        | none => (radius, [])
        | some (radius, packReq, cbp) =>
            ({ radius with lastreply := addr ≠ radius.hisaddr0 },
              -- a full slot has its packet
              packReq.toList.flatMap fun packReq => confirmReply radius pack packReq cbp)

/-! ## The client at work -/

inductive Event where
  /-- A packet that is not queued: an answer to somebody else, or one that is given up. -/
  | defaultPack (code : UInt8) (random : Option Authenticator)
  | request (code : UInt8) (random : Option Authenticator) (attributes : List UInt8) (now : Timeval)
      (allocated : Bool)
  | reply (datagram : List UInt8) (addr : UInt32) (port : UInt16)
  | timeout (now later : Timeval)

/-- The client, and how many requests were made: their numbers are what is handed to `radius_req` as
`cbp`. -/
structure Session where
  radius : Radius Nat
  requests : Nat

def Session.step (session : Session) : Event → Session × List (Output Nat)
  | .defaultPack code random =>
      ({ session with radius := (radiusDefaultPack session.radius code random).1 }, [])
  | .request code random attributes now allocated =>
      match radiusDefaultPack session.radius code random with
      | (radius, none) => ({ session with radius := radius }, [])
      | (radius, some pack) =>
          let (radius, outputs) := radiusReq options md5 radius { pack with payload := attributes }
            (some session.requests) now allocated
          ({ radius := radius, requests := session.requests + 1 }, outputs)
  | .reply datagram addr port =>
      let (radius, outputs) := radiusDecaps md5 session.radius datagram addr port
      ({ session with radius := radius }, outputs)
  | .timeout now later =>
      let (radius, outputs) := radiusTimeout options md5 session.radius now later
      ({ session with radius := radius }, outputs)

/-- A run, with all that it puts out. -/
def Session.run (session : Session) : List Event → Session × List (Output Nat)
  | [] => (session, [])
  | event :: rest =>
      let (next, outputs) := session.step options md5 event
      let (last, more) := next.run rest
      (last, outputs ++ more)

end Rut9xx.RadiusClient
