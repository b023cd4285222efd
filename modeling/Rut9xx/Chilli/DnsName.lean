import Rut9xx.Data.Buffer
import Rut9xx.Data.Endian
import Mathlib.Data.UInt

namespace Rut9xx.Chilli

open Data

section

/-- How a call of the DNS parser ends without a result: it returns -1, or it has read or
written outside the bytes it was given. -/
inductive DnsStop where
  | refused
  | readOutside
  | writeOutside
  deriving DecidableEq

def readByte (bytes : List UInt8) (position : Nat) : Except DnsStop UInt8 :=
  match bytes[position]? with
  | some byte => .ok byte
  | none => .error .readOutside

def readBytes (bytes : List UInt8) (position count : Nat) : Except DnsStop (List UInt8) :=
  if position + count ≤ bytes.length then .ok (slice bytes position count)
  else .error .readOutside

def writeBytes (bytes : List UInt8) (position : Nat) (data : List UInt8) :
    Except DnsStop (List UInt8) :=
  match writeAt bytes position data with
  | some after => .ok after
  | none => .error .writeOutside

/-- `strlen` -/
def stringLength (bytes : List UInt8) : Except DnsStop Nat :=
  match bytes.findIdx? (· = 0) with
  | some length => .ok length
  | none => .error .readOutside

/-- The buffer, where `d` points into it, and the room `dlen` behind it. -/
structure DnsName where
  data : List UInt8
  d : Option Nat
  dlen : Nat

/-- `if (d && d[0]) d = 0;` -/
def DnsName.enter (name : DnsName) : Except DnsStop DnsName :=
  match name.d with
  | none => .ok name
  | some place => do
      let first ← readByte name.data place
      .ok (if first = 0 then name else { name with d := none })

/-- A label of `length` bytes and its dot. -/
def DnsName.copyLabel (packet : List UInt8) (name : DnsName) (position length : Nat) :
    Except DnsStop DnsName :=
  match name.d with
  | none => .ok name
  | some place => do
      let text ← readBytes packet position length
      let data ← writeBytes name.data place text
      let data ← writeBytes data (place + length) [46]
      .ok ⟨data, some (place + length + 1), name.dlen - length - 1⟩

def isPointer (l : UInt8) : Bool := l &&& 0xC0 = 0xC0

def pointerOffset (l low : UInt8) : Nat := (l &&& 0x3F).toNat * 2 ^ 8 + low.toNat

/-- `reslen--` and `reslen -= l` on a `size_t`. -/
def reslenAfter (reslen : Nat) (l : UInt8) : Nat := (reslen - 1 + (2 ^ 32 - l.toNat)) % 2 ^ 32

/-- The loop of `dns_fullname`, with the recursive call in `follow`. -/
def nameLoop (packet : List UInt8) (olen : Nat)
    (follow : DnsName → Nat → Nat → Except DnsStop (Nat × DnsName))
    (name : DnsName) (position reslen : Nat) : Except DnsStop (Nat × DnsName) :=
  if reslen = 0 then .ok (0, name)
  else if inside : position < packet.length then
    let l := packet[position]
    if l = 0 then .ok (1, name)
    else if isPointer l then
      if reslen = 1 then .error .refused
      else do
        let low ← readByte packet (position + 1)
        let offset := pointerOffset l low
        if offset > olen then .error .refused
        else do
          let (_, inner) ← follow name offset (olen - offset)
          .ok (2, { name with data := inner.data })
    else if l.toNat ≥ name.dlen ∨ l.toNat ≥ olen then .error .refused
    else do
      let next ← name.copyLabel packet (position + 1) l.toNat
      let (ret, last) ← nameLoop packet olen follow next (position + 1 + l.toNat)
        (reslenAfter reslen l)
      .ok (1 + l.toNat + ret, last)
  else .error .readOutside
termination_by packet.length - position

/-- `dns_fullname` with `levels` of its 15 levels left. -/
def nameLevel (packet : List UInt8) (olen : Nat) :
    Nat → DnsName → Nat → Nat → Except DnsStop (Nat × DnsName)
  | 0, _, _, _ => .error .refused
  | levels + 1, name, position, reslen => do
      let name ← name.enter
      nameLoop packet olen (nameLevel packet olen levels) name position reslen

/-- The dot behind the last label is cut off at level 0. -/
def trimName (data : List UInt8) (d : Option Nat) : Except DnsStop (List UInt8) :=
  match d with
  | none => .ok data
  | some place => do
      let length ← stringLength data
      .ok (if length ≠ 0 ∧ length = place ∧ data[length - 1]? = some 46 then
        data.set (length - 1) 0 else data)

/-- `dns_fullname` at level 0, storing to `data`: the bytes it went past, and the buffer. -/
def dnsFullname (packet : List UInt8) (olen : Nat) (data : List UInt8) (dlen position reslen : Nat) :
    Except DnsStop (Nat × List UInt8) := do
  let (ret, name) ← nameLevel packet olen 15 ⟨data, some 0, dlen⟩ position reslen
  let data ← trimName name.data name.d
  .ok (ret, data)

end

section

structure DnsOptions where
  debug : Bool
  dnsparanoia : Bool
  /-- The domains before the first null pointer. -/
  uamdomains : List (List UInt8)
  uamdomainTtl : UInt32
  ipv6 : Bool
  /-- `garden_check_domainfile`, where a domain file is configured. -/
  domainfile : Option (List UInt8 → Int)

/-- What `dhcp_dns` hands from one record to the next. -/
structure DnsWalk where
  packet : List UInt8
  /-- `*pktp`, as an offset from the DNS header. -/
  position : Nat
  left : Nat
  question : List UInt8
  qmatch : Int
  modified : Int
  /-- The addresses given to `pass_through_add`, the last one first. -/
  garden : List (List UInt8)

def dnsHlen : Nat := 12

def pktIpPlen : Nat := 1500

def questionSize : Nat := 512

/-- `memset(name, 0, sizeof(name))` -/
def nameBuffer : List UInt8 := List.replicate pktIpPlen 0

def DnsWalk.olen (walk : DnsWalk) : Nat := walk.packet.length - dnsHlen

def beNumber (bytes : List UInt8) : Nat := bytes.foldl (fun number byte => number * 2 ^ 8 + byte.toNat) 0

def readNumber (packet : List UInt8) (position count : Nat) : Except DnsStop Nat := do
  let bytes ← readBytes packet position count
  .ok (beNumber bytes)

def matchesDomain (question domain : List UInt8) : Bool :=
  question.length ≠ 0 && domain.length ≠ 0 &&
    (domain = question ||
      (question.length > domain.length &&
        (domain[0]? = some 46 || question[question.length - domain.length - 1]? = some 46) &&
          domain = question.drop (question.length - domain.length)))

/-- The loop over `_options.uamdomains`. -/
def matchUamdomains (options : DnsOptions) (isReq : Bool) (qmatch : Int) (question : List UInt8) :
    Except DnsStop Int :=
  if !isReq && qmatch = -1 && options.uamdomains ≠ [] then do
    let length ← stringLength question
    .ok (if options.uamdomains.any (matchesDomain (question.take length)) then 1 else qmatch)
  else .ok qmatch

def matchDomainfile (options : DnsOptions) (isReq : Bool) (qmatch : Int) (question : List UInt8) :
    Except DnsStop Int :=
  match options.domainfile with
  | some check =>
      if !isReq && qmatch = -1 then do
        let length ← stringLength question
        .ok (check (question.take length))
      else .ok qmatch
  | none => .ok qmatch

def logQuestion (options : DnsOptions) (question : List UInt8) : Except DnsStop Unit :=
  if options.debug then do
    let _ ← stringLength question
    .ok ()
  else .ok ()

/-- The type that the question of a client over IPv6 is changed to. -/
def questionType (options : DnsOptions) (isReq : Bool) (type : Nat) : Option (List UInt8) :=
  if options.ipv6 then
    if isReq && type = 28 then some [0, 1]
    else if !isReq && type = 1 then some [0, 28]
    else none
  else none

def copyQuestion (options : DnsOptions) (isReq : Bool) (walk : DnsWalk) (position left type : Nat) :
    Except DnsStop DnsWalk := do
  let (_, question) ←
    dnsFullname walk.packet walk.olen walk.question questionSize walk.position walk.left
  logQuestion options question
  let qmatch ← matchUamdomains options isReq walk.qmatch question
  let qmatch ← matchDomainfile options isReq qmatch question
  let walk := { walk with position := position + 4, left := left - 4, question, qmatch }
  match questionType options isReq type with
  | some bytes => do
      let packet ← writeBytes walk.packet position bytes
      .ok { walk with packet, modified := 1 }
  | none => .ok walk

/-- The record types that are let through, and the mark `required` they get. -/
def recordRequired (type : Nat) : Option Bool :=
  if type ∈ [1, 2, 5, 15, 28] then some true
  else if type ∈ [6, 12, 16, 29, 33, 41, 47] then some false
  else none

/-- `for (offset=0; offset < rdlen; offset += 4)`, for `count` turns. -/
def readAddresses (packet : List UInt8) (position : Nat) :
    Nat → Except DnsStop (List (List UInt8))
  | 0 => .ok []
  | count + 1 => do
      let address ← readBytes packet position 4
      let rest ← readAddresses packet (position + 4) count
      .ok (address :: rest)

/-- `%.*s` of at most `length` bytes. -/
def printText (text : List UInt8) (length : Nat) : Except DnsStop Unit :=
  if length ≤ text.length ∨ 0 ∈ text then .ok () else .error .readOutside

/-- The strings of a TXT record, as they are logged. -/
def logText (text : List UInt8) (txtlen : Nat) : Except DnsStop Unit :=
  if txtlen = 0 then .ok ()
  else
    match text with
    | [] => .error .readOutside
    | l :: rest =>
        if l = 0 then .ok ()
        else do
          printText rest l.toNat
          logText (rest.drop l.toNat) (txtlen - 1 - l.toNat)
termination_by txtlen

def recordData (options : DnsOptions) (mdns : Bool) (walk : DnsWalk) (position type rdlen : Nat) :
    Except DnsStop DnsWalk :=
  if type = 1 then
    if mdns then do
      let _ ← readAddresses walk.packet position ((rdlen + 3) / 4)
      .ok walk
    else if walk.qmatch = 1 then do
      let addresses ← readAddresses walk.packet position ((rdlen + 3) / 4)
      .ok { walk with garden := addresses.reverse ++ walk.garden }
    else .ok walk
  else if type = 16 ∧ options.debug then do
    logText (walk.packet.drop position) rdlen
    .ok walk
  else .ok walk

def rewriteTtl (options : DnsOptions) (walk : DnsWalk) (position ttl : Nat) :
    Except DnsStop DnsWalk :=
  if walk.qmatch = 1 ∧ ttl > options.uamdomainTtl.toNat then do
    let packet ← writeBytes walk.packet position (be32 options.uamdomainTtl)
    .ok { walk with packet, modified := 1 }
  else .ok walk

/-- The switch over the record types, for data at `position`. -/
def copyData (options : DnsOptions) (mdns : Bool) (walk : DnsWalk) (position left type rdlen : Nat) :
    Except DnsStop DnsWalk :=
  if left < rdlen then .error .refused
  else
    match recordRequired type with
    | none => .error .refused
    | some required => do
        let walk ← recordData options mdns walk position type rdlen
        if options.dnsparanoia && !required then .error .refused
        else .ok { walk with position := position + rdlen, left := left - rdlen }

def copyAnswer (options : DnsOptions) (mdns : Bool) (walk : DnsWalk) (position left type : Nat) :
    Except DnsStop DnsWalk :=
  if left < 10 then .error .refused
  else do
    let ttl ← readNumber walk.packet (position + 4) 4
    let rdlen ← readNumber walk.packet (position + 8) 2
    let walk ← rewriteTtl options walk (position + 4) ttl
    copyData options mdns walk (position + 10) (left - 10) type rdlen

def dnsCopyRes (options : DnsOptions) (isReq mdns q : Bool) (walk : DnsWalk) :
    Except DnsStop DnsWalk := do
  let (namelen, _) ←
    dnsFullname walk.packet walk.olen nameBuffer (pktIpPlen - 1) walk.position walk.left
  if namelen > walk.left then .error .refused
  else if options.dnsparanoia && namelen > 128 then .error .refused
  else if walk.left - namelen < 4 then .error .refused
  else do
    let type ← readNumber walk.packet (walk.position + namelen) 2
    let _class ← readNumber walk.packet (walk.position + namelen + 2) 2
    if q then copyQuestion options isReq walk (walk.position + namelen) (walk.left - namelen) type
    else copyAnswer options mdns walk (walk.position + namelen) (walk.left - namelen) type

/-! ## The records of a packet -/

/-- `copyres(q, n)` -/
def copyres (options : DnsOptions) (isReq mdns q : Bool) : Nat → DnsWalk → Except DnsStop DnsWalk
  | 0, walk => .ok walk
  | count + 1, walk =>
      if walk.left = 0 then .ok walk
      else do
        let walk ← dnsCopyRes options isReq mdns q walk
        copyres options isReq mdns q count walk

def firstWalk (packet : List UInt8) : DnsWalk where
  packet := packet
  position := dnsHlen
  left := packet.length - dnsHlen
  question := List.replicate questionSize 0
  qmatch := -1
  modified := -1
  garden := []

/-- The calls of `dns_copy_res` that `dhcp_dns` makes for a packet. -/
def dnsRecords (options : DnsOptions) (isReq mdns : Bool) (packet : List UInt8) :
    Except DnsStop DnsWalk := do
  let qdcount ← readNumber packet 4 2
  let ancount ← readNumber packet 6 2
  let nscount ← readNumber packet 8 2
  let arcount ← readNumber packet 10 2
  let walk ← copyres options isReq mdns true qdcount (firstWalk packet)
  let walk ← copyres options isReq mdns false ancount walk
  let walk ← copyres options isReq mdns false nscount walk
  copyres options isReq mdns false arcount walk

end

end Rut9xx.Chilli
