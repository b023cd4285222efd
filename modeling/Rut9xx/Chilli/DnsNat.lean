import Rut9xx.Chilli.DnsName
import Rut9xx.Data.Partial

namespace Rut9xx.Chilli

open Data

/-! # IPv4 packets in the receive buffer -/

section

structure IpPacket where
  versionIhl : UInt8
  /-- The flags and the fragment offset. -/
  optOffHigh : UInt8
  offLow : UInt8
  protocol : UInt8
  saddr : UInt32
  daddr : UInt32
  /-- The packet from its 21st byte on, options included. -/
  body : List UInt8
  /-- What the buffer holds behind the packet. -/
  beyond : List UInt8
  deriving DecidableEq

def pktIpHlen : Nat := 20

def pktUdpHlen : Nat := 8

def ipProtoIcmp : UInt8 := 1

def ipProtoTcp : UInt8 := 6

def ipProtoUdp : UInt8 := 17

namespace IpPacket

/-- `sizeofip` without the Ethernet header. -/
def headerLen (pack : IpPacket) : Nat := pack.versionIhl.toNat % 16 * 4

/-- Where the transport header starts, from the 21st byte on. -/
def transport (pack : IpPacket) : Nat := pack.headerLen - pktIpHlen

/-- A 16-bit number of the buffer, from the 21st byte of the packet on. -/
def field (pack : IpPacket) (position : Nat) : Nat :=
  beNumber (slice (pack.body ++ pack.beyond) position 2)

/-- `src` of `pkt_udphdr` and of `pkt_tcphdr` -/
def src (pack : IpPacket) : Nat := pack.field pack.transport

/-- `dst` of `pkt_udphdr` and of `pkt_tcphdr` -/
def dst (pack : IpPacket) : Nat := pack.field (pack.transport + 2)

/-- What is behind the UDP header. -/
def dns (pack : IpPacket) : List UInt8 := pack.body.drop (pack.transport + pktUdpHlen)

def withDns (pack : IpPacket) (dns : List UInt8) : IpPacket :=
  { pack with body := pack.body.take (pack.transport + pktUdpHlen) ++ dns }

@[simp] theorem withDns_protocol (pack : IpPacket) (dns : List UInt8) :
    (pack.withDns dns).protocol = pack.protocol := rfl

@[simp] theorem withDns_saddr (pack : IpPacket) (dns : List UInt8) :
    (pack.withDns dns).saddr = pack.saddr := rfl

@[simp] theorem withDns_daddr (pack : IpPacket) (dns : List UInt8) :
    (pack.withDns dns).daddr = pack.daddr := rfl

end IpPacket

end

/-! # Which DNS packets are forwarded -/

section

/-- The names that `dhcp_dns` answers for itself. -/
structure LocalNames where
  uamhostname : Option (List UInt8)
  uamaliasname : Option (List UInt8)
  domain : Option (List UInt8)
  domaindnslocal : Bool

def logoutName : List UInt8 := [108, 111, 103, 111, 117, 116]

/-- `dhcp_matchDNS` -/
def dhcpMatchDNS (names : LocalNames) (question name : List UInt8) : Bool :=
  question = name ||
    match names.domain with
    | some domain => domain ≠ [] && question = name ++ 46 :: domain
    | none => false

/-- A name of the local domain, where `domaindnslocal` is set. -/
def inLocalDomain (names : LocalNames) (question : List UInt8) : Bool :=
  match names.domain with
  | some domain =>
      names.domaindnslocal && question.length > domain.length + 1 &&
        question.drop (question.length - domain.length) = domain &&
          question[question.length - domain.length - 1]? = some 46
  | none => false

def answeredLocally (names : LocalNames) (question : List UInt8) : Bool :=
  dhcpMatchDNS names question logoutName ||
    names.uamhostname.any (dhcpMatchDNS names question) ||
      names.uamaliasname.any (dhcpMatchDNS names question) || inLocalDomain names question

/-- A 16-bit field of the DNS header. -/
def dnsField (dns : List UInt8) (position : Nat) : Nat := beNumber (slice dns position 2)

/-- The requests that are looked at for a local answer. -/
def plainQuestion (dns : List UInt8) : Bool :=
  dnsField dns 2 = 0x0100 && dnsField dns 4 ≥ 1 && dnsField dns 6 = 0 && dnsField dns 8 = 0 &&
    dnsField dns 10 = 0

/-- The last tests of `dhcp_dns`, for the records it has gone past. -/
def forwardWalked (names : LocalNames) (isReq : Bool) (dns : List UInt8) (walk : DnsWalk) :
    Except DnsStop (Option (List UInt8)) :=
  if walk.left ≠ 0 then .ok none
  else if isReq && plainQuestion dns then do
    let length ← stringLength walk.question
    .ok (if answeredLocally names (walk.question.take length) then none else some walk.packet)
  else .ok (some walk.packet)

/-- `dhcp_dns` on the bytes behind the UDP header: the bytes that are forwarded, or none. -/
def dhcpDns (options : DnsOptions) (names : LocalNames) (isReq : Bool) (dns : List UInt8) :
    Except DnsStop (Option (List UInt8)) :=
  if dns.length < dnsHlen then .ok none
  -- a response among the requests, or a query among the replies
  else if (dnsField dns 2 / 2 ^ 15 = 1) = (isReq = true) then .ok none
  else
    match dnsRecords options isReq false dns with
    | .error .refused => .ok none
    | .error stop => .error stop
    | .ok walk => forwardWalked names isReq dns walk

end

/-! # DNS servers that stand in for others -/

section

def dhcpDnsPort : Nat := 53

/-- What the translation uses of a connection and of its parent. -/
structure DnsConn where
  anydns : Bool
  dns1 : UInt32
  dns2 : UInt32
  /-- The server that the client asked, or 0. -/
  dnatdns : UInt32

/-- A value of `dhcp_dnsDNAT` and of `dhcp_dnsunDNAT`: -1, 1 or 0. -/
inductive DnsVerdict where
  | dropped
  | allowed
  | notDns
  deriving DecidableEq

def DnsConn.isRequest (conn : DnsConn) (pack : IpPacket) : Bool :=
  (conn.anydns || pack.daddr = conn.dns1 || pack.daddr = conn.dns2) &&
    pack.protocol = ipProtoUdp && pack.dst = dhcpDnsPort

def DnsConn.isReply (conn : DnsConn) (pack : IpPacket) : Bool :=
  pack.protocol = ipProtoUdp && (conn.anydns || pack.saddr = conn.dns1 || pack.saddr = conn.dns2) &&
    pack.src = dhcpDnsPort

/-- What `dhcp_dns` leaves of the packet, and whether it is forwarded. -/
def dnsVerdict (pack : IpPacket) : Option (List UInt8) → DnsVerdict × IpPacket
  | none => (.dropped, pack)
  | some dns => (.allowed, pack.withDns dns)

/-- The translation of a request, without forced DNS: the connection, the packet and
`*do_checksum`. -/
def DnsConn.translate (conn : DnsConn) (pack : IpPacket) (doChecksum : Bool) :
    DnsConn × IpPacket × Bool :=
  if conn.anydns then
    if pack.daddr ≠ conn.dns1 ∧ pack.daddr ≠ conn.dns2 then
      ({ conn with dnatdns := pack.daddr }, { pack with daddr := conn.dns1 }, true)
    else ({ conn with dnatdns := 0 }, pack, doChecksum)
  else (conn, pack, doChecksum)

/-- The translation of a reply. -/
def DnsConn.restore (conn : DnsConn) (pack : IpPacket) (doChecksum : Bool) : IpPacket × Bool :=
  if conn.anydns ∧ conn.dnatdns ≠ 0 ∧ pack.saddr ≠ conn.dnatdns then
    ({ pack with saddr := conn.dnatdns }, true)
  else (pack, doChecksum)

variable (options : DnsOptions) (names : LocalNames)

/-- `dhcp_dnsDNAT`: its value, the connection, the packet and `*do_checksum`. -/
def dhcpDnsDNAT (conn : DnsConn) (pack : IpPacket) (doChecksum : Bool) :
    Except DnsStop (DnsVerdict × DnsConn × IpPacket × Bool) :=
  if conn.isRequest pack then do
    let (conn, pack, doChecksum) := conn.translate pack doChecksum
    let dns ← dhcpDns options names true pack.dns
    let (verdict, pack) := dnsVerdict pack dns
    .ok (verdict, conn, pack, doChecksum)
  else .ok (.notDns, conn, pack, doChecksum)

/-- `dhcp_dnsunDNAT`: its value, the packet and `*do_checksum`. -/
def dhcpDnsunDNAT (conn : DnsConn) (pack : IpPacket) (doChecksum : Bool) :
    Except DnsStop (DnsVerdict × IpPacket × Bool) :=
  if conn.isReply pack then do
    let (pack, doChecksum) := conn.restore pack doChecksum
    let dns ← dhcpDns options names false pack.dns
    let (verdict, pack) := dnsVerdict pack dns
    .ok (verdict, pack, doChecksum)
  else .ok (.notDns, pack, doChecksum)

end

end Rut9xx.Chilli
