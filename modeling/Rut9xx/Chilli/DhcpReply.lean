import Rut9xx.Chilli.DhcpConn
import Rut9xx.Chilli.DhcpOptions

namespace Rut9xx.Chilli

open Data

/-! # Replies of the DHCP server -/

section

def dhcpBootps : UInt16 := 67

def dhcpBootpc : UInt16 := 68

def dhcpOffer : UInt8 := 2

def dhcpAck : UInt8 := 5

def dhcpNak : UInt8 := 6

def dhcpForcerenew : UInt8 := 9

def dhcpDomainLen : Nat := 30

def dhcpOptionsLen : Nat := 312

/-- What a reply takes from `struct dhcp_conn_t`; `options` are those of `dhcp_opts`. -/
structure ReplyConn where
  ourip : UInt32
  hisip : UInt32
  hismask : UInt32
  dns1 : UInt32
  dns2 : UInt32
  domain : List UInt8
  noc2c : Bool
  mtu : UInt16
  sname : Vector UInt8 64
  file : Vector UInt8 128
  options : List UInt8
  domain_terminated : domain.length < dhcpDomainLen

/-- What it takes from `struct dhcp_t` and `_options`. -/
structure ReplyServer where
  lease : UInt32
  nexthop : Mac
  dhcpBroadcast : Bool
  rfc7710uri : Option (List UInt8)

/-- `copy_ethproto` -/
def copyEthproto (req : Memory UInt8) (pack : Guarded) : Guarded :=
  if is8021q req then
    (pack.put 12 (be16 pktEthProto8021Q)).put 14 (load req 14 4)
  else pack.put 12 (load req 12 2)

def dhcpCookie : List UInt8 := [0x63, 0x82, 0x53, 0x63]

/-- What a reply takes from a DHCP request at `reqDhcp`. -/
def copyRequest (conn : ReplyConn) (req : Memory UInt8) (reqDhcp dhcp : Nat) (pack : Guarded) : Guarded :=
  -- `xid`, `flags`, `giaddr` and `chaddr`
  let pack := pack.put (dhcp + 4) (load req (reqDhcp + 4) 4)
  let pack := pack.put (dhcp + 10) (load req (reqDhcp + 10) 2)
  let pack := pack.put (dhcp + 24) (load req (reqDhcp + 24) 4)
  let pack := pack.put (dhcp + 28) (load req (reqDhcp + 28) 16)
  (pack.put (dhcp + 44) conn.sname.toList).put (dhcp + 108) conn.file.toList

/-- The address of the client, by the type of the message. -/
def putYiaddr (type : UInt8) (conn : ReplyConn) (req : Memory UInt8) (reqDhcp dhcp : Nat)
    (pack : Guarded) : Guarded :=
  if type = dhcpOffer ∨ type = dhcpForcerenew then pack.put (dhcp + 16) (be32 conn.hisip)
  else if type = dhcpAck then
    (pack.put (dhcp + 4) (load req (reqDhcp + 4) 4)).put (dhcp + 16) (be32 conn.hisip)
  else pack

/-- Where a reply goes. -/
def putDestination (type : UInt8) (server : ReplyServer) (req : Memory UInt8) (isReqDhcp : Bool)
    (reqDhcp iph udph dhcp : Nat) (pack : Guarded) : Guarded :=
  let broadcast := req (reqDhcp + 10) &&& 0x80 ≠ 0
  if isReqDhcp then
    if word32 req (reqDhcp + 12) ≠ 0 then
      (pack.put (iph + 16) (load req (reqDhcp + 12) 4)).put (udph + 2) (be16 dhcpBootpc)
    else if word32 req (reqDhcp + 24) ≠ 0 then
      (pack.put (iph + 16) (load req (reqDhcp + 24) 4)).put (udph + 2) (be16 dhcpBootps)
    else if type = dhcpNak ∨ broadcast ∨ server.dhcpBroadcast then
      let pack := (pack.put (iph + 16) [0xff, 0xff, 0xff, 0xff]).put (udph + 2) (be16 dhcpBootpc)
      let pack := pack.put (dhcp + 10) [0x80]
      if broadcast then pack.put 0 (List.replicate pktEthAlen 0xff) else pack
    else (pack.put (iph + 16) (load pack.bytes (dhcp + 16) 4)).put (udph + 2) (be16 dhcpBootpc)
  else (pack.put (iph + 16) (load req (sizeofeth req + 12) 4)).put (udph + 2) (be16 dhcpBootpc)

/-- `dhcp_create_pkt`, with the position behind the options so far. -/
def dhcpCreatePkt (type : UInt8) (server : ReplyServer) (conn : ReplyConn) (req : Memory UInt8)
    (pack : Guarded) : Guarded × Nat :=
  let reqDhcp := sizeofudp req
  let isReqDhcp := load req (reqDhcp + dhcpMinLen) 4 = dhcpCookie
  let pack := copyEthproto req pack
  let iph := sizeofeth pack.bytes
  -- up to the checksum of the IP header
  let pack := pack.put iph [0x45, 0, 0, 0, 0, 0, 0, 0, 0x10, 0x11, 0, 0]
  let udph := sizeofip pack.bytes
  let dhcp := sizeofudp pack.bytes
  -- `op`, `htype` and `hlen`
  let pack := pack.put dhcp [2, 1, 6]
  let pack := if isReqDhcp then copyRequest conn req reqDhcp dhcp pack else pack
  let pack := putYiaddr type conn req reqDhcp dhcp pack
  let pack := (pack.put 0 (load req 6 6)).put 6 server.nexthop.toList
  let pack := (pack.put udph (be16 dhcpBootps)).put (iph + 12) (be32 conn.ourip)
  let pack := putDestination type server req isReqDhcp reqDhcp iph udph dhcp pack
  let o := dhcp + dhcpMinLen
  let pack := pack.put o (dhcpCookie ++ [dhcpOptionMessageType, 1, type])
  if 7 + conn.options.length < dhcpOptionsLen then (pack.put (o + 7) conn.options, 7 + conn.options.length)
  else (pack, 7)

/-- An option is put at the position in the options at `o`. -/
def putOption (o : Nat) (tag len : UInt8) (value : List UInt8) (pack : Guarded × Nat) : Guarded × Nat :=
  (((pack.1.put (o + pack.2) [tag]).put (o + (pack.2 + 1)) [len]).put (o + (pack.2 + 2)) value,
    pack.2 + 2 + value.length)

/-- `dhcp_accept_opt` -/
def dhcpAcceptOpt (server : ReplyServer) (conn : ReplyConn) (o : Nat) (pack : Guarded × Nat) :
    Guarded × Nat :=
  let pack := putOption o 1 4 (if conn.noc2c then [0xff, 0xff, 0xff, 0xff] else be32 conn.hismask) pack
  let pack := if conn.noc2c then putOption o 33 8 (be32 conn.ourip ++ be32 conn.hisip) pack else pack
  let pack := putOption o 3 4 (be32 conn.ourip) pack
  let pack :=
    if conn.dns1 ≠ 0 ∧ conn.dns2 ≠ 0 then putOption o 6 8 (be32 conn.dns1 ++ be32 conn.dns2) pack
    else if conn.dns1 ≠ 0 then putOption o 6 4 (be32 conn.dns1) pack
    else if conn.dns2 ≠ 0 then putOption o 6 4 (be32 conn.dns2) pack
    else pack
  let pack :=
    if conn.domain.length ≠ 0 then putOption o 15 (UInt8.ofNat conn.domain.length) conn.domain pack else pack
  let pack := putOption o 51 4 (be32 server.lease) pack
  let pack := putOption o 26 2 (be16 conn.mtu) pack
  let pack := putOption o 54 4 (be32 conn.ourip) pack
  let pack :=
    match server.rfc7710uri with
    | some uri => putOption o 160 (UInt8.ofNat uri.length) uri pack
    | none => pack
  (pack.1.put (o + pack.2) [dhcpOptionEnd], pack.2 + 1)

/-- What `dhcp_sendOFFER` and `dhcp_sendACK` send in answer to `req`: the packet and its length. -/
def dhcpSendAccept (type : UInt8) (server : ReplyServer) (conn : ReplyConn) (req : Memory UInt8) :
    Guarded × Nat :=
  let packet : Guarded := ⟨1500, fun _ => 0, true⟩
  let (packet, pos) := dhcpCreatePkt type server conn req packet
  let iph := sizeofeth packet.bytes
  let udph := sizeofip packet.bytes
  let (packet, pos) := dhcpAcceptOpt server conn (sizeofudp packet.bytes + dhcpMinLen) (packet, pos)
  let udpLen := UInt16.ofNat (pos + dhcpMinLen + pktUdpHlen)
  let packet := packet.put (udph + 4) (be16 udpLen)
  let packet := packet.put (iph + 2) (be16 (UInt16.ofNat (udpLen.toNat + pktIpHlen)))
  let packet := chksum packet iph
  (packet, (udpLen.toNat + sizeofip packet.bytes) % 2 ^ 16)

end

/-! ## The options of a reply -/

section

def dnsOption (conn : ReplyConn) : List TaggedValue :=
  if conn.dns1 ≠ 0 ∧ conn.dns2 ≠ 0 then [⟨6, be32 conn.dns1 ++ be32 conn.dns2⟩]
  else if conn.dns1 ≠ 0 then [⟨6, be32 conn.dns1⟩]
  else if conn.dns2 ≠ 0 then [⟨6, be32 conn.dns2⟩]
  else []

/-- What `dhcp_accept_opt` puts in, in order. -/
def acceptOptions (server : ReplyServer) (conn : ReplyConn) : List TaggedValue :=
  [⟨1, if conn.noc2c then [0xff, 0xff, 0xff, 0xff] else be32 conn.hismask⟩] ++
    (if conn.noc2c then [⟨33, be32 conn.ourip ++ be32 conn.hisip⟩] else []) ++
      [⟨3, be32 conn.ourip⟩] ++ dnsOption conn ++
        (if conn.domain.length ≠ 0 then [⟨15, conn.domain⟩] else []) ++
          [⟨51, be32 server.lease⟩, ⟨26, be16 conn.mtu⟩, ⟨54, be32 conn.ourip⟩] ++
            (server.rfc7710uri.toList.map fun uri => ⟨160, uri⟩)

def replyOptions (type : UInt8) (server : ReplyServer) (conn : ReplyConn) : List TaggedValue :=
  ⟨dhcpOptionMessageType, [type]⟩ :: acceptOptions server conn

/-- The DHCP packet of a frame, as long as its UDP header has it. -/
def sentPacket (sent : Guarded) : List UInt8 :=
  load sent.bytes (sizeofudp sent.bytes) (udphLen sent.bytes - pktUdpHlen)

/-- The options in `sent` are `options`, each with its length octet, up to END, and the lookup finds
each. -/
structure DecodesBack (sent : Guarded) (options : List TaggedValue) : Prop where
  inside : sent.inside = true
  written : (sentPacket sent).drop (dhcpMinLen + dhcpOptionMagicLen) =
    options.flatMap (TaggedValue.encode dhcpFormat) ++ [dhcpOptionEnd]
  wellFormed : ∀ option ∈ options, option.WellFormed dhcpFormat
  found : ∀ option ∈ options, ∃ place l,
    dhcpGettag (sentPacket sent) (sentPacket sent).length option.tag = .done (some place) ∧
      (sentPacket sent)[place + 1]? = some l ∧ l.toNat = option.value.length ∧
        slice (sentPacket sent) (place + 2) l.toNat = option.value

end

variable {pack : Guarded} {eth start o pos : Nat} {data : List UInt8} {type : UInt8}
  {server : ReplyServer} {conn : ReplyConn} {req : Memory UInt8} {tag len : UInt8} {value : List UInt8}

/-! ## The headers -/

/-- An IPv4 packet with UDP and without IP options that is being written. -/
structure ReplyFrame (pack : Guarded) (eth : Nat) : Prop where
  size : pack.size = 1500
  inside : pack.inside = true
  ethernet : sizeofeth pack.bytes = eth
  header : pack.bytes eth = 0x45
  udp : pack.bytes (eth + 9) = ipProtoUdp

namespace ReplyFrame

theorem eth_cases (frame : ReplyFrame pack eth) : eth = 14 ∨ eth = 18 :=
  frame.ethernet ▸ sizeofeth_cases pack.bytes

theorem headerLen (frame : ReplyFrame pack eth) : headerLen pack.bytes = 20 := by
  rw [Chilli.headerLen, versionIhl, frame.ethernet, frame.header]
  rfl

theorem sizeofip (frame : ReplyFrame pack eth) : sizeofip pack.bytes = eth + 20 := by
  rw [Chilli.sizeofip, frame.ethernet, frame.headerLen]

theorem sizeofudp (frame : ReplyFrame pack eth) : sizeofudp pack.bytes = eth + 28 := by
  rw [Chilli.sizeofudp, frame.sizeofip]
  rfl

/-- A write that leaves the type of the frame and the version and protocol of its IP header. -/
theorem put (frame : ReplyFrame pack eth) (within : start + data.length ≤ 1500)
    (ethernet : start + data.length ≤ 12 ∨ 14 ≤ start) (header : start + data.length ≤ eth ∨ eth < start)
    (udp : start + data.length ≤ eth + 9 ∨ eth + 9 < start) : ReplyFrame (pack.put start data) eth where
  size := frame.size
  inside := by
    rw [Guarded.put_inside_iff, frame.size]
    exact ⟨frame.inside, .inr within⟩
  ethernet := by
    rw [← frame.ethernet]
    exact sizeofeth_congr (store_outside (by omega)) (store_outside (by omega))
  header := (store_outside (by omega)).trans frame.header
  udp := (store_outside (by omega)).trans frame.udp

/-- A write behind them. -/
theorem putBehind (frame : ReplyFrame pack eth) (behind : eth + 9 < start)
    (within : start + data.length ≤ 1500) : ReplyFrame (pack.put start data) eth := by
  have cases := frame.eth_cases
  exact frame.put within (.inr (by omega)) (.inr (by omega)) (.inr behind)

/-- A write to the addresses of the frame. -/
theorem putFront (frame : ReplyFrame pack eth) (front : start + data.length ≤ 12) :
    ReplyFrame (pack.put start data) eth := by
  have cases := frame.eth_cases
  exact frame.put (by omega) (.inl front) (.inl (by omega)) (.inl (by omega))

theorem copyRequest {isReqDhcp : Prop} [Decidable isReqDhcp] {reqDhcp : Nat}
    (frame : ReplyFrame pack eth) :
    ReplyFrame (if isReqDhcp then copyRequest conn req reqDhcp (eth + 28) pack else pack) eth := by
  have cases := frame.eth_cases
  unfold Chilli.copyRequest
  split
  · iterate 6
      refine ReplyFrame.putBehind ?_ (by omega) (by
        simp only [load_length, Vector.length_toList]
        omega)
    exact frame
  · exact frame

theorem putYiaddr {reqDhcp : Nat} (frame : ReplyFrame pack eth) :
    ReplyFrame (putYiaddr type conn req reqDhcp (eth + 28) pack) eth := by
  have cases := frame.eth_cases
  unfold Chilli.putYiaddr
  split
  · exact frame.putBehind (by omega) (by rw [be32_length]; omega)
  · split
    · refine (frame.putBehind (by omega) ?_).putBehind (by omega) ?_
      · rw [load_length]
        omega
      · rw [be32_length]
        omega
    · exact frame

theorem putTwo (frame : ReplyFrame pack eth) {daddr port : List UInt8}
    (daddr' : daddr.length = 4) (port' : port.length = 2) :
    ReplyFrame ((pack.put (eth + 16) daddr).put (eth + 20 + 2) port) eth := by
  have cases := frame.eth_cases
  exact (frame.putBehind (by omega) (by omega)).putBehind (by omega) (by omega)

theorem putDestination {isReqDhcp : Bool} {reqDhcp : Nat} (frame : ReplyFrame pack eth) :
    ReplyFrame (putDestination type server req isReqDhcp reqDhcp eth (eth + 20) (eth + 28) pack) eth := by
  have cases := frame.eth_cases
  have broadcast : ReplyFrame (((pack.put (eth + 16) [0xff, 0xff, 0xff, 0xff]).put (eth + 20 + 2)
      (be16 dhcpBootpc)).put (eth + 28 + 10) [0x80]) eth :=
    (frame.putTwo rfl rfl).putBehind (by omega) (by rw [List.length_singleton]; omega)
  unfold Chilli.putDestination
  simp only
  split
  · split
    · exact frame.putTwo load_length rfl
    · split
      · exact frame.putTwo load_length rfl
      · split
        · split
          · exact broadcast.putFront (by rw [List.length_replicate]; decide)
          · exact broadcast
        · exact frame.putTwo load_length rfl
  · exact frame.putTwo load_length rfl

end ReplyFrame

/-- The new packet with the type of the frame that it answers, and an IP header. -/
theorem replyFrame_created :
    ReplyFrame ((copyEthproto req ⟨1500, fun _ => 0, true⟩).put
      (sizeofeth (copyEthproto req ⟨1500, fun _ => 0, true⟩).bytes)
      [0x45, 0, 0, 0, 0, 0, 0, 0, 0x10, 0x11, 0, 0])
      (sizeofeth (copyEthproto req ⟨1500, fun _ => 0, true⟩).bytes) := by
  generalize same : copyEthproto req ⟨1500, fun _ => 0, true⟩ = pack
  have created : pack.size = 1500 ∧ pack.inside = true := by
    subst same
    unfold copyEthproto
    split
    · refine ⟨rfl, ?_⟩
      simp only [Guarded.put_inside_iff, Guarded.put_size, be16_length, load_length]
      decide
    · refine ⟨rfl, ?_⟩
      simp only [Guarded.put_inside_iff, load_length]
      decide
  have cases := sizeofeth_cases pack.bytes
  generalize eth : sizeofeth pack.bytes = place at cases ⊢
  refine ⟨created.1, ?_, ?_, ?_, ?_⟩
  · rw [Guarded.put_inside_iff, created.1]
    exact ⟨created.2, .inr (by simp only [List.length_cons, List.length_nil]; omega)⟩
  · rw [← eth]
    exact sizeofeth_congr (store_outside (by omega)) (store_outside (by omega))
  · exact store_self
  · exact @store_inside _ pack.bytes [0x45, 0, 0, 0, 0, 0, 0, 0, 0x10, 0x11, 0, 0] place 9 (by decide)

/-! ## The options -/

/-- The cookie and `options` are written behind the headers; all of it takes `most` bytes at most. -/
structure Wrote (eth : Nat) (pack : Guarded × Nat) (options : List TaggedValue) (most : Nat) : Prop where
  frame : ReplyFrame pack.1 eth
  holds : Holds pack.1.bytes (eth + 264) (dhcpCookie ++ options.flatMap (TaggedValue.encode dhcpFormat))
  pos : pack.2 = (dhcpCookie ++ options.flatMap (TaggedValue.encode dhcpFormat)).length
  bounded : pack.2 ≤ most

theorem dhcpCreatePkt_wrote (none' : conn.options = []) :
    ∃ eth, Wrote eth (dhcpCreatePkt type server conn req ⟨1500, fun _ => 0, true⟩)
      [⟨dhcpOptionMessageType, [type]⟩] 7 := by
  obtain ⟨eth, same⟩ :
      ∃ eth, eth = sizeofeth (copyEthproto req ⟨1500, fun _ => 0, true⟩).bytes := ⟨_, rfl⟩
  have created := @replyFrame_created req
  rw [← same] at created
  have cases := created.eth_cases
  refine ⟨eth, ?_⟩
  unfold dhcpCreatePkt
  simp only [none', List.length_nil, Nat.add_zero, if_pos (show 7 < dhcpOptionsLen by decide),
    ← same, created.sizeofip, created.sizeofudp]
  have started : ReplyFrame (Guarded.put _ (eth + 28) [2, 1, 6]) eth :=
    created.putBehind (by omega) (by
      simp only [List.length_cons, List.length_nil]
      omega)
  have requested : ReplyFrame (if load req (sizeofudp req + dhcpMinLen) 4 = dhcpCookie then
      copyRequest conn req (sizeofudp req) (eth + 28) _ else _) eth := started.copyRequest
  have addressed : ReplyFrame (((putYiaddr type conn req (sizeofudp req) (eth + 28) _).put 0
      (load req 6 6)).put 6 server.nexthop.toList) eth :=
    (requested.putYiaddr.putFront (by rw [load_length]; decide)).putFront (by
      rw [Vector.length_toList])
  have sourced : ReplyFrame ((Guarded.put _ (eth + 20) (be16 dhcpBootps)).put (eth + 12) (be32 conn.ourip))
      eth :=
    (addressed.putBehind (by omega) (by rw [be16_length]; omega)).putBehind (by omega) (by
      rw [be32_length]
      omega)
  have frame : ReplyFrame ((putDestination type server req
      (decide (load req (sizeofudp req + dhcpMinLen) 4 = dhcpCookie)) (sizeofudp req) eth (eth + 20)
      (eth + 28) _).put (eth + 28 + dhcpMinLen) (dhcpCookie ++ [dhcpOptionMessageType, 1, type])) eth :=
    sourced.putDestination.putBehind (by omega) (by
      simp only [dhcpMinLen, dhcpCookie, List.length_append, List.length_cons, List.length_nil]
      omega)
  refine ⟨frame.putBehind (by omega) ?_, ?_, rfl, Nat.le_refl 7⟩
  · simp only [dhcpMinLen, List.length_nil]
    omega
  · rw [Guarded.put_bytes, store_nil]
    exact holds_store

/-- One more option behind those written. -/
theorem Wrote.putOption {options : List TaggedValue} {most longest : Nat} {pack : Guarded × Nat}
    (wrote : Wrote eth pack options most) (counted : len = UInt8.ofNat value.length)
    (short : value.length ≤ longest) (room : most + longest ≤ 1200) :
    Wrote eth (putOption (eth + 264) tag len value pack) (options ++ [⟨tag, value⟩])
      (most + (longest + 2)) := by
  have cases := wrote.frame.eth_cases
  have bounded := wrote.bounded
  have one : (Chilli.putOption (eth + 264) tag len value pack).1.bytes =
      store pack.1.bytes (eth + 264 + pack.2) (tag :: len :: value) := by
    simp only [Chilli.putOption, Guarded.put_bytes]
    rw [store_next (by rw [List.length_singleton]; omega), store_next (by
      simp only [List.length_cons, List.length_nil]
      omega)]
    rfl
  have encoded : TaggedValue.encode dhcpFormat ⟨tag, value⟩ = tag :: len :: value := by
    rw [counted]
    rfl
  refine ⟨?_, ?_, ?_, ?_⟩
  · refine ((wrote.frame.putBehind (by omega) ?_).putBehind (by omega) ?_).putBehind (by omega) ?_
    · rw [List.length_singleton]
      omega
    · rw [List.length_singleton]
      omega
    · omega
  · rw [one, List.flatMap_append, ← List.append_assoc, holds_append]
    refine ⟨wrote.holds.store_apart (by rw [← wrote.pos]; omega), ?_⟩
    rw [← wrote.pos, List.flatMap_singleton, encoded]
    exact holds_store
  · rw [List.flatMap_append, ← List.append_assoc, List.length_append, ← wrote.pos, List.flatMap_singleton,
      encoded]
    simp only [Chilli.putOption, List.length_cons]
    omega
  · simp only [Chilli.putOption]
    omega

theorem Wrote.weaken {options : List TaggedValue} {most more : Nat} {pack : Guarded × Nat}
    (wrote : Wrote eth pack options most) (le : most ≤ more) : Wrote eth pack options more :=
  ⟨wrote.frame, wrote.holds, wrote.pos, wrote.bounded.trans le⟩

theorem Wrote.putOptionIf {options : List TaggedValue} {most longest : Nat} {pack : Guarded × Nat}
    {asked : Prop} [Decidable asked]
    (wrote : Wrote eth pack options most) (counted : len = UInt8.ofNat value.length)
    (short : value.length ≤ longest) (room : most + longest ≤ 1200) :
    Wrote eth (if asked then Chilli.putOption (eth + 264) tag len value pack else pack)
      (options ++ if asked then [⟨tag, value⟩] else []) (most + (longest + 2)) := by
  split
  · exact wrote.putOption counted short room
  · rw [List.append_nil]
    exact wrote.weaken (by omega)

theorem Wrote.putDns (conn : ReplyConn) {options : List TaggedValue} {most : Nat} {pack : Guarded × Nat}
    (wrote : Wrote eth pack options most) (room : most + 8 ≤ 1200) :
    Wrote eth
      (if conn.dns1 ≠ 0 ∧ conn.dns2 ≠ 0 then
          Chilli.putOption (eth + 264) 6 8 (be32 conn.dns1 ++ be32 conn.dns2) pack
        else if conn.dns1 ≠ 0 then Chilli.putOption (eth + 264) 6 4 (be32 conn.dns1) pack
        else if conn.dns2 ≠ 0 then Chilli.putOption (eth + 264) 6 4 (be32 conn.dns2) pack
        else pack)
      (options ++ dnsOption conn) (most + 10) := by
  unfold dnsOption
  split
  · exact wrote.putOption rfl (Nat.le_refl 8) room
  · split
    · exact wrote.putOption rfl (show 4 ≤ 8 by decide) room
    · split
      · exact wrote.putOption rfl (show 4 ≤ 8 by decide) room
      · rw [List.append_nil]
        exact wrote.weaken (by omega)

theorem Wrote.putUri {options : List TaggedValue} {most : Nat} {pack : Guarded × Nat}
    (wrote : Wrote eth pack options most) (short : ∀ uri ∈ server.rfc7710uri, uri.length ≤ 255)
    (room : most + 255 ≤ 1200) :
    Wrote eth
      (match server.rfc7710uri with
        | some uri => Chilli.putOption (eth + 264) 160 (UInt8.ofNat uri.length) uri pack
        | none => pack)
      (options ++ server.rfc7710uri.toList.map fun uri => ⟨160, uri⟩) (most + 257) := by
  cases given : server.rfc7710uri with
  | none =>
      simp only [Option.toList_none, List.map_nil, List.append_nil]
      exact wrote.weaken (by omega)
  | some uri => exact wrote.putOption rfl (short uri given) room

/-- The options closed by END. -/
structure WroteAll (eth : Nat) (pack : Guarded × Nat) (options : List TaggedValue) : Prop where
  frame : ReplyFrame pack.1 eth
  holds : Holds pack.1.bytes (eth + 264)
    (dhcpCookie ++ (options.flatMap (TaggedValue.encode dhcpFormat) ++ [dhcpOptionEnd]))
  pos : pack.2 =
    (dhcpCookie ++ (options.flatMap (TaggedValue.encode dhcpFormat) ++ [dhcpOptionEnd])).length
  bounded : pack.2 ≤ 1201

theorem Wrote.close {options : List TaggedValue} {most : Nat} {pack : Guarded × Nat}
    (wrote : Wrote eth pack options most) (room : most ≤ 1200) :
    WroteAll eth (pack.1.put (eth + 264 + pack.2) [dhcpOptionEnd], pack.2 + 1) options := by
  have cases := wrote.frame.eth_cases
  have bounded := wrote.bounded
  have pos := wrote.pos
  refine ⟨wrote.frame.putBehind (by omega) ?_, ?_, ?_, Nat.succ_le_succ (bounded.trans room)⟩
  · rw [List.length_singleton]
    omega
  · rw [← List.append_assoc, holds_append, ← pos]
    exact ⟨wrote.holds.store_apart (by omega), holds_store⟩
  · rw [← List.append_assoc, List.length_append, ← pos, List.length_singleton]

theorem dhcpAcceptOpt_wrote {pack : Guarded × Nat}
    (wrote : Wrote eth pack [⟨dhcpOptionMessageType, [type]⟩] 7)
    (short : ∀ uri ∈ server.rfc7710uri, uri.length ≤ 255) :
    WroteAll eth (dhcpAcceptOpt server conn (eth + 264) pack) (replyOptions type server conn) := by
  have mask : Wrote eth (putOption (eth + 264) 1 4
      (if conn.noc2c then [0xff, 0xff, 0xff, 0xff] else be32 conn.hismask) pack) _ _ :=
    wrote.putOption (by split <;> rfl) (show _ ≤ 4 by split <;> exact Nat.le_refl 4) (by decide)
  have routes : Wrote eth (if conn.noc2c then
      putOption (eth + 264) 33 8 (be32 conn.ourip ++ be32 conn.hisip) _ else _) _ _ :=
    mask.putOptionIf rfl (Nat.le_refl 8) (by decide)
  have router : Wrote eth (putOption (eth + 264) 3 4 (be32 conn.ourip) _) _ _ :=
    routes.putOption rfl (Nat.le_refl 4) (by decide)
  have dns := router.putDns conn (by decide)
  have domain : Wrote eth (if conn.domain.length ≠ 0 then
      putOption (eth + 264) 15 (UInt8.ofNat conn.domain.length) conn.domain _ else _) _ _ :=
    dns.putOptionIf rfl (Nat.le_of_lt_succ conn.domain_terminated) (by decide)
  have lease : Wrote eth (putOption (eth + 264) 51 4 (be32 server.lease) _) _ _ :=
    domain.putOption rfl (Nat.le_refl 4) (by decide)
  have mtu : Wrote eth (putOption (eth + 264) 26 2 (be16 conn.mtu) _) _ _ :=
    lease.putOption rfl (Nat.le_refl 2) (by decide)
  have serverId : Wrote eth (putOption (eth + 264) 54 4 (be32 conn.ourip) _) _ _ :=
    mtu.putOption rfl (Nat.le_refl 4) (by decide)
  have closed := (serverId.putUri short (by decide)).close (by decide)
  rw [replyOptions, acceptOptions]
  simpa only [dhcpAcceptOpt, List.append_assoc, List.cons_append, List.nil_append] using closed

/-! ## What is sent -/

/-- The headers and the options of a packet that is sent. -/
structure Sent (eth : Nat) (sent : Guarded) (fields : List UInt8) : Prop where
  frame : ReplyFrame sent eth
  holds : Holds sent.bytes (eth + 264) fields
  udpLen : udphLen sent.bytes = fields.length + 244

/-- The lengths and the checksums are put in front of the options. -/
theorem ReplyFrame.finish {fields : List UInt8} {udpLen totLen : UInt16} (frame : ReplyFrame pack eth)
    (holds : Holds pack.bytes (eth + 264) fields) (bounded : fields.length ≤ 1201)
    (counted : udpLen.toNat = fields.length + 244) :
    Sent eth (chksum ((pack.put (eth + 20 + 4) (be16 udpLen)).put (eth + 2) (be16 totLen)) eth)
      fields := by
  have cases := frame.eth_cases
  have put : ReplyFrame ((pack.put (eth + 20 + 4) (be16 udpLen)).put (eth + 2) (be16 totLen)) eth := by
    refine (frame.putBehind (by omega) (by rw [be16_length]; omega)).put ?_ (.inr (by omega))
      (.inr (by omega)) (.inl ?_)
    · rw [be16_length]
      omega
    · rw [be16_length]
      omega
  have word : word16 ((pack.put (eth + 20 + 4) (be16 udpLen)).put (eth + 2) (be16 totLen)).bytes
      (eth + 24) = udpLen := by
    rw [Guarded.put_bytes, word16_congr fun index below => store_outside (by rw [be16_length]; omega)]
    exact word16_store udpLen
  generalize whole : (pack.put (eth + 20 + 4) (be16 udpLen)).put (eth + 2) (be16 totLen) = buf
    at put word ⊢
  have five : (0x45 : UInt8).toNat % 16 * 4 = 20 := rfl
  have apart {address : Nat} (clear : address < eth + 10 ∨ eth + 12 ≤ address)
      (clear' : address < eth + 26 ∨ eth + 28 ≤ address) :
      (chksum buf eth).bytes address = buf.bytes address :=
    chksum_apart_udp put.udp clear (by
      rw [put.header, five]
      omega)
  have framed : ReplyFrame (chksum buf eth) eth := by
    refine ⟨?_, ?_, ?_, ?_, ?_⟩
    · exact chksum_size.trans put.size
    · exact chksum_inside_udp put.udp put.header (by rw [put.size]; omega) (by
        rw [put.size, word, counted]
        omega) put.inside
    · exact (sizeofeth_congr (apart (by omega) (by omega)) (apart (by omega) (by omega))).trans
        put.ethernet
    · exact (apart (by omega) (by omega)).trans put.header
    · exact (apart (by omega) (by omega)).trans put.udp
  refine ⟨framed, ?_, ?_⟩
  · have kept : Holds buf.bytes (eth + 264) fields := by
      rw [← whole]
      exact (holds.store_apart (by rw [be16_length]; omega)).store_apart (by rw [be16_length]; omega)
    exact (load_congr fun index inside => apart (by omega) (by omega)).trans kept
  · rw [udphLen, framed.sizeofip, word16_congr fun index below => apart (by omega) (by omega), word,
      counted]

theorem Sent.sentPacket_drop {sent : Guarded} {fields : List UInt8}
    (is : Sent eth sent (dhcpCookie ++ fields)) :
    (sentPacket sent).drop (dhcpMinLen + dhcpOptionMagicLen) = fields := by
  have split : sentPacket sent = load sent.bytes (eth + 28) 236 ++ (dhcpCookie ++ fields) := by
    rw [← is.holds, ← load_append, sentPacket, is.frame.sizeofudp, is.udpLen,
      Nat.add_comm 236]
    rfl
  rw [← List.drop_drop, split, dhcpMinLen, List.drop_left' load_length]
  rfl

theorem dhcpSendAccept_sent (none' : conn.options = [])
    (short : ∀ uri ∈ server.rfc7710uri, uri.length ≤ 255) :
    ∃ eth, Sent eth (dhcpSendAccept type server conn req).1
      (dhcpCookie ++ ((replyOptions type server conn).flatMap (TaggedValue.encode dhcpFormat) ++
        [dhcpOptionEnd])) := by
  obtain ⟨eth, wrote⟩ := @dhcpCreatePkt_wrote type server conn req none'
  have all := @dhcpAcceptOpt_wrote eth type server conn _ wrote short
  have bounded := all.bounded
  refine ⟨eth, ?_⟩
  unfold dhcpSendAccept
  simp only [wrote.frame.ethernet, wrote.frame.sizeofip, wrote.frame.sizeofudp]
  have small : (dhcpAcceptOpt server conn (eth + 264)
      (dhcpCreatePkt type server conn req ⟨1500, fun _ => 0, true⟩)).2 + 236 + 8 < 2 ^ 16 := by omega
  refine all.frame.finish all.holds (all.pos ▸ bounded) ?_
  rw [← all.pos, UInt16.toNat_ofNat']
  exact Nat.mod_eq_of_lt small

/-! ## The walk over the options -/

section

variable {bytes front back rest : List UInt8} {options : List TaggedValue} {option : TaggedValue}
  {place length : Nat}

/-- An option that is encoded at `place`. -/
theorem encoded_here (here : bytes.drop place = option.encode dhcpFormat ++ rest) :
    bytes[place]? = some option.tag ∧
      bytes[place + 1]? = some (UInt8.ofNat option.value.length) ∧
        slice bytes (place + 2) option.value.length = option.value ∧
          bytes.drop (place + (2 + option.value.length)) = rest ∧
            bytes.length = place + 2 + option.value.length + rest.length := by
  have at' (index : Nat) : bytes[place + index]? = (option.encode dhcpFormat ++ rest)[index]? := by
    rw [← here, List.getElem?_drop]
  have behind : bytes.drop (place + 2) = option.value ++ rest := by
    rw [← List.drop_drop, here]
    rfl
  refine ⟨at' 0, at' 1, ?_, ?_, ?_⟩
  · rw [slice, behind, List.take_left]
  · rw [← Nat.add_assoc, ← List.drop_drop, behind, List.drop_left]
  · have length := congrArg List.length here
    rw [List.length_append, length_encode, List.length_drop] at length
    omega

/-- The length octets lead to each option that is encoded from `place` on, if its tag is not met
before. -/
theorem ledTo_encoded (wellFormed : ∀ option ∈ options, option.WellFormed dhcpFormat)
    (distinct : (options.map TaggedValue.tag).Nodup) (more : rest ≠ [])
    (here : bytes.drop place = options.flatMap (TaggedValue.encode dhcpFormat) ++ rest)
    (member : option ∈ options) :
    ∃ found l, LedTo bytes bytes.length option.tag place (some found) ∧ bytes[found + 1]? = some l ∧
      l.toNat = option.value.length ∧ slice bytes (found + 2) l.toNat = option.value := by
  induction options generalizing place with
  | nil => cases member
  | cons first options ih =>
      rw [List.flatMap_cons, List.append_assoc] at here
      obtain ⟨tag, next, value, behind, length⟩ := encoded_here here
      have counted : (UInt8.ofNat first.value.length).toNat = first.value.length := by
        rw [UInt8.toNat_ofNat']
        exact Nat.mod_eq_of_lt (wellFormed first List.mem_cons_self).counted
      rw [List.length_append] at length
      have some' := List.length_pos_iff.mpr more
      rw [List.map_cons, List.nodup_cons] at distinct
      rcases List.mem_cons.mp member with rfl | later
      · refine ⟨place, _, .found (by omega) tag next ?_, next, counted, ?_⟩
        · rw [counted]
          omega
        · rw [counted]
          exact value
      · obtain ⟨found, l, led, rest⟩ := ih (fun option member => wellFormed option (.tail _ member))
          distinct.2 behind later
        refine ⟨found, l, .onward (by omega) tag ?_ next ?_, rest⟩
        · intro same
          exact distinct.1 (same ▸ List.mem_map_of_mem later)
        · rw [counted]
          exact led

end

/-! ## Decoding back -/

/-- The tags that a reply can have, in their order. -/
theorem replyOptions_tags : ((replyOptions type server conn).map TaggedValue.tag).Sublist
    [dhcpOptionMessageType, 1, 33, 3, 6, 15, 51, 26, 54, 160] := by
  have optional {asked : Prop} [Decidable asked] {option : TaggedValue} :
      ((if asked then [option] else []).map TaggedValue.tag).Sublist [option.tag] := by
    split
    · exact .refl _
    · exact List.nil_sublist _
  have dns : ((dnsOption conn).map TaggedValue.tag).Sublist [6] := by
    unfold dnsOption
    split
    · exact .refl _
    · split
      · exact .refl _
      · exact optional
  have uri : ((server.rfc7710uri.toList.map fun uri => (⟨160, uri⟩ : TaggedValue)).map
      TaggedValue.tag).Sublist [160] := by
    cases server.rfc7710uri with
    | none => exact List.nil_sublist _
    | some uri => exact .refl _
  have routes : ((if conn.noc2c then [(⟨33, be32 conn.ourip ++ be32 conn.hisip⟩ : TaggedValue)]
      else []).map TaggedValue.tag).Sublist [33] := optional
  have front := ((List.Sublist.refl [1]).append routes).append (.refl [3])
  simp only [replyOptions, acceptOptions, List.map_cons, List.map_append, List.map_nil]
  exact .cons_cons _ ((((front.append dns).append optional).append (.refl [51, 26, 54])).append uri)

theorem length_dnsOption {option : TaggedValue} (member : option ∈ dnsOption conn) :
    option.value.length ≤ 8 := by
  unfold dnsOption at member
  split at member
  · cases List.mem_singleton.mp member
    exact Nat.le_refl 8
  · split at member
    · cases List.mem_singleton.mp member
      exact show 4 ≤ 8 by decide
    · split at member
      · cases List.mem_singleton.mp member
        exact show 4 ≤ 8 by decide
      · cases member

theorem replyOptions_short (short : ∀ uri ∈ server.rfc7710uri, uri.length ≤ 255) {option : TaggedValue}
    (member : option ∈ replyOptions type server conn) : option.value.length ≤ 255 := by
  have domain := conn.domain_terminated
  simp only [replyOptions, acceptOptions, List.mem_cons, List.mem_append, List.not_mem_nil, or_false,
    List.mem_map, Option.mem_toList, List.mem_ite_nil_right] at member
  rcases member with rfl | (((((rfl | ⟨-, rfl⟩) | rfl) | dns) | ⟨-, rfl⟩) | rfl | rfl | rfl) |
    ⟨uri, given, rfl⟩
  · exact show 1 ≤ 255 by decide
  · split
    · exact show 4 ≤ 255 by decide
    · exact show 4 ≤ 255 by decide
  · exact show 8 ≤ 255 by decide
  · exact show 4 ≤ 255 by decide
  · exact (length_dnsOption dns).trans (by decide)
  · exact (Nat.le_of_lt domain).trans (by decide)
  · exact show 4 ≤ 255 by decide
  · exact show 2 ≤ 255 by decide
  · exact show 4 ≤ 255 by decide
  · exact short uri given

theorem replyOptions_wellFormed (short : ∀ uri ∈ server.rfc7710uri, uri.length ≤ 255) :
    ∀ option ∈ replyOptions type server conn, option.WellFormed dhcpFormat := by
  intro option member
  have tag := replyOptions_tags.subset (List.mem_map_of_mem member)
  have apart : ∀ tag ∈ [dhcpOptionMessageType, 1, 33, 3, 6, 15, 51, 26, 54, 160],
      tag ≠ dhcpOptionPad ∧ tag ≠ dhcpOptionEnd := by decide +kernel
  exact ⟨(apart _ tag).1, (apart _ tag).2, Nat.lt_succ_of_le (replyOptions_short short member)⟩

/-- For a URI that fits into the length octet of its option, all of a reply decodes back. -/
theorem dhcpSendAccept_decodes (none' : conn.options = [])
    (short : ∀ uri ∈ server.rfc7710uri, uri.length ≤ 255) :
    DecodesBack (dhcpSendAccept type server conn req).1 (replyOptions type server conn) := by
  obtain ⟨eth, sent⟩ := @dhcpSendAccept_sent type server conn req none' short
  have wellFormed := @replyOptions_wellFormed type server conn short
  have distinct : ((replyOptions type server conn).map TaggedValue.tag).Nodup :=
    replyOptions_tags.nodup (by decide)
  refine ⟨sent.frame.inside, sent.sentPacket_drop, wellFormed, fun option member => ?_⟩
  obtain ⟨found, l, led, rest⟩ :=
    ledTo_encoded wellFormed distinct (List.cons_ne_nil _ _) sent.sentPacket_drop member
  exact ⟨found, l, dhcpGettag_iff.mpr led, rest⟩

def portalConn : ReplyConn :=
  ⟨0x0a000001, 0x0a000002, 0xffffff00, 0x0a000001, 0x08080808, [0x6c, 0x61, 0x6e], true, 1500,
    Vector.replicate 64 0, Vector.replicate 128 0, [], by decide⟩

def portalServer (uri : List UInt8) : ReplyServer := ⟨600, Vector.replicate 6 2, false, some uri⟩

theorem dhcpSendAccept_decodes_portal :
    DecodesBack (dhcpSendAccept dhcpOffer (portalServer (List.replicate 255 0x61)) portalConn
      fun _ => 0).1 (replyOptions dhcpOffer (portalServer (List.replicate 255 0x61)) portalConn) :=
  dhcpSendAccept_decodes rfl (by
    rintro uri ⟨⟩
    rw [List.length_replicate])

/-- The length of a longer URI does not fit into an octet. -/
theorem dhcpSendAccept_long_uri :
    ¬ DecodesBack (dhcpSendAccept dhcpOffer (portalServer (List.replicate 256 0x61)) portalConn
      fun _ => 0).1 (replyOptions dhcpOffer (portalServer (List.replicate 256 0x61)) portalConn) := by
  intro decodes
  have member : (⟨160, List.replicate 256 0x61⟩ : TaggedValue) ∈
      replyOptions dhcpOffer (portalServer (List.replicate 256 0x61)) portalConn :=
    .tail _ (List.mem_append_right _ (.head _))
  obtain ⟨_, l, -, -, counted, -⟩ := decodes.found _ member
  rw [List.length_replicate] at counted
  exact absurd l.toNat_lt (by omega)

end Rut9xx.Chilli
