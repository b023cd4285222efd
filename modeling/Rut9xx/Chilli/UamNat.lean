import Rut9xx.Chilli.DhcpConn
import Rut9xx.Chilli.Frame
import Rut9xx.Data.RingLog
import Mathlib.Data.List.FinRange

namespace Rut9xx.Chilli

open Data

/-! # The NAT table of the portal -/

section

abbrev DHCP_DNAT_MAX : Nat := 128

/-- `struct dhcp_nat_t`, with the numbers in network byte order. -/
structure DhcpNat where
  mac : Mac
  dstIp : UInt32
  dstPort : UInt16
  srcIp : UInt32
  srcPort : UInt16
  deriving DecidableEq

def DhcpNat.zero : DhcpNat := ⟨.replicate 6 0, 0, 0, 0, 0⟩

/-- What the translation uses of `struct dhcp_conn_t`. -/
structure NatConn where
  dnat : Fin DHCP_DNAT_MAX → DhcpNat
  nextdnat : Fin DHCP_DNAT_MAX

/-- A connection as it is set up. -/
def NatConn.fresh : NatConn := ⟨fun _ => .zero, 0⟩

section

variable (pack : Guarded)

def iphdr : Nat := sizeofeth pack.bytes

def tcphdr : Nat := sizeofip pack.bytes

def iphSaddr : UInt32 := word32 pack.bytes (iphdr pack + 12)

def iphDaddr : UInt32 := word32 pack.bytes (iphdr pack + 16)

def tcphSrc : UInt16 := word16 pack.bytes (tcphdr pack)

def tcphDst : UInt16 := word16 pack.bytes (tcphdr pack + 2)

end

/-- The first slot of the flow of a client. -/
def NatConn.find (conn : NatConn) (ip : UInt32) (port : UInt16) : Option (Fin DHCP_DNAT_MAX) :=
  (List.finRange DHCP_DNAT_MAX).find? fun n => (conn.dnat n).srcIp = ip ∧ (conn.dnat n).srcPort = port

/-- With a tap the hardware address of its interface, `_options.usetap`. -/
abbrev Tap : Type := Option Mac

/-- What is written for a new flow into the slot that is next. -/
def NatConn.insert (tap : Tap) (conn : NatConn) (pack : Guarded) : NatConn :=
  let entry := conn.dnat conn.nextdnat
  let mac := if tap.isSome then .ofFn fun index => pack.bytes index else entry.mac
  { dnat := Function.update conn.dnat conn.nextdnat
      { entry with mac := mac, srcIp := iphSaddr pack, srcPort := tcphSrc pack }
    nextdnat := conn.nextdnat + 1 }

def NatConn.setDst (conn : NatConn) (pos : Fin DHCP_DNAT_MAX) (pack : Guarded) : NatConn :=
  { conn with
    dnat := Function.update conn.dnat pos
      { conn.dnat pos with dstIp := iphDaddr pack, dstPort := tcphDst pack } }

/-- `dhcp_uam_nat` to an address and a port in network byte order. -/
def dhcpUamNat (tap : Tap) (conn : NatConn) (pack : Guarded) (addr : UInt32) (port : UInt16) :
    NatConn × Guarded :=
  let found := conn.find (iphSaddr pack) (tcphSrc pack)
  let pos := found.getD conn.nextdnat
  let conn := if found.isSome then conn else conn.insert tap pack
  let conn := conn.setDst pos pack
  let iph := iphdr pack
  let tcph := tcphdr pack
  let pack := match tap with
    | some hwaddr => pack.put 0 hwaddr.toList
    | none => pack
  let pack := (pack.put (iph + 16) (be32 addr)).put (tcph + 2) (be16 port)
  (conn, chksum pack iph)

/-- `dhcp_uam_unnat` -/
def dhcpUamUnnat (tap : Tap) (conn : NatConn) (pack : Guarded) : Guarded :=
  match conn.find (iphDaddr pack) (tcphDst pack) with
  | none => pack
  | some n =>
      let iph := iphdr pack
      let tcph := tcphdr pack
      let pack := if tap.isSome then pack.put pktEthAlen (conn.dnat n).mac.toList else pack
      let pack := (pack.put (iph + 12) (be32 (conn.dnat n).dstIp)).put tcph (be16 (conn.dnat n).dstPort)
      chksum pack iph

inductive NatCall where
  | nat (pack : Guarded) (addr : UInt32) (port : UInt16)
  | unnat (pack : Guarded)

def natCall (tap : Tap) (conn : NatConn) : NatCall → NatConn
  | .nat pack addr port => (dhcpUamNat tap conn pack addr port).1
  -- the table is only read
  | .unnat _ => conn

def natRun (tap : Tap) (conn : NatConn) (calls : List NatCall) : NatConn :=
  calls.foldl (natCall tap) conn

end

/-! ## Flows -/

section

/-- An address and a port. -/
abbrev Endpoint : Type := UInt32 × UInt16

def DhcpNat.client (entry : DhcpNat) : Endpoint := (entry.srcIp, entry.srcPort)

def DhcpNat.server (entry : DhcpNat) : Endpoint := (entry.dstIp, entry.dstPort)

def source (pack : Guarded) : Endpoint := (iphSaddr pack, tcphSrc pack)

def destination (pack : Guarded) : Endpoint := (iphDaddr pack, tcphDst pack)

def NatCall.client : NatCall → Endpoint
  | .nat pack _ _ => source pack
  | .unnat pack => destination pack

def Endpoint.Nonzero (endpoint : Endpoint) : Prop := endpoint.1 ≠ 0 ∧ endpoint.2 ≠ 0

def NatConn.Keeps (conn : NatConn) (client : Endpoint) : Prop :=
  ∃ n, (conn.dnat n).client = client

/-- A call for a flow that is not in the table. -/
def NatConn.inserts (conn : NatConn) : NatCall → Bool
  | .nat pack _ _ => (conn.find (iphSaddr pack) (tcphSrc pack)).isNone
  | .unnat _ => false

/-- How many new flows the calls bring. -/
def natInsertions (tap : Tap) (conn : NatConn) : List NatCall → Nat
  | [] => 0
  | call :: rest => (if conn.inserts call then 1 else 0) + natInsertions tap (natCall tap conn call) rest

/-- Where the most recent packet of a client was to go. -/
def lastServer (client : Endpoint) (calls : List NatCall) : Option Endpoint :=
  calls.foldl (fun last call =>
    match call with
    | .nat pack _ _ => if source pack = client then some (destination pack) else last
    | .unnat _ => last) none

/-- A TCP packet whose IP header is no shorter than it can be. -/
structure TcpPacket (pack : Guarded) : Prop where
  tcp : protocol pack.bytes = ipProtoTcp
  header : pktIpHlen ≤ headerLen pack.bytes

end

variable {tap : Tap} {conn : NatConn} {pack reply : Guarded} {addr ip : UInt32} {port : UInt16}
  {n : Fin DHCP_DNAT_MAX} {call : NatCall} {calls : List NatCall} {client : Endpoint}

theorem find_some (found : conn.find ip port = some n) : (conn.dnat n).client = (ip, port) := by
  have matched := List.find?_some found
  simp only [decide_eq_true_eq] at matched
  exact Prod.ext matched.1 matched.2

theorem find_none (absent : conn.find ip port = none) : ¬ conn.Keeps (ip, port) := by
  rintro ⟨n, here⟩
  have missed := List.find?_eq_none.mp absent n (List.mem_finRange n)
  simp only [decide_eq_true_eq] at missed
  exact missed ⟨congrArg Prod.fst here, congrArg Prod.snd here⟩

theorem find_isNone_iff : (conn.find ip port).isNone = true ↔ ¬ conn.Keeps (ip, port) := by
  cases found : conn.find ip port with
  | none => simp [find_none found]
  | some n => simpa using ⟨n, find_some found⟩

/-! ## The table as a log of its flows -/

/-- The entry that a packet of a flow leaves. -/
def DhcpNat.Of (entry : DhcpNat) (pack : Guarded) : Prop :=
  entry.client = source pack ∧ entry.server = destination pack

/-- The table holds the last flows that came, each with the server of its last packet. -/
structure Tracks (conn : NatConn) (log : List DhcpNat) (calls : List NatCall) : Prop where
  ring : InRing .zero conn.dnat log
  next : conn.nextdnat = ringSlot DHCP_DNAT_MAX log.length
  /-- A flow comes again only when its entry has been replaced. -/
  spaced : ∀ first second client, first < second → (log.map DhcpNat.client)[first]? = some client →
    (log.map DhcpNat.client)[second]? = some client → first + DHCP_DNAT_MAX < second
  latest : ∀ index entry, InLap DHCP_DNAT_MAX log index → log[index]? = some entry →
    lastServer entry.client calls = some entry.server

theorem natCall_found (found : conn.find (iphSaddr pack) (tcphSrc pack) = some n) :
    natCall tap conn (.nat pack addr port) = conn.setDst n pack := by
  simp only [natCall, dhcpUamNat, found, Option.getD_some, Option.isSome_some, if_true]

/-- A new flow takes the next slot. -/
theorem natCall_new (absent : conn.find (iphSaddr pack) (tcphSrc pack) = none) :
    ∃ entry : DhcpNat, entry.Of pack ∧ natCall tap conn (.nat pack addr port) =
      ⟨Function.update conn.dnat conn.nextdnat entry, conn.nextdnat + 1⟩ := by
  refine ⟨((conn.insert tap pack).setDst conn.nextdnat pack).dnat conn.nextdnat, ⟨?_, ?_⟩, ?_⟩
  · simp only [NatConn.setDst, NatConn.insert, Function.update_self, DhcpNat.client, source]
  · simp only [NatConn.setDst, NatConn.insert, Function.update_self, DhcpNat.server, destination]
  · simp only [natCall, dhcpUamNat, absent, Option.getD_none, Option.isSome_none, NatConn.insert,
      NatConn.setDst, Bool.false_eq_true, if_false, Function.update_self, Function.update_idem]

theorem lastServer_append (calls : List NatCall) (call : NatCall) :
    lastServer client (calls ++ [call]) =
      match call with
      | .nat pack _ _ => if source pack = client then some (destination pack) else lastServer client calls
      | .unnat _ => lastServer client calls := by
  rw [lastServer, List.foldl_append]
  rfl

namespace Tracks

variable {log : List DhcpNat}

theorem fresh : Tracks .fresh [] [] where
  ring := .nil fun _ => rfl
  next := rfl
  spaced _ _ _ _ here := by cases here
  latest _ _ lap := absurd lap.logged (Nat.not_lt_zero _)

/-- A slot that is in use is an entry of the last lap. -/
theorem slot (tracks : Tracks conn log calls) (n : Fin DHCP_DNAT_MAX)
    (nonzero : (conn.dnat n).client.Nonzero) :
    ∃ index, InLap DHCP_DNAT_MAX log index ∧ ringSlot DHCP_DNAT_MAX index = n ∧
      log[index]? = some (conn.dnat n) := by
  rcases tracks.ring.cell n with unused | held
  · rw [unused] at nonzero
    exact absurd rfl nonzero.1
  · exact held

theorem once (tracks : Tracks conn log calls) {first second : Nat} {entry other : DhcpNat}
    (lap : InLap DHCP_DNAT_MAX log first) (lap' : InLap DHCP_DNAT_MAX log second)
    (here : log[first]? = some entry) (there : log[second]? = some other)
    (same : entry.client = other.client) : first = second := by
  have last := lap.last
  have last' := lap'.last
  have logged := lap.logged
  have logged' := lap'.logged
  have client : (log.map DhcpNat.client)[first]? = some entry.client := by
    rw [List.getElem?_map, here, Option.map_some]
  have client' : (log.map DhcpNat.client)[second]? = some entry.client := by
    rw [List.getElem?_map, there, Option.map_some, same]
  rcases Nat.lt_trichotomy first second with before | equal | behind
  · have apart := tracks.spaced first second _ before client client'
    omega
  · exact equal
  · have apart := tracks.spaced second first _ behind client' client
    omega

theorem slot_unique (tracks : Tracks conn log calls) (nonzero : client.Nonzero)
    {n m : Fin DHCP_DNAT_MAX} (here : (conn.dnat n).client = client)
    (there : (conn.dnat m).client = client) : n = m := by
  obtain ⟨first, lap, rfl, held⟩ := tracks.slot n (here ▸ nonzero)
  obtain ⟨second, lap', rfl, held'⟩ := tracks.slot m (there ▸ nonzero)
  rw [tracks.once lap lap' held held' (here.trans there.symm)]

/-- A packet of a flow that is in the table. -/
theorem found (tracks : Tracks conn log calls) (nonzero : (source pack).Nonzero)
    (found : conn.find (iphSaddr pack) (tcphSrc pack) = some n) :
    ∃ after, Tracks (conn.setDst n pack) after (calls ++ [.nat pack addr port]) ∧
      after.map DhcpNat.client = log.map DhcpNat.client := by
  have here : (conn.dnat n).client = source pack := find_some found
  obtain ⟨index, lap, rfl, held⟩ := tracks.slot n (here ▸ nonzero)
  have clients : (log.set index { conn.dnat (ringSlot DHCP_DNAT_MAX index) with
      dstIp := iphDaddr pack, dstPort := tcphDst pack }).map DhcpNat.client =
        log.map DhcpNat.client := by
    obtain ⟨inside, entry⟩ := List.getElem?_eq_some_iff.mp held
    rw [List.map_set]
    apply List.ext_getElem?
    intro other
    by_cases same : index = other
    · subst same
      rw [List.getElem?_set_self (by simpa using inside), List.getElem?_map, held]
      rfl
    · rw [List.getElem?_set_ne same]
  refine ⟨_, ⟨tracks.ring.alter lap, ?_, ?_, ?_⟩, clients⟩
  · rw [List.length_set]
    exact tracks.next
  · rw [clients]
    exact tracks.spaced
  · intro other entry lap' there
    rw [lastServer_append]
    by_cases same : index = other
    · subst same
      rw [List.getElem?_set_self lap.logged] at there
      cases there
      exact if_pos here.symm
    · have lap'' : InLap DHCP_DNAT_MAX log other := by
        have logged := lap'.logged
        have last := lap'.last
        rw [List.length_set] at logged last
        exact ⟨logged, last⟩
      rw [List.getElem?_set_ne same] at there
      have apart : source pack ≠ entry.client := fun equal =>
        same (tracks.once lap lap'' held there (here.trans equal))
      simp only
      rw [if_neg apart]
      exact tracks.latest other entry lap'' there

/-- A packet of a flow that is not in the table. -/
theorem new (tracks : Tracks conn log calls)
    (absent : conn.find (iphSaddr pack) (tcphSrc pack) = none) :
    ∃ after, Tracks (natCall tap conn (.nat pack addr port)) after (calls ++ [.nat pack addr port]) ∧
      after.map DhcpNat.client = log.map DhcpNat.client ++ [source pack] := by
  obtain ⟨entry, ⟨client, server⟩, called⟩ := @natCall_new tap conn pack addr port absent
  have unseen (index : Nat) (other : DhcpNat) (lap : InLap DHCP_DNAT_MAX log index)
      (there : log[index]? = some other) : other.client ≠ source pack := by
    intro same
    have held := (tracks.ring.held index lap).symm.trans there
    cases held
    exact find_none absent ⟨_, same⟩
  have clients : (log ++ [entry]).map DhcpNat.client = log.map DhcpNat.client ++ [source pack] := by
    rw [List.map_append, List.map_singleton, client]
  refine ⟨log ++ [entry], ?_, clients⟩
  rw [called, tracks.next]
  refine ⟨tracks.ring.push, ?_, ?_, ?_⟩
  · rw [List.length_append, List.length_singleton]
    apply Fin.ext
    simp [ringSlot, Fin.val_add, Nat.add_mod]
  · rw [clients]
    intro first second other before here there
    have inside := (List.getElem?_eq_some_iff.mp there).1
    rw [List.length_append, List.length_singleton] at inside
    rw [List.getElem?_append_left (by omega)] at here
    rcases Nat.eq_or_lt_of_le (Nat.le_of_lt_succ inside) with rfl | old
    · rw [List.getElem?_concat_length] at there
      cases there
      rw [List.length_map] at before ⊢
      by_contra near
      rw [List.getElem?_map] at here
      obtain ⟨held, place, same⟩ := Option.map_eq_some_iff.mp here
      exact unseen first held ⟨before, by omega⟩ place same
    · rw [List.getElem?_append_left old] at there
      exact tracks.spaced first second other before here there
  · intro index other lap there
    rw [lastServer_append]
    have logged := lap.logged
    have last := lap.last
    rw [List.length_append, List.length_singleton] at logged last
    rcases Nat.eq_or_lt_of_le (Nat.le_of_lt_succ logged) with rfl | before
    · rw [List.getElem?_concat_length] at there
      cases there
      simp only
      rw [if_pos client.symm, server]
    · rw [List.getElem?_append_left before] at there
      have lap' : InLap DHCP_DNAT_MAX log index := ⟨before, by omega⟩
      simp only
      rw [if_neg (unseen index other lap' there).symm]
      exact tracks.latest index other lap' there

/-- One call. -/
theorem step (tracks : Tracks conn log calls) (call : NatCall) (nonzero : call.client.Nonzero) :
    ∃ after, Tracks (natCall tap conn call) after (calls ++ [call]) ∧
      after.map DhcpNat.client =
        log.map DhcpNat.client ++ if conn.inserts call then [call.client] else [] := by
  cases call with
  | unnat pack =>
      refine ⟨log, ⟨tracks.ring, tracks.next, tracks.spaced, ?_⟩, ?_⟩
      · intro index entry lap here
        rw [lastServer_append]
        exact tracks.latest index entry lap here
      · exact (List.append_nil _).symm
  | nat pack addr port =>
      cases held : conn.find (iphSaddr pack) (tcphSrc pack) with
      | some n =>
          obtain ⟨after, kept, clients⟩ := @found conn pack addr port n calls log tracks nonzero held
          refine ⟨after, ?_, ?_⟩
          · rw [natCall_found held]
            exact kept
          · rw [clients, NatConn.inserts, held]
            exact (List.append_nil _).symm
      | none =>
          obtain ⟨after, kept, clients⟩ := @new tap conn pack addr port calls log tracks held
          refine ⟨after, kept, ?_⟩
          rw [clients, NatConn.inserts, held]
          rfl

/-- A run of calls. -/
theorem run (tracks : Tracks conn log calls) (more : List NatCall)
    (nonzero : ∀ call ∈ more, call.client.Nonzero) :
    ∃ after flows, Tracks (natRun tap conn more) after (calls ++ more) ∧
      after.map DhcpNat.client = log.map DhcpNat.client ++ flows ∧
        flows.length = natInsertions tap conn more := by
  induction more generalizing conn log calls with
  | nil => exact ⟨log, [], (List.append_nil calls).symm ▸ tracks, (List.append_nil _).symm, rfl⟩
  | cons call rest ih =>
      obtain ⟨next, kept, clients⟩ := @Tracks.step tap conn calls log tracks call (nonzero call (by simp))
      obtain ⟨after, flows, keptAll, clientsAll, count⟩ :=
        ih kept fun other member => nonzero other (List.mem_cons_of_mem _ member)
      refine ⟨after, (if conn.inserts call then [call.client] else []) ++ flows, ?_, ?_, ?_⟩
      · rw [List.append_cons]
        exact keptAll
      · rw [clientsAll, clients, List.append_assoc]
      · rw [List.length_append, count, natInsertions]
        congr 1
        split <;> rfl

end Tracks

/-! ## What a translation writes -/

section

/-- The hardware address `mac` at `hw`, the address `ip` in the IP header and the port in the TCP
header. -/
def readdress (pack : Guarded) (hw : Nat) (mac : List UInt8) (addrAt portAt : Nat) (ip : UInt32)
    (port : UInt16) : Guarded :=
  chksum (((pack.put hw mac).put (iphdr pack + addrAt) (be32 ip)).put (tcphdr pack + portAt)
    (be16 port)) (iphdr pack)

def tapMac (tap : Tap) (mac : Mac) : List UInt8 := if tap.isSome then mac.toList else []

variable {mac : List UInt8} {hw addrAt portAt address : Nat} {entry : Mac}

theorem put_nil : pack.put hw [] = pack := by
  simp [Guarded.put, Guarded.touch]

theorem tapMac_length : (tapMac tap entry).length ≤ pktEthAlen := by
  unfold tapMac
  split <;> simp [pktEthAlen]

theorem dhcpUamNat_pack : (dhcpUamNat tap conn pack addr port).2 =
    readdress pack 0 (tapMac tap (tap.getD (.replicate 6 0))) 16 2 addr port := by
  cases tap with
  | none => simp only [dhcpUamNat, readdress, tapMac, Option.isSome_none, Bool.false_eq_true, if_false,
      put_nil]
  | some hwaddr => rfl

theorem dhcpUamUnnat_some (found : conn.find (iphDaddr pack) (tcphDst pack) = some n) :
    dhcpUamUnnat tap conn pack = readdress pack pktEthAlen (tapMac tap (conn.dnat n).mac) 12 0
      (conn.dnat n).dstIp (conn.dnat n).dstPort := by
  cases tap with
  | none => simp only [dhcpUamUnnat, found, readdress, tapMac, Option.isSome_none, Bool.false_eq_true,
      if_false, put_nil, Nat.add_zero]
  | some hwaddr => simp only [dhcpUamUnnat, found, readdress, tapMac, Option.isSome_some, if_true,
      Nat.add_zero]

/-- The fields of a TCP packet that are neither written nor checksums. -/
structure Apart (pack : Guarded) (hw : Nat) (mac : List UInt8) (addrAt portAt address : Nat) : Prop where
  mac : address < hw ∨ hw + mac.length ≤ address
  addr : address < iphdr pack + addrAt ∨ iphdr pack + addrAt + 4 ≤ address
  port : address < tcphdr pack + portAt ∨ tcphdr pack + portAt + 2 ≤ address
  check : address < iphdr pack + 10 ∨ iphdr pack + 12 ≤ address
  check' : address < tcphdr pack + 16 ∨ tcphdr pack + 18 ≤ address

theorem iphdr_ge : pktEthHlen ≤ iphdr pack := Nat.le_add_right _ _

theorem TcpPacket.tcphdr_ge (packet : TcpPacket pack) : iphdr pack + pktIpHlen ≤ tcphdr pack :=
  Nat.add_le_add_left packet.header _

variable (packet : TcpPacket pack) (macs : hw + mac.length ≤ 2 * pktEthAlen)
  (addrs : addrAt = 12 ∨ addrAt = 16) (ports : portAt ≤ 2)

include packet macs addrs ports

/-- What the checksums are computed over is a TCP packet with the same header. -/
theorem chksum_readdress {place : Nat}
    (check : place < iphdr pack + 10 ∨ iphdr pack + 12 ≤ place)
    (check' : place < tcphdr pack + 16 ∨ tcphdr pack + 18 ≤ place) :
    (readdress pack hw mac addrAt portAt ip port).bytes place =
      (((pack.put hw mac).put (iphdr pack + addrAt) (be32 ip)).put (tcphdr pack + portAt)
        (be16 port)).bytes place := by
  have eth := @iphdr_ge pack
  have tcp := packet.tcphdr_ge
  simp only [pktEthHlen, pktIpHlen, pktEthAlen] at eth tcp macs
  have header (index : Nat) (below : index < 10) :
      (((pack.put hw mac).put (iphdr pack + addrAt) (be32 ip)).put (tcphdr pack + portAt)
        (be16 port)).bytes (iphdr pack + index) = pack.bytes (iphdr pack + index) := by
    simp only [Guarded.put_bytes]
    rw [store_outside (by rw [be16_length]; omega), store_outside (by rw [be32_length]; omega),
      store_outside (by omega)]
  have first := header 0 (by decide)
  rw [Nat.add_zero] at first
  refine chksum_apart ((header 9 (by decide)).trans packet.tcp) check ?_
  rw [first]
  exact check'

theorem readdress_apart (apart : Apart pack hw mac addrAt portAt address) :
    (readdress pack hw mac addrAt portAt ip port).bytes address = pack.bytes address := by
  rw [chksum_readdress packet macs addrs ports apart.check apart.check']
  simp only [Guarded.put_bytes]
  rw [store_outside (by rw [be16_length]; exact apart.port),
    store_outside (by rw [be32_length]; exact apart.addr), store_outside apart.mac]

theorem readdress_addr :
    word32 (readdress pack hw mac addrAt portAt ip port).bytes (iphdr pack + addrAt) = ip := by
  have tcp := packet.tcphdr_ge
  simp only [pktIpHlen] at tcp
  refine (word32_congr fun index below => ?_).trans (@word32_store (store pack.bytes hw mac) _ ip)
  rw [chksum_readdress packet macs addrs ports (by omega) (by omega)]
  simp only [Guarded.put_bytes]
  exact store_outside (by rw [be16_length]; omega)

theorem readdress_port :
    word16 (readdress pack hw mac addrAt portAt ip port).bytes (tcphdr pack + portAt) = port := by
  have tcp := packet.tcphdr_ge
  simp only [pktIpHlen] at tcp
  refine (word16_congr fun index below => ?_).trans
    (@word16_store (store (store pack.bytes hw mac) (iphdr pack + addrAt) (be32 ip)) _ port)
  rw [chksum_readdress packet macs addrs ports (by omega) (by omega)]
  rfl

theorem readdress_iphdr : iphdr (readdress pack hw mac addrAt portAt ip port) = iphdr pack := by
  have eth := @iphdr_ge pack
  have tcp := packet.tcphdr_ge
  simp only [pktEthHlen, pktIpHlen, pktEthAlen] at eth tcp macs
  have same : word16 (readdress pack hw mac addrAt portAt ip port).bytes (2 * pktEthAlen) =
      word16 pack.bytes (2 * pktEthAlen) := word16_congr fun index below =>
    readdress_apart packet macs addrs ports
      (by constructor <;> simp only [pktEthAlen] <;> omega)
  have tagged : is8021q (readdress pack hw mac addrAt portAt ip port).bytes = is8021q pack.bytes := by
    unfold is8021q
    rw [same]
  unfold iphdr sizeofeth
  rw [tagged]

theorem readdress_tcphdr : tcphdr (readdress pack hw mac addrAt portAt ip port) = tcphdr pack := by
  have eth := @iphdr_ge pack
  have tcp := packet.tcphdr_ge
  have iph := @readdress_iphdr pack ip port mac hw addrAt portAt packet macs addrs ports
  have first : (readdress pack hw mac addrAt portAt ip port).bytes (iphdr pack) =
      pack.bytes (iphdr pack) := readdress_apart packet macs addrs ports
    (by simp only [pktEthHlen, pktIpHlen, pktEthAlen] at eth tcp macs; constructor <;> omega)
  simp only [tcphdr, sizeofip, headerLen, versionIhl]
  simp only [iphdr] at iph first
  rw [iph, first]

end

theorem dhcpUamNat_source (packet : TcpPacket pack) :
    source (dhcpUamNat tap conn pack addr port).2 = source pack := by
  have eth := @iphdr_ge pack
  have tcp := packet.tcphdr_ge
  have bound := @tapMac_length tap (tap.getD (.replicate 6 0))
  simp only [pktEthHlen, pktIpHlen, pktEthAlen] at eth tcp bound
  have macs : 0 + (tapMac tap (tap.getD (.replicate 6 0))).length ≤ 2 * pktEthAlen := by
    simp only [pktEthAlen]
    omega
  rw [dhcpUamNat_pack]
  refine Prod.ext ?_ ?_
  · simp only [source, iphSaddr, readdress_iphdr packet macs (.inr rfl) (Nat.le_refl 2)]
    refine word32_congr fun index below => readdress_apart packet macs (.inr rfl) (Nat.le_refl 2) ?_
    constructor <;> omega
  · simp only [source, tcphSrc, readdress_tcphdr packet macs (.inr rfl) (Nat.le_refl 2)]
    refine word16_congr fun index below => readdress_apart packet macs (.inr rfl) (Nat.le_refl 2) ?_
    constructor <;> omega

theorem dhcpUamNat_destination (packet : TcpPacket pack) :
    destination (dhcpUamNat tap conn pack addr port).2 = (addr, port) := by
  have bound := @tapMac_length tap (tap.getD (.replicate 6 0))
  have macs : 0 + (tapMac tap (tap.getD (.replicate 6 0))).length ≤ 2 * pktEthAlen := by omega
  rw [dhcpUamNat_pack]
  refine Prod.ext ?_ ?_
  · simp only [destination, iphDaddr, readdress_iphdr packet macs (.inr rfl) (Nat.le_refl 2)]
    exact readdress_addr packet macs (.inr rfl) (Nat.le_refl 2)
  · simp only [destination, tcphDst, readdress_tcphdr packet macs (.inr rfl) (Nat.le_refl 2)]
    exact readdress_port packet macs (.inr rfl) (Nat.le_refl 2)

section

variable (packet : TcpPacket reply)
  (found : conn.find (iphDaddr reply) (tcphDst reply) = some n)

include packet found

theorem dhcpUamUnnat_source : source (dhcpUamUnnat tap conn reply) = (conn.dnat n).server := by
  have bound := @tapMac_length tap (conn.dnat n).mac
  have macs : pktEthAlen + (tapMac tap (conn.dnat n).mac).length ≤ 2 * pktEthAlen := by omega
  rw [dhcpUamUnnat_some found]
  refine Prod.ext ?_ ?_
  · simp only [source, iphSaddr, readdress_iphdr packet macs (.inl rfl) (Nat.zero_le 2)]
    exact readdress_addr packet macs (.inl rfl) (Nat.zero_le 2)
  · simp only [source, tcphSrc, readdress_tcphdr packet macs (.inl rfl) (Nat.zero_le 2)]
    exact readdress_port packet macs (.inl rfl) (Nat.zero_le 2)

theorem dhcpUamUnnat_destination : destination (dhcpUamUnnat tap conn reply) = destination reply := by
  have eth := @iphdr_ge reply
  have tcp := packet.tcphdr_ge
  have bound := @tapMac_length tap (conn.dnat n).mac
  simp only [pktEthHlen, pktIpHlen] at eth tcp
  have six : pktEthAlen = 6 := rfl
  have macs : pktEthAlen + (tapMac tap (conn.dnat n).mac).length ≤ 2 * pktEthAlen := by omega
  rw [dhcpUamUnnat_some found]
  refine Prod.ext ?_ ?_
  · simp only [destination, iphDaddr, readdress_iphdr packet macs (.inl rfl) (Nat.zero_le 2)]
    refine word32_congr fun index below => readdress_apart packet macs (.inl rfl) (Nat.zero_le 2) ?_
    constructor <;> omega
  · simp only [destination, tcphDst, readdress_tcphdr packet macs (.inl rfl) (Nat.zero_le 2)]
    refine word16_congr fun index below => readdress_apart packet macs (.inl rfl) (Nat.zero_le 2) ?_
    constructor <;> omega

end

theorem dhcpUamUnnat_unknown (unknown : ¬ conn.Keeps (destination reply)) :
    dhcpUamUnnat tap conn reply = reply := by
  have absent := find_isNone_iff.mpr unknown
  unfold dhcpUamUnnat
  rw [Option.isNone_iff_eq_none.mp absent]

theorem find_isSome (kept : conn.Keeps (ip, port)) : ∃ n, conn.find ip port = some n := by
  cases found : conn.find ip port with
  | none => exact absurd kept (find_none found)
  | some n => exact ⟨n, rfl⟩

theorem natCall_keeps : (natCall tap conn (.nat pack addr port)).Keeps (source pack) := by
  cases found : conn.find (iphSaddr pack) (tcphSrc pack) with
  | some n =>
      rw [natCall_found found]
      refine ⟨n, ?_⟩
      simp only [NatConn.setDst, Function.update_self]
      exact find_some found
  | none =>
      obtain ⟨entry, ⟨client, -⟩, called⟩ := @natCall_new tap conn pack addr port found
      rw [called]
      refine ⟨conn.nextdnat, ?_⟩
      simp only [Function.update_self]
      exact client

/-! ## Round trips -/

/-- Bytes that the way back of a reply does not write: all but the hardware address it comes from,
its source and the checksums. -/
def Unwritten (reply : Guarded) : Nat → Prop :=
  Apart reply pktEthAlen (List.replicate pktEthAlen 0) 12 0

/-- The table `conn` after `calls`. -/
structure RoundTrips (tap : Tap) (conn : NatConn) (calls : List NatCall) : Prop where
  once : ∀ client : Endpoint, client.Nonzero → ∀ n m,
    (conn.dnat n).client = client → (conn.dnat m).client = client → n = m
  /-- A new flow leaves with the last of as many new flows behind it as there are slots. -/
  kept : ∀ pack addr port later, conn.inserts (.nat pack addr port) = true → (source pack).Nonzero →
    (∀ call ∈ later, call.client.Nonzero) →
      (natInsertions tap (natCall tap conn (.nat pack addr port)) later < DHCP_DNAT_MAX →
        (natRun tap conn (.nat pack addr port :: later)).Keeps (source pack)) ∧
      (natInsertions tap (natCall tap conn (.nat pack addr port)) later = DHCP_DNAT_MAX →
        ¬ (natRun tap conn (.nat pack addr port :: later)).Keeps (source pack))
  reply : ∀ reply, TcpPacket reply → (destination reply).Nonzero → conn.Keeps (destination reply) →
    lastServer (destination reply) calls = some (source (dhcpUamUnnat tap conn reply)) ∧
      destination (dhcpUamUnnat tap conn reply) = destination reply ∧
        ∀ address, Unwritten reply address →
          (dhcpUamUnnat tap conn reply).bytes address = reply.bytes address
  unknown : ∀ reply, ¬ conn.Keeps (destination reply) → dhcpUamUnnat tap conn reply = reply
  swapped : ∀ pack addr port reply, TcpPacket pack → TcpPacket reply → (source pack).Nonzero →
    let after := dhcpUamNat tap conn pack addr port
    source after.2 = source pack ∧ destination after.2 = (addr, port) ∧
      (source reply = destination after.2 → destination reply = source after.2 →
        source (dhcpUamUnnat tap after.1 reply) = destination pack ∧
          destination (dhcpUamUnnat tap after.1 reply) = source pack)

namespace Tracks

variable {log : List DhcpNat}

theorem kept (tracks : Tracks conn log calls) {later : List NatCall}
    (inserts : conn.inserts (.nat pack addr port) = true) (nonzero : (source pack).Nonzero)
    (nonzero' : ∀ call ∈ later, call.client.Nonzero) :
    (natInsertions tap (natCall tap conn (.nat pack addr port)) later < DHCP_DNAT_MAX →
        (natRun tap conn (.nat pack addr port :: later)).Keeps (source pack)) ∧
      (natInsertions tap (natCall tap conn (.nat pack addr port)) later = DHCP_DNAT_MAX →
        ¬ (natRun tap conn (.nat pack addr port :: later)).Keeps (source pack)) := by
  obtain ⟨next, tracksNext, clients⟩ := @Tracks.step tap conn calls log tracks (.nat pack addr port) nonzero
  rw [inserts, if_pos rfl] at clients
  obtain ⟨after, flows, tracksAfter, clients', count⟩ := @Tracks.run tap _ _ next tracksNext later nonzero'
  have length : after.length = log.length + 1 + flows.length := by
    have lengths := congrArg List.length clients'
    rw [clients] at lengths
    simp only [List.length_map, List.length_append, List.length_singleton] at lengths
    exact lengths
  have here : (after.map DhcpNat.client)[log.length]? = some (source pack) := by
    rw [clients', clients, List.append_assoc, List.getElem?_append_right (by simp)]
    simp [NatCall.client]
  have called : natRun tap conn (.nat pack addr port :: later) =
      natRun tap (natCall tap conn (.nat pack addr port)) later := rfl
  rw [called, ← count]
  constructor
  · intro few
    have lap : InLap DHCP_DNAT_MAX after log.length := ⟨by omega, by omega⟩
    rw [List.getElem?_map, tracksAfter.ring.held _ lap] at here
    exact ⟨_, Option.some.inj here⟩
  · rintro full ⟨n, held⟩
    obtain ⟨index, lap, -, place⟩ := tracksAfter.slot n (held ▸ nonzero)
    have there : (after.map DhcpNat.client)[index]? = some (source pack) := by
      rw [List.getElem?_map, place, Option.map_some, held]
    have logged := lap.logged
    have last := lap.last
    have apart := tracksAfter.spaced _ _ _ (by omega) here there
    omega

theorem server (tracks : Tracks conn log calls) (nonzero : (conn.dnat n).client.Nonzero) :
    lastServer (conn.dnat n).client calls = some (conn.dnat n).server := by
  obtain ⟨index, lap, -, held⟩ := tracks.slot n nonzero
  exact tracks.latest index _ lap held

theorem roundTrips (tracks : Tracks conn log calls) : RoundTrips tap conn calls where
  once client nonzero n m := tracks.slot_unique nonzero
  kept pack addr port later := tracks.kept
  reply reply packet nonzero kept := by
    obtain ⟨n, found⟩ := find_isSome kept
    have client : (conn.dnat n).client = destination reply := find_some found
    refine ⟨?_, dhcpUamUnnat_destination packet found, fun address apart => ?_⟩
    · rw [dhcpUamUnnat_source packet found, ← client]
      exact tracks.server (client ▸ nonzero)
    · have bound := @tapMac_length tap (conn.dnat n).mac
      have macs : pktEthAlen + (tapMac tap (conn.dnat n).mac).length ≤ 2 * pktEthAlen := by omega
      rw [dhcpUamUnnat_some found]
      refine readdress_apart packet macs (.inl rfl) (Nat.zero_le 2) { apart with mac := ?_ }
      have mac := apart.mac
      rw [List.length_replicate] at mac
      omega
  unknown reply := dhcpUamUnnat_unknown
  swapped pack addr port reply packet packet' nonzero := by
    refine ⟨dhcpUamNat_source packet, dhcpUamNat_destination packet, fun _ back => ?_⟩
    rw [dhcpUamNat_source packet] at back
    obtain ⟨after, tracksAfter, -⟩ :=
      @Tracks.step tap conn calls log tracks (.nat pack addr port) nonzero
    obtain ⟨n, found⟩ := find_isSome (back ▸ @natCall_keeps tap conn pack addr port)
    have client : ((natCall tap conn (.nat pack addr port)).dnat n).client = source pack :=
      (find_some found).trans back
    have server := tracksAfter.server (client ▸ nonzero)
    rw [client, lastServer_append] at server
    simp only [if_true, Option.some.injEq] at server
    exact ⟨(dhcpUamUnnat_source packet' found).trans server.symm,
      (dhcpUamUnnat_destination packet' found).trans back⟩

end Tracks

/-- In every run of calls for clients with an address and a port. -/
theorem natRun_roundTrips (nonzero : ∀ call ∈ calls, call.client.Nonzero) :
    RoundTrips tap (natRun tap .fresh calls) calls := by
  obtain ⟨after, -, tracks, -⟩ := @Tracks.run tap _ _ _ .fresh calls nonzero
  exact tracks.roundTrips

/-- A TCP packet between two endpoints 1.1.1.1:257. -/
def onesPacket : Guarded :=
  { size := 64, bytes := fun place => if place = 14 then 0x45 else if place = 23 then 6 else 1, inside := true }

theorem natRun_roundTrips_ones :
    RoundTrips none (natRun none .fresh [.nat onesPacket 7 8]) [.nat onesPacket 7 8] :=
  @natRun_roundTrips none [.nat onesPacket 7 8] (by
    intro call member
    rw [List.mem_singleton.mp member]
    exact ⟨by decide, by decide⟩)

end Rut9xx.Chilli
