import Rut9xx.Chilli.DnsNat

namespace Rut9xx.Chilli

open Data

/-! # Requests and replies in any order -/

variable {options : DnsOptions} {names : LocalNames} {conn next : DnsConn}
  {pack after : IpPacket} {verdict : DnsVerdict} {doChecksum checked : Bool}

/-- One of the servers the client was told of. -/
def DnsConn.Own (conn : DnsConn) (server : UInt32) : Prop := server = conn.dns1 ∨ server = conn.dns2

instance (conn : DnsConn) (server : UInt32) : Decidable (conn.Own server) :=
  inferInstanceAs (Decidable (_ ∨ _))

/-- What a request to the server leaves in `dnatdns`. -/
def DnsConn.foreign (conn : DnsConn) (server : UInt32) : UInt32 := if conn.Own server then 0 else server

/-- The server that a request is forwarded to. -/
def DnsConn.standIn (conn : DnsConn) (server : UInt32) : UInt32 :=
  if conn.Own server then server else conn.dns1

/-- The source that a reply is given. -/
def DnsConn.source (conn : DnsConn) (server : UInt32) : UInt32 :=
  if conn.dnatdns = 0 then server else conn.dnatdns

theorem dhcpDns_long {isReq : Bool} {dns kept : List UInt8}
    (forwarded : dhcpDns options names isReq dns = .ok (some kept)) : dnsHlen ≤ dns.length := by
  by_contra short
  rw [dhcpDns, if_pos (Nat.lt_of_not_le short)] at forwarded
  cases forwarded

/-- The ports are in front of what `dhcp_dns` rewrites. -/
theorem IpPacket.withDns_field {position : Nat} (dns : List UInt8)
    (inside : pack.transport + pktUdpHlen ≤ pack.body.length)
    (ports : position + 2 ≤ pack.transport + pktUdpHlen) :
    (pack.withDns dns).field position = pack.field position := by
  have front : ∀ rest : List UInt8,
      slice (pack.body.take (pack.transport + pktUdpHlen) ++ rest) position 2 =
        slice pack.body position 2 := by
    intro rest
    simp only [slice]
    rw [List.drop_append_of_le_length (by simp; omega), List.take_append_of_le_length (by simp; omega),
      List.drop_take, List.take_take, Nat.min_eq_left (by omega)]
  have whole : slice (pack.body ++ pack.beyond) position 2 = slice pack.body position 2 := by
    simp only [slice]
    rw [List.drop_append_of_le_length (by omega), List.take_append_of_le_length (by simp; omega)]
  simp only [IpPacket.field, IpPacket.withDns, List.append_assoc]
  rw [front, whole]

theorem IpPacket.withDns_dst {kept : List UInt8} (dns : List UInt8)
    {isReq : Bool} (forwarded : dhcpDns options names isReq pack.dns = .ok (some kept)) :
    (pack.withDns dns).dst = pack.dst := by
  have long := dhcpDns_long forwarded
  simp only [IpPacket.dns, List.length_drop, dnsHlen] at long
  have same : (pack.withDns dns).transport = pack.transport := rfl
  rw [IpPacket.dst, same]
  exact pack.withDns_field dns (by omega) (by simp only [pktUdpHlen]; omega)

/-! ## What one packet does -/

theorem DnsConn.translate_eq (any : conn.anydns = true) :
    conn.translate pack doChecksum =
      ({ conn with dnatdns := conn.foreign pack.daddr }, { pack with daddr := conn.standIn pack.daddr },
        !conn.Own pack.daddr || doChecksum) := by
  by_cases own : conn.Own pack.daddr
  · have same : ¬ (pack.daddr ≠ conn.dns1 ∧ pack.daddr ≠ conn.dns2) := by
      rintro ⟨first, second⟩
      exact own.elim first second
    simp [DnsConn.translate, any, same, own, DnsConn.foreign, DnsConn.standIn]
  · have other : pack.daddr ≠ conn.dns1 ∧ pack.daddr ≠ conn.dns2 := not_or.mp own
    simp [DnsConn.translate, any, other, own, DnsConn.foreign, DnsConn.standIn]

theorem DnsConn.restore_eq (any : conn.anydns = true) :
    (conn.restore pack doChecksum).1 = { pack with saddr := conn.source pack.saddr } := by
  by_cases none : conn.dnatdns = 0
  · simp [DnsConn.restore, none, DnsConn.source]
  · by_cases same : pack.saddr = conn.dnatdns
    · have unchanged : conn.restore pack doChecksum = (pack, doChecksum) :=
        if_neg (by simp [same])
      have kept : conn.source pack.saddr = pack.saddr := by
        rw [DnsConn.source, if_neg none, same]
      rw [unchanged, kept]
    · simp [DnsConn.restore, any, none, same, DnsConn.source]

/-- A request goes on to the stand-in, and the connection remembers whom it was for. -/
structure Forwarded (conn : DnsConn) (sent : IpPacket) (verdict : DnsVerdict) (next : DnsConn)
    (forwarded : IpPacket) : Prop where
  remembered : next = { conn with dnatdns := conn.foreign sent.daddr }
  judged : verdict ≠ .notDns
  protocol : forwarded.protocol = ipProtoUdp
  server : forwarded.daddr = conn.standIn sent.daddr
  port : verdict = .allowed → forwarded.dst = dhcpDnsPort

theorem dhcpDnsDNAT_request (any : conn.anydns = true) (request : conn.isRequest pack = true)
    (done : dhcpDnsDNAT options names conn pack doChecksum = .ok (verdict, next, after, checked)) :
    Forwarded conn pack verdict next after := by
  have kind := request
  simp only [DnsConn.isRequest, Bool.and_eq_true, decide_eq_true_eq] at kind
  obtain ⟨⟨-, udp⟩, port⟩ := kind
  rw [dhcpDnsDNAT, if_pos request, DnsConn.translate_eq any] at done
  obtain ⟨dns, gate, done⟩ := bind_eq_ok.mp done
  cases dns with
  | none =>
      cases done
      exact ⟨rfl, by simp, udp, rfl, by simp⟩
  | some dns =>
      cases done
      exact ⟨rfl, by simp, udp, rfl, fun _ => (IpPacket.withDns_dst dns gate).trans port⟩

theorem dhcpDnsDNAT_other (other : conn.isRequest pack = false)
    (done : dhcpDnsDNAT options names conn pack doChecksum = .ok (verdict, next, after, checked)) :
    verdict = .notDns ∧ next = conn := by
  rw [dhcpDnsDNAT, if_neg (by simp [other])] at done
  cases done
  exact ⟨rfl, rfl⟩

/-- A reply is let through if `dhcp_dns` forwards it, with the source the connection gives it. -/
theorem dhcpDnsunDNAT_reply (any : conn.anydns = true) (reply : conn.isReply pack = true)
    (done : dhcpDnsunDNAT options names conn pack doChecksum = .ok (verdict, after, checked)) :
    after.saddr = conn.source pack.saddr ∧
      (verdict ≠ .dropped ↔ ∃ kept, dhcpDns options names false pack.dns = .ok (some kept)) := by
  rw [dhcpDnsunDNAT, if_pos reply, ← Prod.mk.eta (p := conn.restore pack doChecksum),
    DnsConn.restore_eq any] at done
  obtain ⟨dns, gate, done⟩ := bind_eq_ok.mp done
  have gate' : dhcpDns options names false pack.dns = .ok dns := gate
  cases dns with
  | none =>
      cases done
      exact ⟨rfl, by simp [gate']⟩
  | some dns =>
      cases done
      exact ⟨rfl, by simp [gate']⟩

theorem dhcpDnsDNAT_allowed {dns : List UInt8} (doChecksum : Bool) (any : conn.anydns = true)
    (request : conn.isRequest pack = true)
    (gate : dhcpDns options names true pack.dns = .ok (some dns)) :
    dhcpDnsDNAT options names conn pack doChecksum =
      .ok (.allowed, { conn with dnatdns := conn.foreign pack.daddr },
        { pack.withDns dns with daddr := conn.standIn pack.daddr },
        !conn.Own pack.daddr || doChecksum) := by
  rw [dhcpDnsDNAT, if_pos request, DnsConn.translate_eq any]
  change (dhcpDns options names true pack.dns >>= _) = _
  rw [gate]
  rfl

theorem dhcpDnsunDNAT_allowed {dns : List UInt8} (doChecksum : Bool) (any : conn.anydns = true)
    (reply : conn.isReply pack = true)
    (gate : dhcpDns options names false pack.dns = .ok (some dns)) :
    dhcpDnsunDNAT options names conn pack doChecksum =
      .ok (.allowed, { pack.withDns dns with saddr := conn.source pack.saddr },
        (conn.restore pack doChecksum).2) := by
  rw [dhcpDnsunDNAT, if_pos reply, ← Prod.mk.eta (p := conn.restore pack doChecksum),
    DnsConn.restore_eq any]
  change (dhcpDns options names false pack.dns >>= _) = _
  rw [gate]
  rfl

/-! ## Runs -/

/-- A request as the client sent it, and as it was let through. -/
structure Asked where
  sent : IpPacket
  forwarded : IpPacket

structure Answered where
  asked : Asked
  reply : IpPacket

inductive DnsEvent where
  | request (pack : IpPacket)
  /-- An upstream reply to one of the requests that were let through. -/
  | reply (index : Nat) (pack : IpPacket)

structure DnsRun where
  conn : DnsConn
  asked : List Asked
  /-- The replies that were let through. -/
  answered : List Answered
  /-- The server of the client's last DNS request, let through or not. -/
  last : Option UInt32

def DnsRun.fresh (conn : DnsConn) : DnsRun := ⟨conn, [], [], none⟩

/-- The reply comes from where the request went, from port to port. -/
def answers (forwarded pack : IpPacket) : Bool :=
  pack.protocol = forwarded.protocol && pack.saddr = forwarded.daddr &&
    pack.daddr = forwarded.saddr && pack.src = forwarded.dst && pack.dst = forwarded.src

def dnsRequest (options : DnsOptions) (names : LocalNames) (run : DnsRun) (pack : IpPacket) :
    Option DnsRun := do
  let (verdict, conn, forwarded, _) ← (dhcpDnsDNAT options names run.conn pack false).toOption
  some { run with
    conn
    asked := if verdict = .allowed then run.asked ++ [⟨pack, forwarded⟩] else run.asked
    last := if verdict = .notDns then run.last else some pack.daddr }

def dnsReply (options : DnsOptions) (names : LocalNames) (run : DnsRun) (asked : Asked)
    (pack : IpPacket) : Option DnsRun := do
  let (verdict, reply, _) ← (dhcpDnsunDNAT options names run.conn pack false).toOption
  some (if verdict = .dropped then run
    else { run with answered := run.answered ++ [⟨asked, reply⟩] })

/-- One packet of the client or of a server; none where `dhcp_dns` leaves its buffers, and for a
reply to nothing. -/
def dnsStep (options : DnsOptions) (names : LocalNames) (run : DnsRun) : DnsEvent → Option DnsRun
  | .request pack => dnsRequest options names run pack
  | .reply index pack => do
      let asked ← run.asked[index]?
      require (answers asked.forwarded pack)
      dnsReply options names run asked pack

/-- Every reply that was let through names the server its request was sent to. -/
def DnsRun.Faithful (run : DnsRun) : Prop :=
  ∀ answered ∈ run.answered, answered.reply.saddr = answered.asked.sent.daddr

/-- The client's last request was for the same foreign server as the one answered, or both were
for its own servers. -/
def DnsRun.Undisturbed (run : DnsRun) (server : UInt32) : Prop :=
  run.last.map run.conn.foreign = some (run.conn.foreign server) ∧ (run.conn.Own server ∨ server ≠ 0)

/-- A reply that `dhcp_dns` forwards finds its request undisturbed. -/
def Timely (options : DnsOptions) (names : LocalNames) (run : DnsRun) : DnsEvent → Prop
  | .request _ => True
  | .reply index pack => ∀ asked, run.asked[index]? = some asked →
      (∃ kept, dhcpDns options names false pack.dns = .ok (some kept)) →
        run.Undisturbed asked.sent.daddr

variable {run after : DnsRun} {asked : Asked} {event : DnsEvent} {events : List DnsEvent}

/-- What the connection remembers is what the last request left. -/
structure DnsRun.Kept (run : DnsRun) : Prop where
  any : run.conn.anydns = true
  remembered : run.conn.dnatdns = (run.last.map run.conn.foreign).getD 0
  someLast : run.asked ≠ [] → run.last ≠ none
  protocol : ∀ asked ∈ run.asked, asked.forwarded.protocol = ipProtoUdp
  server : ∀ asked ∈ run.asked, asked.forwarded.daddr = run.conn.standIn asked.sent.daddr
  port : ∀ asked ∈ run.asked, asked.forwarded.dst = dhcpDnsPort

/-- With what `last` left in the connection, a reply of the stand-in gets the right source. -/
theorem DnsConn.source_standIn_iff {last server : UInt32}
    (remembered : conn.dnatdns = conn.foreign last) :
    conn.source (conn.standIn server) = server ↔
      conn.foreign last = conn.foreign server ∧ (conn.Own server ∨ server ≠ 0) := by
  rw [DnsConn.source, remembered]
  by_cases own : conn.Own server
  · have here : conn.foreign server = 0 := if_pos own
    have stays : conn.standIn server = server := if_pos own
    rw [here, stays]
    by_cases none : conn.foreign last = 0
    · simp [none, own]
    · have away : conn.foreign last ≠ server := by
        intro same
        by_cases lastOwn : conn.Own last
        · exact none (if_pos lastOwn)
        · have self : conn.foreign last = last := if_neg lastOwn
          exact lastOwn (self ▸ same ▸ own)
      simp [none, away]
  · have here : conn.foreign server = server := if_neg own
    have moves : conn.standIn server = conn.dns1 := if_neg own
    have other : conn.dns1 ≠ server := fun same => own (.inl same.symm)
    rw [here, moves]
    by_cases none : conn.foreign last = 0
    · simp only [none, if_true, own, false_or]
      constructor
      · intro same
        exact absurd same other
      · rintro ⟨zero, nonzero⟩
        exact absurd zero.symm nonzero
    · simp only [none, if_false, own, false_or]
      constructor
      · intro same
        exact ⟨same, same ▸ none⟩
      · exact fun same => same.1

theorem DnsRun.Kept.undisturbed_iff (kept : run.Kept) (member : asked ∈ run.asked) :
    run.conn.source asked.forwarded.daddr = asked.sent.daddr ↔
      run.Undisturbed asked.sent.daddr := by
  obtain ⟨last, isLast⟩ := Option.ne_none_iff_exists'.mp (kept.someLast (List.ne_nil_of_mem member))
  have remembered : run.conn.dnatdns = run.conn.foreign last := by
    rw [kept.remembered, isLast]
    rfl
  rw [kept.server asked member, DnsConn.source_standIn_iff remembered, DnsRun.Undisturbed, isLast]
  simp

/-! ## One step -/

theorem dnsRequest_kept {pack : IpPacket} (kept : run.Kept)
    (done : dnsRequest options names run pack = some after) :
    after.Kept ∧ after.answered = run.answered := by
  obtain ⟨⟨verdict, conn, forwarded, checked⟩, call, done⟩ := Option.bind_eq_some_iff.mp done
  have call := toOption_eq_some.mp call
  cases done
  cases request : run.conn.isRequest pack with
  | false =>
      obtain ⟨rfl, rfl⟩ := dhcpDnsDNAT_other request call
      exact ⟨⟨kept.any, kept.remembered, kept.someLast, kept.protocol, kept.server, kept.port⟩, rfl⟩
  | true =>
      obtain ⟨rfl, judged, protocol, server, port⟩ := dhcpDnsDNAT_request kept.any request call
      refine ⟨⟨kept.any, by simp [judged]; rfl, by simp [judged], ?_, ?_, ?_⟩, rfl⟩
      all_goals by_cases allowed : verdict = .allowed
      · simp only [allowed, if_true]
        exact List.forall_mem_append.mpr ⟨kept.protocol, List.forall_mem_singleton.mpr protocol⟩
      · simp only [allowed, if_false]
        exact kept.protocol
      · simp only [allowed, if_true]
        exact List.forall_mem_append.mpr ⟨kept.server, List.forall_mem_singleton.mpr server⟩
      · simp only [allowed, if_false]
        exact kept.server
      · simp only [allowed, if_true]
        exact List.forall_mem_append.mpr ⟨kept.port, List.forall_mem_singleton.mpr (port allowed)⟩
      · simp only [allowed, if_false]
        exact kept.port

theorem dnsReply_kept {pack : IpPacket} (kept : run.Kept) (member : asked ∈ run.asked)
    (answer : answers asked.forwarded pack = true)
    (done : dnsReply options names run asked pack = some after) :
    after.Kept ∧ (after.Faithful ↔ run.Faithful ∧
      ((∃ dns, dhcpDns options names false pack.dns = .ok (some dns)) →
        run.Undisturbed asked.sent.daddr)) := by
  obtain ⟨⟨verdict, reply, checked⟩, call, done⟩ := Option.bind_eq_some_iff.mp done
  have call := toOption_eq_some.mp call
  cases done
  simp only [answers, Bool.and_eq_true, decide_eq_true_eq] at answer
  obtain ⟨⟨⟨⟨protocol, saddr⟩, -⟩, src⟩, -⟩ := answer
  have isReply : run.conn.isReply pack = true := by
    simp [DnsConn.isReply, protocol, src, kept.any, kept.protocol asked member, kept.port asked member]
  obtain ⟨source, through⟩ := dhcpDnsunDNAT_reply kept.any isReply call
  rw [← through]
  by_cases dropped : verdict = .dropped
  · simp only [dropped, if_true]
    exact ⟨kept, by simp⟩
  · simp only [dropped, if_false]
    refine ⟨⟨kept.any, kept.remembered, kept.someLast, kept.protocol, kept.server, kept.port⟩, ?_⟩
    have right : reply.saddr = asked.sent.daddr ↔ run.Undisturbed asked.sent.daddr := by
      rw [source, saddr]
      exact kept.undisturbed_iff member
    simp only [DnsRun.Faithful, ne_eq, dropped, not_false_eq_true, forall_const]
    rw [List.forall_mem_append, List.forall_mem_singleton, right]

theorem dnsStep_kept (kept : run.Kept) (done : dnsStep options names run event = some after) :
    after.Kept ∧ (after.Faithful ↔ run.Faithful ∧ Timely options names run event) := by
  cases event with
  | request pack =>
      obtain ⟨keptAfter, same⟩ := dnsRequest_kept kept done
      exact ⟨keptAfter, by simp [DnsRun.Faithful, same, Timely]⟩
  | reply index pack =>
      obtain ⟨asked, at', done⟩ := Option.bind_eq_some_iff.mp done
      obtain ⟨_, answer, done⟩ := Option.bind_eq_some_iff.mp done
      have here := dnsReply_kept kept (List.mem_of_getElem? at') (require_eq_some.mp answer) done
      simpa only [Timely, at', Option.some.injEq, forall_eq'] using here

/-! ## Whole runs -/

theorem fresh_kept (any : conn.anydns = true) (empty : conn.dnatdns = 0) : (DnsRun.fresh conn).Kept :=
  ⟨any, empty, by simp [DnsRun.fresh], by simp [DnsRun.fresh], by simp [DnsRun.fresh],
    by simp [DnsRun.fresh]⟩

/-- The replies of a run have the right sources exactly when each that `dhcp_dns` forwards finds
its request undisturbed. -/
theorem dnsTranslation_faithful_iff (options : DnsOptions) (names : LocalNames) {conn : DnsConn}
    (any : conn.anydns = true) (empty : conn.dnatdns = 0) {events : List DnsEvent} {final : DnsRun}
    (ran : Data.run (dnsStep options names) (DnsRun.fresh conn) events = some final) :
    final.Faithful ↔
      EveryStep (dnsStep options names) (Timely options names) (DnsRun.fresh conn) events := by
  have whole := run_iff_everyStep (fun _ _ _ kept done => dnsStep_kept kept done)
    (fresh_kept any empty) ran
  have start : (DnsRun.fresh conn).Faithful := by simp [DnsRun.Faithful, DnsRun.fresh]
  rw [whole]
  exact and_iff_right start

/-! ## Two servers asked at once -/

/-- A packet with a question for the servers of the root, as resolvers send it. -/
def rootPacket (high low : UInt8) : List UInt8 :=
  [0, 7, high, low, 0, 1, 0, 0, 0, 0, 0, 0, 0, 0, 2, 0, 1]

def noNames : LocalNames := ⟨none, none, none, false⟩

def quietOptions : DnsOptions where
  debug := false
  dnsparanoia := false
  uamdomains := []
  uamdomainTtl := 60
  ipv6 := false
  domainfile := none

/-- The name of the root is one byte, and leaves the buffer as it is. -/
theorem dnsFullname_root {packet data : List UInt8} {position olen dlen reslen : Nat}
    (root : packet[position]? = some 0) (empty : data[0]? = some 0) (more : reslen ≠ 0) :
    dnsFullname packet olen data dlen position reslen = .ok (1, data) := by
  have inside : position < packet.length := (List.getElem?_eq_some_iff.mp root).1
  have byte : packet[position] = 0 := (List.getElem?_eq_some_iff.mp root).2
  have enter : (⟨data, some 0, dlen⟩ : DnsName).enter = .ok ⟨data, some 0, dlen⟩ := by
    simp [DnsName.enter, readByte, empty]
    rfl
  have level : nameLevel packet olen 15 ⟨data, some 0, dlen⟩ position reslen =
      .ok (1, ⟨data, some 0, dlen⟩) := by
    rw [nameLevel, enter]
    change nameLoop packet olen _ _ position reslen = _
    rw [nameLoop, if_neg more, dif_pos inside]
    simp [byte]
  have text : stringLength data = .ok 0 := by
    cases data with
    | nil => simp at empty
    | cons first rest =>
        have zero : first = 0 := by simpa using empty
        simp [stringLength, List.findIdx?_cons, zero]
  rw [dnsFullname, level]
  change trimName data (some 0) >>= _ = _
  rw [trimName, text]
  rfl

theorem rootPacket_walked (isReq : Bool) (high low : UInt8) :
    dnsRecords quietOptions isReq false (rootPacket high low) =
      .ok { firstWalk (rootPacket high low) with position := 17, left := 0 } := by
  have named : ∀ data dlen, data[0]? = some 0 →
      dnsFullname (rootPacket high low) 5 data dlen 12 5 = .ok (1, data) :=
    fun data dlen empty => dnsFullname_root rfl empty (by decide)
  have asked : copyQuestion quietOptions isReq (firstWalk (rootPacket high low)) 13 4 2 =
      .ok { firstWalk (rootPacket high low) with position := 17, left := 0 } := by
    have question := named (List.replicate questionSize 0) questionSize rfl
    have domains : matchUamdomains quietOptions isReq (-1) (List.replicate questionSize 0) =
        .ok (-1) := if_neg (by simp [quietOptions])
    rw [copyQuestion]
    change (dnsFullname (rootPacket high low) 5 (List.replicate questionSize 0) questionSize 12 5 >>= _) = _
    rw [question]
    change (matchUamdomains quietOptions isReq (-1) (List.replicate questionSize 0) >>= _) = _
    rw [domains]
    rfl
  have record : dnsCopyRes quietOptions isReq false true (firstWalk (rootPacket high low)) =
      .ok { firstWalk (rootPacket high low) with position := 17, left := 0 } := by
    rw [dnsCopyRes]
    change (dnsFullname (rootPacket high low) 5 nameBuffer (pktIpPlen - 1) 12 5 >>= _) = _
    rw [named nameBuffer (pktIpPlen - 1) rfl]
    exact asked
  have one : readNumber (rootPacket high low) 4 2 = .ok 1 := rfl
  have answers : readNumber (rootPacket high low) 6 2 = .ok 0 := rfl
  have servers : readNumber (rootPacket high low) 8 2 = .ok 0 := rfl
  have others : readNumber (rootPacket high low) 10 2 = .ok 0 := rfl
  have first : copyres quietOptions isReq false true 1 (firstWalk (rootPacket high low)) =
      .ok { firstWalk (rootPacket high low) with position := 17, left := 0 } := by
    rw [copyres, if_neg (by simp [firstWalk, rootPacket, dnsHlen]), record]
    change copyres quietOptions isReq false true 0
      { firstWalk (rootPacket high low) with position := 17, left := 0 } = _
    rw [copyres]
  rw [dnsRecords, one, answers, servers, others]
  change (copyres quietOptions isReq false true 1 (firstWalk (rootPacket high low)) >>= fun walk =>
    copyres quietOptions isReq false false 0 walk >>= fun walk =>
      copyres quietOptions isReq false false 0 walk >>= fun walk =>
        copyres quietOptions isReq false false 0 walk) = _
  rw [first]
  simp only [copyres]
  rfl

theorem rootPacket_asked :
    dhcpDns quietOptions noNames true (rootPacket 1 0) = .ok (some (rootPacket 1 0)) := by
  have text : stringLength (firstWalk (rootPacket 1 0)).question = .ok 0 := rfl
  rw [dhcpDns, if_neg (by decide), if_neg (by decide), rootPacket_walked]
  change forwardWalked noNames true (rootPacket 1 0) _ = _
  rw [forwardWalked, if_neg (by simp), if_pos (by decide)]
  change (stringLength (firstWalk (rootPacket 1 0)).question >>= _) = _
  rw [text]
  rfl

theorem rootPacket_answered :
    dhcpDns quietOptions noNames false (rootPacket 0x81 0x80) =
      .ok (some (rootPacket 0x81 0x80)) := by
  rw [dhcpDns, if_neg (by decide), if_neg (by decide), rootPacket_walked]
  change forwardWalked noNames false (rootPacket 0x81 0x80) _ = _
  rw [forwardWalked, if_neg (by simp), if_neg (by decide)]
  rfl

def anyDns : DnsConn where
  anydns := true
  dns1 := 0x0A000001
  dns2 := 0x0A000002
  dnatdns := 0

/-- A packet without options from port to port, with the DNS bytes `dns`. -/
def plainPacket (saddr daddr : UInt32) (ports dns : List UInt8) : IpPacket where
  versionIhl := 0x45
  optOffHigh := 0
  offLow := 0
  protocol := ipProtoUdp
  saddr := saddr
  daddr := daddr
  body := ports ++ [0, 25, 0, 0] ++ dns
  beyond := []

@[simp] theorem plainPacket_transport {saddr daddr : UInt32} {ports dns : List UInt8} :
    (plainPacket saddr daddr ports dns).transport = 0 := by
  simp [plainPacket, IpPacket.transport, IpPacket.headerLen, pktIpHlen]

theorem plainPacket_dns {saddr daddr : UInt32} {ports dns : List UInt8} (four : ports.length = 4) :
    (plainPacket saddr daddr ports dns).dns = dns := by
  have front : (ports ++ [0, 25, 0, 0]).length = 0 + pktUdpHlen := by
    rw [List.length_append, four]
    rfl
  rw [IpPacket.dns, plainPacket_transport, ← front]
  exact List.drop_left

theorem plainPacket_withDns {saddr daddr : UInt32} {ports dns other : List UInt8}
    (four : ports.length = 4) :
    (plainPacket saddr daddr ports dns).withDns other = plainPacket saddr daddr ports other := by
  have front : (ports ++ [0, 25, 0, 0]).length = 0 + pktUdpHlen := by
    rw [List.length_append, four]
    rfl
  have kept : ((ports ++ [0, 25, 0, 0]) ++ dns).take (0 + pktUdpHlen) = ports ++ [0, 25, 0, 0] := by
    rw [← front, List.take_left]
  rw [IpPacket.withDns, plainPacket_transport]
  simp only [plainPacket, kept]

theorem plainPacket_src {saddr daddr : UInt32} {a b c d : UInt8} {dns : List UInt8} :
    (plainPacket saddr daddr [a, b, c, d] dns).src = beNumber [a, b] := by
  rw [IpPacket.src, plainPacket_transport]
  rfl

theorem plainPacket_dst {saddr daddr : UInt32} {a b c d : UInt8} {dns : List UInt8} :
    (plainPacket saddr daddr [a, b, c, d] dns).dst = beNumber [c, d] := by
  rw [IpPacket.dst, plainPacket_transport]
  rfl

def clientQuery (server : UInt32) : IpPacket :=
  plainPacket 0x0A0000C8 server [0xC0, 0, 0, 53] (rootPacket 1 0)

def serverAnswer : IpPacket :=
  plainPacket anyDns.dns1 0x0A0000C8 [0, 53, 0xC0, 0] (rootPacket 0x81 0x80)

/-- The query as it goes on to the first of the client's own servers. -/
def sentOn (server : UInt32) : IpPacket :=
  { clientQuery server with daddr := anyDns.dns1 }

/-- The run after queries to the servers, with no answer yet. -/
def queried (remembered : UInt32) (servers : List UInt32) : DnsRun where
  conn := { anyDns with dnatdns := remembered }
  asked := servers.map fun server => ⟨clientQuery server, sentOn server⟩
  answered := []
  last := servers.getLast?

theorem clientQuery_step (remembered server : UInt32) (servers : List UInt32)
    (other : ¬ anyDns.Own server) :
    dnsStep quietOptions noNames (queried remembered servers) (.request (clientQuery server)) =
      some (queried server (servers ++ [server])) := by
  have port : (clientQuery server).dst = dhcpDnsPort := plainPacket_dst
  have request : (queried remembered servers).conn.isRequest (clientQuery server) = true := by
    simp only [DnsConn.isRequest, port]
    rfl
  have gate : dhcpDns quietOptions noNames true (clientQuery server).dns = .ok (some (rootPacket 1 0)) := by
    rw [clientQuery, plainPacket_dns rfl]
    exact rootPacket_asked
  have foreign : (queried remembered servers).conn.foreign server = server := if_neg other
  have standIn : (queried remembered servers).conn.standIn server = anyDns.dns1 := if_neg other
  have address : (clientQuery server).daddr = server := rfl
  have call := dhcpDnsDNAT_allowed false rfl request gate
  have same : (clientQuery server).withDns (rootPacket 1 0) = clientQuery server :=
    plainPacket_withDns rfl
  rw [address, foreign, standIn, same] at call
  simp only [dnsStep, dnsRequest, call]
  simp [queried, sentOn, Except.toOption, address]

theorem serverAnswer_step (remembered server : UInt32) (servers : List UInt32) (index : Nat)
    (nonzero : remembered ≠ 0) (asked : servers[index]? = some server) :
    dnsStep quietOptions noNames (queried remembered servers) (.reply index serverAnswer) =
      some { queried remembered servers with
        answered := [⟨⟨clientQuery server, sentOn server⟩, { serverAnswer with saddr := remembered }⟩] } := by
  have reply : (queried remembered servers).conn.isReply serverAnswer = true := rfl
  have source : (queried remembered servers).conn.source serverAnswer.saddr = remembered := if_neg nonzero
  have gate : dhcpDns quietOptions noNames false serverAnswer.dns =
      .ok (some (rootPacket 0x81 0x80)) := by
    rw [serverAnswer, plainPacket_dns rfl]
    exact rootPacket_answered
  have call := dhcpDnsunDNAT_allowed false rfl reply gate
  have found : (queried remembered servers).asked[index]? =
      some ⟨clientQuery server, sentOn server⟩ := by
    simp [queried, asked]
  have answer : answers (sentOn server) serverAnswer = true := by
    have src : (sentOn server).src = 49152 := plainPacket_src
    have dst : (sentOn server).dst = 53 := plainPacket_dst
    have answerSrc : serverAnswer.src = 53 := plainPacket_src
    have answerDst : serverAnswer.dst = 49152 := plainPacket_dst
    simp only [answers, src, dst, answerSrc, answerDst]
    rfl
  have same : serverAnswer.withDns (rootPacket 0x81 0x80) = serverAnswer := plainPacket_withDns rfl
  rw [source, same] at call
  simp only [dnsStep, dnsReply, found, Option.bind_eq_bind, Option.bind_some, answer, require, if_true,
    call]
  rfl

/-- One query and its answer. -/
theorem dnsTranslation_faithful_iff_single :
    ∃ final, Data.run (dnsStep quietOptions noNames) (DnsRun.fresh anyDns)
        [.request (clientQuery 0x08080808), .reply 0 serverAnswer] = some final ∧
      (final.Faithful ↔ EveryStep (dnsStep quietOptions noNames) (Timely quietOptions noNames)
        (DnsRun.fresh anyDns) [.request (clientQuery 0x08080808), .reply 0 serverAnswer]) := by
  have first := clientQuery_step 0 0x08080808 [] (by decide)
  have second := serverAnswer_step 0x08080808 0x08080808 [0x08080808] 0 (by decide) rfl
  have start : DnsRun.fresh anyDns = queried 0 [] := rfl
  obtain ⟨final, ran⟩ : ∃ final, Data.run (dnsStep quietOptions noNames) (DnsRun.fresh anyDns)
      [.request (clientQuery 0x08080808), .reply 0 serverAnswer] = some final := by
    simp only [start, Data.run, first, Option.bind_some, List.nil_append, second]
    exact ⟨_, rfl⟩
  exact ⟨final, ran, dnsTranslation_faithful_iff quietOptions noNames rfl rfl ran⟩

/-- Queries to two servers, and the answer to the first of them. -/
theorem dnsTranslation_crossed :
    ¬ ∀ (options : DnsOptions) (names : LocalNames) (conn : DnsConn),
      conn.anydns = true → conn.dnatdns = 0 → ∀ (events : List DnsEvent) (final : DnsRun),
        Data.run (dnsStep options names) (DnsRun.fresh conn) events = some final → final.Faithful := by
  intro always
  have first := clientQuery_step 0 0x08080808 [] (by decide)
  have second := clientQuery_step 0x08080808 0x09090909 [0x08080808] (by decide)
  have third := serverAnswer_step 0x09090909 0x08080808 [0x08080808, 0x09090909] 0 (by decide) rfl
  have start : DnsRun.fresh anyDns = queried 0 [] := rfl
  have faithful := always quietOptions noNames anyDns rfl rfl
    [.request (clientQuery 0x08080808), .request (clientQuery 0x09090909), .reply 0 serverAnswer]
  simp only [start, Data.run, first, Option.bind_some, second, List.nil_append, List.cons_append, third]
    at faithful
  have wrong := faithful _ rfl _ (List.mem_singleton_self _)
  revert wrong
  decide

end Rut9xx.Chilli
