import Rut9xx.Chilli.DnsSafety
import Rut9xx.Chilli.Frame

namespace Rut9xx.Chilli

open Data

/-! # DNS requests that are answered on the spot -/

section

/-- What the names of `LocalNames` are answered with. -/
structure LocalAddresses where
  uamlogout : UInt32
  uamlisten : UInt32
  uamalias : UInt32

/-- `reply`, if there is a match. -/
def localReply (names : LocalNames) (addresses : LocalAddresses) (question : List UInt8) : Option UInt32 :=
  if dhcpMatchDNS names question logoutName then some addresses.uamlogout
  else if names.uamhostname.any (dhcpMatchDNS names question) then some addresses.uamlisten
  else if names.uamaliasname.any (dhcpMatchDNS names question) then some addresses.uamalias
  else if inLocalDomain names question then some addresses.uamalias
  else none

/-- The bytes behind the UDP header of a frame. -/
def dnsBytes (pack : Memory UInt8) (plen : Nat) : List UInt8 :=
  load pack (sizeofudp pack) (plen - sizeofudp pack)

/-- The records of a request that may be answered on the spot. -/
def requestWalk (options : DnsOptions) (dns : List UInt8) : Option DnsWalk :=
  if dns.length < dnsHlen then none
  else if dnsField dns 2 / 2 ^ 15 = 1 then none
  else
    match dnsRecords options true false dns with
    | .error _ => none
    | .ok walk => if walk.left = 0 ∧ plainQuestion dns then some walk else none

/-- `q`, up to its first zero. -/
def askedName (walk : DnsWalk) : List UInt8 := walk.question.takeWhile (· ≠ 0)

def querySize : Nat := 256

def answerSize : Nat := 1500

/-- The loop that copies the name at `p` to the query. -/
def copyName (pack : Memory UInt8) (query : Guarded) (queryLen p : Nat) : Guarded × Nat × Nat :=
  if queryLen < querySize then
    let query := query.put queryLen [pack p]
    if pack p ≠ 0 then copyName pack query (queryLen + 1) (p + 1) else (query, queryLen + 1, p + 1)
  else (query, queryLen, p)
termination_by querySize - queryLen

/-- The loop that copies type and class, for the turns that are left. -/
def copyType (pack : Memory UInt8) : Nat → Guarded × Nat × Nat → Guarded × Nat × Nat
  | 0, state => state
  | turns + 1, (query, queryLen, p) =>
      copyType pack turns (if queryLen < querySize then (query.put queryLen [pack p], queryLen + 1, p + 1)
        else (query, queryLen, p))

/-- An A record for the name at offset 12. -/
def answerRecord (address : UInt32) : List UInt8 :=
  [0xc0, 0x0c, 0, 1, 0, 1, 0, 0, 1, 0x2c, 0, 4] ++ be32 address

/-- `query`, what was in it before in `uninit`, and its length. -/
def makeQuery (pack uninit : Memory UInt8) (reply : UInt32) : Guarded × Nat :=
  let (query, queryLen, _) :=
    copyType pack 4 (copyName pack ⟨querySize, uninit, true⟩ 0 (sizeofudp pack + dnsHlen))
  (query.put queryLen (answerRecord reply), queryLen + 16)

structure LocalAnswer where
  answer : Guarded
  /-- `answer_dns->records` -/
  records : Nat
  queryLen : Nat
  length : Nat

/-- The DNS header at `dns` and the query behind it. -/
def answerDns (pack : Memory UInt8) (query : Guarded) (queryLen dns : Nat) (answer : Guarded) : Guarded :=
  (answer.put dns (load pack (sizeofudp pack) 2 ++ [0x80, 0, 0, 1, 0, 1, 0, 0, 0, 0])).put (dns + dnsHlen)
    (load query.bytes 0 queryLen)

/-- The headers of `answer`, before the checksums. -/
def answerHeaders (pack : Memory UInt8) (udpLen iph udph : Nat) (answer : Guarded) : Guarded :=
  let answer := answer.put (udph + 4) (be16 (UInt16.ofNat udpLen))
  let answer := (answer.put udph (load pack (sizeofip pack + 2) 2)).put (udph + 2) (load pack (sizeofip pack) 2)
  let answer := answer.put iph
    ([0x45, 0] ++ be16 (UInt16.ofNat (udpLen + pktIpHlen)) ++ [0, 0, 0, 0, 0x10, 0x11, 0, 0])
  let answer := (answer.put (iph + 16) (load pack (sizeofeth pack + 12) 4)).put (iph + 12)
    (load pack (sizeofeth pack + 16) 4)
  (answer.put 0 (load pack pktEthAlen pktEthAlen)).put pktEthAlen (load pack 0 pktEthAlen)

/-- The reply to the request of `plen` bytes in `pack`; `uninit` is what was on the stack. -/
def makeAnswer (pack : Memory UInt8) (plen : Nat) (uninit : Memory UInt8) (reply : UInt32) : LocalAnswer :=
  let (query, queryLen) := makeQuery pack uninit reply
  let query := query.touch 0 queryLen
  let answer := Guarded.put ⟨answerSize, uninit, true⟩ 0 (load pack 0 plen)
  let iph := sizeofeth answer.bytes
  let udph := sizeofip answer.bytes
  let dns := sizeofudp answer.bytes
  let udpLen := queryLen + dnsHlen + pktUdpHlen
  let answer := chksum (answerHeaders pack udpLen iph udph (answerDns pack query queryLen dns answer)) iph
  ⟨{ answer with inside := answer.inside && query.inside }, dns + dnsHlen, queryLen,
    udpLen + sizeofip answer.bytes⟩

/-- `pack` as `dns_copy_res` leaves it. -/
def walkedPack (pack : Memory UInt8) (walk : DnsWalk) : Memory UInt8 :=
  store pack (sizeofudp pack) walk.packet

/-- The reply of `dhcp_dns` to a request of a client, if it sends one itself. -/
def dhcpDnsLocal (options : DnsOptions) (names : LocalNames) (addresses : LocalAddresses)
    (pack : Memory UInt8) (plen : Nat) (uninit : Memory UInt8) : Option LocalAnswer := do
  let walk ← requestWalk options (dnsBytes pack plen)
  let reply ← localReply names addresses (askedName walk)
  some (makeAnswer (walkedPack pack walk) plen uninit reply)

end

/-! ## What a reply should be -/

section

/-- Where the question stands whose name is in `q`: the last one that was copied there. -/
def namedQuestion (options : DnsOptions) : Nat → DnsWalk → Option (Nat × Nat) → Option (Nat × Nat)
  | 0, _, found => found
  | count + 1, walk, found =>
      if walk.left = 0 then found
      else
        match dnsCopyRes options true false true walk with
        | .error _ => found
        | .ok next =>
            namedQuestion options count next
              (if walk.question[0]? = some 0 then some (walk.position, next.position) else found)

/-- The bytes of that question. -/
def matchedQuestion (options : DnsOptions) (dns : List UInt8) : Option (List UInt8) := do
  let walk ← requestWalk options dns
  let (start, stop) ← namedQuestion options (dnsField dns 4) (firstWalk dns) none
  some (slice walk.packet start (stop - start))

/-- The reply has the question and the address, and its lengths are those of what was written. -/
structure AnswersWell (question : Option (List UInt8)) (address : UInt32) (sent : LocalAnswer) : Prop where
  inside : sent.answer.inside = true
  counts : load sent.answer.bytes (sent.records - 8) 8 = [0, 1, 0, 1, 0, 0, 0, 0]
  question : ∃ asked ∈ question, load sent.answer.bytes sent.records (sent.queryLen - 16) = asked
  record : load sent.answer.bytes (sent.records + (sent.queryLen - 16)) 16 = answerRecord address
  dns : sizeofudp sent.answer.bytes + dnsHlen = sent.records
  udp : udphLen sent.answer.bytes = pktUdpHlen + dnsHlen + sent.queryLen
  ip : iphTotLen sent.answer.bytes = pktIpHlen + udphLen sent.answer.bytes
  frame : sent.length = sent.records + sent.queryLen

/-- A frame of at most 1500 bytes without IP options, whose question with the name in `q` comes
first: a name of at most 235 bytes without a zero, its end, type and class. -/
structure Answerable (pack : Memory UInt8) (plen : Nat) (question : Option (List UInt8)) : Prop where
  plain : headerLen pack = pktIpHlen
  fits : plen ≤ answerSize
  question : ∃ name type, name ++ 0 :: type ∈ question ∧ 0 ∉ name ∧ name.length ≤ 235 ∧ type.length = 4 ∧
    Holds pack (sizeofudp pack + dnsHlen) (name ++ 0 :: type)

end

variable {pack uninit : Memory UInt8} {query : Guarded} {records queryLen plen turns : Nat} {reply : UInt32}

/-! ## The query -/

/-- The first `queryLen` bytes of the query are those from `records` on. -/
structure Copied (pack : Memory UInt8) (records queryLen : Nat) (query : Guarded) : Prop where
  size : query.size = querySize
  inside : query.inside = true
  bound : queryLen ≤ querySize
  bytes : ∀ index, index < queryLen → query.bytes index = pack (records + index)

theorem Copied.put (copied : Copied pack records queryLen query) (room : queryLen < querySize) :
    Copied pack records (queryLen + 1) (query.put queryLen [pack (records + queryLen)]) := by
  refine ⟨copied.size, ?_, room, fun index below => ?_⟩
  · rw [Guarded.put_inside_iff, copied.size]
    exact ⟨copied.inside, .inr room⟩
  · rcases Nat.lt_succ_iff_lt_or_eq.mp below with before | rfl
    · exact (store_outside (.inl before)).trans (copied.bytes index before)
    · exact store_self

/-- The name is copied up to its first zero, if that is among the first 256 bytes. -/
theorem copyName_copied (copied : Copied pack records queryLen query)
    (before : ∀ index, index < queryLen → pack (records + index) ≠ 0) :
    ∃ after count, copyName pack query queryLen (records + queryLen) = (after, count, records + count) ∧
      Copied pack records count after ∧
        (count = querySize ∧ (∀ index, index < count → pack (records + index) ≠ 0) ∨
          ∃ last, count = last + 1 ∧ pack (records + last) = 0 ∧
            ∀ index, index < last → pack (records + index) ≠ 0) := by
  induction left : querySize - queryLen generalizing query queryLen with
  | zero =>
      have full : queryLen = querySize := Nat.le_antisymm copied.bound (by omega)
      rw [copyName, if_neg (by omega)]
      exact ⟨query, queryLen, rfl, copied, .inl ⟨full, before⟩⟩
  | succ count ih =>
      rw [copyName, if_pos (by omega)]
      have next := copied.put (by omega)
      by_cases zero : pack (records + queryLen) = 0
      · simp only [zero, ne_eq, not_true_eq_false, if_false]
        exact ⟨_, queryLen + 1, rfl, zero ▸ next, .inr ⟨queryLen, rfl, zero, before⟩⟩
      · simp only [ne_eq, zero, not_false_eq_true, if_true]
        refine ih next (fun index below => ?_) (by omega)
        rcases Nat.lt_succ_iff_lt_or_eq.mp below with earlier | rfl
        · exact before index earlier
        · exact zero

theorem copyType_copied (copied : Copied pack records queryLen query) :
    ∃ after, copyType pack turns (query, queryLen, records + queryLen) =
        (after, min (queryLen + turns) querySize, records + min (queryLen + turns) querySize) ∧
      Copied pack records (min (queryLen + turns) querySize) after := by
  induction turns generalizing query queryLen with
  | zero =>
      rw [Nat.add_zero, Nat.min_eq_left copied.bound]
      exact ⟨query, rfl, copied⟩
  | succ turns ih =>
      by_cases room : queryLen < querySize
      · obtain ⟨after, done, copied'⟩ := ih (copied.put room)
        rw [Nat.add_right_comm, Nat.add_assoc] at done copied'
        rw [copyType, if_pos room]
        exact ⟨after, done, copied'⟩
      · obtain ⟨after, done, copied'⟩ := ih copied
        have full : queryLen = querySize := Nat.le_antisymm copied.bound (Nat.not_lt.mp room)
        have same : min (queryLen + turns) querySize = min (queryLen + (turns + 1)) querySize := by omega
        rw [same] at done copied'
        rw [copyType, if_neg room]
        exact ⟨after, done, copied'⟩

/-- `last` is the first zero from `records` on. -/
def FirstZero (pack : Memory UInt8) (records last : Nat) : Prop :=
  pack (records + last) = 0 ∧ ∀ index, index < last → pack (records + index) ≠ 0

theorem FirstZero.unique {last other : Nat} (first : FirstZero pack records last)
    (second : FirstZero pack records other) : last = other := by
  rcases Nat.lt_trichotomy last other with below | same | above
  · exact absurd first.1 (second.2 last below)
  · exact same
  · exact absurd second.1 (first.2 other above)

/-- A query with `count` bytes in front of the record. -/
structure QueryMade (pack : Memory UInt8) (reply : UInt32) (count : Nat) (query : Guarded) : Prop where
  size : query.size = querySize
  inside : query.inside = true ↔ count ≤ 240
  bytes : ∀ index, index < count → query.bytes index = pack (sizeofudp pack + dnsHlen + index)
  record : Holds query.bytes count (answerRecord reply)
  ended : ∀ last, last ≤ 235 → (FirstZero pack (sizeofudp pack + dnsHlen) last ↔ count = last + 5)
  short : count ≤ 240 → ∃ last, count = last + 5

theorem makeQuery_made : ∃ count query, makeQuery pack uninit reply = (query, count + 16) ∧
    QueryMade pack reply count query := by
  have start : Copied pack (sizeofudp pack + dnsHlen) 0 ⟨querySize, uninit, true⟩ :=
    ⟨rfl, rfl, Nat.zero_le _, fun index below => absurd below (Nat.not_lt_zero index)⟩
  obtain ⟨named, length, name, copied, ended⟩ :=
    copyName_copied start fun index below => absurd below (Nat.not_lt_zero index)
  obtain ⟨typed, type, copied'⟩ := @copyType_copied pack named (sizeofudp pack + dnsHlen) length 4 copied
  have bound : min (length + 4) querySize ≤ 256 := copied'.bound
  refine ⟨min (length + 4) querySize, typed.put (min (length + 4) querySize) (answerRecord reply), ?_,
    copied'.size, ?_, fun index below => ?_, holds_store,
    fun last short => ?_, fun short => ?_⟩
  · rw [Nat.add_zero] at name
    simp only [makeQuery, name, type]
  · rw [Guarded.put_inside_iff, copied'.size, copied'.inside]
    simp only [answerRecord, querySize, List.length_append, List.length_cons, List.length_nil, be32_length,
      true_and]
    omega
  · exact (store_outside (.inl below)).trans (copied'.bytes index below)
  · rcases ended with ⟨full, nonzero⟩ | ⟨place, rfl, zero, nonzero⟩
    · rw [full]
      constructor
      · intro first
        exact absurd first.1 (nonzero last (by rw [full, querySize]; omega))
      · intro same
        simp only [querySize] at same
        omega
    · constructor
      · intro first
        have same := first.unique ⟨zero, nonzero⟩
        rw [querySize]
        omega
      · intro same
        rw [querySize] at same
        have same' : place = last := by omega
        exact same' ▸ ⟨zero, nonzero⟩
  · rcases ended with ⟨full, -⟩ | ⟨place, rfl, -⟩
    · rw [full, querySize] at short
      exact absurd short (by decide)
    · refine ⟨place, ?_⟩
      rw [querySize] at short ⊢
      omega

/-! ## The reply -/

section

variable {answer : Guarded} {udpLen iph udph address : Nat}

/-- Where the headers are not written. -/
theorem answerHeaders_apart (ethernet : 12 ≤ address) (ip : address < iph ∨ iph + 20 ≤ address)
    (udp : address < udph ∨ udph + 6 ≤ address) :
    (answerHeaders pack udpLen iph udph answer).bytes address = answer.bytes address := by
  simp only [answerHeaders, Guarded.put_bytes, pktEthAlen]
  rw [store_apart load_length (by omega), store_apart load_length (by omega),
    store_apart load_length (by omega), store_apart load_length (by omega),
    store_apart (show _ = 12 from rfl) (by omega), store_apart load_length (by omega),
    store_apart load_length (by omega), store_apart (be16_length _) (by omega)]

theorem answerHeaders_ip (ethernet : 12 ≤ iph) : Holds (answerHeaders pack udpLen iph udph answer).bytes iph
    ([0x45, 0] ++ be16 (UInt16.ofNat (udpLen + pktIpHlen)) ++ [0, 0, 0, 0, 0x10, 0x11, 0, 0]) := by
  have size : ([0x45, 0] ++ be16 (UInt16.ofNat (udpLen + pktIpHlen)) ++
    [0, 0, 0, 0, 0x10, 0x11, 0, 0]).length = 12 := rfl
  simp only [answerHeaders, Guarded.put_bytes, pktEthAlen]
  refine (((holds_store.store_apart ?_).store_apart ?_).store_apart ?_).store_apart ?_
  all_goals
    rw [size, load_length]
    omega

theorem answerHeaders_udp (ethernet : 12 ≤ iph) (behind : iph + 20 ≤ udph) :
    word16 (answerHeaders pack udpLen iph udph answer).bytes (udph + 4) = UInt16.ofNat udpLen := by
  rw [@word16_congr (store answer.bytes (udph + 4) (be16 (UInt16.ofNat udpLen))) (udph + 4) _
    fun index below => ?_, word16_store]
  simp only [answerHeaders, Guarded.put_bytes, pktEthAlen]
  rw [store_apart load_length (by omega), store_apart load_length (by omega),
    store_apart load_length (by omega), store_apart load_length (by omega),
    store_apart (show _ = 12 from rfl) (by omega), store_apart load_length (by omega),
    store_apart load_length (by omega)]

theorem answerHeaders_inside (size : udph + 28 ≤ answer.size) (behind : iph + 20 ≤ udph) :
    (answerHeaders pack udpLen iph udph answer).inside = true ↔ answer.inside = true := by
  have header : ([0x45, 0] ++ be16 (UInt16.ofNat (udpLen + pktIpHlen)) ++
    [0, 0, 0, 0, 0x10, 0x11, 0, 0]).length = 12 := rfl
  simp only [answerHeaders, Guarded.put_inside_iff, Guarded.put_size, load_length, be16_length, header,
    pktEthAlen]
  constructor
  · intro inside
    exact inside.1.1.1.1.1.1.1.1
  · intro inside
    exact ⟨⟨⟨⟨⟨⟨⟨⟨inside, .inr (by omega)⟩, .inr (by omega)⟩, .inr (by omega)⟩, .inr (by omega)⟩,
      .inr (by omega)⟩, .inr (by omega)⟩, .inr (by omega)⟩, .inr (by omega)⟩

theorem answerHeaders_inside_of (inside : (answerHeaders pack udpLen iph udph answer).inside = true) :
    answer.inside = true := by
  simp only [answerHeaders, Guarded.put_inside_iff] at inside
  exact inside.1.1.1.1.1.1.1.1

theorem answerHeaders_bytes (ethernet : 12 ≤ iph) :
    (answerHeaders pack udpLen iph udph answer).bytes iph = 0x45 ∧
      (answerHeaders pack udpLen iph udph answer).bytes (iph + 9) = ipProtoUdp ∧
        word16 (answerHeaders pack udpLen iph udph answer).bytes (iph + 2) =
          UInt16.ofNat (udpLen + pktIpHlen) := by
  obtain ⟨front, back⟩ := holds_append.mp (@answerHeaders_ip pack answer udpLen iph udph ethernet)
  obtain ⟨version, length⟩ := holds_append.mp front
  refine ⟨(holds_cons.mp version).1, ?_, ?_⟩
  · exact (holds_cons.mp (holds_cons.mp (holds_cons.mp (holds_cons.mp (holds_cons.mp
      (holds_cons.mp back).2).2).2).2).2).1
  · exact word16_of_holds length

/-- The frame that is sent, read by its headers. -/
theorem sent_apart (ethernet : 12 ≤ iph) (apart : address < iph + 10 ∨ iph + 12 ≤ address)
    (apart' : address < iph + 26 ∨ iph + 28 ≤ address) :
    (chksum (answerHeaders pack udpLen iph udph answer) iph).bytes address =
      (answerHeaders pack udpLen iph udph answer).bytes address := by
  obtain ⟨version, udp, -⟩ := @answerHeaders_bytes pack answer udpLen iph udph ethernet
  have five : (0x45 : UInt8).toNat % 16 * 4 = 20 := rfl
  refine chksum_apart_udp udp apart ?_
  rw [version, five]
  exact apart'

theorem sent_headers (same : sizeofeth answer.bytes = iph) (behind : iph ≤ udph) :
    sizeofeth (chksum (answerHeaders pack udpLen iph udph answer) iph).bytes = iph ∧
      headerLen (chksum (answerHeaders pack udpLen iph udph answer) iph).bytes = 20 := by
  have cases := sizeofeth_cases answer.bytes
  obtain ⟨version, -⟩ := @answerHeaders_bytes pack answer udpLen iph udph (by omega)
  have front {address : Nat} (above : 12 ≤ address) (below : address < iph) :
      (chksum (answerHeaders pack udpLen iph udph answer) iph).bytes address = answer.bytes address :=
    (sent_apart (by omega) (.inl (by omega)) (.inl (by omega))).trans
      (answerHeaders_apart above (.inl below) (.inl (by omega)))
  have ethernet : sizeofeth (chksum (answerHeaders pack udpLen iph udph answer) iph).bytes = iph :=
    (sizeofeth_congr (front (by omega) (by omega)) (front (by omega) (by omega))).trans same
  refine ⟨ethernet, ?_⟩
  rw [headerLen, versionIhl, ethernet, sent_apart (by omega) (.inl (by omega)) (.inl (by omega)), version]
  rfl

end

/-- The reply in front of its headers. -/
structure BodyMade (pack : Memory UInt8) (plen : Nat) (query : Guarded) (queryLen : Nat) (body : Guarded) :
    Prop where
  size : body.size = answerSize
  ethernet : sizeofeth body.bytes = sizeofeth pack
  inside : body.inside = true ↔ plen ≤ answerSize ∧ sizeofudp pack + dnsHlen + queryLen ≤ answerSize
  dns : Holds body.bytes (sizeofudp pack) (load pack (sizeofudp pack) 2 ++ [0x80, 0, 0, 1, 0, 1, 0, 0, 0, 0] ++
    load query.bytes 0 queryLen)

theorem makeAnswer_made (whole : sizeofudp pack + dnsHlen ≤ plen)
    (made : makeQuery pack uninit reply = (query, queryLen)) :
    ∃ body, BodyMade pack plen query queryLen body ∧
      makeAnswer pack plen uninit reply =
        ⟨⟨answerSize, (chksum (answerHeaders pack (queryLen + dnsHlen + pktUdpHlen) (sizeofeth pack)
            (sizeofip pack) body) (sizeofeth pack)).bytes,
          (chksum (answerHeaders pack (queryLen + dnsHlen + pktUdpHlen) (sizeofeth pack)
            (sizeofip pack) body) (sizeofeth pack)).inside && (query.touch 0 queryLen).inside⟩,
          sizeofudp pack + dnsHlen, queryLen, queryLen + dnsHlen + pktUdpHlen + (sizeofeth pack + 20)⟩ := by
  have cases := sizeofeth_cases pack
  have udp : sizeofudp pack = sizeofeth pack + headerLen pack + 8 := rfl
  have copy {address : Nat} (below : address < plen) :
      store uninit 0 (load pack 0 plen) address = pack address :=
    store_load_inside (Nat.zero_le _) (by omega)
  have ethernet : sizeofeth (store uninit 0 (load pack 0 plen)) = sizeofeth pack :=
    sizeofeth_congr (copy (by omega)) (copy (by omega))
  have header : headerLen (store uninit 0 (load pack 0 plen)) = headerLen pack :=
    headerLen_congr ethernet (copy (by omega))
  have ip : sizeofip (store uninit 0 (load pack 0 plen)) = sizeofip pack := by
    rw [sizeofip, sizeofip, ethernet, header]
  have udp' : sizeofudp (store uninit 0 (load pack 0 plen)) = sizeofudp pack := by
    rw [sizeofudp, sizeofudp, ip]
  have body : sizeofeth (answerDns pack query queryLen (sizeofudp pack)
      (Guarded.put ⟨answerSize, uninit, true⟩ 0 (load pack 0 plen))).bytes = sizeofeth pack := by
    refine Eq.trans ?_ ethernet
    simp only [answerDns, Guarded.put_bytes]
    refine sizeofeth_congr ?_ ?_
    · rw [store_outside (.inl (by omega)), store_outside (.inl (by omega))]
    · rw [store_outside (.inl (by omega)), store_outside (.inl (by omega))]
  obtain ⟨ethernet', header'⟩ := @sent_headers pack _ (queryLen + dnsHlen + pktUdpHlen) _ (sizeofip pack) body
    (Nat.le_add_right _ _)
  refine ⟨answerDns pack query queryLen (sizeofudp pack)
    (Guarded.put ⟨answerSize, uninit, true⟩ 0 (load pack 0 plen)), ⟨rfl, body, ?_, ?_⟩, ?_⟩
  · simp only [answerDns, Guarded.put_inside_iff, Guarded.put_size, load_length, List.length_append,
      List.length_cons, List.length_nil, true_and]
    rw [dnsHlen] at whole ⊢
    omega
  · simp only [answerDns, Guarded.put_bytes]
    rw [store_next (by
      simp only [List.length_append, load_length, List.length_cons, List.length_nil, dnsHlen])]
    exact holds_store
  · have length : sizeofip (chksum (answerHeaders pack (queryLen + dnsHlen + pktUdpHlen) (sizeofeth pack)
        (sizeofip pack) (answerDns pack query queryLen (sizeofudp pack)
          (Guarded.put ⟨answerSize, uninit, true⟩ 0 (load pack 0 plen)))) (sizeofeth pack)).bytes =
        sizeofeth pack + 20 := by
      rw [sizeofip, ethernet', header']
    have size : (chksum (answerHeaders pack (queryLen + dnsHlen + pktUdpHlen) (sizeofeth pack) (sizeofip pack)
        (answerDns pack query queryLen (sizeofudp pack)
          (Guarded.put ⟨answerSize, uninit, true⟩ 0 (load pack 0 plen)))) (sizeofeth pack)).size = answerSize :=
      chksum_size
    have touched : answerDns pack (query.touch 0 queryLen) queryLen = answerDns pack query queryLen := rfl
    simp only [makeAnswer, made, Guarded.put_bytes, ethernet, ip, udp', touched, length, size]

/-- The DNS message in a reply whose request has no IP options. -/
theorem BodyMade.message {count : Nat} {body : Guarded} (made : BodyMade pack plen query (count + 16) body)
    (is : QueryMade pack reply count query) (plain : headerLen pack = 20) (udpLen : Nat) :
    load (chksum (answerHeaders pack udpLen (sizeofeth pack) (sizeofip pack) body) (sizeofeth pack)).bytes
        (sizeofudp pack + dnsHlen - 8) 8 = [0, 1, 0, 1, 0, 0, 0, 0] ∧
      load (chksum (answerHeaders pack udpLen (sizeofeth pack) (sizeofip pack) body) (sizeofeth pack)).bytes
          (sizeofudp pack + dnsHlen) count = load pack (sizeofudp pack + dnsHlen) count ∧
        load (chksum (answerHeaders pack udpLen (sizeofeth pack) (sizeofip pack) body) (sizeofeth pack)).bytes
          (sizeofudp pack + dnsHlen + count) 16 = answerRecord reply := by
  have cases := sizeofeth_cases pack
  have ip : sizeofip pack = sizeofeth pack + 20 := by rw [sizeofip, plain]
  have udp : sizeofudp pack = sizeofeth pack + 28 := by
    rw [sizeofudp, ip]
    rfl
  have kept {address : Nat} (above : sizeofudp pack ≤ address) :
      (chksum (answerHeaders pack udpLen (sizeofeth pack) (sizeofip pack) body) (sizeofeth pack)).bytes address =
        body.bytes address :=
    (sent_apart (by omega) (.inr (by omega)) (.inr (by omega))).trans
      (answerHeaders_apart (by omega) (.inr (by omega)) (.inr (by omega)))
  have parts : load pack (sizeofudp pack) 2 ++ [0x80, 0, 0, 1, 0, 1, 0, 0, 0, 0] ++
      load query.bytes 0 (count + 16) = (load pack (sizeofudp pack) 2 ++ [0x80, 0]) ++
        ([0, 1, 0, 1, 0, 0, 0, 0] ++ (load query.bytes 0 count ++ load query.bytes count 16)) := by
    rw [load_append, Nat.zero_add]
    simp only [List.append_assoc, List.cons_append, List.nil_append]
  have dns := made.dns
  rw [parts] at dns
  obtain ⟨-, dns⟩ := holds_append.mp dns
  obtain ⟨counts, dns⟩ := holds_append.mp dns
  obtain ⟨question, record⟩ := holds_append.mp dns
  simp only [Holds, List.length_append, load_length, List.length_cons, List.length_nil] at counts question record
  have place : sizeofudp pack + dnsHlen = sizeofudp pack + (2 + (0 + 1 + 1)) +
    (0 + 1 + 1 + 1 + 1 + 1 + 1 + 1 + 1) := rfl
  rw [place]
  refine ⟨?_, ?_, ?_⟩
  · exact (load_congr fun index below => kept (by omega)).trans counts
  · refine (load_congr fun index below => kept (by omega)).trans (question.trans ?_)
    refine List.map_congr_left fun index member => ?_
    rw [Nat.zero_add]
    exact is.bytes index (List.mem_range.mp member)
  · refine (load_congr fun index below => kept (by omega)).trans (record.trans is.record)

section

variable {body : Guarded} {udpLen : Nat} (ethernet : sizeofeth body.bytes = sizeofeth pack)
  (plain : headerLen pack = 20) (small : udpLen < 1400)

include ethernet plain

theorem udpField_sent : word16 (answerHeaders pack udpLen (sizeofeth pack) (sizeofip pack) body).bytes
    (sizeofeth pack + 24) = UInt16.ofNat udpLen := by
  have cases := sizeofeth_cases pack
  have ip : sizeofip pack = sizeofeth pack + 20 := by rw [sizeofip, plain]
  have field := @answerHeaders_udp pack body udpLen (sizeofeth pack) (sizeofip pack) (by omega) (by omega)
  rw [ip] at field ⊢
  exact field

include small

/-- The lengths that a reply has in its headers. -/
theorem lengths_sent :
    sizeofip (chksum (answerHeaders pack udpLen (sizeofeth pack) (sizeofip pack) body) (sizeofeth pack)).bytes =
        sizeofeth pack + 20 ∧
      udphLen (chksum (answerHeaders pack udpLen (sizeofeth pack) (sizeofip pack) body) (sizeofeth pack)).bytes =
          udpLen ∧
        iphTotLen (chksum (answerHeaders pack udpLen (sizeofeth pack) (sizeofip pack) body)
          (sizeofeth pack)).bytes = udpLen + pktIpHlen := by
  have cases := sizeofeth_cases pack
  have ip : sizeofip pack = sizeofeth pack + 20 := by rw [sizeofip, plain]
  obtain ⟨ethernet', header⟩ := @sent_headers pack body udpLen (sizeofeth pack) (sizeofip pack) ethernet
    (by omega)
  obtain ⟨-, -, total⟩ := @answerHeaders_bytes pack body udpLen (sizeofeth pack) (sizeofip pack) (by omega)
  have sentIp : sizeofip (chksum (answerHeaders pack udpLen (sizeofeth pack) (sizeofip pack) body)
      (sizeofeth pack)).bytes = sizeofeth pack + 20 := by
    rw [sizeofip, ethernet', header]
  refine ⟨sentIp, ?_, ?_⟩
  · rw [udphLen, sentIp, word16_congr fun index below => sent_apart (by omega) (.inr (by omega))
      (.inl (by omega)), udpField_sent ethernet plain, UInt16.toNat_ofNat', Nat.mod_eq_of_lt (by omega)]
  · rw [iphTotLen, ethernet', word16_congr fun index below => sent_apart (by omega) (.inl (by omega))
      (.inl (by omega)), total, UInt16.toNat_ofNat', pktIpHlen, Nat.mod_eq_of_lt (by omega)]

theorem inside_sent (size : body.size = answerSize) (inside : body.inside = true) :
    (chksum (answerHeaders pack udpLen (sizeofeth pack) (sizeofip pack) body) (sizeofeth pack)).inside = true := by
  have cases := sizeofeth_cases pack
  have ip : sizeofip pack = sizeofeth pack + 20 := by rw [sizeofip, plain]
  rw [answerSize] at size
  have size' : (answerHeaders pack udpLen (sizeofeth pack) (sizeofip pack) body).size = 1500 := by
    simp only [answerHeaders, Guarded.put_size, size]
  obtain ⟨version, protocol, -⟩ :=
    @answerHeaders_bytes pack body udpLen (sizeofeth pack) (sizeofip pack) (by omega)
  refine chksum_inside_udp protocol version (by omega) ?_ ?_
  · rw [udpField_sent ethernet plain, UInt16.toNat_ofNat', Nat.mod_eq_of_lt (by omega)]
    omega
  · exact (answerHeaders_inside (by omega) (by omega)).mpr inside

end

/-- A question that stands at the records is copied whole when its first zero ends its name. -/
theorem copied_iff {count : Nat} (is : QueryMade pack reply count query) {asked : List UInt8} :
    count ≤ 240 ∧ load pack (sizeofudp pack + dnsHlen) count = asked ↔
      ∃ name type, asked = name ++ 0 :: type ∧ 0 ∉ name ∧ name.length ≤ 235 ∧ type.length = 4 ∧
        Holds pack (sizeofudp pack + dnsHlen) (name ++ 0 :: type) := by
  constructor
  · rintro ⟨short, rfl⟩
    obtain ⟨last, rfl⟩ := is.short short
    obtain ⟨zero, nonzero⟩ := (is.ended last (by omega)).mpr rfl
    have parts : load pack (sizeofudp pack + dnsHlen) (last + 5) =
        load pack (sizeofudp pack + dnsHlen) last ++
          0 :: load pack (sizeofudp pack + dnsHlen + last + 1) 4 := by
      rw [load_append, load_succ, zero]
    refine ⟨_, _, parts, fun member => ?_, by rw [load_length]; omega, load_length, ?_⟩
    · obtain ⟨index, below, same⟩ := List.mem_map.mp member
      exact nonzero index (List.mem_range.mp below) same
    · rw [← parts, Holds, load_length]
  · rintro ⟨name, type, rfl, noZero, short, four, holds⟩
    obtain ⟨front, back⟩ := holds_append.mp holds
    have first : FirstZero pack (sizeofudp pack + dnsHlen) name.length := by
      refine ⟨(holds_cons.mp back).1, fun index below zero => noZero ?_⟩
      rw [← front, ← zero]
      exact List.mem_map.mpr ⟨index, List.mem_range.mpr below, rfl⟩
    have count' := (is.ended name.length short).mp first
    refine ⟨by omega, ?_⟩
    rw [Holds, List.length_append, List.length_cons, four] at holds
    rw [count']
    exact holds

theorem makeAnswer_answersWell_iff (whole : sizeofudp pack + dnsHlen ≤ plen)
    (question : Option (List UInt8)) :
    AnswersWell question reply (makeAnswer pack plen uninit reply) ↔ Answerable pack plen question := by
  obtain ⟨count, query, made, is⟩ := @makeQuery_made pack uninit reply
  obtain ⟨body, bodyMade, same⟩ := makeAnswer_made whole made
  rw [same]
  have cases := sizeofeth_cases pack
  have udp : sizeofudp pack = sizeofeth pack + headerLen pack + 8 := rfl
  constructor
  · intro well
    have plain : headerLen pack = 20 := by
      have frame : count + 16 + dnsHlen + pktUdpHlen + (sizeofeth pack + 20) =
        sizeofudp pack + dnsHlen + (count + 16) := well.frame
      rw [pktUdpHlen] at frame
      omega
    obtain ⟨-, copied, -⟩ := bodyMade.message is plain (count + 16 + dnsHlen + pktUdpHlen)
    have inside := well.inside
    rw [Bool.and_eq_true, Guarded.touch_inside_iff] at inside
    have fits := bodyMade.inside.mp (answerHeaders_inside_of (chksum_inside_of inside.1))
    obtain ⟨asked, member, question'⟩ := well.question
    obtain ⟨name, type, rfl, rest⟩ :=
      (copied_iff is).mp ⟨is.inside.mp inside.2.1, copied.symm.trans question'⟩
    exact ⟨plain, fits.1, name, type, member, rest⟩
  · intro able
    have plain : headerLen pack = 20 := able.plain
    have ip : sizeofip pack = sizeofeth pack + 20 := by rw [sizeofip, plain]
    obtain ⟨name, type, member, rest⟩ := able.question
    obtain ⟨short, copied⟩ := (copied_iff is).mpr ⟨name, type, rfl, rest⟩
    have fits := able.fits
    have bodyInside := bodyMade.inside.mpr ⟨able.fits, by
      rw [udp, plain, dnsHlen, answerSize]
      omega⟩
    have small : count + 16 + dnsHlen + pktUdpHlen < 1400 := by
      rw [dnsHlen, pktUdpHlen]
      omega
    obtain ⟨counts, question', record⟩ := bodyMade.message is plain (count + 16 + dnsHlen + pktUdpHlen)
    obtain ⟨sentIp, sentUdp, sentTotal⟩ := lengths_sent bodyMade.ethernet plain small
    refine ⟨?_, counts, ⟨_, member, question'.trans copied⟩, record, ?_, ?_, ?_, ?_⟩
    · rw [Bool.and_eq_true, Guarded.touch_inside_iff, is.size]
      refine ⟨inside_sent bodyMade.ethernet plain small bodyMade.size bodyInside, is.inside.mpr short, .inr ?_⟩
      rw [querySize]
      omega
    · rw [sizeofudp, sentIp, udp, plain]
      rfl
    · rw [sentUdp, Nat.add_assoc, Nat.add_comm, Nat.add_comm dnsHlen]
    · rw [sentUdp, sentTotal, Nat.add_comm]
    · refine show count + 16 + dnsHlen + pktUdpHlen + (sizeofeth pack + 20) =
        sizeofudp pack + dnsHlen + (count + 16) from ?_
      rw [udp, plain, pktUdpHlen]
      omega

/-! ## The requests that are answered -/

section

variable {options : DnsOptions} {names : LocalNames} {addresses : LocalAddresses} {dns : List UInt8}
  {walk next : DnsWalk} {isReq mdns q : Bool} {address : UInt32}

theorem copyres_steady {count : Nat} (steady : walk.Steady)
    (copied : copyres options isReq mdns q count walk = .ok next) : next.Steady := by
  induction count generalizing walk with
  | zero =>
      cases copied
      exact steady
  | succ count ih =>
      rw [copyres] at copied
      split at copied
      · cases copied
        exact steady
      · obtain ⟨between, accepted, copied⟩ := bind_eq_ok.mp copied
        exact ih (dnsCopyRes_accepted steady accepted).1 copied

theorem dnsRecords_steady (header : dnsHlen ≤ dns.length)
    (walked : dnsRecords options isReq mdns dns = .ok walk) : walk.Steady := by
  obtain ⟨qdcount, -, walked⟩ := bind_eq_ok.mp walked
  obtain ⟨ancount, -, walked⟩ := bind_eq_ok.mp walked
  obtain ⟨nscount, -, walked⟩ := bind_eq_ok.mp walked
  obtain ⟨arcount, -, walked⟩ := bind_eq_ok.mp walked
  obtain ⟨questions, asked, walked⟩ := bind_eq_ok.mp walked
  obtain ⟨answers, answered, walked⟩ := bind_eq_ok.mp walked
  obtain ⟨servers, served, walked⟩ := bind_eq_ok.mp walked
  have steady := reached_steady header (Reached.first : Reached options isReq mdns dns _)
  exact copyres_steady (copyres_steady (copyres_steady (copyres_steady steady asked) answered) served) walked

theorem requestWalk_eq (walked : requestWalk options dns = some walk) :
    dnsHlen ≤ dns.length ∧ ¬ dnsField dns 2 / 2 ^ 15 = 1 ∧ dnsRecords options true false dns = .ok walk ∧
      walk.left = 0 ∧ plainQuestion dns = true := by
  unfold requestWalk at walked
  split at walked
  · cases walked
  · split at walked
    · cases walked
    · split at walked
      · cases walked
      · next header request _ _ records =>
          split at walked
          · next asked =>
              cases walked
              exact ⟨Nat.not_lt.mp header, request, records, asked⟩
          · cases walked

theorem localReply_isSome (question : List UInt8) :
    (localReply names addresses question).isSome = answeredLocally names question := by
  unfold localReply answeredLocally
  split
  · next logout => rw [logout]; rfl
  · next logout =>
      split
      · next hostname => rw [hostname, Bool.or_true]; rfl
      · next hostname =>
          split
          · next aliasname => rw [aliasname, Bool.or_true]; rfl
          · next aliasname =>
              split
              · next domain => rw [domain, Bool.or_true]; rfl
              · next domain =>
                  rw [Bool.not_eq_true] at logout hostname aliasname domain
                  rw [logout, hostname, aliasname, domain]
                  rfl

theorem askedName_eq {length : Nat} (ended : stringLength walk.question = .ok length) :
    walk.question.take length = askedName walk := by
  unfold stringLength at ended
  split at ended
  · next found =>
      cases ended
      obtain ⟨below, -, -⟩ := List.findIdx?_eq_some_iff_getElem.mp found
      rw [askedName, List.takeWhile_eq_take_findIdx_not]
      congr 1
      rw [List.findIdx?_eq_some_iff_findIdx_eq] at found
      rw [← found.2]
      congr 1
      funext byte
      simp only [ne_eq, decide_not, Bool.not_not]
  · cases ended

/-- A request that is answered on the spot is not forwarded. -/
theorem dhcpDns_local (walked : requestWalk options dns = some walk)
    (known : localReply names addresses (askedName walk) = some address) :
    dhcpDns options names true dns = .ok none := by
  obtain ⟨header, request, records, whole, plain⟩ := requestWalk_eq walked
  obtain ⟨length, ended⟩ := stringLength_ok (dnsRecords_steady header records).terminated
  have answered : answeredLocally names (askedName walk) = true := by
    rw [← @localReply_isSome names addresses, known]
    rfl
  have request' : ¬ (dnsField dns 2 / 2 ^ 15 = 1) = (true = true) := by
    rw [eq_self, eq_iff_iff, iff_true]
    exact request
  rw [dhcpDns, if_neg (by omega), if_neg request', records]
  simp only [forwardWalked, whole, plain, ended, ne_eq, not_true_eq_false, Bool.and_true, if_true, if_false]
  refine bind_eq_ok.mpr ⟨length, rfl, ?_⟩
  rw [askedName_eq ended, answered, if_pos rfl]

theorem walkedPack_before {place : Nat} (before : place < sizeofudp pack) :
    walkedPack pack walk place = pack place :=
  store_outside (.inl before)

theorem walkedPack_headers : sizeofeth (walkedPack pack walk) = sizeofeth pack ∧
    headerLen (walkedPack pack walk) = headerLen pack := by
  have cases := sizeofeth_cases pack
  have udp : sizeofudp pack = sizeofeth pack + headerLen pack + 8 := rfl
  have ethernet : sizeofeth (walkedPack pack walk) = sizeofeth pack :=
    sizeofeth_congr (walkedPack_before (by omega)) (walkedPack_before (by omega))
  exact ⟨ethernet, headerLen_congr ethernet (walkedPack_before (by omega))⟩

theorem walkedPack_whole (walked : requestWalk options (dnsBytes pack plen) = some walk) :
    sizeofudp (walkedPack pack walk) + dnsHlen ≤ plen := by
  obtain ⟨header, -⟩ := requestWalk_eq walked
  obtain ⟨ethernet, ip⟩ := @walkedPack_headers pack walk
  have udp : sizeofudp pack = sizeofeth pack + headerLen pack + pktUdpHlen := rfl
  have twelve : dnsHlen = 12 := rfl
  rw [dnsBytes, load_length] at header
  rw [sizeofudp, sizeofip, ethernet, ip]
  omega

theorem dhcpDnsLocal_eq (walked : requestWalk options (dnsBytes pack plen) = some walk)
    (known : localReply names addresses (askedName walk) = some address) :
    dhcpDnsLocal options names addresses pack plen uninit =
      some (makeAnswer (walkedPack pack walk) plen uninit address) := by
  rw [dhcpDnsLocal, walked, Option.bind_eq_bind, Option.bind_some, known]
  rfl

/-- A request that is answered on the spot gets a good reply exactly if it is answerable. -/
theorem dhcpDnsLocal_answersWell_iff (walked : requestWalk options (dnsBytes pack plen) = some walk)
    (known : localReply names addresses (askedName walk) = some address) :
    ∃ sent, dhcpDnsLocal options names addresses pack plen uninit = some sent ∧
      (AnswersWell (matchedQuestion options (dnsBytes pack plen)) address sent ↔
        Answerable (walkedPack pack walk) plen (matchedQuestion options (dnsBytes pack plen))) :=
  ⟨makeAnswer (walkedPack pack walk) plen uninit address, dhcpDnsLocal_eq walked known,
    makeAnswer_answersWell_iff (walkedPack_whole walked) _⟩

end

/-- A frame over IPv4 whose UDP packet has one question. -/
def questionFrame (question : List UInt8) : Memory UInt8 := fun address =>
  (List.replicate 12 2 ++ [8, 0, 0x45] ++ List.replicate 27 0 ++
    ([0, 7, 1, 0, 0, 1, 0, 0, 0, 0, 0, 0] ++ question)).getD address 0

/-- The name "logout", its type and class. -/
def logoutQuestion : List UInt8 := [6, 108, 111, 103, 111, 117, 116, 0, 0, 1, 0, 1]

/-- A name of four long labels in the domain "lan". -/
def lanQuestion : List UInt8 :=
  (List.replicate 4 (58 :: List.replicate 58 97)).flatten ++ [3, 108, 97, 110, 0, 0, 1, 0, 1]

def lanNames : LocalNames := ⟨none, none, some [108, 97, 110], true⟩

def lanAddresses : LocalAddresses := ⟨0x01010101, 0x0a010001, 0x0a010001⟩

theorem dhcpDnsLocal_answersWell_iff_logout :
    ∃ walk, requestWalk plainOptions (dnsBytes (questionFrame logoutQuestion) 66) = some walk ∧
      ∃ sent, dhcpDnsLocal plainOptions lanNames lanAddresses (questionFrame logoutQuestion) 66 (fun _ => 0) =
        some sent ∧
          (AnswersWell (matchedQuestion plainOptions (dnsBytes (questionFrame logoutQuestion) 66)) 0x01010101 sent ↔
            Answerable (walkedPack (questionFrame logoutQuestion) walk) 66
              (matchedQuestion plainOptions (dnsBytes (questionFrame logoutQuestion) 66))) := by
  have asked : (requestWalk plainOptions (dnsBytes (questionFrame logoutQuestion) 66)).map
      (fun walk => localReply lanNames lanAddresses (askedName walk)) = some (some 0x01010101) := by
    decide +kernel
  obtain ⟨walk, walked, known⟩ := Option.map_eq_some_iff.mp asked
  exact ⟨walk, walked, dhcpDnsLocal_answersWell_iff walked known⟩

/-- A name of 241 bytes in the local domain: the record behind it does not fit into the query. -/
theorem dhcpDnsLocal_long_name :
    ∃ sent, dhcpDnsLocal plainOptions lanNames lanAddresses (questionFrame lanQuestion) 299 (fun _ => 0) =
      some sent ∧
        ¬ AnswersWell (matchedQuestion plainOptions (dnsBytes (questionFrame lanQuestion) 299)) 0x0a010001 sent := by
  have asked : (requestWalk plainOptions (dnsBytes (questionFrame lanQuestion) 299)).map
      (fun walk => localReply lanNames lanAddresses (askedName walk)) = some (some 0x0a010001) := by
    decide +kernel
  have matched : matchedQuestion plainOptions (dnsBytes (questionFrame lanQuestion) 299) = some lanQuestion := by
    decide +kernel
  obtain ⟨walk, walked, known⟩ := Option.map_eq_some_iff.mp asked
  refine ⟨_, dhcpDnsLocal_eq walked known, fun well => ?_⟩
  obtain ⟨name, type, same, -, short, four, -⟩ :=
    ((makeAnswer_answersWell_iff (walkedPack_whole walked) _).mp well).question
  rw [matched, Option.mem_some_iff] at same
  have length : lanQuestion.length = 245 := rfl
  rw [same, List.length_append, List.length_cons] at length
  omega

end Rut9xx.Chilli
