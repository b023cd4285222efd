import Rut9xx.RadiusClient.ReplyMatching

namespace Rut9xx.RadiusClient

open Data

/-! # Replies and the requests that they answer -/

variable {Cbp : Type} {radius : Radius Cbp} {requests : List (Request Cbp)} {md5 : Md5}
  {pack packReq : RadiusPacket} {cbp : Option Cbp} {idx : Nat} {datagram : List UInt8} {addr : UInt32}
  {port : UInt16}

/-- A request in the queue. -/
structure Queued (radius : Radius Cbp) (idx : Nat) (packReq : RadiusPacket) (cbp : Option Cbp) :
    Prop where
  inside : idx < radius.size
  full : (radius.queue idx).state = .full
  packet : (radius.queue idx).p = some packReq
  owner : (radius.queue idx).cbp = cbp

/-- The identifier and the response authenticator of a reply are those for the request. -/
structure Matches (md5 : Md5) (radius : Radius Cbp) (pack packReq : RadiusPacket) : Prop where
  id : packReq.id = pack.id
  authenticator : radiusAuthcheck md5 radius.secret pack packReq = false

/-- A datagram of a server that holds a reply to the request. -/
structure Genuine (md5 : Md5) (radius : Radius Cbp) (datagram : List UInt8) (addr : UInt32)
    (port : UInt16) (pack packReq : RadiusPacket) : Prop where
  read : readPacket datagram = some pack
  reply : pack.code ∈ authReplies ∨ pack.code = codeAccountingResponse
  matching : Matches md5 radius pack packReq
  server : fromServer radius addr = true
  service : port = radius.authport ∨ port = radius.acctport

/-- The request leaves the queue with a confirmation, and all others stay as they are. -/
structure Delivered (radius : Radius Cbp) (result : Radius Cbp × List (Output Cbp)) (idx : Nat)
    (pack packReq : RadiusPacket) (cbp : Option Cbp) : Prop where
  taken : (result.1.queue idx).state = .empty
  others : ∀ other, other ≠ idx → bare (result.1.queue other) = bare (radius.queue other)
  confirmed : result.2 = confirmReply radius pack packReq cbp

theorem Represents.request_of (represents : Represents radius requests)
    (queued : Queued radius idx packReq cbp) :
    ∃ request ∈ requests, request.idx = idx ∧ request.pack = packReq ∧ request.cbp = cbp := by
  obtain ⟨request, member, rfl⟩ := represents.full_iff.mp queued.full
  have owner : (radius.queue request.idx).cbp = request.cbp :=
    congrArg RadiusQueue.cbp (represents.holds request member)
  exact ⟨request, member, rfl, Option.some.inj ((represents.packet member).symm.trans queued.packet),
    owner.symm.trans queued.owner⟩

theorem Represents.queued_of (represents : Represents radius requests) {request : Request Cbp}
    (member : request ∈ requests) : Queued radius request.idx request.pack request.cbp where
  inside := represents.below request member
  full := congrArg RadiusQueue.state (represents.holds request member)
  packet := represents.packet member
  owner := congrArg RadiusQueue.cbp (represents.holds request member)

/-- A reply that is found for a request is delivered to it. -/
theorem radiusDecaps_of_found (represents : Represents radius requests)
    (queued : Queued radius idx packReq cbp)
    (genuine : Genuine md5 radius datagram addr port pack packReq)
    (found : radiusQueueIdx radius pack.id.toNat = some idx) :
    radiusDecaps md5 radius datagram addr port =
      ({ dequeue radius idx with lastreply := addr ≠ radius.hisaddr0 },
        confirmReply radius pack packReq cbp) := by
  obtain ⟨request, member, rfl, rfl, rfl⟩ := represents.request_of queued
  have noRequest : ¬ (pack.code = codeDisconnectRequest ∨ pack.code = codeCoaRequest) := by
    have apart : ∀ code ∈ codeAccountingResponse :: authReplies,
        ¬ (code = codeDisconnectRequest ∨ code = codeCoaRequest) := by decide +kernel
    apply apart
    rcases genuine.reply with auth | acct
    · exact List.mem_cons_of_mem _ auth
    · exact acct ▸ List.mem_cons_self
  have rightPort : ¬ (port ≠ radius.authport ∧ port ≠ radius.acctport) := by
    rintro ⟨noAuth, noAcct⟩
    rcases genuine.service with auth | acct
    · exact noAuth auth
    · exact noAcct acct
  have out : radiusQueueOut md5 radius none (some pack) =
      if (some pack).any fun pack => radiusAuthcheck md5 radius.secret pack request.pack then none
      else some (dequeue radius request.idx, some request.pack, request.cbp) :=
    radiusQueueOut_of_mem represents member found
  rw [Option.any_some, genuine.matching.authenticator] at out
  rw [radiusDecaps, genuine.read]
  simp only [if_neg noRequest, genuine.server, if_neg rightPort, out, Bool.not_true, Bool.false_eq_true,
    if_false, Option.toList_some, List.flatMap_cons, List.flatMap_nil, List.append_nil]
  rfl

/-- A genuine reply reaches its request exactly if no other request with the identifier is met
before it. -/
theorem delivered_iff (represents : Represents radius requests)
    (queued : Queued radius idx packReq cbp)
    (genuine : Genuine md5 radius datagram addr port pack packReq) :
    Delivered radius (radiusDecaps md5 radius datagram addr port) idx pack packReq cbp ↔
      Unobscured radius idx pack.id := by
  have has : hasId (radius.queue idx) pack.id.toNat = true := by
    rw [hasId, queued.packet, Option.any_some, genuine.matching.id]
    exact decide_eq_true rfl
  rw [← radiusQueueIdx_eq_some_iff queued.inside has]
  constructor
  · intro delivered
    have taken := delivered.taken
    rcases radiusDecaps_cases represents md5 datagram addr port with ⟨outputs, same, -, -⟩ | answered
    · rw [same, queued.full] at taken
      contradiction
    · obtain ⟨other, read, request, member, found, -, done⟩ := answered
      obtain rfl : pack = other := Option.some.inj (genuine.read.symm.trans read)
      by_cases itself : idx = request.idx
      · rw [itself]
        exact found
      · have kept : bare ((dequeue radius request.idx).queue idx) = bare (radius.queue idx) :=
          bare_dequeue_of_ne itself
        rw [done] at taken
        have state : (radius.queue idx).state = .empty :=
          (congrArg RadiusQueue.state kept).symm.trans taken
        rw [queued.full] at state
        contradiction
  · intro found
    rw [radiusDecaps_of_found represents queued genuine found]
    constructor
    · exact (dequeue_self radius idx).1
    · intro other differs
      exact bare_dequeue_of_ne differs
    · rfl

theorem confirms_of_mem {output : Output Cbp} (member : output ∈ confirmReply radius pack packReq cbp)
    {pack' packReq' : RadiusPacket} {cbp' : Option Cbp} (confirms : output.Confirms pack' packReq' cbp') :
    pack' = pack ∧ packReq' = packReq ∧ cbp' = cbp := by
  have single : output = .authConf (some pack) packReq cbp ∨
      output = .acctConf (some pack) packReq cbp := by
    rw [confirmReply] at member
    split at member
    · split at member
      · exact Or.inl (List.mem_singleton.mp member)
      · contradiction
    · split at member
      · split at member
        · exact Or.inr (List.mem_singleton.mp member)
        · contradiction
      · contradiction
  rcases single with rfl | rfl
  · rcases confirms with same | impossible
    · cases same
      exact ⟨rfl, rfl, rfl⟩
    · contradiction
  · rcases confirms with impossible | same
    · contradiction
    · cases same
      exact ⟨rfl, rfl, rfl⟩

theorem confirmTimeout_no_reply {output : Output Cbp}
    (member : output ∈ confirmTimeout radius packReq cbp) {packReq' : RadiusPacket}
    {cbp' : Option Cbp} : ¬ output.Confirms pack packReq' cbp' := by
  intro confirms
  rw [confirmTimeout] at member
  split at member
  · rw [List.mem_singleton.mp member] at confirms
    rcases confirms with impossible | impossible
    · contradiction
    · cases impossible
  · split at member
    · rw [List.mem_singleton.mp member] at confirms
      rcases confirms with impossible | impossible
      · cases impossible
      · contradiction
    · contradiction

/-! ## Runs of the client -/

/-- A confirmation by a reply answers a request in the queue. -/
def ConfirmsQueued (options : Options) (md5 : Md5) (session : Session) : Prop :=
  ∀ event output pack packReq cbp, output ∈ (session.step options md5 event).2 →
    output.Confirms pack packReq cbp →
      ∃ datagram addr port idx, event = .reply datagram addr port ∧ readPacket datagram = some pack ∧
        Queued session.radius idx packReq cbp ∧ Matches md5 session.radius pack packReq

theorem radiusQueueIdx_matches (represents : Represents radius requests) {request : Request Cbp}
    (member : request ∈ requests) (found : radiusQueueIdx radius pack.id.toNat = some request.idx)
    (authentic : radiusAuthcheck md5 radius.secret pack request.pack = false) :
    Matches md5 radius pack request.pack where
  id := by
    have has := radiusQueueIdx_hasId found
    rw [hasId, represents.packet member, Option.any_some, decide_eq_true_iff] at has
    exact UInt8.toNat_inj.mp has
  authenticator := authentic

theorem step_confirmsQueued {session : Session} {waiting : List (Request Nat)} (options : Options)
    (md5 : Md5) (represents : Represents session.radius waiting) :
    ConfirmsQueued options md5 session := by
  intro event output pack packReq cbp member confirms
  cases event with
  | defaultPack code random => contradiction
  | request code random attributes now allocated =>
      rw [Session.step] at member
      have packed := radiusDefaultPack_represents represents code random
      generalize radiusDefaultPack session.radius code random = result at member packed
      obtain ⟨next, packed'⟩ := result
      cases packed' with
      | none => contradiction
      | some pack' =>
          obtain ⟨sentPack, addr, port, rfl⟩ := radiusReq_sent member
          rcases confirms with impossible | impossible
          · contradiction
          · contradiction
  | reply datagram addr port =>
      rw [Session.step] at member
      rcases radiusDecaps_cases represents md5 datagram addr port with ⟨outputs, same, -, quiet⟩ | answered
      · rw [same] at member
        exact absurd confirms (quiet output member pack packReq cbp)
      · obtain ⟨found, read, request, present, at', authentic, done⟩ := answered
        rw [done] at member
        obtain ⟨rfl, rfl, rfl⟩ := confirms_of_mem member confirms
        exact ⟨datagram, addr, port, request.idx, rfl, read, represents.queued_of present,
          radiusQueueIdx_matches represents present at' authentic⟩
  | timeout now later =>
      rw [Session.step] at member
      rcases radiusTimeout_cases represents options md5 now later with early | due
      · rw [early] at member
        contradiction
      · obtain ⟨head, rest, -, -, ⟨-, next, done, -, -⟩ | ⟨-, done⟩⟩ := due
        · rw [done] at member
          rw [List.mem_singleton.mp member] at confirms
          rcases confirms with impossible | impossible
          · contradiction
          · contradiction
        · rw [done] at member
          exact absurd confirms (confirmTimeout_no_reply member)

theorem start_accounted (radius : Radius Nat) (size : Int) :
    Accounted (radiusInitQ radius size) 0 [] [] where
  represents := radiusInitQ_represents radius size
  once := fun _ => Nat.zero_le _

/-- After every run a request was called back at most once, a reply confirms only a request in the
queue that it matches, and a genuine reply reaches its request exactly if no other request with the
identifier is met before it. -/
theorem replies_matched_iff (options : Options) (md5 : Md5) (radius : Radius Nat) (size : Int)
    (events : List Event) :
    let reached := (⟨radiusInitQ radius size, 0⟩ : Session).run options md5 events
    (reached.2.filterMap Output.confirmed).Nodup ∧ ConfirmsQueued options md5 reached.1 ∧
      ∀ datagram addr port pack packReq idx cbp, Queued reached.1.radius idx packReq cbp →
        Genuine md5 reached.1.radius datagram addr port pack packReq →
          (Delivered reached.1.radius (radiusDecaps md5 reached.1.radius datagram addr port) idx pack
              packReq cbp ↔
            Unobscured reached.1.radius idx pack.id) := by
  have start : Accounted (⟨radiusInitQ radius size, 0⟩ : Session).radius 0 [] [] :=
    start_accounted radius size
  obtain ⟨waiting, accounted⟩ := run_accounted options md5 events start
  refine ⟨?_, step_confirmsQueued options md5 accounted.represents, ?_⟩
  · rw [List.nodup_iff_count_le_one]
    intro ticket
    have once := accounted.once ticket
    rw [List.nil_append] at once
    split at once
    · omega
    · omega
  · intro datagram addr port pack packReq idx cbp queued genuine
    exact delivered_iff accounted.represents queued genuine

/-! ## Identifiers that come round

A queue of two, and a server that does not answer for a while: the refused requests use up the
identifiers, and one of the two that wait has the same as the next to be queued. -/

def nonce (byte : UInt8) : Authenticator := ⟨List.replicate 16 byte, List.length_replicate⟩

/-- What MD5 is taken of for an accept to the request with this identifier and nonce. -/
def acceptInput (id byte : UInt8) : List UInt8 :=
  [codeAccessAccept, id, 0, 20] ++ List.replicate 16 byte ++ localClient.secret

/-- MD5, as far as it is used. -/
def acceptDigest (bytes : List UInt8) : Authenticator :=
  if bytes = acceptInput 1 0x11 then
    ⟨[0x04, 0xed, 0x40, 0x92, 0x4b, 0x07, 0xc2, 0x90, 0xc4, 0x0f, 0xe8, 0xce, 0x1b, 0x65, 0xb6, 0xa1],
      rfl⟩
  else if bytes = acceptInput 2 0x22 then
    ⟨[0xff, 0x37, 0x7a, 0xe2, 0x78, 0x71, 0xfc, 0x85, 0xb4, 0xfd, 0x10, 0xcc, 0xec, 0x34, 0x1e, 0xaa],
      rfl⟩
  else
    ⟨[0x7d, 0x8e, 0x87, 0x24, 0xe6, 0x3d, 0x30, 0x79, 0x0c, 0xb3, 0x82, 0x22, 0x28, 0x1a, 0x82, 0xbe],
      rfl⟩

/-- An access request with a user name. -/
def accessRequest (byte : UInt8) : Event :=
  .request codeAccessRequest (some (nonce byte)) [1, 3, 0x61] ⟨100, 0⟩ true

def acceptDatagram (id byte : UInt8) : List UInt8 :=
  [codeAccessAccept, id, 0, 20] ++ (acceptDigest (acceptInput id byte)).1

def outage : List Event :=
  [accessRequest 0x11, accessRequest 0x22] ++ List.replicate 253 (accessRequest 0x44) ++
    [.reply (acceptDatagram 2 0x22) 0x7f000001 1812, accessRequest 0x33]

/-- The reply to the first request is checked against the last one, and is lost. -/
theorem sameId_rejected :
    ¬ ∀ options md5 radius size events,
      let reached := (⟨radiusInitQ radius size, 0⟩ : Session).run options md5 events
      (reached.2.filterMap Output.confirmed).Nodup ∧ ConfirmsQueued options md5 reached.1 ∧
        ∀ datagram addr port pack packReq idx cbp, Queued reached.1.radius idx packReq cbp →
          Genuine md5 reached.1.radius datagram addr port pack packReq →
            Delivered reached.1.radius (radiusDecaps md5 reached.1.radius datagram addr port) idx pack
              packReq cbp := by
  intro delivers
  have delivered := (delivers ⟨10, 4, 2⟩ acceptDigest localClient 2 outage).2.2 (acceptDatagram 1 0x11)
    0x7f000001 1812 ⟨codeAccessAccept, 1, acceptDigest (acceptInput 1 0x11), []⟩
    ⟨codeAccessRequest, 1, nonce 0x11, [1, 3, 0x61]⟩ 0 (some 0)
  -- one evaluation of the run for all that is read off its end
  have ended : let reached :=
        ((⟨radiusInitQ localClient 2, 0⟩ : Session).run ⟨10, 4, 2⟩ acceptDigest outage).1.radius
      0 < reached.size ∧ (reached.queue 0).state = .full ∧
        (reached.queue 0).p = some ⟨codeAccessRequest, 1, nonce 0x11, [1, 3, 0x61]⟩ ∧
        (reached.queue 0).cbp = some 0 ∧
        radiusAuthcheck acceptDigest reached.secret
          ⟨codeAccessAccept, 1, acceptDigest (acceptInput 1 0x11), []⟩
          ⟨codeAccessRequest, 1, nonce 0x11, [1, 3, 0x61]⟩ = false ∧
        fromServer reached 0x7f000001 = true ∧ (1812 = reached.authport ∨ 1812 = reached.acctport) ∧
        ((radiusDecaps acceptDigest reached (acceptDatagram 1 0x11) 0x7f000001 1812).1.queue 0).state ≠
          .empty := by decide +kernel
  obtain ⟨inside, full, packet, owner, signed, server, service, kept⟩ := ended
  have genuine : Genuine acceptDigest
      ((⟨radiusInitQ localClient 2, 0⟩ : Session).run ⟨10, 4, 2⟩ acceptDigest outage).1.radius
      (acceptDatagram 1 0x11) 0x7f000001 1812
      ⟨codeAccessAccept, 1, acceptDigest (acceptInput 1 0x11), []⟩
      ⟨codeAccessRequest, 1, nonce 0x11, [1, 3, 0x61]⟩ :=
    ⟨by rfl, .inl (by decide), ⟨rfl, signed⟩, server, service⟩
  exact kept (delivered ⟨inside, full, packet, owner⟩ genuine).taken

end Rut9xx.RadiusClient
