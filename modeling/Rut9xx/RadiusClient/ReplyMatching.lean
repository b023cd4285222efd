import Rut9xx.RadiusClient.Client
import Rut9xx.RadiusClient.QueueOrder

namespace Rut9xx.RadiusClient

open Data

/-! # Which request a reply finds -/

variable {Cbp : Type} {radius radius' : Radius Cbp} {queue : Nat → RadiusQueue Cbp} {options : Options}
  {md5 : Md5} {request : Request Cbp} {requests before after : List (Request Cbp)}
  {pack packReq : RadiusPacket} {cbp : Option Cbp} {idx size id count start : Nat}
  {datagram : List UInt8} {addr : UInt32} {port : UInt16} {now later : Timeval}

/-! ## The search -/

/-- A packet with the identifier is at the place that is met after so many steps from `start`. -/
def MetAfter (queue : Nat → RadiusQueue Cbp) (size id start steps : Nat) : Prop :=
  hasId (queue ((start + steps) % size)) id = true

theorem searchId_eq_some_iff :
    searchId queue size id count start = some idx ↔
      ∃ steps < count, idx = (start + steps) % size ∧ MetAfter queue size id start steps ∧
        ∀ earlier < steps, ¬ MetAfter queue size id start earlier := by
  induction count generalizing start with
  | zero =>
      constructor
      · intro impossible
        contradiction
      · rintro ⟨steps, below, -⟩
        exact absurd below (Nat.not_lt_zero steps)
  | succ count ih =>
      have shift (steps : Nat) : (start % size + 1 + steps) % size = (start + (steps + 1)) % size := by
        rw [Nat.add_assoc, Nat.mod_add_mod, Nat.add_comm 1 steps]
      have met (steps : Nat) :
          MetAfter queue size id (start % size + 1) steps ↔ MetAfter queue size id start (steps + 1) := by
        rw [MetAfter, MetAfter, shift]
      rw [searchId]
      by_cases here : hasId (queue (start % size)) id = true
      · rw [if_pos here]
        constructor
        · intro found
          cases found
          exact ⟨0, Nat.succ_pos _, rfl, here, fun earlier below => absurd below (Nat.not_lt_zero _)⟩
        · rintro ⟨steps, -, rfl, -, first⟩
          cases steps with
          | zero => rfl
          | succ steps => exact absurd here (first 0 (Nat.succ_pos _))
      · rw [if_neg here, ih]
        constructor
        · rintro ⟨steps, below, rfl, found, first⟩
          refine ⟨steps + 1, Nat.succ_lt_succ below, shift steps, (met steps).mp found, ?_⟩
          intro earlier sooner
          cases earlier with
          | zero => exact here
          | succ earlier => exact mt (met earlier).mpr (first earlier (Nat.lt_of_succ_lt_succ sooner))
        · rintro ⟨steps, below, rfl, found, first⟩
          cases steps with
          | zero => exact absurd found here
          | succ steps =>
              refine ⟨steps, Nat.lt_of_succ_lt_succ below, (shift steps).symm, (met steps).mpr found, ?_⟩
              intro earlier sooner
              exact mt (met earlier).mp (first (earlier + 1) (Nat.succ_lt_succ sooner))

/-- No packet with the identifier is met before the walk from `id` comes to the place. -/
def Unobscured (radius : Radius Cbp) (idx : Nat) (id : UInt8) : Prop :=
  ∀ steps, (∀ earlier ≤ steps, (id.toNat + earlier) % radius.size ≠ idx) →
    ¬ MetAfter radius.queue radius.size id.toNat id.toNat steps

theorem radiusQueueIdx_eq (radius : Radius Cbp) (id : UInt8) :
    radiusQueueIdx radius id.toNat =
      searchId radius.queue radius.size id.toNat radius.size id.toNat := by
  have below : ¬ radiusQueuesize ≤ id.toNat := Nat.not_le.mpr id.toNat_lt
  rw [radiusQueueIdx, if_neg below]

theorem radiusQueueIdx_hasId {id : UInt8} (found : radiusQueueIdx radius id.toNat = some idx) :
    hasId (radius.queue idx) id.toNat = true := by
  rw [radiusQueueIdx_eq, searchId_eq_some_iff] at found
  obtain ⟨steps, -, rfl, met, -⟩ := found
  exact met

theorem radiusQueueIdx_eq_some_iff {id : UInt8} (inside : idx < radius.size)
    (has : hasId (radius.queue idx) id.toNat = true) :
    radiusQueueIdx radius id.toNat = some idx ↔ Unobscured radius idx id := by
  rw [radiusQueueIdx_eq, searchId_eq_some_iff]
  constructor
  · rintro ⟨steps, -, rfl, -, first⟩ later passed
    apply first
    by_contra reached
    exact passed steps (Nat.not_lt.mp reached) rfl
  · intro unobscured
    -- the place is met within one round
    have positive : 0 < radius.size := Nat.zero_lt_of_lt inside
    have reached : ∃ steps < radius.size, (id.toNat + steps) % radius.size = idx := by
      have start := Nat.mod_lt id.toNat positive
      have whole := Nat.div_add_mod id.toNat radius.size
      by_cases ahead : id.toNat % radius.size ≤ idx
      · refine ⟨idx - id.toNat % radius.size, by omega, ?_⟩
        rw [← Nat.mod_add_mod, Nat.add_sub_cancel' ahead, Nat.mod_eq_of_lt inside]
      · refine ⟨idx + radius.size - id.toNat % radius.size, by omega, ?_⟩
        rw [← Nat.mod_add_mod, Nat.add_sub_cancel' (by omega), Nat.add_mod_right,
          Nat.mod_eq_of_lt inside]
    classical
    have here := Nat.find_spec reached
    refine ⟨Nat.find reached, here.1, here.2.symm, ?_, ?_⟩
    · rw [MetAfter, here.2]
      exact has
    · intro steps sooner
      apply unobscured
      intro earlier before same
      have smaller := Nat.find_min reached (Nat.lt_of_le_of_lt before sooner)
      exact smaller ⟨Nat.lt_trans (Nat.lt_of_le_of_lt before sooner) here.1, same⟩

/-! ## Confirmations -/

/-- The `cbp` of a confirmation. -/
def Output.confirmed : Output Cbp → Option Cbp
  | sent .. => none
  | authConf _ _ cbp => cbp
  | acctConf _ _ cbp => cbp
  | coaInd .. => none

/-- The confirmation of a request by a reply. -/
def Output.Confirms (output : Output Cbp) (pack packReq : RadiusPacket) (cbp : Option Cbp) : Prop :=
  output = authConf (some pack) packReq cbp ∨ output = acctConf (some pack) packReq cbp

theorem confirmTimeout_confirmed :
    (confirmTimeout radius packReq cbp).filterMap Output.confirmed = [] ∨
      (confirmTimeout radius packReq cbp).filterMap Output.confirmed = cbp.toList := by
  have one : ([cbp].filterMap id : List Cbp) = cbp.toList := by
    cases cbp with
    | none => rfl
    | some ticket => rfl
  rw [confirmTimeout]
  split
  · exact Or.inr one
  · split
    · exact Or.inr one
    · exact Or.inl rfl

theorem confirmReply_confirmed :
    (confirmReply radius pack packReq cbp).filterMap Output.confirmed = [] ∨
      (confirmReply radius pack packReq cbp).filterMap Output.confirmed = cbp.toList := by
  have one : ([cbp].filterMap id : List Cbp) = cbp.toList := by
    cases cbp with
    | none => rfl
    | some ticket => rfl
  rw [confirmReply]
  split
  · split
    · exact Or.inr one
    · exact Or.inl rfl
  · split
    · split
      · exact Or.inr one
      · exact Or.inl rfl
    · exact Or.inl rfl

/-- A datagram takes at most one request from the queue, the one that it answers. -/
theorem radiusDecaps_cases (represents : Represents radius requests) (md5 : Md5)
    (datagram : List UInt8) (addr : UInt32) (port : UInt16) :
    (∃ outputs, radiusDecaps md5 radius datagram addr port = (radius, outputs) ∧
        outputs.filterMap Output.confirmed = [] ∧
        ∀ output ∈ outputs, ∀ pack packReq cbp, ¬ output.Confirms pack packReq cbp) ∨
      ∃ pack, readPacket datagram = some pack ∧ ∃ request ∈ requests,
        radiusQueueIdx radius pack.id.toNat = some request.idx ∧
        radiusAuthcheck md5 radius.secret pack request.pack = false ∧
        radiusDecaps md5 radius datagram addr port =
          ({ dequeue radius request.idx with lastreply := addr ≠ radius.hisaddr0 },
            confirmReply radius pack request.pack request.cbp) := by
  have quiet : ∃ outputs, (radius, ([] : List (Output Cbp))) = (radius, outputs) ∧
      outputs.filterMap Output.confirmed = [] ∧
      ∀ output ∈ outputs, ∀ pack packReq cbp, ¬ output.Confirms pack packReq cbp := by
    refine ⟨[], rfl, rfl, ?_⟩
    intro output impossible
    contradiction
  rw [radiusDecaps]
  cases read : readPacket datagram with
  | none => exact Or.inl quiet
  | some pack =>
      simp only
      split
      · apply Or.inl
        split
        · exact quiet
        · split
          · exact quiet
          · cases radius.cbCoaInd with
            | false => exact quiet
            | true =>
                refine ⟨[.coaInd pack addr port], rfl, rfl, ?_⟩
                intro output member pack' packReq cbp confirms
                rw [List.mem_singleton.mp member] at confirms
                rcases confirms with impossible | impossible
                · contradiction
                · contradiction
      · split
        · exact Or.inl quiet
        · split
          · exact Or.inl quiet
          · cases out : radiusQueueOut md5 radius none (some pack) with
            | none => exact Or.inl quiet
            | some result =>
                obtain ⟨next, packOut, cbp⟩ := result
                obtain ⟨request, member, found, genuine, rfl, rfl, rfl⟩ := radiusQueueOut_cases represents out
                apply Or.inr
                refine ⟨pack, rfl, request, member, found, genuine pack rfl, ?_⟩
                simp only [Option.toList_some, List.flatMap_cons, List.flatMap_nil, List.append_nil]
                rfl

/-! ## One callback for a request -/

theorem assignId_represents (represents : Represents radius requests) :
    Represents (assignId radius).1 requests := by
  rw [assignId]
  split
  · exact radiusQueueNext_represents represents
  · split
    · exact ⟨represents.linked, represents.holds, represents.unused, represents.below,
        represents.position⟩
    · exact ⟨represents.linked, represents.holds, represents.unused, represents.below,
        represents.position⟩

theorem radiusDefaultPack_represents (represents : Represents radius requests) (code : UInt8)
    (random : Option Authenticator) :
    Represents (radiusDefaultPack radius code random).1 requests := assignId_represents represents

theorem count_cbp [DecidableEq Cbp] (before after : List (Request Cbp)) (request : Request Cbp)
    (ticket : Cbp) :
    ((before ++ request :: after).filterMap Request.cbp).count ticket =
      ((before ++ after).filterMap Request.cbp).count ticket + request.cbp.toList.count ticket := by
  rw [List.filterMap_append, List.filterMap_append, List.count_append, List.count_append,
    ← List.singleton_append, List.filterMap_append, List.count_append]
  have one : [request].filterMap Request.cbp = request.cbp.toList := by
    cases found : request.cbp with
    | none =>
        rw [List.filterMap_cons_none found]
        rfl
    | some cbp =>
        rw [List.filterMap_cons_some found]
        rfl
  rw [one]
  omega

/-- No request number is called back and still in the queue, or twice one of them. -/
structure Accounted (radius : Radius Nat) (issued : Nat) (called : List Nat)
    (requests : List (Request Nat)) : Prop where
  represents : Represents radius requests
  once : ∀ ticket, called.count ticket + (requests.filterMap Request.cbp).count ticket ≤
    if ticket < issued then 1 else 0

variable {client next : Radius Nat} {issued : Nat} {called confirmed : List Nat}
  {waiting front back : List (Request Nat)} {taken new : Request Nat}

/-- A request leaves the queue, called back or not. -/
theorem Accounted.take (accounted : Accounted client issued called waiting)
    (placed : waiting = front ++ taken :: back) (represents : Represents next (front ++ back))
    (confirms : confirmed = [] ∨ confirmed = taken.cbp.toList) :
    Accounted next issued (called ++ confirmed) (front ++ back) where
  represents := represents
  once := by
    intro ticket
    have before := accounted.once ticket
    rw [placed, count_cbp] at before
    rw [List.count_append]
    rcases confirms with rfl | rfl
    · rw [List.count_nil]
      omega
    · omega

theorem Accounted.issue (accounted : Accounted client issued called waiting)
    (represents : Represents next waiting) : Accounted next (issued + 1) called waiting where
  represents := represents
  once := by
    intro ticket
    have before := accounted.once ticket
    by_cases old : ticket < issued
    · rw [if_pos old] at before
      rw [if_pos (by omega)]
      exact before
    · rw [if_neg old] at before
      exact before.trans (Nat.zero_le _)

theorem Accounted.give (accounted : Accounted client issued called waiting)
    (represents : Represents next (waiting ++ [new])) (numbered : new.cbp = some issued) :
    Accounted next (issued + 1) called (waiting ++ [new]) where
  represents := represents
  once := by
    intro ticket
    have before := accounted.once ticket
    rw [count_cbp, List.append_nil, numbered, Option.toList_some, List.count_singleton]
    by_cases itself : issued = ticket
    · rw [if_pos (beq_iff_eq.mpr itself), if_pos (by omega)]
      rw [if_neg (by omega)] at before
      omega
    · rw [if_neg (mt beq_iff_eq.mp itself)]
      exact (accounted.issue accounted.represents).once ticket

/-! ## Runs -/

variable {session : Session}

theorem radiusReq_sent {options : Options} {allocated : Bool} {output : Output Cbp}
    (member : output ∈ (radiusReq options md5 radius pack cbp now allocated).2) :
    ∃ pack addr port, output = .sent pack addr port := by
  rw [radiusReq] at member
  split at member
  · contradiction
  · exact ⟨_, _, _, List.mem_singleton.mp member⟩

theorem radiusReq_confirmed (options : Options) (md5 : Md5) (radius : Radius Cbp) (pack : RadiusPacket)
    (cbp : Option Cbp) (now : Timeval) (allocated : Bool) :
    (radiusReq options md5 radius pack cbp now allocated).2.filterMap Output.confirmed = [] := by
  rw [List.filterMap_eq_nil_iff]
  intro output member
  obtain ⟨sent, addr, port, rfl⟩ := radiusReq_sent member
  rfl

theorem radiusReq_accounted (accounted : Accounted client issued called waiting) (options : Options)
    (md5 : Md5) (pack : RadiusPacket) (now : Timeval) (allocated : Bool) :
    ∃ waiting', Accounted (radiusReq options md5 client pack (some issued) now allocated).1 (issued + 1)
      called waiting' := by
  have queued := radiusQueueIn_cases accounted.represents options md5 pack (some issued) now allocated
  rw [radiusReq]
  generalize radiusQueueIn options md5 client pack (some issued) now allocated = result at queued
  obtain ⟨next, stored⟩ := result
  rcases queued with ⟨refused, represents⟩ | ⟨idx, -, accepted, represents⟩
  · simp only at refused represents
    subst refused
    exact ⟨waiting, accounted.issue represents⟩
  · simp only at accepted represents
    subst accepted
    exact ⟨_, accounted.give represents rfl⟩

theorem step_accounted (accounted : Accounted session.radius session.requests called waiting)
    (options : Options) (md5 : Md5) (event : Event) :
    ∃ waiting', Accounted (session.step options md5 event).1.radius
      (session.step options md5 event).1.requests
      (called ++ (session.step options md5 event).2.filterMap Output.confirmed) waiting' := by
  cases event with
  | defaultPack code random =>
      rw [Session.step]
      refine ⟨waiting, ?_⟩
      rw [List.filterMap_nil, List.append_nil]
      exact ⟨radiusDefaultPack_represents accounted.represents code random, accounted.once⟩
  | request code random attributes now allocated =>
      have packed := radiusDefaultPack_represents accounted.represents code random
      rw [Session.step]
      generalize radiusDefaultPack session.radius code random = result at packed
      obtain ⟨next, pack⟩ := result
      cases pack with
      | none =>
          refine ⟨waiting, ?_⟩
          rw [List.filterMap_nil, List.append_nil]
          exact ⟨packed, accounted.once⟩
      | some pack =>
          have ready : Accounted next session.requests called waiting := ⟨packed, accounted.once⟩
          obtain ⟨waiting', queued⟩ := radiusReq_accounted ready options md5
            { pack with payload := attributes } now allocated
          refine ⟨waiting', ?_⟩
          simp only
          rw [radiusReq_confirmed, List.append_nil]
          exact queued
  | reply datagram addr port =>
      rw [Session.step]
      rcases radiusDecaps_cases accounted.represents md5 datagram addr port with ⟨outputs, same, quiet, -⟩ | answered
      · refine ⟨waiting, ?_⟩
        simp only [same, quiet, List.append_nil]
        exact ⟨accounted.represents, accounted.once⟩
      · obtain ⟨pack, -, request, member, -, -, done⟩ := answered
        obtain ⟨front, back, placed⟩ := List.append_of_mem member
        have left := accounted.represents.dequeue placed
        refine ⟨front ++ back, ?_⟩
        simp only [done]
        exact accounted.take placed
          ⟨left.linked, left.holds, left.unused, left.below, left.position⟩ confirmReply_confirmed
  | timeout now later =>
      rw [Session.step]
      rcases radiusTimeout_cases accounted.represents options md5 now later with early | due
      · refine ⟨waiting, ?_⟩
        simp only [early, List.filterMap_nil, List.append_nil]
        exact ⟨accounted.represents, accounted.once⟩
      · obtain ⟨head, rest, rfl, -, ⟨-, next, done, -, queued⟩ | ⟨-, done⟩⟩ := due
        · refine ⟨rest ++ [retried options later head], ?_⟩
          simp only [done]
          constructor
          · exact queued
          · intro ticket
            have before := accounted.once ticket
            have same : (rest ++ [retried options later head]).filterMap Request.cbp =
                (rest ++ [head]).filterMap Request.cbp := by
              rw [List.filterMap_append, List.filterMap_append]
              rfl
            have moved := count_cbp [] rest head ticket
            have last := count_cbp rest [] head ticket
            rw [List.nil_append] at moved
            rw [List.append_nil] at last
            rw [same, last]
            rw [moved] at before
            simp only [List.filterMap_cons, Output.confirmed, List.filterMap_nil, List.append_nil]
            exact before
        · have placed : head :: rest = [] ++ head :: rest := rfl
          refine ⟨rest, ?_⟩
          simp only [done]
          exact accounted.take placed (accounted.represents.dequeue placed) confirmTimeout_confirmed

theorem run_accounted (options : Options) (md5 : Md5) (events : List Event)
    (accounted : Accounted session.radius session.requests called waiting) :
    ∃ waiting', Accounted (session.run options md5 events).1.radius
      (session.run options md5 events).1.requests
      (called ++ (session.run options md5 events).2.filterMap Output.confirmed) waiting' := by
  induction events generalizing session called waiting with
  | nil =>
      refine ⟨waiting, ?_⟩
      rw [Session.run, List.filterMap_nil, List.append_nil]
      exact accounted
  | cons event rest ih =>
      obtain ⟨waiting', stepped⟩ := step_accounted accounted options md5 event
      obtain ⟨waiting'', finished⟩ := ih stepped
      refine ⟨waiting'', ?_⟩
      rw [Session.run, List.filterMap_append, ← List.append_assoc]
      exact finished

end Rut9xx.RadiusClient
