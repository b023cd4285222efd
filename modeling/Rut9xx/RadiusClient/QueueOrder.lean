import Rut9xx.RadiusClient.Operations

namespace Rut9xx.RadiusClient

open Data

/-! # The order of the retransmit queue -/

variable {Cbp : Type} {radius radius' : Radius Cbp} {options : Options} {md5 : Md5}
  {now later tv1 tv2 : Timeval} {future : List Timeval} {request : Request Cbp}
  {requests : List (Request Cbp)}

/-! ## Time -/

theorem micros_addSec (seconds : Int) :
    (now.addSec seconds).micros = now.micros + seconds * 1000000 := by
  rw [Timeval.micros, Timeval.micros, Timeval.addSec]
  simp only
  omega

/-- The comparison is that of the times in microseconds, even where these run over. -/
theorem radiusCmptv_nonpos_iff : radiusCmptv tv1 tv2 ≤ 0 ↔ tv1.micros ≤ tv2.micros := by
  have split := Int.mul_tdiv_add_tmod (tv1.tvUsec - tv2.tvUsec) 1000000
  have below := Int.tmod_lt_of_pos (tv1.tvUsec - tv2.tvUsec) (show (0 : Int) < 1000000 by decide)
  have above := Int.lt_tmod_of_pos (tv1.tvUsec - tv2.tvUsec) (show (0 : Int) < 1000000 by decide)
  rw [radiusCmptv, Timeval.micros, Timeval.micros]
  generalize (tv1.tvUsec - tv2.tvUsec).tdiv 1000000 = sec at split
  generalize (tv1.tvUsec - tv2.tvUsec).tmod 1000000 = usec at split below above
  simp only
  split_ifs <;> simp only at * <;> omega

def NonDecreasing (times : List Timeval) : Prop := times.Pairwise fun tv1 tv2 => tv1.micros ≤ tv2.micros

/-! ## Order -/

/-- The order of the requests, where the clock is still to be read at the `future` times. -/
structure Ordered (options : Options) (future : List Timeval) (requests : List (Request Cbp)) : Prop where
  sorted : requests.Pairwise fun request other => request.timeout.micros ≤ other.timeout.micros
  recent : ∀ request ∈ requests, ∀ now ∈ future,
    request.timeout.micros ≤ (now.addSec options.radiustimeout).micros

theorem Ordered.wait (passed : List Timeval) (ordered : Ordered options (passed ++ future) requests) :
       Ordered options future requests where
  sorted := ordered.sorted
  recent := by
    intro request member now coming
    exact ordered.recent request member now (List.mem_append_right _ coming)

theorem Ordered.sublist {rest : List (Request Cbp)} (ordered : Ordered options future requests)
    (sublist : rest.Sublist requests) : Ordered options future rest where
  sorted := ordered.sorted.sublist sublist
  recent := by
    intro request member
    exact ordered.recent request (sublist.subset member)

theorem Ordered.push (ordered : Ordered options (now :: future) requests)
    (clock : NonDecreasing (now :: future))
    (timeout : request.timeout = now.addSec options.radiustimeout) :
    Ordered options future (requests ++ [request]) where
  sorted := by
    rw [List.pairwise_append]
    refine ⟨ordered.sorted, List.pairwise_singleton .., ?_⟩
    intro other member last same
    rw [List.mem_singleton.mp same, timeout]
    exact ordered.recent other member now List.mem_cons_self
  recent := by
    intro other member later coming
    rcases List.mem_append.mp member with member | same
    · exact ordered.recent other member later (List.mem_cons_of_mem _ coming)
    · have passing := List.rel_of_pairwise_cons clock coming
      rw [List.mem_singleton.mp same, timeout, micros_addSec, micros_addSec]
      omega

/-! ## What the links say -/

/-- The list from the head on, as a walk along the links finds it. -/
structure Threaded (radius : Radius Cbp) (nodes : List Nat) : Prop where
  walk : IsChain (nextOf radius.queue) radius.first nodes
  once : nodes.Nodup
  queued : ∀ idx, idx ∈ nodes ↔ idx < radius.size ∧ (radius.queue idx).state = .full
  inverse : ∀ idx ∈ nodes, ∀ other ∈ nodes,
    (radius.queue idx).next = some other ↔ (radius.queue other).prev = some idx
  tail : radius.last = nodes.getLast?
  unlinked : ∀ idx, (radius.queue idx).state ≠ .full →
    radius.first ≠ some idx ∧ radius.last ≠ some idx ∧
      ∀ node ∈ nodes, (radius.queue node).next ≠ some idx ∧ (radius.queue node).prev ≠ some idx
  sorted : nodes.Pairwise fun idx other =>
    radiusCmptv (radius.queue idx).timeout (radius.queue other).timeout ≤ 0
  earliest : ∀ first, radius.first = some first → ∀ idx, (radius.queue idx).state = .full →
    radiusCmptv (radius.queue first).timeout (radius.queue idx).timeout ≤ 0

theorem Represents.threaded (represents : Represents radius requests)
    (ordered : Ordered options future requests) :
    Threaded radius (requests.map Request.idx) := by
  have full : ∀ idx, idx ∈ requests.map Request.idx ↔ (radius.queue idx).state = .full := by
    intro idx
    rw [represents.full_iff, List.mem_map]
  have timeout : ∀ request ∈ requests, (radius.queue request.idx).timeout = request.timeout := by
    intro request member
    exact congrArg RadiusQueue.timeout (represents.holds request member)
  have sorted : (requests.map Request.idx).Pairwise fun idx other =>
      radiusCmptv (radius.queue idx).timeout (radius.queue other).timeout ≤ 0 := by
    rw [List.pairwise_map]
    apply ordered.sorted.imp_of_mem
    intro request other member member' before
    rw [timeout request member, timeout other member']
    exact radiusCmptv_nonpos_iff.mpr before
  constructor
  · exact represents.linked.forward
  · exact represents.nodup
  · intro idx
    rw [← full]
    constructor
    · intro member
      obtain ⟨request, present, rfl⟩ := List.mem_map.mp member
      exact ⟨represents.below request present, member⟩
    · exact And.right
  · intro idx member other member'
    exact represents.linked.next_iff_prev member member'
  · exact represents.linked.last_eq
  · intro idx unused
    have absent := mt (full idx).mp unused
    refine ⟨?_, ?_, ?_⟩
    · intro first
      exact absent (List.mem_of_head? (represents.linked.forward.start_eq.symm.trans first))
    · intro last
      exact absent (List.mem_of_getLast? (represents.linked.last_eq.symm.trans last))
    · intro node member
      constructor
      · intro next
        exact absent (represents.linked.neighbour_mem member (Or.inr next))
      · intro prev
        exact absent (represents.linked.neighbour_mem member (Or.inl prev))
  · exact sorted
  · intro first found idx queued
    have member := (full idx).mpr queued
    have start := represents.linked.forward.start_eq.symm.trans found
    obtain ⟨rest, nodes⟩ := List.head?_eq_some_iff.mp start
    rw [nodes] at member sorted
    rcases List.mem_cons.mp member with same | later
    · rw [same]
      exact radiusCmptv_nonpos_iff.mpr (Int.le_refl _)
    · exact List.rel_of_pairwise_cons sorted later

/-! ## Runs -/

inductive Operation (Cbp : Type) where
  | queueNext
  | queueIn (pack : RadiusPacket) (cbp : Option Cbp) (now : Timeval) (allocated : Bool)
  | queueOut (idx : Option Nat) (packIn : Option RadiusPacket)
  | reschedule (idx : Nat) (now : Timeval)
  | timeout (now later : Timeval)

/-- The readings of the clock. -/
def Operation.times : Operation Cbp → List Timeval
  | queueNext => []
  | queueIn _ _ now _ => [now]
  | queueOut _ _ => []
  | reschedule _ now => [now]
  | timeout now later => [now, later]

def Operation.perform (options : Options) (md5 : Md5) (radius : Radius Cbp) :
    Operation Cbp → Radius Cbp
  | queueNext => (radiusQueueNext radius).1
  | queueIn pack cbp now allocated => (radiusQueueIn options md5 radius pack cbp now allocated).1
  | queueOut idx packIn => ((radiusQueueOut md5 radius idx packIn).map Prod.fst).getD radius
  | reschedule idx now => (radiusQueueReschedule options radius idx now).getD radius
  | timeout now later => (radiusTimeout options md5 radius now later).1

def performAll (options : Options) (md5 : Md5) (radius : Radius Cbp)
    (operations : List (Operation Cbp)) : Radius Cbp :=
  operations.foldl (Operation.perform options md5) radius

theorem perform_ordered (md5 : Md5) (operation : Operation Cbp) (represents : Represents radius requests)
    (ordered : Ordered options (operation.times ++ future) requests)
    (clock : NonDecreasing (operation.times ++ future)) :
    ∃ requests', Represents (operation.perform options md5 radius) requests' ∧
      Ordered options future requests' := by
  cases operation with
  | queueNext => exact ⟨requests, radiusQueueNext_represents represents, ordered⟩
  | queueIn pack cbp now allocated =>
      rcases radiusQueueIn_cases represents options md5 pack cbp now allocated with refused | accepted
      · exact ⟨requests, refused.2, ordered.wait [now]⟩
      · obtain ⟨idx, -, -, queued⟩ := accepted
        exact ⟨_, queued, ordered.push clock rfl⟩
  | queueOut idx packIn =>
      rw [Operation.perform]
      cases out : radiusQueueOut md5 radius idx packIn with
      | none => exact ⟨requests, represents, ordered⟩
      | some result =>
          obtain ⟨next, packOut, cbp⟩ := result
          obtain ⟨request, member, -, -, rfl, -, -⟩ := radiusQueueOut_cases represents out
          obtain ⟨before, after, placed⟩ := List.append_of_mem member
          refine ⟨before ++ after, represents.dequeue placed, ordered.sublist ?_⟩
          rw [placed]
          exact (List.sublist_cons_self ..).append_left before
  | reschedule idx now =>
      rw [Operation.perform]
      by_cases full : (radius.queue idx).state = .full
      · obtain ⟨request, member, rfl⟩ := represents.full_iff.mp full
        obtain ⟨before, after, placed⟩ := List.append_of_mem member
        obtain ⟨next, done, -, queued⟩ :=
          radiusQueueReschedule_represents represents placed options now
        rw [done]
        refine ⟨_, queued, Ordered.push (ordered.sublist ?_) clock rfl⟩
        rw [placed]
        exact (List.sublist_cons_self ..).append_left before
      · rw [radiusQueueReschedule, if_neg full]
        exact ⟨requests, represents, ordered.wait [now]⟩
  | timeout now later =>
      rw [Operation.perform]
      rcases radiusTimeout_cases represents options md5 now later with early | due
      · rw [early]
        exact ⟨requests, represents, ordered.wait [now, later]⟩
      · obtain ⟨head, rest, rfl, -, ⟨-, next, done, -, queued⟩ | ⟨-, done⟩⟩ := due
        · rw [done]
          have left := (ordered.wait [now]).sublist (List.sublist_cons_self ..)
          exact ⟨_, queued, left.push (List.Pairwise.of_cons clock) rfl⟩
        · rw [done]
          have placed : head :: rest = [] ++ head :: rest := rfl
          exact ⟨rest, represents.dequeue placed,
            (ordered.wait [now, later]).sublist (List.sublist_cons_self ..)⟩

theorem performAll_ordered (operations : List (Operation Cbp)) (represents : Represents radius requests)
    (ordered : Ordered options (operations.flatMap Operation.times) requests)
    (clock : NonDecreasing (operations.flatMap Operation.times)) :
    ∃ requests', Represents (performAll options md5 radius operations) requests' ∧
      Ordered options [] requests' := by
  induction operations generalizing radius requests with
  | nil => exact ⟨requests, represents, ordered⟩
  | cons operation rest ih =>
      rw [List.flatMap_cons] at ordered clock
      obtain ⟨requests', represents', ordered'⟩ := perform_ordered md5 operation represents ordered clock
      exact ih represents' ordered' (List.pairwise_append.mp clock).2.1

/-- The queue is threaded in the order of expiry after every run of its operations, as long as the
clock does not go back. -/
theorem radiusQueue_threaded (options : Options) (md5 : Md5) (radius : Radius Cbp) (size : Int)
    (operations : List (Operation Cbp))
    (clock : NonDecreasing (operations.flatMap Operation.times)) :
    ∃ nodes, Threaded (performAll options md5 (radiusInitQ radius size) operations) nodes := by
  have start : Ordered options (operations.flatMap Operation.times) ([] : List (Request Cbp)) := by
    constructor
    · exact List.Pairwise.nil
    · intro request impossible
      contradiction
  obtain ⟨requests, represents, ordered⟩ :=
    performAll_ordered operations (radiusInitQ_represents radius size) start clock
  exact ⟨_, represents.threaded ordered⟩

/-- A client as `radius_new` and `radius_set` leave it, with the secret `radsec`. -/
def localClient : Radius Nat where
  coanocheck := false
  lastreply := false
  authport := 1812
  acctport := 1813
  hisaddr0 := 0x7f000001
  hisaddr1 := 0x7f000001
  secret := [0x72, 0x61, 0x64, 0x73, 0x65, 0x63]
  nextid := 0
  queue := fun _ => clearedSlot
  qsize := 0
  qnext := 0
  first := none
  last := none
  cbAuthConf := true
  cbAcctConf := true
  cbCoaInd := false

/-- Two requests in a queue of two, of which the first is sent again and the second gets its place in
front. -/
theorem radiusQueue_threaded_two :
    ∃ nodes, Threaded (performAll ⟨10, 4, 2⟩ (fun _ => noAuthenticator) (radiusInitQ localClient 2)
      [.queueIn ⟨codeAccessRequest, 1, noAuthenticator, []⟩ (some 0) ⟨100, 0⟩ true,
        .queueIn ⟨codeAccessRequest, 2, noAuthenticator, []⟩ (some 1) ⟨101, 0⟩ true,
        .timeout ⟨110, 0⟩ ⟨110, 250⟩]) nodes := by
  apply radiusQueue_threaded
  exact (show List.Pairwise (fun tv1 tv2 : Timeval => tv1.micros ≤ tv2.micros)
    [⟨100, 0⟩, ⟨101, 0⟩, ⟨110, 0⟩, ⟨110, 250⟩] by decide)

end Rut9xx.RadiusClient
