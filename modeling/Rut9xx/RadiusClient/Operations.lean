import Rut9xx.RadiusClient.Represents

namespace Rut9xx.RadiusClient

open Data

/-! # What the queue operations do to the list of requests -/

variable {Cbp : Type} {radius radius' : Radius Cbp} {idx : Nat} {options : Options} {md5 : Md5}
  {now later : Timeval} {request : Request Cbp} {requests before after : List (Request Cbp)}
  {pack : RadiusPacket} {cbp : Option Cbp} {packIn packOut : Option RadiusPacket} {allocated : Bool}
  {place : Option Nat}

/-- All that the queue operations leave alone. -/
def settings (radius : Radius Cbp) : Radius Cbp :=
  { radius with queue := fun _ => clearedSlot, qnext := 0, first := none, last := none }

@[simp] theorem settings_change (radius : Radius Cbp) (idx : Nat)
    (f : RadiusQueue Cbp → RadiusQueue Cbp) : settings (radius.change idx f) = settings radius := rfl

@[simp] theorem settings_unlink (radius : Radius Cbp) (idx : Nat) :
    settings (unlink radius idx) = settings radius := rfl

@[simp] theorem settings_linkLast (radius : Radius Cbp) (idx : Nat) :
    settings (linkLast radius idx) = settings radius := rfl

theorem radiusInitQ_represents (radius : Radius Cbp) (size : Int) :
    Represents (radiusInitQ radius size) [] where
  linked := ⟨rfl, rfl⟩
  holds := by
    intro request impossible
    contradiction
  unused := fun _ _ => ⟨rfl, rfl⟩
  below := by
    intro request impossible
    contradiction
  position := size_pos _

/-! ## Queueing a request -/

def newRequest (options : Options) (md5 : Md5) (radius : Radius Cbp) (pack : RadiusPacket)
    (cbp : Option Cbp) (now : Timeval) (idx : Nat) : Request Cbp where
  idx := idx
  pack := signRequest md5 radius.secret pack
  cbp := cbp
  timeout := now.addSec options.radiustimeout
  retrans := 0
  lastsent := radius.lastreply

/-- Either the list stays as it is, or it gets the request at its end. -/
theorem radiusQueueIn_cases (represents : Represents radius requests) (options : Options) (md5 : Md5)
    (pack : RadiusPacket) (cbp : Option Cbp) (now : Timeval) (allocated : Bool) :
    let result := radiusQueueIn options md5 radius pack cbp now allocated
    result.2 = none ∧ Represents result.1 requests ∨
      ∃ idx, idx ∉ requests.map Request.idx ∧ result.2 = some (signRequest md5 radius.secret pack) ∧
        Represents result.1 (requests ++ [newRequest options md5 radius pack cbp now idx]) := by
  obtain ⟨qnext, below, moved, unused⟩ := radiusQueueNext_cases represents
  have represents' := represents.move below
  rw [radiusQueueIn]
  cases found : (radiusQueueNext radius).2 with
  | none =>
      have next : radiusQueueNext radius = ({ radius with qnext := qnext }, none) :=
        Prod.ext moved found
      rw [next]
      exact Or.inl ⟨rfl, represents'⟩
  | some idx =>
      have next : radiusQueueNext radius = ({ radius with qnext := qnext }, some idx) :=
        Prod.ext moved found
      obtain ⟨here, free⟩ := unused idx found
      have apart : idx ∉ requests.map Request.idx := by
        intro member
        exact free (represents.full_iff.mpr (List.mem_map.mp member))
      rw [next]
      cases allocated with
      | false =>
          apply Or.inl
          refine ⟨rfl, ?_⟩
          have noPacket := (represents.unused idx apart).2
          have same (other : Nat) :
              (({ radius with qnext := qnext } : Radius Cbp).change idx fun slot =>
                { slot with p := none }).queue other = radius.queue other := by
            by_cases itself : other = idx
            · rw [itself, change_self]
              simp only [← noPacket]
            · exact change_of_ne itself
          constructor
          · exact change_linked represents'.linked (fun _ => rfl) fun _ => rfl
          · intro request member
            exact (congrArg bare (same request.idx)).trans (represents.holds request member)
          · intro other absent
            obtain ⟨empty, none⟩ := represents.unused other absent
            exact ⟨(congrArg RadiusQueue.state (same other)).trans empty,
              (congrArg RadiusQueue.p (same other)).trans none⟩
          · exact represents.below
          · exact below
      | true =>
          apply Or.inr
          refine ⟨idx, apart, rfl, ?_⟩
          apply represents.push
          · exact linkLast_linked (change_linked represents'.linked (fun _ => rfl) fun _ => rfl) apart
          · exact (bare_linkLast _ _ _).trans (congrArg bare change_self)
          · intro other differs
            exact (bare_linkLast _ _ _).trans (congrArg bare (change_of_ne differs))
          · rw [newRequest, here]
            exact below
          · rfl
          · exact advance_lt radius _
          · exact apart

/-! ## Taking a request out -/

theorem radiusQueueOut_of_mem (represents : Represents radius requests) (member : request ∈ requests)
    (found : place.or (packIn.bind fun pack => radiusQueueIdx radius pack.id.toNat) =
      some request.idx) :
    radiusQueueOut md5 radius place packIn =
      if packIn.any fun pack => radiusAuthcheck md5 radius.secret pack request.pack then none
      else some (dequeue radius request.idx, some request.pack, request.cbp) := by
  have state : (radius.queue request.idx).state = .full :=
    congrArg RadiusQueue.state (represents.holds request member)
  have cbp : (radius.queue request.idx).cbp = request.cbp :=
    congrArg RadiusQueue.cbp (represents.holds request member)
  rw [radiusQueueOut, found]
  simp only [Option.bind_eq_bind, Option.bind_some, state, represents.packet member, Option.any_some,
    cbp, require]
  cases packIn.any fun pack => radiusAuthcheck md5 radius.secret pack request.pack with
  | false => rfl
  | true => rfl

theorem radiusQueueOut_cases (represents : Represents radius requests)
    (out : radiusQueueOut md5 radius place packIn = some (radius', packOut, cbp)) :
    ∃ request ∈ requests,
      place.or (packIn.bind fun pack => radiusQueueIdx radius pack.id.toNat) = some request.idx ∧
      (∀ pack ∈ packIn, radiusAuthcheck md5 radius.secret pack request.pack = false) ∧
      radius' = dequeue radius request.idx ∧ packOut = some request.pack ∧ cbp = request.cbp := by
  have whole := out
  rw [radiusQueueOut] at out
  obtain ⟨idx, found, out⟩ := Option.bind_eq_some_iff.mp out
  obtain ⟨_, full, -⟩ := Option.bind_eq_some_iff.mp out
  rw [require_eq_some, decide_eq_true_iff] at full
  obtain ⟨request, member, rfl⟩ := represents.full_iff.mp full
  rw [radiusQueueOut_of_mem represents member found] at whole
  split at whole
  · contradiction
  · rename_i genuine
    cases whole
    refine ⟨request, member, found, ?_, rfl, rfl, rfl⟩
    intro pack given
    rw [Option.mem_def] at given
    rw [given] at genuine
    exact Bool.not_eq_true _ ▸ genuine

/-! ## Queueing a request again -/

def requeued (options : Options) (later : Timeval) (request : Request Cbp) : Request Cbp :=
  { request with
    retrans := request.retrans + 1
    timeout := later.addSec options.radiustimeout }

theorem radiusQueueReschedule_represents (represents : Represents radius requests)
    (placed : requests = before ++ request :: after) (options : Options) (later : Timeval) :
    ∃ radius', radiusQueueReschedule options radius request.idx later = some radius' ∧
      settings radius' = settings radius ∧
      Represents radius' (before ++ after ++ [requeued options later request]) := by
  have member : request ∈ requests := by
    rw [placed]
    exact List.mem_append_right _ List.mem_cons_self
  have full : (radius.queue request.idx).state = .full :=
    congrArg RadiusQueue.state (represents.holds request member)
  rw [radiusQueueReschedule, if_pos full]
  refine ⟨_, rfl, by simp only [settings_linkLast, settings_unlink, settings_change], ?_⟩
  have nodes : requests.map Request.idx =
      before.map Request.idx ++ request.idx :: after.map Request.idx := by
    rw [placed, List.map_append, List.map_cons]
  have distinct := represents.nodup
  rw [nodes, List.nodup_middle, ← List.map_append] at distinct
  have apart := (List.nodup_cons.mp distinct).1
  -- the rest of the list is what is left when the request is taken out
  have rest := represents.dequeue placed
  apply rest.push
  · apply linkLast_linked
    · rw [List.map_append]
      exact unlink_linked (change_linked represents.linked (fun _ => rfl) fun _ => rfl) nodes
    · exact apart
  · rw [requeued, bare_linkLast, bare_unlink, change_self]
    have holds := represents.holds request member
    have retrans : (radius.queue request.idx).retrans = request.retrans :=
      congrArg RadiusQueue.retrans holds
    have cbp : (radius.queue request.idx).cbp = request.cbp := congrArg RadiusQueue.cbp holds
    have lastsent : (radius.queue request.idx).lastsent = request.lastsent :=
      congrArg RadiusQueue.lastsent holds
    rw [bare, Request.slot]
    simp only [full, cbp, retrans, lastsent, represents.packet member]
  · intro other differs
    rw [bare_linkLast, bare_unlink]
    exact (congrArg bare (change_of_ne differs)).trans (bare_dequeue_of_ne differs).symm
  · exact represents.below request member
  · rfl
  · exact represents.position
  · exact apart

/-! ## Timeouts -/

theorem Represents.replace {changed : Request Cbp} {f : RadiusQueue Cbp → RadiusQueue Cbp}
    (represents : Represents radius requests) (placed : requests = before ++ request :: after)
    (next : ∀ slot, (f slot).next = slot.next) (prev : ∀ slot, (f slot).prev = slot.prev)
    (same : changed.idx = request.idx)
    (holds : bare (f (radius.queue request.idx)) = changed.slot) :
    Represents (radius.change request.idx f) (before ++ changed :: after) := by
  have nodes : (before ++ changed :: after).map Request.idx = requests.map Request.idx := by
    rw [placed, List.map_append, List.map_append, List.map_cons, List.map_cons, same]
  have distinct := represents.nodup
  rw [placed, List.map_append, List.map_cons, List.nodup_middle, ← List.map_append] at distinct
  have apart := (List.nodup_cons.mp distinct).1
  have cases' : ∀ other ∈ before ++ changed :: after,
      other = changed ∨ other ∈ requests ∧ other.idx ≠ request.idx := by
    intro other member
    rw [List.mem_append, List.mem_cons] at member
    have rest (present : other ∈ before ++ after) : other ∈ requests ∧ other.idx ≠ request.idx := by
      constructor
      · rw [placed, List.mem_append, List.mem_cons]
        rcases List.mem_append.mp present with front | back
        · exact Or.inl front
        · exact Or.inr (Or.inr back)
      · intro itself
        exact apart (itself ▸ List.mem_map_of_mem present)
    rcases member with front | itself | back
    · exact Or.inr (rest (List.mem_append_left _ front))
    · exact Or.inl itself
    · exact Or.inr (rest (List.mem_append_right _ back))
  constructor
  · rw [nodes]
    exact change_linked represents.linked next prev
  · intro other member
    rcases cases' other member with itself | present
    · rw [itself, same, change_self]
      exact holds
    · rw [change_of_ne present.2]
      exact represents.holds other present.1
  · intro idx absent
    rw [nodes] at absent
    rw [change_of_ne]
    · exact represents.unused idx absent
    · rintro rfl
      apply absent
      rw [placed, List.map_append, List.map_cons]
      exact List.mem_append_right _ List.mem_cons_self
  · intro other member
    rcases cases' other member with itself | present
    · rw [itself, same]
      apply represents.below
      rw [placed]
      exact List.mem_append_right _ List.mem_cons_self
    · exact represents.below other present.1
  · exact represents.position

/-- The server that a request goes to next. -/
def nextServer (options : Options) (request : Request Cbp) : Bool :=
  if request.retrans = options.radiusretrysec - 1 then !request.lastsent else request.lastsent

def retried (options : Options) (later : Timeval) (request : Request Cbp) : Request Cbp :=
  { requeued options later request with lastsent := nextServer options request }

/-- Only the first request can be due. It is sent again and goes to the end, or it is given up. -/
theorem radiusTimeout_cases (represents : Represents radius requests) (options : Options) (md5 : Md5)
    (now later : Timeval) :
    radiusTimeout options md5 radius now later = (radius, []) ∨
      ∃ head rest, requests = head :: rest ∧ 0 ≤ radiusCmptv now head.timeout ∧
        (head.retrans < options.radiusretry ∧
            (∃ radius', radiusTimeout options md5 radius now later =
                (radius', [.sent head.pack (serverAddr radius (nextServer options head))
                  (serverPort radius head.pack)]) ∧
              settings radius' = settings radius ∧
              Represents radius' (rest ++ [retried options later head])) ∨
          options.radiusretry ≤ head.retrans ∧
            radiusTimeout options md5 radius now later =
              (dequeue radius head.idx, confirmTimeout radius head.pack head.cbp)) := by
  rw [radiusTimeout]
  cases requests with
  | nil =>
      have first : radius.first = none := represents.linked.forward
      rw [first]
      exact Or.inl rfl
  | cons head rest =>
      have first : radius.first = some head.idx := represents.linked.forward.1
      have member : head ∈ head :: rest := List.mem_cons_self
      have holds := represents.holds head member
      have timeout : (radius.queue head.idx).timeout = head.timeout :=
        congrArg RadiusQueue.timeout holds
      have retrans : (radius.queue head.idx).retrans = head.retrans :=
        congrArg RadiusQueue.retrans holds
      have lastsent : (radius.queue head.idx).lastsent = head.lastsent :=
        congrArg RadiusQueue.lastsent holds
      rw [first]
      simp only [timeout, retrans, lastsent, represents.packet member]
      by_cases early : radiusCmptv now head.timeout < 0
      · rw [if_pos early]
        exact Or.inl rfl
      · rw [if_neg early]
        apply Or.inr
        refine ⟨head, rest, rfl, Int.not_lt.mp early, ?_⟩
        by_cases again : head.retrans < options.radiusretry
        · apply Or.inl
          refine ⟨again, ?_⟩
          rw [if_pos again]
          have addressed : Represents
              (radius.change head.idx fun slot => { slot with lastsent := nextServer options head })
              ([] ++ { head with lastsent := nextServer options head } :: rest) := by
            apply Represents.replace represents
            · exact (List.nil_append _).symm
            · exact fun _ => rfl
            · exact fun _ => rfl
            · rfl
            · exact congrArg
                (fun slot : RadiusQueue Cbp => { slot with lastsent := nextServer options head }) holds
          obtain ⟨radius', done, same, rescheduled⟩ :=
            radiusQueueReschedule_represents addressed rfl options later
          refine ⟨radius', ?_, same, rescheduled⟩
          rw [nextServer] at done
          simp only at done
          rw [done]
          rfl
        · apply Or.inr
          refine ⟨Int.not_lt.mp again, ?_⟩
          rw [if_neg again, radiusQueueOut_of_mem represents member rfl]
          rfl

end Rut9xx.RadiusClient
