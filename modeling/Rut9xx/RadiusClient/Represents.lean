import Rut9xx.RadiusClient.Queue

namespace Rut9xx.RadiusClient

open Data

/-! # The queue as a list of requests

The slots and their links stand for a list of requests, from the first to expire to the last. -/

variable {Cbp : Type} {radius radius' : Radius Cbp} {queue : Nat → RadiusQueue Cbp} {idx other : Nat}
  {options : Options} {md5 : Md5} {qsize qnext : UInt8} {now : Timeval}

/-- A request in the queue, and the slot that it is in. -/
structure Request (Cbp : Type) where
  idx : Nat
  pack : RadiusPacket
  cbp : Option Cbp
  timeout : Timeval
  retrans : Int
  lastsent : Bool

variable {request : Request Cbp} {requests before after : List (Request Cbp)}

/-- A slot without its links. -/
def bare (slot : RadiusQueue Cbp) : RadiusQueue Cbp := { slot with next := none, prev := none }

def Request.slot (request : Request Cbp) : RadiusQueue Cbp where
  state := .full
  cbp := request.cbp
  timeout := request.timeout
  retrans := request.retrans
  lastsent := request.lastsent
  p := some request.pack
  next := none
  prev := none

structure Represents (radius : Radius Cbp) (requests : List (Request Cbp)) : Prop where
  linked : DoublyLinked (nextOf radius.queue) (prevOf radius.queue) radius.first radius.last
    (requests.map Request.idx)
  holds : ∀ request ∈ requests, bare (radius.queue request.idx) = request.slot
  unused : ∀ idx, idx ∉ requests.map Request.idx →
    (radius.queue idx).state = .empty ∧ (radius.queue idx).p = none
  below : ∀ request ∈ requests, request.idx < radius.size
  position : radius.qnext.toNat < radius.size

theorem Represents.nodup (represents : Represents radius requests) :
    (requests.map Request.idx).Nodup := represents.linked.forward.nodup

theorem Represents.full_iff (represents : Represents radius requests) :
    (radius.queue idx).state = .full ↔ ∃ request ∈ requests, request.idx = idx := by
  constructor
  · intro full
    by_contra absent
    have unused := (represents.unused idx fun member => absent (List.mem_map.mp member)).1
    rw [full] at unused
    contradiction
  · intro present
    obtain ⟨request, member, rfl⟩ := present
    exact congrArg RadiusQueue.state (represents.holds request member)

theorem Represents.packet (represents : Represents radius requests) (member : request ∈ requests) :
    (radius.queue request.idx).p = some request.pack :=
  congrArg RadiusQueue.p (represents.holds request member)

theorem Represents.size_pos (represents : Represents radius requests) : 0 < radius.size :=
  Nat.zero_lt_of_lt represents.position

/-! ## Places -/

theorem size_pos (radius : Radius Cbp) : 0 < radius.size := by
  rw [Radius.size]
  split
  · exact Nat.zero_lt_succ 255
  · rename_i some'
    exact Nat.pos_of_ne_zero fun zero => some' (UInt8.toNat_inj.mp zero)

theorem advance_lt (radius : Radius Cbp) (qnext : UInt8) :
    (advance radius.qsize qnext).toNat < radius.size := by
  have positive := size_pos radius
  rw [Radius.size] at positive ⊢
  rw [advance]
  split
  · exact UInt8.toNat_lt _
  · rename_i some'
    rw [if_neg some'] at positive
    rw [UInt8.toNat_mod]
    exact Nat.mod_lt _ positive

theorem skipActive_lt (radius : Radius Cbp) (attempts : Nat) (below : qnext.toNat < radius.size) :
    (skipActive queue radius.qsize attempts qnext).1.toNat < radius.size := by
  induction attempts generalizing qnext with
  | zero => exact below
  | succ attempts ih =>
      rw [skipActive]
      split
      · exact ih (advance_lt radius qnext)
      · exact below

theorem skipActive_unused {attempts : Nat}
    (unused : (skipActive queue qsize attempts qnext).2 = true) :
    (queue (skipActive queue qsize attempts qnext).1.toNat).state ≠ .full := by
  induction attempts generalizing qnext with
  | zero => exact of_decide_eq_true unused
  | succ attempts ih =>
      rw [skipActive] at unused ⊢
      split
      · rename_i full
        rw [if_pos full] at unused
        exact ih unused
      · rename_i free
        exact free

/-- `radius_queue_next` only moves the place where it looks. -/
theorem radiusQueueNext_cases (represents : Represents radius requests) :
    ∃ qnext : UInt8, qnext.toNat < radius.size ∧
      (radiusQueueNext radius).1 = { radius with qnext := qnext } ∧
      ∀ idx, (radiusQueueNext radius).2 = some idx →
        idx = qnext.toNat ∧ (radius.queue idx).state ≠ .full := by
  refine ⟨_, skipActive_lt radius radius.size represents.position, rfl, ?_⟩
  intro idx found
  rw [radiusQueueNext] at found
  simp only at found
  split at found
  · rename_i unused
    cases found
    exact ⟨rfl, skipActive_unused unused⟩
  · contradiction

theorem Represents.move (represents : Represents radius requests)
    (below : qnext.toNat < radius.size) : Represents { radius with qnext := qnext } requests where
  linked := represents.linked
  holds := represents.holds
  unused := represents.unused
  below := represents.below
  position := below

theorem radiusQueueNext_represents (represents : Represents radius requests) :
    Represents (radiusQueueNext radius).1 requests := by
  obtain ⟨qnext, below, moved, -⟩ := radiusQueueNext_cases represents
  rw [moved]
  exact represents.move below

/-! ## Changing one slot -/

section Change

variable {f : RadiusQueue Cbp → RadiusQueue Cbp}

theorem change_self : (radius.change idx f).queue idx = f (radius.queue idx) := alter_self

theorem change_of_ne (differs : other ≠ idx) :
    (radius.change idx f).queue other = radius.queue other := alter_of_ne differs

/-- A change that leaves the links alone. -/
theorem change_linked {nodes : List Nat}
    (linked : DoublyLinked (nextOf radius.queue) (prevOf radius.queue) radius.first radius.last nodes)
    (next : ∀ slot, (f slot).next = slot.next) (prev : ∀ slot, (f slot).prev = slot.prev) :
    DoublyLinked (nextOf (radius.change idx f).queue) (prevOf (radius.change idx f).queue)
      (radius.change idx f).first (radius.change idx f).last nodes := by
  apply linked.congr
  intro node _
  exact ⟨alter_keeps RadiusQueue.next next node, alter_keeps RadiusQueue.prev prev node⟩

end Change

/-! ## Links -/

section Links

variable (link target : Option Nat) (slot : RadiusQueue Cbp)

@[simp] theorem RadiusQueue.next_setPrev : (slot.setPrev target).next = slot.next := rfl

@[simp] theorem RadiusQueue.prev_setNext : (slot.setNext target).prev = slot.prev := rfl

@[simp] theorem bare_setPrev : bare (slot.setPrev target) = bare slot := rfl

@[simp] theorem bare_setNext : bare (slot.setNext target) = bare slot := rfl

theorem nextOf_setNext :
    nextOf (alterLink queue link (.setNext target)) = relink (nextOf queue) link target :=
  comp_alterLink RadiusQueue.next fun _ => rfl

theorem prevOf_setPrev :
    prevOf (alterLink queue link (.setPrev target)) = relink (prevOf queue) link target :=
  comp_alterLink RadiusQueue.prev fun _ => rfl

theorem nextOf_setPrev : nextOf (alterLink queue link (.setPrev target)) = nextOf queue :=
  funext (alterLink_keeps RadiusQueue.next (RadiusQueue.next_setPrev target))

theorem prevOf_setNext : prevOf (alterLink queue link (.setNext target)) = prevOf queue :=
  funext (alterLink_keeps RadiusQueue.prev (RadiusQueue.prev_setNext target))

end Links

theorem bare_unlink (radius : Radius Cbp) (idx other : Nat) :
    bare ((unlink radius idx).queue other) = bare (radius.queue other) := by
  exact (alterLink_keeps bare (bare_setNext _) other).trans
    (alterLink_keeps bare (bare_setPrev _) other)

theorem bare_linkLast (radius : Radius Cbp) (idx other : Nat) :
    bare ((linkLast radius idx).queue other) = bare (radius.queue other) := by
  have cleared (slot : RadiusQueue Cbp) : bare ((slot.setNext none).setPrev radius.last) = bare slot :=
    rfl
  exact (alterLink_keeps bare (bare_setNext _) other).trans (alter_keeps bare cleared other)

theorem unlink_linked {nodes front back : List Nat}
    (linked : DoublyLinked (nextOf radius.queue) (prevOf radius.queue) radius.first radius.last nodes)
    (placed : nodes = front ++ idx :: back) :
    DoublyLinked (nextOf (unlink radius idx).queue) (prevOf (unlink radius idx).queue)
      (unlink radius idx).first (unlink radius idx).last (front ++ back) := by
  have apart : (radius.queue idx).next ≠ some idx := by
    intro itself
    have nextIs : nextOf radius.queue idx = back.head? := (linked.neighbours placed).2
    have distinct := linked.forward.nodup
    rw [placed] at distinct
    exact (List.nodup_cons.mp (List.nodup_middle.mp distinct)).1
      (List.mem_append_right _ (List.mem_of_head? (nextIs.symm.trans itself)))
  have same : alterLink radius.queue (radius.queue idx).next (.setPrev (radius.queue idx).prev) idx =
      radius.queue idx := alterLink_of_ne apart
  rw [unlink]
  simp only [same, nextOf_setNext, nextOf_setPrev, prevOf_setNext, prevOf_setPrev]
  exact linked.remove_node placed

theorem linkLast_linked {nodes : List Nat}
    (linked : DoublyLinked (nextOf radius.queue) (prevOf radius.queue) radius.first radius.last nodes)
    (new : idx ∉ nodes) :
    DoublyLinked (nextOf (linkLast radius idx).queue) (prevOf (linkLast radius idx).queue)
      (linkLast radius idx).first (linkLast radius idx).last (nodes ++ [idx]) := by
  have first : radius.first.or (some idx) = rehead radius.first radius.last (some idx) := by
    rw [linked.last_eq, linked.forward.start_eq]
    cases nodes with
    | nil => rfl
    | cons head rest =>
        rw [List.getLast?_cons]
        rfl
  have cleared : DoublyLinked (Function.update (nextOf radius.queue) idx none) (prevOf radius.queue)
      radius.first radius.last nodes := by
    apply linked.congr
    intro node member
    exact ⟨Function.update_of_ne (by rintro rfl; exact new member) _ _, rfl⟩
  have next : nextOf (radius.change idx fun slot => (slot.setNext none).setPrev radius.last).queue =
      Function.update (nextOf radius.queue) idx none := comp_alter RadiusQueue.next
  have prev : prevOf (radius.change idx fun slot => (slot.setNext none).setPrev radius.last).queue =
      Function.update (prevOf radius.queue) idx radius.last := comp_alter RadiusQueue.prev
  have appended := cleared.append_node new (Function.update_self ..)
  rw [← first, ← next, ← prev] at appended
  rw [linkLast]
  simp only [nextOf_setNext, prevOf_setNext]
  exact appended

/-! ## Operations on the list -/

/-- A slot of its own at the end of the list. -/
theorem Represents.push (represents : Represents radius requests)
    (linked : DoublyLinked (nextOf radius'.queue) (prevOf radius'.queue) radius'.first radius'.last
      (requests.map Request.idx ++ [request.idx]))
    (new : bare (radius'.queue request.idx) = request.slot)
    (same : ∀ other, other ≠ request.idx → bare (radius'.queue other) = bare (radius.queue other))
    (below : request.idx < radius.size) (size : radius'.size = radius.size)
    (position : radius'.qnext.toNat < radius.size)
    (apart : request.idx ∉ requests.map Request.idx) :
    Represents radius' (requests ++ [request]) where
  linked := by
    rw [List.map_append]
    exact linked
  holds := by
    intro other member
    rcases List.mem_append.mp member with member | member
    · rw [same _ fun itself => apart (itself ▸ List.mem_map_of_mem member)]
      exact represents.holds other member
    · rw [List.mem_singleton.mp member]
      exact new
  unused := by
    intro idx absent
    rw [List.map_append, List.mem_append, not_or] at absent
    have kept := same idx fun itself => absent.2 (List.mem_singleton.mpr itself)
    obtain ⟨empty, none⟩ := represents.unused idx absent.1
    exact ⟨(congrArg RadiusQueue.state kept).trans empty, (congrArg RadiusQueue.p kept).trans none⟩
  below := by
    intro other member
    rw [size]
    rcases List.mem_append.mp member with member | member
    · exact represents.below other member
    · rw [List.mem_singleton.mp member]
      exact below
  position := by
    rw [size]
    exact position

theorem bare_dequeue_of_ne (differs : other ≠ idx) :
    bare ((dequeue radius idx).queue other) = bare (radius.queue other) := by
  rw [dequeue, bare_unlink]
  exact congrArg bare (change_of_ne differs)

theorem dequeue_self (radius : Radius Cbp) (idx : Nat) :
    ((dequeue radius idx).queue idx).state = .empty ∧ ((dequeue radius idx).queue idx).p = none := by
  have gone : bare ((dequeue radius idx).queue idx) =
      bare { radius.queue idx with p := none, state := .empty } := by
    rw [dequeue, bare_unlink]
    exact congrArg bare change_self
  exact ⟨congrArg RadiusQueue.state gone, congrArg RadiusQueue.p gone⟩

theorem Represents.dequeue (represents : Represents radius requests)
    (placed : requests = before ++ request :: after) :
    Represents (dequeue radius request.idx) (before ++ after) := by
  have nodes : requests.map Request.idx =
      before.map Request.idx ++ request.idx :: after.map Request.idx := by
    rw [placed, List.map_append, List.map_cons]
  have distinct := represents.nodup
  rw [nodes, List.nodup_middle] at distinct
  have apart := (List.nodup_cons.mp distinct).1
  rw [← List.map_append] at apart
  have member : ∀ other ∈ before ++ after, other ∈ requests ∧ other.idx ≠ request.idx := by
    intro other member
    constructor
    · rw [placed]
      rcases List.mem_append.mp member with front | back
      · exact List.mem_append_left _ front
      · exact List.mem_append_right _ (List.mem_cons_of_mem _ back)
    · intro same
      exact apart (same ▸ List.mem_map_of_mem member)
  have kept (other : Nat) (differs : other ≠ request.idx) :
      bare ((RadiusClient.dequeue radius request.idx).queue other) = bare (radius.queue other) :=
    bare_dequeue_of_ne differs
  constructor
  · rw [List.map_append]
    exact unlink_linked (change_linked represents.linked (fun _ => rfl) fun _ => rfl) nodes
  · intro other present
    obtain ⟨inside, differs⟩ := member other present
    rw [kept _ differs]
    exact represents.holds other inside
  · intro idx absent
    by_cases itself : idx = request.idx
    · rw [itself]
      exact dequeue_self radius request.idx
    · have outside : idx ∉ requests.map Request.idx := by
        rw [nodes, List.mem_append, List.mem_cons]
        rw [List.map_append, List.mem_append] at absent
        rintro (front | same | back)
        · exact absent (Or.inl front)
        · exact itself same
        · exact absent (Or.inr back)
      obtain ⟨empty, none⟩ := represents.unused idx outside
      exact ⟨(congrArg RadiusQueue.state (kept idx itself)).trans empty,
        (congrArg RadiusQueue.p (kept idx itself)).trans none⟩
  · intro other present
    exact represents.below other (member other present).1
  · exact represents.position

end Rut9xx.RadiusClient
