import Rut9xx.Data.Partial
import Rut9xx.Data.Chain
import Rut9xx.RadiusClient.Packet

namespace Rut9xx.RadiusClient

open Data

/-! # The retransmit queue (`radius.c`)

Indices of -1 are `none`. Packets are held through pointers, as in the build for small devices. -/

structure Timeval where
  tvSec : Int
  tvUsec : Int
  deriving DecidableEq

def Timeval.micros (tv : Timeval) : Int := tv.tvSec * 1000000 + tv.tvUsec

def Timeval.addSec (tv : Timeval) (seconds : Int) : Timeval := { tv with tvSec := tv.tvSec + seconds }

def radiusCmptv (tv1 tv2 : Timeval) : Int :=
  let sec := (tv1.tvUsec - tv2.tvUsec).tdiv 1000000 + (tv1.tvSec - tv2.tvSec)
  let usec := (tv1.tvUsec - tv2.tvUsec).tmod 1000000
  let (sec, usec) := if 0 < sec ∧ usec < 0 then (sec - 1, usec + 1000000) else (sec, usec)
  let (sec, usec) := if sec < 0 ∧ 0 < usec then (sec + 1, usec - 1000000) else (sec, usec)
  if sec < 0 then -1
  else if 0 < sec then 1
  else if usec < 0 then -1
  else if 0 < usec then 1
  else 0

inductive QueueState where
  | empty
  | full
  deriving DecidableEq

/-- `lastsent` tells the second server from the first. -/
structure RadiusQueue (Cbp : Type) where
  state : QueueState
  cbp : Option Cbp
  timeout : Timeval
  retrans : Int
  lastsent : Bool
  p : Option RadiusPacket
  next : Option Nat
  prev : Option Nat

/-- The options that the queue reads. -/
structure Options where
  radiustimeout : Int
  radiusretry : Int
  radiusretrysec : Int

structure Radius (Cbp : Type) where
  coanocheck : Bool
  lastreply : Bool
  authport : UInt16
  acctport : UInt16
  hisaddr0 : UInt32
  hisaddr1 : UInt32
  secret : List UInt8
  nextid : UInt8
  queue : Nat → RadiusQueue Cbp
  qsize : UInt8
  qnext : UInt8
  first : Option Nat
  last : Option Nat
  cbAuthConf : Bool
  cbAcctConf : Bool
  cbCoaInd : Bool

variable {Cbp : Type}

abbrev nextOf (queue : Nat → RadiusQueue Cbp) : Nat → Option Nat := RadiusQueue.next ∘ queue

abbrev prevOf (queue : Nat → RadiusQueue Cbp) : Nat → Option Nat := RadiusQueue.prev ∘ queue

def radiusQueuesize : Nat := 256

/-- A size of 0 stands for the whole id address space. -/
def Radius.size (radius : Radius Cbp) : Nat :=
  if radius.qsize = 0 then radiusQueuesize else radius.qsize.toNat

/-- What `calloc` leaves in a slot: its links are 0, not -1. -/
def clearedSlot : RadiusQueue Cbp where
  state := .empty
  cbp := none
  timeout := ⟨0, 0⟩
  retrans := 0
  lastsent := false
  p := none
  next := some 0
  prev := some 0

/-- `radius_new` sets the ends of the list, and `radius_init_q` the size. -/
def radiusInitQ (radius : Radius Cbp) (size : Int) : Radius Cbp :=
  { radius with
    queue := fun _ => clearedSlot
    qsize := if size ≤ 0 ∨ radiusQueuesize < size then 0 else UInt8.ofNat size.toNat
    qnext := 0
    first := none
    last := none }

/-! ## Places in the queue -/

/-- `qnext++`, which wraps by itself when all 256 places are used. -/
def advance (qsize qnext : UInt8) : UInt8 :=
  if qsize = 0 then qnext + 1 else (qnext + 1) % qsize

/-- The attempts of `radius_queue_next`: where `qnext` ends, and if there is an unused slot. -/
def skipActive (queue : Nat → RadiusQueue Cbp) (qsize : UInt8) : Nat → UInt8 → UInt8 × Bool
  | 0, qnext => (qnext, (queue qnext.toNat).state ≠ .full)
  | attempts + 1, qnext =>
      if (queue qnext.toNat).state = .full then
        skipActive queue qsize attempts (advance qsize qnext)
      else (qnext, true)

def radiusQueueNext (radius : Radius Cbp) : Radius Cbp × Option Nat :=
  let (qnext, unused) := skipActive radius.queue radius.qsize radius.size radius.qnext
  ({ radius with qnext := qnext }, if unused then some qnext.toNat else none)

def hasId (slot : RadiusQueue Cbp) (id : Nat) : Bool := slot.p.any fun pack => pack.id.toNat = id

/-- The loop of `radius_queue_idx`, with `count` places left to look at. -/
def searchId (queue : Nat → RadiusQueue Cbp) (size id : Nat) : Nat → Nat → Option Nat
  | 0, _ => none
  | count + 1, idx =>
      if hasId (queue (idx % size)) id then some (idx % size)
      else searchId queue size id count (idx % size + 1)

def radiusQueueIdx (radius : Radius Cbp) (id : Nat) : Option Nat :=
  if radiusQueuesize ≤ id then none else searchId radius.queue radius.size id radius.size id

/-! ## Links -/

def Radius.change (radius : Radius Cbp) (idx : Nat) (f : RadiusQueue Cbp → RadiusQueue Cbp) :
    Radius Cbp :=
  { radius with queue := alter radius.queue idx f }

def RadiusQueue.setNext (target : Option Nat) (slot : RadiusQueue Cbp) : RadiusQueue Cbp :=
  { slot with next := target }

def RadiusQueue.setPrev (target : Option Nat) (slot : RadiusQueue Cbp) : RadiusQueue Cbp :=
  { slot with prev := target }

/-- Remove a slot from the linked list. -/
def unlink (radius : Radius Cbp) (idx : Nat) : Radius Cbp :=
  let slot := radius.queue idx
  let radius := { radius with
    last := rehead radius.last slot.next slot.prev
    queue := alterLink radius.queue slot.next (.setPrev slot.prev) }
  let slot := radius.queue idx
  { radius with
    first := rehead radius.first slot.prev slot.next
    queue := alterLink radius.queue slot.prev (.setNext slot.next) }

/-- Insert a slot at the end of the linked list. -/
def linkLast (radius : Radius Cbp) (idx : Nat) : Radius Cbp :=
  let radius := radius.change idx fun slot => (slot.setNext none).setPrev radius.last
  { radius with
    queue := alterLink radius.queue radius.last (.setNext (some idx))
    last := some idx
    first := radius.first.or (some idx) }

/-! ## Queue operations -/

variable (options : Options) (md5 : Md5)

/-- Without memory for the packet the slot stays unused. The packet comes back as it was stored. -/
def radiusQueueIn (radius : Radius Cbp) (pack : RadiusPacket) (cbp : Option Cbp) (now : Timeval)
    (allocated : Bool) : Radius Cbp × Option RadiusPacket :=
  match radiusQueueNext radius with
  | (radius, none) => (radius, none)
  | (radius, some qnext) =>
      let pack := signRequest md5 radius.secret pack
      if allocated then
        let radius := radius.change qnext fun slot => { slot with
          p := some pack
          state := .full
          cbp := cbp
          retrans := 0
          timeout := now.addSec options.radiustimeout
          lastsent := radius.lastreply }
        let radius := linkLast radius qnext
        ({ radius with qnext := advance radius.qsize radius.qnext }, some pack)
      else (radius.change qnext fun slot => { slot with p := none }, none)

/-- The packet is freed, and the slot taken out of the list. -/
def dequeue (radius : Radius Cbp) (idx : Nat) : Radius Cbp :=
  unlink (radius.change idx fun slot => { slot with p := none, state := .empty }) idx

/-- `none` is the code's -1, which leaves everything as it is. The stored packet comes with its
`cbp`. -/
def radiusQueueOut (radius : Radius Cbp) (idx : Option Nat) (packIn : Option RadiusPacket) :
    Option (Radius Cbp × Option RadiusPacket × Option Cbp) := do
  let idx ← idx.or (packIn.bind fun pack => radiusQueueIdx radius pack.id.toNat)
  let slot := radius.queue idx
  require (slot.state = .full)
  let mismatch := packIn.any fun pack => slot.p.any fun req =>
    radiusAuthcheck md5 radius.secret pack req
  require (!mismatch)
  some (dequeue radius idx, slot.p, slot.cbp)

def radiusQueueReschedule (radius : Radius Cbp) (idx : Nat) (now : Timeval) : Option (Radius Cbp) :=
  if (radius.queue idx).state = .full then
    let radius := radius.change idx fun slot => { slot with
      retrans := slot.retrans + 1
      timeout := now.addSec options.radiustimeout }
    some (linkLast (unlink radius idx) idx)
  else none

/-! ## Timeouts -/

/-- What the client does to its surroundings. A confirmation comes with the reply, if there is one,
the request and its `cbp`. -/
inductive Output (Cbp : Type) where
  | sent (pack : RadiusPacket) (addr : UInt32) (port : UInt16)
  | authConf (pack : Option RadiusPacket) (packReq : RadiusPacket) (cbp : Option Cbp)
  | acctConf (pack : Option RadiusPacket) (packReq : RadiusPacket) (cbp : Option Cbp)
  | coaInd (pack : RadiusPacket) (addr : UInt32) (port : UInt16)

def serverAddr (radius : Radius Cbp) (second : Bool) : UInt32 :=
  if second then radius.hisaddr1 else radius.hisaddr0

def serverPort (radius : Radius Cbp) (pack : RadiusPacket) : UInt16 :=
  if pack.code = codeAccountingRequest then radius.acctport else radius.authport

/-- The confirmation of a request that got no reply. -/
def confirmTimeout (radius : Radius Cbp) (packReq : RadiusPacket) (cbp : Option Cbp) :
    List (Output Cbp) :=
  if packReq.code = codeAccountingRequest ∧ radius.cbAcctConf then [.acctConf none packReq cbp]
  else if packReq.code = codeAccessRequest ∧ radius.cbAuthConf then [.authConf none packReq cbp]
  else []

/-- `later` is the time at which the packet is queued again, which it is also when it could not be
sent. -/
def radiusTimeout (radius : Radius Cbp) (now later : Timeval) : Radius Cbp × List (Output Cbp) :=
  match radius.first with
  | none => (radius, [])
  | some first =>
      let slot := radius.queue first
      if radiusCmptv now slot.timeout < 0 then (radius, [])
      else if slot.retrans < options.radiusretry then
        let lastsent := if slot.retrans = options.radiusretrysec - 1 then !slot.lastsent
          else slot.lastsent
        let radius := radius.change first fun slot => { slot with lastsent := lastsent }
        let outputs := slot.p.toList.map fun pack =>
          .sent pack (serverAddr radius lastsent) (serverPort radius pack)
        ((radiusQueueReschedule options radius first later).getD radius, outputs)
      else
        match radiusQueueOut md5 radius (some first) none with
        | some (radius, some packReq, cbp) => (radius, confirmTimeout radius packReq cbp)
        -- a full slot has its packet
        | some (radius, none, _) => (radius, [])
        | none => (radius, [])

end Rut9xx.RadiusClient
