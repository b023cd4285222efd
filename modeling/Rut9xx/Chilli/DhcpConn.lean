import Rut9xx.Data.Partial
import Rut9xx.Data.Chain
import Mathlib.Data.UInt

namespace Rut9xx.Chilli

open Data

/-! # The connections of the DHCP module

A pointer to a connection is its number in the order of allocation. -/

abbrev Mac := Vector UInt8 6

structure DhcpConn where
  nexthash : Option Nat
  next : Option Nat
  prev : Option Nat
  /-- Whether the pointer is set. -/
  parent : Bool
  inuse : Bool
  noc2c : Bool
  isReserved : Bool
  lasttime : Int
  hismac : Mac
  mtu : UInt16
  authstate : Nat
  deriving DecidableEq

def dhcpAuthNone : Nat := 0

def dhcpAuthDrop : Nat := 1

def terminateCauseAdminReset : Nat := 6

/-- `memset(conn, 0, sizeof(*conn))` -/
def DhcpConn.zero : DhcpConn where
  nexthash := none
  next := none
  prev := none
  parent := false
  inuse := false
  noc2c := false
  isReserved := false
  lasttime := 0
  hismac := Vector.replicate 6 0
  mtu := 0
  authstate := dhcpAuthNone

structure DhcpOptions where
  maxClients : Nat
  leaseplus : Int

structure Dhcp where
  conn : Nat → DhcpConn
  allocated : Nat
  /-- The counter of the allocations that were tried. -/
  connections : Nat
  hash : UInt32 → Option Nat
  hashmask : UInt32
  firstfreeconn : Option Nat
  lastfreeconn : Option Nat
  firstusedconn : Option Nat
  lastusedconn : Option Nat
  lease : Int
  mtu : UInt16
  noc2c : Bool

namespace Dhcp

def change (dhcp : Dhcp) (index : Nat) (f : DhcpConn → DhcpConn) : Dhcp :=
  { dhcp with conn := alter dhcp.conn index f }

end Dhcp

def DhcpConn.setNext (target : Option Nat) (conn : DhcpConn) : DhcpConn := { conn with next := target }

def DhcpConn.setPrev (target : Option Nat) (conn : DhcpConn) : DhcpConn := { conn with prev := target }

def DhcpConn.setNexthash (target : Option Nat) (conn : DhcpConn) : DhcpConn :=
  { conn with nexthash := target }

/-! ## The hash table -/

variable (dhcpHash : Mac → UInt32)

def Dhcp.slot (dhcp : Dhcp) (mac : Mac) : UInt32 := dhcpHash mac &&& dhcp.hashmask

/-- The walk along a chain to where `stop` holds; none where it does not end. -/
def Dhcp.walk (dhcp : Dhcp) (mac : Mac) (stop : Nat → Bool) : Option (Option Nat × Option Nat) :=
  scan (DhcpConn.nexthash ∘ dhcp.conn) stop dhcp.allocated none (dhcp.hash (dhcp.slot dhcpHash mac))

/-- The link out of `previous`, or the head of the chain. -/
def Dhcp.rechain (dhcp : Dhcp) (key : UInt32) (previous target : Option Nat) : Dhcp :=
  { dhcp with
    hash := Function.update dhcp.hash key (rehead (dhcp.hash key) previous target)
    conn := alterLink dhcp.conn previous (.setNexthash target) }

def dhcpHashadd (dhcp : Dhcp) (index : Nat) : Option Dhcp := do
  let mac := (dhcp.conn index).hismac
  let (previous, _) ← dhcp.walk dhcpHash mac fun _ => false
  some (dhcp.rechain (dhcp.slot dhcpHash mac) previous (some index))

/-- The inner none is -1. -/
def dhcpHashdel (dhcp : Dhcp) (index : Nat) : Option (Option Dhcp) := do
  let mac := (dhcp.conn index).hismac
  let (previous, found) ← dhcp.walk dhcpHash mac fun p => p = index
  some (found.map fun p =>
    dhcp.rechain (dhcp.slot dhcpHash mac) previous (dhcp.conn p).nexthash)

/-- The inner none is -1. -/
def dhcpHashget (dhcp : Dhcp) (mac : Mac) : Option (Option Nat) := do
  let (_, found) ← dhcp.walk dhcpHash mac fun p => (dhcp.conn p).hismac = mac && (dhcp.conn p).inuse
  some found

/-! ## The lists -/

/-- Remove the first of the free connections, and initialise it. -/
def takeFree (dhcp : Dhcp) (index : Nat) : Dhcp :=
  let taken : Dhcp :=
    match (dhcp.conn index).next with
    | some next => { dhcp.change next (.setPrev none) with firstfreeconn := some next }
    | none => { dhcp with firstfreeconn := none, lastfreeconn := none }
  taken.change index fun _ => .zero

/-- Insert into link of used. -/
def linkUsed (dhcp : Dhcp) (index : Nat) : Dhcp :=
  let linked : Dhcp :=
    match dhcp.firstusedconn with
    | some first => (dhcp.change first (.setPrev (some index))).change index (.setNext (some first))
    | none => { dhcp with lastusedconn := some index }
  { linked with firstusedconn := some index }

/-- Remove from link of used. -/
def unlinkUsed (dhcp : Dhcp) (index : Nat) : Dhcp :=
  match (dhcp.conn index).next, (dhcp.conn index).prev with
  | some next, some prev =>
      (dhcp.change next (.setPrev (some prev))).change prev (.setNext (some next))
  | some next, none => { dhcp.change next (.setPrev none) with firstusedconn := some next }
  | none, some prev => { dhcp.change prev (.setNext none) with lastusedconn := some prev }
  | none, none => { dhcp with firstusedconn := none, lastusedconn := none }

/-- Insert into link of free. -/
def linkFree (dhcp : Dhcp) (index : Nat) : Dhcp :=
  let linked : Dhcp :=
    match dhcp.firstfreeconn with
    | some first => dhcp.change first (.setPrev (some index))
    | none => { dhcp with lastfreeconn := some index }
  { linked.change index (.setNext dhcp.firstfreeconn) with firstfreeconn := some index }

variable (options : DhcpOptions)

/-- `memory` says whether `calloc` has any. The inner none is -1, where the counter may have gone up. -/
def dhcpLnkconn (dhcp : Dhcp) (memory : Bool) : Dhcp × Option Nat :=
  match dhcp.firstfreeconn with
  | none =>
      if dhcp.connections = options.maxClients then (dhcp, none)
      else
        let counted := { dhcp with connections := dhcp.connections + 1 }
        if memory then
          let index := dhcp.allocated
          let fresh := { counted.change index (fun _ => .zero) with allocated := index + 1 }
          (linkUsed fresh index, some index)
        else (counted, none)
  | some index => (linkUsed (takeFree dhcp index) index, some index)

/-- What the rest of the program does in a call: whether there is memory, the time, and the
state that `cb_connect` leaves the connection in. -/
structure Surroundings where
  memory : Bool
  now : Int
  authstate : Nat

/-- Application specific initialisations, and those before them. -/
def DhcpConn.fill (dhcp : Dhcp) (mac : Mac) (now : Int) (conn : DhcpConn) : DhcpConn :=
  { conn with
    inuse := true
    parent := true
    mtu := dhcp.mtu
    noc2c := dhcp.noc2c
    hismac := mac
    lasttime := now }

/-- What `dhcp_newconn` makes of a linked connection. -/
def initConn (dhcp : Dhcp) (index : Nat) (mac : Mac) (surroundings : Surroundings) : Option Dhcp := do
  let dhcp := dhcp.change index (.fill dhcp mac surroundings.now)
  let dhcp ← dhcpHashadd dhcpHash dhcp index
  some (dhcp.change index fun conn => { conn with authstate := surroundings.authstate })

/-- The inner none is -1. -/
def dhcpNewconn (dhcp : Dhcp) (mac : Mac) (surroundings : Surroundings) :
    Option (Dhcp × Option Nat) :=
  match dhcpLnkconn options dhcp surroundings.memory with
  | (dhcp, none) => some (dhcp, none)
  | (dhcp, some index) => do
      let dhcp ← initConn dhcpHash dhcp index mac surroundings
      some (dhcp, some index)

/-- The inner none is -1. -/
def dhcpGetconn (dhcp : Dhcp) (mac : Mac) (doAlloc : Bool) (surroundings : Surroundings) :
    Option (Dhcp × Option Nat) := do
  match ← dhcpHashget dhcpHash dhcp mac with
  | some index => some (dhcp, some index)
  | none =>
      if doAlloc then dhcpNewconn dhcpHash options dhcp mac surroundings
      else some (dhcp, none)

/-- `authstate` is what `cb_disconnect` leaves. There is no result for what is no connection with a
parent. -/
def dhcpFreeconn (dhcp : Dhcp) (index authstate : Nat) : Option Dhcp := do
  require (index < dhcp.allocated && (dhcp.conn index).parent)
  let dhcp := dhcp.change index fun conn => { conn with authstate := authstate }
  if (dhcp.conn index).isReserved then some dhcp
  else
    let removed ← dhcpHashdel dhcpHash dhcp index
    let dhcp := unlinkUsed (removed.getD dhcp) index
    let dhcp := dhcp.change index fun _ => .zero
    some (linkFree dhcp index)

def dhcpReleaseMac (dhcp : Dhcp) (mac : Mac) (termCause authstate : Nat) : Option Dhcp := do
  match ← dhcpHashget dhcpHash dhcp mac with
  | none => some dhcp
  | some index =>
      if (dhcp.conn index).authstate = dhcpAuthDrop ∧ termCause ≠ terminateCauseAdminReset then
        some dhcp
      else dhcpFreeconn dhcpHash dhcp index authstate

/-- `mainclock_diff`, which is an `int`. -/
def mainclockDiff (now past : Int) : Int := (now - past).bmod (2 ^ 32)

def Dhcp.expired (dhcp : Dhcp) (now : Int) (index : Nat) : Bool :=
  !(dhcp.conn index).isReserved &&
    mainclockDiff now (dhcp.conn index).lasttime > dhcp.lease + options.leaseplus

/-- The loop of `dhcp_checkconn`, for at most `fuel` connections. -/
def checkLoop (now : Int) (authstate : Nat → Nat) : Nat → Option Nat → Dhcp → Option Dhcp
  | _, none, dhcp => some dhcp
  | 0, some _, _ => none
  | fuel + 1, some index, dhcp => do
      let next := (dhcp.conn index).next
      let dhcp ←
        if dhcp.expired options now index then dhcpFreeconn dhcpHash dhcp index (authstate index)
        else some dhcp
      checkLoop now authstate fuel next dhcp

def dhcpCheckconn (dhcp : Dhcp) (now : Int) (authstate : Nat → Nat) : Option Dhcp :=
  checkLoop dhcpHash options now authstate dhcp.allocated dhcp.firstusedconn dhcp

/-- It looks for a connection and allocates one as `dhcp_getconn` does. The inner none is -1. -/
def dhcpReserveIp (dhcp : Dhcp) (mac : Mac) (surroundings : Surroundings) :
    Option (Dhcp × Option Nat) := do
  match ← dhcpGetconn dhcpHash options dhcp mac true surroundings with
  | (dhcp, none) => some (dhcp, none)
  | (dhcp, some index) =>
      some (dhcp.change index fun conn => { conn with isReserved := true }, some index)

end Rut9xx.Chilli
