import Rut9xx.Data.Chain
import Rut9xx.Data.Partial
import Mathlib.Algebra.Group.Nat.Defs

namespace Rut9xx.Chilli

open Rut9xx.Data

/-! # The hotspot address pool (`ippool.c`)

Pointers into the member array are indices, addresses and masks are kept in
host order, and the hash of an address is a parameter: nothing here depends on
which function it is.
-/

structure Ippoolm where
  addr : UInt32 := 0
  inUse : Bool := false
  isStatic : Bool := false
  nexthash : Option Nat := none
  prev : Option Nat := none
  next : Option Nat := none
  peer : Option Nat := none

structure Ippool where
  dynsize : UInt32
  statsize : UInt32
  listsize : UInt32
  allowdyn : Bool
  allowstat : Bool
  stataddr : UInt32
  statmask : UInt32
  member : Nat → Ippoolm
  hashsize : UInt32
  hashlog : Nat
  hashmask : UInt32
  hash : UInt32 → Option Nat
  firstdyn : Option Nat
  lastdyn : Option Nat
  firststat : Option Nat
  laststat : Option Nat

/-- `first` and `last` of one of the two free lists. -/
structure Ends where
  first : Option Nat
  last : Option Nat

namespace Ippool

def dyn (pool : Ippool) : Ends := ⟨pool.firstdyn, pool.lastdyn⟩

def stat (pool : Ippool) : Ends := ⟨pool.firststat, pool.laststat⟩

def setDyn (pool : Ippool) (member : Nat → Ippoolm) (ends : Ends) : Ippool :=
  { pool with member := member, firstdyn := ends.first, lastdyn := ends.last }

def setStat (pool : Ippool) (member : Nat → Ippoolm) (ends : Ends) : Ippool :=
  { pool with member := member, firststat := ends.first, laststat := ends.last }

end Ippool

abbrev nexthashOf (member : Nat → Ippoolm) : Nat → Option Nat := Ippoolm.nexthash ∘ member

abbrev nextOf (member : Nat → Ippoolm) : Nat → Option Nat := Ippoolm.next ∘ member

abbrev prevOf (member : Nat → Ippoolm) : Nat → Option Nat := Ippoolm.prev ∘ member

def modify (member : Nat → Ippoolm) (index : Nat) (change : Ippoolm → Ippoolm) : Nat → Ippoolm :=
  Function.update member index (change (member index))

/-- A store through a link that may be null. -/
def modifyLink (member : Nat → Ippoolm) (link : Option Nat) (change : Ippoolm → Ippoolm) :
    Nat → Ippoolm :=
  match link with
  | none => member
  | some index => modify member index change

def setNext (member : Nat → Ippoolm) (link target : Option Nat) : Nat → Ippoolm :=
  modifyLink member link fun node => { node with next := target }

def setPrev (member : Nat → Ippoolm) (link target : Option Nat) : Nat → Ippoolm :=
  modifyLink member link fun node => { node with prev := target }

def markUsed (member : Nat → Ippoolm) (index : Nat) : Nat → Ippoolm :=
  modify member index fun node => { node with inUse := true }

/-! ## The hash chains -/

section Hash

variable (hash4 : UInt32 → UInt32)

def slot (pool : Ippool) (addr : UInt32) : UInt32 := hash4 addr &&& pool.hashmask

/-- The loop over `nexthash`; a chain longer than the pool never ends. -/
def walk (pool : Ippool) (addr : UInt32) (stop : Nat → Bool) : Option (Option Nat × Option Nat) :=
  scan (nexthashOf pool.member) stop pool.listsize.toNat none (pool.hash (slot hash4 pool addr))

/-- `p_prev->nexthash = target`, or the slot itself when there is no node before. -/
def setNexthash (pool : Ippool) (slot : UInt32) (previous target : Option Nat) : Ippool :=
  { pool with
    hash := Function.update pool.hash slot (rehead (pool.hash slot) previous target)
    member := modifyLink pool.member previous fun node => { node with nexthash := target } }

def ippoolHashadd (pool : Ippool) (member : Nat) : Option Ippool :=
  let addr := (pool.member member).addr
  (walk hash4 pool addr fun _ => false).map fun (previous, _) =>
    setNexthash pool (slot hash4 pool addr) previous (some member)

/-- The inner `none` is the code's -1. -/
def ippoolHashdel (pool : Ippool) (member : Nat) : Option (Option Ippool) :=
  let addr := (pool.member member).addr
  (walk hash4 pool addr (· == member)).map fun (previous, found) =>
    found.map fun found =>
      setNexthash pool (slot hash4 pool addr) previous (pool.member found).nexthash

/-- The search that `ippool_newip` makes for a requested address. -/
def findRequested (pool : Ippool) (addr : UInt32) : Option (Option Nat) :=
  (walk hash4 pool addr fun index => (pool.member index).addr == addr).map Prod.snd

def ippoolGetip (pool : Ippool) (addr : UInt32) : Option (Option Nat) :=
  (walk hash4 pool addr fun index =>
    (pool.member index).addr == addr && (pool.member index).inUse).map Prod.snd

end Hash

/-! ## The free lists -/

/-- Take `p2` out of the free list it is in. -/
def unlink (member : Nat → Ippoolm) (ends : Ends) (p2 : Nat) : (Nat → Ippoolm) × Ends :=
  let prev := (member p2).prev
  let next := (member p2).next
  let member := setNext member prev next
  let member := setPrev member next prev
  let member := setNext member (some p2) none
  let member := setPrev member (some p2) none
  (markUsed member p2, ⟨rehead ends.first prev next, rehead ends.last next prev⟩)

/-- Put `index` at the end of a free list. -/
def enqueue (member : Nat → Ippoolm) (ends : Ends) (index : Nat) : (Nat → Ippoolm) × Ends :=
  let member := setPrev member (some index) ends.last
  (setNext member ends.last (some index),
    ⟨rehead ends.first ends.last (some index), some index⟩)

/-! ## Construction -/

/-- What `ippool_new` reads: the parsed networks (address and mask, `none` when
`option_aton` fails), the range options and the two listen addresses. -/
structure PoolConfig where
  dyn : Option (UInt32 × UInt32)
  start : Int32
  stop : Int32
  stat : Option (UInt32 × UInt32)
  allowdyn : Bool
  allowstat : Bool
  uamlisten : UInt32
  dhcplisten : UInt32

def IPPOOL_STATSIZE : UInt32 := 0x10000

/-- How many dynamic members there are once the range is known to be in the subnet. -/
def dynCount (dynsize : UInt32) (start stop : Int32) : Option UInt32 := do
  if start > 0 ∧ stop > 0 then
    require (!decide (stop < start))
    require (!decide ((stop - start).toUInt32 > dynsize))
    return (stop - start).toUInt32
  else if start > 0 then
    return dynsize - start.toUInt32 - 1 - 1
  else if stop > 0 then
    return (if dynsize > stop.toUInt32 then stop.toUInt32 else dynsize) - 1 - 1
  else
    return dynsize - 2 - 1

/-- The dynamic network address, the first offset and the number of members. -/
def dynRange (config : PoolConfig) : Option (UInt32 × Int32 × UInt32) :=
  if config.allowdyn then do
    let (addr, mask) ← config.dyn
    let start := if config.start = 0 then (addr &&& ~~~mask).toInt32 else config.start
    let addr := addr &&& mask
    require ((addr + start.toUInt32) &&& mask == addr &&& mask)
    require ((addr + config.stop.toUInt32) &&& mask == addr &&& mask)
    let dynsize ← dynCount (~~~mask + 1) start config.stop
    return (addr, start, dynsize)
  else some (0, config.start, 0)

/-- The static network, its mask and the number of static members. -/
def statRange (config : PoolConfig) : Option (UInt32 × UInt32 × UInt32) :=
  if config.allowstat then
    config.stat.map fun (stataddr, statmask) =>
      let statsize := ~~~statmask + 1
      (stataddr &&& statmask, statmask,
        if statsize > IPPOOL_STATSIZE then IPPOOL_STATSIZE else statsize)
  else some (0, 0, 0)

/-- `calloc` on the 32-bit target: a product that does not fit is refused. -/
def calloc (heap : Nat → Bool) (size count : Nat) : Bool :=
  decide (size * count < 2 ^ 32) && heap (size * count)

/-- `for (hashlog = 0; (1 << hashlog) < listsize; hashlog++)` -/
def hashlogLoop (listsize : UInt32) : Nat → Nat → Nat
  | 0, hashlog => hashlog
  | fuel + 1, hashlog =>
      if (1 : UInt32) <<< UInt32.ofNat hashlog < listsize then hashlogLoop listsize fuel (hashlog + 1)
      else hashlog

def emptyPool (config : PoolConfig) (stataddr statmask dynsize statsize : UInt32) : Ippool :=
  let listsize := dynsize + statsize
  let hashlog := hashlogLoop listsize 32 0
  let hashsize := (1 : UInt32) <<< UInt32.ofNat hashlog
  { dynsize := dynsize
    statsize := statsize
    listsize := listsize
    allowdyn := config.allowdyn
    allowstat := config.allowstat
    stataddr := stataddr
    statmask := statmask
    member := fun _ => {}
    hashsize := hashsize
    hashlog := hashlog
    hashmask := hashsize - 1
    hash := fun _ => none
    firstdyn := none
    lastdyn := none
    firststat := none
    laststat := none }

/-- Sizes of `struct ippool_t`, `struct ippoolm_t` and a pointer on the target. -/
def sizeofIppool : Nat := 64

def sizeofIppoolm : Nat := 24

def sizeofPointer : Nat := 4

section Fill

variable (hash4 : UInt32 → UInt32) (config : PoolConfig)

/-- The address of dynamic member `index`, and `start` after a listen address was stepped over. -/
def dynAddr (addr start : UInt32) (index : Nat) : UInt32 × UInt32 :=
  let naddr := addr + UInt32.ofNat index + start
  if naddr = config.uamlisten ∨ naddr = config.dhcplisten then
    (addr + UInt32.ofNat index + (start + 1), start + 1)
  else (naddr, start)

/-- The loop over the dynamic members with `count` of them left.  A store past
the member array does not complete. -/
def fillDyn (addr : UInt32) : Nat → Nat → UInt32 → Ippool → Option Ippool
  | 0, _, _, pool => some pool
  | count + 1, index, start, pool => do
      require (decide (index < pool.listsize.toNat))
      let (naddr, start) := dynAddr config addr start index
      let member := modify pool.member index fun node => { node with addr := naddr }
      let (member, ends) := enqueue member pool.dyn index
      let pool ← ippoolHashadd hash4 (pool.setDyn member ends) index
      fillDyn addr count (index + 1) start pool

def fillStat : Nat → Nat → Ippool → Ippool
  | 0, _, pool => pool
  | count + 1, index, pool =>
      let member := modify pool.member index fun node => { node with isStatic := true }
      let (member, ends) := enqueue member pool.stat index
      fillStat count (index + 1) (pool.setStat member ends)

/-- `none` when `ippool_new` returns -1 or does not come back. -/
def ippoolNew (heap : Nat → Bool) : Option Ippool := do
  let (addr, start, dynsize) ← dynRange config
  let (stataddr, statmask, statsize) ← statRange config
  let pool := emptyPool config stataddr statmask dynsize statsize
  require (calloc heap sizeofIppool 1)
  require (calloc heap sizeofIppoolm pool.listsize.toNat)
  require (calloc heap sizeofPointer pool.hashsize.toNat)
  let start := if start ≤ 0 then 1 else start
  let pool ← fillDyn hash4 config addr dynsize.toNat 0 start.toUInt32 pool
  return fillStat (pool.listsize.toNat - dynsize.toNat) dynsize.toNat pool

end Fill

/-! ## Requests -/

section Requests

variable (hash4 : UInt32 → UInt32) (uamanyip : Bool)

/-- The first check of `ippool_newip`: is this type of address allowed. -/
def allowed (pool : Ippool) (addr : UInt32) (statip : Bool) : Bool :=
  if addr ≠ 0 ∧ statip then
    uamanyip || (pool.allowstat && addr &&& pool.statmask == pool.stataddr)
  else pool.allowdyn

def takeDynamic (pool : Ippool) (p2 : Nat) : Ippool × Option Nat :=
  if (pool.member p2).inUse then (pool, none)
  else if (pool.member p2).isStatic then (pool, none)
  else
    let (member, ends) := unlink pool.member pool.dyn p2
    (pool.setDyn member ends, some p2)

def takeFirstDynamic (pool : Ippool) : Ippool × Option Nat :=
  match pool.firstdyn with
  | none => (pool, none)
  | some p2 => takeDynamic pool p2

/-- A free static member leaves its list and gets the address asked for. -/
def assign (pool : Ippool) (addr : UInt32) (p2 : Nat) : Ippool :=
  let (member, ends) := unlink pool.member pool.stat p2
  pool.setStat (modify member p2 fun node => { node with addr := addr }) ends

def takeStatic (pool : Ippool) (addr : UInt32) : Option (Ippool × Option Nat) :=
  match pool.firststat with
  | none => some (pool, none)
  | some p2 =>
      if (pool.member p2).inUse then some (pool, none)
      else if !(pool.member p2).isStatic then some (pool, none)
      else (ippoolHashadd hash4 (assign pool addr p2) p2).map (·, some p2)

/-- What is handed out once the search for the requested address is over. -/
def serve (pool : Ippool) (addr : UInt32) (statip : Bool) :
    Option Nat → Option (Ippool × Option Nat)
  | some found =>
      if statip && uamanyip && (pool.member found).isStatic then
        some (pool, some found)
      else if !statip && (pool.member found).inUse then
        -- already allocated: any other dynamic address will do
        some (takeFirstDynamic pool)
      else
        some (takeDynamic pool found)
  | none =>
      if !statip then
        some (takeFirstDynamic pool)
      else if addr != 0 then
        takeStatic hash4 pool addr
      else
        some (pool, none)

/-- The new pool and the member handed out, `none` inside for -1.  The address
pointer is never null: the function prints the address first thing. -/
def ippoolNewip (pool : Ippool) (addr : UInt32) (statip : Bool) :
    Option (Ippool × Option Nat) :=
  if allowed uamanyip pool addr statip then
    (if addr != 0 then findRequested hash4 pool addr else some none).bind
      (serve hash4 uamanyip pool addr statip)
  else some (pool, none)

def releaseStatic (pool : Ippool) (index : Nat) : Ippool :=
  let (member, ends) := enqueue pool.member pool.stat index
  pool.setStat (modify member index fun node =>
    { node with inUse := false, addr := 0, peer := none, nexthash := none }) ends

def releaseDynamic (pool : Ippool) (index : Nat) : Ippool :=
  let (member, ends) := enqueue pool.member pool.dyn index
  pool.setDyn (modify member index fun node => { node with inUse := false, peer := none }) ends

/-- The pool after `ippool_freeip`, and whether it returned 0. -/
def ippoolFreeip (pool : Ippool) (index : Nat) : Option (Ippool × Bool) :=
  if !(pool.member index).inUse then some (pool, false)
  else if (pool.member index).isStatic then
    (ippoolHashdel hash4 pool index).map fun
      | none => (pool, false)
      | some pool => (releaseStatic pool index, true)
  else some (releaseDynamic pool index, true)

end Requests

end Rut9xx.Chilli
