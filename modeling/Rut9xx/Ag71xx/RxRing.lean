import Rut9xx.Ag71xx.TxRing

namespace Rut9xx.Ag71xx

open Data

/-! # The receive ring of `ag71xx_main.c` -/

/-- A descriptor and the `ag71xx_buf` beside it; buffers go by number. -/
structure RxCell where
  desc : Desc
  rxBuf : Option Nat
  dmaAddr : BitVec 32

/-- What became of a buffer that was taken from the ring: delivered with a
packet of this length, or freed because `build_skb` failed. -/
structure Taken where
  buf : Option Nat
  delivered : Option Int

/-- The ring, the descriptor that the hardware fills next, the number of the
next buffer, and the buffers that the hardware has filled and that the driver
has taken. `dmaMap` is the DMA address of a buffer. -/
structure RxState where
  order : Nat
  descPktlenMask : UInt16
  rxBufOffset : BitVec 32
  dmaMap : Nat → BitVec 32
  cells : Nat → RxCell
  curr : UInt32
  dirty : UInt32
  hw : UInt32
  fresh : Nat
  arrived : List (Option Nat)
  taken : List Taken

namespace RxState

def size (s : RxState) : Nat := 2 ^ s.order

def used (s : RxState) : Nat := (s.curr - s.dirty).toNat

def cell (s : RxState) (counter : UInt32) : RxCell := s.cells (slot s.order counter)

def setCell (s : RxState) (counter : UInt32) (cell : RxCell) : RxState :=
  { s with cells := Function.update s.cells (slot s.order counter) cell }

/-- A slot with the next buffer, handed to the hardware. -/
def posted (s : RxState) : RxCell :=
  ⟨⟨s.dmaMap s.fresh + s.rxBufOffset, descEmpty⟩, some s.fresh, s.dmaMap s.fresh⟩

end RxState

/-- The loop of `ag71xx_ring_rx_init`; the flag tells whether no allocation failed. -/
def rxInitLoop (alloc : Nat → Bool) : List Nat → RxState → RxState × Bool
  | [], s => (s, true)
  | i :: rest, s =>
      if alloc i then
        rxInitLoop alloc rest
          { s with cells := Function.update s.cells i s.posted, fresh := s.fresh + 1 }
      else (s, false)

/-- `ag71xx_ring_rx_init` on fresh memory. -/
def ringRxInit (order : Nat) (descPktlenMask : UInt16) (rxBufOffset : BitVec 32)
    (dmaMap : Nat → BitVec 32) (alloc : Nat → Bool) : RxState × Bool :=
  rxInitLoop alloc (List.range (2 ^ order))
    ⟨order, descPktlenMask, rxBufOffset, dmaMap, fun _ => ⟨⟨0, 0⟩, none, 0⟩, 0, 0, 0, 0, [], []⟩

namespace RxState

/-- The loop of `ag71xx_ring_rx_refill` over the slots up to `curr`; `alloc`
tells which of its allocations succeed. -/
def refillLoop (alloc : Nat → Bool) : Nat → Nat → RxState → RxState × Nat
  | 0, count, s => (s, count)
  | left + 1, count, s =>
      let cell := s.cell s.dirty
      match cell.rxBuf with
      | some _ =>
          let s := s.setCell s.dirty { cell with desc := { cell.desc with ctrl := descEmpty } }
          refillLoop alloc left (count + 1) { s with dirty := s.dirty + 1 }
      | none =>
          if alloc count then
            let s := { s.setCell s.dirty s.posted with fresh := s.fresh + 1 }
            refillLoop alloc left (count + 1) { s with dirty := s.dirty + 1 }
          else (s, count)

/-- `ag71xx_ring_rx_refill` -/
def refill (s : RxState) (alloc : Nat → Bool) : RxState × Nat := s.refillLoop alloc s.used 0

def ethFcsLen : Int := 4

/-- The loop of `ag71xx_rx_packets`; `build` tells which calls of `build_skb` succeed. -/
def rxLoop (build : Nat → Bool) : Nat → Nat → RxState → RxState × Nat
  | 0, done, s => (s, done)
  | left + 1, done, s =>
      let cell := s.cell s.curr
      if cell.desc.empty then (s, done)
      else if s.dirty + UInt32.ofNat s.size = s.curr then (s, done)
      else
        let pktlen : Int := (cell.desc.ctrl.toNat &&& s.descPktlenMask.toNat : Nat) - ethFcsLen
        let s := s.setCell s.curr { cell with rxBuf := none }
        rxLoop build left (done + 1)
          { s with
            taken := s.taken ++ [⟨cell.rxBuf, if build done then some pktlen else none⟩]
            curr := s.curr + 1 }

/-- `ag71xx_rx_packets` -/
def rxPackets (s : RxState) (limit : Nat) (build alloc : Nat → Bool) : RxState × Nat :=
  let (s, done) := s.rxLoop build limit 0
  ((s.refill alloc).1, done)

/-- The hardware fills the next descriptor if it owns it; `status` is what it
writes beside the mark. -/
def hwReceive (s : RxState) (status : BitVec 32) : RxState :=
  if (s.cell s.hw).desc.empty then
    { s.setCell s.hw { s.cell s.hw with
        desc := { (s.cell s.hw).desc with ctrl := status &&& ~~~descEmpty } } with
      arrived := s.arrived ++ [(s.cell s.hw).rxBuf]
      hw := s.hw + 1 }
  else s

end RxState

/-! ## Runs -/

inductive RxEvent where
  | receive (status : BitVec 32)
  | packets (limit : Nat) (build alloc : Nat → Bool)
  | refill (alloc : Nat → Bool)

namespace RxState

def step (s : RxState) : RxEvent → RxState
  | .receive status => s.hwReceive status
  | .packets limit build alloc => (s.rxPackets limit build alloc).1
  | .refill alloc => (s.refill alloc).1

def run (s : RxState) (events : List RxEvent) : RxState := events.foldl step s

end RxState

end Rut9xx.Ag71xx
