import Rut9xx.Data.BitField
import Rut9xx.Data.Ring

namespace Rut9xx.Ag71xx

open Data

/-! # The transmit ring of `ag71xx_main.c` -/

def txRingDsPerPkt : Nat := 4

def txRingSizeMax : Nat := 128

def rxRingSizeMax : Nat := 256

structure Desc where
  data : BitVec 32
  ctrl : BitVec 32

def descEmpty : BitVec 32 := bit 32 31

def descMore : BitVec 32 := bit 32 24

/-- `ag71xx_desc_empty` -/
def Desc.empty (desc : Desc) : Bool := desc.ctrl.getLsbD 31

/-- A frame handed to the driver; `id` tells one from another. -/
structure Skb where
  id : Nat
  len : Nat
  deriving DecidableEq

/-- A descriptor and the `ag71xx_buf` beside it. -/
structure TxCell where
  desc : Desc
  skb : Option Skb
  len : Nat

def TxCell.setCtrl (cell : TxCell) (ctrl : BitVec 32) : TxCell :=
  { cell with desc := { cell.desc with ctrl := ctrl } }

/-- The ring, the state of the queue, and what went through them: the bytes
that `netdev_sent_queue` and `netdev_completed_queue` were told, and the frames. -/
structure TxState where
  descSplit : UInt16
  order : Nat
  descPktlenMask : UInt16
  cells : Nat → TxCell
  curr : UInt32
  dirty : UInt32
  stopped : Bool
  sentBytes : Nat
  completedBytes : Nat
  accepted : List Skb
  freed : List Skb
  dropped : List Skb

namespace TxState

def size (s : TxState) : Nat := 2 ^ s.order

/-- `curr - dirty` -/
def used (s : TxState) : Nat := (s.curr - s.dirty).toNat

def cell (s : TxState) (counter : UInt32) : TxCell := s.cells (slot s.order counter)

def setCell (s : TxState) (counter : UInt32) (cell : TxCell) : TxState :=
  { s with cells := Function.update s.cells (slot s.order counter) cell }

def ringMin (s : TxState) : Nat := if s.descSplit = 0 then 2 else 2 * txRingDsPerPkt

end TxState

/-- `ag71xx_ring_size_order` -/
def ringSizeOrder (size : Nat) : Nat := if size ≤ 1 then 0 else Nat.log2 (size - 1) + 1

structure Ringparam where
  rxPending : Nat
  rxMiniPending : Nat
  rxJumboPending : Nat
  txPending : Nat

/-- `ag71xx_ethtool_set_ringparam`: the orders of the two rings; `none` is `-EINVAL`. -/
def ethtoolSetRingparam (descSplit : UInt16) (er : Ringparam) : Option (Nat × Nat) :=
  if er.rxMiniPending ≠ 0 ∨ er.rxJumboPending ≠ 0 ∨ er.rxPending = 0 ∨ er.txPending = 0 then none
  else
    let txSize := min er.txPending txRingSizeMax
    let rxSize := min er.rxPending rxRingSizeMax
    let txSize := if descSplit = 0 then txSize else txSize * txRingDsPerPkt
    some (ringSizeOrder txSize, ringSizeOrder rxSize)

/-- `ag71xx_ring_tx_init` on fresh memory. -/
def ringTxInit (descSplit : UInt16) (order : Nat) (descPktlenMask : UInt16) : TxState where
  descSplit := descSplit
  order := order
  descPktlenMask := descPktlenMask
  cells := fun _ => ⟨⟨0, descEmpty⟩, none, 0⟩
  curr := 0
  dirty := 0
  stopped := false
  sentBytes := 0
  completedBytes := 0
  accepted := []
  freed := []
  dropped := []

/-! ## Sending -/

/-- The length of the next segment; it is negative for a split below 4. -/
def curLen (split : Int) (len : Int) : Int :=
  if split < len then (if len ≤ split + 4 then split - 4 else split) else len

/-- The loop of `ag71xx_fill_dma_desc`; `none` is `-1`. A lap of the ring meets
descriptors of its own that are not empty, so that the fuel of `hardStartXmit`
never runs out. -/
def fillDmaDesc (order : Nat) (curr : UInt32) (split : Int) :
    Nat → (Nat → TxCell) → Nat → BitVec 32 → Int → (Nat → TxCell) × Option Nat
  | 0, cells, _, _, _ => (cells, none)
  | fuel + 1, cells, ndesc, addr, len =>
      if len ≤ 0 then (cells, some ndesc)
      else
        let i := slot order (curr + UInt32.ofNat ndesc)
        if (cells i).desc.empty then
          let rest := len - curLen split len
          let ctrl := BitVec.ofInt 32 (curLen split len) ||| (if 0 < rest then descMore else 0) |||
            (if ndesc = 0 then descEmpty else 0)
          fillDmaDesc order curr split fuel
            (Function.update cells i { cells i with desc := ⟨addr, ctrl⟩ }) (ndesc + 1)
            (addr + BitVec.ofInt 32 (curLen split len)) rest
        else (cells, none)

namespace TxState

/-- The segment size for a frame of this length. -/
def split (s : TxState) (len : Nat) : Int := if s.descSplit = 0 then len else s.descSplit.toNat

def drop (s : TxState) (skb : Skb) : TxState := { s with dropped := s.dropped ++ [skb] }

/-- What is left of `ag71xx_hard_start_xmit` once `n` descriptors are filled. -/
def inject (s : TxState) (skb : Skb) (n : Nat) : TxState :=
  let last := s.curr + UInt32.ofNat n - 1
  let s := s.setCell last { s.cell last with skb := some skb, len := skb.len }
  let s := { s with sentBytes := s.sentBytes + skb.len, accepted := s.accepted ++ [skb] }
  let s := s.setCell s.curr ((s.cell s.curr).setCtrl ((s.cell s.curr).desc.ctrl &&& ~~~descEmpty))
  let s := { s with curr := s.curr + UInt32.ofNat n }
  if UInt32.ofNat s.size - UInt32.ofNat s.ringMin ≤ s.curr - s.dirty then { s with stopped := true }
  else s

def hardStartXmit (s : TxState) (skb : Skb) (dmaAddr : BitVec 32) : TxState :=
  if skb.len ≤ 4 then s.drop skb
  else
    let len := skb.len &&& s.descPktlenMask.toNat
    match fillDmaDesc s.order s.curr (s.split len) (s.size + 8) s.cells 0 dmaAddr len with
    | (cells, none) => { s with cells := cells }.drop skb
    | (cells, some n) => { s with cells := cells }.inject skb n

/-! ## Completion -/

/-- The hardware completes the oldest descriptor that is still its own. -/
def hwComplete (s : TxState) : TxState :=
  match (List.range s.used).find? fun k => !(s.cell (s.dirty + UInt32.ofNat k)).desc.empty with
  | none => s
  | some k =>
      let at' := s.dirty + UInt32.ofNat k
      s.setCell at' ((s.cell at').setCtrl ((s.cell at').desc.ctrl ||| descEmpty))

/-- A flush takes the descriptor from the hardware. -/
def scan (s : TxState) (flush : Bool) (counter : UInt32) : TxState :=
  if flush then
    s.setCell counter ((s.cell counter).setCtrl ((s.cell counter).desc.ctrl ||| descEmpty))
  else s

/-- Frees the frame `n` descriptors past `dirty` and moves on behind it. -/
def free (s : TxState) (skb : Skb) (n : Nat) : TxState :=
  let i := s.dirty + UInt32.ofNat n
  { s.setCell i { s.cell i with skb := none } with
    freed := s.freed ++ [skb]
    dirty := s.dirty + UInt32.ofNat (n + 1) }

/-- The loop of `ag71xx_tx_packets` over what is left of the ring, `n`
descriptors past `dirty`; with it go the frames and the bytes it completed. -/
def txLoop (flush : Bool) : Nat → Nat → TxState → Nat × Nat → TxState × Nat × Nat
  | 0, _, s, done => (s, done)
  | count + 1, n, s, (sent, bytesCompl) =>
      let i := s.dirty + UInt32.ofNat n
      if !flush && !(s.cell i).desc.empty then (s, sent, bytesCompl)
      else
        let s := s.scan flush i
        match (s.cell i).skb with
        | none => txLoop flush count (n + 1) s (sent, bytesCompl)
        | some skb =>
            txLoop flush count 0 (s.free skb n) (sent + 1, bytesCompl + (s.cell i).len)

/-- `ag71xx_tx_packets` -/
def txPackets (s : TxState) (flush : Bool) : TxState × Nat :=
  let (s, sent, bytesCompl) := s.txLoop flush s.used 0 (0, 0)
  if sent = 0 then (s, 0)
  else
    let s := { s with completedBytes := s.completedBytes + bytesCompl }
    if s.used < s.size * 3 / 4 then ({ s with stopped := false }, sent) else (s, sent)

end TxState

/-! ## Runs -/

inductive TxEvent where
  | xmit (skb : Skb) (dmaAddr : BitVec 32)
  | complete
  | clean (flush : Bool)

namespace TxState

/-- Nothing is handed to the driver while the queue is stopped. -/
def step (s : TxState) : TxEvent → TxState
  | .xmit skb dmaAddr => if s.stopped then s else s.hardStartXmit skb dmaAddr
  | .complete => s.hwComplete
  | .clean flush => (s.txPackets flush).1

def run (s : TxState) (events : List TxEvent) : TxState := events.foldl step s

end TxState

end Rut9xx.Ag71xx
