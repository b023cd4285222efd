import Rut9xx.Data.Bucket

namespace Rut9xx.Chilli

open Data

/-! # Shaping by leaky buckets (`chilli.c`)

Times are exact. Sizes and packets are small enough for sums in 64 bits. -/

section

def bucketTime : Nat := 1
def bucketSizeMin : Nat := 7000

structure BwOptions where
  bwbucketupsize : Nat
  bwbucketdnsize : Nat
  bwbucketminsize : Nat

/-- Of the session's parameters; a rate of 0 is none. -/
structure BwParams where
  bandwidthmaxup : Nat
  bandwidthmaxdown : Nat

/-- Of the session's state. -/
structure BwState where
  bucketup : Nat
  bucketdown : Nat
  bucketupsize : Nat
  bucketdownsize : Nat
  lastBwTime : ℚ

inductive Direction where
  | up
  | down
  deriving DecidableEq

def BwParams.rate (params : BwParams) : Direction → Nat
  | .up => params.bandwidthmaxup
  | .down => params.bandwidthmaxdown

def BwState.bucket (state : BwState) : Direction → Nat
  | .up => state.bucketup
  | .down => state.bucketdown

def BwState.size (state : BwState) : Direction → Nat
  | .up => state.bucketupsize
  | .down => state.bucketdownsize

def BwState.setBucket (state : BwState) (bucket : Nat) : Direction → BwState
  | .up => { state with bucketup := bucket }
  | .down => { state with bucketdown := bucket }

def BwOptions.bucketsize (options : BwOptions) : Direction → Nat
  | .up => options.bwbucketupsize
  | .down => options.bwbucketdnsize

def initialSize (options : BwOptions) (params : BwParams) (direction : Direction) : Nat :=
  let size :=
    if options.bucketsize direction ≠ 0 then options.bucketsize direction
    else if params.rate direction / 8 * bucketTime < bucketSizeMin then bucketSizeMin
    else params.rate direction / 8 * bucketTime
  if options.bwbucketminsize > 0 ∧ size < options.bwbucketminsize then options.bwbucketminsize else size

def leakyBucketInit (options : BwOptions) (params : BwParams) (state : BwState) : BwState :=
  { state with
    bucketupsize := initialSize options params .up
    bucketdownsize := initialSize options params .down }

/-- One direction of `leaky_bucket`; the flag is cleared where the result is set to -1. -/
def chargeBucket (options : BwOptions) (params : BwParams) (timediff : ℚ) (octets : Nat)
    (direction : Direction) (state : BwState) : BwState × Bool :=
  if params.rate direction ≠ 0 then
    let bytes := ⌊timediff * params.rate direction / 8⌋₊
    let state := if state.size direction = 0 then leakyBucketInit options params state else state
    let bucket := if state.bucket direction > bytes then state.bucket direction - bytes else 0
    if bucket + octets > state.size direction then (state.setBucket bucket direction, false)
    else (state.setBucket (bucket + octets) direction, true)
  else (state, true)

/-- With the clock at `now`; the flag says that the result is 0. -/
def leakyBucket (options : BwOptions) (params : BwParams) (now : ℚ) (octetsup octetsdown : Nat)
    (state : BwState) : BwState × Bool :=
  let timediff := now - state.lastBwTime
  let (state, up) := chargeBucket options params timediff octetsup .up state
  let (state, down) := chargeBucket options params timediff octetsdown .down state
  ({ state with lastBwTime := now }, up && down)

/-! ## Packets one after the other -/

structure Packet where
  time : ℚ
  direction : Direction
  octets : Nat
  deriving DecidableEq

def Packet.octetsIn (packet : Packet) (direction : Direction) : Nat :=
  if packet.direction = direction then packet.octets else 0

def passPacket (options : BwOptions) (params : BwParams) (state : BwState) (packet : Packet) :
    BwState × Bool :=
  leakyBucket options params packet.time (packet.octetsIn .up) (packet.octetsIn .down) state

def passPackets (options : BwOptions) (params : BwParams) (state : BwState) (packets : List Packet) :
    BwState :=
  packets.foldl (fun state packet => (passPacket options params state packet).1) state

/-- The packets that are not dropped. -/
def acceptedPackets (options : BwOptions) (params : BwParams) : BwState → List Packet → List Packet
  | _, [] => []
  | state, packet :: rest =>
      let (after, accepted) := passPacket options params state packet
      (if accepted then [packet] else []) ++ acceptedPackets options params after rest

/-- The fractions of a byte that were not drained since the bucket was last empty. -/
def lostBytes (options : BwOptions) (params : BwParams) (direction : Direction) :
    BwState → ℚ → List Packet → ℚ
  | _, lost, [] => lost
  | state, lost, packet :: rest =>
      let drain := (packet.time - state.lastBwTime) * params.rate direction / 8
      lostBytes options params direction (passPacket options params state packet).1
        (if state.bucket direction ≤ ⌊drain⌋₊ then 0 else lost + Int.fract drain) rest

end

/-! # Each direction is a bucket of its own -/

section

variable {options : BwOptions} {params : BwParams} {state : BwState} {direction other : Direction}
  {timediff now : ℚ} {octets : Nat} {packet : Packet} {packets : List Packet}

/-- Bytes in a second. -/
def byteRate (params : BwParams) (direction : Direction) : ℚ := params.rate direction / 8

theorem byteRate_nonneg : 0 ≤ byteRate params direction :=
  div_nonneg (Nat.cast_nonneg _) (by norm_num)

theorem initialSize_pos : 0 < initialSize options params direction := by
  have larger {size : Nat} (some' : 0 < size) :
      0 < if options.bwbucketminsize > 0 ∧ size < options.bwbucketminsize then
        options.bwbucketminsize else size := by
    split <;> omega
  apply larger
  unfold bucketSizeMin
  split_ifs <;> omega

@[simp] theorem setBucket_size (bucket : Nat) : (state.setBucket bucket direction).size other = state.size other := by
  cases direction <;> cases other <;> rfl

@[simp] theorem setBucket_bucket (bucket : Nat) :
    (state.setBucket bucket direction).bucket direction = bucket := by
  cases direction <;> rfl

theorem setBucket_other (bucket : Nat) (differ : other ≠ direction) :
    (state.setBucket bucket direction).bucket other = state.bucket other := by
  cases direction <;> cases other <;> first | rfl | exact absurd rfl differ

@[simp] theorem setBucket_lastBwTime (bucket : Nat) :
    (state.setBucket bucket direction).lastBwTime = state.lastBwTime := by
  cases direction <;> rfl

@[simp] theorem init_size : (leakyBucketInit options params state).size direction =
    initialSize options params direction := by
  cases direction <;> rfl

@[simp] theorem init_bucket : (leakyBucketInit options params state).bucket direction =
    state.bucket direction := by
  cases direction <;> rfl

/-- Both sizes are as they are first set, or neither is set. -/
def Sized (options : BwOptions) (params : BwParams) (state : BwState) : Prop :=
  (∀ direction, state.size direction = initialSize options params direction) ∨
    ∀ direction, state.size direction = 0

/-- One direction was charged as the bucket it is, if it has a rate. -/
structure Charged (options : BwOptions) (params : BwParams) (direction : Direction) (before : BwState)
    (offered : Bucket (initialSize options params direction) × Bool) (out : BwState × Bool) : Prop where
  sized : Sized options params out.1
  level : params.rate direction ≠ 0 → out.1.bucket direction = offered.1.level
  idle : params.rate direction = 0 → out.1.bucket direction = before.bucket direction
  accepted : out.2 = true ↔ (params.rate direction ≠ 0 → offered.2)
  other : ∀ other, other ≠ direction → out.1.bucket other = before.bucket other
  lastBwTime : out.1.lastBwTime = before.lastBwTime

theorem chargeBucket_offer {bucket : Bucket (initialSize options params direction)}
    (sized : Sized options params state)
    (level : params.rate direction ≠ 0 → state.bucket direction = bucket.level)
    (elapsed : timediff = now - bucket.since) :
    Charged options params direction state (bucket.offer (byteRate params direction) now octets)
      (chargeBucket options params timediff octets direction state) := by
  by_cases none' : params.rate direction = 0
  · rw [chargeBucket, if_neg (not_not.mpr none')]
    exact ⟨sized, fun some' => absurd none' some', fun _ => rfl, by simp [none'], fun _ _ => rfl, rfl⟩
  have drain : ⌊timediff * params.rate direction / 8⌋₊ =
      ⌊byteRate params direction * (now - bucket.since)⌋₊ := by
    rw [elapsed, byteRate]
    congr 1
    ring
  obtain ⟨set, same, sizes, buckets, last⟩ : ∃ set,
      (if state.size direction = 0 then leakyBucketInit options params state else state) = set ∧
        (∀ other, set.size other = initialSize options params other) ∧
        (∀ other, set.bucket other = state.bucket other) ∧ set.lastBwTime = state.lastBwTime := by
    refine ⟨_, rfl, ?_⟩
    rcases sized with ready | unset
    · have positive := @initialSize_pos options params direction
      rw [if_neg (by rw [ready direction]; omega)]
      exact ⟨ready, fun _ => rfl, rfl⟩
    · rw [if_pos (unset direction)]
      exact ⟨fun _ => init_size, fun _ => init_bucket, rfl⟩
  have left : (if state.bucket direction > ⌊timediff * params.rate direction / 8⌋₊ then
      state.bucket direction - ⌊timediff * params.rate direction / 8⌋₊ else 0) =
      bucket.drained (byteRate params direction) now := by
    rw [Bucket.drained, ← drain, ← level none']
    split <;> omega
  have others (level : Nat) : ∀ other, other ≠ direction →
      (set.setBucket level direction).bucket other = state.bucket other :=
    fun other differ => (setBucket_other level differ).trans (buckets other)
  simp only [chargeBucket, if_pos none', same, buckets, left, sizes direction, Bucket.offer]
  by_cases fits : bucket.drained (byteRate params direction) now + octets ≤
      initialSize options params direction
  · rw [dif_pos fits, if_neg (Nat.not_lt.mpr fits)]
    exact ⟨.inl (by simp [sizes]), by simp, fun idle => absurd idle none', by simp [none'], others _,
      by simp [last]⟩
  · rw [dif_neg fits, if_pos (Nat.lt_of_not_le fits)]
    exact ⟨.inl (by simp [sizes]), by simp, fun idle => absurd idle none', by simp [none'], others _,
      by simp [last]⟩

/-! ## Two buckets behind a session -/

/-- The session's two directions as buckets; one without a rate is never filled. -/
structure Represents (options : BwOptions) (params : BwParams) (state : BwState)
    (buckets : (direction : Direction) → Bucket (initialSize options params direction)) : Prop where
  sized : Sized options params state
  level : ∀ direction, params.rate direction ≠ 0 → state.bucket direction = (buckets direction).level
  idle : ∀ direction, params.rate direction = 0 → state.bucket direction = 0
  since : ∀ direction, (buckets direction).since = state.lastBwTime

variable {buckets : (direction : Direction) → Bucket (initialSize options params direction)}

def offerEach (params : BwParams) (now : ℚ) (octets : Direction → Nat)
    (buckets : (direction : Direction) → Bucket (initialSize options params direction)) :
    (direction : Direction) → Bucket (initialSize options params direction) :=
  fun direction => ((buckets direction).offer (byteRate params direction) now (octets direction)).1

/-- A direction after the other. -/
theorem leakyBucket_represents (octets : Direction → Nat)
    (represents : Represents options params state buckets) :
    Represents options params (leakyBucket options params now (octets .up) (octets .down) state).1
        (offerEach params now octets buckets) ∧
      ((leakyBucket options params now (octets .up) (octets .down) state).2 = true ↔
        ∀ direction, params.rate direction ≠ 0 →
          ((buckets direction).offer (byteRate params direction) now (octets direction)).2) := by
  have elapsed (direction : Direction) : now - state.lastBwTime = now - (buckets direction).since := by
    rw [represents.since]
  have up : Charged options params .up state
      ((buckets .up).offer (byteRate params .up) now (octets .up))
      (chargeBucket options params (now - state.lastBwTime) (octets .up) .up state) :=
    chargeBucket_offer represents.sized (represents.level .up) (elapsed .up)
  have between (some' : params.rate .down ≠ 0) :
      (chargeBucket options params (now - state.lastBwTime) (octets .up) .up state).1.bucket .down =
        (buckets .down).level := by
    rw [up.other .down (by simp), represents.level .down some']
  have down : Charged options params .down
      (chargeBucket options params (now - state.lastBwTime) (octets .up) .up state).1
      ((buckets .down).offer (byteRate params .down) now (octets .down))
      (chargeBucket options params (now - state.lastBwTime) (octets .down) .down
        (chargeBucket options params (now - state.lastBwTime) (octets .up) .up state).1) :=
    chargeBucket_offer up.sized between (elapsed .down)
  constructor
  · refine ⟨down.sized, ?_, ?_, fun direction => offer_since⟩
    · intro direction some'
      cases direction with
      | up => exact (down.other .up (by simp)).trans (up.level some')
      | down => exact down.level some'
    · intro direction none'
      have before := represents.idle direction none'
      cases direction with
      | up => exact ((down.other .up (by simp)).trans (up.idle none')).trans before
      | down => exact ((down.idle none').trans (up.other .down (by simp))).trans before
  · simp only [leakyBucket, Bool.and_eq_true, up.accepted, down.accepted]
    constructor
    · intro both direction
      cases direction with
      | up => exact both.1
      | down => exact both.2
    · intro all
      exact ⟨all .up, all .down⟩

/-! ## Runs -/

/-- What a direction's bucket is offered; the other direction's packets offer nothing. -/
def offersIn (direction : Direction) (packets : List Packet) : List (ℚ × Nat) :=
  packets.map fun packet => (packet.time, packet.octetsIn direction)

theorem passPacket_represents (represents : Represents options params state buckets) :
    Represents options params (passPacket options params state packet).1
        (offerEach params packet.time packet.octetsIn buckets) ∧
      ((passPacket options params state packet).2 = true ↔
        (params.rate packet.direction ≠ 0 →
          ((buckets packet.direction).offer (byteRate params packet.direction) packet.time
            packet.octets).2)) := by
  obtain ⟨after, accepted⟩ := @leakyBucket_represents options params state packet.time buckets
    packet.octetsIn represents
  refine ⟨after, accepted.trans ?_⟩
  constructor
  · intro all some'
    simpa [Packet.octetsIn] using all packet.direction some'
  · intro own direction some'
    by_cases same : packet.direction = direction
    · subst same
      simpa [Packet.octetsIn] using own some'
    · have fits : (buckets direction).drained (byteRate params direction) packet.time + 0 ≤
          initialSize options params direction := Bucket.drained_le
      rw [Packet.octetsIn, if_neg same, Bucket.offer, dif_pos fits]

theorem passPackets_represents (represents : Represents options params state buckets) :
    Represents options params (passPackets options params state packets) fun direction =>
      (buckets direction).run (byteRate params direction) (offersIn direction packets) := by
  induction packets generalizing state buckets with
  | nil => exact represents
  | cons packet rest ih => exact ih (passPacket_represents represents).1

/-- The packets of a direction, with their times. -/
def deliveredIn (direction : Direction) (packets : List Packet) : List (ℚ × Nat) :=
  (packets.filter (·.direction = direction)).map fun packet => (packet.time, packet.octets)

theorem acceptedPackets_represents (represents : Represents options params state buckets)
    (some' : params.rate direction ≠ 0) :
    (deliveredIn direction (acceptedPackets options params state packets)).filter (·.2 ≠ 0) =
      ((buckets direction).accepted (byteRate params direction) (offersIn direction packets)).filter
        (·.2 ≠ 0) := by
  induction packets generalizing state buckets with
  | nil => rfl
  | cons packet rest ih =>
      obtain ⟨after, accepted⟩ := @passPacket_represents options params state packet buckets represents
      have further := ih after
      rw [offerEach] at further
      have first : (deliveredIn direction
            (if (passPacket options params state packet).2 then [packet] else [])).filter (·.2 ≠ 0) =
          (if ((buckets direction).offer (byteRate params direction) packet.time
              (packet.octetsIn direction)).2 then
            [(packet.time, packet.octetsIn direction)] else []).filter (·.2 ≠ 0) := by
        by_cases own : packet.direction = direction
        · subst own
          have same := accepted.trans ⟨fun offered => offered some', fun offered _ => offered⟩
          rw [Packet.octetsIn, if_pos rfl]
          split
          · rename_i passed
            rw [if_pos (same.mp passed)]
            simp [deliveredIn]
          · rename_i dropped
            rw [if_neg fun offered => dropped (same.mpr offered)]
            rfl
        · rw [Packet.octetsIn, if_neg own]
          split <;> split <;> simp [deliveredIn, own]
      rw [acceptedPackets, offersIn, List.map_cons, Bucket.accepted, ← offersIn, List.filter_append,
        ← further, ← first, ← List.filter_append]
      simp [deliveredIn]

theorem lostBytes_represents (represents : Represents options params state buckets)
    (some' : params.rate direction ≠ 0) {lost : ℚ} :
    lostBytes options params direction state lost packets =
      (buckets direction).lost (byteRate params direction) lost (offersIn direction packets) := by
  induction packets generalizing state buckets lost with
  | nil => rfl
  | cons packet rest ih =>
      have after := (@passPacket_represents options params state packet buckets represents).1
      have drain : (packet.time - state.lastBwTime) * params.rate direction / 8 =
          byteRate params direction * (packet.time - (buckets direction).since) := by
        rw [represents.since, byteRate]
        ring
      have empty : (buckets direction).drained (byteRate params direction) packet.time = 0 ↔
          state.bucket direction ≤
            ⌊byteRate params direction * (packet.time - (buckets direction).since)⌋₊ := by
        rw [Bucket.drained, represents.level direction some']
        omega
      simp only [lostBytes, drain, offersIn, List.map_cons, Bucket.lost, empty]
      exact ih after

/-! ## Sessions from their start -/

/-- As after a reset; the time of the last packet stays. -/
structure Fresh (state : BwState) : Prop where
  buckets : ∀ direction, state.bucket direction = 0
  sizes : ∀ direction, state.size direction = 0

def emptyBuckets (options : BwOptions) (params : BwParams) (start : BwState) (direction : Direction) :
    Bucket (initialSize options params direction) :=
  ⟨0, start.lastBwTime, Nat.zero_le _⟩

theorem Fresh.represents {start : BwState} (fresh : Fresh start) :
    Represents options params start (emptyBuckets options params start) where
  sized := .inr fresh.sizes
  level direction _ := fresh.buckets direction
  idle direction _ := fresh.buckets direction
  since _ := rfl

/-- The clock does not go back. -/
def InOrder (start : BwState) (packets : List Packet) : Prop :=
  (start.lastBwTime :: packets.map Packet.time).Pairwise (· ≤ ·)

theorem InOrder.onward {start : BwState} (ordered : InOrder start packets) :
    Onward start.lastBwTime (offersIn direction packets) := by
  simpa only [InOrder, Onward, offersIn, List.map_map, Function.comp_def] using ordered

/-- One side of the comparison of two sessions. -/
theorem level_le {start start' : BwState} {packets' : List Packet} (fresh : Fresh start)
    (fresh' : Fresh start') (ordered : InOrder start packets) (ordered' : InOrder start' packets')
    (same : deliveredIn direction (acceptedPackets options params start packets) =
      deliveredIn direction (acceptedPackets options params start' packets'))
    (ends : (passPackets options params start packets).lastBwTime =
      (passPackets options params start' packets').lastBwTime)
    (few : lostBytes options params direction start 0 packets ≤ 1) :
    (passPackets options params start packets).bucket direction ≤
      (passPackets options params start' packets').bucket direction + 1 := by
  have first := @fresh.represents options params
  have second := @fresh'.represents options params
  have run := @passPackets_represents _ _ _ packets _ first
  have run' := @passPackets_represents _ _ _ packets' _ second
  by_cases some' : params.rate direction = 0
  · rw [run.idle direction some']
    exact Nat.zero_le _
  · rw [run.level direction some', run'.level direction some']
    apply run_close byteRate_nonneg ordered.onward ordered'.onward rfl rfl
    · rw [← acceptedPackets_represents first some', ← acceptedPackets_represents second some', same]
    · rw [run.since, run'.since, ends]
    · rw [← lostBytes_represents first some']
      exact few

def noOptions : BwOptions := ⟨0, 0, 0⟩

/-- 64 kbit/s up, 10 Mbit/s down. -/
def bothRates : BwParams := ⟨64000, 10000000⟩

def freshState : BwState := ⟨0, 0, 0, 0, 0⟩

/-- Two packets up, 13.2 ms apart. -/
def upload : List Packet := [⟨0, .up, 1000⟩, ⟨132 / 10000, .up, 1000⟩]

/-- A packet down each 1.2 ms between them. -/
def uploadBesideDownload : List Packet :=
  ⟨0, .up, 1000⟩ :: ((List.range' 1 10).map fun number => ⟨number * 12 / 10000, .down, 1500⟩) ++
    [⟨132 / 10000, .up, 1000⟩]

theorem freshState_fresh : Fresh freshState :=
  ⟨fun direction => by cases direction <;> rfl, fun direction => by cases direction <;> rfl⟩

end

end Rut9xx.Chilli
