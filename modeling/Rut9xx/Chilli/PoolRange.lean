import Rut9xx.Chilli.PoolConstruction
import Rut9xx.Chilli.Subnet
import Mathlib.Data.List.GetD

namespace Rut9xx.Chilli

open Rut9xx.Data

/-! # The addresses of the dynamic members

Addresses are counted from the base of the network.  The count is computed
first; the loop that fills the members steps over a listen address without
looking at the next one.
-/

def stepOver (u h cur : Nat) : Nat := if cur = u ∨ cur = h then cur + 1 else cur

/-- The addresses handed out from `cur` on, stepping over `u` and `h`. -/
def spread (u h : Nat) : Nat → Nat → List Nat
  | 0, _ => []
  | count + 1, cur => stepOver u h cur :: spread u h count (stepOver u h cur + 1)

theorem stepOver_bounds {u h cur : Nat} : cur ≤ stepOver u h cur ∧ stepOver u h cur ≤ cur + 1 := by
  rw [stepOver]
  split_ifs <;> omega

/-- How many of the listen addresses `low` and `high` are stepped over. -/
def passedOver (low high start count : Nat) : Nat :=
  if start ≤ low ∧ low < start + count then
    if low < high ∧ high ≤ start + count then 2 else 1
  else if start ≤ high ∧ high < start + count then 1 else 0

/-- No listen address behind the one stepped over, and the last address within bounds. -/
def Room (low high start count last : Nat) : Prop :=
  ¬(start ≤ low ∧ low < start + count ∧ high = low + 1) ∧
    start + count + passedOver low high start count ≤ last + 1

section Spread

variable {u h last count start : Nat}

@[simp] theorem spread_length : (spread u h count start).length = count := by
  induction count generalizing start with
  | zero => rfl
  | succ count ih => rw [spread, List.length_cons, ih]

theorem spread_iff : (∀ taken ∈ spread u h count start, taken ≤ last ∧ taken ≠ u ∧ taken ≠ h) ↔
    count = 0 ∨ Room (min u h) (max u h) start count last := by
  have ends : (min u h = u ∧ max u h = h ∨ min u h = h ∧ max u h = u) ∧ min u h ≤ max u h := by
    omega
  generalize min u h = low at *
  generalize max u h = high at *
  induction count generalizing start with
  | zero => simp [spread]
  | succ count ih =>
      have some' : ¬count + 1 = 0 := by omega
      simp only [spread, stepOver, List.forall_mem_cons, some', false_or]
      by_cases met : start = u ∨ start = h
      · simp only [if_pos met, ih, Room, passedOver]
        split_ifs <;> omega
      · simp only [if_neg met, ih, Room, passedOver]
        split_ifs <;> omega

theorem spread_bounds {taken : Nat} (member : taken ∈ spread u h count start) :
    start ≤ taken ∧ taken < start + 2 * count := by
  induction count generalizing start with
  | zero => cases member
  | succ count ih =>
      have next := @stepOver_bounds u h start
      rcases List.mem_cons.mp member with rfl | later
      · omega
      · have := ih later
        omega

theorem spread_sorted : (spread u h count start).Pairwise (· < ·) := by
  induction count generalizing start with
  | zero => exact List.Pairwise.nil
  | succ count ih =>
      refine List.Pairwise.cons (fun later member => ?_) ih
      have := spread_bounds member
      omega

end Spread

/-! ## What the fill loop stores -/

section Fill

variable {hash4 : UInt32 → UInt32} {config : PoolConfig} {heap : Nat → Bool}
  {base pool pool' : Ippool} {built low count : Nat} {addr start : UInt32}

def listenOffsets (config : PoolConfig) (addr : UInt32) : Nat × Nat :=
  ((config.uamlisten - addr).toNat, (config.dhcplisten - addr).toNat)

theorem add_ofNat_eq {other : UInt32} {offset : Nat} (small : offset < 2 ^ 32) :
    addr + UInt32.ofNat offset = other ↔ offset = (other - addr).toNat := by
  constructor
  · rintro rfl
    rw [UInt32.add_comm, UInt32.add_sub_cancel, UInt32.toNat_ofNat', Nat.mod_eq_of_lt small]
  · rintro rfl
    rw [UInt32.ofNat_toNat, UInt32.add_comm, UInt32.sub_add_cancel]

theorem dynAddr_spec {index : Nat} (small : index + start.toNat + 1 < 2 ^ 32) :
    let taken := stepOver (listenOffsets config addr).1 (listenOffsets config addr).2
      (index + start.toNat)
    (dynAddr config addr start index).1 = addr + UInt32.ofNat taken ∧
      index + 1 + (dynAddr config addr start index).2.toNat = taken + 1 := by
  have here : addr + UInt32.ofNat index + start = addr + UInt32.ofNat (index + start.toNat) := by
    rw [UInt32.ofNat_add, UInt32.ofNat_toNat, UInt32.add_assoc]
  have after : addr + UInt32.ofNat index + (start + 1) =
      addr + UInt32.ofNat (index + start.toNat + 1) := by
    rw [UInt32.ofNat_add, UInt32.ofNat_add, UInt32.ofNat_toNat, ← UInt32.add_assoc,
      ← UInt32.add_assoc, ← UInt32.add_assoc]
    rfl
  have bound : (start + 1).toNat = start.toNat + 1 := by
    have one : (1 : UInt32).toNat = 1 := rfl
    rw [UInt32.toNat_add, one, Nat.mod_eq_of_lt (by omega)]
  have met := @add_ofNat_eq addr config.uamlisten _ (Nat.lt_of_succ_lt small)
  have metToo := @add_ofNat_eq addr config.dhcplisten _ (Nat.lt_of_succ_lt small)
  simp only [dynAddr, here, after, met, metToo]
  by_cases listen : index + start.toNat = (config.uamlisten - addr).toNat ∨
      index + start.toNat = (config.dhcplisten - addr).toNat
  · rw [if_pos listen, stepOver, listenOffsets, if_pos listen]
    exact ⟨rfl, by simp only [bound]; omega⟩
  · rw [if_neg listen, stepOver, listenOffsets, if_neg listen]
    exact ⟨rfl, by simp only; omega⟩

/-- Linking a new member in changes no address but its own. -/
theorem hashadd_addr {naddr : UInt32} {next : Ippool}
    (added : ippoolHashadd hash4
      (pool.setDyn
        (enqueue (modify pool.member built fun node => { node with addr := naddr }) pool.dyn built).1
        (enqueue (modify pool.member built fun node => { node with addr := naddr }) pool.dyn built).2)
      built = some next) (index : Nat) :
    (next.member index).addr = if index = built then naddr else (pool.member index).addr := by
  obtain ⟨⟨previous, found⟩, -, rfl⟩ := Option.map_eq_some_iff.mp added
  have keeps : KeepsHash Ippoolm.addr := fun _ _ => rfl
  refine (congrFun keeps.setNexthash index).trans
    ((congrFun keepsFree_addr.enqueue index).trans ?_)
  by_cases same : index = built
  · rw [if_pos same, same, Function.comp_apply, modify_self]
  · rw [if_neg same, Function.comp_apply, modify_of_ne same]

/-- Member `built + j` gets the `j`-th address; the members before keep theirs. -/
theorem fillDyn_addr (filling : FillingDynamic hash4 base pool built)
    (small : built + start.toNat + 2 * count < 2 ^ 32)
    (filled : fillDyn hash4 config addr count built start pool = some pool') (index : Nat)
    (below : index < built + count) :
    (pool'.member index).addr =
      if index < built then (pool.member index).addr
      else addr + UInt32.ofNat ((spread (listenOffsets config addr).1 (listenOffsets config addr).2
        count (built + start.toNat)).getD (index - built) 0) := by
  induction count generalizing built start pool with
  | zero =>
      cases filled
      rw [if_pos (by omega)]
  | succ count ih =>
      simp only [fillDyn, Option.bind_eq_bind, Option.bind_eq_some_iff, require_eq_some,
        decide_eq_true_eq] at filled
      obtain ⟨-, inPool, next, added, filled⟩ := filled
      obtain ⟨next', added', filling'⟩ := filling.step inPool (dynAddr config addr start built).1
      obtain rfl := Option.some.inj (added.symm.trans added')
      obtain ⟨stored, moved⟩ := @dynAddr_spec config addr start built (by omega)
      have rest := ih filling' (by
        have := @stepOver_bounds (listenOffsets config addr).1 (listenOffsets config addr).2
          (built + start.toNat)
        omega) filled (by omega)
      rw [rest, hashadd_addr added index, moved, spread]
      rcases Nat.lt_trichotomy index built with before | here | behind
      · rw [if_pos (by omega), if_neg (by omega), if_pos before]
      · rw [if_pos (by omega), if_pos here, if_neg (by omega), stored, here, Nat.sub_self]
        rfl
      · rw [if_neg (by omega), if_neg (by omega)]
        obtain ⟨later, rfl⟩ := Nat.exists_eq_add_of_lt behind
        rw [show built + later + 1 - (built + 1) = later by omega,
          show built + later + 1 - built = later + 1 by omega]
        rfl

theorem fillStat_addr (index : Nat) :
    ((fillStat count built pool).member index).addr = (pool.member index).addr := by
  induction count generalizing built pool with
  | zero => rfl
  | succ count ih =>
      rw [fillStat, ih]
      refine (congrFun keepsFree_addr.enqueue index).trans
        (congrFun (modify_project ?_) index)
      exact fun _ => rfl

theorem fillStat_dynsize : (fillStat count built pool).dynsize = pool.dynsize := by
  induction count generalizing built pool with
  | zero => rfl
  | succ count ih =>
      rw [fillStat, ih]
      rfl

/-- As long as the members are there the loop over them completes. -/
theorem fillDyn_completes (filling : FillingDynamic hash4 base pool built)
    (room : built + count ≤ base.listsize.toNat) :
    ∃ pool', fillDyn hash4 config addr count built start pool = some pool' := by
  induction count generalizing built start pool with
  | zero => exact ⟨pool, rfl⟩
  | succ count ih =>
      have inPool : built < pool.listsize.toNat := by
        rw [filling.sizes.listsize]
        omega
      obtain ⟨next, added, filling'⟩ := filling.step inPool (dynAddr config addr start built).1
      obtain ⟨pool', filled⟩ := @ih _ _ (dynAddr config addr start built).2 filling' (by omega)
      refine ⟨pool', ?_⟩
      simp only [fillDyn, Option.bind_eq_bind, Option.bind_eq_some_iff, require_eq_some,
        decide_eq_true_eq]
      exact ⟨(), inPool, next, added, filled⟩

end Fill

/-! ## The size of the range -/

/-- `ippool_new` up to the computation of the size: the network, its mask and the start. -/
def checkedRange (config : PoolConfig) : Option (UInt32 × UInt32 × Int32) :=
  if config.allowdyn then do
    let (addr, mask) ← config.dyn
    let start := if config.start = 0 then (addr &&& ~~~mask).toInt32 else config.start
    let addr := addr &&& mask
    require ((addr + start.toUInt32) &&& mask == addr &&& mask)
    require ((addr + config.stop.toUInt32) &&& mask == addr &&& mask)
    return (addr, mask, start)
  else none

/-- The count in whole numbers, for a network of `hosts` addresses. -/
def exactCount (hosts start stop : Int) : Option Int :=
  if 0 < start ∧ 0 < stop then
    if stop < start ∨ hosts < stop - start then none else some (stop - start)
  else if 0 < start then some (hosts - start - 2)
  else if 0 < stop then some (min hosts stop - 2)
  else some (hosts - 3)

section Range

variable {config : PoolConfig} {addr mask size : UInt32} {start stop : Int32} {hosts : Nat}

theorem dynRange_eq (allow : config.allowdyn = true) : dynRange config =
    (checkedRange config).bind fun (addr, mask, start) =>
      (dynCount (~~~mask + 1) start config.stop).map fun dynsize => (addr, start, dynsize) := by
  simp only [dynRange, checkedRange, allow, if_true]
  cases config.dyn with
  | none => rfl
  | some network =>
      simp only [Option.bind_eq_bind, Option.bind_some, Option.bind_assoc]
      congr 1
      funext _
      congr 1
      funext _
      simp only [Option.pure_def, Option.bind_some, Option.map_eq_bind]
      rfl

theorem toUInt32_of_pos (positive : 0 < start) : (start.toUInt32.toNat : Int) = start.toInt := by
  have nonneg : 0 ≤ start := by
    rw [Int32.le_iff_toInt_le]
    rw [Int32.lt_iff_toInt_lt] at positive
    exact Int.le_of_lt positive
  rw [Int32.toNat_toUInt32_of_le nonneg, Int32.cast_toNatClampNeg _ nonneg]

/-- Where the size of the network fits a word, the machine's count is the exact one up to wrapping. -/
theorem dynCount_exact (sizeEq : size.toNat = hosts) :
    match exactCount hosts start.toInt stop.toInt with
    | none => dynCount size start stop = none
    | some exact => ∃ count, dynCount size start stop = some count ∧
        (count.toNat : Int) = exact % 2 ^ 32 := by
  have zero : (0 : Int32).toInt = 0 := rfl
  have one : (1 : UInt32).toNat = 1 := rfl
  have two : (2 : UInt32).toNat = 2 := rfl
  have sizeBound := size.toNat_lt
  have startBound := start.toInt_lt
  have stopBound := stop.toInt_lt
  by_cases fromStart : 0 < start
  · have startEq := toUInt32_of_pos fromStart
    have startPos := fromStart
    rw [Int32.lt_iff_toInt_lt, zero] at startPos
    by_cases toStop : 0 < stop
    · have stopEq := toUInt32_of_pos toStop
      have stopPos := toStop
      rw [Int32.lt_iff_toInt_lt, zero] at stopPos
      simp only [exactCount, startPos, stopPos, and_self, if_true, dynCount, gt_iff_lt, fromStart,
        toStop, Option.bind_eq_bind, Int32.lt_iff_toInt_lt, Int32.toUInt32_sub,
        UInt32.lt_iff_toNat_lt, UInt32.toNat_sub]
      by_cases backward : stop.toInt < start.toInt
      · rw [if_pos (.inl backward)]
        simp [backward, require]
      · have difference : (2 ^ 32 - start.toUInt32.toNat + stop.toUInt32.toNat) % 2 ^ 32 =
            stop.toUInt32.toNat - start.toUInt32.toNat := by omega
        rw [difference, sizeEq]
        by_cases many : (hosts : Int) < stop.toInt - start.toInt
        · have manyNat : hosts < stop.toUInt32.toNat - start.toUInt32.toNat := by omega
          rw [if_pos (.inr many)]
          simp [backward, manyNat, require]
        · have fewNat : ¬hosts < stop.toUInt32.toNat - start.toUInt32.toNat := by omega
          rw [if_neg (by omega)]
          refine ⟨(stop - start).toUInt32, by simp [backward, fewNat, require], ?_⟩
          rw [Int32.toUInt32_sub, UInt32.toNat_sub, difference]
          omega
    · have stopPos : ¬0 < stop.toInt := by
        rw [Int32.lt_iff_toInt_lt, zero] at toStop
        exact toStop
      simp only [exactCount, startPos, stopPos, and_false, if_false, if_true, dynCount, gt_iff_lt,
        fromStart, toStop]
      refine ⟨_, rfl, ?_⟩
      simp only [UInt32.toNat_sub, one, sizeEq]
      omega
  · have startPos : ¬0 < start.toInt := by
      rw [Int32.lt_iff_toInt_lt, zero] at fromStart
      exact fromStart
    by_cases toStop : 0 < stop
    · have stopEq := toUInt32_of_pos toStop
      have stopPos := toStop
      rw [Int32.lt_iff_toInt_lt, zero] at stopPos
      simp only [exactCount, startPos, stopPos, false_and, if_false, if_true, dynCount, gt_iff_lt,
        fromStart, toStop, UInt32.lt_iff_toNat_lt]
      refine ⟨_, rfl, ?_⟩
      rw [sizeEq]
      by_cases above : stop.toUInt32.toNat < hosts
      · simp only [if_pos above, UInt32.toNat_sub, one]
        omega
      · simp only [if_neg above, UInt32.toNat_sub, one, sizeEq]
        omega
    · have stopPos : ¬0 < stop.toInt := by
        rw [Int32.lt_iff_toInt_lt, zero] at toStop
        exact toStop
      simp only [exactCount, startPos, stopPos, and_false, if_false, dynCount, gt_iff_lt, fromStart,
        toStop]
      refine ⟨_, rfl, ?_⟩
      simp only [UInt32.toNat_sub, one, two, sizeEq]
      omega

theorem exactCount_lt {exact : Int} (found : exactCount hosts start.toInt stop.toInt = some exact)
    (small : hosts ≤ 2 ^ 31) : exact ≤ 2 ^ 31 := by
  have startBound := start.toInt_lt
  have stopBound := stop.toInt_lt
  unfold exactCount at found
  split_ifs at found <;> cases found <;> omega

end Range

/-! ## When the range is sound -/

def hostsOf (mask : UInt32) : Nat := 2 ^ 32 - mask.toNat

def firstOffset (start : Int32) : UInt32 := (if start ≤ 0 then (1 : Int32) else start).toUInt32

/-- An address of the network that is not its own, not the broadcast address and none of ours. -/
structure Usable (config : PoolConfig) (network mask member : UInt32) : Prop where
  inside : member &&& mask = network
  notNetwork : member ≠ network
  notBroadcast : member ≠ network + ~~~mask
  notUamlisten : member ≠ config.uamlisten
  notDhcplisten : member ≠ config.dhcplisten

/-- The size is computed without wrapping, and the members of a pool that is accepted have
distinct usable addresses. -/
structure RangeLaw (hash4 : UInt32 → UInt32) (config : PoolConfig) : Prop where
  exact : ∀ addr mask start, checkedRange config = some (addr, mask, start) →
    (~~~mask + 1).toNat = hostsOf mask ∧
      ∀ count, dynCount (~~~mask + 1) start config.stop = some count →
        exactCount (hostsOf mask) start.toInt config.stop.toInt = some (count.toNat : Int)
  members : ∀ heap pool, ippoolNew hash4 config heap = some pool →
    pool.DynamicDistinct ∧ ∀ index, index < pool.dynsize.toNat →
      ∃ net mask, config.dyn = some (net, mask) ∧
        Usable config (net &&& mask) mask (pool.member index).addr

/-- The tables of a pool with `count` dynamic members have a size that `calloc` can be asked for. -/
def Allocatable (config : PoolConfig) (count : Nat) : Prop :=
  ∃ stataddr statmask statsize, statRange config = some (stataddr, statmask, statsize) ∧
    let pool := emptyPool config stataddr statmask (UInt32.ofNat count) statsize
    sizeofIppoolm * pool.listsize.toNat < 2 ^ 32 ∧ sizeofPointer * pool.hashsize.toNat < 2 ^ 32

/-- The network is not the whole address space, the range leaves room for what is taken off
it, and the listen addresses it steps over are not neighbours and do not push it to the end. -/
def RangeFits (config : PoolConfig) : Prop :=
  ∀ addr mask start, checkedRange config = some (addr, mask, start) →
    hostsOf mask < 2 ^ 32 ∧
      ∀ count, exactCount (hostsOf mask) start.toInt config.stop.toInt = some count →
        0 ≤ count ∧ (Allocatable config count.toNat → count.toNat = 0 ∨
          Room (min (listenOffsets config addr).1 (listenOffsets config addr).2)
            (max (listenOffsets config addr).1 (listenOffsets config addr).2)
            (firstOffset start).toNat count.toNat (hostsOf mask - 2))

section Law

variable {hash4 : UInt32 → UInt32} {config : PoolConfig} {heap : Nat → Bool} {pool : Ippool}
  {addr mask dynsize : UInt32} {start : Int32}

theorem size_toNat (mask : UInt32) :
    (~~~mask + 1).toNat = hostsOf mask ↔ hostsOf mask < 2 ^ 32 := by
  have one : (1 : UInt32).toNat = 1 := rfl
  have bound := mask.toNat_lt
  rw [UInt32.toNat_add, not_mask_toNat, one, hostsOf]
  omega

theorem hostsOf_le (netmask : IsNetmask mask) (small : hostsOf mask < 2 ^ 32) :
    hostsOf mask ≤ 2 ^ 31 := by
  obtain ⟨bits, bound, value⟩ := netmask
  have positive : 0 < 2 ^ bits := Nat.pow_pos (by omega)
  have fits : 2 ^ bits ≤ 2 ^ 32 := Nat.pow_le_pow_right (by omega) bound
  have hosts : hostsOf mask = 2 ^ bits := by
    rw [hostsOf]
    omega
  rw [hosts] at small ⊢
  have below := (Nat.pow_lt_pow_iff_right (by omega : 1 < 2)).mp small
  exact Nat.pow_le_pow_right (by omega) (by omega)

theorem firstOffset_bounds : 1 ≤ (firstOffset start).toNat ∧ (firstOffset start).toNat < 2 ^ 31 := by
  rw [firstOffset]
  split_ifs with nonpos
  · decide
  · have positive : 0 < start := Int32.not_le.mp nonpos
    have same := toUInt32_of_pos positive
    have bound := start.toInt_lt
    rw [Int32.lt_iff_toInt_lt] at positive
    have zero : (0 : Int32).toInt = 0 := rfl
    omega

theorem usable_iff (netmask : IsNetmask mask) {network : UInt32} {taken : Nat}
    (base : network = addr &&& mask) (small : taken < 2 ^ 32) (positive : 1 ≤ taken) :
    Usable config network mask (network + UInt32.ofNat taken) ↔
      taken ≤ hostsOf mask - 2 ∧ taken ≠ (listenOffsets config network).1 ∧
        taken ≠ (listenOffsets config network).2 := by
  have value : (UInt32.ofNat taken).toNat = taken := by
    rw [UInt32.toNat_ofNat', Nat.mod_eq_of_lt small]
  have inside := @inSubnet_iff mask addr netmask (UInt32.ofNat taken)
  rw [← base, value] at inside
  have bound := mask.toNat_lt
  have network' := @add_ofNat_eq network network taken small
  have broadcast := @add_ofNat_eq network (network + ~~~mask) taken small
  have uam := @add_ofNat_eq network config.uamlisten taken small
  have dhcp := @add_ofNat_eq network config.dhcplisten taken small
  rw [UInt32.sub_self] at network'
  rw [UInt32.add_comm network (~~~mask), UInt32.add_sub_cancel, not_mask_toNat,
    UInt32.add_comm (~~~mask)] at broadcast
  have zero : (0 : UInt32).toNat = 0 := rfl
  constructor
  · rintro ⟨here, -, notBroadcast, notUam, notDhcp⟩
    have below := inside.mp here
    have notLast := mt broadcast.mpr notBroadcast
    exact ⟨by rw [hostsOf]; omega, mt uam.mpr notUam, mt dhcp.mpr notDhcp⟩
  · rintro ⟨below, notUam, notDhcp⟩
    rw [hostsOf] at below
    exact ⟨inside.mpr (by omega), mt network'.mp (by omega), mt broadcast.mp (by omega),
      mt uam.mp notUam, mt dhcp.mp notDhcp⟩

theorem statRange_le {stataddr statmask statsize : UInt32}
    (found : statRange config = some (stataddr, statmask, statsize)) : statsize.toNat ≤ 65536 := by
  rw [statRange] at found
  split_ifs at found
  · obtain ⟨network, -, same⟩ := Option.map_eq_some_iff.mp found
    cases same
    have limit : IPPOOL_STATSIZE.toNat = 65536 := rfl
    split_ifs with large
    · exact Nat.le_of_eq limit
    · rw [gt_iff_lt, UInt32.lt_iff_toNat_lt] at large
      omega
  · cases found
    exact Nat.zero_le _

/-- The members of an accepted pool have the addresses of the spread, if these fit a word. -/
theorem ippoolNew_addresses (range : dynRange config = some (addr, start, dynsize))
    (accepted : ippoolNew hash4 config heap = some pool) :
    pool.dynsize = dynsize ∧ Allocatable config dynsize.toNat ∧
      ∀ index, index < dynsize.toNat → (pool.member index).addr = addr + UInt32.ofNat
        ((spread (listenOffsets config addr).1 (listenOffsets config addr).2 dynsize.toNat
          (firstOffset start).toNat).getD index 0) := by
  simp only [ippoolNew, range, Option.bind_eq_bind, Option.bind_some, Option.bind_eq_some_iff,
    require_eq_some, calloc, Bool.and_eq_true, decide_eq_true_eq] at accepted
  obtain ⟨⟨stataddr, statmask, statsize⟩, stat, -, -, -, ⟨members, -⟩, -, ⟨table, -⟩, filled,
    filledDyn, final⟩ := accepted
  obtain rfl := Option.some.inj final
  obtain ⟨filling, bound⟩ := fillDyn_filling emptyPool_filling filledDyn
  have allocatable : Allocatable config dynsize.toNat := by
    refine ⟨stataddr, statmask, statsize, stat, ?_⟩
    rw [UInt32.ofNat_toNat]
    exact ⟨members, table⟩
  refine ⟨fillStat_dynsize.trans filling.sizes.dynsize, allocatable, fun index below => ?_⟩
  have few := bound (by omega)
  have first := @firstOffset_bounds start
  rw [sizeofIppoolm] at members
  have stored := fillDyn_addr emptyPool_filling (by
    change 0 + (firstOffset start).toNat + 2 * dynsize.toNat < 2 ^ 32
    omega) filledDyn index (by omega)
  rw [fillStat_addr, stored, if_neg (by omega), Nat.zero_add, Nat.sub_zero]
  rfl

theorem ippoolNew_completes {stataddr statmask statsize : UInt32}
    (range : dynRange config = some (addr, start, dynsize))
    (stat : statRange config = some (stataddr, statmask, statsize))
    (small : dynsize.toNat ≤ 2 ^ 31)
    (members : sizeofIppoolm *
      (emptyPool config stataddr statmask dynsize statsize).listsize.toNat < 2 ^ 32)
    (table : sizeofPointer *
      (emptyPool config stataddr statmask dynsize statsize).hashsize.toNat < 2 ^ 32) :
    ∃ pool, ippoolNew hash4 config (fun _ => true) = some pool := by
  have statBound := statRange_le stat
  have room : 0 + dynsize.toNat ≤
      (emptyPool config stataddr statmask dynsize statsize).listsize.toNat := by
    have sum : (emptyPool config stataddr statmask dynsize statsize).listsize =
        dynsize + statsize := rfl
    rw [sum, UInt32.toNat_add]
    omega
  obtain ⟨filled, filledDyn⟩ := @fillDyn_completes hash4 config _ _ 0 dynsize.toNat addr
    (firstOffset start) emptyPool_filling room
  refine ⟨fillStat (filled.listsize.toNat - dynsize.toNat) dynsize.toNat filled, ?_⟩
  simp only [ippoolNew, range, stat, Option.bind_eq_bind, Option.bind_some,
    Option.bind_eq_some_iff, require_eq_some, calloc, Bool.and_true, decide_eq_true_eq]
  exact ⟨(), by decide, (), members, (), table, filled, filledDyn, rfl⟩

theorem allocatable_le {stataddr statmask statsize count : UInt32}
    (stat : statRange config = some (stataddr, statmask, statsize))
    (members : sizeofIppoolm *
      (emptyPool config stataddr statmask count statsize).listsize.toNat < 2 ^ 32)
    (small : count.toNat ≤ 2 ^ 31) : count.toNat < 2 ^ 28 := by
  have statBound := statRange_le stat
  have sum : (emptyPool config stataddr statmask count statsize).listsize = count + statsize := rfl
  rw [sum, UInt32.toNat_add, sizeofIppoolm] at members
  omega

theorem checkedRange_network (checked : checkedRange config = some (addr, mask, start)) :
    config.allowdyn = true ∧ ∃ net, config.dyn = some (net, mask) ∧ addr = net &&& mask := by
  rw [checkedRange] at checked
  cases allow : config.allowdyn with
  | false =>
      rw [allow] at checked
      cases checked
  | true =>
      simp only [allow, if_true, Option.bind_eq_bind, Option.bind_eq_some_iff] at checked
      obtain ⟨⟨net, found⟩, parsed, -, -, -, -, done⟩ := checked
      cases done
      exact ⟨rfl, net, parsed, rfl⟩

/-- All members are usable exactly if the spread stays within the network and off the listen addresses. -/
theorem members_usable_iff (netmask : IsNetmask mask) {network : UInt32}
    (base : network = addr &&& mask) {count : Nat} {start : UInt32} (first : 1 ≤ start.toNat)
    (small : start.toNat + 2 * count < 2 ^ 32) :
    (∀ index, index < count → Usable config network mask (network + UInt32.ofNat
        ((spread (listenOffsets config network).1 (listenOffsets config network).2 count
          start.toNat).getD index 0))) ↔
      count = 0 ∨ Room (min (listenOffsets config network).1 (listenOffsets config network).2)
        (max (listenOffsets config network).1 (listenOffsets config network).2)
        start.toNat count (hostsOf mask - 2) := by
  rw [← spread_iff]
  constructor
  · intro usable taken member
    obtain ⟨index, below, rfl⟩ := List.getElem_of_mem member
    have bounds := spread_bounds member
    have here := usable index (by rw [spread_length] at below; exact below)
    rw [List.getD_eq_getElem _ _ below] at here
    exact (usable_iff netmask base (by omega) (by omega)).mp here
  · intro fits index below
    have inside : index < (spread (listenOffsets config network).1
        (listenOffsets config network).2 count start.toNat).length := by
      rw [spread_length]
      exact below
    rw [List.getD_eq_getElem _ _ inside]
    have member := List.getElem_mem inside
    have bounds := spread_bounds member
    exact (usable_iff netmask base (by omega) (by omega)).mpr (fits _ member)

theorem spread_injective {u h count start index other : Nat} (below : index < count)
    (otherBelow : other < count) (small : start + 2 * count < 2 ^ 32)
    (same : addr + UInt32.ofNat ((spread u h count start).getD index 0) =
      addr + UInt32.ofNat ((spread u h count start).getD other 0)) : index = other := by
  have inside : index < (spread u h count start).length := by rw [spread_length]; exact below
  have otherInside : other < (spread u h count start).length := by
    rw [spread_length]
    exact otherBelow
  rw [List.getD_eq_getElem _ _ inside, List.getD_eq_getElem _ _ otherInside] at same
  have bounds := spread_bounds (List.getElem_mem inside)
  have otherBounds := spread_bounds (List.getElem_mem otherInside)
  have words := add_left_cancel same
  have values := congrArg UInt32.toNat words
  rw [UInt32.toNat_ofNat', UInt32.toNat_ofNat', Nat.mod_eq_of_lt (by omega),
    Nat.mod_eq_of_lt (by omega)] at values
  have sorted := List.pairwise_iff_getElem.mp (@spread_sorted u h count start)
  rcases Nat.lt_trichotomy index other with before | here | behind
  · have := sorted _ _ inside otherInside before
    omega
  · exact here
  · have := sorted _ _ otherInside inside behind
    omega

/-- `ippool_new` computes the size without wrapping and gives every member of an accepted pool
an address of its own to hand out, exactly if the range fits. -/
theorem ippoolNew_range_iff {fields : List UInt32} (parsed : config.dyn = optionAton fields) :
    RangeLaw hash4 config ↔ RangeFits config := by
  have netmask : ∀ {net mask : UInt32}, config.dyn = some (net, mask) → IsNetmask mask :=
    fun network => optionAton_isNetmask (parsed.symm.trans network)
  constructor
  · intro law addr mask start checked
    obtain ⟨allow, net, network, base⟩ := checkedRange_network checked
    obtain ⟨size, machine⟩ := law.exact addr mask start checked
    have small := (size_toNat mask).mp size
    refine ⟨small, fun exact found => ?_⟩
    have counted := @dynCount_exact (~~~mask + 1) start config.stop _ size
    rw [found] at counted
    obtain ⟨count, computed, -⟩ := counted
    have same := (machine count computed).symm.trans found
    obtain rfl := Option.some.inj same
    refine ⟨Int.natCast_nonneg _, fun allocatable => ?_⟩
    rw [Int.toNat_natCast] at allocatable ⊢
    obtain ⟨stataddr, statmask, statsize, stat, members, table⟩ := allocatable
    rw [UInt32.ofNat_toNat] at members table
    have few := exactCount_lt found (hostsOf_le (netmask network) small)
    have range : dynRange config = some (addr, start, count) := by
      rw [dynRange_eq allow, checked, Option.bind_some]
      simp only [computed, Option.map_some]
    obtain ⟨pool, accepted⟩ := @ippoolNew_completes hash4 _ _ _ _ _ _ _ range stat (by omega)
      members table
    obtain ⟨dynsizeEq, -, addresses⟩ := ippoolNew_addresses range accepted
    obtain ⟨-, usable⟩ := law.members _ pool accepted
    have first := @firstOffset_bounds start
    refine (members_usable_iff (netmask network) base first.1 ?_).mp fun index below => ?_
    · have total := allocatable_le stat members (by omega)
      omega
    · obtain ⟨net', mask', network', here⟩ := usable index (by rw [dynsizeEq]; exact below)
      rw [network, Option.some.injEq, Prod.mk.injEq] at network'
      obtain ⟨rfl, rfl⟩ := network'
      rw [← base, addresses index below] at here
      exact here
  · intro fits
    refine ⟨fun addr mask start checked => ?_, fun heap pool accepted => ?_⟩
    · obtain ⟨small, counts⟩ := fits addr mask start checked
      obtain ⟨allow, net, network, base⟩ := checkedRange_network checked
      have size := (size_toNat mask).mpr small
      refine ⟨size, fun count computed => ?_⟩
      have counted := @dynCount_exact (~~~mask + 1) start config.stop _ size
      cases found : exactCount (hostsOf mask) start.toInt config.stop.toInt with
      | none =>
          rw [found] at counted
          exact absurd (counted.symm.trans computed) (by simp)
      | some exact =>
          rw [found] at counted
          obtain ⟨count', computed', value⟩ := counted
          obtain rfl := Option.some.inj (computed.symm.trans computed')
          have few := exactCount_lt found (hostsOf_le (netmask network) small)
          have nonneg := (counts exact found).1
          rw [value, Int.emod_eq_of_lt nonneg (by omega)]
    · cases range : dynRange config with
      | none =>
          rw [ippoolNew, range] at accepted
          cases accepted
      | some found =>
          obtain ⟨addr, start, dynsize⟩ := found
          obtain ⟨dynsizeEq, ⟨stataddr, statmask, statsize, stat, members, table⟩, addresses⟩ :=
            ippoolNew_addresses range accepted
          cases allow : config.allowdyn with
          | false =>
              simp only [dynRange, allow, Bool.false_eq_true, if_false, Option.some.injEq,
                Prod.mk.injEq] at range
              have empty : pool.dynsize.toNat = 0 := by
                rw [dynsizeEq, ← range.2.2]
                rfl
              exact ⟨fun index other below => by omega, fun index below => by omega⟩
          | true =>
              rw [dynRange_eq allow] at range
              obtain ⟨⟨network', mask, start'⟩, checked, counted⟩ := Option.bind_eq_some_iff.mp range
              obtain ⟨count, computed, same⟩ := Option.map_eq_some_iff.mp counted
              cases same
              obtain ⟨-, net, network, base⟩ := checkedRange_network checked
              obtain ⟨small, counts⟩ := fits _ _ _ checked
              have size := (size_toNat mask).mpr small
              have exact' := @dynCount_exact (~~~mask + 1) start config.stop _ size
              cases found : exactCount (hostsOf mask) start.toInt config.stop.toInt with
              | none =>
                  rw [found] at exact'
                  exact absurd (exact'.symm.trans computed) (by simp)
              | some exact =>
                  rw [found] at exact'
                  obtain ⟨dynsize', computed', value⟩ := exact'
                  obtain rfl := Option.some.inj (computed.symm.trans computed')
                  have few := exactCount_lt found (hostsOf_le (netmask network) small)
                  obtain ⟨nonneg, room⟩ := counts exact found
                  rw [Int.emod_eq_of_lt nonneg (by omega)] at value
                  have total := allocatable_le stat (by rw [UInt32.ofNat_toNat] at members; exact members)
                    (by omega)
                  have first := @firstOffset_bounds start
                  have bound : (firstOffset start).toNat + 2 * dynsize.toNat < 2 ^ 32 := by omega
                  rw [← value, Int.toNat_natCast] at room
                  have usable := (members_usable_iff (netmask network) base first.1 bound).mpr
                    (room ⟨stataddr, statmask, statsize, stat, members, table⟩)
                  refine ⟨fun index other below otherBelow same => ?_, fun index below => ?_⟩
                  · rw [dynsizeEq] at below otherBelow
                    rw [addresses index below, addresses other otherBelow] at same
                    exact spread_injective below otherBelow bound same
                  · rw [dynsizeEq] at below
                    refine ⟨net, mask, network, ?_⟩
                    rw [← base, addresses index below]
                    exact usable index below

end Law

/-- 192.168.182.0/29 from 1 to the last address; we listen at the first. -/
def tightConfig : PoolConfig where
  dyn := optionAton [192, 168, 182, 0, 29]
  start := 1
  stop := 7
  stat := none
  allowdyn := true
  allowstat := false
  uamlisten := 0xc0a8b601
  dhcplisten := 0xc0a8b601

theorem ippoolNew_range_iff_sample : RangeLaw id tightConfig ↔ RangeFits tightConfig :=
  @ippoolNew_range_iff id tightConfig [192, 168, 182, 0, 29] rfl

theorem tightConfig_last : (ippoolNew id tightConfig fun _ => true).map
    (fun pool => (pool.dynsize, (pool.member 5).addr)) = some (6, 0xc0a8b607) := by
  decide +kernel

/-- Stepping over the listen address hands out the broadcast address at the end. -/
theorem tightConfig_broadcast : ¬RangeLaw id tightConfig := by
  intro law
  obtain ⟨pool, accepted, last⟩ := Option.map_eq_some_iff.mp tightConfig_last
  rw [Prod.mk.injEq] at last
  obtain ⟨net, mask, network, usable⟩ := (law.members _ pool accepted).2 5 (by
    rw [last.1]
    decide)
  have parsed : tightConfig.dyn = some (0xc0a8b600, 0xfffffff8) := by decide
  rw [parsed, Option.some.injEq, Prod.mk.injEq] at network
  obtain ⟨rfl, rfl⟩ := network
  rw [last.2] at usable
  exact usable.notBroadcast (by decide)

end Rut9xx.Chilli
