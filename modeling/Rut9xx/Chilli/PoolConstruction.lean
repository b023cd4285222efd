import Rut9xx.Chilli.PoolInvariant

namespace Rut9xx.Chilli

open Rut9xx.Data

/-! # What `ippool_new` builds -/

variable {hash4 : UInt32 → UInt32} {config : PoolConfig} {heap : Nat → Bool}
  {base pool pool' : Ippool} {built low count : Nat} {addr start : UInt32}

/-- The parts of a pool that are settled before its members are filled in. -/
structure SameSizes (base pool : Ippool) : Prop where
  dynsize : pool.dynsize = base.dynsize
  listsize : pool.listsize = base.listsize
  hashsize : pool.hashsize = base.hashsize
  hashmask : pool.hashmask = base.hashmask

/-! ## The dynamic members -/

structure FillingDynamic (hash4 : UInt32 → UInt32) (base pool : Ippool) (built : Nat) : Prop where
  sizes : SameSizes base pool
  dynamic : ∃ free, FreeSection pool.member pool.dyn 0 built false free
  noStatic : pool.stat = ⟨none, none⟩
  table : ∃ chains, HashTable hash4 pool (· < built) chains
  blank : ∀ index, built ≤ index → pool.member index = {}

/-- One member of the dynamic loop: in the list and in the hash. -/
theorem FillingDynamic.step (filling : FillingDynamic hash4 base pool built)
    (inPool : built < pool.listsize.toNat) (naddr : UInt32) :
    ∃ next, ippoolHashadd hash4
        (pool.setDyn
          (enqueue (modify pool.member built fun node => { node with addr := naddr }) pool.dyn built).1
          (enqueue (modify pool.member built fun node => { node with addr := naddr }) pool.dyn built).2)
        built = some next ∧ FillingDynamic hash4 base next (built + 1) := by
  obtain ⟨free, dynamic⟩ := filling.dynamic
  obtain ⟨chains, table⟩ := filling.table
  generalize memberEq : modify pool.member built (fun node => { node with addr := naddr }) = member
  have atOthers : ∀ other, other ≠ built → member other = pool.member other := by
    intro other apart
    rw [← memberEq, modify_of_ne apart]
  have atBuilt : member built = { addr := naddr } := by
    rw [← memberEq, modify_self, filling.blank built (Nat.le_refl _)]
  have before : FreeSection member pool.dyn 0 built false free := by
    refine dynamic.congr fun other _ below => ?_
    rw [atOthers other (by omega)]
    exact ⟨rfl, rfl, rfl, rfl⟩
  have new : built ∉ free := fun there => by
    have := ((dynamic.mem built).mp there).2.1
    omega
  have after : FreeSection (enqueue member pool.dyn built).1 (enqueue member pool.dyn built).2 0
      (built + 1) false (free ++ [built]) := by
    refine before.give new (by rw [atBuilt]) (Nat.zero_le _) (fun other => by omega) ⟨rfl, rfl⟩
      (fun other _ => ⟨congrFun keepsFree_inUse.enqueue other,
        congrFun keepsFree_isStatic.enqueue other⟩) ⟨?_, ?_⟩
    · exact (congrFun keepsFree_inUse.enqueue built).trans (congrArg Ippoolm.inUse atBuilt)
    · exact (congrFun keepsFree_isStatic.enqueue built).trans (congrArg Ippoolm.isStatic atBuilt)
  have tableBefore : HashTable hash4 (pool.setDyn (enqueue member pool.dyn built).1
      (enqueue member pool.dyn built).2) (· < built) chains := by
    refine table.congr ⟨rfl, rfl, rfl⟩ (fun other below => ⟨?_, ?_⟩) fun _ => Iff.rfl
    · exact (congrFun keepsFree_nexthash.enqueue other).trans
        (congrArg Ippoolm.nexthash (atOthers other (by omega)))
    · exact (congrFun keepsFree_addr.enqueue other).trans
        (congrArg Ippoolm.addr (atOthers other (by omega)))
  obtain ⟨previous, added, own, chains', tableAfter⟩ := tableBefore.hashadd (Nat.lt_irrefl built)
    ((congrFun keepsFree_nexthash.enqueue built).trans (congrArg Ippoolm.nexthash atBuilt)) inPool
  refine ⟨_, added, ⟨filling.sizes.1, filling.sizes.2, filling.sizes.3, filling.sizes.4⟩,
    ⟨free ++ [built], after.setNexthash⟩, filling.noStatic, ⟨chains', tableAfter.congr
      ⟨rfl, rfl, rfl⟩ (fun _ _ => ⟨rfl, rfl⟩) fun other => by omega⟩, fun other above => ?_⟩
  have notPrevious : previous ≠ some other := fun last => by
    have := own other last
    omega
  have notFree : other ∉ free := fun there => by
    have := ((dynamic.mem other).mp there).2.1
    omega
  calc (setNexthash (pool.setDyn (enqueue member pool.dyn built).1 _) _ previous _).member other
      = (enqueue member pool.dyn built).1 other := modifyLink_of_ne notPrevious
    _ = member other := before.enqueue_frame notFree (by omega)
    _ = {} := (atOthers other (by omega)).trans (filling.blank other (by omega))

theorem fillDyn_filling (filling : FillingDynamic hash4 base pool built)
    (filled : fillDyn hash4 config addr count built start pool = some pool') :
    FillingDynamic hash4 base pool' (built + count) ∧
      (0 < count → built + count ≤ base.listsize.toNat) := by
  induction count generalizing built start pool with
  | zero =>
      obtain rfl := Option.some.inj filled
      exact ⟨filling, by omega⟩
  | succ count ih =>
      simp only [fillDyn, Option.bind_eq_bind, Option.bind_eq_some_iff, require_eq_some,
        decide_eq_true_eq] at filled
      obtain ⟨-, inPool, next, added, filled⟩ := filled
      obtain ⟨next', added', filling'⟩ := filling.step inPool (dynAddr config addr start built).1
      obtain rfl := Option.some.inj (added.symm.trans added')
      obtain ⟨done, bound⟩ := ih filling' filled
      rw [filling.sizes.listsize] at inPool
      refine ⟨?_, fun _ => ?_⟩
      · rw [Nat.add_right_comm] at done
        exact done
      · rcases Nat.eq_zero_or_pos count with rfl | more
        · omega
        · have := bound more
          omega

/-! ## The static members -/

structure FillingStatic (hash4 : UInt32 → UInt32) (base pool : Ippool) (low built : Nat) :
    Prop where
  sizes : SameSizes base pool
  dynamic : ∃ free, FreeSection pool.member pool.dyn 0 low false free
  static : ∃ free, FreeSection pool.member pool.stat low built true free
  table : ∃ chains, HashTable hash4 pool (· < low) chains
  fresh : ∀ index, low ≤ index →
    (pool.member index).inUse = false ∧ (pool.member index).nexthash = none
  blank : ∀ index, built ≤ index → pool.member index = {}

theorem FillingDynamic.toStatic (filling : FillingDynamic hash4 base pool low) :
    FillingStatic hash4 base pool low low where
  sizes := filling.sizes
  dynamic := filling.dynamic
  static := by
    rw [filling.noStatic]
    exact ⟨[], ⟨rfl, rfl⟩, by simp; omega, by omega, by omega⟩
  table := filling.table
  fresh index above := by
    rw [filling.blank index above]
    exact ⟨rfl, rfl⟩
  blank := filling.blank

theorem FillingStatic.step (filling : FillingStatic hash4 base pool low built)
    (above : low ≤ built) :
    FillingStatic hash4 base
      (pool.setStat
        (enqueue (modify pool.member built fun node => { node with isStatic := true }) pool.stat
          built).1
        (enqueue (modify pool.member built fun node => { node with isStatic := true }) pool.stat
          built).2) low (built + 1) := by
  obtain ⟨freeDyn, dynamic⟩ := filling.dynamic
  obtain ⟨free, static⟩ := filling.static
  obtain ⟨chains, table⟩ := filling.table
  generalize memberEq : modify pool.member built (fun node => { node with isStatic := true }) =
    member
  have atOthers : ∀ other, other ≠ built → member other = pool.member other := by
    intro other apart
    rw [← memberEq, modify_of_ne apart]
  have atBuilt : member built = { isStatic := true } := by
    rw [← memberEq, modify_self, filling.blank built (Nat.le_refl _)]
  have before : FreeSection member pool.stat low built true free := by
    refine static.congr fun other _ below => ?_
    rw [atOthers other (by omega)]
    exact ⟨rfl, rfl, rfl, rfl⟩
  have outside : ∀ other, other < low ∨ built ≤ other → other ∉ free := by
    intro other apart there
    have := (static.mem other).mp there
    omega
  have frame : ∀ other, other < low ∨ built < other →
      (enqueue member pool.stat built).1 other = pool.member other := by
    intro other apart
    rw [before.enqueue_frame (outside other (by omega)) (by omega), atOthers other (by omega)]
  have fresh : ∀ other, low ≤ other → (member other).inUse = false ∧
      (member other).nexthash = none := by
    intro other inside
    by_cases same : other = built
    · rw [same, atBuilt]
      exact ⟨rfl, rfl⟩
    · rw [atOthers other same]
      exact filling.fresh other inside
  refine ⟨⟨filling.sizes.1, filling.sizes.2, filling.sizes.3, filling.sizes.4⟩,
    ⟨freeDyn, dynamic.congr fun other _ below => ?_⟩, ⟨free ++ [built], ?_⟩,
    ⟨chains, table.congr ⟨rfl, rfl, rfl⟩ (fun other below => ?_) fun _ => Iff.rfl⟩,
    fun other inside => ?_, fun other beyond => ?_⟩
  · simp only [Ippool.setStat, frame other (.inl below), and_self]
  · refine before.give (outside built (.inr (Nat.le_refl _))) (by rw [atBuilt]) above
      (fun other => by omega) ⟨rfl, rfl⟩
      (fun other _ => ⟨congrFun keepsFree_inUse.enqueue other,
        congrFun keepsFree_isStatic.enqueue other⟩) ⟨?_, ?_⟩
    · exact (congrFun keepsFree_inUse.enqueue built).trans (congrArg Ippoolm.inUse atBuilt)
    · exact (congrFun keepsFree_isStatic.enqueue built).trans (congrArg Ippoolm.isStatic atBuilt)
  · simp only [Ippool.setStat, frame other (.inl below), and_self]
  · exact ⟨(congrFun keepsFree_inUse.enqueue other).trans (fresh other inside).1,
      (congrFun keepsFree_nexthash.enqueue other).trans (fresh other inside).2⟩
  · exact (frame other (.inr (by omega))).trans (filling.blank other (by omega))

theorem fillStat_filling (filling : FillingStatic hash4 base pool low built) (above : low ≤ built) :
    FillingStatic hash4 base (fillStat count built pool) low (built + count) := by
  induction count generalizing built pool with
  | zero => exact filling
  | succ count ih =>
      have done := ih (filling.step above) (by omega)
      rw [Nat.add_right_comm] at done
      exact done

/-! ## The pool -/

theorem emptyPool_filling {stataddr statmask dynsize statsize : UInt32} :
    FillingDynamic hash4 (emptyPool config stataddr statmask dynsize statsize)
      (emptyPool config stataddr statmask dynsize statsize) 0 where
  sizes := ⟨rfl, rfl, rfl, rfl⟩
  dynamic := ⟨[], ⟨rfl, rfl⟩, by simp, by omega, by omega⟩
  noStatic := rfl
  table := ⟨fun _ => [], fun _ => rfl, by simp, by omega⟩
  blank _ _ := rfl

theorem slot_lt_of_mask (mask : pool.hashmask = pool.hashsize - 1) (some' : pool.hashsize ≠ 0)
    (addr : UInt32) : slot hash4 pool addr < pool.hashsize := by
  have positive : 0 < pool.hashsize.toNat := by
    rcases Nat.eq_zero_or_pos pool.hashsize.toNat with zero | positive
    · exact absurd (UInt32.toNat_inj.mp zero) some'
    · exact positive
  have below : (slot hash4 pool addr).toNat ≤ pool.hashmask.toNat := by
    rw [slot, UInt32.toNat_and]
    exact Nat.and_le_right
  rw [mask, UInt32.toNat_sub_of_le _ _ (by rw [UInt32.le_iff_toNat_le]; exact positive)] at below
  rw [UInt32.lt_iff_toNat_lt]
  have one : (1 : UInt32).toNat = 1 := rfl
  omega

theorem one_shiftLeft_ne_zero (amount : UInt32) : (1 : UInt32) <<< amount ≠ 0 := by
  intro zero
  have value := congrArg UInt32.toNat zero
  rw [UInt32.toNat_shiftLeft] at value
  have small : amount.toNat % 32 < 32 := Nat.mod_lt _ (by omega)
  have fits : 2 ^ (amount.toNat % 32) < 2 ^ 32 := Nat.pow_lt_pow_right (by omega) small
  have positive : 0 < 2 ^ (amount.toNat % 32) := Nat.pow_pos (by omega)
  simp only [UInt32.reduceToNat, Nat.one_shiftLeft, Nat.mod_eq_of_lt fits] at value
  omega

def Ippool.DynamicDistinct (pool : Ippool) : Prop :=
  ∀ index other, index < pool.dynsize.toNat → other < pool.dynsize.toNat →
    (pool.member index).addr = (pool.member other).addr → index = other

/-- In a pool just built no static member is in use, so the dynamic ones are all that is hashed. -/
theorem FillingStatic.wellFormed
    (filling : FillingStatic hash4 base pool base.dynsize.toNat base.listsize.toNat)
    (ordered : base.dynsize.toNat ≤ base.listsize.toNat)
    (slots : ∀ addr, slot hash4 pool addr < pool.hashsize) (distinct : pool.DynamicDistinct) :
    WellFormed hash4 pool := by
  obtain ⟨chains, table⟩ := filling.table
  have hashed : ∀ other, pool.Hashed other ↔ other < base.dynsize.toNat := by
    intro other
    rw [Ippool.Hashed, filling.sizes.dynsize, filling.sizes.listsize]
    constructor
    · rintro ⟨-, isDynamic | used⟩
      · exact isDynamic
      · by_cases isStatic : base.dynsize.toNat ≤ other
        · rw [(filling.fresh other isStatic).1] at used
          cases used
        · exact Nat.not_le.mp isStatic
    · intro below
      exact ⟨Nat.lt_of_lt_of_le below ordered, .inl below⟩
  have dynamic := filling.dynamic
  have static := filling.static
  rw [← filling.sizes.dynsize] at dynamic
  rw [← filling.sizes.dynsize, ← filling.sizes.listsize] at static
  refine ⟨?_, slots, dynamic, static, ⟨chains, table.congr ⟨rfl, rfl, rfl⟩
    (fun _ _ => ⟨rfl, rfl⟩) hashed⟩, fun other _ notHashed => ?_,
    fun one other oneHashed otherHashed same => ?_⟩
  · rw [filling.sizes.dynsize, filling.sizes.listsize]
    exact ordered
  · exact (filling.fresh other (Nat.not_lt.mp fun below => notHashed ((hashed other).mpr below))).2
  · rw [hashed, ← filling.sizes.dynsize] at oneHashed otherHashed
    exact distinct one other oneHashed otherHashed same

theorem ippoolNew_wellFormed (accepted : ippoolNew hash4 config heap = some pool)
    (distinct : pool.DynamicDistinct) : WellFormed hash4 pool := by
  simp only [ippoolNew, Option.bind_eq_bind, Option.bind_eq_some_iff, require_eq_some] at accepted
  obtain ⟨⟨addr, start, dynsize⟩, -, ⟨stataddr, statmask, statsize⟩, -, -, -, -, -, -, -, filled,
    filledDyn, final⟩ := accepted
  obtain rfl := Option.some.inj final
  obtain ⟨filling, bound⟩ := fillDyn_filling emptyPool_filling filledDyn
  dsimp only at filling bound distinct ⊢
  rw [Nat.zero_add] at filling bound
  have ordered : dynsize.toNat ≤ (dynsize + statsize).toNat := by
    rcases Nat.eq_zero_or_pos dynsize.toNat with zero | positive
    · omega
    · exact bound positive
  have listsize : filled.listsize = dynsize + statsize := filling.sizes.listsize
  have done : FillingStatic hash4 (emptyPool config stataddr statmask dynsize statsize)
      (fillStat (filled.listsize.toNat - dynsize.toNat) dynsize.toNat filled) dynsize.toNat
      (dynsize.toNat + (filled.listsize.toNat - dynsize.toNat)) :=
    fillStat_filling filling.toStatic (Nat.le_refl _)
  rw [listsize] at done distinct ⊢
  rw [Nat.add_sub_cancel' ordered] at done
  refine done.wellFormed ordered (slot_lt_of_mask ?_ ?_) distinct
  · rw [done.sizes.hashmask, done.sizes.hashsize]
    rfl
  · rw [done.sizes.hashsize]
    exact one_shiftLeft_ne_zero _

end Rut9xx.Chilli
