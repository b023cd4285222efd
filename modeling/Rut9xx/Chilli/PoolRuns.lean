import Rut9xx.Chilli.PoolConstruction

namespace Rut9xx.Chilli

open Rut9xx.Data

/-! # Every run of the pool keeps the invariant -/

variable {hash4 : UInt32 → UInt32} {config : PoolConfig} {heap : Nat → Bool}
  {pool : Ippool} {addr : UInt32} {statip : Bool} {index p2 : Nat}

/-! ## One call -/

theorem takeDynamic_failed (failed : (takeDynamic pool p2).2 = none) :
    (takeDynamic pool p2).1 = pool := by
  unfold takeDynamic at failed ⊢
  split
  · rfl
  · split
    · rfl
    · simp [*] at failed

theorem takeFirstDynamic_failed (failed : (takeFirstDynamic pool).2 = none) :
    (takeFirstDynamic pool).1 = pool := by
  unfold takeFirstDynamic at failed ⊢
  cases first : pool.firstdyn with
  | none => rfl
  | some p2 =>
      rw [first] at failed
      exact takeDynamic_failed failed

theorem findRequested_spec (good : WellFormed hash4 pool) (addr : UInt32) :
    ∃ found, findRequested hash4 pool addr = some found ∧
      ∀ index, found = some index ↔ pool.Hashed index ∧ (pool.member index).addr = addr := by
  obtain ⟨chains, table⟩ := good.table
  let accepts := fun index => (pool.member index).addr == addr
  have hasAddr : ∀ index, accepts index = true → (pool.member index).addr = addr :=
    fun index accepted => eq_of_beq accepted
  obtain ⟨found, searched, exactly⟩ := table.search
    (fun one other oneHashed otherHashed oneHas otherHas =>
      good.distinct one other oneHashed otherHashed
        ((hasAddr one oneHas).trans (hasAddr other otherHas).symm)) hasAddr
  refine ⟨found, searched, fun index => ?_⟩
  rw [exactly, beq_iff_eq]

theorem ippoolGetip_spec (good : WellFormed hash4 pool) (addr : UInt32) :
    ∃ found, ippoolGetip hash4 pool addr = some found ∧
      ∀ index, found = some index ↔ pool.Hashed index ∧ (pool.member index).addr = addr ∧
        (pool.member index).inUse = true := by
  obtain ⟨chains, table⟩ := good.table
  let accepts := fun index => (pool.member index).addr == addr && (pool.member index).inUse
  have hasAddr : ∀ index, accepts index = true → (pool.member index).addr = addr := by
    intro index accepted
    exact eq_of_beq (Bool.and_eq_true_iff.mp accepted).1
  obtain ⟨found, searched, exactly⟩ := table.search
    (fun one other oneHashed otherHashed oneHas otherHas =>
      good.distinct one other oneHashed otherHashed
        ((hasAddr one oneHas).trans (hasAddr other otherHas).symm)) hasAddr
  refine ⟨found, searched, fun index => ?_⟩
  rw [exactly, Bool.and_eq_true, beq_iff_eq]

/-- A member the search found is handed out, or refused with the pool as it was. -/
theorem serveFound_wellFormed (good : WellFormed hash4 pool) (hashed : pool.Hashed index) :
    ∃ reply, serve hash4 false pool addr statip (some index) = some reply ∧
      WellFormed hash4 reply.1 ∧ (reply.2 = none → reply.1 = pool) := by
  simp only [serve, Bool.and_false, Bool.false_and, Bool.false_eq_true, if_false]
  split
  · exact ⟨_, rfl, takeFirstDynamic_wellFormed good, takeFirstDynamic_failed⟩
  · refine ⟨_, rfl, ?_, takeDynamic_failed⟩
    rcases hashed.2 with isDynamic | used
    · exact takeDynamic_wellFormed good isDynamic
    · rw [takeDynamic, if_pos used]
      exact good

theorem serveNone_wellFormed (good : WellFormed hash4 pool)
    (fresh : addr ≠ 0 → ∀ index, pool.Hashed index → (pool.member index).addr ≠ addr) :
    ∃ reply, serve hash4 false pool addr statip none = some reply ∧
      WellFormed hash4 reply.1 ∧ (reply.2 = none → reply.1 = pool) := by
  simp only [serve]
  split
  · exact ⟨_, rfl, takeFirstDynamic_wellFormed good, takeFirstDynamic_failed⟩
  · split
    · rename_i given
      exact takeStatic_wellFormed good (fresh (by simpa using given))
    · exact ⟨_, rfl, good, fun _ => rfl⟩

theorem ippoolNewip_wellFormed (good : WellFormed hash4 pool) (addr : UInt32) (statip : Bool) :
    ∃ reply, ippoolNewip hash4 false pool addr statip = some reply ∧
      WellFormed hash4 reply.1 ∧ (reply.2 = none → reply.1 = pool) := by
  unfold ippoolNewip
  split
  · by_cases given : addr = 0
    · rw [if_neg (by simp [given]), Option.bind_some]
      exact serveNone_wellFormed good fun nonzero => absurd given nonzero
    · obtain ⟨found, searched, exactly⟩ := findRequested_spec good addr
      rw [if_pos (by simp [given]), searched, Option.bind_some]
      cases found with
      | none =>
          refine serveNone_wellFormed good fun _ index hashed has => ?_
          exact absurd ((exactly index).mpr ⟨hashed, has⟩) (by simp)
      | some index => exact serveFound_wellFormed good ((exactly index).mp rfl).1
  · exact ⟨_, rfl, good, fun _ => rfl⟩

theorem ippoolFreeip_wellFormed (good : WellFormed hash4 pool)
    (inPool : index < pool.listsize.toNat) :
    ∃ reply, ippoolFreeip hash4 pool index = some reply ∧
      WellFormed hash4 reply.1 ∧ (reply.2 = false → reply.1 = pool) := by
  obtain ⟨freeDyn, dynamic⟩ := good.dynamic
  obtain ⟨freeStat, static⟩ := good.static
  unfold ippoolFreeip
  by_cases used : (pool.member index).inUse = true
  · rw [if_neg (by simp [used])]
    by_cases isDynamic : index < pool.dynsize.toNat
    · rw [if_neg (by simp [dynamic.own index (Nat.zero_le _) isDynamic])]
      exact ⟨_, rfl, releaseDynamic_wellFormed good used isDynamic, fun failed => by cases failed⟩
    · have above := Nat.not_lt.mp isDynamic
      obtain ⟨unchained, deleted, goodAfter⟩ := releaseStatic_wellFormed good used above inPool
      rw [if_pos (static.own index above inPool), deleted]
      exact ⟨_, rfl, goodAfter, fun failed => by cases failed⟩
  · rw [if_pos (by simpa using used)]
    exact ⟨_, rfl, good, fun _ => rfl⟩

/-! ## Runs -/

inductive Call where
  | newip (addr : UInt32) (statip : Bool)
  | freeip (index : Nat)

/-- The pool after a call, and whether the call succeeded; `uamanyip` is off. -/
def perform (hash4 : UInt32 → UInt32) (pool : Ippool) : Call → Option (Ippool × Bool)
  | .newip addr statip =>
      (ippoolNewip hash4 false pool addr statip).map fun reply => (reply.1, reply.2.isSome)
  | .freeip index => ippoolFreeip hash4 pool index

def runCalls (hash4 : UInt32 → UInt32) (pool : Ippool) (calls : List Call) : Option Ippool :=
  run (fun state call => (perform hash4 state call).map Prod.fst) pool calls

/-- The pointer given to `ippool_freeip` is to one of the members. -/
def Call.OfPool (pool : Ippool) : Call → Prop
  | .newip _ _ => True
  | .freeip index => index < pool.listsize.toNat

theorem takeDynamic_listsize : (takeDynamic pool p2).1.listsize = pool.listsize := by
  unfold takeDynamic
  split
  · rfl
  · split <;> rfl

theorem takeFirstDynamic_listsize : (takeFirstDynamic pool).1.listsize = pool.listsize := by
  unfold takeFirstDynamic
  cases pool.firstdyn with
  | none => rfl
  | some p2 => exact takeDynamic_listsize

theorem takeStatic_listsize {reply : Ippool × Option Nat}
    (taken : takeStatic hash4 pool addr = some reply) : reply.1.listsize = pool.listsize := by
  unfold takeStatic at taken
  split at taken
  · cases taken
    rfl
  · split at taken
    · cases taken
      rfl
    · split at taken
      · cases taken
        rfl
      · simp only [ippoolHashadd, Option.map_map, Option.map_eq_some_iff] at taken
        obtain ⟨-, -, rfl⟩ := taken
        rfl

theorem serve_listsize {found : Option Nat} {reply : Ippool × Option Nat}
    (served : serve hash4 false pool addr statip found = some reply) :
    reply.1.listsize = pool.listsize := by
  cases found with
  | some index =>
      simp only [serve, Bool.and_false, Bool.false_and, Bool.false_eq_true, if_false] at served
      split at served
      · obtain rfl := Option.some.inj served
        exact takeFirstDynamic_listsize
      · obtain rfl := Option.some.inj served
        exact takeDynamic_listsize
  | none =>
      simp only [serve] at served
      split at served
      · obtain rfl := Option.some.inj served
        exact takeFirstDynamic_listsize
      · split at served
        · exact takeStatic_listsize served
        · obtain rfl := Option.some.inj served
          rfl

theorem ippoolNewip_listsize {reply : Ippool × Option Nat}
    (called : ippoolNewip hash4 false pool addr statip = some reply) :
    reply.1.listsize = pool.listsize := by
  unfold ippoolNewip at called
  split at called
  · obtain ⟨found, -, served⟩ := Option.bind_eq_some_iff.mp called
    exact serve_listsize served
  · obtain rfl := Option.some.inj called
    rfl

theorem ippoolFreeip_listsize {reply : Ippool × Bool}
    (called : ippoolFreeip hash4 pool index = some reply) :
    reply.1.listsize = pool.listsize := by
  unfold ippoolFreeip at called
  split at called
  · obtain rfl := Option.some.inj called
    rfl
  · split at called
    · obtain ⟨deleted, deletes, rfl⟩ := Option.map_eq_some_iff.mp called
      simp only [ippoolHashdel, Option.map_eq_some_iff] at deletes
      obtain ⟨⟨previous, found⟩, -, rfl⟩ := deletes
      cases found <;> rfl
    · obtain rfl := Option.some.inj called
      rfl

theorem perform_listsize {call : Call} {reply : Ippool × Bool}
    (performed : perform hash4 pool call = some reply) : reply.1.listsize = pool.listsize := by
  cases call with
  | newip addr statip =>
      obtain ⟨granted, called, rfl⟩ := Option.map_eq_some_iff.mp performed
      exact ippoolNewip_listsize called
  | freeip index => exact ippoolFreeip_listsize performed

/-- The invariant of the pool, in the terms of its users. -/
structure PoolInvariant (hash4 : UInt32 → UInt32) (pool : Ippool) : Prop where
  freeLists : ∃ freeDyn freeStat,
    DoublyLinked (nextOf pool.member) (prevOf pool.member) pool.firstdyn pool.lastdyn freeDyn ∧
    DoublyLinked (nextOf pool.member) (prevOf pool.member) pool.firststat pool.laststat freeStat ∧
    (∀ index, index ∈ freeDyn ↔
      index < pool.dynsize.toNat ∧ (pool.member index).inUse = false) ∧
    (∀ index, index ∈ freeStat ↔ pool.dynsize.toNat ≤ index ∧ index < pool.listsize.toNat ∧
      (pool.member index).inUse = false) ∧
    freeDyn.Disjoint freeStat ∧
    ∀ index, (pool.member index).inUse = true → index ∉ freeDyn ∧ index ∉ freeStat
  sections : ∀ index, index < pool.listsize.toNat →
    (pool.member index).isStatic = decide (pool.dynsize.toNat ≤ index)
  usedDistinct : ∀ index other, index < pool.listsize.toNat → other < pool.listsize.toNat →
    (pool.member index).inUse = true → (pool.member other).inUse = true →
    (pool.member index).addr = (pool.member other).addr → index = other
  finds : ∀ addr, ∃ found, findRequested hash4 pool addr = some found ∧
    ∀ index, found = some index ↔ index < pool.listsize.toNat ∧
      (index < pool.dynsize.toNat ∨ (pool.member index).inUse = true) ∧
      (pool.member index).addr = addr
  findsUsed : ∀ addr, ∃ found, ippoolGetip hash4 pool addr = some found ∧
    ∀ index, found = some index ↔ index < pool.listsize.toNat ∧
      (pool.member index).inUse = true ∧ (pool.member index).addr = addr
  inBounds : ∀ addr, slot hash4 pool addr < pool.hashsize

theorem WellFormed.poolInvariant (good : WellFormed hash4 pool) : PoolInvariant hash4 pool where
  freeLists := by
    obtain ⟨freeDyn, dynamic⟩ := good.dynamic
    obtain ⟨freeStat, static⟩ := good.static
    refine ⟨freeDyn, freeStat, dynamic.linked, static.linked, fun index => ?_, static.mem, ?_, ?_⟩
    · rw [dynamic.mem]
      exact and_iff_right (Nat.zero_le _)
    · intro index inDyn inStat
      have below := ((dynamic.mem index).mp inDyn).2.1
      have above := ((static.mem index).mp inStat).1
      omega
    · intro index used
      constructor
      · intro there
        rw [((dynamic.mem index).mp there).2.2] at used
        cases used
      · intro there
        rw [((static.mem index).mp there).2.2] at used
        cases used
  sections index inPool := by
    obtain ⟨freeDyn, dynamic⟩ := good.dynamic
    obtain ⟨freeStat, static⟩ := good.static
    by_cases isDynamic : index < pool.dynsize.toNat
    · rw [dynamic.own index (Nat.zero_le _) isDynamic, decide_eq_false (by omega)]
    · rw [static.own index (by omega) inPool, decide_eq_true (by omega)]
  usedDistinct index other inPool otherInPool used otherUsed same :=
    good.distinct index other ⟨inPool, .inr used⟩ ⟨otherInPool, .inr otherUsed⟩ same
  finds addr := by
    obtain ⟨found, searched, exactly⟩ := findRequested_spec good addr
    refine ⟨found, searched, fun index => ?_⟩
    rw [exactly, Ippool.Hashed, and_assoc]
  findsUsed addr := by
    obtain ⟨found, searched, exactly⟩ := ippoolGetip_spec good addr
    refine ⟨found, searched, fun index => ?_⟩
    rw [exactly, Ippool.Hashed]
    tauto
  inBounds := good.slots

theorem perform_wellFormed (good : WellFormed hash4 pool) (call : Call) (ofPool : call.OfPool pool) :
    ∃ reply, perform hash4 pool call = some reply ∧ WellFormed hash4 reply.1 ∧
      (reply.2 = false → reply.1 = pool) := by
  cases call with
  | newip addr statip =>
      obtain ⟨reply, called, goodAfter, failed⟩ := ippoolNewip_wellFormed good addr statip
      refine ⟨(reply.1, reply.2.isSome), ?_, goodAfter, fun refused => failed ?_⟩
      · rw [perform, called]
        rfl
      · simpa using refused
  | freeip index => exact ippoolFreeip_wellFormed good ofPool

/-- Any calls on an accepted pool come back, keep the invariant, and change nothing when they fail. -/
theorem ippool_invariant (heap : Nat → Bool) (config : PoolConfig) (pool : Ippool)
    (accepted : ippoolNew hash4 config heap = some pool) (distinct : pool.DynamicDistinct)
    (calls : List Call) (ofPool : ∀ call ∈ calls, call.OfPool pool) :
    ∃ final, runCalls hash4 pool calls = some final ∧ PoolInvariant hash4 final ∧
      ∀ call : Call, call.OfPool pool → ∃ reply, perform hash4 final call = some reply ∧
        (reply.2 = false → reply.1 = final) := by
  have sized : ∀ {state : Ippool} {call : Call}, state.listsize = pool.listsize →
      call.OfPool pool → call.OfPool state := by
    intro state call same inPool
    cases call with
    | newip addr statip => trivial
    | freeip index =>
        rw [Call.OfPool, same]
        exact inPool
  have preserved : ∀ (state : Ippool) (call : Call),
      WellFormed hash4 state ∧ state.listsize = pool.listsize → call.OfPool pool →
      ∃ next, (perform hash4 state call).map Prod.fst = some next ∧
        WellFormed hash4 next ∧ next.listsize = pool.listsize := by
    rintro state call ⟨good, same⟩ inPool
    obtain ⟨reply, performed, goodAfter, -⟩ := perform_wellFormed good call (sized same inPool)
    refine ⟨reply.1, ?_, goodAfter, (perform_listsize performed).trans same⟩
    rw [performed]
    rfl
  obtain ⟨final, ran, good, same⟩ := run_invariant
    (fun state => WellFormed hash4 state ∧ state.listsize = pool.listsize)
    (Call.OfPool pool) ⟨ippoolNew_wellFormed accepted distinct, rfl⟩ ofPool preserved
  refine ⟨final, ran, good.poolInvariant, fun call inPool => ?_⟩
  obtain ⟨reply, performed, -, unchanged⟩ := perform_wellFormed good call (sized same inPool)
  exact ⟨reply, performed, unchanged⟩

/-- Two dynamic members behind the listen address of 10.1.0.0/30, four static ones. -/
def sampleConfig : PoolConfig where
  dyn := some (0x0a010000, 0xfffffffc)
  start := 1
  stop := 3
  stat := some (0x0a010100, 0xfffffffc)
  allowdyn := true
  allowstat := true
  uamlisten := 0x0a010001
  dhcplisten := 0x0a010001

theorem ippool_invariant_sample :
    ∃ pool final, ippoolNew id sampleConfig (fun _ => true) = some pool ∧
      runCalls id pool [.newip 0 false, .newip 0x0a010101 true, .freeip 0] = some final ∧
      PoolInvariant id final := by
  have sound : ∀ pool ∈ ippoolNew id sampleConfig fun _ => true,
      0 < pool.listsize.toNat ∧ ∀ index < pool.dynsize.toNat, ∀ other < pool.dynsize.toNat,
        (pool.member index).addr = (pool.member other).addr → index = other := by
    decide +kernel
  have accepted : (ippoolNew id sampleConfig fun _ => true).isSome = true := by decide +kernel
  obtain ⟨pool, built⟩ := Option.isSome_iff_exists.mp accepted
  obtain ⟨nonempty, distinct⟩ := sound pool built
  obtain ⟨final, ran, good, -⟩ := ippool_invariant (fun _ => true) sampleConfig pool built
    (fun index other below otherBelow => distinct index below other otherBelow)
    [.newip 0 false, .newip 0x0a010101 true, .freeip 0] fun call member => by
      simp only [List.mem_cons, List.not_mem_nil, or_false] at member
      rcases member with rfl | rfl | rfl
      · trivial
      · trivial
      · exact nonempty
  exact ⟨pool, final, built, ran, good⟩

end Rut9xx.Chilli
