import Rut9xx.Chilli.HashTable

namespace Rut9xx.Chilli

open Rut9xx.Data

/-! # The pool invariant -/

variable {hash4 : UInt32 → UInt32} {pool : Ippool} {addr : UInt32} {index p2 : Nat}

/-- The members an address search can meet: all dynamic ones and the static ones in use. -/
def Ippool.Hashed (pool : Ippool) (index : Nat) : Prop :=
  index < pool.listsize.toNat ∧
    (index < pool.dynsize.toNat ∨ (pool.member index).inUse = true)

structure WellFormed (hash4 : UInt32 → UInt32) (pool : Ippool) : Prop where
  sizes : pool.dynsize.toNat ≤ pool.listsize.toNat
  slots : ∀ addr, slot hash4 pool addr < pool.hashsize
  dynamic : ∃ free, FreeSection pool.member pool.dyn 0 pool.dynsize.toNat false free
  static : ∃ free,
    FreeSection pool.member pool.stat pool.dynsize.toNat pool.listsize.toNat true free
  table : ∃ chains, HashTable hash4 pool pool.Hashed chains
  unhashed : ∀ index, index < pool.listsize.toNat → ¬pool.Hashed index →
    (pool.member index).nexthash = none
  distinct : ∀ index other, pool.Hashed index → pool.Hashed other →
    (pool.member index).addr = (pool.member other).addr → index = other

theorem keepsFree_addr : KeepsFree Ippoolm.addr := fun _ _ _ => rfl

theorem keepsFree_nexthash : KeepsFree Ippoolm.nexthash := fun _ _ _ => rfl

theorem keepsFree_inUse : KeepsFree Ippoolm.inUse := fun _ _ _ => rfl

theorem keepsFree_isStatic : KeepsFree Ippoolm.isStatic := fun _ _ _ => rfl

theorem KeepsFree.unlink_same {α : Type} {project : Ippoolm → α} {member : Nat → Ippoolm}
    {ends : Ends} (keeps : KeepsFree project)
    (keepsUse : ∀ node used, project { node with inUse := used } = project node) (other : Nat) :
    project ((Chilli.unlink member ends index).1 other) = project (member other) := by
  have whole : project ∘ (Chilli.unlink member ends index).1 =
      Function.update (project ∘ member) index (project { member index with inUse := true }) :=
    keeps.unlink
  rw [keepsUse] at whole
  exact (congrFun whole other).trans (congrFun (Function.update_eq_self index _) other)

/-! ## Handing out a dynamic member -/

theorem takeDynamic_wellFormed (good : WellFormed hash4 pool) (below : p2 < pool.dynsize.toNat) :
    WellFormed hash4 (takeDynamic pool p2).1 := by
  obtain ⟨freeDyn, dynamic⟩ := good.dynamic
  obtain ⟨freeStat, static⟩ := good.static
  obtain ⟨chains, table⟩ := good.table
  simp only [takeDynamic]
  split
  · exact good
  · split
    · exact good
    · rename_i unused _
      have inside : p2 ∈ freeDyn :=
        (dynamic.mem p2).mpr ⟨Nat.zero_le _, below, Bool.not_eq_true _ ▸ unused⟩
      have sameAddr : ∀ other, ((unlink pool.member pool.dyn p2).1 other).addr =
          (pool.member other).addr := keepsFree_addr.unlink_same fun _ _ => rfl
      have sameLink : ∀ other, ((unlink pool.member pool.dyn p2).1 other).nexthash =
          (pool.member other).nexthash := keepsFree_nexthash.unlink_same fun _ _ => rfl
      have sameHashed : ∀ other,
          (pool.setDyn (unlink pool.member pool.dyn p2).1
            (unlink pool.member pool.dyn p2).2).Hashed other ↔ pool.Hashed other := by
        intro other
        simp only [Ippool.Hashed, Ippool.setDyn]
        rw [unlink_used_iff]
        refine and_congr_right fun _ => ?_
        constructor
        · rintro (isDynamic | rfl | used)
          · exact .inl isDynamic
          · exact .inl below
          · exact .inr used
        · rintro (isDynamic | used)
          · exact .inl isDynamic
          · exact .inr (.inr used)
      refine ⟨good.sizes, good.slots, dynamic.take inside, ⟨freeStat, static.congr ?_⟩,
        ⟨chains, table.congr ⟨rfl, rfl, rfl⟩ (fun other _ => ⟨sameLink other, sameAddr other⟩)
          sameHashed⟩, ?_, ?_⟩
      · intro other above _
        have outside : other ∉ freeDyn := fun there => by
          have := ((dynamic.mem other).mp there).2.1
          omega
        simp only [Ippool.setDyn, dynamic.unlink_frame inside outside, and_self]
      · intro other inPool notHashed
        exact (sameLink other).trans
          (good.unhashed other inPool fun hashed => notHashed ((sameHashed other).mpr hashed))
      · intro one other oneHashed otherHashed same
        exact good.distinct one other ((sameHashed one).mp oneHashed)
          ((sameHashed other).mp otherHashed)
          ((sameAddr one).symm.trans (same.trans (sameAddr other)))

theorem takeFirstDynamic_wellFormed (good : WellFormed hash4 pool) :
    WellFormed hash4 (takeFirstDynamic pool).1 := by
  unfold takeFirstDynamic
  cases first : pool.firstdyn with
  | none => exact good
  | some p2 =>
      obtain ⟨free, dynamic⟩ := good.dynamic
      have inside : p2 ∈ free := List.mem_of_head? (dynamic.linked.forward.start_eq.symm.trans first)
      exact takeDynamic_wellFormed good ((dynamic.mem p2).mp inside).2.1

/-! ## Handing out a static member -/

section Assign

variable {other : Nat}

theorem assign_keeps {α : Type} (project : Ippoolm → α)
    (keeps : ∀ node, project { node with addr := addr } = project node) (other : Nat) :
    project ((assign pool addr p2).member other) =
      project ((unlink pool.member pool.stat p2).1 other) :=
  modify_keeps project keeps other

theorem assign_nexthash :
    ((assign pool addr p2).member other).nexthash = (pool.member other).nexthash :=
  (assign_keeps Ippoolm.nexthash (fun _ => rfl) other).trans
    (keepsFree_nexthash.unlink_same (fun _ _ => rfl) other)

theorem assign_inUse_iff :
    ((assign pool addr p2).member other).inUse = true ↔
      other = p2 ∨ (pool.member other).inUse = true := by
  rw [assign_keeps Ippoolm.inUse (fun _ => rfl) other]
  exact unlink_used_iff

theorem assign_addr_self : ((assign pool addr p2).member p2).addr = addr := by
  simp only [assign, Ippool.setStat, modify_self]

theorem assign_addr_of_ne (apart : other ≠ p2) :
    ((assign pool addr p2).member other).addr = (pool.member other).addr := by
  simp only [assign, Ippool.setStat, modify_of_ne apart]
  exact keepsFree_addr.unlink_same (fun _ _ => rfl) other

theorem assign_of_ne (apart : other ≠ p2) :
    (assign pool addr p2).member other = (unlink pool.member pool.stat p2).1 other := by
  simp only [assign, Ippool.setStat, modify_of_ne apart]

theorem assign_hashed (inPool : p2 < pool.listsize.toNat) :
    (assign pool addr p2).Hashed other ↔ pool.Hashed other ∨ other = p2 := by
  simp only [Ippool.Hashed, assign_inUse_iff]
  constructor
  · rintro ⟨below, isDynamic | rfl | used⟩
    · exact .inl ⟨below, .inl isDynamic⟩
    · exact .inr rfl
    · exact .inl ⟨below, .inr used⟩
  · rintro (⟨below, isDynamic | used⟩ | rfl)
    · exact ⟨below, .inl isDynamic⟩
    · exact ⟨below, .inr (.inr used)⟩
    · exact ⟨inPool, .inr (.inl rfl)⟩

end Assign

theorem FreeSection.assign {low high : Nat} {free : List Nat}
    (sec : FreeSection pool.member pool.stat low high true free) (inside : p2 ∈ free) :
    ∃ free', FreeSection (assign pool addr p2).member (assign pool addr p2).stat low high true
      free' := by
  obtain ⟨free', taken⟩ := sec.take inside
  refine ⟨free', taken.congr fun other _ _ => ⟨?_, ?_, ?_, ?_⟩⟩
  · exact assign_keeps Ippoolm.next (fun _ => rfl) other
  · exact assign_keeps Ippoolm.prev (fun _ => rfl) other
  · exact assign_keeps Ippoolm.inUse (fun _ => rfl) other
  · exact assign_keeps Ippoolm.isStatic (fun _ => rfl) other

theorem FreeSection.setNexthash {ends : Ends} {low high : Nat} {static : Bool} {free : List Nat}
    {key : UInt32} {previous target : Option Nat}
    (sec : FreeSection pool.member ends low high static free) :
    FreeSection (setNexthash pool key previous target).member ends low high static free := by
  have next : KeepsHash Ippoolm.next := fun _ _ => rfl
  have prev : KeepsHash Ippoolm.prev := fun _ _ => rfl
  have inUse : KeepsHash Ippoolm.inUse := fun _ _ => rfl
  have isStatic : KeepsHash Ippoolm.isStatic := fun _ _ => rfl
  exact sec.congr fun other _ _ => ⟨congrFun next.setNexthash other,
    congrFun prev.setNexthash other, congrFun inUse.setNexthash other,
    congrFun isStatic.setNexthash other⟩

theorem setNexthash_hashed {key : UInt32} {previous target : Option Nat} {other : Nat} :
    (setNexthash pool key previous target).Hashed other ↔ pool.Hashed other := by
  have inUse : KeepsHash Ippoolm.inUse := fun _ _ => rfl
  have same : ((setNexthash pool key previous target).member other).inUse =
      (pool.member other).inUse := congrFun inUse.setNexthash other
  simp only [Ippool.Hashed, same]
  exact Iff.rfl

theorem setNexthash_addr {key : UInt32} {previous target : Option Nat} {other : Nat} :
    ((setNexthash pool key previous target).member other).addr = (pool.member other).addr := by
  have keeps : KeepsHash Ippoolm.addr := fun _ _ => rfl
  exact congrFun keeps.setNexthash other

theorem takeStatic_wellFormed (good : WellFormed hash4 pool)
    (fresh : ∀ index, pool.Hashed index → (pool.member index).addr ≠ addr) :
    ∃ reply, takeStatic hash4 pool addr = some reply ∧ WellFormed hash4 reply.1 ∧
      (reply.2 = none → reply.1 = pool) := by
  obtain ⟨freeDyn, dynamic⟩ := good.dynamic
  obtain ⟨freeStat, static⟩ := good.static
  obtain ⟨chains, table⟩ := good.table
  unfold takeStatic
  cases first : pool.firststat with
  | none => exact ⟨_, rfl, good, fun _ => rfl⟩
  | some p2 =>
      have inside : p2 ∈ freeStat :=
        List.mem_of_head? (static.linked.forward.start_eq.symm.trans first)
      obtain ⟨above, inPool, unused⟩ := (static.mem p2).mp inside
      have isStatic := static.own p2 above inPool
      have new : ¬pool.Hashed p2 := by
        rintro ⟨-, isDynamic | isUsed⟩
        · omega
        · rw [unused] at isUsed
          cases isUsed
      have tableBefore : HashTable hash4 (assign pool addr p2) pool.Hashed chains := by
        refine table.congr ⟨rfl, rfl, rfl⟩
          (fun other hashed => ⟨assign_nexthash, assign_addr_of_ne ?_⟩) fun _ => Iff.rfl
        rintro rfl
        exact new hashed
      obtain ⟨previous, added, own, chains', tableAfter⟩ := tableBefore.hashadd new
        (assign_nexthash.trans (good.unhashed p2 inPool new)) inPool
      dsimp only
      rw [if_neg (by simp [unused]), if_neg (by simp [isStatic]), added]
      refine ⟨_, rfl, ?_, fun failed => by cases failed⟩
      generalize slot hash4 (assign pool addr p2) _ = key at tableAfter ⊢
      have hashed : ∀ other,
          (setNexthash (assign pool addr p2) key previous (some p2)).Hashed other ↔
            pool.Hashed other ∨ other = p2 := fun other =>
        setNexthash_hashed.trans (assign_hashed inPool)
      refine ⟨good.sizes, good.slots, ⟨freeDyn, (dynamic.congr fun other _ below => ?_).setNexthash⟩,
        ?_, ⟨chains', tableAfter.congr ⟨rfl, rfl, rfl⟩ (fun _ _ => ⟨rfl, rfl⟩) hashed⟩, ?_, ?_⟩
      · have outside : other ∉ freeStat := fun there => by
          have := ((static.mem other).mp there).1
          omega
        have apart : other ≠ p2 := fun same => outside (same ▸ inside)
        have same : (assign pool addr p2).member other = pool.member other :=
          (assign_of_ne apart).trans (static.unlink_frame inside outside)
        rw [same]
        exact ⟨rfl, rfl, rfl, rfl⟩
      · obtain ⟨free', taken⟩ := static.assign inside
        exact ⟨free', taken.setNexthash⟩
      · intro other below notHashed
        have notOld : ¬pool.Hashed other := fun old => notHashed ((hashed other).mpr (.inl old))
        rw [setNexthash_nexthash fun last => notOld (own other last), assign_nexthash]
        exact good.unhashed other below notOld
      · intro one other oneHashed otherHashed same
        rw [setNexthash_addr, setNexthash_addr] at same
        rcases (hashed one).mp oneHashed with oneOld | rfl <;>
          rcases (hashed other).mp otherHashed with otherOld | rfl
        · have oneApart : one ≠ p2 := fun same => new (same ▸ oneOld)
          have otherApart : other ≠ p2 := fun same => new (same ▸ otherOld)
          rw [assign_addr_of_ne oneApart, assign_addr_of_ne otherApart] at same
          exact good.distinct one other oneOld otherOld same
        · have oneApart : one ≠ other := fun same => new (same ▸ oneOld)
          rw [assign_addr_of_ne oneApart, assign_addr_self] at same
          exact absurd same (fresh one oneOld)
        · have otherApart : other ≠ one := fun same => new (same ▸ otherOld)
          rw [assign_addr_of_ne otherApart, assign_addr_self] at same
          exact absurd same.symm (fresh other otherOld)
        · rfl

/-! ## Taking members back -/

theorem releaseDynamic_keeps {α : Type} {project : Ippoolm → α} (keepsFree : KeepsFree project)
    (keeps : ∀ node, project { node with inUse := false, peer := none } = project node)
    (other : Nat) :
    project ((releaseDynamic pool index).member other) = project (pool.member other) :=
  (modify_keeps project keeps other).trans (congrFun keepsFree.enqueue other)

theorem releaseDynamic_wellFormed (good : WellFormed hash4 pool)
    (used : (pool.member index).inUse = true) (below : index < pool.dynsize.toNat) :
    WellFormed hash4 (releaseDynamic pool index) := by
  obtain ⟨freeDyn, dynamic⟩ := good.dynamic
  obtain ⟨freeStat, static⟩ := good.static
  obtain ⟨chains, table⟩ := good.table
  have sameAddr : ∀ other, ((releaseDynamic pool index).member other).addr =
      (pool.member other).addr := releaseDynamic_keeps keepsFree_addr fun _ => rfl
  have sameLink : ∀ other, ((releaseDynamic pool index).member other).nexthash =
      (pool.member other).nexthash := releaseDynamic_keeps keepsFree_nexthash fun _ => rfl
  have sameUse : ∀ other, other ≠ index → ((releaseDynamic pool index).member other).inUse =
      (pool.member other).inUse := by
    intro other apart
    simp only [releaseDynamic, Ippool.setDyn, modify_of_ne apart]
    exact congrFun keepsFree_inUse.enqueue other
  have hashed : ∀ other, (releaseDynamic pool index).Hashed other ↔ pool.Hashed other := by
    intro other
    by_cases same : other = index
    · subst same
      have inPool := Nat.lt_of_lt_of_le below good.sizes
      exact iff_of_true ⟨inPool, .inl below⟩ ⟨inPool, .inl below⟩
    · simp only [Ippool.Hashed, sameUse other same]
      exact Iff.rfl
  refine ⟨good.sizes, good.slots, ⟨freeDyn ++ [index], ?_⟩,
    ⟨freeStat, static.congr fun other above _ => ?_⟩,
    ⟨chains, table.congr ⟨rfl, rfl, rfl⟩ (fun other _ => ⟨sameLink other, sameAddr other⟩) hashed⟩,
    fun other inPool notHashed => ?_, fun one other oneHashed otherHashed same => ?_⟩
  · simp only [releaseDynamic, Ippool.setDyn, Ippool.dyn]
    refine dynamic.giveBack (Nat.zero_le _) below used ?_ ?_ ?_ ?_ <;> exact fun _ => rfl
  · have apart : other ≠ index := by omega
    have notFree : other ∉ freeDyn := fun there => by
      have := ((dynamic.mem other).mp there).2.1
      omega
    simp only [releaseDynamic, Ippool.setDyn, modify_of_ne apart,
      dynamic.enqueue_frame notFree apart, and_self]
  · rw [sameLink]
    exact good.unhashed other inPool fun old => notHashed ((hashed other).mpr old)
  · rw [sameAddr, sameAddr] at same
    exact good.distinct one other ((hashed one).mp oneHashed) ((hashed other).mp otherHashed) same

theorem releaseStatic_of_ne {other : Nat} (apart : other ≠ index) :
    (releaseStatic pool index).member other = (enqueue pool.member pool.stat index).1 other := by
  simp only [releaseStatic, Ippool.setStat, modify_of_ne apart]

theorem releaseStatic_self : ((releaseStatic pool index).member index).inUse = false ∧
    ((releaseStatic pool index).member index).nexthash = none := by
  simp only [releaseStatic, Ippool.setStat, modify_self, and_self]

theorem releaseStatic_wellFormed (good : WellFormed hash4 pool)
    (used : (pool.member index).inUse = true) (above : pool.dynsize.toNat ≤ index)
    (inPool : index < pool.listsize.toNat) :
    ∃ unchained, ippoolHashdel hash4 pool index = some (some unchained) ∧
      WellFormed hash4 (releaseStatic unchained index) := by
  obtain ⟨freeDyn, dynamic⟩ := good.dynamic
  obtain ⟨freeStat, static⟩ := good.static
  obtain ⟨chains, table⟩ := good.table
  obtain ⟨previous, target, deleted, own, chains', tableAfter⟩ := table.hashdel ⟨inPool, .inr used⟩
  refine ⟨_, deleted, ?_⟩
  generalize slot hash4 pool _ = key at tableAfter
  have keepsUse : KeepsHash Ippoolm.inUse := fun _ _ => rfl
  have sameUse : ∀ other, ((setNexthash pool key previous target).member other).inUse =
      (pool.member other).inUse := congrFun keepsUse.setNexthash
  have sameLink : ∀ other, ¬pool.Hashed other →
      ((setNexthash pool key previous target).member other).nexthash =
        (pool.member other).nexthash := by
    intro other notHashed
    exact setNexthash_nexthash fun last => notHashed (own other last).1
  have sameAddr : ∀ other, ((setNexthash pool key previous target).member other).addr =
      (pool.member other).addr := fun other => setNexthash_addr
  have dynamicAfter : FreeSection (setNexthash pool key previous target).member pool.dyn 0
      pool.dynsize.toNat false freeDyn := dynamic.setNexthash
  have staticAfter : FreeSection (setNexthash pool key previous target).member pool.stat
      pool.dynsize.toNat pool.listsize.toNat true freeStat := static.setNexthash
  have same : ∀ other, other ≠ index → ∀ {α : Type} {project : Ippoolm → α}, KeepsFree project →
      project ((releaseStatic (setNexthash pool key previous target) index).member other) =
        project ((setNexthash pool key previous target).member other) := by
    intro other apart α project keeps
    rw [releaseStatic_of_ne apart]
    exact congrFun keeps.enqueue other
  have hashed : ∀ other,
      (releaseStatic (setNexthash pool key previous target) index).Hashed other ↔
        pool.Hashed other ∧ other ≠ index := by
    intro other
    by_cases isIndex : other = index
    · subst isIndex
      refine iff_of_false ?_ fun both => both.2 rfl
      rintro ⟨-, isDynamic | isUsed⟩
      · exact absurd isDynamic (Nat.not_lt.mpr above)
      · rw [releaseStatic_self.1] at isUsed
        cases isUsed
    · simp only [Ippool.Hashed, same other isIndex keepsFree_inUse, sameUse]
      exact (and_iff_left isIndex).symm
  refine ⟨good.sizes, good.slots, ⟨freeDyn, dynamicAfter.congr fun other _ below => ?_⟩,
    ⟨freeStat ++ [index], ?_⟩, ⟨chains', tableAfter.congr ⟨rfl, rfl, rfl⟩ (fun other there =>
      ⟨same other there.2 keepsFree_nexthash, same other there.2 keepsFree_addr⟩) hashed⟩,
    fun other below notHashed => ?_, fun one other oneHashed otherHashed sameOnes => ?_⟩
  · have apart : other ≠ index := by omega
    have notFree : other ∉ freeStat := fun there => by
      have := ((static.mem other).mp there).1
      omega
    have frame : (enqueue (setNexthash pool key previous target).member pool.stat index).1 other =
        (setNexthash pool key previous target).member other :=
      staticAfter.enqueue_frame notFree apart
    rw [releaseStatic_of_ne apart]
    exact ⟨congrArg Ippoolm.next frame, congrArg Ippoolm.prev frame, congrArg Ippoolm.inUse frame,
      congrArg Ippoolm.isStatic frame⟩
  · simp only [releaseStatic, Ippool.setStat, Ippool.stat]
    refine staticAfter.giveBack above inPool ((sameUse index).trans used) ?_ ?_ ?_ ?_ <;>
      exact fun _ => rfl
  · by_cases isIndex : other = index
    · rw [isIndex]
      exact releaseStatic_self.2
    · have notOld : ¬pool.Hashed other := fun old => notHashed ((hashed other).mpr ⟨old, isIndex⟩)
      rw [same other isIndex keepsFree_nexthash, sameLink other notOld]
      exact good.unhashed other below notOld
  · obtain ⟨oneOld, oneApart⟩ := (hashed one).mp oneHashed
    obtain ⟨otherOld, otherApart⟩ := (hashed other).mp otherHashed
    rw [same one oneApart keepsFree_addr, same other otherApart keepsFree_addr, sameAddr,
      sameAddr] at sameOnes
    exact good.distinct one other oneOld otherOld sameOnes

end Rut9xx.Chilli
