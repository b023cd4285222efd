import Rut9xx.Chilli.FreeSection

namespace Rut9xx.Chilli

open Rut9xx.Data

/-! # The hash chains of the pool -/

variable {hash4 : UInt32 → UInt32} {pool pool' : Ippool} {present present' : Nat → Prop}
  {chains : UInt32 → List Nat} {key addr : UInt32} {index : Nat} {previous target : Option Nat}
  {nodes : List Nat}

/-- The chains hold exactly the members of `present`, each in the slot of its address. -/
structure HashTable (hash4 : UInt32 → UInt32) (pool : Ippool) (present : Nat → Prop)
    (chains : UInt32 → List Nat) : Prop where
  walks : ∀ key, IsChain (nexthashOf pool.member) (pool.hash key) (chains key)
  mem : ∀ key index, index ∈ chains key ↔
    present index ∧ slot hash4 pool (pool.member index).addr = key
  bounded : ∀ index, present index → index < pool.listsize.toNat

theorem HashTable.congr (table : HashTable hash4 pool present chains)
    (sameTable : pool'.hash = pool.hash ∧ pool'.hashmask = pool.hashmask ∧
      pool'.listsize = pool.listsize)
    (sameMembers : ∀ index, present index →
      (pool'.member index).nexthash = (pool.member index).nexthash ∧
      (pool'.member index).addr = (pool.member index).addr)
    (samePresent : ∀ index, present' index ↔ present index) :
    HashTable hash4 pool' present' chains where
  walks key := by
    rw [sameTable.1]
    exact (table.walks key).congr fun index member =>
      (sameMembers index ((table.mem key index).mp member).1).1
  mem key index := by
    rw [table.mem, samePresent]
    refine and_congr_right fun there => ?_
    rw [slot, slot, sameTable.2.1, (sameMembers index there).2]
  bounded index there := by
    rw [sameTable.2.2]
    exact table.bounded index ((samePresent index).mp there)

theorem HashTable.length_le (table : HashTable hash4 pool present chains) (key : UInt32) :
    (chains key).length ≤ pool.listsize.toNat :=
  (table.walks key).length_le fun index member =>
    table.bounded index ((table.mem key index).mp member).1

/-! ## Changing one chain -/

@[simp] theorem nexthashOf_setNexthash :
    nexthashOf (setNexthash pool key previous target).member =
      relink (nexthashOf pool.member) previous target :=
  modifyLink_field fun _ => rfl

/-- A field that does not depend on the links of the chains. -/
def KeepsHash {α : Type} (project : Ippoolm → α) : Prop :=
  ∀ node link, project { node with nexthash := link } = project node

theorem KeepsHash.setNexthash {α : Type} {project : Ippoolm → α} (keeps : KeepsHash project) :
    project ∘ (setNexthash pool key previous target).member = project ∘ pool.member :=
  modifyLink_project fun node => keeps node target

theorem setNexthash_nexthash (apart : previous ≠ some index) :
    ((setNexthash pool key previous target).member index).nexthash =
      (pool.member index).nexthash :=
  (congrFun nexthashOf_setNexthash index).trans (relink_of_ne apart)

theorem HashTable.rechain (table : HashTable hash4 pool present chains)
    (own : ∀ index, previous = some index → index ∈ chains key)
    (chain : IsChain (relink (nexthashOf pool.member) previous target)
      (rehead (pool.hash key) previous target) nodes)
    (members : ∀ index, index ∈ nodes ↔
      present' index ∧ slot hash4 pool (pool.member index).addr = key)
    (others : ∀ index, slot hash4 pool (pool.member index).addr ≠ key →
      (present' index ↔ present index))
    (bounded : ∀ index, present' index → index < pool.listsize.toNat) :
    HashTable hash4 (setNexthash pool key previous target) present'
      (Function.update chains key nodes) where
  walks key' := by
    rw [nexthashOf_setNexthash]
    by_cases same : key' = key
    · subst same
      simp only [setNexthash, Function.update_self]
      exact chain
    · simp only [setNexthash, Function.update_of_ne same]
      refine (table.walks key').congr fun index inOther => relink_of_ne fun isPrevious => ?_
      have inKey := ((table.mem key index).mp (own index isPrevious)).2
      exact same (((table.mem key' index).mp inOther).2.symm.trans inKey)
  mem key' index := by
    have keeps : KeepsHash Ippoolm.addr := fun _ _ => rfl
    have sameAddr : ((setNexthash pool key previous target).member index).addr =
        (pool.member index).addr := congrFun keeps.setNexthash index
    rw [sameAddr]
    change _ ↔ present' index ∧ slot hash4 pool (pool.member index).addr = key'
    by_cases same : key' = key
    · subst same
      rw [Function.update_self]
      exact members index
    · rw [Function.update_of_ne same, table.mem key' index]
      refine and_congr_left fun there => (others index ?_).symm
      rw [there]
      exact same
  bounded := bounded

/-! ## The three operations -/

theorem HashTable.hashadd (table : HashTable hash4 pool present chains)
    (new : ¬present index) (unlinked : (pool.member index).nexthash = none)
    (inRange : index < pool.listsize.toNat) :
    ∃ previous, ippoolHashadd hash4 pool index =
        some (setNexthash pool (slot hash4 pool (pool.member index).addr) previous (some index)) ∧
      (∀ other, previous = some other → present other) ∧
      ∃ chains', HashTable hash4
        (setNexthash pool (slot hash4 pool (pool.member index).addr) previous (some index))
        (fun other => present other ∨ other = index) chains' := by
  generalize keyEq : slot hash4 pool (pool.member index).addr = key
  have fresh : index ∉ chains key := fun there => new ((table.mem key index).mp there).1
  refine ⟨(chains key).getLast?, ?_, fun other last =>
    ((table.mem key other).mp (List.mem_of_getLast? last)).1, Function.update chains key (chains key ++ [index]), ?_⟩
  · simp only [ippoolHashadd, walk, keyEq]
    rw [scan_ends (table.walks key) (table.length_le key) fun _ _ => rfl]
    simp
  · refine table.rechain (fun other last => List.mem_of_getLast? last)
      ((table.walks key).append_node fresh unlinked) ?_ ?_ ?_
    · intro other
      rw [List.mem_append, table.mem, List.mem_singleton]
      constructor
      · rintro (⟨there, inKey⟩ | rfl)
        · exact ⟨.inl there, inKey⟩
        · exact ⟨.inr rfl, keyEq⟩
      · rintro ⟨there | rfl, inKey⟩
        · exact .inl ⟨there, inKey⟩
        · exact .inr rfl
    · intro other elsewhere
      refine or_iff_left ?_
      rintro rfl
      exact elsewhere keyEq
    · rintro other (there | rfl)
      · exact table.bounded other there
      · exact inRange

theorem HashTable.hashdel (table : HashTable hash4 pool present chains) (there : present index) :
    ∃ previous target, ippoolHashdel hash4 pool index =
        some (some (setNexthash pool (slot hash4 pool (pool.member index).addr) previous target)) ∧
      (∀ other, previous = some other → present other ∧ other ≠ index) ∧
      ∃ chains', HashTable hash4
        (setNexthash pool (slot hash4 pool (pool.member index).addr) previous target)
        (fun other => present other ∧ other ≠ index) chains' := by
  generalize keyEq : slot hash4 pool (pool.member index).addr = key
  obtain ⟨before, after, placed⟩ := List.append_of_mem ((table.mem key index).mpr ⟨there, keyEq⟩)
  have chain := table.walks key
  rw [placed] at chain
  have distinct : (index :: (before ++ after)).Nodup := List.nodup_middle.mp chain.nodup
  have gone : index ∉ before ++ after := distinct.notMem
  have length := table.length_le key
  rw [placed, List.length_append, List.length_cons] at length
  refine ⟨before.getLast?, (pool.member index).nexthash, ?_, fun other last => ?_,
    Function.update chains key (before ++ after), ?_⟩
  · simp only [ippoolHashdel, walk, keyEq]
    rw [scan_stops chain (by omega) (by simp) fun other earlier => ?_]
    · simp
    · have apart : other ≠ index := by
        rintro rfl
        exact gone (List.mem_append_left _ earlier)
      simpa using apart
  · have earlier := List.mem_of_getLast? last
    refine ⟨((table.mem key other).mp ?_).1, ?_⟩
    · rw [placed]
      exact List.mem_append_left _ earlier
    · rintro rfl
      exact gone (List.mem_append_left _ earlier)
  · refine table.rechain (fun other last => ?_) chain.remove_node ?_ ?_ ?_
    · rw [placed]
      exact List.mem_append_left _ (List.mem_of_getLast? last)
    · intro other
      have order : other ∈ chains key ↔ other = index ∨ other ∈ before ++ after := by
        rw [placed, List.perm_middle.mem_iff, List.mem_cons]
      rw [table.mem] at order
      constructor
      · intro left
        obtain ⟨isPresent, inKey⟩ := order.mpr (.inr left)
        exact ⟨⟨isPresent, fun same => gone (same ▸ left)⟩, inKey⟩
      · rintro ⟨⟨isPresent, apart⟩, inKey⟩
        exact (order.mp ⟨isPresent, inKey⟩).resolve_left apart
    · intro other elsewhere
      refine and_iff_left ?_
      rintro rfl
      exact elsewhere keyEq
    · intro other remains
      exact table.bounded other remains.1

/-- A search by address meets the one present member that has it. -/
theorem HashTable.search (table : HashTable hash4 pool present chains) {accepts : Nat → Bool}
    (atMostOne : ∀ index other, present index → present other → accepts index = true →
      accepts other = true → index = other)
    (hasAddr : ∀ index, accepts index = true → (pool.member index).addr = addr) :
    ∃ found, (walk hash4 pool addr accepts).map Prod.snd = some found ∧
      ∀ index, found = some index ↔ present index ∧ accepts index = true := by
  by_cases exists' : ∃ index, present index ∧ accepts index = true
  · obtain ⟨index, there, accepted⟩ := exists'
    refine ⟨some index, ?_, fun other => ?_⟩
    · have member := (table.mem (slot hash4 pool addr) index).mpr
        ⟨there, by rw [hasAddr index accepted]⟩
      obtain ⟨before, after, placed⟩ := List.append_of_mem member
      have chain := table.walks (slot hash4 pool addr)
      rw [placed] at chain
      have distinct : (index :: (before ++ after)).Nodup := List.nodup_middle.mp chain.nodup
      have length := table.length_le (slot hash4 pool addr)
      rw [placed, List.length_append, List.length_cons] at length
      rw [walk, scan_stops chain (by omega) accepted fun other earlier => ?_]
      · rfl
      · rw [← Bool.not_eq_true]
        intro acceptsOther
        have inChain : other ∈ chains (slot hash4 pool addr) := by
          rw [placed]
          exact List.mem_append_left _ earlier
        have same := atMostOne index other there ((table.mem _ other).mp inChain).1 accepted
          acceptsOther
        exact distinct.notMem (same ▸ List.mem_append_left _ earlier)
    · constructor
      · intro same
        obtain rfl := Option.some.inj same
        exact ⟨there, accepted⟩
      · rintro ⟨isPresent, acceptsOther⟩
        rw [atMostOne index other there isPresent accepted acceptsOther]
  · refine ⟨none, ?_, fun index => ?_⟩
    · rw [walk, scan_ends (table.walks _) (table.length_le _) fun index member => ?_]
      · rfl
      · rw [← Bool.not_eq_true]
        exact fun accepted => exists' ⟨index, ((table.mem _ index).mp member).1, accepted⟩
    · constructor
      · intro same
        cases same
      · intro found
        exact absurd ⟨index, found⟩ exists'

end Rut9xx.Chilli
