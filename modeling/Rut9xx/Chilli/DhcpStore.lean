import Rut9xx.Chilli.DhcpConn
import Rut9xx.Data.HashChains

namespace Rut9xx.Chilli

open Data

/-! # The used connections, the free ones and the hash table -/

variable {α : Type} {dhcpHash : Mac → UInt32} {options : DhcpOptions} {dhcp dhcp' : Dhcp}
  {index other : Nat} {target link : Option Nat} {used free : List Nat} {mac : Mac}
  {records : Nat → DhcpConn} {f : DhcpConn → DhcpConn}

abbrev Dhcp.nexts (dhcp : Dhcp) : Nat → Option Nat := DhcpConn.next ∘ dhcp.conn

abbrev Dhcp.prevs (dhcp : Dhcp) : Nat → Option Nat := DhcpConn.prev ∘ dhcp.conn

abbrev Dhcp.nexthashes (dhcp : Dhcp) : Nat → Option Nat := DhcpConn.nexthash ∘ dhcp.conn

/-- The chain that a connection belongs to. -/
def Dhcp.slotOf (dhcpHash : Mac → UInt32) (dhcp : Dhcp) (index : Nat) : UInt32 :=
  dhcp.slot dhcpHash (dhcp.conn index).hismac

/-- A connection without its place in the list. -/
def DhcpConn.bare (conn : DhcpConn) : DhcpConn := { conn with next := none, prev := none }

/-- The used and the free connections, in the order of their lists. -/
structure ConnLists (dhcp : Dhcp) (used free : List Nat) : Prop where
  usedList : DoublyLinked dhcp.nexts dhcp.prevs dhcp.firstusedconn dhcp.lastusedconn used
  freeList : DoublyLinked dhcp.nexts dhcp.prevs dhcp.firstfreeconn dhcp.lastfreeconn free
  once : (used ++ free).Nodup
  all : ∀ index, index ∈ used ++ free ↔ index < dhcp.allocated

/-- The lists while a cleared connection is on its way from one to the other. -/
structure LooseConn (dhcp : Dhcp) (used free : List Nat) (index : Nat) : Prop where
  usedList : DoublyLinked dhcp.nexts dhcp.prevs dhcp.firstusedconn dhcp.lastusedconn used
  freeList : DoublyLinked dhcp.nexts dhcp.prevs dhcp.firstfreeconn dhcp.lastfreeconn free
  once : (index :: (used ++ free)).Nodup
  all : ∀ other, other ∈ index :: (used ++ free) ↔ other < dhcp.allocated
  cleared : dhcp.conn index = .zero

/-! ## What the list operations do to the links -/

section Links

variable (records : Nat → DhcpConn) (link target : Option Nat)

@[simp] theorem next_alterLink_setPrev :
    DhcpConn.next ∘ alterLink records link (.setPrev target) = DhcpConn.next ∘ records :=
  comp_alterLink_keeps _ fun _ => rfl

@[simp] theorem prev_alterLink_setNext :
    DhcpConn.prev ∘ alterLink records link (.setNext target) = DhcpConn.prev ∘ records :=
  comp_alterLink_keeps _ fun _ => rfl

@[simp] theorem next_alterLink_setNext :
    DhcpConn.next ∘ alterLink records link (.setNext target) =
      relink (DhcpConn.next ∘ records) link target :=
  comp_alterLink _ fun _ => rfl

@[simp] theorem prev_alterLink_setPrev :
    DhcpConn.prev ∘ alterLink records link (.setPrev target) =
      relink (DhcpConn.prev ∘ records) link target :=
  comp_alterLink _ fun _ => rfl

@[simp] theorem next_alter_setNext (index : Nat) :
    DhcpConn.next ∘ alter records index (.setNext target) =
      Function.update (DhcpConn.next ∘ records) index target :=
  comp_alter _

@[simp] theorem prev_alter_setNext (index : Nat) :
    DhcpConn.prev ∘ alter records index (.setNext target) = DhcpConn.prev ∘ records :=
  comp_alter_keeps _ fun _ => rfl

@[simp] theorem next_alterLink_setNexthash :
    DhcpConn.next ∘ alterLink records link (.setNexthash target) = DhcpConn.next ∘ records :=
  comp_alterLink_keeps _ fun _ => rfl

@[simp] theorem prev_alterLink_setNexthash :
    DhcpConn.prev ∘ alterLink records link (.setNexthash target) = DhcpConn.prev ∘ records :=
  comp_alterLink_keeps _ fun _ => rfl

end Links

theorem takeFree_eq :
    takeFree dhcp index =
      { dhcp with
        conn := alter (alterLink dhcp.conn (dhcp.conn index).next (.setPrev none)) index fun _ => .zero
        firstfreeconn := (dhcp.conn index).next
        lastfreeconn := rehead dhcp.lastfreeconn (dhcp.conn index).next none } := by
  rw [takeFree]
  cases (dhcp.conn index).next <;> rfl

theorem linkUsed_eq (alone : (dhcp.conn index).next = none) :
    linkUsed dhcp index =
      { dhcp with
        conn := alter (alterLink dhcp.conn dhcp.firstusedconn (.setPrev (some index))) index
          (.setNext dhcp.firstusedconn)
        firstusedconn := some index
        lastusedconn := rehead dhcp.lastusedconn dhcp.firstusedconn (some index) } := by
  rw [linkUsed]
  cases dhcp.firstusedconn with
  | some first => rfl
  | none =>
      have same : (dhcp.conn index).setNext none = dhcp.conn index := by
        rw [DhcpConn.setNext, ← alone]
      simp only [alterLink, alter, same, Function.update_eq_self]
      rfl

theorem unlinkUsed_eq :
    unlinkUsed dhcp index =
      { dhcp with
        conn := alterLink (alterLink dhcp.conn (dhcp.conn index).next (.setPrev (dhcp.conn index).prev))
          (dhcp.conn index).prev (.setNext (dhcp.conn index).next)
        firstusedconn := rehead dhcp.firstusedconn (dhcp.conn index).prev (dhcp.conn index).next
        lastusedconn := rehead dhcp.lastusedconn (dhcp.conn index).next (dhcp.conn index).prev } := by
  rw [unlinkUsed]
  cases (dhcp.conn index).next <;> cases (dhcp.conn index).prev <;> rfl

theorem linkFree_eq :
    linkFree dhcp index =
      { dhcp with
        conn := alter (alterLink dhcp.conn dhcp.firstfreeconn (.setPrev (some index))) index
          (.setNext dhcp.firstfreeconn)
        firstfreeconn := some index
        lastfreeconn := rehead dhcp.lastfreeconn dhcp.firstfreeconn (some index) } := by
  rw [linkFree]
  cases dhcp.firstfreeconn <;> rfl

/-! ## The moves between the lists -/

theorem ConnLists.neighbour_of_used (lists : ConnLists dhcp used free) (member : index ∈ used)
    (inFree : other ∈ free) :
    (dhcp.conn index).next ≠ some other ∧ (dhcp.conn index).prev ≠ some other := by
  have apart : other ∉ used := fun inUsed =>
    (List.nodup_append.mp lists.once).2.2 other inUsed other inFree rfl
  constructor
  · intro next
    exact apart (lists.usedList.neighbour_mem member (.inr next))
  · intro prev
    exact apart (lists.usedList.neighbour_mem member (.inl prev))

theorem ConnLists.takeFree (lists : ConnLists dhcp used (index :: free)) :
    LooseConn (takeFree dhcp index) used free index := by
  have once : (index :: (used ++ free)).Nodup := List.nodup_middle.mp lists.once
  obtain ⟨notThere, -⟩ := List.nodup_cons.mp once
  have notUsed : index ∉ used := fun member => notThere (List.mem_append_left _ member)
  have notFree : index ∉ free := fun member => notThere (List.mem_append_right _ member)
  have neighbours := lists.freeList.neighbours (List.nil_append (index :: free)).symm
  have noPrev : dhcp.prevs index = none := neighbours.1
  have removed := lists.freeList.remove_node (List.nil_append (index :: free)).symm
  rw [noPrev] at removed
  have nextFree : ∀ other ∈ used, dhcp.nexts index ≠ some other := by
    intro other inUsed next
    have inFree := lists.freeList.neighbour_mem List.mem_cons_self (.inr next)
    exact (List.nodup_append.mp lists.once).2.2 other inUsed other inFree rfl
  rw [takeFree_eq]
  refine ⟨?_, ?_, once, ?_, by simp only [alter_self]⟩
  · simp only [Dhcp.nexts, Dhcp.prevs, comp_alter, next_alterLink_setPrev, prev_alterLink_setPrev]
    have framed : DoublyLinked (relink dhcp.nexts none none) (relink dhcp.prevs (dhcp.nexts index) none)
        dhcp.firstusedconn dhcp.lastusedconn used :=
      lists.usedList.frame_relink (fun _ _ => by simp) nextFree
    exact framed.frame_update notUsed
  · simp only [Dhcp.nexts, Dhcp.prevs, comp_alter, next_alterLink_setPrev, prev_alterLink_setPrev]
    exact removed.frame_update notFree
  · intro other
    rw [← lists.all]
    exact List.perm_middle.symm.mem_iff

/-- A connection that was allocated just now. -/
theorem ConnLists.fresh (lists : ConnLists dhcp used []) (connections : Nat) :
    LooseConn { dhcp with
      conn := alter dhcp.conn dhcp.allocated fun _ => .zero
      allocated := dhcp.allocated + 1
      connections := connections } used [] dhcp.allocated where
  usedList := by
    simp only [Dhcp.nexts, Dhcp.prevs, comp_alter]
    exact lists.usedList.frame_update fun member =>
      Nat.lt_irrefl _ ((lists.all _).mp (List.mem_append_left _ member))
  freeList := by
    simp only [Dhcp.nexts, Dhcp.prevs, comp_alter]
    exact lists.freeList.frame_update List.not_mem_nil
  once := List.nodup_cons.mpr ⟨fun member => Nat.lt_irrefl _ ((lists.all _).mp member), lists.once⟩
  all := by
    intro other
    rw [List.mem_cons, lists.all]
    exact (Nat.lt_succ_iff_lt_or_eq.trans or_comm).symm
  cleared := by simp only [alter_self]

/-- The lists while the connection is on its way lie apart from it and from each other. -/
theorem LooseConn.apart (loose : LooseConn dhcp used free index) :
    index ∉ used ∧ index ∉ free ∧ ∀ other ∈ used, other ∉ free := by
  obtain ⟨notThere, once⟩ := List.nodup_cons.mp loose.once
  refine ⟨fun member => notThere (List.mem_append_left _ member),
    fun member => notThere (List.mem_append_right _ member), ?_⟩
  intro other inUsed inFree
  exact (List.nodup_append.mp once).2.2 other inUsed other inFree rfl

theorem LooseConn.linkUsed (loose : LooseConn dhcp used free index) :
    ConnLists (linkUsed dhcp index) (index :: used) free := by
  obtain ⟨notUsed, notFree, apart⟩ := loose.apart
  have noNext : (dhcp.conn index).next = none := congrArg DhcpConn.next loose.cleared
  have noPrev : dhcp.prevs index = none := congrArg DhcpConn.prev loose.cleared
  have firstUsed : ∀ other ∈ free, dhcp.firstusedconn ≠ some other := by
    intro other inFree first
    exact apart other (List.mem_of_head? (loose.usedList.forward.start_eq.symm.trans first)) inFree
  rw [linkUsed_eq noNext]
  refine ⟨?_, ?_, loose.once, loose.all⟩
  · simp only [Dhcp.nexts, Dhcp.prevs, next_alter_setNext, prev_alter_setNext, next_alterLink_setPrev,
      prev_alterLink_setPrev]
    exact loose.usedList.prepend_node notUsed noPrev
  · simp only [Dhcp.nexts, Dhcp.prevs, next_alter_setNext, prev_alter_setNext, next_alterLink_setPrev,
      prev_alterLink_setPrev]
    refine loose.freeList.congr fun other member => ⟨?_, relink_of_ne (firstUsed other member)⟩
    have other' : other ≠ index := fun same => notFree (same ▸ member)
    exact Function.update_of_ne other' _ _

theorem LooseConn.linkFree (loose : LooseConn dhcp used free index) :
    ConnLists (linkFree dhcp index) used (index :: free) := by
  obtain ⟨notUsed, notFree, apart⟩ := loose.apart
  have noPrev : dhcp.prevs index = none := congrArg DhcpConn.prev loose.cleared
  have firstFree : ∀ other ∈ used, dhcp.firstfreeconn ≠ some other := by
    intro other inUsed first
    exact apart other inUsed (List.mem_of_head? (loose.freeList.forward.start_eq.symm.trans first))
  rw [linkFree_eq]
  refine ⟨?_, ?_, List.nodup_middle.mpr loose.once, ?_⟩
  · simp only [Dhcp.nexts, Dhcp.prevs, next_alter_setNext, prev_alter_setNext, next_alterLink_setPrev,
      prev_alterLink_setPrev]
    refine loose.usedList.congr fun other member => ⟨?_, relink_of_ne (firstFree other member)⟩
    have other' : other ≠ index := fun same => notUsed (same ▸ member)
    exact Function.update_of_ne other' _ _
  · simp only [Dhcp.nexts, Dhcp.prevs, next_alter_setNext, prev_alter_setNext, next_alterLink_setPrev,
      prev_alterLink_setPrev]
    exact loose.freeList.prepend_node notFree noPrev
  · intro other
    rw [List.perm_middle.mem_iff]
    exact loose.all other

theorem ConnLists.unlinkUsed {before after : List Nat}
    (lists : ConnLists dhcp (before ++ index :: after) free) :
    LooseConn ((unlinkUsed dhcp index).change index fun _ => .zero) (before ++ after) free index := by
  have once : (index :: (before ++ after ++ free)).Nodup := by
    have whole := lists.once
    rw [List.append_assoc, List.cons_append] at whole
    rw [List.append_assoc]
    exact List.nodup_middle.mp whole
  obtain ⟨notThere, -⟩ := List.nodup_cons.mp once
  have notUsed : index ∉ before ++ after := fun member => notThere (List.mem_append_left _ member)
  have notFree : index ∉ free := fun member => notThere (List.mem_append_right _ member)
  have removed := lists.usedList.remove_node rfl
  have member : index ∈ before ++ index :: after := by simp
  have away := fun other (inFree : other ∈ free) => lists.neighbour_of_used member inFree
  rw [unlinkUsed_eq]
  refine ⟨?_, ?_, once, ?_, by simp only [Dhcp.change, alter_self]⟩
  · simp only [Dhcp.change, Dhcp.nexts, Dhcp.prevs, comp_alter, next_alterLink_setNext,
      prev_alterLink_setNext, next_alterLink_setPrev, prev_alterLink_setPrev]
    exact removed.frame_update notUsed
  · simp only [Dhcp.change, Dhcp.nexts, Dhcp.prevs, comp_alter, next_alterLink_setNext,
      prev_alterLink_setNext, next_alterLink_setPrev, prev_alterLink_setPrev]
    have framed : DoublyLinked (relink dhcp.nexts (dhcp.prevs index) (dhcp.nexts index))
        (relink dhcp.prevs (dhcp.nexts index) (dhcp.prevs index)) dhcp.firstfreeconn dhcp.lastfreeconn
        free :=
      lists.freeList.frame_relink (fun other inFree => (away other inFree).2)
        fun other inFree => (away other inFree).1
    exact framed.frame_update notFree
  · intro other
    refine Iff.trans ?_ (lists.all other)
    rw [List.append_assoc, List.append_assoc, List.cons_append, List.perm_middle.mem_iff]

/-! ## What the list operations leave alone -/

theorem bare_setNext (target : Option Nat) (conn : DhcpConn) : (conn.setNext target).bare = conn.bare :=
  rfl

theorem bare_setPrev (target : Option Nat) (conn : DhcpConn) : (conn.setPrev target).bare = conn.bare :=
  rfl

theorem takeFree_bare (apart : other ≠ index) :
    ((takeFree dhcp index).conn other).bare = (dhcp.conn other).bare := by
  rw [takeFree_eq]
  simp only
  rw [alter_of_ne apart]
  exact alterLink_keeps DhcpConn.bare (bare_setPrev none) other

theorem linkUsed_bare (alone : (dhcp.conn index).next = none) (other : Nat) :
    ((linkUsed dhcp index).conn other).bare = (dhcp.conn other).bare := by
  rw [linkUsed_eq alone]
  exact (alter_keeps DhcpConn.bare (bare_setNext _) other).trans
    (alterLink_keeps DhcpConn.bare (bare_setPrev _) other)

theorem unlinkUsed_bare (other : Nat) :
    ((unlinkUsed dhcp index).conn other).bare = (dhcp.conn other).bare := by
  rw [unlinkUsed_eq]
  exact (alterLink_keeps DhcpConn.bare (bare_setNext _) other).trans
    (alterLink_keeps DhcpConn.bare (bare_setPrev _) other)

theorem linkFree_bare (other : Nat) :
    ((linkFree dhcp index).conn other).bare = (dhcp.conn other).bare := by
  rw [linkFree_eq]
  exact (alter_keeps DhcpConn.bare (bare_setNext _) other).trans
    (alterLink_keeps DhcpConn.bare (bare_setPrev _) other)

/-! ## The hash table -/

section HashTable

variable {present : Nat → Prop} {chains : UInt32 → List Nat} {key : UInt32} {previous : Option Nat}
  {nodes before after : List Nat}

/-- A connection without its place in a chain. -/
def DhcpConn.unchained (conn : DhcpConn) : DhcpConn := { conn with nexthash := none }

theorem unchained_setNexthash (target : Option Nat) (conn : DhcpConn) :
    (conn.setNexthash target).unchained = conn.unchained := rfl

theorem rechain_unchained (other : Nat) :
    ((dhcp.rechain key previous target).conn other).unchained = (dhcp.conn other).unchained :=
  alterLink_keeps DhcpConn.unchained (unchained_setNexthash target) other

theorem rechain_slotOf : (dhcp.rechain key previous target).slotOf dhcpHash = dhcp.slotOf dhcpHash := by
  funext other
  have record : ((dhcp.rechain key previous target).conn other).unchained =
      (dhcp.conn other).unchained := rechain_unchained other
  exact congrArg (fun conn => dhcp.slot dhcpHash conn.hismac) record

theorem rechain_nexthashes :
    (dhcp.rechain key previous target).nexthashes = relink dhcp.nexthashes previous target :=
  comp_alterLink _ fun _ => rfl

theorem ConnLists.rechain (lists : ConnLists dhcp used free) :
    ConnLists (dhcp.rechain key previous target) used free where
  usedList := by
    simp only [Dhcp.nexts, Dhcp.prevs, Dhcp.rechain, next_alterLink_setNexthash,
      prev_alterLink_setNexthash]
    exact lists.usedList
  freeList := by
    simp only [Dhcp.nexts, Dhcp.prevs, Dhcp.rechain, next_alterLink_setNexthash,
      prev_alterLink_setNexthash]
    exact lists.freeList
  once := lists.once
  all := lists.all

variable (table : HashChains dhcp.hash dhcp.nexthashes (dhcp.slotOf dhcpHash) present chains)
  (below : ∀ other, present other → other < dhcp.allocated)

include table below

theorem chain_length (key : UInt32) : (chains key).length ≤ dhcp.allocated :=
  (table.walks key).length_le fun other member => below other ((table.mem key other).mp member).1

theorem hashadd_chains (new : ¬ present index) (unlinked : (dhcp.conn index).nexthash = none) :
    ∃ key previous, dhcpHashadd dhcpHash dhcp index = some (dhcp.rechain key previous (some index)) ∧
      ∃ chains', HashChains (dhcp.rechain key previous (some index)).hash
        (dhcp.rechain key previous (some index)).nexthashes
        ((dhcp.rechain key previous (some index)).slotOf dhcpHash)
        (fun other => other = index ∨ present other) chains' := by
  refine ⟨dhcp.slotOf dhcpHash index, (chains (dhcp.slotOf dhcpHash index)).getLast?, ?_, ?_⟩
  · have walked : dhcp.walk dhcpHash (dhcp.conn index).hismac (fun _ => false) =
        some ((chains (dhcp.slotOf dhcpHash index)).getLast?, none) := by
      refine (scan_ends (table.walks _) (chain_length table below _) fun _ _ => rfl).trans ?_
      rw [Option.or_none]
      rfl
    change (dhcp.walk dhcpHash (dhcp.conn index).hismac (fun _ => false) >>= _) = _
    rw [walked]
    rfl
  · rw [rechain_nexthashes, rechain_slotOf]
    exact ⟨_, table.append new unlinked⟩

theorem hashdel_chains (there : present index) :
    ∃ key previous target, dhcpHashdel dhcpHash dhcp index =
        some (some (dhcp.rechain key previous target)) ∧
      ∃ chains', HashChains (dhcp.rechain key previous target).hash
        (dhcp.rechain key previous target).nexthashes
        ((dhcp.rechain key previous target).slotOf dhcpHash)
        (fun other => present other ∧ other ≠ index) chains' := by
  obtain ⟨before, after, placed⟩ := List.append_of_mem (table.own_chain there)
  have chain := table.walks (dhcp.slotOf dhcpHash index)
  have length := chain_length table below (dhcp.slotOf dhcpHash index)
  rw [placed] at chain length
  rw [List.length_append, List.length_cons] at length
  have distinct : (index :: (before ++ after)).Nodup := List.nodup_middle.mp chain.nodup
  refine ⟨dhcp.slotOf dhcpHash index, before.getLast?, (dhcp.conn index).nexthash, ?_, ?_⟩
  · have passes : ∀ other ∈ before, decide (other = index) = false := by
      intro other earlier
      have apart : other ≠ index := fun same =>
        distinct.notMem (same ▸ List.mem_append_left _ earlier)
      simpa using apart
    have walked : dhcp.walk dhcpHash (dhcp.conn index).hismac (fun p => p = index) =
        some (before.getLast?, some index) := by
      refine (scan_stops chain (by omega) (by simp) passes).trans ?_
      rw [Option.or_none]
    change (dhcp.walk dhcpHash (dhcp.conn index).hismac (fun p => p = index) >>= _) = _
    rw [walked]
    rfl
  · rw [rechain_nexthashes, rechain_slotOf]
    exact ⟨_, table.remove placed⟩

/-- A search finds the one connection in use that has the address. -/
theorem hashget_chains (inuse : ∀ other, present other → (dhcp.conn other).inuse = true)
    (distinct : ∀ index, present index → ∀ other, present other →
      (dhcp.conn index).hismac = (dhcp.conn other).hismac → index = other) (mac : Mac) :
    ∃ found, dhcpHashget dhcpHash dhcp mac = some found ∧
      ∀ index, found = some index ↔ present index ∧ (dhcp.conn index).hismac = mac := by
  by_cases known : ∃ index, present index ∧ (dhcp.conn index).hismac = mac
  · obtain ⟨index, there, rfl⟩ := known
    obtain ⟨before, after, placed⟩ := List.append_of_mem (table.own_chain there)
    have chain := table.walks (dhcp.slotOf dhcpHash index)
    have length := chain_length table below (dhcp.slotOf dhcpHash index)
    have inChain := table.mem (dhcp.slotOf dhcpHash index)
    rw [placed] at chain length inChain
    rw [List.length_append, List.length_cons] at length
    have once : (index :: (before ++ after)).Nodup := List.nodup_middle.mp chain.nodup
    refine ⟨some index, ?_, ?_⟩
    · have passes : ∀ other ∈ before,
          ((dhcp.conn other).hismac = (dhcp.conn index).hismac && (dhcp.conn other).inuse) = false := by
        intro other earlier
        have isPresent := ((inChain other).mp (List.mem_append_left _ earlier)).1
        have apart : (dhcp.conn other).hismac ≠ (dhcp.conn index).hismac := by
          intro same
          have equal := distinct other isPresent index there same
          exact once.notMem (equal ▸ List.mem_append_left _ earlier)
        simp [apart]
      have walked : dhcp.walk dhcpHash (dhcp.conn index).hismac
          (fun p => (dhcp.conn p).hismac = (dhcp.conn index).hismac && (dhcp.conn p).inuse) =
            some (before.getLast?, some index) := by
        refine (scan_stops chain (by omega) (by simp [inuse index there]) passes).trans ?_
        rw [Option.or_none]
      rw [dhcpHashget, walked]
      rfl
    · intro other
      constructor
      · intro same
        cases same
        exact ⟨there, rfl⟩
      · rintro ⟨isPresent, same⟩
        rw [distinct other isPresent index there same]
  · refine ⟨none, ?_, ?_⟩
    · have passes : ∀ other ∈ chains (dhcp.slot dhcpHash mac),
          ((dhcp.conn other).hismac = mac && (dhcp.conn other).inuse) = false := by
        intro other member
        have apart : (dhcp.conn other).hismac ≠ mac := fun same =>
          known ⟨other, ((table.mem _ other).mp member).1, same⟩
        simp [apart]
      have walked : dhcp.walk dhcpHash mac
          (fun p => (dhcp.conn p).hismac = mac && (dhcp.conn p).inuse) =
            some ((chains (dhcp.slot dhcpHash mac)).getLast?, none) := by
        refine (scan_ends (table.walks _) (chain_length table below _) passes).trans ?_
        rw [Option.or_none]
      rw [dhcpHashget, walked]
      rfl
    · intro other
      constructor
      · intro same
        cases same
      · intro found
        exact absurd ⟨other, found⟩ known

end HashTable

end Rut9xx.Chilli
