import Rut9xx.Chilli.DhcpStore

namespace Rut9xx.Chilli

open Data

/-! # The connection store over whole runs -/

variable {dhcpHash : Mac → UInt32} {options : DhcpOptions} {dhcp dhcp' : Dhcp} {index other : Nat}
  {used used' free free' before after : List Nat} {mac : Mac} {f : DhcpConn → DhcpConn}

/-- What the hash table and the records say of the connections of the two lists. -/
structure ConnTable (dhcpHash : Mac → UInt32) (dhcp : Dhcp) (used free : List Nat) : Prop where
  hashed : ∃ chains, HashChains dhcp.hash dhcp.nexthashes (dhcp.slotOf dhcpHash) (· ∈ used) chains
  distinct : ∀ index ∈ used, ∀ other ∈ used,
    (dhcp.conn index).hismac = (dhcp.conn other).hismac → index = other
  inuse : ∀ index ∈ used, (dhcp.conn index).inuse = true
  parent : ∀ index ∈ used, (dhcp.conn index).parent = true
  idle : ∀ index ∈ free, (dhcp.conn index).parent = false

structure DhcpStore (dhcpHash : Mac → UInt32) (options : DhcpOptions) (dhcp : Dhcp)
    (used free : List Nat) : Prop where
  lists : ConnLists dhcp used free
  table : ConnTable dhcpHash dhcp used free
  counted : dhcp.allocated ≤ dhcp.connections
  bounded : dhcp.connections ≤ options.maxClients

/-- The fields that the table is about. -/
structure SameKey (conn conn' : DhcpConn) : Prop where
  nexthash : conn'.nexthash = conn.nexthash
  hismac : conn'.hismac = conn.hismac
  inuse : conn'.inuse = conn.inuse
  parent : conn'.parent = conn.parent

theorem SameKey.refl (conn : DhcpConn) : SameKey conn conn := ⟨rfl, rfl, rfl, rfl⟩

theorem SameKey.of_bare {conn conn' : DhcpConn} (same : conn'.bare = conn.bare) : SameKey conn conn' where
  nexthash := (congrArg DhcpConn.nexthash same :)
  hismac := (congrArg DhcpConn.hismac same :)
  inuse := (congrArg DhcpConn.inuse same :)
  parent := (congrArg DhcpConn.parent same :)

/-- A change of fields that neither the lists nor the table are about. -/
structure KeepsPlace (f : DhcpConn → DhcpConn) : Prop where
  next : ∀ conn, (f conn).next = conn.next
  prev : ∀ conn, (f conn).prev = conn.prev
  key : ∀ conn, SameKey conn (f conn)

theorem ConnLists.change (lists : ConnLists dhcp used free) (next : ∀ conn, (f conn).next = conn.next)
    (prev : ∀ conn, (f conn).prev = conn.prev) : ConnLists (dhcp.change index f) used free where
  usedList := by
    simp only [Dhcp.nexts, Dhcp.prevs, Dhcp.change, comp_alter_keeps _ next, comp_alter_keeps _ prev]
    exact lists.usedList
  freeList := by
    simp only [Dhcp.nexts, Dhcp.prevs, Dhcp.change, comp_alter_keeps _ next, comp_alter_keeps _ prev]
    exact lists.freeList
  once := lists.once
  all := lists.all

theorem ConnTable.congr (table : ConnTable dhcpHash dhcp used free)
    (records : ∀ other, other ∈ used ∨ other ∈ free' → SameKey (dhcp.conn other) (dhcp'.conn other))
    (still : ∀ other ∈ free', other ∈ free) (hash : dhcp'.hash = dhcp.hash)
    (hashmask : dhcp'.hashmask = dhcp.hashmask) : ConnTable dhcpHash dhcp' used free' where
  hashed := by
    obtain ⟨chains, hashed⟩ := table.hashed
    refine ⟨chains, ?_⟩
    rw [hash]
    refine hashed.congr (fun _ => Iff.rfl) fun other member => ?_
    have record := records other (.inl member)
    refine ⟨record.nexthash, ?_⟩
    rw [Dhcp.slotOf, Dhcp.slotOf, Dhcp.slot, Dhcp.slot, hashmask, record.hismac]
  distinct := by
    intro index member other member' same
    rw [(records index (.inl member)).hismac, (records other (.inl member')).hismac] at same
    exact table.distinct index member other member' same
  inuse := by
    intro index member
    rw [(records index (.inl member)).inuse]
    exact table.inuse index member
  parent := by
    intro index member
    rw [(records index (.inl member)).parent]
    exact table.parent index member
  idle := by
    intro index member
    rw [(records index (.inr member)).parent]
    exact table.idle index (still index member)

theorem DhcpStore.change (store : DhcpStore dhcpHash options dhcp used free) (keeps : KeepsPlace f) :
    DhcpStore dhcpHash options (dhcp.change index f) used free where
  lists := store.lists.change keeps.next keeps.prev
  table := by
    have records : ∀ other, SameKey (dhcp.conn other) ((dhcp.change index f).conn other) := by
      intro other
      by_cases same : other = index
      · subst same
        simp only [Dhcp.change, alter_self]
        exact keeps.key _
      · simp only [Dhcp.change, alter_of_ne same]
        exact SameKey.refl _
    exact store.table.congr (fun other _ => records other) (fun _ member => member) rfl rfl
  counted := store.counted
  bounded := store.bounded

/-! ## The table under the operations on it -/

theorem ConnLists.below (lists : ConnLists dhcp used free) : ∀ other, other ∈ used → other < dhcp.allocated :=
  fun other member => (lists.all other).mp (List.mem_append_left _ member)

theorem ConnTable.hashget (table : ConnTable dhcpHash dhcp used free) (lists : ConnLists dhcp used free)
    (mac : Mac) :
    ∃ found, dhcpHashget dhcpHash dhcp mac = some found ∧
      ∀ index, found = some index ↔ index ∈ used ∧ (dhcp.conn index).hismac = mac := by
  obtain ⟨chains, hashed⟩ := table.hashed
  exact hashget_chains hashed lists.below table.inuse table.distinct mac

/-- The fields that a new link in a chain leaves alone. -/
theorem rechain_key {key : UInt32} {previous target : Option Nat} (other : Nat) :
    ((dhcp.rechain key previous target).conn other).hismac = (dhcp.conn other).hismac ∧
      ((dhcp.rechain key previous target).conn other).inuse = (dhcp.conn other).inuse ∧
        ((dhcp.rechain key previous target).conn other).parent = (dhcp.conn other).parent := by
  have record : ((dhcp.rechain key previous target).conn other).unchained =
      (dhcp.conn other).unchained := rechain_unchained other
  exact ⟨(congrArg DhcpConn.hismac record :), (congrArg DhcpConn.inuse record :),
    (congrArg DhcpConn.parent record :)⟩

theorem ConnTable.hashadd (table : ConnTable dhcpHash dhcp used free)
    (below : ∀ other, other ∈ used → other < dhcp.allocated) (new : index ∉ used)
    (unlinked : (dhcp.conn index).nexthash = none) (inuse : (dhcp.conn index).inuse = true)
    (parent : (dhcp.conn index).parent = true)
    (newMac : ∀ other ∈ used, (dhcp.conn other).hismac ≠ (dhcp.conn index).hismac) :
    ∃ key previous, dhcpHashadd dhcpHash dhcp index = some (dhcp.rechain key previous (some index)) ∧
      ConnTable dhcpHash (dhcp.rechain key previous (some index)) (index :: used) free := by
  obtain ⟨chains, hashed⟩ := table.hashed
  obtain ⟨key, previous, added, chains', hashed'⟩ := hashadd_chains hashed below new unlinked
  refine ⟨key, previous, added, ⟨chains', ?_⟩, ?_, ?_, ?_, ?_⟩
  · exact hashed'.congr (fun _ => List.mem_cons) fun _ _ => ⟨rfl, rfl⟩
  · intro first member second member' same
    rw [(rechain_key first).1, (rechain_key second).1] at same
    rcases List.mem_cons.mp member with rfl | inUsed
    · rcases List.mem_cons.mp member' with rfl | inUsed'
      · rfl
      · exact absurd same.symm (newMac second inUsed')
    · rcases List.mem_cons.mp member' with rfl | inUsed'
      · exact absurd same (newMac first inUsed)
      · exact table.distinct first inUsed second inUsed' same
  · intro other member
    rw [(rechain_key other).2.1]
    rcases List.mem_cons.mp member with rfl | member
    · exact inuse
    · exact table.inuse other member
  · intro other member
    rw [(rechain_key other).2.2]
    rcases List.mem_cons.mp member with rfl | member
    · exact parent
    · exact table.parent other member
  · intro other member
    rw [(rechain_key other).2.2]
    exact table.idle other member

theorem ConnTable.hashdel (table : ConnTable dhcpHash dhcp used free)
    (below : ∀ other, other ∈ used → other < dhcp.allocated) (member : index ∈ used)
    (left : ∀ other, other ∈ used' ↔ other ∈ used ∧ other ≠ index) :
    ∃ key previous target,
      dhcpHashdel dhcpHash dhcp index = some (some (dhcp.rechain key previous target)) ∧
        ConnTable dhcpHash (dhcp.rechain key previous target) used' free := by
  obtain ⟨chains, hashed⟩ := table.hashed
  obtain ⟨key, previous, target, removed, chains', hashed'⟩ := hashdel_chains hashed below member
  refine ⟨key, previous, target, removed, ⟨chains', ?_⟩, ?_, ?_, ?_, ?_⟩
  · exact hashed'.congr left fun _ _ => ⟨rfl, rfl⟩
  · intro first inFirst second inSecond same
    rw [(rechain_key first).1, (rechain_key second).1] at same
    exact table.distinct first ((left first).mp inFirst).1 second ((left second).mp inSecond).1 same
  · intro other inUsed
    rw [(rechain_key other).2.1]
    exact table.inuse other ((left other).mp inUsed).1
  · intro other inUsed
    rw [(rechain_key other).2.2]
    exact table.parent other ((left other).mp inUsed).1
  · intro other inFree
    rw [(rechain_key other).2.2]
    exact table.idle other inFree

/-! ## Allocation -/

/-- A new connection comes to the front of the used ones, and no other loses its reservation. -/
structure NewConn (dhcpHash : Mac → UInt32) (options : DhcpOptions) (dhcp dhcp' : Dhcp)
    (used : List Nat) (mac : Mac) (index : Nat) : Prop where
  store : ∃ free, DhcpStore dhcpHash options dhcp' (index :: used) free
  mac : (dhcp'.conn index).hismac = mac
  reserved : ∀ other ∈ used, (dhcp'.conn other).isReserved = (dhcp.conn other).isReserved

/-- A connection on its way to the used ones, and the store without it. -/
structure LooseStore (dhcpHash : Mac → UInt32) (options : DhcpOptions) (dhcp dhcp' : Dhcp)
    (used free : List Nat) (index : Nat) : Prop where
  loose : LooseConn dhcp' used free index
  table : ConnTable dhcpHash dhcp' used free
  counted : dhcp'.allocated ≤ dhcp'.connections
  bounded : dhcp'.connections ≤ options.maxClients
  reserved : ∀ other ∈ used, (dhcp'.conn other).isReserved = (dhcp.conn other).isReserved
  hismac : ∀ other ∈ used, (dhcp'.conn other).hismac = (dhcp.conn other).hismac

theorem DhcpStore.takeFree (store : DhcpStore dhcpHash options dhcp used (index :: free)) :
    LooseStore dhcpHash options dhcp (takeFree dhcp index) used free index := by
  have loose := store.lists.takeFree
  obtain ⟨notUsed, notFree, -⟩ := loose.apart
  have bare : ∀ other, other ∈ used ∨ other ∈ free →
      ((Chilli.takeFree dhcp index).conn other).bare = (dhcp.conn other).bare := by
    intro other there
    apply takeFree_bare
    rintro rfl
    exact there.elim notUsed notFree
  refine ⟨loose, ?_, ?_, ?_, ?_, ?_⟩
  · refine store.table.congr (fun other there => .of_bare (bare other there)) ?_ ?_ ?_
    · exact fun other => List.mem_cons_of_mem index
    · rw [takeFree_eq]
    · rw [takeFree_eq]
  · rw [takeFree_eq]
    exact store.counted
  · rw [takeFree_eq]
    exact store.bounded
  · exact fun other inUsed => (congrArg DhcpConn.isReserved (bare other (.inl inUsed)) :)
  · exact fun other inUsed => (congrArg DhcpConn.hismac (bare other (.inl inUsed)) :)

theorem DhcpStore.allocate (store : DhcpStore dhcpHash options dhcp used [])
    (room : dhcp.connections ≠ options.maxClients) :
    LooseStore dhcpHash options dhcp { dhcp with
      conn := alter dhcp.conn dhcp.allocated fun _ => .zero
      allocated := dhcp.allocated + 1
      connections := dhcp.connections + 1 } used [] dhcp.allocated := by
  have same : ∀ other ∈ used, alter dhcp.conn dhcp.allocated (fun _ => .zero) other = dhcp.conn other :=
    fun other inUsed => alter_of_ne (Nat.ne_of_lt (store.lists.below other inUsed))
  refine ⟨store.lists.fresh _, ?_, Nat.succ_le_succ store.counted,
    Nat.lt_of_le_of_ne store.bounded room, ?_, ?_⟩
  · refine store.table.congr ?_ (fun _ member => member) rfl rfl
    rintro other (inUsed | inFree)
    · simp only [same other inUsed]
      exact SameKey.refl _
    · exact absurd inFree List.not_mem_nil
  · exact fun other inUsed => congrArg DhcpConn.isReserved (same other inUsed)
  · exact fun other inUsed => congrArg DhcpConn.hismac (same other inUsed)

/-- A connection in the list of the used ones that the table does not have yet. -/
structure InList (dhcpHash : Mac → UInt32) (options : DhcpOptions) (dhcp dhcp' : Dhcp)
    (used free : List Nat) (index : Nat) : Prop where
  lists : ConnLists dhcp' (index :: used) free
  table : ConnTable dhcpHash dhcp' used free
  unlinked : (dhcp'.conn index).nexthash = none
  counted : dhcp'.allocated ≤ dhcp'.connections
  bounded : dhcp'.connections ≤ options.maxClients
  reserved : ∀ other ∈ used, (dhcp'.conn other).isReserved = (dhcp.conn other).isReserved
  hismac : ∀ other ∈ used, (dhcp'.conn other).hismac = (dhcp.conn other).hismac

theorem LooseStore.linkUsed (loose : LooseStore dhcpHash options dhcp dhcp' used free index) :
    InList dhcpHash options dhcp (linkUsed dhcp' index) used free index := by
  have alone : (dhcp'.conn index).next = none := congrArg DhcpConn.next loose.loose.cleared
  have bare := linkUsed_bare alone
  refine ⟨loose.loose.linkUsed, ?_, ?_, ?_, ?_, ?_, ?_⟩
  · refine loose.table.congr (fun other _ => .of_bare (bare other)) (fun _ member => member) ?_ ?_
    · rw [linkUsed_eq alone]
    · rw [linkUsed_eq alone]
  · exact (SameKey.of_bare (bare index)).nexthash.trans (congrArg DhcpConn.nexthash loose.loose.cleared)
  · rw [linkUsed_eq alone]
    exact loose.counted
  · rw [linkUsed_eq alone]
    exact loose.bounded
  · intro other inUsed
    have kept := (congrArg DhcpConn.isReserved (bare other) :)
    exact Eq.trans kept (loose.reserved other inUsed)
  · intro other inUsed
    exact (SameKey.of_bare (bare other)).hismac.trans (loose.hismac other inUsed)

theorem InList.initConn (inList : InList dhcpHash options dhcp dhcp' used free index)
    (newMac : ∀ other ∈ used, (dhcp.conn other).hismac ≠ mac) (surroundings : Surroundings) :
    ∃ next, initConn dhcpHash dhcp' index mac surroundings = some next ∧
      NewConn dhcpHash options dhcp next used mac index := by
  obtain ⟨notThere, -⟩ := List.nodup_cons.mp inList.lists.once
  have notUsed : index ∉ used := fun inUsed => notThere (List.mem_append_left _ inUsed)
  have notFree : index ∉ free := fun inFree => notThere (List.mem_append_right _ inFree)
  generalize filledEq : dhcp'.change index (.fill dhcp' mac surroundings.now) = filled
  have own : filled.conn index = (dhcp'.conn index).fill dhcp' mac surroundings.now := by
    rw [← filledEq]
    exact alter_self
  have others : ∀ other, other ≠ index → filled.conn other = dhcp'.conn other := by
    intro other apart
    rw [← filledEq]
    exact alter_of_ne apart
  have lists : ConnLists filled (index :: used) free := by
    rw [← filledEq]
    exact inList.lists.change (fun _ => rfl) fun _ => rfl
  have table : ConnTable dhcpHash filled used free := by
    refine inList.table.congr ?_ (fun _ member => member) ?_ ?_
    · intro other there
      have apart : other ≠ index := by
        rintro rfl
        exact there.elim notUsed notFree
      rw [others other apart]
      exact SameKey.refl _
    · rw [← filledEq]
      rfl
    · rw [← filledEq]
      rfl
  have apart : ∀ other ∈ used, other ≠ index := fun other inUsed same => notUsed (same ▸ inUsed)
  obtain ⟨key, previous, added, table'⟩ := table.hashadd
    (fun other inUsed => lists.below other (List.mem_cons_of_mem index inUsed)) notUsed
    (by rw [own]; exact inList.unlinked) (by rw [own]; rfl) (by rw [own]; rfl)
    (by
      intro other inUsed
      rw [others other (apart other inUsed), own, inList.hismac other inUsed]
      exact newMac other inUsed)
  have entered : DhcpStore dhcpHash options (filled.rechain key previous (some index)) (index :: used)
      free := by
    refine ⟨lists.rechain, table', ?_, ?_⟩
    · rw [← filledEq]
      exact inList.counted
    · rw [← filledEq]
      exact inList.bounded
  refine ⟨(filled.rechain key previous (some index)).change index fun conn =>
    { conn with authstate := surroundings.authstate }, ?_, ⟨free, entered.change ?_⟩, ?_, ?_⟩
  · rw [Chilli.initConn, filledEq, added]
    rfl
  · exact ⟨fun _ => rfl, fun _ => rfl, fun _ => ⟨rfl, rfl, rfl, rfl⟩⟩
  · simp only [Dhcp.change, alter_self]
    rw [(rechain_key index).1, own]
    rfl
  · intro other inUsed
    simp only [Dhcp.change, alter_of_ne (apart other inUsed)]
    have record : ((filled.rechain key previous (some index)).conn other).isReserved =
        (filled.conn other).isReserved := (congrArg DhcpConn.isReserved (rechain_unchained other) :)
    rw [record, others other (apart other inUsed)]
    exact inList.reserved other inUsed

/-- No connection is handed out, and only the counter may differ. -/
structure Refused (dhcpHash : Mac → UInt32) (options : DhcpOptions) (dhcp dhcp' : Dhcp)
    (used free : List Nat) : Prop where
  store : DhcpStore dhcpHash options dhcp' used free
  same : ∃ connections, dhcp' = { dhcp with connections := connections }

theorem dhcpLnkconn_empty (first : dhcp.firstfreeconn = none) (memory : Bool) :
    dhcpLnkconn options dhcp memory =
      if dhcp.connections = options.maxClients then (dhcp, none)
      else if memory then
        (linkUsed { dhcp with
          conn := alter dhcp.conn dhcp.allocated fun _ => .zero
          allocated := dhcp.allocated + 1
          connections := dhcp.connections + 1 } dhcp.allocated, some dhcp.allocated)
      else ({ dhcp with connections := dhcp.connections + 1 }, none) := by
  rw [dhcpLnkconn]
  split
  · rfl
  · rename_i index found
    rw [first] at found
    cases found

theorem dhcpLnkconn_free (first : dhcp.firstfreeconn = some index) (memory : Bool) :
    dhcpLnkconn options dhcp memory = (linkUsed (takeFree dhcp index) index, some index) := by
  rw [dhcpLnkconn]
  split
  · rename_i found
    rw [first] at found
    cases found
  · rename_i other found
    rw [first] at found
    cases found
    rfl

theorem DhcpStore.counter (store : DhcpStore dhcpHash options dhcp used free)
    (room : dhcp.connections ≠ options.maxClients) :
    DhcpStore dhcpHash options { dhcp with connections := dhcp.connections + 1 } used free where
  lists := ⟨store.lists.usedList, store.lists.freeList, store.lists.once, store.lists.all⟩
  table := store.table.congr (fun _ _ => SameKey.refl _) (fun _ member => member) rfl rfl
  counted := Nat.le_succ_of_le store.counted
  bounded := Nat.lt_of_le_of_ne store.bounded room

theorem DhcpStore.newconn (store : DhcpStore dhcpHash options dhcp used free)
    (newMac : ∀ other ∈ used, (dhcp.conn other).hismac ≠ mac) (surroundings : Surroundings) :
    ∃ next result, dhcpNewconn dhcpHash options dhcp mac surroundings = some (next, result) ∧
      match result with
      | some index => NewConn dhcpHash options dhcp next used mac index
      | none => Refused dhcpHash options dhcp next used free := by
  rw [dhcpNewconn]
  cases first : dhcp.firstfreeconn with
  | none =>
      have empty : free = [] := by
        have start := store.lists.freeList.forward.start_eq.symm.trans first
        exact List.head?_eq_none_iff.mp start
      subst empty
      rw [dhcpLnkconn_empty first]
      by_cases full : dhcp.connections = options.maxClients
      · rw [if_pos full]
        exact ⟨dhcp, none, rfl, store, dhcp.connections, rfl⟩
      · rw [if_neg full]
        cases surroundings.memory with
        | false => exact ⟨_, none, rfl, store.counter full, _, rfl⟩
        | true =>
            obtain ⟨next, entered, isNew⟩ := (store.allocate full).linkUsed.initConn newMac surroundings
            refine ⟨next, some dhcp.allocated, ?_, isNew⟩
            rw [if_pos rfl]
            simp only [entered]
            rfl
  | some index =>
      have start := store.lists.freeList.forward.start_eq.symm.trans first
      obtain ⟨rest, rfl⟩ := List.head?_eq_some_iff.mp start
      obtain ⟨next, entered, isNew⟩ := store.takeFree.linkUsed.initConn newMac surroundings
      refine ⟨next, some index, ?_, isNew⟩
      rw [dhcpLnkconn_free first]
      simp only [entered]
      rfl

/-! ## Release -/

/-- Every reserved connection stays in use and stays reserved. -/
def ReservedStay (dhcp dhcp' : Dhcp) (used used' : List Nat) : Prop :=
  ∀ other ∈ used, (dhcp.conn other).isReserved = true →
    other ∈ used' ∧ (dhcp'.conn other).isReserved = true

theorem ReservedStay.refl (dhcp : Dhcp) (used : List Nat) : ReservedStay dhcp dhcp used used :=
  fun _ inUsed reserved => ⟨inUsed, reserved⟩

theorem ReservedStay.trans {last : Dhcp} {used'' : List Nat} (first : ReservedStay dhcp dhcp' used used')
    (second : ReservedStay dhcp' last used' used'') : ReservedStay dhcp last used used'' := by
  intro other inUsed reserved
  obtain ⟨inUsed', reserved'⟩ := first other inUsed reserved
  exact second other inUsed' reserved'

/-- The connection is unlinked, cleared and put in front of the free ones. -/
def putBack (dhcp : Dhcp) (index : Nat) : Dhcp :=
  linkFree ((unlinkUsed dhcp index).change index fun _ => .zero) index

theorem putBack_rest :
    (putBack dhcp index).hash = dhcp.hash ∧ (putBack dhcp index).hashmask = dhcp.hashmask ∧
      (putBack dhcp index).allocated = dhcp.allocated ∧
        (putBack dhcp index).connections = dhcp.connections := by
  rw [putBack, linkFree_eq]
  simp only [Dhcp.change]
  rw [unlinkUsed_eq]
  exact ⟨rfl, rfl, rfl, rfl⟩

theorem putBack_bare (apart : other ≠ index) :
    ((putBack dhcp index).conn other).bare = (dhcp.conn other).bare := by
  rw [putBack, linkFree_bare]
  simp only [Dhcp.change, alter_of_ne apart]
  exact unlinkUsed_bare other

theorem putBack_cleared : ((putBack dhcp index).conn index).bare = DhcpConn.zero.bare := by
  rw [putBack, linkFree_bare]
  simp only [Dhcp.change, alter_self]

/-- What `dhcp_freeconn` does to a connection that is not reserved, behind the callback. -/
theorem DhcpStore.remove (store : DhcpStore dhcpHash options dhcp (before ++ index :: after) free) :
    ∃ removed, dhcpHashdel dhcpHash dhcp index = some (some removed) ∧
      DhcpStore dhcpHash options (putBack removed index) (before ++ after) (index :: free) ∧
      ∀ other, other ≠ index →
        ((putBack removed index).conn other).isReserved = (dhcp.conn other).isReserved := by
  have member : index ∈ before ++ index :: after := by simp
  have once : (index :: (before ++ after)).Nodup := by
    have distinct := (List.nodup_append.mp store.lists.once).1
    exact List.nodup_middle.mp distinct
  have gone := (List.nodup_cons.mp once).1
  have left : ∀ other, other ∈ before ++ after ↔ other ∈ before ++ index :: after ∧ other ≠ index := by
    intro other
    rw [List.perm_middle.mem_iff, List.mem_cons]
    constructor
    · intro there
      exact ⟨.inr there, fun same => gone (same ▸ there)⟩
    · rintro ⟨same | there, apart⟩
      · exact absurd same apart
      · exact there
  obtain ⟨key, previous, target, deleted, table⟩ := store.table.hashdel store.lists.below member left
  have loose := (store.lists.rechain : ConnLists (dhcp.rechain key previous target) _ _).unlinkUsed
  obtain ⟨-, notFree, -⟩ := loose.apart
  obtain ⟨hash, hashmask, allocated, connections⟩ :=
    @putBack_rest (dhcp.rechain key previous target) index
  refine ⟨_, deleted, ⟨loose.linkFree, ?_, ?_, ?_⟩, ?_⟩
  · have others : ConnTable dhcpHash (putBack (dhcp.rechain key previous target) index)
        (before ++ after) free := by
      refine table.congr ?_ (fun _ inFree => inFree) hash hashmask
      intro other there
      refine .of_bare (putBack_bare ?_)
      rintro rfl
      exact there.elim gone notFree
    refine ⟨others.hashed, others.distinct, others.inuse, others.parent, ?_⟩
    intro other inFree
    rcases List.mem_cons.mp inFree with rfl | inFree
    · exact (congrArg DhcpConn.parent putBack_cleared :)
    · exact others.idle other inFree
  · rw [allocated, connections]
    exact store.counted
  · rw [connections]
    exact store.bounded
  · intro other apart
    have bare := (congrArg DhcpConn.isReserved
      (@putBack_bare (dhcp.rechain key previous target) index other apart) :)
    have chained := (congrArg DhcpConn.isReserved
      (@rechain_unchained dhcp target key previous other) :)
    exact Eq.trans bare chained

theorem DhcpStore.freeconn (store : DhcpStore dhcpHash options dhcp (before ++ index :: after) free)
    (authstate : Nat) :
    ∃ next used' free', dhcpFreeconn dhcpHash dhcp index authstate = some next ∧
      DhcpStore dhcpHash options next used' free' ∧
      ReservedStay dhcp next (before ++ index :: after) used' ∧
      (used' = before ++ index :: after ∨ used' = before ++ after) := by
  have member : index ∈ before ++ index :: after := by simp
  have valid : (index < dhcp.allocated && (dhcp.conn index).parent) = true := by
    simp [store.lists.below index member, store.table.parent index member]
  generalize calledEq : dhcp.change index (fun conn => { conn with authstate := authstate }) = called
  have changed : DhcpStore dhcpHash options called (before ++ index :: after) free := by
    rw [← calledEq]
    exact store.change ⟨fun _ => rfl, fun _ => rfl, fun _ => ⟨rfl, rfl, rfl, rfl⟩⟩
  have kept : ∀ other, (called.conn other).isReserved = (dhcp.conn other).isReserved := by
    intro other
    rw [← calledEq]
    by_cases same : other = index
    · rw [same]
      simp only [Dhcp.change, alter_self]
    · simp only [Dhcp.change, alter_of_ne same]
  have call : dhcpFreeconn dhcpHash dhcp index authstate =
      if (called.conn index).isReserved then some called
      else (dhcpHashdel dhcpHash called index).bind fun removed =>
        some (putBack (removed.getD called) index) := by
    rw [dhcpFreeconn, valid, calledEq]
    rfl
  rw [call]
  cases reserved : (called.conn index).isReserved with
  | true =>
      exact ⟨called, _, free, rfl, changed, fun other inUsed isReserved =>
        ⟨inUsed, (kept other).trans isReserved⟩, .inl rfl⟩
  | false =>
      obtain ⟨removed, deleted, store', others⟩ := changed.remove
      refine ⟨putBack removed index, before ++ after, index :: free, ?_, store', ?_, .inr rfl⟩
      · rw [deleted]
        rfl
      · intro other inUsed isReserved
        have apart : other ≠ index := by
          rintro rfl
          rw [kept, isReserved] at reserved
          cases reserved
        rw [List.perm_middle.mem_iff, List.mem_cons] at inUsed
        refine ⟨inUsed.resolve_left apart, ?_⟩
        rw [others other apart, kept]
        exact isReserved

theorem DhcpStore.checkLoop (now : Int) (authstate : Nat → Nat) {rest : List Nat} {fuel : Nat}
    (store : DhcpStore dhcpHash options dhcp (before ++ rest) free) (enough : rest.length ≤ fuel) :
    ∃ next used' free', checkLoop dhcpHash options now authstate fuel rest.head? dhcp = some next ∧
      DhcpStore dhcpHash options next used' free' ∧ ReservedStay dhcp next (before ++ rest) used' := by
  -- the connections in `before` have been checked and are still in use
  induction rest generalizing dhcp before free fuel with
  | nil => exact ⟨dhcp, _, free, by rw [List.head?_nil, Chilli.checkLoop], store, .refl dhcp _⟩
  | cons index rest ih =>
      obtain ⟨fuel, rfl⟩ : ∃ more, fuel = more + 1 := ⟨fuel - 1, by simp at enough; omega⟩
      have enough' : rest.length ≤ fuel := by simpa using enough
      have following : (dhcp.conn index).next = rest.head? := (store.lists.usedList.neighbours rfl).2
      have shifted : before ++ index :: rest = (before ++ [index]) ++ rest := by simp
      rw [List.head?_cons, Chilli.checkLoop, following]
      by_cases expired : dhcp.expired options now index = true
      · obtain ⟨next, used', free', freed, store', stay, shape⟩ := store.freeconn (authstate index)
        have whole : ∃ before', used' = before' ++ rest := by
          rcases shape with rfl | rfl
          · exact ⟨_, shifted⟩
          · exact ⟨before, rfl⟩
        obtain ⟨before', rfl⟩ := whole
        obtain ⟨last, used'', free'', ran, store'', stay'⟩ := ih store' enough'
        refine ⟨last, used'', free'', ?_, store'', stay.trans stay'⟩
        simp only [expired, if_true, freed]
        exact ran
      · rw [shifted] at store ⊢
        obtain ⟨last, used'', free'', ran, store'', stay'⟩ := ih store enough'
        refine ⟨last, used'', free'', ?_, store'', stay'⟩
        simp only [expired, Bool.false_eq_true, if_false]
        exact ran

/-! ## Runs -/

inductive DhcpEvent where
  | getconn (mac : Mac) (doAlloc : Bool) (surroundings : Surroundings)
  | freeconn (index authstate : Nat)
  | releaseMac (mac : Mac) (termCause authstate : Nat)
  | checkconn (now : Int) (authstate : Nat → Nat)
  | reserveIp (mac : Mac) (surroundings : Surroundings)
  /-- What the rest of the program writes to a connection. -/
  | touch (index : Nat) (lasttime : Int) (authstate : Nat)

def dhcpStep (dhcpHash : Mac → UInt32) (options : DhcpOptions) (dhcp : Dhcp) : DhcpEvent → Option Dhcp
  | .getconn mac doAlloc surroundings =>
      (dhcpGetconn dhcpHash options dhcp mac doAlloc surroundings).map Prod.fst
  | .freeconn index authstate => dhcpFreeconn dhcpHash dhcp index authstate
  | .releaseMac mac termCause authstate => dhcpReleaseMac dhcpHash dhcp mac termCause authstate
  | .checkconn now authstate => dhcpCheckconn dhcpHash options dhcp now authstate
  | .reserveIp mac surroundings => (dhcpReserveIp dhcpHash options dhcp mac surroundings).map Prod.fst
  | .touch index lasttime authstate =>
      some (dhcp.change index fun conn => { conn with lasttime := lasttime, authstate := authstate })

/-- The only call that is not possible at any time: one for a connection that is not in use. -/
def Callable (used : List Nat) : DhcpEvent → Prop
  | .freeconn index _ => index ∈ used
  | _ => True

theorem DhcpStore.getconn (store : DhcpStore dhcpHash options dhcp used free) (mac : Mac)
    (doAlloc : Bool) (surroundings : Surroundings) :
    ∃ next result used' free',
      dhcpGetconn dhcpHash options dhcp mac doAlloc surroundings = some (next, result) ∧
      DhcpStore dhcpHash options next used' free' ∧ ReservedStay dhcp next used used' ∧
      match result with
      | some index => index ∈ used' ∧ (next.conn index).hismac = mac
      | none => ∃ connections, next = { dhcp with connections := connections } := by
  obtain ⟨found, got, which⟩ := store.table.hashget store.lists mac
  rw [dhcpGetconn, got]
  cases found with
  | some index => exact ⟨dhcp, some index, used, free, rfl, store, .refl dhcp used, (which index).mp rfl⟩
  | none =>
      have newMac : ∀ other ∈ used, (dhcp.conn other).hismac ≠ mac := by
        intro other inUsed same
        cases (which other).mpr ⟨inUsed, same⟩
      cases doAlloc with
      | false => exact ⟨dhcp, none, used, free, rfl, store, .refl dhcp used, dhcp.connections, rfl⟩
      | true =>
          obtain ⟨next, result, call, made⟩ := store.newconn newMac surroundings
          cases result with
          | none =>
              obtain ⟨connections, rfl⟩ := made.same
              exact ⟨_, none, used, free, call, made.store, fun _ inUsed reserved => ⟨inUsed, reserved⟩,
                connections, rfl⟩
          | some index =>
              obtain ⟨free', store'⟩ := made.store
              refine ⟨next, some index, index :: used, free', call, store', ?_, List.mem_cons_self,
                made.mac⟩
              intro other inUsed reserved
              exact ⟨List.mem_cons_of_mem index inUsed, (made.reserved other inUsed).trans reserved⟩

theorem DhcpStore.releaseMac (store : DhcpStore dhcpHash options dhcp used free) (mac : Mac)
    (termCause authstate : Nat) :
    ∃ next used' free', dhcpReleaseMac dhcpHash dhcp mac termCause authstate = some next ∧
      DhcpStore dhcpHash options next used' free' ∧ ReservedStay dhcp next used used' ∧
      ((∀ index ∈ used, (dhcp.conn index).hismac ≠ mac) → next = dhcp) := by
  obtain ⟨found, got, which⟩ := store.table.hashget store.lists mac
  rw [dhcpReleaseMac, got]
  cases found with
  | none => exact ⟨dhcp, used, free, rfl, store, .refl dhcp used, fun _ => rfl⟩
  | some index =>
      obtain ⟨inUsed, same⟩ := (which index).mp rfl
      by_cases stays : (dhcp.conn index).authstate = dhcpAuthDrop ∧ termCause ≠ terminateCauseAdminReset
      · exact ⟨dhcp, used, free, if_pos stays, store, .refl dhcp used, fun _ => rfl⟩
      · obtain ⟨before, after, rfl⟩ := List.append_of_mem inUsed
        obtain ⟨next, used', free', freed, store', stay, -⟩ := store.freeconn authstate
        exact ⟨next, used', free', (if_neg stays).trans freed, store', stay,
          fun unknown => absurd same (unknown index inUsed)⟩

/-- Each call ends, and keeps the store. -/
theorem DhcpStore.step (store : DhcpStore dhcpHash options dhcp used free) (event : DhcpEvent)
    (callable : Callable used event) :
    ∃ next used' free', dhcpStep dhcpHash options dhcp event = some next ∧
      DhcpStore dhcpHash options next used' free' ∧ ReservedStay dhcp next used used' := by
  cases event with
  | getconn mac doAlloc surroundings =>
      obtain ⟨next, result, used', free', call, store', stay, -⟩ := store.getconn mac doAlloc surroundings
      exact ⟨next, used', free', by rw [dhcpStep, call]; rfl, store', stay⟩
  | freeconn index authstate =>
      obtain ⟨before, after, rfl⟩ := List.append_of_mem callable
      obtain ⟨next, used', free', freed, store', stay, -⟩ := store.freeconn authstate
      exact ⟨next, used', free', freed, store', stay⟩
  | releaseMac mac termCause authstate =>
      obtain ⟨next, used', free', released, store', stay, -⟩ := store.releaseMac mac termCause authstate
      exact ⟨next, used', free', released, store', stay⟩
  | checkconn now authstate =>
      have length : used.length ≤ dhcp.allocated :=
        store.lists.usedList.forward.length_le store.lists.below
      obtain ⟨next, used', free', checked, store', stay⟩ :=
        @DhcpStore.checkLoop dhcpHash options dhcp free [] now authstate used _ store length
      refine ⟨next, used', free', ?_, store', stay⟩
      rw [dhcpStep, dhcpCheckconn, store.lists.usedList.forward.start_eq]
      exact checked
  | reserveIp mac surroundings =>
      obtain ⟨next, result, used', free', call, store', stay, shape⟩ :=
        store.getconn mac true surroundings
      rw [dhcpStep, dhcpReserveIp, call]
      cases result with
      | none => exact ⟨next, used', free', rfl, store', stay⟩
      | some index =>
          refine ⟨_, used', free', rfl, store'.change ?_, ?_⟩
          · exact ⟨fun _ => rfl, fun _ => rfl, fun _ => ⟨rfl, rfl, rfl, rfl⟩⟩
          · intro other inUsed reserved
            obtain ⟨inUsed', reserved'⟩ := stay other inUsed reserved
            refine ⟨inUsed', ?_⟩
            by_cases same : other = index
            · rw [same]
              simp only [Dhcp.change, alter_self]
            · simp only [Dhcp.change, alter_of_ne same]
              exact reserved'
  | touch index lasttime authstate =>
      refine ⟨_, used, free, rfl, store.change ?_, ?_⟩
      · exact ⟨fun _ => rfl, fun _ => rfl, fun _ => ⟨rfl, rfl, rfl, rfl⟩⟩
      · intro other inUsed reserved
        refine ⟨inUsed, ?_⟩
        by_cases same : other = index
        · subst same
          simp only [Dhcp.change, alter_self]
          exact reserved
        · simp only [Dhcp.change, alter_of_ne same]
          exact reserved

/-- A call that has a result is one that is possible: a free connection has no parent. -/
theorem DhcpStore.callable_of_step (store : DhcpStore dhcpHash options dhcp used free)
    {event : DhcpEvent} {next : Dhcp} (stepped : dhcpStep dhcpHash options dhcp event = some next) :
    Callable used event := by
  cases event with
  | freeconn index authstate =>
      obtain ⟨_, valid, -⟩ := Option.bind_eq_some_iff.mp stepped
      have both := require_eq_some.mp valid
      simp only [Bool.and_eq_true, decide_eq_true_eq] at both
      rcases List.mem_append.mp ((store.lists.all index).mpr both.1) with inUsed | inFree
      · exact inUsed
      · have none := store.table.idle index inFree
        rw [both.2] at none
        cases none
  | getconn mac doAlloc surroundings => trivial
  | releaseMac mac termCause authstate => trivial
  | checkconn now authstate => trivial
  | reserveIp mac surroundings => trivial
  | touch index lasttime authstate => trivial

/-- As `dhcp_new` leaves it. -/
def Dhcp.fresh (hashmask : UInt32) (lease : Int) (mtu : UInt16) (noc2c : Bool) : Dhcp where
  conn := fun _ => .zero
  allocated := 0
  connections := 0
  hash := fun _ => none
  hashmask := hashmask
  firstfreeconn := none
  lastfreeconn := none
  firstusedconn := none
  lastusedconn := none
  lease := lease
  mtu := mtu
  noc2c := noc2c

theorem fresh_store (dhcpHash : Mac → UInt32) (options : DhcpOptions) (hashmask : UInt32) (lease : Int)
    (mtu : UInt16) (noc2c : Bool) :
    DhcpStore dhcpHash options (.fresh hashmask lease mtu noc2c) [] [] where
  lists := ⟨⟨rfl, rfl⟩, ⟨rfl, rfl⟩, List.nodup_nil, fun index => by simp [Dhcp.fresh]⟩
  table := by
    refine ⟨⟨fun _ => [], HashChains.empty.congr (by simp) fun _ _ => ⟨rfl, rfl⟩⟩, ?_, ?_, ?_, ?_⟩
    all_goals
      intro index member
      cases member
  counted := Nat.le_refl _
  bounded := Nat.zero_le _

/-- What holds of a state of the store and of each call in it. -/
structure StoreSound (dhcpHash : Mac → UInt32) (options : DhcpOptions) (dhcp : Dhcp)
    (used free : List Nat) : Prop where
  store : DhcpStore dhcpHash options dhcp used free
  found : ∀ index ∈ used, dhcpHashget dhcpHash dhcp (dhcp.conn index).hismac = some (some index)
  limited : dhcp.allocated ≤ options.maxClients
  /-- Each call comes to an end, and no reserved connection is freed in it. -/
  ends : ∀ event, Callable used event → ∃ next used' free',
    dhcpStep dhcpHash options dhcp event = some next ∧
      DhcpStore dhcpHash options next used' free' ∧ ReservedStay dhcp next used used'
  /-- A request that fails changes nothing but the counter. -/
  refused : ∀ mac doAlloc surroundings next,
    dhcpGetconn dhcpHash options dhcp mac doAlloc surroundings = some (next, none) →
      ∃ connections, next = { dhcp with connections := connections }
  unknown : ∀ mac termCause authstate, (∀ index ∈ used, (dhcp.conn index).hismac ≠ mac) →
    dhcpReleaseMac dhcpHash dhcp mac termCause authstate = some dhcp

theorem DhcpStore.sound (store : DhcpStore dhcpHash options dhcp used free) :
    StoreSound dhcpHash options dhcp used free where
  store := store
  found := by
    intro index inUsed
    obtain ⟨found, got, which⟩ := store.table.hashget store.lists (dhcp.conn index).hismac
    rw [got, (which index).mpr ⟨inUsed, rfl⟩]
  limited := Nat.le_trans store.counted store.bounded
  ends := store.step
  refused := by
    intro mac doAlloc surroundings next call
    obtain ⟨_, result, _, _, call', -, -, shape⟩ := store.getconn mac doAlloc surroundings
    rw [call] at call'
    cases call'
    exact shape
  unknown := by
    intro mac termCause authstate absent
    obtain ⟨next, _, _, released, -, -, same⟩ := store.releaseMac mac termCause authstate
    rw [released, same absent]

/-- The store is sound in every state of every run. -/
theorem dhcpStore_sound (dhcpHash : Mac → UInt32) (options : DhcpOptions) (hashmask : UInt32)
    (lease : Int) (mtu : UInt16) (noc2c : Bool) {events : List DhcpEvent} {final : Dhcp}
    (ran : Data.run (dhcpStep dhcpHash options) (.fresh hashmask lease mtu noc2c) events = some final) :
    ∃ used free, StoreSound dhcpHash options final used free := by
  have start : ∃ used free, DhcpStore dhcpHash options (.fresh hashmask lease mtu noc2c) used free :=
    ⟨[], [], fresh_store dhcpHash options hashmask lease mtu noc2c⟩
  have kept : ∃ used free, DhcpStore dhcpHash options final used free := by
    refine @run_keeps _ _ _ (fun state => ∃ used free, DhcpStore dhcpHash options state used free) _ _ _
      ?_ start ran
    rintro state event next ⟨used, free, store⟩ stepped
    obtain ⟨next', used', free', stepped', store', -⟩ :=
      store.step event (store.callable_of_step stepped)
    rw [stepped] at stepped'
    cases stepped'
    exact ⟨used', free', store'⟩
  obtain ⟨used, free, store⟩ := kept
  exact ⟨used, free, store.sound⟩

/-- A client that comes, is released, and comes again. -/
theorem dhcpStore_sound_again :
    ∃ final used free, StoreSound (fun _ => 5) ⟨2, 0⟩ final used free := by
  obtain ⟨final, ran⟩ : ∃ final, Data.run (dhcpStep (fun _ => 5) ⟨2, 0⟩) (.fresh 1 600 1500 false)
      [.getconn (Vector.replicate 6 1) true ⟨true, 10, 0⟩, .freeconn 0 0,
        .getconn (Vector.replicate 6 1) true ⟨true, 20, 0⟩] = some final := ⟨_, rfl⟩
  exact ⟨final, dhcpStore_sound (fun _ => 5) ⟨2, 0⟩ 1 600 1500 false ran⟩

end Rut9xx.Chilli
