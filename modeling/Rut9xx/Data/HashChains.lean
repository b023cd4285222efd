import Rut9xx.Data.Chain

namespace Rut9xx.Data

/-! # Hash tables with chains

Each node that is present is in the chain of its key, and the chains hold no others. -/

variable {ι Key : Type} {heads : Key → Option ι} {next next' : ι → Option ι} {keyOf keyOf' : ι → Key}
  {present present' : ι → Prop} {chains : Key → List ι} {key : Key} {node : ι}
  {previous target : Option ι} {nodes before after : List ι}

structure HashChains (heads : Key → Option ι) (next : ι → Option ι) (keyOf : ι → Key)
    (present : ι → Prop) (chains : Key → List ι) : Prop where
  walks : ∀ key, IsChain next (heads key) (chains key)
  mem : ∀ key node, node ∈ chains key ↔ present node ∧ keyOf node = key

theorem HashChains.congr (table : HashChains heads next keyOf present chains)
    (samePresent : ∀ node, present' node ↔ present node)
    (same : ∀ node, present node → next' node = next node ∧ keyOf' node = keyOf node) :
    HashChains heads next' keyOf' present' chains where
  walks key := (table.walks key).congr fun node member => (same node ((table.mem key node).mp member).1).1
  mem key node := by
    rw [table.mem, samePresent]
    exact and_congr_right fun there => by rw [(same node there).2]

theorem HashChains.empty : HashChains (fun _ => none) next keyOf (fun _ => False) fun _ : Key => [] where
  walks _ := rfl
  mem := by simp

theorem HashChains.own_chain (table : HashChains heads next keyOf present chains)
    (there : present node) : node ∈ chains (keyOf node) := (table.mem _ node).mpr ⟨there, rfl⟩

variable [DecidableEq ι] [DecidableEq Key]

/-- One chain is walked anew, from a link that was redirected in it. -/
theorem HashChains.rechain (table : HashChains heads next keyOf present chains)
    (own : ∀ node, previous = some node → node ∈ chains key)
    (chain : IsChain (relink next previous target) (rehead (heads key) previous target) nodes)
    (members : ∀ node, node ∈ nodes ↔ present' node ∧ keyOf node = key)
    (others : ∀ node, keyOf node ≠ key → (present' node ↔ present node)) :
    HashChains (Function.update heads key (rehead (heads key) previous target))
      (relink next previous target) keyOf present' (Function.update chains key nodes) where
  walks other := by
    by_cases same : other = key
    · subst same
      rw [Function.update_self, Function.update_self]
      exact chain
    · rw [Function.update_of_ne same, Function.update_of_ne same]
      refine (table.walks other).congr fun node inOther => relink_of_ne fun isPrevious => ?_
      have inKey := ((table.mem key node).mp (own node isPrevious)).2
      exact same (((table.mem other node).mp inOther).2.symm.trans inKey)
  mem other node := by
    by_cases same : other = key
    · subst same
      rw [Function.update_self]
      exact members node
    · rw [Function.update_of_ne same, table.mem other node]
      refine and_congr_left fun there => (others node ?_).symm
      rw [there]
      exact same

theorem HashChains.append (table : HashChains heads next keyOf present chains)
    (new : ¬ present node) (unlinked : next node = none) :
    HashChains
      (Function.update heads (keyOf node)
        (rehead (heads (keyOf node)) (chains (keyOf node)).getLast? (some node)))
      (relink next (chains (keyOf node)).getLast? (some node)) keyOf
      (fun other => other = node ∨ present other)
      (Function.update chains (keyOf node) (chains (keyOf node) ++ [node])) := by
  have fresh : node ∉ chains (keyOf node) := fun there => new ((table.mem _ node).mp there).1
  refine table.rechain (fun other last => List.mem_of_getLast? last)
    ((table.walks _).append_node fresh unlinked) ?_ ?_
  · intro other
    rw [List.mem_append, table.mem, List.mem_singleton]
    constructor
    · rintro (⟨there, inKey⟩ | rfl)
      · exact ⟨.inr there, inKey⟩
      · exact ⟨.inl rfl, rfl⟩
    · rintro ⟨rfl | there, inKey⟩
      · exact .inr rfl
      · exact .inl ⟨there, inKey⟩
  · intro other elsewhere
    refine or_iff_right ?_
    rintro rfl
    exact elsewhere rfl

theorem HashChains.remove (table : HashChains heads next keyOf present chains)
    (placed : chains (keyOf node) = before ++ node :: after) :
    HashChains
      (Function.update heads (keyOf node)
        (rehead (heads (keyOf node)) before.getLast? (next node)))
      (relink next before.getLast? (next node)) keyOf
      (fun other => present other ∧ other ≠ node)
      (Function.update chains (keyOf node) (before ++ after)) := by
  have chain := table.walks (keyOf node)
  rw [placed] at chain
  have distinct : (node :: (before ++ after)).Nodup := List.nodup_middle.mp chain.nodup
  have gone : node ∉ before ++ after := distinct.notMem
  refine table.rechain (fun other last => ?_) chain.remove_node ?_ ?_
  · rw [placed]
    exact List.mem_append_left _ (List.mem_of_getLast? last)
  · intro other
    have order : other ∈ chains (keyOf node) ↔ other = node ∨ other ∈ before ++ after := by
      rw [placed, List.perm_middle.mem_iff, List.mem_cons]
    rw [table.mem] at order
    constructor
    · intro left
      obtain ⟨isPresent, inKey⟩ := order.mpr (.inr left)
      exact ⟨⟨isPresent, fun same => gone (same ▸ left)⟩, inKey⟩
    · rintro ⟨⟨isPresent, apart⟩, inKey⟩
      exact (order.mp ⟨isPresent, inKey⟩).resolve_left apart
  · intro other elsewhere
    refine and_iff_left ?_
    rintro rfl
    exact elsewhere rfl

end Rut9xx.Data
