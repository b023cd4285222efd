import Mathlib.Data.List.Basic
import Mathlib.Data.List.Nodup
import Mathlib.Data.List.Perm.Subperm
import Mathlib.Logic.Function.Basic

namespace Rut9xx.Data

/-! # Intrusive lists

Nodes carry their own links.  `IsChain next start nodes` says which nodes a
walk from `start` along `next` visits before it meets a null link.
-/

section

variable {ι : Type} {next next' prev prev' : ι → Option ι} {start first last target : Option ι}
  {node : ι} {nodes before after rest : List ι}

def IsChain (next : ι → Option ι) : Option ι → List ι → Prop
  | start, [] => start = none
  | start, node :: rest => start = some node ∧ IsChain next (next node) rest

theorem IsChain.start_eq (chain : IsChain next start nodes) : start = nodes.head? := by
  cases nodes with
  | nil => exact chain
  | cons node rest => exact chain.1

theorem IsChain.congr (chain : IsChain next start nodes)
    (same : ∀ node ∈ nodes, next' node = next node) : IsChain next' start nodes := by
  induction nodes generalizing start with
  | nil => exact chain
  | cons node rest ih =>
      refine ⟨chain.1, ?_⟩
      rw [same node (by simp)]
      exact ih chain.2 fun other member => same other (List.mem_cons_of_mem _ member)

theorem IsChain.unique {others : List ι} (chain : IsChain next start nodes)
    (other : IsChain next start others) : nodes = others := by
  induction nodes generalizing start others with
  | nil =>
      cases others with
      | nil => rfl
      | cons node rest => exact absurd (chain.symm.trans other.1) (by simp)
  | cons node rest ih =>
      cases others with
      | nil => exact absurd (other.symm.trans chain.1) (by simp)
      | cons node' rest' =>
          obtain rfl : node = node' := Option.some.inj (chain.1.symm.trans other.1)
          rw [ih chain.2 other.2]

theorem IsChain.tail (chain : IsChain next start (before ++ node :: after)) :
    IsChain next (next node) after := by
  induction before generalizing start with
  | nil => exact chain.2
  | cons _ _ ih => exact ih chain.2

theorem IsChain.next_eq (chain : IsChain next start (before ++ node :: after)) :
    next node = after.head? :=
  chain.tail.start_eq

/-- A walk that ends meets no node twice: the two tails would be one. -/
theorem IsChain.nodup (chain : IsChain next start nodes) : nodes.Nodup := by
  induction nodes generalizing start with
  | nil => exact List.nodup_nil
  | cons node rest ih =>
      refine List.nodup_cons.mpr ⟨fun again => ?_, ih chain.2⟩
      obtain ⟨before, after, split⟩ := List.append_of_mem again
      have shorter : rest = after := chain.2.unique (by rw [split] at chain; exact chain.2.tail)
      have lengths := congrArg List.length split
      rw [shorter] at lengths
      simp only [List.length_append, List.length_cons] at lengths
      omega

theorem IsChain.length_le {bound : Nat} {nodes : List Nat} {next : Nat → Option Nat}
    {start : Option Nat} (chain : IsChain next start nodes) (below : ∀ node ∈ nodes, node < bound) :
    nodes.length ≤ bound := by
  have sub : nodes ⊆ List.range bound := fun node member => List.mem_range.mpr (below node member)
  simpa using (chain.nodup.subperm sub).length_le

/-! ## Walking -/

/-- Walk to the first node that `stop` accepts; the node before it comes along.
`none` when the walk is still going after `fuel` nodes. -/
def scan (next : ι → Option ι) (stop : ι → Bool) :
    Nat → Option ι → Option ι → Option (Option ι × Option ι)
  | _, previous, none => some (previous, none)
  | 0, _, some _ => none
  | fuel + 1, previous, some node =>
      if stop node then some (previous, some node)
      else scan next stop fuel (some node) (next node)

variable {stop : ι → Bool} {fuel : Nat} {previous : Option ι}

theorem scan_stops (chain : IsChain next start (before ++ node :: after))
    (enough : before.length < fuel) (stops : stop node = true)
    (passes : ∀ other ∈ before, stop other = false) :
    scan next stop fuel previous start = some (before.getLast?.or previous, some node) := by
  induction before generalizing start fuel previous with
  | nil =>
      obtain ⟨fuel, rfl⟩ := Nat.exists_eq_succ_of_ne_zero (by omega : fuel ≠ 0)
      rw [chain.1, scan, if_pos stops]
      rfl
  | cons head middle ih =>
      simp only [List.length_cons] at enough
      obtain ⟨fuel, rfl⟩ := Nat.exists_eq_succ_of_ne_zero (by omega : fuel ≠ 0)
      rw [chain.1, scan, if_neg (by simp [passes head (by simp)]),
        ih chain.2 (by omega) fun other member => passes other (List.mem_cons_of_mem _ member)]
      cases middle with
      | nil => rfl
      | cons second rest =>
          rw [List.getLast?_cons_cons, List.getLast?_cons]
          rfl

theorem scan_ends (chain : IsChain next start nodes) (enough : nodes.length ≤ fuel)
    (passes : ∀ other ∈ nodes, stop other = false) :
    scan next stop fuel previous start = some (nodes.getLast?.or previous, none) := by
  induction nodes generalizing start fuel previous with
  | nil =>
      rw [show start = none from chain, scan]
      rfl
  | cons head rest ih =>
      simp only [List.length_cons] at enough
      obtain ⟨fuel, rfl⟩ := Nat.exists_eq_succ_of_ne_zero (by omega : fuel ≠ 0)
      rw [chain.1, scan, if_neg (by simp [passes head (by simp)]),
        ih chain.2 (by omega) fun other member => passes other (List.mem_cons_of_mem _ member)]
      cases rest with
      | nil => rfl
      | cons second rest =>
          rw [List.getLast?_cons_cons, List.getLast?_cons]
          rfl

/-! ## Doubly linked lists -/

structure DoublyLinked (next prev : ι → Option ι) (first last : Option ι) (nodes : List ι) :
    Prop where
  forward : IsChain next first nodes
  backward : IsChain prev last nodes.reverse

theorem DoublyLinked.congr (linked : DoublyLinked next prev first last nodes)
    (same : ∀ node ∈ nodes, next' node = next node ∧ prev' node = prev node) :
    DoublyLinked next' prev' first last nodes where
  forward := linked.forward.congr fun node member => (same node member).1
  backward := linked.backward.congr fun node member => (same node (List.mem_reverse.mp member)).2

theorem DoublyLinked.last_eq (linked : DoublyLinked next prev first last nodes) :
    last = nodes.getLast? := by
  rw [linked.backward.start_eq, List.head?_reverse]

theorem DoublyLinked.neighbours (linked : DoublyLinked next prev first last nodes)
    (placed : nodes = before ++ node :: after) :
    prev node = before.getLast? ∧ next node = after.head? := by
  subst placed
  have backward := linked.backward
  rw [List.reverse_append, List.reverse_cons, List.append_assoc, List.singleton_append] at backward
  exact ⟨backward.next_eq.trans List.head?_reverse, linked.forward.next_eq⟩

theorem DoublyLinked.next_iff_prev {other : ι} (linked : DoublyLinked next prev first last nodes)
    (member : node ∈ nodes) (member' : other ∈ nodes) :
    next node = some other ↔ prev other = some node := by
  constructor
  · intro following
    obtain ⟨before, after, placed⟩ := List.append_of_mem member
    have head := (linked.neighbours placed).2.symm.trans following
    obtain ⟨rest, rfl⟩ := List.head?_eq_some_iff.mp head
    have there : nodes = (before ++ [node]) ++ other :: rest := by
      rw [placed, List.append_assoc, List.singleton_append]
    rw [(linked.neighbours there).1, List.getLast?_concat]
  · intro preceding
    obtain ⟨before, after, placed⟩ := List.append_of_mem member'
    have tail := (linked.neighbours placed).1.symm.trans preceding
    obtain ⟨initial, rfl⟩ := List.getLast?_eq_some_iff.mp tail
    have there : nodes = initial ++ node :: other :: after := by
      rw [placed, List.append_assoc, List.singleton_append]
    rw [(linked.neighbours there).2, List.head?_cons]

theorem DoublyLinked.neighbour_mem (linked : DoublyLinked next prev first last nodes)
    (member : node ∈ nodes) {other : ι}
    (near : prev node = some other ∨ next node = some other) : other ∈ nodes := by
  obtain ⟨before, after, placed⟩ := List.append_of_mem member
  obtain ⟨prevEq, nextEq⟩ := linked.neighbours placed
  rw [placed]
  rcases near with near | near
  · exact List.mem_append_left _ (List.mem_of_getLast? (prevEq.symm.trans near))
  · exact List.mem_append_right _
      (List.mem_cons_of_mem _ (List.mem_of_head? (nextEq.symm.trans near)))

/-! ## Relinking -/

variable [DecidableEq ι]

/-- Point the link out of `previous` elsewhere; with no node before, `rehead` moves the start. -/
def relink (next : ι → Option ι) (previous target : Option ι) : ι → Option ι :=
  match previous with
  | none => next
  | some node => Function.update next node target

def rehead (start previous target : Option ι) : Option ι :=
  match previous with
  | none => target
  | some _ => start

theorem relink_of_ne (other : previous ≠ some node) :
    relink next previous target node = next node := by
  cases previous with
  | none => rfl
  | some changed => exact Function.update_of_ne (fun same => other (by rw [same])) _ _

theorem IsChain.update_last (chain : IsChain next start (before ++ node :: after))
    (tail : IsChain next target rest) (apart : ∀ other ∈ before ++ [node], other ∉ rest) :
    IsChain (Function.update next node target) start (before ++ node :: rest) := by
  have distinct := chain.nodup
  induction before generalizing start with
  | nil =>
      refine ⟨chain.1, ?_⟩
      rw [Function.update_self]
      exact tail.congr fun other member =>
        Function.update_of_ne (by rintro rfl; exact apart other (by simp) member) _ _
  | cons head middle ih =>
      refine ⟨chain.1, ?_⟩
      have headApart : head ≠ node := by
        rintro rfl
        simp at distinct
      rw [Function.update_of_ne headApart]
      exact ih chain.2 (fun other member => apart other (List.mem_cons_of_mem _ member))
        (List.nodup_cons.mp distinct).2

/-- Redirecting the link at the end of `before` replaces what comes after it. -/
theorem IsChain.relink (chain : IsChain next start (before ++ after))
    (tail : IsChain next target rest) (apart : ∀ other ∈ before, other ∉ rest) :
    IsChain (relink next before.getLast? target) (rehead start before.getLast? target)
      (before ++ rest) := by
  rcases List.eq_nil_or_concat before with rfl | ⟨initial, node, rfl⟩
  · exact tail
  · rw [List.concat_eq_append] at chain apart ⊢
    rw [List.getLast?_concat]
    rw [List.append_assoc, List.singleton_append] at chain ⊢
    exact chain.update_last tail apart

theorem IsChain.append_node (chain : IsChain next start nodes) (new : node ∉ nodes)
    (unlinked : next node = none) :
    IsChain (Data.relink next nodes.getLast? (some node)) (rehead start nodes.getLast? (some node))
      (nodes ++ [node]) := by
  rw [← List.append_nil nodes] at chain
  exact chain.relink ⟨rfl, unlinked⟩ fun other member same => by
    rw [List.mem_singleton] at same
    exact new (same ▸ member)

theorem IsChain.remove_node (chain : IsChain next start (before ++ node :: after)) :
    IsChain (Data.relink next before.getLast? (next node))
      (rehead start before.getLast? (next node)) (before ++ after) := by
  refine chain.relink chain.tail fun other left right => ?_
  have distinct := chain.nodup
  rw [List.nodup_append] at distinct
  exact distinct.2.2 other left other (List.mem_cons_of_mem _ right) rfl

theorem DoublyLinked.append_node (linked : DoublyLinked next prev first last nodes)
    (new : node ∉ nodes) (unlinked : next node = none) :
    DoublyLinked (relink next last (some node)) (Function.update prev node last)
      (rehead first last (some node)) (some node) (nodes ++ [node]) where
  forward := by
    rw [linked.last_eq]
    exact linked.forward.append_node new unlinked
  backward := by
    rw [List.reverse_append]
    refine ⟨rfl, ?_⟩
    rw [Function.update_self]
    exact linked.backward.congr fun other member =>
      Function.update_of_ne (by rintro rfl; exact new (List.mem_reverse.mp member)) _ _

theorem DoublyLinked.remove_node (linked : DoublyLinked next prev first last nodes)
    (placed : nodes = before ++ node :: after) :
    DoublyLinked (relink next (prev node) (next node)) (relink prev (next node) (prev node))
      (rehead first (prev node) (next node)) (rehead last (next node) (prev node))
      (before ++ after) := by
  obtain ⟨prevEq, nextEq⟩ := linked.neighbours placed
  subst placed
  have backward := linked.backward
  rw [List.reverse_append, List.reverse_cons, List.append_assoc, List.singleton_append] at backward
  refine ⟨?_, ?_⟩
  · have removed := linked.forward.remove_node
    rwa [← prevEq] at removed
  · have removed := backward.remove_node
    rwa [List.getLast?_reverse, ← nextEq, ← List.reverse_append] at removed

omit [DecidableEq ι] in
theorem DoublyLinked.reverse (linked : DoublyLinked next prev first last nodes) :
    DoublyLinked prev next last first nodes.reverse where
  forward := linked.backward
  backward := by
    rw [List.reverse_reverse]
    exact linked.forward

theorem DoublyLinked.prepend_node (linked : DoublyLinked next prev first last nodes)
    (new : node ∉ nodes) (unlinked : prev node = none) :
    DoublyLinked (Function.update next node first) (relink prev first (some node)) (some node)
      (rehead last first (some node)) (node :: nodes) := by
  have appended := linked.reverse.append_node (mt List.mem_reverse.mp new) unlinked
  have turned := appended.reverse
  rwa [List.reverse_append, List.reverse_reverse] at turned

/-! A list is as it was where only links of other nodes change. -/

theorem DoublyLinked.frame_relink {link link' target' : Option ι}
    (linked : DoublyLinked next prev first last nodes) (apart : ∀ node ∈ nodes, link ≠ some node)
    (apart' : ∀ node ∈ nodes, link' ≠ some node) :
    DoublyLinked (relink next link target) (relink prev link' target') first last nodes :=
  linked.congr fun node member => ⟨relink_of_ne (apart node member), relink_of_ne (apart' node member)⟩

theorem DoublyLinked.frame_update {target' : Option ι}
    (linked : DoublyLinked next prev first last nodes) (away : node ∉ nodes) :
    DoublyLinked (Function.update next node target) (Function.update prev node target') first last
      nodes :=
  linked.congr fun other member =>
    have apart : other ≠ node := fun same => away (same ▸ member)
    ⟨Function.update_of_ne apart _ _, Function.update_of_ne apart _ _⟩

end

/-! # Records that link to each other

An array of records, changed one record at a time or through a link that may be null. -/

section

variable {ι R α : Type} [DecidableEq ι] {records : ι → R} {index other : ι} {link target : Option ι}
  {change : R → R}

def alter (records : ι → R) (index : ι) (change : R → R) : ι → R :=
  Function.update records index (change (records index))

def alterLink (records : ι → R) (link : Option ι) (change : R → R) : ι → R :=
  match link with
  | none => records
  | some index => alter records index change

@[simp] theorem alter_self : alter records index change index = change (records index) :=
  Function.update_self ..

theorem alter_of_ne (apart : other ≠ index) : alter records index change other = records other :=
  Function.update_of_ne apart ..

theorem alterLink_of_ne (apart : link ≠ some other) :
    alterLink records link change other = records other := by
  cases link with
  | none => rfl
  | some index => exact alter_of_ne fun same => apart (by rw [same])

/-- A field of the records, where every change leaves it alone. -/
theorem alter_keeps (project : R → α) (keeps : ∀ record, project (change record) = project record)
    (other : ι) : project (alter records index change other) = project (records other) := by
  by_cases same : other = index
  · rw [same, alter_self, keeps]
  · rw [alter_of_ne same]

theorem alterLink_keeps (project : R → α) (keeps : ∀ record, project (change record) = project record)
    (other : ι) : project (alterLink records link change other) = project (records other) := by
  cases link with
  | none => rfl
  | some index => exact alter_keeps project keeps other

theorem comp_alter (project : R → α) :
    project ∘ alter records index change =
      Function.update (project ∘ records) index (project (change (records index))) :=
  Function.comp_update ..

/-- The links that a field holds, where the change redirects them. -/
theorem comp_alterLink (project : R → Option ι)
    (sets : ∀ record, project (change record) = target) :
    project ∘ alterLink records link change = relink (project ∘ records) link target := by
  cases link with
  | none => rfl
  | some index =>
      rw [alterLink, comp_alter, sets]
      rfl

theorem comp_alter_keeps (project : R → α) (keeps : ∀ record, project (change record) = project record) :
    project ∘ alter records index change = project ∘ records :=
  funext fun other => alter_keeps project keeps other

theorem comp_alterLink_keeps (project : R → α)
    (keeps : ∀ record, project (change record) = project record) :
    project ∘ alterLink records link change = project ∘ records :=
  funext fun other => alterLink_keeps project keeps other

end

end Rut9xx.Data
