import Rut9xx.Chilli.Ippool

namespace Rut9xx.Chilli

open Rut9xx.Data

/-! # One section of the pool and its free list -/

variable {α : Type} {member member' : Nat → Ippoolm} {ends : Ends} {low high index other : Nat}
  {static : Bool} {free : List Nat} {link target : Option Nat} {change : Ippoolm → Ippoolm}
  {project : Ippoolm → α}

/-! ## Stores through links -/

theorem modify_self : modify member index change index = change (member index) :=
  Function.update_self ..

theorem modify_of_ne (apart : other ≠ index) : modify member index change other = member other :=
  Function.update_of_ne apart ..

theorem markUsed_of_ne (apart : other ≠ index) : markUsed member index other = member other :=
  modify_of_ne apart

theorem modifyLink_of_ne (apart : link ≠ some other) :
    modifyLink member link change other = member other := by
  cases link with
  | none => rfl
  | some index => exact modify_of_ne fun same => apart (by rw [same])

theorem modify_project (keeps : ∀ node, project (change node) = project node) :
    project ∘ modify member index change = project ∘ member := by
  funext other
  by_cases same : other = index
  · rw [Function.comp_apply, same, modify_self, keeps]
    rfl
  · exact congrArg project (modify_of_ne same)

theorem modify_keeps (project : Ippoolm → α)
    (keeps : ∀ node, project (change node) = project node) (other : Nat) :
    project (modify member index change other) = project (member other) :=
  congrFun (modify_project keeps) other

theorem modifyLink_project (keeps : ∀ node, project (change node) = project node) :
    project ∘ modifyLink member link change = project ∘ member := by
  cases link with
  | none => rfl
  | some index => exact modify_project keeps

theorem modifyLink_field {project : Ippoolm → Option Nat}
    (sets : ∀ node, project (change node) = target) :
    project ∘ modifyLink member link change = relink (project ∘ member) link target := by
  cases link with
  | none => rfl
  | some index =>
      rw [modifyLink, modify, Function.comp_update, sets]
      rfl

/-! ## The links of the free lists -/

section Links

variable (member link target)

@[simp] theorem nextOf_setNext :
    nextOf (setNext member link target) = relink (nextOf member) link target :=
  modifyLink_field fun _ => rfl

@[simp] theorem prevOf_setPrev :
    prevOf (setPrev member link target) = relink (prevOf member) link target :=
  modifyLink_field fun _ => rfl

@[simp] theorem nextOf_setPrev : nextOf (setPrev member link target) = nextOf member :=
  modifyLink_project fun _ => rfl

@[simp] theorem prevOf_setNext : prevOf (setNext member link target) = prevOf member :=
  modifyLink_project fun _ => rfl

@[simp] theorem nextOf_markUsed (index : Nat) : nextOf (markUsed member index) = nextOf member :=
  modify_project fun _ => rfl

@[simp] theorem prevOf_markUsed (index : Nat) : prevOf (markUsed member index) = prevOf member :=
  modify_project fun _ => rfl

end Links

/-- A field that does not depend on the links of the free lists. -/
def KeepsFree (project : Ippoolm → α) : Prop :=
  ∀ node next prev, project { node with next := next, prev := prev } = project node

theorem KeepsFree.setNext (keeps : KeepsFree project) :
    project ∘ setNext member link target = project ∘ member :=
  modifyLink_project fun node => keeps node target node.prev

theorem KeepsFree.setPrev (keeps : KeepsFree project) :
    project ∘ setPrev member link target = project ∘ member :=
  modifyLink_project fun node => keeps node node.next target

theorem KeepsFree.enqueue (keeps : KeepsFree project) :
    project ∘ (enqueue member ends index).1 = project ∘ member := by
  simp only [Chilli.enqueue, keeps.setNext, keeps.setPrev]

/-- `unlink` marks the member as used; no other field outside the links changes. -/
theorem KeepsFree.unlink (keeps : KeepsFree project) :
    project ∘ (unlink member ends index).1 =
      Function.update (project ∘ member) index (project { member index with inUse := true }) := by
  simp only [Chilli.unlink]
  rw [markUsed, modify, Function.comp_update, keeps.setPrev, keeps.setNext, keeps.setPrev, keeps.setNext]
  congr 1
  have whole : KeepsFree fun node => project { node with inUse := true } := fun node next prev =>
    keeps { node with inUse := true } next prev
  exact congrFun (whole.setPrev.trans (whole.setNext.trans (whole.setPrev.trans whole.setNext))) index

theorem unlink_next :
    nextOf (unlink member ends index).1 =
      Function.update (relink (nextOf member) (member index).prev (member index).next)
        index none := by
  simp only [unlink, nextOf_markUsed, nextOf_setPrev, nextOf_setNext]
  rfl

theorem unlink_prev :
    prevOf (unlink member ends index).1 =
      Function.update (relink (prevOf member) (member index).next (member index).prev)
        index none := by
  simp only [unlink, prevOf_markUsed, prevOf_setPrev, prevOf_setNext]
  rfl

theorem unlink_inUse :
    Ippoolm.inUse ∘ (unlink member ends index).1 =
      Function.update (Ippoolm.inUse ∘ member) index true :=
  KeepsFree.unlink fun _ _ _ => rfl

theorem enqueue_next :
    nextOf (enqueue member ends index).1 = relink (nextOf member) ends.last (some index) := by
  simp only [enqueue, nextOf_setNext, nextOf_setPrev]

theorem enqueue_prev :
    prevOf (enqueue member ends index).1 = Function.update (prevOf member) index ends.last := by
  simp only [enqueue, prevOf_setNext, prevOf_setPrev]
  rfl

/-! ## The section -/

/-- The members from `low` up to `high` make up a section whose free ones are
the nodes of its list; those in use carry no links. -/
structure FreeSection (member : Nat → Ippoolm) (ends : Ends) (low high : Nat) (static : Bool)
    (free : List Nat) : Prop where
  linked : DoublyLinked (nextOf member) (prevOf member) ends.first ends.last free
  mem : ∀ index, index ∈ free ↔ low ≤ index ∧ index < high ∧ (member index).inUse = false
  own : ∀ index, low ≤ index → index < high → (member index).isStatic = static
  detached : ∀ index, low ≤ index → index < high → (member index).inUse = true →
    (member index).next = none ∧ (member index).prev = none

/-- A section looks at nothing but four fields of its own members. -/
theorem FreeSection.congr (sec : FreeSection member ends low high static free)
    (same : ∀ index, low ≤ index → index < high →
      (member' index).next = (member index).next ∧ (member' index).prev = (member index).prev ∧
      (member' index).inUse = (member index).inUse ∧
      (member' index).isStatic = (member index).isStatic) :
    FreeSection member' ends low high static free where
  linked := sec.linked.congr fun node inside =>
    have ⟨above, below, _⟩ := (sec.mem node).mp inside
    ⟨(same node above below).1, (same node above below).2.1⟩
  mem index := by
    rw [sec.mem index]
    refine and_congr_right fun above => and_congr_right fun below => ?_
    rw [(same index above below).2.2.1]
  own index above below := (same index above below).2.2.2.trans (sec.own index above below)
  detached index above below used := by
    obtain ⟨nextEq, prevEq, useEq, -⟩ := same index above below
    rw [nextEq, prevEq]
    exact sec.detached index above below (useEq.symm.trans used)

/-- `unlink` writes to nodes of the list only. -/
theorem FreeSection.unlink_frame (sec : FreeSection member ends low high static free)
    (inside : index ∈ free) (outside : other ∉ free) :
    (unlink member ends index).1 other = member other := by
  have apart : other ≠ index := by
    rintro rfl
    exact outside inside
  have notPrev : (member index).prev ≠ some other := fun near =>
    outside (sec.linked.neighbour_mem inside (.inl near))
  have notNext : (member index).next ≠ some other := fun near =>
    outside (sec.linked.neighbour_mem inside (.inr near))
  have notIndex : some index ≠ some other := fun same => apart (Option.some.inj same).symm
  calc (unlink member ends index).1 other
      = setPrev (setNext (setPrev (setNext member (member index).prev (member index).next)
          (member index).next (member index).prev) (some index) none) (some index) none other :=
        markUsed_of_ne apart
    _ = setPrev (setNext member (member index).prev (member index).next)
          (member index).next (member index).prev other :=
        (modifyLink_of_ne notIndex).trans (modifyLink_of_ne notIndex)
    _ = member other := (modifyLink_of_ne notNext).trans (modifyLink_of_ne notPrev)

theorem FreeSection.enqueue_frame (sec : FreeSection member ends low high static free)
    (outside : other ∉ free) (apart : other ≠ index) :
    (enqueue member ends index).1 other = member other := by
  have notLast : ends.last ≠ some other := fun near =>
    outside (List.mem_of_getLast? (sec.linked.last_eq.symm.trans near))
  exact (modifyLink_of_ne notLast).trans
    (modifyLink_of_ne fun same => apart (Option.some.inj same).symm)

theorem unlink_used_iff :
    ((unlink member ends index).1 other).inUse = true ↔
      other = index ∨ (member other).inUse = true := by
  have used : ((unlink member ends index).1 other).inUse =
      Function.update (Ippoolm.inUse ∘ member) index true other := congrFun unlink_inUse other
  rw [used]
  by_cases same : other = index
  · simp [same]
  · simp [same]

theorem FreeSection.take (sec : FreeSection member ends low high static free)
    (inside : index ∈ free) :
    ∃ free', FreeSection (unlink member ends index).1 (unlink member ends index).2 low high static
      free' := by
  obtain ⟨before, after, placed⟩ := List.append_of_mem inside
  have distinct : (index :: (before ++ after)).Nodup :=
    List.nodup_middle.mp (placed ▸ sec.linked.forward.nodup)
  have gone : index ∉ before ++ after := distinct.notMem
  have rest : ∀ other, other ∈ before ++ after ↔ other ∈ free ∧ other ≠ index := by
    intro other
    have order : other ∈ free ↔ other = index ∨ other ∈ before ++ after := by
      rw [placed, List.perm_middle.mem_iff, List.mem_cons]
    rw [order]
    constructor
    · intro there
      exact ⟨.inr there, fun same => gone (same ▸ there)⟩
    · rintro ⟨same | there, apart⟩
      · exact absurd same apart
      · exact there
  have frame : ∀ other, other ≠ index → (member other).inUse = true → low ≤ other → other < high →
      (unlink member ends index).1 other = member other := by
    intro other apart used above below
    refine sec.unlink_frame inside fun there => ?_
    rw [((sec.mem other).mp there).2.2] at used
    cases used
  refine ⟨before ++ after, ?_, ?_, ?_, ?_⟩
  · refine (sec.linked.remove_node placed).congr fun node there => ?_
    have apart : node ≠ index := ((rest node).mp there).2
    rw [unlink_next, unlink_prev, Function.update_of_ne apart, Function.update_of_ne apart]
    exact ⟨rfl, rfl⟩
  · intro other
    rw [rest, sec.mem, ← Bool.not_eq_true, ← Bool.not_eq_true, unlink_used_iff]
    tauto
  · intro other above below
    have kept : Ippoolm.isStatic ∘ (unlink member ends index).1 = Ippoolm.isStatic ∘ member :=
      (KeepsFree.unlink fun _ _ _ => rfl).trans (Function.update_eq_self ..)
    exact (congrFun kept other).trans (sec.own other above below)
  · intro other above below used
    by_cases same : other = index
    · subst same
      exact ⟨(congrFun unlink_next other).trans (Function.update_self ..),
        (congrFun unlink_prev other).trans (Function.update_self ..)⟩
    · have usedBefore := (unlink_used_iff.mp used).resolve_left same
      rw [frame other same usedBefore above below]
      exact sec.detached other above below usedBefore

/-- A member that is not on the list goes to its end, either a used one of the
section or the one just behind it. -/
theorem FreeSection.give (sec : FreeSection member ends low high static free) {high' : Nat}
    (new : index ∉ free) (unlinked : (member index).next = none) (above : low ≤ index)
    (range : ∀ other, other < high' ↔ other < high ∨ other = index)
    (links : nextOf member' = nextOf (enqueue member ends index).1 ∧
      prevOf member' = prevOf (enqueue member ends index).1)
    (others : ∀ other, other ≠ index → (member' other).inUse = (member other).inUse ∧
      (member' other).isStatic = (member other).isStatic)
    (given : (member' index).inUse = false ∧ (member' index).isStatic = static) :
    FreeSection member' (enqueue member ends index).2 low high' static (free ++ [index]) := by
  have frame : ∀ other, other ≠ index → other ∉ free →
      (member' other).next = (member other).next ∧ (member' other).prev = (member other).prev := by
    intro other apart outside
    have same := sec.enqueue_frame outside apart
    exact ⟨(congrFun links.1 other).trans (congrArg Ippoolm.next same),
      (congrFun links.2 other).trans (congrArg Ippoolm.prev same)⟩
  refine ⟨?_, ?_, ?_, ?_⟩
  · rw [links.1, links.2, enqueue_next, enqueue_prev]
    exact sec.linked.append_node new unlinked
  · intro other
    rw [List.mem_append, List.mem_singleton, range]
    by_cases same : other = index
    · subst same
      simp [above, given.1]
    · rw [(others other same).1, sec.mem]
      simp [same]
  · intro other lower upper
    by_cases same : other = index
    · rw [same]
      exact given.2
    · rw [(others other same).2]
      exact sec.own other lower (((range other).mp upper).resolve_right same)
  · intro other lower upper used
    have apart : other ≠ index := by
      rintro rfl
      rw [given.1] at used
      cases used
    rw [(others other apart).1] at used
    have outside : other ∉ free := fun there => by
      rw [((sec.mem other).mp there).2.2] at used
      cases used
    rw [(frame other apart outside).1, (frame other apart outside).2]
    exact sec.detached other lower (((range other).mp upper).resolve_right apart) used

theorem FreeSection.giveBack (sec : FreeSection member ends low high static free)
    (above : low ≤ index) (below : index < high) (used : (member index).inUse = true)
    (next : ∀ node, (change node).next = node.next) (prev : ∀ node, (change node).prev = node.prev)
    (inUse : ∀ node, (change node).inUse = false)
    (isStatic : ∀ node, (change node).isStatic = node.isStatic) :
    FreeSection (modify (enqueue member ends index).1 index change) (enqueue member ends index).2
      low high static (free ++ [index]) := by
  have new : index ∉ free := fun there => by
    rw [((sec.mem index).mp there).2.2] at used
    cases used
  have keepsUse : KeepsFree Ippoolm.inUse := fun _ _ _ => rfl
  have keepsStatic : KeepsFree Ippoolm.isStatic := fun _ _ _ => rfl
  refine sec.give new (sec.detached index above below used).1 above (fun other => ?_)
    ⟨modify_project next, modify_project prev⟩ (fun other apart => ?_) ?_
  · constructor
    · exact fun upper => .inl upper
    · rintro (upper | rfl)
      · exact upper
      · exact below
  · rw [modify_of_ne apart]
    exact ⟨congrFun keepsUse.enqueue other, congrFun keepsStatic.enqueue other⟩
  · rw [modify_self, inUse, isStatic]
    exact ⟨rfl, (congrFun keepsStatic.enqueue index).trans (sec.own index above below)⟩

end Rut9xx.Chilli
