import Mathlib.Data.List.Nodup

namespace Rut9xx.Data

/-! # A pointer, and the allocations it has pointed to -/

/-- What a program does with the pointer. A `free` leaves it where it points. -/
inductive HeapOp where
  | allocate
  /-- An allocation for which there is no room. -/
  | exhaust
  | read
  | free
  deriving DecidableEq

structure Heap where
  allocated : Nat
  pointer : Option Nat
  /-- The allocations that were freed, the latest first. -/
  frees : List Nat
  /-- The allocations that were read after they were freed. -/
  staleReads : List Nat

def Heap.empty : Heap := ⟨0, none, [], []⟩

def Heap.perform (heap : Heap) : HeapOp → Heap
  | .allocate => { heap with allocated := heap.allocated + 1, pointer := some heap.allocated }
  | .exhaust => { heap with pointer := none }
  | .read =>
      { heap with
        staleReads := (heap.pointer.filter (· ∈ heap.frees)).toList ++ heap.staleReads }
  | .free => { heap with frees := heap.pointer.toList ++ heap.frees }

def Heap.performAll (heap : Heap) (ops : List HeapOp) : Heap := ops.foldl Heap.perform heap

/-- The pointer is null or points to a live allocation, none is freed twice, and none was read
after it was freed. -/
structure Heap.Owned (heap : Heap) : Prop where
  live : ∀ target, heap.pointer = some target → target ∉ heap.frees
  once : heap.frees.Nodup
  noneRead : heap.staleReads = []

/-- Only what was allocated was freed. -/
def Heap.Bounded (heap : Heap) : Prop :=
  (∀ target ∈ heap.frees, target < heap.allocated) ∧
    ∀ target, heap.pointer = some target → target < heap.allocated

variable {heap : Heap}

theorem Heap.empty_owned : Heap.empty.Owned := ⟨by simp [Heap.empty], List.nodup_nil, rfl⟩

theorem Heap.empty_bounded : Heap.empty.Bounded := ⟨by simp [Heap.empty], by simp [Heap.empty]⟩

theorem Heap.Bounded.perform (bounded : heap.Bounded) (op : HeapOp) :
    (heap.perform op).Bounded := by
  obtain ⟨frees, pointer⟩ := bounded
  cases op with
  | allocate =>
      refine ⟨fun target freed => Nat.lt_succ_of_lt (frees target freed), ?_⟩
      intro target points
      cases points
      exact Nat.lt_succ_self _
  | exhaust => exact ⟨frees, fun target points => by cases points⟩
  | read => exact ⟨frees, pointer⟩
  | free =>
      refine ⟨?_, pointer⟩
      intro target member
      obtain freed | earlier := List.mem_append.mp member
      · exact pointer target (Option.mem_toList.mp freed)
      · exact frees target earlier

/-- All but freeing what the pointer still points to keeps the ownership. -/
theorem Heap.Owned.perform (owned : heap.Owned) (bounded : heap.Bounded) {op : HeapOp}
    (kept : op = .free → heap.pointer = none) : (heap.perform op).Owned := by
  obtain ⟨live, once, noneRead⟩ := owned
  cases op with
  | allocate =>
      refine ⟨?_, once, noneRead⟩
      intro target points freed
      cases points
      exact absurd (bounded.1 _ freed) (Nat.lt_irrefl _)
  | exhaust => exact ⟨fun target points => (by cases points), once, noneRead⟩
  | read =>
      refine ⟨live, once, ?_⟩
      have fresh : heap.pointer.filter (· ∈ heap.frees) = none := by
        rw [Option.filter_eq_none_iff]
        intro target points
        simpa using live target points
      simp only [Heap.perform, fresh, noneRead]
      rfl
  | free =>
      have none : heap.pointer = none := kept rfl
      simp only [Heap.perform, none]
      exact ⟨fun target points => (by cases points), once, noneRead⟩

theorem Heap.performAll_append (ops more : List HeapOp) :
    heap.performAll (ops ++ more) = (heap.performAll ops).performAll more :=
  List.foldl_append

theorem Heap.Bounded.performAll (bounded : heap.Bounded) (ops : List HeapOp) :
    (heap.performAll ops).Bounded := by
  induction ops generalizing heap with
  | nil => exact bounded
  | cons op ops ih => exact ih (bounded.perform op)

theorem Heap.Owned.performAll (owned : heap.Owned) (bounded : heap.Bounded) {ops : List HeapOp}
    (kept : .free ∉ ops) : (heap.performAll ops).Owned := by
  induction ops generalizing heap with
  | nil => exact owned
  | cons op ops ih =>
      rw [List.mem_cons, not_or] at kept
      obtain ⟨other, rest⟩ := kept
      exact ih (owned.perform bounded (fun isFree => absurd isFree.symm other))
        (bounded.perform op) rest

/-- Freeing it leaves the pointer dangling. -/
theorem Heap.not_owned_free {target : Nat} (points : heap.pointer = some target) :
    ¬ (heap.perform .free).Owned := by
  intro owned
  apply owned.live target points
  simp [Heap.perform, points]

end Rut9xx.Data
