import Mathlib.Logic.Function.Iterate
import Mathlib.Data.UInt
import Mathlib.Data.List.Basic

namespace Rut9xx.Data

/-! # Writes of bytes, and the runs of neighbours among them -/

variable {Address : Type} (next : Address → Address)

/-- Bytes that stand one behind the other from an address on. -/
structure Segment (Address : Type) where
  address : Address
  data : List UInt8

def writesFrom (address : Address) : List UInt8 → List (Address × UInt8)
  | [] => []
  | byte :: rest => (address, byte) :: writesFrom (next address) rest

def Segment.writes (segment : Segment Address) : List (Address × UInt8) :=
  writesFrom next segment.address segment.data

/-- The address behind the segment. -/
def Segment.behind (segment : Segment Address) : Address := next^[segment.data.length] segment.address

variable [DecidableEq Address]

/-- Puts a segment in front of others, and together with the first if that follows it. -/
def join (front : Segment Address) : List (Segment Address) → List (Segment Address)
  | [] => [front]
  | segment :: rest =>
      if segment.address = front.behind next then ⟨front.address, front.data ++ segment.data⟩ :: rest
      else front :: segment :: rest

/-- The writes in as few segments as possible. -/
def runs : List (Address × UInt8) → List (Segment Address)
  | [] => []
  | (address, byte) :: rest => join next ⟨address, [byte]⟩ (runs rest)

/-- How often an address does not follow the one before, that in front of all being `last`. -/
def breaks (last : Address) : List (Address × UInt8) → Nat
  | [] => 0
  | (address, _) :: rest => (if address = next last then 0 else 1) + breaks address rest

/-- What the last write to an address left there. -/
def memoryOf (writes : List (Address × UInt8)) (address : Address) : Option UInt8 :=
  (writes.reverse.find? fun write => write.1 = address).map Prod.snd

variable {next} {front segment : Segment Address} {segments : List (Segment Address)}
  {writes more : List (Address × UInt8)} {address last : Address} {data other : List UInt8}

/-! ## Segments and their writes -/

omit [DecidableEq Address] in
theorem writesFrom_append : writesFrom next address (data ++ other) =
    writesFrom next address data ++ writesFrom next (next^[data.length] address) other := by
  induction data generalizing address with
  | nil => rfl
  | cons byte rest ih =>
      rw [List.cons_append, writesFrom, ih, writesFrom, List.length_cons, Function.iterate_succ_apply,
        List.cons_append]

omit [DecidableEq Address] in
@[simp] theorem writesFrom_length : (writesFrom next address data).length = data.length := by
  induction data generalizing address with
  | nil => rfl
  | cons byte rest ih => rw [writesFrom, List.length_cons, List.length_cons, ih]

theorem join_writes : (join next front segments).flatMap (Segment.writes next) =
    front.writes next ++ segments.flatMap (Segment.writes next) := by
  cases segments with
  | nil => simp [join]
  | cons segment rest =>
      rw [join]
      split
      · rename_i follows
        rw [List.flatMap_cons, List.flatMap_cons, ← List.append_assoc]
        congr 1
        rw [Segment.writes, writesFrom_append, Segment.writes, Segment.writes, follows]
        rfl
      · rw [List.flatMap_cons]

theorem runs_writes : (runs next writes).flatMap (Segment.writes next) = writes := by
  induction writes with
  | nil => rfl
  | cons write rest ih =>
      obtain ⟨address, byte⟩ := write
      rw [runs, join_writes, ih]
      rfl

/-! ## The runs are as few as can be -/

theorem join_head : ∃ segment rest, join next front segments = segment :: rest ∧
    segment.address = front.address := by
  cases segments with
  | nil => exact ⟨front, [], rfl, rfl⟩
  | cons segment rest =>
      rw [join]
      split
      · exact ⟨_, rest, rfl, rfl⟩
      · exact ⟨front, _, rfl, rfl⟩

omit [DecidableEq Address] in
theorem behind_append (follows : segment.address = front.behind next) :
    (Segment.mk front.address (front.data ++ segment.data)).behind next = segment.behind next := by
  rw [Segment.behind, Segment.behind, follows, Segment.behind, List.length_append, Nat.add_comm,
    Function.iterate_add_apply]

theorem join_join : join next front (join next segment segments) =
    if segment.address = front.behind next then
      join next ⟨front.address, front.data ++ segment.data⟩ segments
    else front :: join next segment segments := by
  split
  · rename_i follows
    cases segments with
    | nil => simp only [join, if_pos follows]
    | cons other rest =>
        rw [join, join, behind_append follows]
        split
        · rw [join, if_pos follows, List.append_assoc]
        · rw [join, if_pos follows]
  · rename_i apart
    obtain ⟨head, rest, joined, address⟩ := @join_head _ next _ segment segments
    rw [joined, join, if_neg (by rwa [address])]

theorem runs_segment (some' : segment.data ≠ []) :
    runs next (segment.writes next ++ writes) = join next segment (runs next writes) := by
  obtain ⟨address, data⟩ := segment
  induction data generalizing address with
  | nil => exact absurd rfl some'
  | cons byte rest ih =>
      cases rest with
      | nil => rfl
      | cons second rest =>
          have tail := ih (next address) (by simp)
          rw [Segment.writes] at tail ⊢
          have follows : next address = Segment.behind next ⟨address, [byte]⟩ := rfl
          rw [writesFrom, List.cons_append, runs, tail, join_join, if_pos follows]
          rfl

theorem join_length_le : (join next front segments).length ≤ segments.length + 1 := by
  cases segments with
  | nil => rfl
  | cons segment rest =>
      rw [join]
      split <;> simp

theorem join_eq_cons (long : segments.length + 1 ≤ (join next front segments).length) :
    join next front segments = front :: segments := by
  cases segments with
  | nil => rfl
  | cons segment rest =>
      rw [join] at long ⊢
      split
      · rename_i follows
        rw [if_pos follows, List.length_cons, List.length_cons] at long
        omega
      · rfl

/-- Segments of the same writes are at least as many, and the same if they are not more. -/
theorem runs_flatMap_le (filled : ∀ segment ∈ segments, segment.data ≠ []) :
    (runs next (segments.flatMap (Segment.writes next))).length ≤ segments.length ∧
      (segments.length ≤ (runs next (segments.flatMap (Segment.writes next))).length →
        runs next (segments.flatMap (Segment.writes next)) = segments) := by
  induction segments with
  | nil => exact ⟨Nat.le_refl _, fun _ => rfl⟩
  | cons segment rest ih =>
      rw [List.forall_mem_cons] at filled
      obtain ⟨fewer, same⟩ := ih filled.2
      rw [List.flatMap_cons, runs_segment filled.1]
      have short := @join_length_le _ next _ segment
        (runs next (rest.flatMap (Segment.writes next)))
      refine ⟨by rw [List.length_cons]; omega, fun long => ?_⟩
      rw [List.length_cons] at long
      have rest' := same (by omega)
      rw [join_eq_cons (by omega), rest']

theorem join_filled (some' : front.data ≠ []) (filled : ∀ segment ∈ segments, segment.data ≠ []) :
    ∀ segment ∈ join next front segments, segment.data ≠ [] := by
  cases segments with
  | nil =>
      rw [join, List.forall_mem_singleton]
      exact some'
  | cons segment rest =>
      rw [List.forall_mem_cons] at filled
      rw [join]
      split
      · rw [List.forall_mem_cons]
        exact ⟨fun empty => some' (List.append_eq_nil_iff.mp empty).1, filled.2⟩
      · rw [List.forall_mem_cons, List.forall_mem_cons]
        exact ⟨some', filled⟩

theorem runs_filled : ∀ segment ∈ runs next writes, segment.data ≠ [] := by
  induction writes with
  | nil => simp [runs]
  | cons write rest ih => exact join_filled (List.cons_ne_nil _ _) ih

/-! ## Counting breaks -/

theorem runs_length {byte : UInt8} :
    (runs next ((address, byte) :: writes)).length = breaks next address writes + 1 := by
  induction writes generalizing address byte with
  | nil => rfl
  | cons write rest ih =>
      obtain ⟨second, byte'⟩ := write
      have tail := @ih second byte'
      rw [runs] at tail
      rw [runs, runs, join_join, breaks]
      by_cases follows : second = next address
      · rw [if_pos (show second = Segment.behind next ⟨address, [byte]⟩ from follows), if_pos follows,
          Nat.zero_add, ← tail]
        cases runs next rest with
        | nil => rfl
        | cons segment more =>
            rw [join, join]
            have same : Segment.behind next ⟨address, [byte] ++ [byte']⟩ =
                Segment.behind next ⟨second, [byte']⟩ := by
              rw [follows]
              rfl
            rw [same]
            split <;> rfl
      · rw [if_neg (show ¬ second = Segment.behind next ⟨address, [byte]⟩ from follows), if_neg follows,
          List.length_cons, tail]
        omega

theorem breaks_append_le : breaks next last writes ≤ breaks next last (writes ++ more) := by
  induction writes generalizing last with
  | nil => exact Nat.zero_le _
  | cons write rest ih =>
      rw [List.cons_append, breaks, breaks]
      exact Nat.add_le_add_left ih _

theorem breaks_add_one_eq :
    breaks next last writes + (if writes.head?.map Prod.fst = some (next last) then 1 else 0) =
      (runs next writes).length := by
  cases writes with
  | nil => rfl
  | cons write rest =>
      obtain ⟨address, byte⟩ := write
      rw [runs_length, breaks, List.head?_cons, Option.map_some]
      by_cases follows : address = next last
      · rw [if_pos follows, if_pos (by rw [follows])]
        omega
      · rw [if_neg follows, if_neg (by simpa using follows)]
        omega

theorem runs_append_length_le : (runs next writes).length ≤ (runs next (writes ++ more)).length := by
  cases writes with
  | nil => exact Nat.zero_le _
  | cons write rest =>
      obtain ⟨address, byte⟩ := write
      rw [List.cons_append, runs_length, runs_length]
      exact Nat.add_le_add_right breaks_append_le 1

end Rut9xx.Data
