import Rut9xx.Mtd.Jffs2
import Rut9xx.Data.Loop
import Mathlib.Data.FinEnum

namespace Rut9xx.Mtd.Append

open Rut9xx.Data Relation

/-! # The scan of a jffs2 block (`jffs2.c`)

A read outside the block and a scan without end are results of their own.  The
target is big-endian.
-/

/-- The file-scope variables that the scan leaves for the append. -/
structure ScanState where
  lastIno : UInt32
  lastVersion : UInt32
  targetIno : UInt32
deriving DecidableEq

inductive ScanResult where
  | outside
  | endless
  | ended (state : ScanState)
deriving DecidableEq

def halfAt (block : List UInt8) (place : Nat) : Option UInt16 :=
  if place + 2 ≤ block.length then
    some (UInt16.ofNat (2 ^ 8 * (block.getD place 0).toNat + (block.getD (place + 1) 0).toNat))
  else none

def wordAt (block : List UInt8) (place : Nat) : Option UInt32 :=
  if place + 4 ≤ block.length then some (be32At block place) else none

/-- `!strncmp(name, dir, nsize)` for a name in the block; `dir` ends in a zero. -/
def strncmpEq (block : List UInt8) (place : Nat) : List UInt8 → Nat → Option Bool
  | _, 0 => some true
  | [], _ + 1 => block[place]?.map fun byte => byte == 0
  | char :: dir, nsize + 1 =>
      block[place]?.bind fun byte =>
        if byte = char then strncmpEq block (place + 1) dir nsize else some false

/-- Whether a dirent is taken for the directory: the code asks for the parent
and the name only when a directory is wanted. -/
def isTarget (block dir : List UInt8) (node : Nat) : Option Bool :=
  if dir = [] then some false
  else do
    let pino ← wordAt block (node + 12)
    if pino = 1 then
      let nsize ← block[node + 28]?
      strncmpEq block (node + 40) dir nsize.toNat
    else some false

def readDirent (block dir : List UInt8) (node : Nat) (state : ScanState) : Option ScanState := do
  let target ← isTarget block dir node
  let ino ← wordAt block (node + 20)
  let version ← wordAt block (node + 16)
  some
    { lastIno := if state.lastIno < ino then ino else state.lastIno
      lastVersion := if state.lastVersion < version then version else state.lastVersion
      targetIno := if target then ino else state.targetIno }

/-- The node behind the magic, with its length. -/
def readNode (block dir : List UInt8) (node : Nat) (state : ScanState) :
    Option (UInt32 × ScanState) := do
  let totlen ← wordAt block (node + 4)
  let nodetype ← halfAt block (node + 2)
  let read := if nodetype = JFFS2_NODETYPE_DIRENT then readDirent block dir node state else some state
  read.map fun after => (totlen, after)

def PAD (length : UInt32) : UInt32 := (length + 3) &&& ~~~3

def mtdParseJffs2data (block dir : List UInt8) : Nat → UInt32 → ScanState → ScanResult
  | 0, _, _ => .endless
  | fuel + 1, ofs, state =>
      if ofs.toNat < block.length then
        match halfAt block ofs.toNat with
        | none => .outside
        | some magic =>
            if magic = JFFS2_MAGIC_BITMASK then
              match readNode block dir ofs.toNat state with
              | none => .outside
              | some (totlen, state) => mtdParseJffs2data block dir fuel (ofs + PAD totlen) state
            else .ended state
      else .ended state

/-! ## What is read of a node -/

variable {block dir : List UInt8} {ofs : UInt32} {node place nsize fuel : Nat} {state : ScanState}

/-- The bytes of the name up to the first that tells it from `dir`. -/
def NameInside (block dir : List UInt8) (place nsize : Nat) : Prop :=
  (∀ index < nsize, place + index < block.length) ∨
    ∃ index < nsize, place + index < block.length ∧ block[place + index]? ≠ dir[index]?

/-- The fields of a dirent that are looked at. -/
structure DirentInside (block dir : List UInt8) (node : Nat) : Prop where
  fields : node + 24 ≤ block.length
  name : dir ≠ [] → be32At block (node + 12) = 1 →
    node + 29 ≤ block.length ∧ NameInside block dir (node + 40) (block.getD (node + 28) 0).toNat

/-- The bytes that the scan reads at an offset below the end of the block. -/
structure NodeInside (block dir : List UInt8) (node : Nat) : Prop where
  magic : node + 2 ≤ block.length
  header : halfAt block node = some JFFS2_MAGIC_BITMASK → node + 8 ≤ block.length
  dirent : halfAt block node = some JFFS2_MAGIC_BITMASK →
    halfAt block (node + 2) = some JFFS2_NODETYPE_DIRENT → DirentInside block dir node

/-- From a node to the one that its length points to. -/
def NextNode (block : List UInt8) (ofs after : UInt32) : Prop :=
  ofs.toNat < block.length ∧ halfAt block ofs.toNat = some JFFS2_MAGIC_BITMASK ∧
    after = ofs + PAD (be32At block (ofs.toNat + 4))

theorem halfAt_exists : (∃ half, halfAt block place = some half) ↔ place + 2 ≤ block.length := by
  unfold halfAt
  split <;> simp [*]

theorem wordAt_eq_some_iff {word : UInt32} :
    wordAt block place = some word ↔ place + 4 ≤ block.length ∧ be32At block place = word := by
  unfold wordAt
  split <;> simp [*]

theorem NameInside.start (inside : NameInside block dir place (nsize + 1)) : place < block.length := by
  rcases inside with all | ⟨index, -, below, -⟩
  · exact all 0 (Nat.succ_pos nsize)
  · omega

/-- A first byte that is the one of `dir` leaves the rest to be looked at. -/
theorem nameInside_cons {char : UInt8} (first : block[place]? = some char) :
    NameInside block (char :: dir) place (nsize + 1) ↔ NameInside block dir (place + 1) nsize := by
  have here : place < block.length := (List.getElem?_eq_some_iff.mp first).1
  unfold NameInside
  constructor
  · rintro (all | ⟨index, few, below, differs⟩)
    · left
      intro index few
      have next := all (index + 1) (by omega)
      omega
    · cases index with
      | zero => exact absurd first differs
      | succ index =>
          right
          rw [← Nat.add_assoc, Nat.add_right_comm] at below differs
          exact ⟨index, by omega, below, differs⟩
  · rintro (all | ⟨index, few, below, differs⟩)
    · left
      intro index few
      cases index with
      | zero => exact here
      | succ index =>
          have next := all index (by omega)
          omega
    · right
      refine ⟨index + 1, by omega, by omega, ?_⟩
      rw [← Nat.add_assoc, Nat.add_right_comm]
      exact differs

theorem strncmpEq_exists :
    (∃ same, strncmpEq block place dir nsize = some same) ↔ NameInside block dir place nsize := by
  induction nsize generalizing place dir with
  | zero =>
      simp only [strncmpEq, Option.some.injEq, exists_eq', true_iff]
      left
      intro index impossible
      cases impossible
  | succ nsize ih =>
      cases found : block[place]? with
      | none =>
          have behind := List.getElem?_eq_none_iff.mp found
          have outside : ¬ NameInside block dir place (nsize + 1) := fun inside => by
            have start := inside.start
            omega
          cases dir with
          | nil => simp [strncmpEq, found, outside]
          | cons char dir => simp [strncmpEq, found, outside]
      | some byte =>
          have here := (List.getElem?_eq_some_iff.mp found).1
          cases dir with
          | nil =>
              simp only [strncmpEq, found, Option.map_some, Option.some.injEq, exists_eq', true_iff]
              exact .inr ⟨0, Nat.succ_pos nsize, here, by simp [found]⟩
          | cons char dir =>
              simp only [strncmpEq, found, Option.bind_some]
              split
              · rename_i same
                subst same
                rw [nameInside_cons found]
                exact ih
              · rename_i differs
                simp only [Option.some.injEq, exists_eq', true_iff]
                exact .inr ⟨0, Nat.succ_pos nsize, here, by simpa [found] using differs⟩

theorem isTarget_exists (fields : node + 24 ≤ block.length) :
    (∃ target, isTarget block dir node = some target) ↔
      (dir ≠ [] → be32At block (node + 12) = 1 →
        node + 29 ≤ block.length ∧
          NameInside block dir (node + 40) (block.getD (node + 28) 0).toNat) := by
  unfold isTarget
  by_cases wanted : dir = []
  · simp [wanted]
  · have pino : wordAt block (node + 12) = some (be32At block (node + 12)) :=
      Iff.mpr wordAt_eq_some_iff ⟨by omega, rfl⟩
    rw [if_neg wanted, pino, Option.bind_eq_bind, Option.bind_some]
    by_cases root : be32At block (node + 12) = 1
    · rw [if_pos root]
      simp only [wanted, root, ne_eq, not_false_iff, true_implies]
      rcases Nat.lt_or_ge (node + 28) block.length with inside | outside
      · rw [List.getElem?_eq_getElem inside, Option.bind_eq_bind, Option.bind_some,
          List.getD_eq_getElem _ _ inside, ← strncmpEq_exists]
        simp only [show node + 29 ≤ block.length from inside, true_and]
      · rw [List.getElem?_eq_none outside]
        simp only [Option.bind_eq_bind, Option.bind_none, reduceCtorEq, exists_false, false_iff]
        omega
    · simp [root]

theorem readDirent_exists :
    (∃ after, readDirent block dir node state = some after) ↔ DirentInside block dir node := by
  constructor
  · rintro ⟨after, read⟩
    simp only [readDirent, Option.bind_eq_bind, Option.bind_eq_some_iff] at read
    obtain ⟨target, found, ino, inoRead, -⟩ := read
    have fields := (Iff.mp wordAt_eq_some_iff inoRead).1
    exact ⟨by omega, (isTarget_exists (by omega)).mp ⟨target, found⟩⟩
  · intro inside
    have fields := inside.fields
    obtain ⟨target, found⟩ := (isTarget_exists (by omega)).mpr inside.name
    have ino : wordAt block (node + 20) = some (be32At block (node + 20)) :=
      Iff.mpr wordAt_eq_some_iff ⟨by omega, rfl⟩
    have version : wordAt block (node + 16) = some (be32At block (node + 16)) :=
      Iff.mpr wordAt_eq_some_iff ⟨by omega, rfl⟩
    simp only [readDirent, found, ino, version, Option.bind_eq_bind, Option.bind_some]
    exact ⟨_, rfl⟩

theorem readNode_exists :
    (∃ totlen after, readNode block dir node state = some (totlen, after)) ↔
      node + 8 ≤ block.length ∧
        (halfAt block (node + 2) = some JFFS2_NODETYPE_DIRENT → DirentInside block dir node) := by
  constructor
  · rintro ⟨totlen, after, read⟩
    simp only [readNode, Option.bind_eq_bind, Option.bind_eq_some_iff, Option.map_eq_some_iff] at read
    obtain ⟨word, lengthRead, nodetype, typeRead, next, direntRead, -⟩ := read
    refine ⟨(Iff.mp wordAt_eq_some_iff lengthRead).1, fun dirent => ?_⟩
    rw [typeRead, Option.some.injEq] at dirent
    rw [if_pos dirent] at direntRead
    exact readDirent_exists.mp ⟨next, direntRead⟩
  · rintro ⟨header, dirent⟩
    have totlen : wordAt block (node + 4) = some (be32At block (node + 4)) :=
      Iff.mpr wordAt_eq_some_iff ⟨by omega, rfl⟩
    obtain ⟨nodetype, typeRead⟩ := (@halfAt_exists block (node + 2)).mpr (by omega)
    simp only [readNode, totlen, typeRead, Option.bind_eq_bind, Option.bind_some]
    by_cases isDirent : nodetype = JFFS2_NODETYPE_DIRENT
    · obtain ⟨after, read⟩ := (@readDirent_exists block dir node state).mpr
        (dirent (isDirent ▸ typeRead))
      rw [if_pos isDirent, read]
      exact ⟨_, after, rfl⟩
    · rw [if_neg isDirent]
      exact ⟨_, state, rfl⟩

theorem readNode_totlen {totlen : UInt32} {after : ScanState}
    (read : readNode block dir node state = some (totlen, after)) :
    totlen = be32At block (node + 4) := by
  simp only [readNode, Option.bind_eq_bind, Option.bind_eq_some_iff, Option.map_eq_some_iff,
    Prod.mk.injEq] at read
  obtain ⟨word, lengthRead, nodetype, -, next, -, same, -⟩ := read
  rw [← same, (Iff.mp wordAt_eq_some_iff lengthRead).2]

/-! ## The walk along the lengths -/

theorem NextNode.unique {first second : UInt32} (left : NextNode block ofs first)
    (right : NextNode block ofs second) : first = second := left.2.2.trans right.2.2.symm

/-- Each node that the walk from `start` meets below the end of the block is read inside it. -/
def WalkInside (block dir : List UInt8) (start : UInt32) : Prop :=
  ∀ place, ReflTransGen (NextNode block) start place → place.toNat < block.length →
    NodeInside block dir place.toNat

theorem walk_stopped (stopped : ∀ after, ¬ NextNode block ofs after)
    (inside : ofs.toNat < block.length → NodeInside block dir ofs.toNat) :
    Ends (NextNode block) ofs ∧ WalkInside block dir ofs := by
  constructor
  · exact Acc.intro ofs fun after step => absurd step (stopped after)
  · intro place reached
    rcases ReflTransGen.cases_head reached with rfl | ⟨after, step, -⟩
    · exact inside
    · exact absurd step (stopped after)

theorem walk_step {after : UInt32} (step : NextNode block ofs after) :
    Ends (NextNode block) ofs ∧ WalkInside block dir ofs ↔
      NodeInside block dir ofs.toNat ∧ Ends (NextNode block) after ∧ WalkInside block dir after := by
  constructor
  · rintro ⟨ends, inside⟩
    exact ⟨inside ofs .refl step.1, ends.inv step, fun place reached =>
      inside place (.head step reached)⟩
  · rintro ⟨here, ends, inside⟩
    constructor
    · exact Acc.intro ofs fun other otherStep => step.unique otherStep ▸ ends
    · intro place reached below
      rcases ReflTransGen.cases_head reached with rfl | ⟨other, otherStep, rest⟩
      · exact here
      · exact inside place (step.unique otherStep ▸ rest) below

theorem parse_ended {after : ScanState}
    (ended : mtdParseJffs2data block dir fuel ofs state = .ended after) :
    Ends (NextNode block) ofs ∧ WalkInside block dir ofs := by
  induction fuel generalizing ofs state with
  | zero => cases ended
  | succ fuel ih =>
      rw [mtdParseJffs2data] at ended
      split at ended
      · rename_i below
        split at ended
        · cases ended
        · rename_i magic magicRead
          have magicInside := halfAt_exists.mp ⟨magic, magicRead⟩
          split at ended
          · rename_i isNode
            subst isNode
            split at ended
            · cases ended
            · rename_i totlen next read
              have step : NextNode block ofs (ofs + PAD totlen) :=
                ⟨below, magicRead, by rw [readNode_totlen read]⟩
              obtain ⟨header, dirent⟩ := readNode_exists.mp ⟨totlen, next, read⟩
              exact (walk_step step).mpr ⟨⟨magicInside, fun _ => header, fun _ => dirent⟩, ih ended⟩
          · rename_i other
            have differs : halfAt block ofs.toNat ≠ some JFFS2_MAGIC_BITMASK := by
              rw [magicRead]
              simpa using other
            apply walk_stopped
            · exact fun after step => differs step.2.1
            · exact fun _ => ⟨magicInside, fun same => absurd same differs,
                fun same => absurd same differs⟩
      · rename_i behind
        apply walk_stopped
        · exact fun after step => behind step.1
        · exact fun below => absurd below behind

theorem parse_ends (ends : Ends (NextNode block) ofs) (inside : WalkInside block dir ofs) :
    ∃ fuel after, mtdParseJffs2data block dir fuel ofs state = .ended after := by
  induction ends generalizing state with
  | intro ofs _ ih =>
      by_cases below : ofs.toNat < block.length
      · have here := inside ofs .refl below
        obtain ⟨magic, magicRead⟩ := halfAt_exists.mpr here.magic
        by_cases isNode : magic = JFFS2_MAGIC_BITMASK
        · subst isNode
          obtain ⟨totlen, next, read⟩ := (@readNode_exists block dir ofs.toNat state).mpr
            ⟨here.header magicRead, here.dirent magicRead⟩
          have step : NextNode block ofs (ofs + PAD totlen) :=
            ⟨below, magicRead, by rw [readNode_totlen read]⟩
          obtain ⟨fuel, after, ended⟩ := @ih (ofs + PAD totlen) step next
            (fun place reached => inside place (.head step reached))
          refine ⟨fuel + 1, after, ?_⟩
          simp only [mtdParseJffs2data, if_pos below, magicRead, if_true, read, ended]
        · refine ⟨1, state, ?_⟩
          simp only [mtdParseJffs2data, if_pos below, magicRead, if_neg isNode]
      · exact ⟨1, state, by rw [mtdParseJffs2data, if_neg below]⟩

/-- Along the lengths from the start of the block no offset comes back, and the
nodes lie in the block as far as they are read. -/
structure NodesInBlock (block dir : List UInt8) : Prop where
  once : ∀ place, ReflTransGen (NextNode block) 0 place → ¬ Returns (NextNode block) place
  inside : WalkInside block dir 0

instance finiteUInt32 : Finite UInt32 := Finite.of_injective UInt32.toFin fun _ _ => UInt32.toFin_inj.mp

/-- The scan ends without leaving the block exactly when the lengths in it lead from
node to node inside the block and never back. -/
theorem mtdParseJffs2data_ended_iff (block dir : List UInt8) (state : ScanState) :
    (∃ fuel after, mtdParseJffs2data block dir fuel 0 state = .ended after) ↔
      NodesInBlock block dir := by
  constructor
  · rintro ⟨fuel, after, ended⟩
    obtain ⟨ends, inside⟩ := parse_ended ended
    exact ⟨ends_iff_never_returns.mp ends, inside⟩
  · rintro ⟨once, inside⟩
    exact parse_ends (ends_iff_never_returns.mpr once) inside

/-- A node of length zero. -/
def zeroLength : List UInt8 := [0x19, 0x85, 0xe0, 0x02] ++ List.replicate 60 0

theorem zeroLength_endless (fuel : Nat) (state : ScanState) :
    mtdParseJffs2data zeroLength [] fuel 0 state = .endless := by
  induction fuel with
  | zero => rfl
  | succ fuel ih =>
      have magic : halfAt zeroLength 0 = some JFFS2_MAGIC_BITMASK := by decide
      have read : readNode zeroLength [] 0 state = some (0, state) := rfl
      have still : (0 : UInt32) + PAD 0 = 0 := by decide
      rw [mtdParseJffs2data, if_pos (by decide)]
      simp only [UInt32.toNat_zero, magic, if_true, read, still, ih]

/-- The scan of such a block never ends. -/
theorem mtdParseJffs2data_endless :
    ¬ ∀ (block dir : List UInt8) (state : ScanState),
      ∃ fuel after, mtdParseJffs2data block dir fuel 0 state = .ended after := by
  intro always
  obtain ⟨fuel, after, ended⟩ := always zeroLength [] ⟨0, 0, 0⟩
  rw [zeroLength_endless] at ended
  cases ended

end Rut9xx.Mtd.Append
