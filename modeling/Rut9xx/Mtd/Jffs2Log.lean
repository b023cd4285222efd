import Rut9xx.Mtd.Jffs2Entries
import Rut9xx.Data.Align

namespace Rut9xx.Mtd.Append

open Rut9xx.Data

/-! # A jffs2 log and what the scan makes of it

The scan looks at no checksum, so neither does the log here.
-/

/-! ## Nodes -/

def IsDirent (node : List UInt8) : Prop := halfAt node 2 = some JFFS2_NODETYPE_DIRENT

def IsInode (node : List UInt8) : Prop := halfAt node 2 = some JFFS2_NODETYPE_INODE

instance (node : List UInt8) : Decidable (IsDirent node) := inferInstanceAs (Decidable (_ = _))

instance (node : List UInt8) : Decidable (IsInode node) := inferInstanceAs (Decidable (_ = _))

def direntParent (node : List UInt8) : UInt32 := be32At node 12

def direntName (node : List UInt8) : List UInt8 := node.drop sizeofRawDirent

/-- Dirents and inode nodes keep their version in one place. -/
def nodeVersion (node : List UInt8) : UInt32 := be32At node 16

def inodeNumber (node : List UInt8) : UInt32 :=
  if IsDirent node then be32At node 20 else be32At node 12

structure ValidNode (node : List UInt8) : Prop where
  header : 12 ≤ node.length
  magic : halfAt node 0 = some JFFS2_MAGIC_BITMASK
  totlen : (be32At node 4).toNat = node.length
  dirent : IsDirent node →
    node.length = sizeofRawDirent + (node.getD 28 0).toNat ∧ (0 : UInt8) ∉ direntName node
  inode : IsInode node → sizeofRawInode ≤ node.length

/-- From `place` on the block holds these nodes, each at a multiple of four, and no more. -/
inductive BlockHolds (block : List UInt8) : Nat → List (List UInt8) → Prop where
  | done {place : Nat} (inside : place < block.length → place + 2 ≤ block.length)
      (ends : halfAt block place ≠ some JFFS2_MAGIC_BITMASK) : BlockHolds block place []
  | node {place : Nat} {node : List UInt8} {nodes : List (List UInt8)} (valid : ValidNode node)
      (inside : place + node.length ≤ block.length) (here : slice block place node.length = node)
      (rest : BlockHolds block (place + roundUp node.length 4) nodes) :
      BlockHolds block place (node :: nodes)

variable {block node dir name : List UInt8} {place at' fuel : Nat} {state : ScanState}
  {nodes other : List (List UInt8)}

/-! ## Reading a node out of its block -/

theorem halfAt_slice {count : Nat} (within : at' + 2 ≤ count) (inside : place + count ≤ block.length) :
    halfAt (slice block place count) at' = halfAt block (place + at') := by
  have length : (slice block place count).length = count := by
    rw [slice, List.length_take, List.length_drop]
    omega
  rw [halfAt, halfAt, if_pos (by omega), if_pos (by omega), getD_slice (by omega),
    getD_slice (by omega)]
  rfl

theorem wordAt_slice {count : Nat} (within : at' + 4 ≤ count) (inside : place + count ≤ block.length) :
    wordAt block (place + at') = some (be32At (slice block place count) at') := by
  rw [wordAt, if_pos (by omega), be32At_slice within]

/-- A name without zeros is found exactly in front of the directory's. -/
theorem strncmpEq_name (here : slice block place name.length = name)
    (inside : place + name.length ≤ block.length) (text : (0 : UInt8) ∉ name) :
    strncmpEq block place dir name.length = some (decide (name <+: dir)) := by
  induction name generalizing place dir with
  | nil => simp [strncmpEq]
  | cons char name ih =>
      rw [List.length_cons] at inside
      have first : block[place]? = some char := by
        have found := slice_eq_iff.mp here 0 (by simp)
        simpa using found
      have behind : slice block (place + 1) name.length = name := by
        apply slice_eq_iff.mpr
        intro index below
        have found := slice_eq_iff.mp here (index + 1) (by simpa using below)
        rw [← Nat.add_assoc, Nat.add_right_comm] at found
        simpa using found
      have charNonzero : char ≠ 0 := fun zero => text (by simp [zero])
      rw [List.length_cons]
      cases dir with
      | nil => simp [strncmpEq, first, charNonzero]
      | cons wanted dir =>
          rw [strncmpEq, first, Option.bind_some]
          by_cases same : char = wanted
          · subst same
            rw [if_pos rfl, ih behind (by omega) fun member => text (List.mem_cons_of_mem _ member)]
            simp
          · rw [if_neg same]
            simp [same]

/-- A dirent of the root directory. -/
def InRoot (node : List UInt8) : Prop := IsDirent node ∧ direntParent node = 1

instance (node : List UInt8) : Decidable (InRoot node) := inferInstanceAs (Decidable (_ ∧ _))

/-- What the scan takes for the directory. -/
def IsTaken (dir node : List UInt8) : Prop := dir ≠ [] ∧ InRoot node ∧ direntName node <+: dir

instance (dir node : List UInt8) : Decidable (IsTaken dir node) :=
  inferInstanceAs (Decidable (_ ∧ _))

/-- What one node does to the variables. -/
def noteNode (dir : List UInt8) (state : ScanState) (node : List UInt8) : ScanState :=
  if IsDirent node then
    { lastIno := if state.lastIno < inodeNumber node then inodeNumber node else state.lastIno
      lastVersion :=
        if state.lastVersion < nodeVersion node then nodeVersion node else state.lastVersion
      targetIno := if IsTaken dir node then inodeNumber node else state.targetIno }
  else state

theorem isTarget_node (valid : ValidNode node) (inside : place + node.length ≤ block.length)
    (here : slice block place node.length = node) (dirent : IsDirent node) :
    isTarget block dir place = some (decide (IsTaken dir node)) := by
  obtain ⟨length, text⟩ := valid.dirent dirent
  rw [sizeofRawDirent] at length
  unfold isTarget
  by_cases wanted : dir = []
  · simp [wanted, IsTaken]
  · have pino : wordAt block (place + 12) = some (direntParent node) := by
      rw [wordAt_slice (by omega : 12 + 4 ≤ node.length) inside, here, direntParent]
    rw [if_neg wanted, pino, Option.bind_eq_bind, Option.bind_some]
    by_cases root : direntParent node = 1
    · have nsize : block[place + 28]? = some (node.getD 28 0) := by
        have found := slice_eq_iff.mp here 28 (by omega)
        rw [found, List.getD_eq_getElem _ _ (by omega), List.getElem?_eq_getElem (by omega)]
      have nameLength : (direntName node).length = (node.getD 28 0).toNat := by
        rw [direntName, List.length_drop, sizeofRawDirent]
        omega
      have nameHere : slice block (place + 40) (direntName node).length = direntName node := by
        rw [nameLength, ← @slice_slice _ block place node.length 40 _ (by omega), here, slice,
          direntName, sizeofRawDirent, List.take_of_length_le (by rw [List.length_drop]; omega)]
      rw [if_pos root, nsize, Option.bind_eq_bind, Option.bind_some, ← nameLength,
        strncmpEq_name nameHere (by omega) text]
      simp [IsTaken, InRoot, wanted, dirent, root]
    · simp [root, IsTaken, InRoot]

theorem readNode_node (valid : ValidNode node) (inside : place + node.length ≤ block.length)
    (here : slice block place node.length = node) :
    readNode block dir place state = some (be32At node 4, noteNode dir state node) := by
  have header := valid.header
  have totlen : wordAt block (place + 4) = some (be32At node 4) := by
    rw [wordAt_slice (by omega : 4 + 4 ≤ node.length) inside, here]
  have nodetype : halfAt block (place + 2) = halfAt node 2 := by
    rw [← halfAt_slice (by omega : 2 + 2 ≤ node.length) inside, here]
  obtain ⟨type, typeEq⟩ := (@halfAt_exists node 2).mpr (by omega)
  simp only [readNode, totlen, nodetype, typeEq, Option.bind_eq_bind, Option.bind_some]
  by_cases dirent : type = JFFS2_NODETYPE_DIRENT
  · subst dirent
    have entry : IsDirent node := typeEq
    obtain ⟨length, -⟩ := valid.dirent entry
    rw [sizeofRawDirent] at length
    have ino : wordAt block (place + 20) = some (inodeNumber node) := by
      rw [wordAt_slice (by omega : 20 + 4 ≤ node.length) inside, here, inodeNumber, if_pos entry]
    have version : wordAt block (place + 16) = some (nodeVersion node) := by
      rw [wordAt_slice (by omega : 16 + 4 ≤ node.length) inside, here, nodeVersion]
    rw [if_pos rfl, readDirent, isTarget_node valid inside here entry, ino, version, noteNode,
      if_pos entry]
    simp only [Option.bind_eq_bind, Option.bind_some, Option.map_some, decide_eq_true_eq]
  · have other : ¬ IsDirent node := by
      rw [IsDirent, typeEq, Option.some.injEq]
      exact dirent
    rw [if_neg dirent, noteNode, if_neg other, Option.map_some]

/-! ## The scan of a block -/

theorem PAD_toNat {length : UInt32} (fits : length.toNat + 4 ≤ 2 ^ 32) :
    (PAD length).toNat = roundUp length.toNat 4 := by
  have same : PAD length = alignUp length 4 := by
    have step : length + 4 - 1 = length + 3 := by
      apply UInt32.toNat_inj.mp
      simp only [UInt32.toNat_sub, UInt32.toNat_add, UInt32.reduceToNat]
      omega
    rw [PAD, alignUp, step]
    rfl
  rw [same]
  exact alignUp_toNat 2 rfl fits

theorem parse_holds (small : block.length < 2 ^ 31) (holds : BlockHolds block place nodes)
    (near : place < block.length + 4) (enough : 0 < fuel ∧ block.length < fuel + place) :
    mtdParseJffs2data block dir fuel (UInt32.ofNat place) state =
      .ended (nodes.foldl (noteNode dir) state) := by
  induction holds generalizing fuel state with
  | @done place inside ends =>
      obtain ⟨fuel, rfl⟩ := Nat.exists_eq_add_one.mpr enough.1
      have ofs : (UInt32.ofNat place).toNat = place := by
        rw [UInt32.toNat_ofNat', Nat.mod_eq_of_lt (by omega)]
      rw [mtdParseJffs2data, ofs]
      by_cases below : place < block.length
      · obtain ⟨magic, magicRead⟩ := halfAt_exists.mpr (inside below)
        rw [if_pos below]
        rw [magicRead, ne_eq, Option.some.injEq] at ends
        simp only [magicRead, if_neg ends, List.foldl_nil]
      · rw [if_neg below, List.foldl_nil]
  | @node place node nodes valid inside here rest ih =>
      obtain ⟨fuel, rfl⟩ := Nat.exists_eq_add_one.mpr enough.1
      have header := valid.header
      have ofs : (UInt32.ofNat place).toNat = place := by
        rw [UInt32.toNat_ofNat', Nat.mod_eq_of_lt (by omega)]
      have magicRead : halfAt block place = some JFFS2_MAGIC_BITMASK := by
        have found := @halfAt_slice block place 0 node.length (by omega) inside
        rw [here, valid.magic] at found
        exact found.symm
      have above := le_roundUp node.length (by decide : 0 < 4)
      have below := roundUp_lt node.length (by decide : 0 < 4)
      have next : UInt32.ofNat place + PAD (be32At node 4) =
          UInt32.ofNat (place + roundUp node.length 4) := by
        apply UInt32.toNat_inj.mp
        rw [UInt32.toNat_add, ofs, PAD_toNat (by rw [valid.totlen]; omega), valid.totlen,
          UInt32.toNat_ofNat']
      rw [mtdParseJffs2data, ofs, if_pos (by omega)]
      simp only [magicRead, if_true, readNode_node valid inside here, next, List.foldl_cons]
      exact ih (by omega) (by omega)

/-- The nodes of a block are determined by the block. -/
theorem BlockHolds.unique (holds : BlockHolds block place nodes)
    (also : BlockHolds block place other) : nodes = other := by
  induction holds generalizing other with
  | done inside ends =>
      cases also with
      | done _ _ => rfl
      | node valid within here rest =>
          have header := valid.header
          have found := @halfAt_slice block _ 0 _ (by omega) within
          rw [here, valid.magic] at found
          exact absurd found.symm ends
  | @node place node nodes valid within here rest ih =>
      have header := valid.header
      cases also with
      | done inside ends =>
          have found := @halfAt_slice block _ 0 _ (by omega) within
          rw [here, valid.magic] at found
          exact absurd found.symm ends
      | @node _ second _ secondValid secondWithin secondHere secondRest =>
          have secondHeader := secondValid.header
          have lengths : node.length = second.length := by
            rw [← valid.totlen, ← secondValid.totlen]
            congr 1
            rw [← here, ← secondHere, be32At_slice (by omega), be32At_slice (by omega)]
          have same : node = second := by
            rw [← here, ← secondHere, lengths]
          subst same
          rw [ih secondRest]

/-! ## The scan of the partition -/

/-- The nodes of the blocks of the log, and the block that it ends at. -/
structure LogHolds (erasesize : Nat) (read : Nat → Option (List UInt8))
    (log : List (List (List UInt8))) (last : List UInt8) : Prop where
  blocks : ∀ index (below : index < log.length), ∃ block,
    read (index * erasesize) = some block ∧ block.length = erasesize ∧
      halfAt block 0 = some JFFS2_MAGIC_BITMASK ∧ BlockHolds block 0 log[index]
  behind : read (log.length * erasesize) = some last
  noMagic : halfAt last 0 ≠ some JFFS2_MAGIC_BITMASK
  noCigam : halfAt last 0 ≠ some KSAMTIB_CIGAM_2SFFJ

theorem findLogEnd_holds {erasesize index : Nat} {read : Nat → Option (List UInt8)}
    {log : List (List (List UInt8))} {last : List UInt8} (small : erasesize < 2 ^ 31)
    (holds : LogHolds erasesize read log last) (within : index ≤ log.length)
    (enough : log.length < fuel + index) :
    findLogEnd erasesize read dir fuel (index * erasesize) state =
      .found (log.length * erasesize) last ((log.drop index).flatten.foldl (noteNode dir) state) := by
  induction fuel generalizing index state with
  | zero => omega
  | succ fuel ih =>
      rcases Nat.lt_or_eq_of_le within with below | atEnd
      · obtain ⟨block, found, length, magic, nodes⟩ := holds.blocks index below
        have differs : (JFFS2_MAGIC_BITMASK : UInt16) ≠ KSAMTIB_CIGAM_2SFFJ := by decide
        have parsed : mtdParseJffs2data block dir (block.length + 1) 0 state =
            .ended (log[index].foldl (noteNode dir) state) :=
          @parse_holds block dir 0 _ state _ (by omega) nodes (by omega) ⟨Nat.succ_pos _, by omega⟩
        rw [findLogEnd, found]
        simp only [magic, Option.some.injEq, if_neg differs, if_true, parsed]
        rw [← Nat.succ_mul, ih below (by omega), List.drop_eq_getElem_cons below, List.flatten_cons,
          List.foldl_append]
      · subst atEnd
        rw [findLogEnd, holds.behind]
        simp only [if_neg holds.noMagic, if_neg holds.noCigam, List.drop_length, List.flatten_nil,
          List.foldl_nil]

/-! ## What the variables hold then -/

theorem larger_lt {first second number : UInt32} :
    (if first < second then second else first) < number ↔ first < number ∧ second < number := by
  split <;> (simp only [UInt32.lt_iff_toNat_lt] at *; omega)

theorem noteNode_lastIno (number : UInt32) :
    (nodes.foldl (noteNode dir) state).lastIno < number ↔
      state.lastIno < number ∧ ∀ node ∈ nodes, IsDirent node → inodeNumber node < number := by
  induction nodes generalizing state with
  | nil => simp
  | cons node nodes ih =>
      rw [List.foldl_cons, ih, List.forall_mem_cons, ← and_assoc]
      refine and_congr_left fun _ => ?_
      by_cases entry : IsDirent node
      · rw [noteNode, if_pos entry, larger_lt]
        simp only [entry, true_implies]
      · rw [noteNode, if_neg entry]
        simp only [entry, false_implies, and_true]

theorem noteNode_lastVersion (number : UInt32) :
    (nodes.foldl (noteNode dir) state).lastVersion < number ↔
      state.lastVersion < number ∧ ∀ node ∈ nodes, IsDirent node → nodeVersion node < number := by
  induction nodes generalizing state with
  | nil => simp
  | cons node nodes ih =>
      rw [List.foldl_cons, ih, List.forall_mem_cons, ← and_assoc]
      refine and_congr_left fun _ => ?_
      by_cases entry : IsDirent node
      · rw [noteNode, if_pos entry, larger_lt]
        simp only [entry, true_implies]
      · rw [noteNode, if_neg entry]
        simp only [entry, false_implies, and_true]

/-- The inode number that the scan takes for that of the directory. -/
def takenIno (dir : List UInt8) (nodes : List (List UInt8)) : Option UInt32 :=
  (nodes.filter fun node => decide (IsTaken dir node)).getLast?.map inodeNumber

theorem noteNode_targetIno :
    (nodes.foldl (noteNode dir) state).targetIno = (takenIno dir nodes).getD state.targetIno := by
  induction nodes generalizing state with
  | nil => rfl
  | cons node nodes ih =>
      rw [List.foldl_cons, ih, takenIno, takenIno]
      by_cases taken : IsTaken dir node
      · have entry : IsDirent node := taken.2.1.1
        rw [List.filter_cons_of_pos (by simpa using taken), noteNode, if_pos entry]
        simp only [if_pos taken, List.getLast?_cons, Option.map_some, Option.getD_some]
        cases (nodes.filter fun node => decide (IsTaken dir node)).getLast? <;> rfl
      · rw [List.filter_cons_of_neg (by simpa using taken)]
        congr 1
        by_cases entry : IsDirent node
        · simp only [noteNode, if_pos entry, if_neg taken]
        · rw [noteNode, if_neg entry]

end Rut9xx.Mtd.Append
