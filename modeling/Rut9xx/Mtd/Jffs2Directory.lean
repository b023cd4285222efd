import Rut9xx.Mtd.Jffs2Log
import Rut9xx.Mtd.Jffs2Entries
import Rut9xx.Mtd.Device

namespace Rut9xx.Mtd.Append

open Rut9xx.Data

/-! # The directory and the numbers of an appended file -/

variable {erasesize place : Nat} {block node dir name data : List UInt8} {file : SourceFile} {st : Stat}
  {nodes blocks entries other : List (List UInt8)} {pino version ino offset : UInt32} {type : UInt8}

/-! ## The nodes that are written can be read -/

theorem halfAt_front {first second : UInt16} (head : node.take 4 = be16 first ++ be16 second) :
    halfAt node 0 = some first ∧ halfAt node 2 = some second := by
  have long : 4 ≤ node.length := by
    have length := congrArg List.length head
    rw [List.length_take, List.length_append, be16_length, be16_length] at length
    omega
  have byte : ∀ index < 4, node.getD index 0 = (be16 first ++ be16 second).getD index 0 := by
    intro index below
    rw [← head, List.getD_eq_getElem?_getD, List.getD_eq_getElem?_getD,
      List.getElem?_take_of_lt below]
  have joined : ∀ half : UInt16, UInt16.ofNat (2 ^ 8 * (UInt8.ofNat (half.toNat / 2 ^ 8)).toNat +
      (UInt8.ofNat half.toNat).toNat) = half := by
    intro half
    apply UInt16.toNat_inj.mp
    have bound := half.toNat_lt
    simp only [UInt8.toNat_ofNat', UInt16.toNat_ofNat']
    omega
  constructor
  · rw [halfAt, if_pos (by omega), byte 0 (by omega), byte 1 (by omega)]
    exact congrArg some (joined first)
  · rw [halfAt, if_pos (by omega), byte 2 (by omega), byte 3 (by omega)]
    exact congrArg some (joined second)

theorem rawDirent_read (short : name.length ≤ 255) (text : (0 : UInt8) ∉ name) :
    ValidNode (rawDirent name type pino version ino) ∧
      IsDirent (rawDirent name type pino version ino) ∧
      direntParent (rawDirent name type pino version ino) = pino ∧
      nodeVersion (rawDirent name type pino version ino) = version ∧
      inodeNumber (rawDirent name type pino version ino) = ino ∧
      direntName (rawDirent name type pino version ino) = name := by
  have sound : ValidDirent (rawDirent name type pino version ino) name := rawDirent_valid short
  obtain ⟨magic, dirent⟩ := halfAt_front sound.head
  have fields : direntParent (rawDirent name type pino version ino) = pino ∧
      nodeVersion (rawDirent name type pino version ino) = version ∧
      be32At (rawDirent name type pino version ino) 20 = ino := by
    simp only [direntParent, nodeVersion, rawDirent, rawDirentFront, List.append_assoc,
      be32At_past16, be32At_past32, be32At_here, and_self]
  have nsize : (rawDirent name type pino version ino).getD 28 0 = UInt8.ofNat name.length := rfl
  have different : (JFFS2_NODETYPE_DIRENT : UInt16) ≠ JFFS2_NODETYPE_INODE := by decide
  refine ⟨⟨?_, magic, sound.totlen, fun _ => ⟨?_, ?_⟩, fun inode => ?_⟩, dirent, fields.1, fields.2.1,
    ?_, sound.name⟩
  · rw [sound.length]
    omega
  · rw [sound.length, nsize, UInt8.toNat_ofNat', sizeofRawDirent]
    omega
  · rw [direntName, sizeofRawDirent, sound.name]
    exact text
  · rw [IsInode, dirent, Option.some.injEq] at inode
    exact absurd inode different
  · rw [inodeNumber, if_pos (show IsDirent (rawDirent name type pino version ino) from dirent)]
    exact fields.2.2

theorem rawInode_read (short : data.length < 2 ^ 31) :
    ValidNode (rawInode ino version st offset data ++ data) ∧
      ¬ IsDirent (rawInode ino version st offset data ++ data) := by
  have sound := rawInode_valid ino version st offset short
  obtain ⟨magic, inode⟩ := halfAt_front sound.head
  have other : ¬ IsDirent (rawInode ino version st offset data ++ data) := by
    rw [IsDirent, inode]
    decide
  refine ⟨⟨?_, magic, sound.totlen, fun dirent => absurd dirent other, fun _ => ?_⟩, other⟩
  · rw [sound.length]
    omega
  · rw [sound.length, sizeofRawInode]
    omega

theorem cleanmarker_read : ValidNode CLEANMARKER ∧ ¬ IsDirent CLEANMARKER := by
  have magic : halfAt CLEANMARKER 0 = some JFFS2_MAGIC_BITMASK := by decide
  have notDirent : ¬ IsDirent CLEANMARKER := by decide
  have notInode : ¬ IsInode CLEANMARKER := by decide
  exact ⟨⟨by decide, magic, by decide, fun dirent => absurd dirent notDirent,
    fun inode => absurd inode notInode⟩, notDirent⟩

theorem padNode_roundUp : (padNode node).length = roundUp node.length 4 := by
  obtain ⟨aligned, above, below⟩ := padNode_length node
  exact (roundUp_eq (Nat.dvd_of_mod_eq_zero aligned) above below).symm

theorem holds_flatMap {fill : Nat} (valid : ∀ node ∈ nodes, ValidNode node)
    (layout : block.drop place = nodes.flatMap padNode ++ List.replicate fill 0xff)
    (aligned : fill % 4 = 0) (within : place ≤ block.length) : BlockHolds block place nodes := by
  induction nodes generalizing place with
  | nil =>
      have length := congrArg List.length layout
      simp only [List.flatMap_nil, List.nil_append, List.length_drop, List.length_replicate] at length
      apply BlockHolds.done
      · omega
      · intro magic
        rw [halfAt] at magic
        split at magic
        · rename_i inside
          have byte : ∀ index < fill, block.getD (place + index) 0 = 0xff := by
            intro index below
            rw [List.getD_eq_getElem?_getD, ← List.getElem?_drop, layout]
            simp [below]
          rw [show place = place + 0 from rfl, byte 0 (by omega), Nat.add_zero, byte 1 (by omega)]
            at magic
          exact absurd magic (by decide)
        · cases magic
  | cons node nodes ih =>
      rw [List.forall_mem_cons] at valid
      have behind : block.drop (place + roundUp node.length 4) =
          nodes.flatMap padNode ++ List.replicate fill 0xff := by
        rw [← List.drop_drop, layout, List.flatMap_cons, List.append_assoc, ← padNode_roundUp,
          List.drop_left]
      have length := congrArg List.length layout
      have above := (padNode_length node).2.1
      rw [List.flatMap_cons, List.append_assoc, List.length_append, List.length_drop] at length
      refine .node valid.1 (by omega) ?_ (ih valid.2 behind (by rw [← padNode_roundUp]; omega))
      rw [slice, layout, List.flatMap_cons, padNode, List.append_assoc, List.append_assoc,
        List.take_left]

theorem eraseblock_holds (aligned : 4 ∣ erasesize) (fits : (blockBytes nodes).length ≤ erasesize)
    (valid : ∀ node ∈ nodes, ValidNode node) :
    BlockHolds (eraseblock erasesize nodes) 0 (CLEANMARKER :: nodes) := by
  have whole : (blockBytes nodes).length % 4 = 0 := (blockBytes_length nodes).1
  apply @holds_flatMap _ _ _ (erasesize - (blockBytes nodes).length)
  · exact List.forall_mem_cons.mpr ⟨cleanmarker_read.1, valid⟩
  · rw [List.drop_zero]
    rfl
  · omega
  · exact Nat.zero_le _

/-! ## The entries that go out -/

/-- The dirents of the blocks in front of the end mark. -/
def EntriesOf (blocks entries : List (List UInt8)) : Prop :=
  ∃ groups, List.Forall₂ (fun block nodes => BlockHolds block 0 nodes) blocks.dropLast groups ∧
    groups.flatten.filter (fun node => decide (IsDirent node)) = entries

theorem EntriesOf.unique (held : EntriesOf blocks entries) (also : EntriesOf blocks other) :
    entries = other := by
  obtain ⟨groups, holds, rfl⟩ := held
  obtain ⟨groups', holds', rfl⟩ := also
  have same : groups = groups' := by
    generalize blocks.dropLast = front at holds holds'
    induction holds generalizing groups' with
    | nil =>
        cases holds'
        rfl
    | cons first _ ih =>
        cases holds' with
        | cons first' rest' => rw [first.unique first', ih _ rest']
  rw [same]

theorem MadeOf.entriesOf (aligned : 4 ∣ erasesize) (made : MadeOf erasesize blocks nodes)
    (valid : ∀ node ∈ nodes, ValidNode node) :
    EntriesOf blocks (nodes.filter fun node => decide (IsDirent node)) := by
  obtain ⟨groups, rfl, fits, rfl⟩ := made
  refine ⟨groups.map (CLEANMARKER :: ·), ?_, ?_⟩
  · rw [List.dropLast_concat, List.forall₂_map_left_iff, List.forall₂_map_right_iff,
      List.forall₂_same]
    intro group member
    exact eraseblock_holds aligned (fits group member) fun node inside =>
      valid node (List.mem_flatten_of_mem member inside)
  · clear fits valid
    induction groups with
    | nil => rfl
    | cons group groups ih =>
        rw [List.map_cons, List.flatten_cons, List.flatten_cons, List.filter_append,
          List.filter_append, ih, List.filter_cons_of_neg (by simpa using cleanmarker_read.2)]

theorem FileNodes.read {content : List UInt8} (made : FileNodes ino st offset version nodes content) :
    ∀ node ∈ nodes, ValidNode node ∧ ¬ IsDirent node := by
  induction made with
  | done =>
      intro node member
      cases member
  | @node offset version data content nodes some' short rest ih =>
      rw [List.forall_mem_cons]
      exact ⟨rawInode_read (by omega), ih⟩

/-- The dirent of a directory that is made. -/
def madeDirectory (dir : List UInt8) (found : ScanState) : List (List UInt8) :=
  if found.targetIno = 0 then
    [rawDirent dir DT_DIR 1 found.lastVersion ((if found.lastIno = 0 then 1 else found.lastIno) + 1)]
  else []

/-- The dirent of the file. -/
def fileDirent (dir name : List UInt8) (found : ScanState) : List UInt8 :=
  rawDirent name 8 (placeOf dir found).parent (placeOf dir found).lastVersion
    ((placeOf dir found).lastIno + 1)

theorem directory_valid (dirShort : dir.length ≤ 255) (dirText : (0 : UInt8) ∉ dir)
    (found : ScanState) : ∀ node ∈ (placeOf dir found).directory, ValidNode node := by
  by_cases missing : found.targetIno = 0
  · rw [placeOf, if_pos missing, directoryNodes]
    intro node member
    rcases List.mem_cons.mp member with rfl | later
    · exact (rawDirent_read dirShort dirText).1
    · rw [List.mem_singleton.mp later]
      have inode := @rawInode_read [] dirStat 1
        ((if found.lastIno = 0 then (1 : UInt32) else found.lastIno) + 1) 0 (by decide)
      rw [List.append_nil] at inode
      exact inode.1
  · rw [placeOf, if_neg missing]
    exact fun node member => absurd member List.not_mem_nil

theorem appendBlocks_entries {buf : Nat → UInt8} {found : ScanState} (aligned : 4 ∣ erasesize)
    (large : 4096 ≤ erasesize) (small : erasesize < 2 ^ 31) (dirShort : dir.length ≤ 255)
    (dirText : (0 : UInt8) ∉ dir) (short : file.name.length ≤ 255) (text : (0 : UInt8) ∉ file.name)
    (exists' : file.stat = some st) :
    ∃ blocks, appendBlocks erasesize buf found dir file = some blocks ∧
      EntriesOf blocks (madeDirectory dir found ++ [fileDirent dir file.name found]) := by
  obtain ⟨blocks, inodes, appended, made, nodes⟩ :=
    @appendBlocks_entry erasesize dir file st found buf aligned large small dirShort short exists'
  have directory : (placeOf dir found).directory.filter (fun node => decide (IsDirent node)) =
      madeDirectory dir found := by
    by_cases missing : found.targetIno = 0
    · rw [placeOf, if_pos missing, madeDirectory, if_pos missing, directoryNodes]
      generalize (if found.lastIno = 0 then (1 : UInt32) else found.lastIno) + 1 = ino
      obtain ⟨-, entry, -⟩ := @rawDirent_read dir 1 found.lastVersion ino DT_DIR dirShort dirText
      obtain ⟨-, inode⟩ := @rawInode_read [] dirStat 1 ino 0 (by decide)
      rw [List.append_nil] at inode
      rw [List.filter_cons_of_pos (by simpa using entry),
        List.filter_cons_of_neg (by simpa using inode), List.filter_nil]
    · rw [placeOf, if_neg missing, madeDirectory, if_neg missing]
      rfl
  have entry := @rawDirent_read file.name (placeOf dir found).parent (placeOf dir found).lastVersion
    ((placeOf dir found).lastIno + 1) 8 short text
  have inodesRead := FileNodes.read nodes
  refine ⟨blocks, appended, ?_⟩
  have read := MadeOf.entriesOf aligned made <| by
    intro node member
    rcases List.mem_append.mp member with front | back
    · exact directory_valid dirShort dirText found node front
    · rcases List.mem_cons.mp back with rfl | later
      · exact entry.1
      · exact (inodesRead node later).1
  have noMore : inodes.filter (fun node => decide (IsDirent node)) = [] := by
    rw [List.filter_eq_nil_iff]
    intro node member
    simpa using (inodesRead node member).2
  rw [List.filter_append, directory, List.filter_cons_of_pos (by simpa using entry.2.1), noMore]
    at read
  exact read

/-! ## The entry that the log asks for -/

/-- Of two entries the newer has the higher version, of equal ones the later. -/
def newer (best : Option (List UInt8)) (node : List UInt8) : Option (List UInt8) :=
  match best with
  | none => some node
  | some held => if nodeVersion node < nodeVersion held then some held else some node

def IsNamed (dir node : List UInt8) : Prop := InRoot node ∧ direntName node = dir

instance (dir node : List UInt8) : Decidable (IsNamed dir node) :=
  inferInstanceAs (Decidable (_ ∧ _))

def latestNamed (dir : List UInt8) (log : List (List UInt8)) : Option (List UInt8) :=
  (log.filter fun node => decide (IsNamed dir node)).foldl newer none

/-- The inode of the directory; the name of the root is empty, and an entry without an
inode says that the directory was removed. -/
def directoryIno (dir : List UInt8) (log : List (List UInt8)) : Option UInt32 :=
  if dir = [] then some 1
  else ((latestNamed dir log).map inodeNumber).filter fun ino => decide (ino ≠ 0)

/-- The file is in the directory that the log has, or in one that is made. -/
def InDirectory (dir : List UInt8) (log made : List (List UInt8)) (entry : List UInt8) : Prop :=
  match directoryIno dir log with
  | some ino => made = [] ∧ direntParent entry = ino
  | none => ∃ directory, made = [directory] ∧ IsNamed dir directory ∧
      direntParent entry = inodeNumber directory

/-- A node with an inode number and a version. -/
def IsNumbered (node : List UInt8) : Prop := IsDirent node ∨ IsInode node

structure RightEntry (dir name : List UInt8) (log made : List (List UInt8)) (entry : List UInt8) :
    Prop where
  named : direntName entry = name
  inside : InDirectory dir log made entry
  newIno : ∀ node ∈ log, IsNumbered node → inodeNumber node < inodeNumber entry
  newVersion : ∀ node ∈ log, IsNumbered node → nodeVersion node < nodeVersion entry

/-- The call writes a right entry for the file, and no other but that of its directory. -/
def AddsEntry (board : Board) (readFails : Nat → Bool) (memory : FlashMemory) (dev : Nat)
    (file : SourceFile) (dir : List UInt8) (log : List (List UInt8)) : Prop :=
  ∃ mtdofs blocks made entry,
    planAppend board readFails memory dev file dir = .write mtdofs blocks ∧
      EntriesOf blocks (made ++ [entry]) ∧ RightEntry dir file.name log made entry

/-- What the scan makes of the log. -/
def scanned (dir : List UInt8) (log : List (List UInt8)) : ScanState :=
  log.foldl (noteNode dir) (scanStart dir)

theorem addsEntry_rightEntry {board : Board} {readFails : Nat → Bool} {memory : FlashMemory}
    {dev : Nat} {log : List (List (List UInt8))} {last : List UInt8}
    (aligned : 4 ∣ (board.chip dev).erasesize) (large : 4096 ≤ (board.chip dev).erasesize)
    (dirShort : dir.length ≤ 255) (dirText : (0 : UInt8) ∉ dir) (short : file.name.length ≤ 255)
    (text : (0 : UInt8) ∉ file.name) (exists' : file.stat = some st)
    (holds : LogHolds (board.chip dev).erasesize (readBlock (board.chip dev) readFails memory dev)
      log last) :
    AddsEntry board readFails memory dev file dir log.flatten ↔
      RightEntry dir file.name log.flatten (madeDirectory dir (scanned dir log.flatten))
        (fileDirent dir file.name (scanned dir log.flatten)) := by
  have small : (board.chip dev).erasesize < 2 ^ 31 :=
    lt_of_le_of_lt (Nat.le_of_dvd (board.chip dev).nonempty (board.chip dev).aligned)
      (board.chip dev).small
  have enough : log.length < (board.chip dev).blocks + 1 + 0 := by
    have behind := holds.behind
    rw [readBlock] at behind
    split at behind
    · cases behind
    · rename_i inside
      rw [not_or, Nat.not_lt, ← Nat.succ_mul, Chip.size_eq] at inside
      have fewer := Nat.le_of_mul_le_mul_right inside.1 (board.chip dev).erasesize_pos
      omega
  have found := @findLogEnd_holds dir _ (scanStart dir) _ 0 _ _ _ small holds (Nat.zero_le _) enough
  rw [Nat.zero_mul, List.drop_zero] at found
  obtain ⟨blocks, appended, entries⟩ := @appendBlocks_entries _ dir file st
    (fun index => last.getD index (board.heap index)) (scanned dir log.flatten) aligned large small
    dirShort dirText short text exists'
  have planned : planAppend board readFails memory dev file dir =
      .write (log.length * (board.chip dev).erasesize) blocks := by
    rw [planAppend]
    simp only [found]
    rw [show log.flatten.foldl (noteNode dir) (scanStart dir) = scanned dir log.flatten from rfl,
      appended]
  constructor
  · intro adds
    obtain ⟨mtdofs, blocks', made, entry, planned', entries', right⟩ := adds
    rw [planned, Plan.write.injEq] at planned'
    obtain ⟨-, rfl⟩ := planned'
    obtain ⟨madeEq, entryEq⟩ := List.append_inj' (entries'.unique entries) rfl
    rw [← madeEq, ← List.head_eq_of_cons_eq entryEq]
    exact right
  · exact fun right => ⟨_, blocks, _, _, planned, entries, right⟩

/-! ## When it is that entry -/

/-- Numbers that start at `floor` and go up by `step` from the highest one of the dirents
stay 32 bits wide and come out above those of the inode nodes. -/
def RoomAbove (number : List UInt8 → UInt32) (floor step : Nat) (log : List (List UInt8)) : Prop :=
  (∀ node ∈ log, IsDirent node → (number node).toNat + step < 2 ^ 32) ∧
    ∀ node ∈ log, IsInode node → (number node).toNat < floor + step ∨
      ∃ entry ∈ log, IsDirent entry ∧ (number node).toNat < (number entry).toNat + step

/-- The directory is not there, and nothing that the scan takes for it either. -/
def NoDirectory (dir : List UInt8) (log : List (List UInt8)) : Prop :=
  directoryIno dir log = none ∧ (takenIno dir log).getD 0 = 0

/-- In the root nothing is numbered yet; below it the directory is new and the numbers
have room. -/
def EntryCondition (dir : List UInt8) (log : List (List UInt8)) : Prop :=
  if dir = [] then ∀ node ∈ log, ¬ IsNumbered node
  else NoDirectory dir log ∧ RoomAbove nodeVersion 0 1 log ∧ RoomAbove inodeNumber 1 3 log

/-- The highest number of the dirents, or zero. -/
def IsTop (number : List UInt8 → UInt32) (log : List (List UInt8)) (top : UInt32) : Prop :=
  ∀ bound, top < bound ↔ 0 < bound ∧ ∀ node ∈ log, IsDirent node → number node < bound

variable {number : List UInt8 → UInt32} {log : List (List UInt8)} {top next : UInt32}
  {floor step : Nat}

theorem IsTop.upper (isTop : IsTop number log top) (member : node ∈ log) (dirent : IsDirent node) :
    (number node).toNat ≤ top.toNat := by
  by_contra above
  have larger : top < number node := by
    rw [UInt32.lt_iff_toNat_lt]
    omega
  have itself := ((isTop (number node)).mp larger).2 node member dirent
  rw [UInt32.lt_iff_toNat_lt] at itself
  omega

theorem IsTop.attained (isTop : IsTop number log top) :
    top.toNat = 0 ∨ ∃ node ∈ log, IsDirent node ∧ number node = top := by
  by_contra neither
  obtain ⟨positive, missed⟩ := not_or.mp neither
  have itself : top < top := by
    apply (isTop top).mpr
    constructor
    · rw [UInt32.lt_iff_toNat_lt]
      exact Nat.pos_of_ne_zero positive
    · intro node member dirent
      have below := isTop.upper member dirent
      have different : (number node).toNat ≠ top.toNat := fun same =>
        missed ⟨node, member, dirent, UInt32.toNat_inj.mp same⟩
      rw [UInt32.lt_iff_toNat_lt]
      omega
  rw [UInt32.lt_iff_toNat_lt] at itself
  omega

theorem all_below_iff (isTop : IsTop number log top) (positive : 0 < step)
    (low : floor + step < 2 ^ 32) (nextEq : next.toNat = (max top.toNat floor + step) % 2 ^ 32) :
    (∀ node ∈ log, IsNumbered node → number node < next) ↔ RoomAbove number floor step log := by
  have topBound := top.toNat_lt
  constructor
  · intro below
    have noWrap : max top.toNat floor + step < 2 ^ 32 := by
      by_contra wraps
      rcases isTop.attained with zero | ⟨node, member, dirent, same⟩
      · omega
      · have less := below node member (.inl dirent)
        rw [UInt32.lt_iff_toNat_lt, same, nextEq] at less
        omega
    rw [Nat.mod_eq_of_lt noWrap] at nextEq
    constructor
    · intro node member dirent
      have upper := isTop.upper member dirent
      omega
    · intro node member inode
      have less := below node member (.inr inode)
      rw [UInt32.lt_iff_toNat_lt, nextEq] at less
      rcases Nat.lt_or_ge (number node).toNat (floor + step) with small | large
      · exact .inl small
      · rcases isTop.attained with zero | ⟨entry, entryMember, dirent, same⟩
        · omega
        · exact .inr ⟨entry, entryMember, dirent, by rw [same]; omega⟩
  · intro room node member numbered
    obtain ⟨dirents, inodes⟩ := room
    have noWrap : max top.toNat floor + step < 2 ^ 32 := by
      rcases isTop.attained with zero | ⟨entry, entryMember, dirent, same⟩
      · omega
      · have fits := dirents entry entryMember dirent
        rw [same] at fits
        omega
    rw [Nat.mod_eq_of_lt noWrap] at nextEq
    rw [UInt32.lt_iff_toNat_lt, nextEq]
    rcases numbered with dirent | inode
    · have upper := isTop.upper member dirent
      omega
    · rcases inodes node member inode with small | ⟨entry, entryMember, dirent, less⟩
      · omega
      · have upper := isTop.upper entryMember dirent
        omega

theorem scanned_lastIno : IsTop inodeNumber log (scanned dir log).lastIno :=
  fun bound => noteNode_lastIno bound

theorem scanned_lastVersion : IsTop nodeVersion log (scanned dir log).lastVersion :=
  fun bound => noteNode_lastVersion bound

/-- No entry with the version of the last one is newer than it. -/
theorem none_below_top (isTop : IsTop number log top)
    (below : ∀ node ∈ log, IsNumbered node → number node < top) :
    ∀ node ∈ log, ¬ IsNumbered node := by
  intro node member numbered
  have less := below node member numbered
  rw [UInt32.lt_iff_toNat_lt] at less
  rcases isTop.attained with zero | ⟨entry, entryMember, dirent, same⟩
  · omega
  · have itself := below entry entryMember (.inl dirent)
    rw [same, UInt32.lt_iff_toNat_lt] at itself
    omega

theorem takenIno_root : takenIno [] log = none := by
  have nothing : log.filter (fun node => decide (IsTaken [] node)) = [] := by
    rw [List.filter_eq_nil_iff]
    intro node _
    simp [IsTaken]
  rw [takenIno, nothing]
  rfl

theorem scanned_targetIno : (scanned dir log).targetIno =
    (takenIno dir log).getD (if dir = [] then 1 else 0) := noteNode_targetIno

/-- A directory that the scan took is in the log. -/
theorem takenIno_mem {ino : UInt32} (taken : takenIno dir log = some ino) :
    ∃ node ∈ log, IsDirent node := by
  rw [takenIno, Option.map_eq_some_iff] at taken
  obtain ⟨node, lastOne, -⟩ := taken
  obtain ⟨member, isTaken⟩ := List.mem_filter.mp (List.mem_of_getLast? lastOne)
  exact ⟨node, member, (of_decide_eq_true isTaken).2.1.1⟩

theorem fileDirent_read {found : ScanState} (short : name.length ≤ 255)
    (text : (0 : UInt8) ∉ name) :
    direntName (fileDirent dir name found) = name ∧
      direntParent (fileDirent dir name found) = (placeOf dir found).parent ∧
      nodeVersion (fileDirent dir name found) = (placeOf dir found).lastVersion ∧
      inodeNumber (fileDirent dir name found) = (placeOf dir found).lastIno + 1 := by
  obtain ⟨-, -, parent, version, ino, named⟩ := @rawDirent_read name (placeOf dir found).parent
    (placeOf dir found).lastVersion ((placeOf dir found).lastIno + 1) 8 short text
  exact ⟨named, parent, version, ino⟩

/-- An entry in a directory that is there is no newer than the last one of the log. -/
theorem rightEntry_existing {found : ScanState} (versionTop : IsTop nodeVersion log found.lastVersion)
    (short : name.length ≤ 255) (text : (0 : UInt8) ∉ name) (existing : found.targetIno ≠ 0)
    (right : RightEntry dir name log (madeDirectory dir found) (fileDirent dir name found)) :
    ∀ node ∈ log, ¬ IsNumbered node := by
  apply none_below_top versionTop
  intro node member numbered
  have less := right.newVersion node member numbered
  rw [(fileDirent_read short text).2.2.1, placeOf, if_neg existing] at less
  exact less

theorem rightEntry_new {found : ScanState} (inoTop : IsTop inodeNumber log found.lastIno)
    (versionTop : IsTop nodeVersion log found.lastVersion) (dirShort : dir.length ≤ 255)
    (dirText : (0 : UInt8) ∉ dir) (short : name.length ≤ 255) (text : (0 : UInt8) ∉ name)
    (missing : found.targetIno = 0) :
    RightEntry dir name log (madeDirectory dir found) (fileDirent dir name found) ↔
      directoryIno dir log = none ∧ RoomAbove nodeVersion 0 1 log ∧
        RoomAbove inodeNumber 1 3 log := by
  obtain ⟨named, parent, version, ino⟩ := @fileDirent_read dir name found short text
  rw [placeOf, if_pos missing] at parent version ino
  dsimp only at parent version ino
  generalize fileDirent dir name found = entry at *
  have one : (1 : UInt32).toNat = 1 := rfl
  have nextVersion : (found.lastVersion + 1).toNat = (max found.lastVersion.toNat 0 + 1) % 2 ^ 32 := by
    rw [UInt32.toNat_add, one, Nat.max_zero]
  have nextIno : ((if found.lastIno = 0 then (1 : UInt32) else found.lastIno) + 1 + 1 + 1).toNat =
      (max found.lastIno.toNat 1 + 3) % 2 ^ 32 := by
    simp only [UInt32.toNat_add, one]
    split
    · rename_i zero
      rw [zero]
      rfl
    · rename_i some'
      have positive : found.lastIno.toNat ≠ 0 := fun zero => some' (UInt32.toNat_inj.mp zero)
      omega
  have versions := all_below_iff versionTop Nat.one_pos (by decide) nextVersion
  have inos := all_below_iff inoTop (by decide : 0 < 3) (by decide) nextIno
  obtain ⟨-, madeDirent, madeParent, -, madeIno, madeName⟩ := @rawDirent_read dir 1 found.lastVersion
    ((if found.lastIno = 0 then (1 : UInt32) else found.lastIno) + 1) DT_DIR dirShort dirText
  rw [madeDirectory, if_pos missing]
  constructor
  · intro right
    refine ⟨?_, versions.mp fun node member numbered => ?_, inos.mp fun node member numbered => ?_⟩
    · cases there : directoryIno dir log with
      | none => rfl
      | some found =>
          have inside := right.inside
          rw [InDirectory, there] at inside
          cases inside.1
    · have less := right.newVersion node member numbered
      rwa [version] at less
    · have less := right.newIno node member numbered
      rwa [ino] at less
  · intro condition
    obtain ⟨gone, versionRoom, inoRoom⟩ := condition
    refine ⟨named, ?_, ?_, ?_⟩
    · rw [InDirectory, gone]
      exact ⟨_, rfl, ⟨⟨madeDirent, madeParent⟩, madeName⟩, by rw [parent, madeIno]⟩
    · rw [ino]
      exact inos.mpr inoRoom
    · rw [version]
      exact versions.mpr versionRoom

theorem rightEntry_iff (dirShort : dir.length ≤ 255) (dirText : (0 : UInt8) ∉ dir)
    (short : name.length ≤ 255) (text : (0 : UInt8) ∉ name) :
    RightEntry dir name log (madeDirectory dir (scanned dir log))
        (fileDirent dir name (scanned dir log)) ↔ EntryCondition dir log := by
  have target := @scanned_targetIno dir log
  by_cases root : dir = []
  · subst root
    rw [takenIno_root, Option.getD_none, if_pos rfl] at target
    have existing : (scanned [] log).targetIno ≠ 0 := by
      rw [target]
      decide
    rw [EntryCondition, if_pos rfl]
    constructor
    · exact rightEntry_existing scanned_lastVersion short text existing
    · intro nothing
      obtain ⟨named, parent, -, -⟩ := @fileDirent_read [] name (scanned [] log) short text
      refine ⟨named, ?_, fun node member numbered => absurd numbered (nothing node member),
        fun node member numbered => absurd numbered (nothing node member)⟩
      rw [InDirectory, directoryIno, if_pos rfl]
      refine ⟨if_neg existing, ?_⟩
      rw [parent, placeOf, if_neg existing]
      exact target
  · rw [if_neg root] at target
    rw [EntryCondition, if_neg root, NoDirectory]
    by_cases missing : (scanned dir log).targetIno = 0
    · rw [rightEntry_new scanned_lastIno scanned_lastVersion dirShort dirText short text missing,
        ← target, missing]
      simp only [and_true]
    · rw [← target]
      constructor
      · intro right
        have nothing := rightEntry_existing scanned_lastVersion short text missing right
        cases taken : takenIno dir log with
        | none =>
            rw [taken, Option.getD_none] at target
            exact absurd target missing
        | some ino =>
            obtain ⟨node, member, dirent⟩ := takenIno_mem taken
            exact absurd (.inl dirent) (nothing node member)
      · intro condition
        exact absurd condition.1.2 missing

/-- The parent, the inode number and the version that an appended file gets are right
exactly in a directory that is made, above numbers that leave room; and in the root of a
log without entries. -/
theorem mtdWriteJffs2_entry_iff {board : Board} {readFails : Nat → Bool} {memory : FlashMemory}
    {dev : Nat} {log : List (List (List UInt8))} {last : List UInt8}
    (aligned : 4 ∣ (board.chip dev).erasesize) (large : 4096 ≤ (board.chip dev).erasesize)
    (dirShort : dir.length ≤ 255) (dirText : (0 : UInt8) ∉ dir) (short : file.name.length ≤ 255)
    (text : (0 : UInt8) ∉ file.name) (exists' : file.stat = some st)
    (holds : LogHolds (board.chip dev).erasesize (readBlock (board.chip dev) readFails memory dev)
      log last) :
    AddsEntry board readFails memory dev file dir log.flatten ↔ EntryCondition dir log.flatten :=
  (addsEntry_rightEntry aligned large dirShort dirText short text exists' holds).trans
    (rightEntry_iff dirShort dirText short text)

/-! ## A partition with two directories -/

/-- A NOR chip of two blocks. -/
def norChip : Chip where
  size := 8192
  erasesize := 4096
  nand := false
  bad := fun _ => false
  eraseFails := fun _ => false
  writeFails := fun _ => false
  wide := by decide
  aligned := Dvd.intro 2 rfl
  nonempty := by decide
  small := by decide

def norBoard : Board where
  chip := fun _ => norChip
  opens := fun _ => true
  heap := fun _ => 0

/-- The name of the first is "etc", that of the second "et". -/
def twoDirectories : List (List UInt8) :=
  [rawDirent [0x65, 0x74, 0x63] DT_DIR 1 1 2, rawDirent [0x65, 0x74] DT_DIR 1 2 3]

def twoMemory : FlashMemory := fun _ offset =>
  (eraseblock 4096 twoDirectories).getD offset 0xff

theorem twoDirectories_fit : (blockBytes twoDirectories).length ≤ 4096 := by
  simp only [blockBytes, twoDirectories, List.flatMap_cons, List.flatMap_nil, List.length_append,
    padNode, rawDirent_length, List.length_replicate]
  decide

theorem twoDirectories_valid : ∀ node ∈ twoDirectories, ValidNode node := by
  intro node member
  rcases List.mem_cons.mp member with rfl | later
  · exact (rawDirent_read (by decide) (by decide)).1
  · rw [List.mem_singleton.mp later]
    exact (rawDirent_read (by decide) (by decide)).1

theorem twoDirectories_hold : LogHolds (norBoard.chip 0).erasesize
    (readBlock (norBoard.chip 0) (fun _ => false) twoMemory 0) [CLEANMARKER :: twoDirectories]
    (List.replicate 4096 0xff) := by
  have length : (eraseblock 4096 twoDirectories).length = 4096 := padBlock_length twoDirectories_fit
  have firstBlock : readBytes twoMemory 0 0 4096 = eraseblock 4096 twoDirectories := by
    refine List.ext_getElem (by rw [readBytes_length, length]) fun index below inBlock => ?_
    simp [readBytes, twoMemory, inBlock]
  have lastBlock : readBytes twoMemory 0 4096 4096 = List.replicate 4096 0xff := by
    refine List.ext_getElem (by rw [readBytes_length, List.length_replicate]) fun index below _ => ?_
    simp only [readBytes, List.getElem_map, List.getElem_range, List.getElem_replicate, twoMemory]
    rw [List.getD_eq_default _ _ (by omega)]
  have holds := eraseblock_holds (Dvd.intro 1024 rfl) twoDirectories_fit twoDirectories_valid
  refine ⟨?_, ?_, ?_, ?_⟩
  · intro index below
    obtain rfl : index = 0 := by simpa using below
    refine ⟨eraseblock 4096 twoDirectories, ?_, length, ?_, holds⟩
    · rw [Nat.zero_mul, readBlock, if_neg (by decide)]
      exact congrArg some firstBlock
    · rw [halfAt, if_pos (by omega)]
      rfl
  · rw [readBlock, if_neg (by decide)]
    exact congrArg some lastBlock
  · decide +kernel
  · decide +kernel

theorem mtdWriteJffs2_entry_two :
    AddsEntry norBoard (fun _ => false) twoMemory 0 sampleFile [0x65, 0x74, 0x63]
        [CLEANMARKER :: twoDirectories].flatten ↔
      EntryCondition [0x65, 0x74, 0x63] [CLEANMARKER :: twoDirectories].flatten :=
  mtdWriteJffs2_entry_iff (Dvd.intro 1024 rfl) (Nat.le_refl 4096) (by decide) (by decide)
    (by decide) (by decide) rfl twoDirectories_hold

/-- A file for the first goes into the second. -/
theorem mtdWriteJffs2_other_directory :
    LogHolds (norBoard.chip 0).erasesize
        (readBlock (norBoard.chip 0) (fun _ => false) twoMemory 0) [CLEANMARKER :: twoDirectories]
        (List.replicate 4096 0xff) ∧
      directoryIno [0x65, 0x74, 0x63] [CLEANMARKER :: twoDirectories].flatten = some 2 ∧
      ¬ AddsEntry norBoard (fun _ => false) twoMemory 0 sampleFile [0x65, 0x74, 0x63]
        [CLEANMARKER :: twoDirectories].flatten := by
  have wanted : directoryIno [0x65, 0x74, 0x63] [CLEANMARKER :: twoDirectories].flatten = some 2 := by
    rfl
  have taken : (scanned [0x65, 0x74, 0x63] [CLEANMARKER :: twoDirectories].flatten).targetIno = 3 := by
    rfl
  refine ⟨twoDirectories_hold, wanted, fun adds => ?_⟩
  have right := (@addsEntry_rightEntry _ sampleFile _ norBoard _ twoMemory 0 _ _ (Dvd.intro 1024 rfl)
    (Nat.le_refl 4096) (by decide) (by decide) (by decide) (by decide) rfl
    twoDirectories_hold).mp adds
  have inside := right.inside
  rw [InDirectory, wanted] at inside
  have parent := inside.2
  have existing : (scanned [0x65, 0x74, 0x63] [CLEANMARKER :: twoDirectories].flatten).targetIno ≠ 0 := by
    rw [taken]
    decide
  rw [(@fileDirent_read _ sampleFile.name _ (by decide) (by decide)).2.1, placeOf, if_neg existing,
    taken] at parent
  exact absurd parent (by decide)

end Rut9xx.Mtd.Append
