import Rut9xx.Mtd.Jffs2Scan
import Rut9xx.Mtd.Jffs2Stream
import Rut9xx.Mtd.Write

namespace Rut9xx.Mtd.Append

open Rut9xx.Data

/-! # Appending a file to a jffs2 partition (`mtd_write_jffs2`)

The generator's state is that of `add_file`; the TRX fix-up is not built for
the big-endian targets.
-/

section

def KSAMTIB_CIGAM_2SFFJ : UInt16 := 0x8519

/-- `IFTODT(S_IFDIR)`. -/
def DT_DIR : UInt8 := 4

/-- What `add_dir` says of a new directory: `S_IFDIR | 0755`. -/
def dirStat : Stat := ⟨0o040755, 0, 0, 0, 0⟩

section

variable (erasesize : Nat)

def addDir (state : Generator) (name : List UInt8) (parent : UInt32) :
    Option (Generator × UInt32) := do
  let (state, inode) ← addDirent erasesize state name DT_DIR parent
  let roomy := if rbytes erasesize state < sizeofRawInode then pad erasesize erasesize state else state
  let prepared ← prepEraseblock erasesize roomy
  let stored ← addData erasesize prepared (rawInode inode 1 dirStat 0 [])
  return (pad erasesize 4 stored, inode)

/-- Where the scan of the partition leads: to a read that fails, to a log of the
other byte order, into a block it does not come back from, or to the first block
without the magic, at `mtdofs` and still in the buffer. -/
inductive LogEnd where
  | fdeof
  | wrongEndian
  | stuck
  | found (mtdofs : Nat) (buf : List UInt8) (state : ScanState)

/-- The loop that parses block after block; `read` is `none` when less than a
block comes back.  A partition has fewer blocks than `fuel`. -/
def findLogEnd (read : Nat → Option (List UInt8)) (dir : List UInt8) :
    Nat → Nat → ScanState → LogEnd
  | 0, _, _ => .stuck
  | fuel + 1, mtdofs, state =>
      match read mtdofs with
      | none => .fdeof
      | some buf =>
          if halfAt buf 0 = some KSAMTIB_CIGAM_2SFFJ then .wrongEndian
          else if halfAt buf 0 = some JFFS2_MAGIC_BITMASK then
            match mtdParseJffs2data buf dir (buf.length + 1) 0 state with
            | .ended after => findLogEnd read dir fuel (mtdofs + erasesize) after
            | _ => .stuck
          else .found mtdofs buf state

/-- The variables when the scan begins. -/
def scanStart (dir : List UInt8) : ScanState := ⟨0, 0, if dir = [] then 1 else 0⟩

/-- The generator at the end of the log. -/
def appendStart (buf : Nat → UInt8) (found : ScanState) : Generator where
  lastIno := if found.lastIno = 0 then 1 else found.lastIno
  lastVersion := found.lastVersion
  buf := buf
  ofs := 0
  blocks := []

/-- The directory that was found, or a new one. -/
def placeFile (start : Generator) (targetIno : UInt32) (dir : List UInt8) :
    Option (Generator × UInt32) :=
  if targetIno = 0 then addDir erasesize start dir 1 else some (start, targetIno)

/-- The blocks that go to flash for `file`. -/
def appendBlocks (buf : Nat → UInt8) (found : ScanState) (dir : List UInt8) (file : SourceFile) :
    Option (List (List UInt8)) := do
  let (state, target) ← placeFile erasesize (appendStart buf found) found.targetIno dir
  let added ← addFile erasesize state file target
  let marked ← addData erasesize (pad erasesize erasesize added) JFFS2_EOF
  return (pad erasesize erasesize marked).blocks

end

/-- A `read` of a block: all of it, unless the device ends before or the call fails. -/
def readBlock (chip : Chip) (readFails : Nat → Bool) (memory : FlashMemory) (dev pos : Nat) :
    Option (List UInt8) :=
  if chip.size < pos + chip.erasesize ∨ readFails pos = true then none
  else some (readBytes memory dev pos chip.erasesize)

def idleImage : Image := ⟨[], [], false⟩

/-- The device calls of the flush need the device, its position and its geometry. -/
def appendWriter (board : Board) (dev pos : Nat) : Writer where
  globals := ⟨(board.chip dev).size, (board.chip dev).erasesize, (board.chip dev).nand⟩
  capacity := (board.chip dev).erasesize
  dev := dev
  pos := pos
  next := []
  image := idleImage
  buf := []
  w := 0
  e := 0
  skip := 0
  skipBadBlocks := 0
  offset := 0
  jffs2file := none
  jffs2Replaced := false
  lastIno := 0
  lastVersion := 0
  log := []

/-- What `mtd_write_jffs2` comes to before the first block goes out. -/
inductive Plan where
  | refused
  | stuck
  | write (mtdofs : Nat) (blocks : List (List UInt8))

def planAppend (board : Board) (readFails : Nat → Bool) (memory : FlashMemory) (dev : Nat)
    (file : SourceFile) (dir : List UInt8) : Plan :=
  let erasesize := (board.chip dev).erasesize
  match findLogEnd erasesize (readBlock (board.chip dev) readFails memory dev) dir
      ((board.chip dev).blocks + 1) 0 (scanStart dir) with
  | .fdeof => .refused
  | .wrongEndian => .refused
  | .stuck => .stuck
  | .found mtdofs buf found =>
      match appendBlocks erasesize (fun index => buf.getD index (board.heap index)) found dir file with
      | none => .stuck
      | some blocks => .write mtdofs blocks

/-- `mtd_write_jffs2`: the return value and the flash operations. -/
def mtdWriteJffs2 (board : Board) (readFails : Nat → Bool) (malloc : Bool) (memory : FlashMemory)
    (dev : Nat) (file : SourceFile) (dir : List UInt8) : Except Halt (Int × List FlashEvent) :=
  match mtdCheckOpen board dev with
  | none => .ok (-1, [])
  | some _ =>
      if !malloc then .ok (-1, [])
      else
        match planAppend board readFails memory dev file dir with
        | .refused => .ok (-1, [])
        | .stuck => .error (.stuck [])
        | .write mtdofs blocks => do
            let (_, writer) ← flushBlocks board mtdofs (appendWriter board dev mtdofs) blocks
            return (0, writer.log)

end

/-! # The entries of an appended file -/

section

variable {erasesize : Nat} {state : Generator} {dir : List UInt8} {file : SourceFile} {st : Stat}
  {cur : List (List UInt8)} {full : List (List (List UInt8))} {parent : UInt32}
  {found : ScanState} {buf : Nat → UInt8}

/-- The nodes of a directory that is made. -/
def directoryNodes (dir : List UInt8) (ino version : UInt32) : List (List UInt8) :=
  [rawDirent dir DT_DIR 1 version ino, rawInode ino 1 dirStat 0 []]

/-- In an empty buffer. -/
theorem addDir_laid (aligned : 4 ∣ erasesize) (large : 4096 ≤ erasesize)
    (small : erasesize < 2 ^ 31) (short : dir.length ≤ 255) (empty : state.ofs = 0)
    (fresh : state.blocks = []) :
    ∃ next, addDir erasesize state dir 1 = some (next, state.lastIno + 1) ∧
      Laid erasesize next [] (directoryNodes dir (state.lastIno + 1) state.lastVersion) ∧
      next.lastIno = state.lastIno + 1 + 1 ∧ next.lastVersion = state.lastVersion + 1 := by
  have noBlocks : state.blocks = ([] : List (List (List UInt8))).map (eraseblock erasesize) := fresh
  obtain ⟨prepared, prep, laid, counters⟩ :=
    prepEraseblock_laid (by omega : 12 < erasesize) empty noBlocks fun nodes member => by cases member
  have started : prepared.ofs = 12 := laid.ofs_eq
  obtain ⟨opened, added, laid', ino, version⟩ :=
    @addDirent_behind erasesize prepared dir [] [] 1 DT_DIR aligned small short laid (by omega)
  rw [counters.1, counters.2] at laid'
  rw [← addDirent_prepared small (by omega) short empty prep laid, counters.1] at added
  have openedOfs : opened.ofs ≤ 12 + (40 + dir.length + 3) := by
    have bound := (padNode_length (rawDirent dir DT_DIR 1 state.lastVersion (state.lastIno + 1))).2.2
    have marker : CLEANMARKER.length = 12 := rfl
    rw [rawDirent_length] at bound
    rw [laid'.ofs_eq, blockBytes, List.nil_append, List.flatMap_singleton, List.length_append, marker]
    omega
  have space := rbytes_laid laid'
  have roomy : ¬ rbytes erasesize opened < sizeofRawInode := by
    rw [sizeofRawInode]
    omega
  have header : (rawInode (state.lastIno + 1) 1 dirStat 0 []).length = 68 := rawInode_length
  refine ⟨pad erasesize 4 (copy opened (rawInode (state.lastIno + 1) 1 dirStat 0 [])), ?_, ?_,
    by rw [pad_counters.1, ← counters.1]; exact ino, by rw [pad_counters.2, ← counters.2]; exact version⟩
  · simp only [addDir, added, Option.bind_eq_bind, Option.bind_some, if_neg roomy, laid'.prep,
      Option.pure_def]
    rw [addData_fits (by omega)]
    rfl
  · exact node_behind aligned laid' copy_filled rfl (by omega)

/-- The state that a file goes into: nothing so far, or the nodes of a directory. -/
def Placed (erasesize : Nat) (state : Generator) (cur : List (List UInt8)) : Prop :=
  state.ofs = 0 ∧ state.blocks = [] ∧ cur = [] ∨ Laid erasesize state [] cur

theorem Placed.closeBlock (placed : Placed erasesize state cur) (positive : 0 < erasesize) :
    ∃ groups : List (List (List UInt8)), (pad erasesize erasesize state).ofs = 0 ∧
      (pad erasesize erasesize state).blocks = groups.map (eraseblock erasesize) ∧
      (∀ nodes ∈ groups, (blockBytes nodes).length ≤ erasesize) ∧ groups.flatten = cur := by
  rcases placed with ⟨empty, fresh, rfl⟩ | laid
  · refine ⟨[], ?_, ?_, (fun nodes member => by cases member), rfl⟩
    · rw [pad_empty empty positive, empty]
    · rw [pad_empty empty positive, fresh]
      rfl
  · obtain ⟨empty, out, fits⟩ := laid.closeBlock
    exact ⟨[] ++ [cur], empty, out, fits, by simp⟩

theorem addFile_entry (aligned : 4 ∣ erasesize) (large : 4096 ≤ erasesize)
    (small : erasesize < 2 ^ 31) (short : file.name.length ≤ 255) (exists' : file.stat = some st)
    (placed : Placed erasesize state cur) (roomy : (blockBytes cur).length ≤ 400) :
    ∃ next full' cur' inodes, addFile erasesize state file parent = some next ∧
      Laid erasesize next full' cur' ∧
      (full' ++ [cur']).flatten =
        cur ++ rawDirent file.name 8 parent state.lastVersion (state.lastIno + 1) :: inodes ∧
      FileNodes (state.lastIno + 1) st 0 (state.lastVersion + 1) inodes
        (if file.opens then file.content else []) := by
  have entry : ∃ opened,
      addDirent erasesize state file.name 8 parent = some (opened, state.lastIno + 1) ∧
      Laid erasesize opened []
        (cur ++ [rawDirent file.name 8 parent state.lastVersion (state.lastIno + 1)]) ∧
      opened.lastVersion = state.lastVersion + 1 := by
    rcases placed with ⟨empty, fresh, rfl⟩ | laid
    · have noBlocks : state.blocks = ([] : List (List (List UInt8))).map (eraseblock erasesize) := fresh
      obtain ⟨prepared, prep, laid, counters⟩ := prepEraseblock_laid (by omega : 12 < erasesize)
        empty noBlocks fun nodes member => by cases member
      have started : prepared.ofs = 12 := laid.ofs_eq
      obtain ⟨opened, added, laid', -, version⟩ :=
        @addDirent_behind erasesize prepared file.name [] [] parent 8 aligned small short laid
          (by omega)
      rw [← addDirent_prepared small (by omega) short empty prep laid, counters.1] at added
      rw [counters.1, counters.2] at laid'
      exact ⟨opened, added, laid', by rw [version, counters.2]⟩
    · have ofsEq := laid.ofs_eq
      obtain ⟨opened, added, laid', -, version⟩ :=
        @addDirent_behind erasesize state file.name cur [] parent 8 aligned small short laid (by omega)
      exact ⟨opened, added, laid', version⟩
  obtain ⟨opened, added, laid, version⟩ := entry
  cases opens : file.opens with
  | false =>
      refine ⟨opened, [], _, [], ?_, laid, by simp, .done⟩
      simp [addFile, exists', added, opens]
  | true =>
      obtain ⟨next, full', cur', inodes, looped, laid', flat, made⟩ :=
        addFileLoop_nodes (state.lastIno + 1) 0 st file.chunks aligned (by omega) laid
          (Nat.lt_succ_self file.content.length)
      rw [version] at made
      refine ⟨next, full', cur', inodes, ?_, laid', ?_, made⟩
      · simp only [addFile, exists', added, opens, if_true, Option.bind_eq_bind, Option.bind_some]
        exact looped
      · rw [flat]
        simp

/-! ## All that goes out -/

/-- The blocks are made of these nodes and of an end mark. -/
def MadeOf (erasesize : Nat) (blocks nodes : List (List UInt8)) : Prop :=
  ∃ groups : List (List (List UInt8)),
    blocks = groups.map (eraseblock erasesize) ++ [padBlock erasesize JFFS2_EOF] ∧
      (∀ nodes ∈ groups, (blockBytes nodes).length ≤ erasesize) ∧ groups.flatten = nodes

/-- Where a file goes: into the directory with this inode number, with these nodes in front
of it and these counters. -/
structure Place where
  directory : List (List UInt8)
  parent : UInt32
  lastIno : UInt32
  lastVersion : UInt32

def placeOf (dir : List UInt8) (found : ScanState) : Place :=
  let lastIno := if found.lastIno = 0 then 1 else found.lastIno
  if found.targetIno = 0 then
    ⟨directoryNodes dir (lastIno + 1) found.lastVersion, lastIno + 1, lastIno + 1 + 1,
      found.lastVersion + 1⟩
  else ⟨[], found.targetIno, lastIno, found.lastVersion⟩

theorem placeFile_placed (aligned : 4 ∣ erasesize) (large : 4096 ≤ erasesize)
    (small : erasesize < 2 ^ 31) (short : dir.length ≤ 255) :
    ∃ next, placeFile erasesize (appendStart buf found) found.targetIno dir =
        some (next, (placeOf dir found).parent) ∧
      Placed erasesize next (placeOf dir found).directory ∧
      (blockBytes (placeOf dir found).directory).length ≤ 400 ∧
      next.lastIno = (placeOf dir found).lastIno ∧
      next.lastVersion = (placeOf dir found).lastVersion := by
  by_cases missing : found.targetIno = 0
  · obtain ⟨next, added, laid, ino, version⟩ := @addDir_laid erasesize (appendStart buf found) dir
      aligned large small short rfl rfl
    rw [placeFile, if_pos missing, added, placeOf, if_pos missing]
    refine ⟨next, rfl, .inr laid, ?_, ino, version⟩
    have marker : CLEANMARKER.length = 12 := rfl
    have entry := (padNode_length (rawDirent dir DT_DIR 1 found.lastVersion
      ((appendStart buf found).lastIno + 1))).2.2
    have inode := (padNode_length (rawInode ((appendStart buf found).lastIno + 1) 1 dirStat 0 [])).2.2
    rw [rawDirent_length] at entry
    rw [rawInode_length] at inode
    simp only [appendStart] at entry inode
    simp only [directoryNodes, blockBytes, List.flatMap_cons, List.flatMap_nil, List.length_append,
      List.length_nil, marker]
    omega
  · rw [placeFile, if_neg missing, placeOf, if_neg missing]
    have marker : (blockBytes []).length ≤ 400 := by decide
    exact ⟨appendStart buf found, rfl, .inl ⟨rfl, rfl, rfl⟩, marker, rfl, rfl⟩

/-- With a file that is there: its directory if need be, its entry, and what could be read. -/
theorem appendBlocks_entry (aligned : 4 ∣ erasesize) (large : 4096 ≤ erasesize)
    (small : erasesize < 2 ^ 31) (dirShort : dir.length ≤ 255) (short : file.name.length ≤ 255)
    (exists' : file.stat = some st) :
    ∃ blocks inodes, appendBlocks erasesize buf found dir file = some blocks ∧
      MadeOf erasesize blocks ((placeOf dir found).directory ++
        rawDirent file.name 8 (placeOf dir found).parent (placeOf dir found).lastVersion
          ((placeOf dir found).lastIno + 1) :: inodes) ∧
      FileNodes ((placeOf dir found).lastIno + 1) st 0 ((placeOf dir found).lastVersion + 1) inodes
        (if file.opens then file.content else []) := by
  obtain ⟨state, placed, laid, roomy, ino, version⟩ :=
    @placeFile_placed erasesize dir found buf aligned large small dirShort
  obtain ⟨added, full, cur, inodes, addedEq, laid', flat, made⟩ :=
    @addFile_entry erasesize state file st _ (placeOf dir found).parent aligned large small short
      exists' laid roomy
  obtain ⟨empty, out, fits⟩ := laid'.closeBlock
  obtain ⟨marked, closed, final⟩ := markEnd (by omega) empty
  rw [ino, version] at flat made
  refine ⟨(pad erasesize erasesize marked).blocks, inodes, ?_, ⟨full ++ [cur], ?_, fits, flat⟩, made⟩
  · simp only [appendBlocks, placed, addedEq, closed, Option.bind_eq_bind, Option.bind_some,
      Option.pure_def]
  · rw [final, out]

/-- Without a file at most the directory goes out. -/
theorem appendBlocks_missing (aligned : 4 ∣ erasesize) (large : 4096 ≤ erasesize)
    (small : erasesize < 2 ^ 31) (dirShort : dir.length ≤ 255) (missing : file.stat = none) :
    ∃ blocks, appendBlocks erasesize buf found dir file = some blocks ∧
      MadeOf erasesize blocks (placeOf dir found).directory := by
  obtain ⟨state, placed, laid, -, -, -⟩ :=
    @placeFile_placed erasesize dir found buf aligned large small dirShort
  obtain ⟨groups, empty, out, fits, flat⟩ := laid.closeBlock (by omega)
  obtain ⟨marked, closed, final⟩ := markEnd (by omega) empty
  refine ⟨(pad erasesize erasesize marked).blocks, ?_, groups, ?_, fits, flat⟩
  · simp only [appendBlocks, placed, addFile, missing, closed, Option.bind_eq_bind,
      Option.bind_some, Option.pure_def]
  · rw [final, out]

end

end Rut9xx.Mtd.Append
