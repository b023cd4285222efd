import Rut9xx.Mtd.Jffs2Layout

namespace Rut9xx.Mtd

open Rut9xx.Data

/-! # The stream of blocks that `mtd_replace_jffs2` produces -/

variable {erasesize fuel : Nat} {state : Generator} {data node name content : List UInt8}
  {cur : List (List UInt8)} {full : List (List (List UInt8))} {file : SourceFile} {st : Stat}
  {heap : Nat → UInt8} {lastIno lastVersion parent : UInt32} {chunks : List Nat} {type : UInt8}

/-! ## What a sound node is -/

structure ValidDirent (node name : List UInt8) : Prop where
  length : node.length = 40 + name.length
  head : node.take 4 = be16 JFFS2_MAGIC_BITMASK ++ be16 JFFS2_NODETYPE_DIRENT
  totlen : (be32At node 4).toNat = node.length
  hdrCrc : be32At node 8 = crc32 0 (node.take 8)
  nodeCrc : be32At node 32 = crc32 0 (node.take 32)
  nameCrc : be32At node 36 = crc32 0 name
  name : node.drop 40 = name

structure ValidInode (node : List UInt8) (offset version : Nat) (data : List UInt8) : Prop where
  length : node.length = 68 + data.length
  head : node.take 4 = be16 JFFS2_MAGIC_BITMASK ++ be16 JFFS2_NODETYPE_INODE
  totlen : (be32At node 4).toNat = node.length
  hdrCrc : be32At node 8 = crc32 0 (node.take 8)
  version : (be32At node 16).toNat = version
  offset : (be32At node 44).toNat = offset
  dsize : (be32At node 52).toNat = data.length
  dataCrc : be32At node 60 = crc32 0 data
  nodeCrc : be32At node 64 = crc32 0 (node.take 60)
  data : node.drop 68 = data

/-- Inode nodes that cover the content from `offset` on without gaps, versions going up. -/
inductive Tiling : Nat → Nat → List (List UInt8) → List UInt8 → Prop where
  | done {offset version : Nat} : Tiling offset version [] []
  | node {offset version later : Nat} {node data content : List UInt8} {nodes : List (List UInt8)}
      (valid : ValidInode node offset version data) (some' : data ≠ []) (newer : version < later)
      (rest : Tiling (offset + data.length) later nodes content) :
      Tiling offset version (node :: nodes) (data ++ content)

/-- Every node of a block starts at a multiple of four and ends inside the block. -/
def NodesPlaced (erasesize : Nat) (nodes : List (List UInt8)) : Prop :=
  ∀ before node after, nodes = before ++ node :: after → ∃ start, 4 ∣ start ∧
    start + node.length ≤ erasesize ∧ slice (eraseblock erasesize nodes) start node.length = node

/-- The blocks are those of `groups`, each a cleanmarker and its nodes, and an end mark. -/
structure Jffs2Stream (erasesize : Nat) (name content : List UInt8) (blocks : List (List UInt8))
    (groups : List (List (List UInt8))) : Prop where
  layout : blocks = groups.map (eraseblock erasesize) ++ [padBlock erasesize JFFS2_EOF]
  sizes : ∀ block ∈ blocks, block.length = erasesize
  markers : ∀ nodes ∈ groups, CLEANMARKER <+: eraseblock erasesize nodes
  placed : ∀ nodes ∈ groups, NodesPlaced erasesize nodes
  nodes : ∃ dirent inodes version, groups.flatten = dirent :: inodes ∧
    ValidDirent dirent name ∧ Tiling 0 version inodes content

/-! ## The nodes are sound -/

theorem rawDirentFront_fields (name : List UInt8) (type : UInt8) (pino version ino crc : UInt32)
    (tail : List UInt8) :
    be32At (rawDirentFront name type pino version ino crc ++ tail) 4 =
        UInt32.ofNat (sizeofRawDirent + name.length) ∧
      be32At (rawDirentFront name type pino version ino crc ++ tail) 8 = crc ∧
      (rawDirentFront name type pino version ino crc).take 8 =
        (rawDirentFront name type pino version ino 0).take 8 ∧
      (rawDirentFront name type pino version ino crc).take 4 =
        be16 JFFS2_MAGIC_BITMASK ++ be16 JFFS2_NODETYPE_DIRENT := by
  simp only [rawDirentFront, List.append_assoc, be32At_past16, be32At_past32, be32At_here, true_and]
  exact ⟨rfl, rfl⟩

theorem rawDirent_valid {type : UInt8} {pino version ino : UInt32} (short : name.length ≤ 255) :
    ValidDirent (rawDirent name type pino version ino) name := by
  have lengthEq : (rawDirent name type pino version ino).length = 40 + name.length :=
    rawDirent_length
  unfold rawDirent at lengthEq ⊢
  dsimp only at lengthEq ⊢
  generalize hdrCrcEq : crc32 0 ((rawDirentFront name type pino version ino 0).take 8) = hdrCrc
    at lengthEq ⊢
  have frontLength : (rawDirentFront name type pino version ino hdrCrc).length = 32 :=
    rawDirentFront_length
  obtain ⟨totlen, hdr, take8, take4⟩ := rawDirentFront_fields name type pino version ino hdrCrc
    (be32 (crc32 0 (rawDirentFront name type pino version ino hdrCrc)) ++
      (be32 (crc32 0 name) ++ name))
  rw [← take8] at hdrCrcEq
  generalize rawDirentFront name type pino version ino hdrCrc = front at *
  rw [List.append_assoc, List.append_assoc] at lengthEq ⊢
  have tailAt : ∀ offset, be32At (front ++ (be32 (crc32 0 front) ++ (be32 (crc32 0 name) ++ name)))
      (32 + offset) = be32At (be32 (crc32 0 front) ++ (be32 (crc32 0 name) ++ name)) offset := by
    intro offset
    rw [← frontLength]
    exact be32At_skip ..
  have taken : ∀ count, count ≤ 32 →
      (front ++ (be32 (crc32 0 front) ++ (be32 (crc32 0 name) ++ name))).take count =
        front.take count := by
    intro count within
    exact List.take_append_of_le_length (by omega)
  refine ⟨lengthEq, (taken 4 (by omega)).trans take4, ?_, ?_, ?_, ?_, ?_⟩
  · rw [totlen, lengthEq, UInt32.toNat_ofNat', sizeofRawDirent, Nat.mod_eq_of_lt (by omega)]
  · rw [hdr, taken 8 (by omega), hdrCrcEq]
  · rw [taken 32 (by omega), List.take_of_length_le (by omega)]
    exact (tailAt 0).trans (be32At_here _ _)
  · exact (tailAt 4).trans ((be32At_past32 _ _ 0).trans (be32At_here _ _))
  · rw [← List.append_assoc, ← List.append_assoc]
    exact List.drop_left' (by simp [frontLength])

theorem rawInodeFront_fields (ino version : UInt32) (st : Stat) (offset dsize crc : UInt32)
    (tail : List UInt8) :
    be32At (rawInodeFront ino version st offset dsize crc ++ tail) 4 =
        UInt32.ofNat sizeofRawInode + dsize ∧
      be32At (rawInodeFront ino version st offset dsize crc ++ tail) 8 = crc ∧
      be32At (rawInodeFront ino version st offset dsize crc ++ tail) 16 = version ∧
      be32At (rawInodeFront ino version st offset dsize crc ++ tail) 44 = offset ∧
      be32At (rawInodeFront ino version st offset dsize crc ++ tail) 52 = dsize ∧
      (rawInodeFront ino version st offset dsize crc).take 8 =
        (rawInodeFront ino version st offset dsize 0).take 8 ∧
      (rawInodeFront ino version st offset dsize crc).take 4 =
        be16 JFFS2_MAGIC_BITMASK ++ be16 JFFS2_NODETYPE_INODE := by
  simp only [rawInodeFront, List.append_assoc, be32At_past16, be32At_past32, be32At_here, true_and]
  exact ⟨rfl, rfl⟩

theorem rawInode_valid (ino version : UInt32) (st : Stat) (offset : UInt32)
    (short : data.length < 2 ^ 31) :
    ValidInode (rawInode ino version st offset data ++ data) offset.toNat version.toNat data := by
  have lengthEq : (rawInode ino version st offset data ++ data).length = 68 + data.length := by
    rw [List.length_append, rawInode_length]
  have dsizeEq : (UInt32.ofNat data.length).toNat = data.length := by
    rw [UInt32.toNat_ofNat', Nat.mod_eq_of_lt (by omega)]
  unfold rawInode at lengthEq ⊢
  dsimp only at lengthEq ⊢
  generalize UInt32.ofNat data.length = dsize at *
  generalize hdrCrcEq : crc32 0 ((rawInodeFront ino version st offset dsize 0).take 8) = hdrCrc
    at lengthEq ⊢
  have frontLength : (rawInodeFront ino version st offset dsize hdrCrc).length = 60 :=
    rawInodeFront_length
  obtain ⟨totlen, hdr, versionAt, offsetAt, dsizeAt, take8, take4⟩ :=
    rawInodeFront_fields ino version st offset dsize hdrCrc (be32 (crc32 0 data) ++
      (be32 (crc32 0 (rawInodeFront ino version st offset dsize hdrCrc)) ++ data))
  rw [← take8] at hdrCrcEq
  generalize rawInodeFront ino version st offset dsize hdrCrc = front at *
  rw [List.append_assoc, List.append_assoc] at lengthEq ⊢
  have tailAt : ∀ offset, be32At (front ++ (be32 (crc32 0 data) ++ (be32 (crc32 0 front) ++ data)))
      (60 + offset) = be32At (be32 (crc32 0 data) ++ (be32 (crc32 0 front) ++ data)) offset := by
    intro offset
    rw [← frontLength]
    exact be32At_skip ..
  have taken : ∀ count, count ≤ 60 →
      (front ++ (be32 (crc32 0 data) ++ (be32 (crc32 0 front) ++ data))).take count =
        front.take count := by
    intro count within
    exact List.take_append_of_le_length (by omega)
  refine ⟨lengthEq, (taken 4 (by omega)).trans take4, ?_, ?_, congrArg UInt32.toNat versionAt,
    congrArg UInt32.toNat offsetAt, (congrArg UInt32.toNat dsizeAt).trans dsizeEq, ?_, ?_, ?_⟩
  · have header : (UInt32.ofNat sizeofRawInode).toNat = 68 := rfl
    rw [totlen, lengthEq, UInt32.toNat_add, header, dsizeEq, Nat.mod_eq_of_lt (by omega)]
  · rw [hdr, taken 8 (by omega), hdrCrcEq]
  · exact (tailAt 0).trans (be32At_here _ _)
  · rw [taken 60 (by omega), List.take_of_length_le (by omega)]
    exact (tailAt 4).trans ((be32At_past32 _ _ 0).trans (be32At_here _ _))
  · rw [← List.append_assoc, ← List.append_assoc]
    exact List.drop_left' (by simp [frontLength])

/-! ## The file -/

/-- The nodes that `add_file` makes of the bytes it reads, wherever the counters wrap. -/
inductive FileNodes (ino : UInt32) (st : Stat) :
    UInt32 → UInt32 → List (List UInt8) → List UInt8 → Prop where
  | done {offset version : UInt32} : FileNodes ino st offset version [] []
  | node {offset version : UInt32} {data content : List UInt8} {nodes : List (List UInt8)}
      (some' : data ≠ []) (short : data.length ≤ 4096)
      (rest : FileNodes ino st (offset + UInt32.ofNat data.length) (version + 1) nodes content) :
      FileNodes ino st offset version
        ((rawInode ino (version + 1) st offset data ++ data) :: nodes) (data ++ content)

theorem addFileLoop_nodes (ino offset : UInt32) (st : Stat) (chunks : List Nat)
    (aligned : 4 ∣ erasesize) (room : 280 ≤ erasesize) (laid : Laid erasesize state full cur)
    (enough : content.length < fuel) :
    ∃ next full' cur' nodes,
      addFileLoop erasesize ino st fuel state offset content chunks = some next ∧
      Laid erasesize next full' cur' ∧
      (full' ++ [cur']).flatten = (full ++ [cur]).flatten ++ nodes ∧
      FileNodes ino st offset state.lastVersion nodes content := by
  induction fuel generalizing state full cur offset content chunks with
  | zero => omega
  | succ fuel ih =>
      obtain ⟨opened, full₁, cur₁, roomMade, laid₁, nodes₁, counters, space⟩ :=
        makeRoom_laid room laid
      have ofsEq := rbytes_laid laid₁
      rw [sizeofRawInode] at space
      generalize lenEq : readLength (min (rbytes erasesize opened - sizeofRawInode) 4096) chunks =
        len
      obtain ⟨positive, bound, most⟩ :
          0 < len ∧ len ≤ rbytes erasesize opened - 68 ∧ len ≤ 4096 := by
        rw [← lenEq, sizeofRawInode]
        cases chunks with
        | nil =>
            rw [readLength]
            omega
        | cons chunk rest =>
            rw [readLength]
            omega
      by_cases atEnd : content = []
      · subst atEnd
        refine ⟨opened, full₁, cur₁, [], ?_, laid₁, by rw [nodes₁, List.append_nil], .done⟩
        simp only [addFileLoop, roomMade, Option.bind_eq_bind, Option.bind_some, List.take_nil,
          if_true, Option.pure_def]
      · have taken : (content.take len).length = min len content.length := List.length_take
        have more := List.length_pos_iff.mpr atEnd
        have some' : content.take len ≠ [] := by
          rw [← List.length_pos_iff]
          omega
        have within : opened.ofs + 68 + (content.take len).length ≤ erasesize := by omega
        obtain ⟨next, full₂, cur₂, added, laid₂, nodes₂, version₂⟩ :=
          addInode_laid ino offset st aligned (by omega) laid₁ within
        have lengths : (content.take len).length + (content.drop len).length = content.length := by
          rw [← List.length_append, List.take_append_drop]
        obtain ⟨final, full₃, cur₃, nodes, looped, laid₃, nodes₃, rest⟩ :=
          ih (offset + UInt32.ofNat (content.take len).length) chunks.tail laid₂
            (by omega : (content.drop len).length < fuel)
        rw [version₂, counters.2] at rest
        refine ⟨final, full₃, cur₃, (rawInode ino (state.lastVersion + 1) st offset
          (content.take len) ++ content.take len) :: nodes, ?_, laid₃, ?_, ?_⟩
        · simp only [addFileLoop, roomMade, Option.bind_eq_bind, Option.bind_some, lenEq,
            if_neg some', added]
          exact looped
        · rw [nodes₃, nodes₂, nodes₁, List.append_assoc, counters.2]
          rfl
        · have whole := FileNodes.node some' (by omega) rest
          rw [List.take_append_drop] at whole
          exact whole

/-- Short of wrapping the nodes cover the content. -/
theorem FileNodes.tiling {ino offset version : UInt32} {nodes : List (List UInt8)}
    (made : FileNodes ino st offset version nodes content)
    (fits : offset.toNat + content.length < 2 ^ 32)
    (noWrap : version.toNat + content.length < 2 ^ 32) :
    Tiling offset.toNat (version.toNat + 1) nodes content := by
  induction made with
  | done => exact .done
  | @node offset version data content nodes some' short rest ih =>
      have more := List.length_pos_iff.mpr some'
      rw [List.length_append] at fits noWrap
      have offsetEq : (offset + UInt32.ofNat data.length).toNat = offset.toNat + data.length := by
        rw [UInt32.toNat_add, UInt32.toNat_ofNat', Nat.mod_eq_of_lt (by omega),
          Nat.mod_eq_of_lt (by omega)]
      have versionEq : (version + 1).toNat = version.toNat + 1 := by
        have one : (1 : UInt32).toNat = 1 := rfl
        rw [UInt32.toNat_add, one, Nat.mod_eq_of_lt (by omega)]
      have valid := rawInode_valid ino (version + 1) st offset
        (by omega : data.length < 2 ^ 31)
      have tiled := ih (by rw [offsetEq]; omega) (by rw [versionEq]; omega)
      rw [versionEq] at valid
      rw [offsetEq, versionEq] at tiled
      exact .node valid some' (Nat.lt_succ_self _) tiled

theorem addFileLoop_laid (ino offset : UInt32) (st : Stat) (chunks : List Nat) (aligned : 4 ∣ erasesize) (room : 280 ≤ erasesize)
    (laid : Laid erasesize state full cur)
    (enough : content.length < fuel) (fits : offset.toNat + content.length < 2 ^ 32)
    (noWrap : state.lastVersion.toNat + content.length < 2 ^ 32) :
    ∃ next full' cur' nodes,
      addFileLoop erasesize ino st fuel state offset content chunks = some next ∧
      Laid erasesize next full' cur' ∧
      (full' ++ [cur']).flatten = (full ++ [cur]).flatten ++ nodes ∧
      Tiling offset.toNat (state.lastVersion.toNat + 1) nodes content := by
  obtain ⟨next, full', cur', nodes, looped, laid', flat, made⟩ :=
    addFileLoop_nodes ino offset st chunks aligned room laid enough
  exact ⟨next, full', cur', nodes, looped, laid', flat, made.tiling fits noWrap⟩

theorem ofs_distance (ofs : Nat) (small : erasesize < 2 ^ 31) (short : name.length ≤ 255)
    (below : ofs < erasesize) : ¬ (UInt32.ofNat ofs - UInt32.ofNat erasesize).toNat <
      sizeofRawDirent + name.length := by
  rw [UInt32.toNat_sub, UInt32.toNat_ofNat', UInt32.toNat_ofNat',
    Nat.mod_eq_of_lt (by omega : erasesize < 2 ^ 32), Nat.mod_eq_of_lt (by omega : ofs < 2 ^ 32),
    sizeofRawDirent]
  omega

/-- An entry behind the nodes of a block that has room for it. -/
theorem addDirent_behind (aligned : 4 ∣ erasesize) (small : erasesize < 2 ^ 31)
    (short : name.length ≤ 255) (laid : Laid erasesize state full cur)
    (room : state.ofs + 40 + name.length + 4 ≤ erasesize) :
    ∃ next, addDirent erasesize state name type parent = some (next, state.lastIno + 1) ∧
      Laid erasesize next full
        (cur ++ [rawDirent name type parent state.lastVersion (state.lastIno + 1)]) ∧
      next.lastIno = state.lastIno + 1 + 1 ∧ next.lastVersion = state.lastVersion + 1 := by
  generalize direntEq : rawDirent name type parent state.lastVersion (state.lastIno + 1) = dirent
  have length : dirent.length = 40 + name.length := by
    rw [← direntEq, rawDirent_length]
  let stored : Generator := { copy state dirent with
    lastIno := state.lastIno + 1 + 1
    lastVersion := state.lastVersion + 1
    ofs := state.ofs + sizeofRawDirent + name.length % 2 ^ 8 }
  have ofsEq : stored.ofs = (copy state dirent).ofs := by
    simp only [stored, copy, length, sizeofRawDirent]
    omega
  have filled : stored.filled = state.filled ++ dirent := by
    rw [← copy_filled, Generator.filled, Generator.filled, ofsEq]
  have laid' : Laid erasesize (pad erasesize 4 stored) full (cur ++ [dirent]) :=
    node_behind aligned laid filled rfl (by omega)
  refine ⟨pad erasesize 4 stored, ?_, laid', pad_counters.1, pad_counters.2⟩
  simp only [addDirent, if_neg (ofs_distance state.ofs small short laid.unfilled), laid.prep,
    Option.bind_eq_bind, Option.bind_some, direntEq, Option.pure_def]
  rfl

/-- On an empty buffer the entry follows the cleanmarker. -/
theorem addDirent_prepared {prepared : Generator} (small : erasesize < 2 ^ 31)
    (positive : 12 < erasesize) (short : name.length ≤ 255) (empty : state.ofs = 0)
    (prep : prepEraseblock erasesize state = some prepared)
    (laid : Laid erasesize prepared full cur) :
    addDirent erasesize state name type parent = addDirent erasesize prepared name type parent := by
  have here := ofs_distance state.ofs small short (by omega)
  have there := ofs_distance prepared.ofs small short laid.unfilled
  simp only [addDirent, if_neg here, if_neg there, prep, laid.prep]

theorem addDirent_laid (type : UInt8) (parent : UInt32) (aligned : 4 ∣ erasesize)
    (large : 4096 ≤ erasesize) (small : erasesize < 2 ^ 31) (short : name.length ≤ 255)
    (empty : state.ofs = 0) (fresh : state.blocks = []) :
    ∃ next dirent, addDirent erasesize state name type parent = some (next, state.lastIno + 1) ∧
      Laid erasesize next [] [dirent] ∧ ValidDirent dirent name ∧
      next.lastVersion = state.lastVersion + 1 := by
  have noBlocks : state.blocks = ([] : List (List (List UInt8))).map (eraseblock erasesize) := fresh
  obtain ⟨prepared, prep, laid, counters⟩ :=
    prepEraseblock_laid (by omega : 12 < erasesize) empty noBlocks fun nodes member => by cases member
  have started : prepared.ofs = 12 := laid.ofs_eq
  obtain ⟨next, added, laid', -, version⟩ :=
    @addDirent_behind erasesize prepared name [] [] parent type aligned small short laid (by omega)
  rw [counters.1] at added
  exact ⟨next, _, (addDirent_prepared small (by omega) short empty prep laid).trans added, laid',
    rawDirent_valid short, by rw [version, counters.2]⟩

theorem nodesPlaced (fits : (blockBytes cur).length ≤ erasesize) : NodesPlaced erasesize cur := by
  rintro before node after rfl
  have layout : blockBytes (before ++ node :: after) = blockBytes before ++ (node ++
      (List.replicate ((4 - node.length % 4) % 4) 0xff ++ after.flatMap padNode)) := by
    simp only [blockBytes, List.flatMap_append, List.flatMap_cons, padNode, List.append_assoc]
  have aligned := (blockBytes_length before).1
  rw [layout] at fits
  refine ⟨(blockBytes before).length, by omega, ?_, ?_⟩
  · simp only [List.length_append] at fits ⊢
    omega
  · rw [eraseblock, padBlock, layout, slice, List.append_assoc, List.drop_left, List.append_assoc,
      List.take_left]

theorem cleanmarker_first : CLEANMARKER <+: eraseblock erasesize cur :=
  ⟨cur.flatMap padNode ++ List.replicate (erasesize - (blockBytes cur).length) 0xff, by
    rw [eraseblock, padBlock, ← List.append_assoc]
    rfl⟩

/-! ## The whole stream -/

/-- The end mark gets a block of its own. -/
theorem markEnd (room : 4 ≤ erasesize) (empty : (pad erasesize erasesize state).ofs = 0) :
    ∃ marked, addData erasesize (pad erasesize erasesize state) JFFS2_EOF = some marked ∧
      (pad erasesize erasesize marked).blocks =
        (pad erasesize erasesize state).blocks ++ [padBlock erasesize JFFS2_EOF] := by
  have eofLength : JFFS2_EOF.length = 4 := rfl
  refine ⟨copy (pad erasesize erasesize state) JFFS2_EOF, addData_fits (by omega), ?_⟩
  have markedOfs : (copy (pad erasesize erasesize state) JFFS2_EOF).ofs = 4 := by
    simp only [copy, empty, eofLength]
  have markedFilled : (copy (pad erasesize erasesize state) JFFS2_EOF).filled = JFFS2_EOF := by
    rw [copy_filled, filled_of_empty empty, List.nil_append]
  obtain ⟨-, final⟩ := pad_block
    (by omega : 0 < (copy (pad erasesize erasesize state) JFFS2_EOF).ofs) (by omega : _ ≤ erasesize)
  rw [final, markedFilled]
  rfl

/-- For erase blocks of a multiple of four bytes, with a version counter that has room for
the nodes, the stream is sound. -/
theorem mtdReplaceJffs2_stream (aligned : 4 ∣ erasesize) (large : 4096 ≤ erasesize)
    (small : erasesize < 2 ^ 31) (short : file.name.length ≤ 254) (exists' : file.stat = some st)
    (opens : file.opens = true)
    (noWrap : lastVersion.toNat + 1 + file.content.length < 2 ^ 32) :
    ∃ blocks groups, mtdReplaceJffs2 erasesize heap lastIno lastVersion file = some blocks ∧
      Jffs2Stream erasesize file.name file.content blocks groups := by
  let start : Generator := ⟨if lastIno = 0 then 1 else lastIno, lastVersion, heap, 0, []⟩
  obtain ⟨opened, dirent, added, laid, valid, version⟩ := addDirent_laid 8 1 aligned large small
    (Nat.le_succ_of_le short) (rfl : start.ofs = 0) rfl
  have versionEq : opened.lastVersion.toNat = lastVersion.toNat + 1 := by
    have one : (1 : UInt32).toNat = 1 := rfl
    rw [version, UInt32.toNat_add, one]
    exact Nat.mod_eq_of_lt (by show lastVersion.toNat + 1 < 2 ^ 32; omega)
  obtain ⟨last, full, cur, inodes, looped, laid', nodes, tiled⟩ :=
    addFileLoop_laid (start.lastIno + 1) 0 st file.chunks aligned (by omega) laid (Nat.lt_succ_self file.content.length) (by
        show 0 + file.content.length < 2 ^ 32
        omega) (by omega)
  obtain ⟨empty, out, fits⟩ := laid'.closeBlock
  obtain ⟨marked, closed, final⟩ := markEnd (by omega) empty
  have fileAdded : addFile erasesize start file 1 = some last := by
    simp only [addFile, exists', added, Option.bind_eq_bind, Option.bind_some, opens, if_true]
    exact looped
  have layout : (pad erasesize erasesize marked).blocks =
      (full ++ [cur]).map (eraseblock erasesize) ++ [padBlock erasesize JFFS2_EOF] := by
    rw [final, out]
  refine ⟨_, full ++ [cur], ?_, layout, ?_, fun _ _ => cleanmarker_first,
    fun nodes member => nodesPlaced (fits nodes member), dirent, inodes,
    opened.lastVersion.toNat + 1, ?_, valid, tiled⟩
  · simp only [mtdReplaceJffs2, Option.bind_eq_bind]
    rw [show addFile erasesize _ file 1 = some last from fileAdded, Option.bind_some, closed,
      Option.bind_some]
    rfl
  · rw [layout]
    intro block member
    rcases List.mem_append.mp member with inGroups | isLast
    · obtain ⟨nodes, inside, rfl⟩ := List.mem_map.mp inGroups
      exact padBlock_length (fits nodes inside)
    · rw [List.mem_singleton.mp isLast]
      exact padBlock_length (by rw [show JFFS2_EOF.length = 4 from rfl]; omega)
  · rw [nodes]
    rfl

def sampleFile : SourceFile where
  name := [0x61]
  stat := some ⟨0o100644, 3, 0, 0, 0⟩
  opens := true
  content := [1, 2, 3]
  chunks := [0]

theorem mtdReplaceJffs2_stream_sample :
    ∃ blocks groups, mtdReplaceJffs2 4096 (fun _ => 0) 0 0 sampleFile = some blocks ∧
      Jffs2Stream 4096 sampleFile.name sampleFile.content blocks groups :=
  mtdReplaceJffs2_stream (by decide) (by decide) (by decide) (by decide) rfl rfl (by decide)

/-! ## Erase blocks that end between two multiples of four -/

/-- Its data node ends at byte 4097 of the first block. -/
def raggedFile : SourceFile where
  name := [0x61, 0x62, 0x63, 0x64]
  stat := some ⟨0o100644, 3973, 0, 0, 0⟩
  opens := true
  content := List.replicate 3973 0
  chunks := []

/-- Padding the node steps over the end of the block, which is never written. -/
theorem raggedFile_blocks : (mtdReplaceJffs2 4098 (fun _ => 0) 0 0 raggedFile).map
    (fun blocks => blocks.map (List.take 3)) = some [[0x19, 0x85, 0xff], [0xde, 0xad, 0xc0]] := by
  decide +kernel

theorem raggedFile_not_stream :
    ∃ blocks, mtdReplaceJffs2 4098 (fun _ => 0) 0 0 raggedFile = some blocks ∧
      ∀ groups, ¬Jffs2Stream 4098 raggedFile.name raggedFile.content blocks groups := by
  obtain ⟨blocks, produced, starts⟩ := Option.map_eq_some_iff.mp raggedFile_blocks
  refine ⟨blocks, produced, fun groups stream => ?_⟩
  rw [stream.layout, List.map_append, List.map_map] at starts
  cases groups with
  | nil => simp at starts
  | cons nodes rest =>
      obtain ⟨behind, marked⟩ := stream.markers nodes (by simp)
      simp only [List.map_cons, List.cons_append, List.cons.injEq, Function.comp_apply, ← marked]
        at starts
      exact absurd starts.1 (by simp [CLEANMARKER])

end Rut9xx.Mtd
