import Rut9xx.Mtd.Jffs2
import Rut9xx.Data.Buffer

namespace Rut9xx.Mtd

open Rut9xx.Data

/-! # Where the generator puts its nodes

A block is a cleanmarker and nodes padded to four bytes.  The buffer always
holds such a block as far as it is filled.
-/

variable {erasesize : Nat} {state next : Generator} {data node : List UInt8}
  {cur : List (List UInt8)} {full : List (List (List UInt8))}

/-! ## The buffer as a byte string -/

def Generator.filled (state : Generator) : List UInt8 := (List.range state.ofs).map state.buf

@[simp] theorem filled_length : state.filled.length = state.ofs := by
  simp [Generator.filled]

theorem filled_of_empty (empty : state.ofs = 0) : state.filled = [] := by
  simp [Generator.filled, empty]

@[simp] theorem copy_filled : (copy state data).filled = state.filled ++ data := by
  simp only [Generator.filled, copy, List.range_add, List.map_append, List.map_map]
  congr 1
  · refine List.map_congr_left fun index inside => if_neg fun touched => ?_
    rw [List.mem_range] at inside
    omega
  · refine List.ext_getElem (by simp) fun index below inData => ?_
    simp only [List.getElem_map, List.getElem_range, Function.comp_apply, Nat.le_add_right,
      Nat.add_lt_add_iff_left, inData, and_self, if_true, Nat.add_sub_cancel_left]
    simp [inData]

/-! ## Padding -/

def padNode (bytes : List UInt8) : List UInt8 :=
  bytes ++ List.replicate ((4 - bytes.length % 4) % 4) 0xff

theorem padNode_length (data : List UInt8) : (padNode data).length % 4 = 0 ∧
    data.length ≤ (padNode data).length ∧ (padNode data).length < data.length + 4 := by
  simp only [padNode, List.length_append, List.length_replicate]
  omega

theorem padNode_append (aligned : node.length % 4 = 0) :
    padNode (node ++ data) = node ++ padNode data := by
  simp only [padNode, List.length_append, List.append_assoc]
  congr 4
  omega

/-- The parts of the generator that padding leaves alone. -/
def SameCounters (state next : Generator) : Prop :=
  next.lastIno = state.lastIno ∧ next.lastVersion = state.lastVersion

theorem SameCounters.trans {third : Generator} (first : SameCounters state next)
    (second : SameCounters next third) : SameCounters state third :=
  ⟨second.1.trans first.1, second.2.trans first.2⟩

theorem wrap_counters : SameCounters state (wrap erasesize state) := by
  unfold wrap
  dsimp only
  split <;> exact ⟨rfl, rfl⟩

theorem pad_counters {size : Nat} : SameCounters state (pad erasesize size state) := by
  unfold pad
  split
  · exact ⟨rfl, rfl⟩
  · split
    · exact SameCounters.trans ⟨rfl, rfl⟩ wrap_counters
    · exact wrap_counters

theorem wrap_full (fills : state.ofs = erasesize) : (wrap erasesize state).ofs = 0 ∧
    (wrap erasesize state).blocks = state.blocks ++ [state.filled] := by
  simp only [wrap, fills, Nat.mod_self, if_true, flush, Generator.filled, and_self]

theorem wrap_short (positive : 0 < state.ofs) (short : state.ofs < erasesize) :
    wrap erasesize state = state := by
  simp only [wrap, Nat.mod_eq_of_lt short]
  exact if_neg (by omega)

/-- Padding a block to its end puts it out. -/
theorem pad_block (positive : 0 < state.ofs) (within : state.ofs ≤ erasesize) :
    (pad erasesize erasesize state).ofs = 0 ∧ (pad erasesize erasesize state).blocks =
      state.blocks ++ [padBlock erasesize state.filled] := by
  unfold pad
  rcases Nat.lt_or_eq_of_le within with short | fills
  · have ragged : ¬(state.ofs % erasesize = 0 ∧ state.ofs < erasesize) := by
      rw [Nat.mod_eq_of_lt short]
      omega
    rw [if_neg ragged, if_pos short, Nat.mod_eq_of_lt short]
    have done : (copy state (List.replicate (erasesize - state.ofs) 0xff)).ofs = erasesize := by
      simp only [copy, List.length_replicate]
      omega
    obtain ⟨empty, out⟩ := wrap_full done
    rw [copy_filled] at out
    refine ⟨empty, out.trans ?_⟩
    rw [padBlock, filled_length]
    rfl
  · rw [if_neg (by omega), if_neg (by omega)]
    obtain ⟨empty, out⟩ := wrap_full fills
    rw [padBlock_full (by simpa using fills)]
    exact ⟨empty, out⟩

theorem pad_empty (empty : state.ofs = 0) (positive : 0 < erasesize) :
    pad erasesize erasesize state = state := by
  unfold pad
  exact if_pos ⟨by rw [empty, Nat.zero_mod], by omega⟩

/-- Padding a node either leaves the block open or fills it to the last byte. -/
theorem pad_node (aligned : 4 ∣ erasesize) (positive : 0 < state.ofs)
    (within : state.ofs ≤ erasesize) :
    (padNode state.filled).length ≤ erasesize ∧
      ((pad erasesize 4 state).filled = padNode state.filled ∧
          (pad erasesize 4 state).blocks = state.blocks ∧
          (padNode state.filled).length < erasesize ∨
        (pad erasesize 4 state).ofs = 0 ∧
          (pad erasesize 4 state).blocks = state.blocks ++ [padNode state.filled] ∧
          (padNode state.filled).length = erasesize) := by
  have lengthEq : (padNode state.filled).length = state.ofs + (4 - state.ofs % 4) % 4 := by
    simp [padNode]
  refine ⟨by omega, ?_⟩
  unfold pad
  by_cases ragged : state.ofs % 4 = 0
  · have same : padNode state.filled = state.filled := by
      simp [padNode, ragged]
    rcases Nat.lt_or_eq_of_le within with short | fills
    · rw [if_pos ⟨ragged, short⟩, same]
      exact .inl ⟨rfl, rfl, by simpa using short⟩
    · rw [if_neg (by omega), if_neg (by omega), same]
      obtain ⟨empty, out⟩ := wrap_full fills
      exact .inr ⟨empty, out, by simpa using fills⟩
  · have some' : (4 - state.ofs % 4) % 4 = 4 - state.ofs % 4 := by omega
    have node : (copy state (List.replicate (4 - state.ofs % 4) 0xff)).filled =
        padNode state.filled := by
      rw [copy_filled, padNode, filled_length, some']
    have ofsEq : (copy state (List.replicate (4 - state.ofs % 4) 0xff)).ofs =
        (padNode state.filled).length := by
      rw [← filled_length, node]
    rw [if_neg (by omega), if_pos (by omega)]
    rcases Nat.lt_or_ge (padNode state.filled).length erasesize with short | fills
    · rw [wrap_short (by omega) (by omega)]
      exact .inl ⟨node, rfl, short⟩
    · have exactly : (padNode state.filled).length = erasesize := by omega
      obtain ⟨empty, out⟩ := wrap_full (ofsEq.trans exactly)
      rw [node] at out
      exact .inr ⟨empty, out, exactly⟩

/-! ## Blocks of nodes -/

def blockBytes (nodes : List (List UInt8)) : List UInt8 := CLEANMARKER ++ nodes.flatMap padNode

def eraseblock (erasesize : Nat) (nodes : List (List UInt8)) : List UInt8 :=
  padBlock erasesize (blockBytes nodes)

theorem blockBytes_length (cur : List (List UInt8)) : (blockBytes cur).length % 4 = 0 ∧ 12 ≤ (blockBytes cur).length := by
  have marker : CLEANMARKER.length = 12 := rfl
  have nodes : (cur.flatMap padNode).length % 4 = 0 := by
    induction cur with
    | nil => rfl
    | cons node rest ih =>
        have aligned := (padNode_length node).1
        rw [List.flatMap_cons, List.length_append]
        omega
  rw [blockBytes, List.length_append, marker]
  omega

theorem blockBytes_append : blockBytes (cur ++ [node]) = padNode (blockBytes cur ++ node) := by
  rw [padNode_append (blockBytes_length cur).1]
  simp [blockBytes]

/-- The blocks `full` are out and the buffer holds the nodes `cur`. -/
structure Laid (erasesize : Nat) (state : Generator) (full : List (List (List UInt8)))
    (cur : List (List UInt8)) : Prop where
  blocks : state.blocks = full.map (eraseblock erasesize)
  filled : state.filled = blockBytes cur
  unfilled : state.ofs < erasesize
  fits : ∀ nodes ∈ full, (blockBytes nodes).length ≤ erasesize

theorem Laid.ofs_eq (laid : Laid erasesize state full cur) :
    state.ofs = (blockBytes cur).length := by
  rw [← laid.filled, filled_length]

/-- An empty buffer gets its cleanmarker. -/
theorem prepEraseblock_laid (room : 12 < erasesize) (empty : state.ofs = 0)
    (blocks : state.blocks = full.map (eraseblock erasesize))
    (fits : ∀ nodes ∈ full, (blockBytes nodes).length ≤ erasesize) :
    ∃ next, prepEraseblock erasesize state = some next ∧ Laid erasesize next full [] ∧
      SameCounters state next := by
  have marker : CLEANMARKER.length = 12 := rfl
  refine ⟨copy state CLEANMARKER, ?_, ⟨blocks, ?_, ?_, fits⟩, rfl, rfl⟩
  · rw [prepEraseblock, if_neg (by omega), if_neg (by omega)]
  · rw [copy_filled, filled_of_empty empty]
    simp [blockBytes]
  · simp only [copy]
    omega

theorem Laid.prep (laid : Laid erasesize state full cur) :
    prepEraseblock erasesize state = some state := by
  have := laid.ofs_eq
  have := (blockBytes_length cur).2
  exact if_pos (by omega)

theorem Laid.closeBlock (laid : Laid erasesize state full cur) :
    (pad erasesize erasesize state).ofs = 0 ∧
      (pad erasesize erasesize state).blocks = (full ++ [cur]).map (eraseblock erasesize) ∧
      ∀ nodes ∈ full ++ [cur], (blockBytes nodes).length ≤ erasesize := by
  have ofsEq := laid.ofs_eq
  have long := (blockBytes_length cur).2
  have short := laid.unfilled
  obtain ⟨empty, out⟩ := pad_block (by omega) (Nat.le_of_lt short)
  refine ⟨empty, ?_, fun nodes member => ?_⟩
  · rw [out, laid.blocks, laid.filled, List.map_append]
    rfl
  · rcases List.mem_append.mp member with old | new
    · exact laid.fits nodes old
    · rw [List.mem_singleton.mp new]
      omega

/-- A node stored behind the filled part is closed by padding and, in a full block, by a flush. -/
theorem node_laid {stored : Generator} (aligned : 4 ∣ erasesize) (room : 12 < erasesize)
    (laid : Laid erasesize state full cur) (filled : stored.filled = state.filled ++ node)
    (blocks : stored.blocks = state.blocks) (within : stored.ofs ≤ erasesize) :
    ∃ next full' cur', prepEraseblock erasesize (pad erasesize 4 stored) = some next ∧
      Laid erasesize next full' cur' ∧
      (full' ++ [cur']).flatten = (full ++ [cur]).flatten ++ [node] ∧
      SameCounters stored next := by
  have nodes : padNode stored.filled = blockBytes (cur ++ [node]) := by
    rw [filled, laid.filled, blockBytes_append]
  have started : 0 < stored.ofs := by
    have length := congrArg List.length filled
    rw [filled_length, List.length_append, laid.filled] at length
    have := (blockBytes_length cur).2
    omega
  obtain ⟨bound, cases⟩ := pad_node aligned started within
  rw [nodes] at bound cases
  rcases cases with ⟨padded, same, short⟩ | ⟨empty, out, exactly⟩
  · have laid' : Laid erasesize (pad erasesize 4 stored) full (cur ++ [node]) :=
      ⟨same.trans (blocks.trans laid.blocks), padded,
        by rw [← filled_length, padded]; exact short, laid.fits⟩
    exact ⟨_, full, cur ++ [node], laid'.prep, laid', by simp, pad_counters⟩
  · have blocks' : (pad erasesize 4 stored).blocks =
        (full ++ [cur ++ [node]]).map (eraseblock erasesize) := by
      rw [out, blocks, laid.blocks, List.map_append]
      simp only [List.map_cons, List.map_nil, eraseblock, padBlock_full exactly]
    obtain ⟨next, prepared, laid', counters⟩ := prepEraseblock_laid room empty blocks'
      (fun other member => by
        rcases List.mem_append.mp member with old | new
        · exact laid.fits other old
        · rw [List.mem_singleton.mp new]
          exact bound)
    exact ⟨next, full ++ [cur ++ [node]], [], prepared, laid', by simp,
      pad_counters.trans counters⟩

/-- With room behind it the node does not close its block. -/
theorem node_behind {stored : Generator} (aligned : 4 ∣ erasesize)
    (laid : Laid erasesize state full cur) (filled : stored.filled = state.filled ++ node)
    (blocks : stored.blocks = state.blocks) (room : state.ofs + node.length + 4 ≤ erasesize) :
    Laid erasesize (pad erasesize 4 stored) full (cur ++ [node]) := by
  have nodes : padNode stored.filled = blockBytes (cur ++ [node]) := by
    rw [filled, laid.filled, blockBytes_append]
  have storedOfs : stored.ofs = state.ofs + node.length := by
    have length := congrArg List.length filled
    rwa [filled_length, List.length_append, filled_length] at length
  have bound := (padNode_length stored.filled).2.2
  rw [filled_length] at bound
  have ofsEq := laid.ofs_eq
  have long := (blockBytes_length cur).2
  obtain ⟨-, ⟨padded, same, short⟩ | ⟨-, -, exactly⟩⟩ :=
    pad_node aligned (by omega : 0 < stored.ofs) (by omega : stored.ofs ≤ erasesize)
  · exact ⟨same.trans (blocks.trans laid.blocks), padded.trans nodes,
      by rw [← filled_length, padded]; exact short, laid.fits⟩
  · omega

theorem makeRoom_laid (room : 280 ≤ erasesize) (laid : Laid erasesize state full cur) :
    ∃ next full' cur', makeRoom erasesize 3 state = some next ∧ Laid erasesize next full' cur' ∧
      (full' ++ [cur']).flatten = (full ++ [cur]).flatten ∧ SameCounters state next ∧
      rbytes erasesize next > sizeofRawInode + 128 := by
  by_cases roomy : rbytes erasesize state > sizeofRawInode + 128
  · exact ⟨state, full, cur, if_pos roomy, laid, rfl, ⟨rfl, rfl⟩, roomy⟩
  · obtain ⟨empty, blocks, fits⟩ := laid.closeBlock
    obtain ⟨next, prepared, laid', counters⟩ := prepEraseblock_laid (by omega) empty blocks fits
    have fresh : rbytes erasesize next > sizeofRawInode + 128 := by
      have ofsEq : next.ofs = 12 := laid'.ofs_eq
      rw [rbytes, ofsEq, Nat.mod_eq_of_lt (by omega), sizeofRawInode]
      omega
    refine ⟨next, full ++ [cur], [], ?_, laid', by simp, pad_counters.trans counters, fresh⟩
    rw [makeRoom, if_neg roomy, prepared]
    exact if_pos fresh

theorem rbytes_laid (laid : Laid erasesize state full cur) :
    state.ofs + rbytes erasesize state = erasesize := by
  have := laid.unfilled
  rw [rbytes, Nat.mod_eq_of_lt this]
  omega

theorem addData_fits (within : state.ofs + data.length ≤ erasesize) :
    addData erasesize state data = some (copy state data) := by
  simp only [addData, if_neg (Nat.not_lt.mpr within), Option.bind_eq_bind, Option.bind_some,
    Option.pure_def]

theorem rawInodeFront_length {ino version offset dsize crc : UInt32} {st : Stat} :
    (rawInodeFront ino version st offset dsize crc).length = 60 := by
  simp only [rawInodeFront, List.length_append, be32_length, be16_length, List.length_cons,
    List.length_nil]

theorem rawInode_length {ino version offset : UInt32} {st : Stat} :
    (rawInode ino version st offset data).length = 68 := by
  simp only [rawInode, List.length_append, rawInodeFront_length, be32_length]

theorem rawDirentFront_length {name : List UInt8} {type : UInt8} {pino version ino crc : UInt32} :
    (rawDirentFront name type pino version ino crc).length = 32 := by
  simp only [rawDirentFront, List.length_append, be32_length, be16_length, List.length_cons,
    List.length_nil]

theorem rawDirent_length {name : List UInt8} {type : UInt8} {pino version ino : UInt32} :
    (rawDirent name type pino version ino).length = 40 + name.length := by
  simp only [rawDirent, List.length_append, rawDirentFront_length, be32_length]

theorem addInode_laid (ino offset : UInt32) (st : Stat) (aligned : 4 ∣ erasesize)
    (room : 12 < erasesize) (laid : Laid erasesize state full cur)
    (within : state.ofs + 68 + data.length ≤ erasesize) :
    ∃ next full' cur', addInode erasesize state ino st offset data = some next ∧
      Laid erasesize next full' cur' ∧
      (full' ++ [cur']).flatten = (full ++ [cur]).flatten ++
        [rawInode ino (state.lastVersion + 1) st offset data ++ data] ∧
      next.lastVersion = state.lastVersion + 1 := by
  have header : (rawInode ino (state.lastVersion + 1) st offset data).length = 68 := rawInode_length
  have filled : (copy (copy { state with lastVersion := state.lastVersion + 1 }
      (rawInode ino (state.lastVersion + 1) st offset data)) data).filled =
      state.filled ++ (rawInode ino (state.lastVersion + 1) st offset data ++ data) := by
    rw [copy_filled, copy_filled, List.append_assoc]
    rfl
  have ofsEq : (copy (copy { state with lastVersion := state.lastVersion + 1 }
      (rawInode ino (state.lastVersion + 1) st offset data)) data).ofs =
      state.ofs + 68 + data.length := by
    simp only [copy, header]
  obtain ⟨next, full', cur', closed, laid', nodes, counters⟩ :=
    node_laid aligned room laid filled rfl (by rw [ofsEq]; exact within)
  refine ⟨next, full', cur', ?_, laid', nodes, counters.2⟩
  have first : addData erasesize { state with lastVersion := state.lastVersion + 1 }
      (rawInode ino (state.lastVersion + 1) st offset data) = some _ :=
    addData_fits (by rw [header]; dsimp only; omega)
  simp only [addInode, first, Option.bind_eq_bind, Option.bind_some]
  rw [addData_fits (by simp only [copy, header]; omega), Option.bind_some, closed]

end Rut9xx.Mtd
