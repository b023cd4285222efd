import Rut9xx.Mtdsplit.Wfi
import Rut9xx.Mtdsplit.TrxSplit
import Mathlib.Data.Finite.Prod

namespace Rut9xx.Mtdsplit

open Rut9xx.Data Rut9xx.Tplink Rut9xx.Mtd Relation

/-! # Lookups in jffs2 that end -/

variable {order : ByteOrder} {buf name : List UInt8} {wantName valid : Bool} {node place : Nat}

/-! ## What is read of a node -/

structure ValidDirent (order : ByteOrder) (buf : List UInt8) (node : Nat) : Prop where
  inside : node + 36 ≤ buf.length
  magic : je16At order buf node = some JFFS2_MAGIC_BITMASK
  type : je16At order buf (node + 2) = some JFFS2_NODETYPE_DIRENT
  ino : nativeAt order buf (node + 20) ≠ 0
  crc : nativeAt order buf (node + 32) = crc32 0 (slice buf node 32)

/-- The name of the node begins with `name`. -/
def NamedAt (buf : List UInt8) (node : Nat) (name : List UInt8) : Prop :=
  slice buf (node + 40) name.length = name

/-- Each check of a dirent reads inside, as long as the checks before it have not failed. -/
structure HeaderInside (order : ByteOrder) (buf : List UInt8) (node : Nat) : Prop where
  magic : node + 2 ≤ buf.length
  type : je16At order buf node = some JFFS2_MAGIC_BITMASK → node + 4 ≤ buf.length
  ino : je16At order buf node = some JFFS2_MAGIC_BITMASK →
    je16At order buf (node + 2) = some JFFS2_NODETYPE_DIRENT → node + 24 ≤ buf.length
  crc : je16At order buf node = some JFFS2_MAGIC_BITMASK →
    je16At order buf (node + 2) = some JFFS2_NODETYPE_DIRENT →
    nativeAt order buf (node + 20) ≠ 0 → node + 36 ≤ buf.length

/-- The names that a dirent is compared with, and the one that is handed out, lie inside. -/
structure NameInside (buf name : List UInt8) (wantName valid : Bool) (node : Nat) : Prop where
  openwrt : node + 40 + OPENWRT_NAME.length ≤ buf.length
  wanted : ¬ NamedAt buf node OPENWRT_NAME → node + 40 + name.length ≤ buf.length
  text : ¬ NamedAt buf node OPENWRT_NAME → NamedAt buf node name → valid = true → wantName = true →
    0 ∈ slice buf (node + 40) (buf.getD (node + 28) 0).toNat ∨
      node + 40 + (buf.getD (node + 28) 0).toNat ≤ buf.length

structure NodeInside (order : ByteOrder) (buf name : List UInt8) (wantName valid : Bool)
    (node : Nat) : Prop where
  header : HeaderInside order buf node
  name : ValidDirent order buf node → NameInside buf name wantName valid node

theorem je16At_exists : (∃ half, je16At order buf place = some half) ↔ place + 2 ≤ buf.length := by
  unfold je16At
  split <;> simp [*]

theorem je32At_eq_some_iff {word : UInt32} : je32At order buf place = some word ↔
    place + 4 ≤ buf.length ∧ nativeAt order buf place = word := by
  unfold je32At
  split <;> simp [*]

/-- The checks go through, with or without success, exactly when they read inside. -/
theorem direntValid_exists :
    (∃ valid, jffs2DirentValid order buf node = some valid) ↔ HeaderInside order buf node := by
  constructor
  · intro ⟨valid, done⟩
    simp only [jffs2DirentValid, Option.bind_eq_bind, Option.bind_eq_some_iff] at done
    obtain ⟨magic, magicRead, done⟩ := done
    have magicInside := Iff.mp je16At_exists ⟨magic, magicRead⟩
    by_cases isNode : magic = JFFS2_MAGIC_BITMASK
    · simp only [isNode, ne_eq, not_true_eq_false, if_false, Option.bind_eq_some_iff] at done
      obtain ⟨type, typeRead, done⟩ := done
      have typeInside := Iff.mp je16At_exists ⟨type, typeRead⟩
      by_cases isDirent : type = JFFS2_NODETYPE_DIRENT
      · simp only [isDirent, not_true_eq_false, if_false, Option.bind_eq_some_iff] at done
        obtain ⟨ino, inoRead, done⟩ := done
        obtain ⟨inoInside, inoIs⟩ := Iff.mp je32At_eq_some_iff inoRead
        refine ⟨magicInside, fun _ => by omega, fun _ _ => by omega, ?_⟩
        intro _ _ nonzero
        rw [inoIs] at nonzero
        simp only [nonzero, if_false, Option.bind_eq_some_iff] at done
        obtain ⟨crc, crcRead, -⟩ := done
        exact (Iff.mp je32At_eq_some_iff crcRead).1
      · have other : je16At order buf (node + 2) ≠ some JFFS2_NODETYPE_DIRENT := by
          simpa [typeRead] using isDirent
        exact ⟨magicInside, fun _ => by omega, fun _ same => absurd same other,
          fun _ same => absurd same other⟩
    · have other : je16At order buf node ≠ some JFFS2_MAGIC_BITMASK := by
        simpa [magicRead] using isNode
      exact ⟨magicInside, fun same => absurd same other, fun same => absurd same other,
        fun same => absurd same other⟩
  · intro inside
    obtain ⟨magic, magicRead⟩ := (@je16At_exists order buf node).mpr inside.magic
    simp only [jffs2DirentValid, magicRead, Option.bind_eq_bind, Option.bind_some]
    by_cases isNode : magic = JFFS2_MAGIC_BITMASK
    · rw [isNode] at magicRead
      have typeInside := inside.type magicRead
      obtain ⟨type, typeRead⟩ := (@je16At_exists order buf (node + 2)).mpr (by omega)
      simp only [isNode, ne_eq, not_true_eq_false, if_false, typeRead, Option.bind_some]
      by_cases isDirent : type = JFFS2_NODETYPE_DIRENT
      · rw [isDirent] at typeRead
        have inoInside := inside.ino magicRead typeRead
        have inoRead : je32At order buf (node + 20) = some (nativeAt order buf (node + 20)) :=
          Iff.mpr je32At_eq_some_iff ⟨by omega, rfl⟩
        simp only [isDirent, not_true_eq_false, if_false, inoRead, Option.bind_some]
        by_cases zero : nativeAt order buf (node + 20) = 0
        · simp [zero]
        · have crcInside := inside.crc magicRead typeRead zero
          have crcRead : je32At order buf (node + 32) = some (nativeAt order buf (node + 32)) :=
            Iff.mpr je32At_eq_some_iff ⟨by omega, rfl⟩
          simp [zero, crcRead, jffs2DirentCrc, show node + 32 ≤ buf.length by omega]
      · simp [isDirent]
    · simp [isNode]

theorem direntValid_iff : jffs2DirentValid order buf node = some true ↔ ValidDirent order buf node := by
  constructor
  · intro done
    simp only [jffs2DirentValid, Option.bind_eq_bind, Option.bind_eq_some_iff] at done
    obtain ⟨magic, magicRead, done⟩ := done
    split at done
    · cases done
    rename_i isNode
    obtain ⟨type, typeRead, done⟩ := Option.bind_eq_some_iff.mp done
    split at done
    · cases done
    rename_i isDirent
    obtain ⟨ino, inoRead, done⟩ := Option.bind_eq_some_iff.mp done
    split at done
    · cases done
    rename_i nonzero
    obtain ⟨nodeCrc, crcRead, done⟩ := Option.bind_eq_some_iff.mp done
    obtain ⟨crc, computed, same⟩ := Option.bind_eq_some_iff.mp done
    simp only [jffs2DirentCrc] at computed
    split at computed
    · cases computed
      rw [Decidable.not_not.mp isNode] at magicRead
      rw [Decidable.not_not.mp isDirent] at typeRead
      obtain ⟨-, inoIs⟩ := Iff.mp je32At_eq_some_iff inoRead
      obtain ⟨inside, crcIs⟩ := Iff.mp je32At_eq_some_iff crcRead
      refine ⟨inside, magicRead, typeRead, inoIs ▸ nonzero, ?_⟩
      rw [crcIs]
      simpa using same
    · cases computed
  · intro dirent
    have inside := dirent.inside
    have inoRead : je32At order buf (node + 20) = some (nativeAt order buf (node + 20)) :=
      Iff.mpr je32At_eq_some_iff ⟨by omega, rfl⟩
    have crcRead : je32At order buf (node + 32) = some (nativeAt order buf (node + 32)) :=
      Iff.mpr je32At_eq_some_iff ⟨by omega, rfl⟩
    simp [jffs2DirentValid, dirent.magic, dirent.type, inoRead, dirent.ino, crcRead, jffs2DirentCrc,
      show node + 32 ≤ buf.length by omega, dirent.crc]

theorem memcmpEq_exists :
    (∃ same, memcmpEq buf place name = some same) ↔ place + name.length ≤ buf.length := by
  unfold memcmpEq
  split <;> simp [*]

theorem memcmpEq_inside (inside : node + 40 + name.length ≤ buf.length) :
    ∃ same, memcmpEq buf (node + 40) name = some same ∧ (same = true ↔ NamedAt buf node name) := by
  refine ⟨_, if_pos inside, ?_⟩
  simp [NamedAt]

theorem outName_exists (inside : node + 40 ≤ buf.length) :
    (∃ out, outName buf wantName node = some out) ↔
      (wantName = true → 0 ∈ slice buf (node + 40) (buf.getD (node + 28) 0).toNat ∨
        node + 40 + (buf.getD (node + 28) 0).toNat ≤ buf.length) := by
  cases wantName with
  | false => simp [outName]
  | true =>
      have nsize : buf[node + 28]? = some (buf.getD (node + 28) 0) := by
        rw [List.getD_eq_getElem _ _ (by omega), List.getElem?_eq_getElem]
      have whole (size : Nat) : (slice buf (node + 40) size).length = size ↔
          node + 40 + size ≤ buf.length := by
        rw [slice, List.length_take, List.length_drop]
        omega
      simp only [outName, if_true, nsize, Option.bind_eq_bind, Option.bind_some, kstrndupAt, whole,
        true_implies]
      generalize (buf.getD (node + 28) 0).toNat = size
      split
      · rename_i read
        simp [read]
      · rename_i outside
        simp [outside]

theorem nextNode_inside {blockOffs : UInt32} (inside : blockOffs.toNat + 36 ≤ buf.length) :
    ∃ next, nextNode order buf blockOffs = some next := by
  have totlen : je32At order buf (blockOffs.toNat + 4) =
      some (nativeAt order buf (blockOffs.toNat + 4)) :=
    Iff.mpr je32At_eq_some_iff ⟨by omega, rfl⟩
  simp [nextNode, totlen]

/-- A round reads inside exactly when what it looks at of the node is inside. -/
theorem scanNode_exists {blockOffs : UInt32} (below : blockOffs.toNat < buf.length) :
    (∃ reached, scanNode order buf name wantName (blockOffs, valid) = some reached) ↔
      NodeInside order buf name wantName valid blockOffs.toNat := by
  simp only [scanNode, if_pos below, Option.bind_eq_bind]
  generalize nodeIs : blockOffs.toNat = node
  constructor
  · intro ⟨reached, round⟩
    obtain ⟨dirent, checked, round⟩ := Option.bind_eq_some_iff.mp round
    refine ⟨direntValid_exists.mp ⟨dirent, checked⟩, ?_⟩
    intro isDirent
    rw [direntValid_iff.mpr isDirent, Option.some.injEq] at checked
    rw [← checked, if_pos rfl] at round
    obtain ⟨openwrt, compared, round⟩ := Option.bind_eq_some_iff.mp round
    have openwrtInside := memcmpEq_exists.mp ⟨openwrt, compared⟩
    have whole : node + 40 ≤ buf.length := by omega
    obtain ⟨same, comparedSame, openwrtIff⟩ := memcmpEq_inside openwrtInside
    rw [compared, Option.some.injEq] at comparedSame
    subst comparedSame
    have wanted (other : ¬ NamedAt buf node OPENWRT_NAME) : node + 40 + name.length ≤ buf.length ∧
        (NamedAt buf node name → valid = true →
          ∃ out, outName buf wantName node = some out) := by
      rw [if_neg (fun same => other (openwrtIff.mp same))] at round
      obtain ⟨found, comparedName, round⟩ := Option.bind_eq_some_iff.mp round
      have nameInside := memcmpEq_exists.mp ⟨found, comparedName⟩
      obtain ⟨same, comparedSame, nameIff⟩ := memcmpEq_inside nameInside
      rw [comparedName, Option.some.injEq] at comparedSame
      subst comparedSame
      refine ⟨nameInside, ?_⟩
      intro named isValid
      rw [if_pos (nameIff.mpr named), if_pos isValid] at round
      obtain ⟨out, read, -⟩ := Option.bind_eq_some_iff.mp round
      exact ⟨out, read⟩
    refine ⟨openwrtInside, fun other => (wanted other).1, ?_⟩
    intro other named isValid
    exact (outName_exists whole).mp ((wanted other).2 named isValid)
  · intro inside
    obtain ⟨dirent, checked⟩ := direntValid_exists.mpr inside.header
    rw [checked, Option.bind_some]
    cases dirent with
    | false => exact ⟨_, rfl⟩
    | true =>
        have isDirent := direntValid_iff.mp checked
        have names := inside.name isDirent
        have nodeInside := isDirent.inside
        obtain ⟨openwrt, compared, openwrtIff⟩ := memcmpEq_inside names.openwrt
        obtain ⟨next, nextRead⟩ := @nextNode_inside order buf blockOffs (nodeIs ▸ nodeInside)
        rw [if_pos rfl, compared, Option.bind_some]
        cases openwrt with
        | true => simp [nextRead]
        | false =>
            have other : ¬ NamedAt buf node OPENWRT_NAME := fun same => by
              have impossible := openwrtIff.mpr same
              cases impossible
            obtain ⟨found, comparedName, nameIff⟩ := memcmpEq_inside (names.wanted other)
            simp only [Bool.false_eq_true, if_false, comparedName, Option.bind_some]
            cases found with
            | false => simp [nextRead]
            | true =>
                cases valid with
                | false => simp
                | true =>
                    have whole := names.openwrt
                    obtain ⟨out, read⟩ := (@outName_exists buf wantName node (by omega)).mpr
                      (names.text other (nameIff.mp rfl) rfl)
                    simp [read]

/-! ## Lookups in a block -/

/-- The scan of the block, with the flag `valid` at its start, comes to no place twice and reads each
node inside the block. -/
structure DirentsInBlock (order : ByteOrder) (block name : List UInt8) (wantName valid : Bool) :
    Prop where
  once : ∀ place, ReflTransGen (Follows (scanNode order block name wantName)) (0, valid) place →
    ¬ Returns (Follows (scanNode order block name wantName)) place
  inside : ∀ blockOffs flag,
    ReflTransGen (Follows (scanNode order block name wantName)) (0, valid) (blockOffs, flag) →
    blockOffs.toNat < block.length → NodeInside order block name wantName flag blockOffs.toNat

instance finiteScan : Finite (UInt32 × Bool) := by
  have words : Finite UInt32 := Finite.of_injective UInt32.toFin fun _ _ => UInt32.toFin_inj.mp
  infer_instance

theorem scan_ended_iff :
    (∃ fuel result, loop (scanNode order buf name wantName) fuel (0, valid) = .done result) ↔
      DirentsInBlock order buf name wantName valid := by
  rw [loop_ended_iff]
  constructor
  · intro ⟨once, inside⟩
    refine ⟨once, ?_⟩
    intro blockOffs flag reached below
    exact (scanNode_exists below).mp (Option.ne_none_iff_exists'.mp (inside _ reached))
  · intro ⟨once, inside⟩
    refine ⟨once, ?_⟩
    intro ⟨blockOffs, flag⟩ reached
    by_cases below : blockOffs.toNat < buf.length
    · exact Option.ne_none_iff_exists'.mpr ((scanNode_exists below).mpr (inside _ _ reached below))
    · simp [scanNode, below]

theorem je16At_slice {start count : Nat} (within : place + 2 ≤ count)
    (inside : start + count ≤ buf.length) :
    je16At order (slice buf start count) place = je16At order buf (start + place) := by
  have length : (slice buf start count).length = count := by
    rw [slice, List.length_take, List.length_drop]
    omega
  unfold je16At
  rw [if_pos (by omega), if_pos (by omega), getD_slice (by omega), getD_slice (by omega),
    Nat.add_assoc]

section Blocks

variable {mtd : MtdInfo} {stop : Int} {fuel rounds offs extra : Nat} {result : Lookup}

/-- A block that the lookup scans. -/
structure Scanned (mtd : MtdInfo) (place : Nat) : Prop where
  inside : place + mtd.erasesize ≤ mtd.size
  magic : je16At mtd.order mtd.flash place = some JFFS2_MAGIC_BITMASK

/-- The rest of a lookup, from the outcome of the scan of a block. -/
def afterBlock (next : Bool → Outcome Lookup) (offs : Nat) : BlockEnd → Outcome Lookup
  | .more valid => next valid
  | .invalid => .done (.error .EINVAL)
  | .found out => .done (.ok (offs, out))

/-- What a round of a lookup comes to: the end, the next block, an error, or the scan of a block. -/
theorem findInBlocks_round (positive : 0 < mtd.erasesize) :
    findInBlocks mtd name wantName fuel stop (rounds + 1) offs valid = .done (.error .ENOENT) ∧
        stop ≤ offs ∨
      (offs : Int) < stop ∧ ((findInBlocks mtd name wantName fuel stop (rounds + 1) offs valid =
          findInBlocks mtd name wantName fuel stop rounds (offs + mtd.erasesize) valid ∧
            ¬ Scanned mtd offs) ∨
        findInBlocks mtd name wantName fuel stop (rounds + 1) offs valid = .done (.error .EINVAL) ∧
            ¬ Scanned mtd offs ∨
        Scanned mtd offs ∧ findInBlocks mtd name wantName fuel stop (rounds + 1) offs valid =
          (loop (scanNode mtd.order (slice mtd.flash offs mtd.erasesize) name wantName) fuel
              (0, valid)).bind
            (afterBlock (findInBlocks mtd name wantName fuel stop rounds (offs + mtd.erasesize)) offs)) := by
  by_cases below : (offs : Int) < stop
  · refine .inr ⟨below, ?_⟩
    simp only [findInBlocks, if_pos below]
    cases read : mtdRead mtd offs 2 with
    | error err =>
        refine .inl ⟨rfl, ?_⟩
        intro scanned
        have magicInside := Iff.mp je16At_exists ⟨_, scanned.magic⟩
        rw [(mtdRead_ok_iff (by decide)).mpr ⟨magicInside, rfl⟩] at read
        cases read
    | ok magic =>
        obtain ⟨magicInside, rfl⟩ := (mtdRead_ok_iff (by decide)).mp read
        have word := @je16At_slice mtd.order mtd.flash 0 offs 2 (by decide) magicInside
        simp only [word, Nat.add_zero]
        by_cases isBlock : je16At mtd.order mtd.flash offs = some JFFS2_MAGIC_BITMASK
        · simp only [isBlock, ne_eq, not_true_eq_false, if_false]
          cases readBlock : mtdRead mtd offs mtd.erasesize with
          | error err =>
              refine .inr (.inl ⟨rfl, ?_⟩)
              intro scanned
              rw [(mtdRead_ok_iff positive).mpr ⟨scanned.inside, rfl⟩] at readBlock
              cases readBlock
          | ok block =>
              obtain ⟨inside, rfl⟩ := (mtdRead_ok_iff positive).mp readBlock
              refine .inr (.inr ⟨⟨inside, isBlock⟩, ?_⟩)
              congr 1
        · simp only [ne_eq, isBlock, not_false_iff, if_true]
          exact .inl ⟨trivial, fun scanned => isBlock scanned.magic⟩
  · refine .inl ⟨?_, by omega⟩
    simp only [findInBlocks, if_neg below]

theorem findInBlocks_stops (beyond : stop ≤ offs) (some' : 0 < rounds) :
    findInBlocks mtd name wantName fuel stop rounds offs valid = .done (.error .ENOENT) := by
  cases rounds with
  | zero => omega
  | succ rounds => simp [findInBlocks, not_lt.mpr beyond]

/-- More fuel for the blocks does not change an end. -/
theorem findInBlocks_more
    (done : findInBlocks mtd name wantName fuel stop rounds offs valid = .done result) (extra : Nat) :
    findInBlocks mtd name wantName (fuel + extra) stop rounds offs valid = .done result := by
  induction rounds generalizing offs valid with
  | zero => cases done
  | succ rounds ih =>
      simp only [findInBlocks] at done ⊢
      split at done
      · rename_i below
        rw [if_pos below]
        cases read : mtdRead mtd offs 2 with
        | error err =>
            rw [read] at done
            exact ih done
        | ok magic =>
            simp only [read] at done ⊢
            split at done
            · rename_i other
              rw [if_pos other]
              exact ih done
            · rename_i isBlock
              rw [if_neg isBlock]
              cases readBlock : mtdRead mtd offs mtd.erasesize with
              | error err =>
                  rw [readBlock] at done
                  exact done
              | ok block =>
                  simp only [readBlock, Outcome.bind_done_iff] at done ⊢
                  obtain ⟨reached, scanned, rest⟩ := done
                  refine ⟨reached, loop_more scanned extra, ?_⟩
                  cases reached with
                  | more flag => exact ih rest
                  | invalid => exact rest
                  | found out => exact rest
      · rename_i beyond
        rw [if_neg beyond]
        exact done

/-- A lookup ends when the scans of its blocks do. -/
theorem findInBlocks_ends (positive : 0 < mtd.erasesize) (some' : 0 < rounds)
    (enough : stop < offs + rounds)
    (sound : ∀ place flag, offs ≤ place → (place : Int) < stop → Scanned mtd place →
      DirentsInBlock mtd.order (slice mtd.flash place mtd.erasesize) name wantName flag) :
    ∃ fuel result, findInBlocks mtd name wantName fuel stop rounds offs valid = .done result := by
  induction rounds generalizing offs valid with
  | zero => omega
  | succ rounds ih =>
      by_cases below : (offs : Int) < stop
      · have later (flag : Bool) : ∃ fuel result, findInBlocks mtd name wantName fuel stop rounds
            (offs + mtd.erasesize) flag = .done result := by
          apply ih (by omega) (by omega)
          intro place flag reached
          exact sound place flag (by omega)
        by_cases scanned : Scanned mtd offs
        · obtain ⟨fuel, reached, done⟩ := scan_ended_iff.mpr (sound offs valid (Nat.le_refl _) below scanned)
          obtain ⟨more, result, rest⟩ : ∃ more result,
              afterBlock (findInBlocks mtd name wantName more stop rounds (offs + mtd.erasesize)) offs
                reached = .done result := by
            cases reached with
            | more flag => exact later flag
            | invalid => exact ⟨0, _, rfl⟩
            | found out => exact ⟨0, _, rfl⟩
          refine ⟨fuel + more, result, ?_⟩
          rcases @findInBlocks_round name wantName valid mtd stop (fuel + more) rounds offs positive with
            ⟨-, beyond⟩ | ⟨-, ⟨-, other⟩ | ⟨-, other⟩ | ⟨-, same⟩⟩
          · omega
          · exact absurd scanned other
          · exact absurd scanned other
          · rw [same, loop_more done more]
            cases reached with
            | more flag =>
                rw [Nat.add_comm]
                exact findInBlocks_more rest fuel
            | invalid => exact rest
            | found out => exact rest
        · obtain ⟨fuel, result, done⟩ := later valid
          rcases @findInBlocks_round name wantName valid mtd stop fuel rounds offs positive with
            ⟨same, -⟩ | ⟨-, ⟨same, -⟩ | ⟨same, -⟩ | ⟨here, -⟩⟩
          · exact ⟨fuel, _, same⟩
          · exact ⟨fuel, result, same.trans done⟩
          · exact ⟨fuel, _, same⟩
          · exact absurd here scanned
      · exact ⟨0, _, findInBlocks_stops (Int.not_lt.mp below) (Nat.succ_pos rounds)⟩

end Blocks

/-- On a device of one block the lookup ends inside the buffer exactly when there is no jffs2 or its
nodes are in order; in a region it does when those of each block are. -/
theorem jffs2FindFile_ended_iff (name : List UInt8) (wantName : Bool) :
    (∀ order block, (∃ fuel result,
        jffs2FindFile ⟨block, block.length, order⟩ name wantName fuel 0 block.length = .done result) ↔
      (je16At order block 0 = some JFFS2_MAGIC_BITMASK →
        DirentsInBlock order block name wantName false)) ∧
    ∀ (mtd : MtdInfo) (offs : Nat) (size : Int), 0 < mtd.erasesize →
      (∀ place flag, offs ≤ place → (place : Int) < offs + size → Scanned mtd place →
        DirentsInBlock mtd.order (slice mtd.flash place mtd.erasesize) name wantName flag) →
      ∃ fuel result, jffs2FindFile mtd name wantName fuel offs size = .done result := by
  constructor
  · intro order block
    simp only [jffs2FindFile, Int.toNat_natCast, Int.natCast_zero, Int.zero_add]
    rcases Nat.eq_zero_or_pos block.length with empty | positive
    · have nothing : je16At order block 0 ≠ some JFFS2_MAGIC_BITMASK := by
        simp [je16At, empty]
      simp only [nothing, false_implies, iff_true]
      exact ⟨0, _, findInBlocks_stops (by omega) (Nat.succ_pos _)⟩
    · have whole : slice block 0 block.length = block := by
        rw [slice, List.drop_zero, List.take_length]
      have rest (fuel : Nat) (flag : Bool) : findInBlocks ⟨block, block.length, order⟩ name wantName fuel
          block.length block.length (0 + block.length) flag = .done (.error .ENOENT) :=
        findInBlocks_stops (by omega) positive
      have round (fuel : Nat) := @findInBlocks_round name wantName false ⟨block, block.length, order⟩
        block.length fuel block.length 0 positive
      simp only [rest, whole] at round
      constructor
      · intro given magic
        obtain ⟨fuel, result, done⟩ := given
        have scanned : Scanned ⟨block, block.length, order⟩ 0 := ⟨by simp [MtdInfo.size], magic⟩
        rcases round fuel with ⟨-, beyond⟩ | ⟨-, ⟨-, other⟩ | ⟨-, other⟩ | ⟨-, same⟩⟩
        · omega
        · exact absurd scanned other
        · exact absurd scanned other
        · rw [same, Outcome.bind_done_iff] at done
          obtain ⟨reached, ended, -⟩ := done
          exact scan_ended_iff.mp ⟨fuel, reached, ended⟩
      · intro sound
        by_cases magic : je16At order block 0 = some JFFS2_MAGIC_BITMASK
        · obtain ⟨fuel, reached, ended⟩ := scan_ended_iff.mpr (sound magic)
          refine ⟨fuel, ?_⟩
          rcases round fuel with ⟨same, -⟩ | ⟨-, ⟨same, -⟩ | ⟨same, -⟩ | ⟨-, same⟩⟩
          · exact ⟨_, same⟩
          · exact ⟨_, same⟩
          · exact ⟨_, same⟩
          · rw [same, ended]
            cases reached with
            | more flag => exact ⟨_, rest fuel flag⟩
            | invalid => exact ⟨_, rfl⟩
            | found out => exact ⟨_, rfl⟩
        · refine ⟨0, ?_⟩
          rcases round 0 with ⟨same, -⟩ | ⟨-, ⟨same, -⟩ | ⟨same, -⟩ | ⟨scanned, -⟩⟩
          · exact ⟨_, same⟩
          · exact ⟨_, same⟩
          · exact ⟨_, same⟩
          · exact absurd scanned.magic magic
  · intro mtd offs size positive sound
    exact findInBlocks_ends positive (Nat.succ_pos _) (by omega) sound

/-- Two erased blocks. -/
theorem jffs2FindFile_ends_erased : ∃ fuel result,
    jffs2FindFile ⟨List.replicate 24 0xff, 12, .big⟩ KERNEL_NAME false fuel 0 24 = .done result := by
  apply (jffs2FindFile_ended_iff KERNEL_NAME false).2 ⟨List.replicate 24 0xff, 12, .big⟩ 0 24 (by decide)
  intro place flag _ below scanned
  have magic : ∀ place < 24,
      je16At .big (List.replicate 24 0xff) place ≠ some JFFS2_MAGIC_BITMASK := by decide
  exact absurd scanned.magic (magic place (by omega))

/-! ## Blocks that the lookup does not survive -/

/-- A dirent of length zero, its CRC in order. -/
def zeroDirent : List UInt8 :=
  let front := [0x19, 0x85, 0xe0, 0x01] ++ List.replicate 19 0 ++ [1] ++ List.replicate 8 0
  front ++ be32 (crc32 0 front) ++ List.replicate 28 0

/-- The front of a dirent at the end of a block. -/
def cutDirent : List UInt8 := [0x19, 0x85, 0xe0, 0x01]

theorem jffs2FindFile_endless_outside :
    (∀ fuel, jffs2FindFile ⟨zeroDirent, 64, .big⟩ CFERAM_NAME false fuel 0 64 = .endless) ∧
      jffs2FindFile ⟨cutDirent, 4, .big⟩ CFERAM_NAME false 1 0 4 = .outside := by
  constructor
  · intro fuel
    have back : Follows (scanNode .big zeroDirent CFERAM_NAME false) (0, false) (0, false) := by
      show scanNode .big zeroDirent CFERAM_NAME false (0, false) = some (.inl (0, false))
      decide +kernel
    have scanned : Scanned ⟨zeroDirent, 64, .big⟩ 0 := ⟨by rfl, by rfl⟩
    have whole : slice zeroDirent 0 64 = zeroDirent := by rfl
    rcases @findInBlocks_round CFERAM_NAME false false ⟨zeroDirent, 64, .big⟩ 64 fuel 64 0
      (by decide) with ⟨-, beyond⟩ | ⟨-, ⟨-, other⟩ | ⟨-, other⟩ | ⟨-, same⟩⟩
    · exact absurd beyond (by decide)
    · exact absurd scanned other
    · exact absurd scanned other
    · refine same.trans ?_
      rw [whole, loop_endless back]
      rfl
  · rfl

theorem jffs2FindFile_not_total :
    ¬ ∀ (order : ByteOrder) (block name : List UInt8) (wantName : Bool), ∃ fuel result,
      jffs2FindFile ⟨block, block.length, order⟩ name wantName fuel 0 block.length = .done result := by
  intro always
  have length : zeroDirent.length = 64 := by rfl
  obtain ⟨fuel, result, done⟩ := always .big zeroDirent CFERAM_NAME false
  rw [length] at done
  rw [show ((64 : Nat) : Int) = 64 from rfl, jffs2FindFile_endless_outside.1] at done
  cases done

end Rut9xx.Mtdsplit
