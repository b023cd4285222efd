import Rut9xx.Data.BlockRewrite
import Rut9xx.Mtd.Write
import Rut9xx.Mtd.Device

namespace Rut9xx.Mtd

open Rut9xx.Data

/-! # The frame of the commands that repair an image header

Each reads the erase block of the header, changes fields in that copy and
writes the block back.  An access outside the copy is `Halt.stuck`: what the
program does from there on is anyone's guess.
-/

/-- What can fail beside the chip: the two allocations, and reads by place and length. -/
structure Host where
  blockAllocated : Bool
  dataAllocated : Bool
  readFails : Nat → Nat → Bool

/-- Nothing fails. -/
def Host.sound : Host where
  blockAllocated := true
  dataAllocated := true
  readFails _ _ := false

variable (board : Board) (host : Host) (memory : FlashMemory) (dev : Nat)

/-- `none` is an error or a short count. -/
def pread (len pos : Nat) : Option (List UInt8) :=
  if (len = 0 ∨ pos + len ≤ (board.chip dev).size) ∧ host.readFails pos len = false then
    some (load (memory dev) pos len)
  else none

def orExit {α : Type} (value : Option α) : Except Halt α :=
  match value with
  | none => .error (.exit [])
  | some value => .ok value

/-- The value of an access that may lie outside the copy of the block. -/
def orStuck {α : Type} (value : Option α) : Except Halt α :=
  match value with
  | none => .error (.stuck [])
  | some value => .ok value

/-- What `mtd_check_open` finds out about a chip. -/
abbrev Chip.globals (chip : Chip) : Globals := ⟨chip.size, chip.erasesize, chip.nand⟩

def rewriteBlock (globals : Globals) (pos : Nat) (bytes : List UInt8) : Except Halt (List FlashEvent) :=
  if (board.chip dev).erases pos globals.erasesize then
    match (board.chip dev).accepts pos bytes.length with
    | none => .error (.exit [.erase dev pos globals.erasesize])
    | some len =>
        let log := [.erase dev pos globals.erasesize, .program dev pos (bytes.take len)]
        if len = globals.erasesize then .ok log else .error (.exit log)
  else .error (.exit [])

/-- The logs with which a call can return: any, if it leaves its memory. -/
def MayReturn (call : Except Halt (List FlashEvent)) (log : List FlashEvent) : Prop :=
  match call with
  | .ok done => log = done
  | .error (.exit _) => False
  | .error (.stuck _) => True

/-- The call ends without writing, by `exit` or with a return. -/
def WritesNothing (call : Except Halt (List FlashEvent)) : Prop :=
  call = .ok [] ∨ call = .error (.exit [])

variable {board : Board} {host : Host} {memory : FlashMemory} {dev : Nat}

@[simp] theorem orExit_eq_ok {α : Type} {value : Option α} {result : α} :
    orExit value = .ok result ↔ value = some result := by
  cases value <;> simp [orExit]

@[simp] theorem orStuck_eq_ok {α : Type} {value : Option α} {result : α} :
    orStuck value = .ok result ↔ value = some result := by
  cases value <;> simp [orStuck]

theorem orExit_some_bind {α β : Type} (value : α) (next : α → Except Halt β) :
    (orExit (some value) >>= next) = next value := rfl

theorem orStuck_some_bind {α β : Type} (value : α) (next : α → Except Halt β) :
    (orStuck (some value) >>= next) = next value := rfl

theorem orStuck_none_bind {α β : Type} (next : α → Except Halt β) :
    (orStuck none >>= next) = .error (.stuck []) := rfl

theorem orExit_require_bind {β : Type} {condition : Bool} (holds : condition = true)
    (next : Unit → Except Halt β) : (orExit (require condition) >>= next) = next () := by
  rw [holds]
  rfl

/-- A step that may end the program, for a property that such an end has. -/
theorem orExit_bind {α β : Type} {value : Option α} {next : α → Except Halt β}
    (Outcome : Except Halt β → Prop) (fails : Outcome (.error (.exit [])))
    (succeeds : ∀ result, value = some result → Outcome (next result)) :
    Outcome (orExit value >>= next) := by
  cases valueEq : value with
  | none => exact fails
  | some result => exact succeeds result valueEq

theorem pread_some {len pos : Nat} {bytes : List UInt8}
    (read : pread board host memory dev len pos = some bytes) :
    (len = 0 ∨ pos + len ≤ (board.chip dev).size) ∧ bytes = load (memory dev) pos len := by
  rw [pread] at read
  split at read
  · rename_i done
    exact ⟨done.1, (Option.some.inj read).symm⟩
  · cases read

theorem Chip.erasesize_le (chip : Chip) : chip.erasesize ≤ chip.size :=
  Nat.le_of_dvd chip.nonempty chip.aligned

theorem Chip.erasesize_toNat (chip : Chip) :
    (UInt32.ofNat chip.erasesize).toNat = chip.erasesize := by
  have bound := chip.erasesize_le
  have small := chip.small
  rw [UInt32.toNat_ofNat', Nat.mod_eq_of_lt (by omega)]

theorem Chip.size_toNat (chip : Chip) : (UInt32.ofNat chip.size).toNat = chip.size := by
  have small := chip.small
  rw [UInt32.toNat_ofNat', Nat.mod_eq_of_lt (by omega)]

theorem rewriteBlock_cases {block : Nat} {bytes : List UInt8}
    (full : bytes.length = (board.chip dev).erasesize) (inside : block < (board.chip dev).blocks) :
    let call := rewriteBlock board dev (board.chip dev).globals
      (block * (board.chip dev).erasesize) bytes
    (∃ log, call = .error (.exit log)) ∨
      call = .ok (fillSlot (board.chip dev).erasesize ⟨dev, block⟩ bytes) := by
  intro call
  have below := Nat.mul_le_mul_right (board.chip dev).erasesize inside
  rw [Nat.succ_mul, ← Chip.size_eq] at below
  simp only [call, rewriteBlock, Chip.accepts, full]
  split
  · split
    · exact .inl ⟨_, rfl⟩
    · rename_i len accepted
      split at accepted
      · cases accepted
      · rw [Option.some.injEq, Nat.min_eq_left (by omega)] at accepted
        rw [← accepted, if_pos rfl, List.take_of_length_le (by omega)]
        exact .inr rfl
  · exact .inl ⟨_, rfl⟩

/-- The device opens, and one of its blocks can be erased and written. -/
structure Works (board : Board) (dev block : Nat) : Prop where
  opens : board.opens dev = true
  good : (board.chip dev).isGood block = true
  erases : (board.chip dev).eraseFails block = false
  writes : (board.chip dev).writeFails (block * (board.chip dev).erasesize) = false

theorem rewriteBlock_works {block : Nat} {bytes : List UInt8} (works : Works board dev block)
    (full : bytes.length = (board.chip dev).erasesize) (inside : block < (board.chip dev).blocks) :
    rewriteBlock board dev (board.chip dev).globals (block * (board.chip dev).erasesize) bytes =
      .ok (fillSlot (board.chip dev).erasesize ⟨dev, block⟩ bytes) := by
  have positive := (board.chip dev).erasesize_pos
  have below := Nat.mul_le_mul_right (board.chip dev).erasesize inside
  rw [Nat.succ_mul, ← Chip.size_eq] at below
  have erased := Chip.erases_block.mpr ⟨inside, works.good, works.erases⟩
  have accepted : (board.chip dev).accepts (block * (board.chip dev).erasesize)
      (board.chip dev).erasesize = some (board.chip dev).erasesize := by
    rw [Chip.accepts, works.writes, if_neg (by simp; omega), Nat.min_eq_left (by omega)]
  rw [rewriteBlock, if_pos erased, full, accepted]
  simp only [if_true]
  rw [List.take_of_length_le (by omega)]
  rfl

theorem wide_32 : 4 ≤ 32 := by decide

end Rut9xx.Mtd
