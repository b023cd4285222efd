import Rut9xx.Mtd.Write
import Rut9xx.Mtd.Device

namespace Rut9xx.Mtd

open Rut9xx.Data

/-! # The recovery flag across a write -/

variable {board : Board} {options : WriteOptions} {memory : FlashMemory} {es part dev : Nat}
  {next : List Nat} {log before after : List FlashEvent} {active : Bool} {writer opened : Writer}

def FlagIs (options : WriteOptions) (memory : FlashMemory) (recoveryActive : Bool)
    (log : List FlashEvent) : Prop :=
  ∀ part, options.tplUbootArgsPart = some part →
    readBytes (replay memory log) part 0 4 = flagMagic recoveryActive

/-- The operations on the flag's device and no others. -/
def OnFlag (options : WriteOptions) (log : List FlashEvent) : Prop :=
  ∀ event ∈ log, options.tplUbootArgsPart = some event.dev

theorem OnFlag.nil : OnFlag options [] := by
  intro event member
  cases member

theorem FlagIs.append (holds : FlagIs options memory active before)
    (others : ∀ event ∈ after, options.tplUbootArgsPart ≠ some event.dev) :
    FlagIs options memory active (before ++ after) := by
  intro part flag
  rw [← holds part flag, replay_append]
  refine readBytes_congr fun offset _ _ => replay_of_outside fun event member onPart => ?_
  exact absurd (onPart ▸ flag) (others event member)

theorem readBytes_take {memory : FlashMemory} {start : Nat} (wide : 4 ≤ es) :
    (readBytes memory part start es).take 4 = readBytes memory part start 4 := by
  obtain ⟨rest, rfl⟩ := Nat.exists_eq_add_of_le wide
  rw [readBytes_append, List.take_left' readBytes_length]

theorem flagMagic_length : (flagMagic active).length = 4 := by
  cases active <;> rfl

/-- A call that returns leaves the magic, and touches nothing that holds it already. -/
theorem mtdTplRecoverflagWrite_spec
    (ran : mtdTplRecoverflagWrite board memory part active writer = .ok opened) :
    ∃ more, opened = { writer with
        globals := ⟨(board.chip part).size, (board.chip part).erasesize, (board.chip part).nand⟩
        log := writer.log ++ more } ∧
      (∀ event ∈ more, event.dev = part) ∧
      readBytes (replay memory (writer.log ++ more)) part 0 4 = flagMagic active ∧
      (readBytes (replay memory writer.log) part 0 4 = flagMagic active → more = []) := by
  have wide := (board.chip part).wide
  cases openEq : mtdCheckOpen board part with
  | none =>
      rw [mtdTplRecoverflagWrite, openEq] at ran
      cases ran
  | some globals =>
      have globalsEq := mtdCheckOpen_eq openEq
      subst globalsEq
      rw [mtdTplRecoverflagWrite, openEq] at ran
      simp only at ran
      split at ran
      · cases ran
      · rw [readBytes_take wide] at ran
        split at ran
        · rename_i already
          rw [Except.ok.injEq] at ran
          refine ⟨[], by rw [← ran, List.append_nil], by simp, ?_, fun _ => rfl⟩
          rw [List.append_nil]
          exact already
        · rename_i differs
          split at ran
          · cases accepted : (board.chip part).accepts 0 (board.chip part).erasesize with
            | none =>
                rw [accepted] at ran
                cases ran
            | some len =>
                have whole : len = (board.chip part).erasesize := by
                  have bound := Nat.le_of_dvd (board.chip part).nonempty (board.chip part).aligned
                  rw [Chip.accepts] at accepted
                  split at accepted
                  · cases accepted
                  · rw [← Option.some.inj accepted, Nat.sub_zero, Nat.min_eq_left bound]
                let data := flagMagic active ++
                  (readBytes (replay memory writer.log) part 0 (board.chip part).erasesize).drop 4
                have dataLength : data.length = (board.chip part).erasesize := by
                  rw [List.length_append, flagMagic_length, List.length_drop, readBytes_length]
                  omega
                rw [accepted, Except.ok.injEq, whole] at ran
                have filled : opened = { writer with
                    globals := ⟨(board.chip part).size, (board.chip part).erasesize,
                      (board.chip part).nand⟩
                    log := writer.log ++ fillSlot (board.chip part).erasesize ⟨part, 0⟩ data } := by
                  rw [← ran]
                  simp only [fillSlot, List.append_assoc, Nat.zero_mul, List.singleton_append]
                  rw [← List.take_of_length_le (Nat.le_of_eq dataLength)]
                refine ⟨_, filled, ?_, ?_, fun holds => absurd holds differs⟩
                · intro event member
                  simp only [fillSlot, List.mem_cons, List.not_mem_nil, or_false] at member
                  rcases member with rfl | rfl <;> rfl
                · have stored := @readSlot_fillSlot (replay memory writer.log) _ ⟨part, 0⟩ _ dataLength
                  rw [readSlot, Nat.zero_mul] at stored
                  rw [replay_append, ← readBytes_take wide, stored]
                  exact List.take_left' flagMagic_length
          · cases ran

theorem setRecoverFlag_spec (ran : setRecoverFlag board options memory active writer = .ok opened) :
    ∃ globals more, opened = { writer with globals := globals, log := writer.log ++ more } ∧
      (globals = writer.globals ∨ ∃ part, options.tplUbootArgsPart = some part ∧
        globals = ⟨(board.chip part).size, (board.chip part).erasesize, (board.chip part).nand⟩) ∧
      OnFlag options more ∧ FlagIs options memory active (writer.log ++ more) ∧
      (FlagIs options memory active writer.log → more = []) := by
  cases flag : options.tplUbootArgsPart with
  | none =>
      rw [setRecoverFlag, flag, Except.ok.injEq] at ran
      refine ⟨writer.globals, [], by rw [← ran, List.append_nil], .inl rfl, OnFlag.nil, ?_,
        fun _ => rfl⟩
      intro part impossible
      rw [flag] at impossible
      cases impossible
  | some part =>
      rw [setRecoverFlag, flag] at ran
      obtain ⟨more, openedEq, onPart, holds, idle⟩ := mtdTplRecoverflagWrite_spec ran
      refine ⟨_, more, openedEq, .inr ⟨part, rfl, rfl⟩, ?_, ?_, fun already => idle (already part flag)⟩
      · intro event member
        rw [flag, onPart event member]
      · intro other sameFlag
        rw [flag, Option.some.injEq] at sameFlag
        rw [← sameFlag]
        exact holds

/-- Setting the flag again does nothing. -/
theorem setRecoverFlag_idle (set : FlagIs options memory active writer.log) :
    (∃ globals, setRecoverFlag board options memory active writer =
        .ok { writer with globals := globals }) ∨
      setRecoverFlag board options memory active writer = .error (.exit writer.log) ∨
      setRecoverFlag board options memory active writer = .error (.stuck writer.log) := by
  rw [setRecoverFlag]
  cases flag : options.tplUbootArgsPart with
  | none => exact .inl ⟨writer.globals, rfl⟩
  | some part =>
      simp only [mtdTplRecoverflagWrite]
      cases openEq : mtdCheckOpen board part with
      | none => exact .inr (.inl rfl)
      | some globals =>
          have globalsEq := mtdCheckOpen_eq openEq
          subst globalsEq
          by_cases large : writer.globals.erasesize < (board.chip part).erasesize
          · exact .inr (.inr (if_pos large))
          · simp only [if_neg large, readBytes_take (board.chip part).wide, set part flag, if_true]
            exact .inl ⟨_, rfl⟩

end Rut9xx.Mtd
