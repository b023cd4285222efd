import Rut9xx.Mtd.RecoveryFlag

namespace Rut9xx.Mtd

open Rut9xx.Data

/-! # What any plain run leaves in its log, whether it returns or not -/

/-- An operation on one of the devices; an erase is one the device takes. -/
def Allowed (board : Board) (devs : List Nat) (event : FlashEvent) : Prop :=
  event.dev ∈ devs ∧
    ∀ dev start len, event = .erase dev start len → (board.chip dev).erases start len = true

/-- After the operations that set the recovery flag come those on the devices. -/
def Logged (board : Board) (options : WriteOptions) (memory : FlashMemory) (devs : List Nat)
    (log : List FlashEvent) : Prop :=
  ∃ prelude main, log = prelude ++ main ∧ OnFlag options prelude ∧
    FlagIs options memory true prelude ∧ ∀ event ∈ main, Allowed board devs event

structure Sound (board : Board) (options : WriteOptions) (memory : FlashMemory) (devs : List Nat)
    (writer : Writer) : Prop where
  dev : writer.dev ∈ devs
  next : ∀ dev ∈ writer.next, dev ∈ devs
  noFile : writer.jffs2file = none
  notReplaced : writer.jffs2Replaced = false
  logged : Logged board options memory devs writer.log

/-- Where a run goes on its state is sound; where it ends its log is. -/
def Safe (board : Board) (options : WriteOptions) (memory : FlashMemory) (devs : List Nat) :
    Except Halt Writer → Prop
  | .ok writer => Sound board options memory devs writer
  | .error (.exit log) => Logged board options memory devs log
  | .error (.stuck log) => Logged board options memory devs log

section

variable {board : Board} {options : WriteOptions} {memory : FlashMemory} {devs : List Nat}
  {writer : Writer} {fuel : Nat}

theorem Logged.append {log : List FlashEvent} (logged : Logged board options memory devs log)
    {event : FlashEvent} (allowed : Allowed board devs event) :
    Logged board options memory devs (log ++ [event]) := by
  obtain ⟨prelude, main, rfl, onFlag, set, mainAllowed⟩ := logged
  refine ⟨prelude, main ++ [event], List.append_assoc _ _ _, onFlag, set, fun other member => ?_⟩
  rcases List.mem_append.mp member with earlier | here
  · exact mainAllowed other earlier
  · rw [List.mem_singleton.mp here]
    exact allowed

theorem Logged.flag {log : List FlashEvent} (logged : Logged board options memory devs log)
    (apart : ∀ dev ∈ devs, options.tplUbootArgsPart ≠ some dev) :
    FlagIs options memory true log := by
  obtain ⟨prelude, main, rfl, -, set, mainAllowed⟩ := logged
  exact set.append fun event member => apart event.dev (mainAllowed event member).1

theorem Sound.write (sound : Sound board options memory devs writer) (bytes : List UInt8) :
    Sound board options memory devs (write board writer bytes).2 := by
  rw [Mtd.write]
  split
  · exact sound
  · refine { sound with logged := sound.logged.append ⟨sound.dev, ?_⟩ }
    intro dev start len impossible
    cases impossible

theorem Sound.mtdEraseBlock (sound : Sound board options memory devs writer) {offset : Nat}
    {erased : Writer} (done : mtdEraseBlock board writer offset = some erased) :
    Sound board options memory devs erased := by
  rw [Mtd.mtdEraseBlock] at done
  split at done
  · rename_i accepted
    rw [← Option.some.inj done]
    refine { sound with logged := sound.logged.append ⟨sound.dev, ?_⟩ }
    intro dev start len same
    cases same
    exact accepted
  · cases done

theorem eraseAhead_safe (sound : Sound board options memory devs writer) :
    match eraseAhead board options fuel writer with
    | .ok (.erased reached) => Sound board options memory devs reached
    | .ok (.failed reached) => Sound board options memory devs reached
    | .error (.exit log) => Logged board options memory devs log
    | .error (.stuck log) => Logged board options memory devs log := by
  induction fuel generalizing writer with
  | zero => exact sound.logged
  | succ fuel ih =>
      rw [eraseAhead]
      by_cases more : writer.e < writer.w + writer.buf.length + writer.skipBadBlocks
      · rw [if_pos more]
        cases mtdBlockIsBad writer.globals (board.chip writer.dev) writer.e with
        | none => exact sound.logged
        | some bad =>
            cases bad with
            | true => exact ih { sound with }
            | false =>
                cases done : mtdEraseBlock board writer (writer.e + options.partOffset) with
                | none => exact sound
                | some erased => exact ih { sound.mtdEraseBlock done with }
      · rw [if_neg more]
        exact sound

theorem writeBlock_safe (sound : Sound board options memory devs writer) :
    Safe board options memory devs (writeBlock board writer) := by
  have written := sound.write (bytesFrom board writer.buf writer.offset writer.buf.length)
  rw [writeBlock]
  split
  · rename_i after result
    rw [result] at written
    exact written.logged
  · rename_i len after result
    rw [result] at written
    split
    · exact written.logged
    · exact { written with }

theorem openDevice_safe {dev : Nat} {next : List Nat}
    (apart : ∀ dev ∈ devs, options.tplUbootArgsPart ≠ some dev)
    (sound : Sound board options memory devs writer) (member : dev ∈ devs)
    (others : ∀ dev ∈ next, dev ∈ devs) :
    Safe board options memory devs (openDevice board options memory writer dev next) := by
  have set := sound.logged.flag apart
  rw [openDevice]
  cases mtdCheckOpen board dev with
  | none => exact sound.logged
  | some globals =>
      rcases @setRecoverFlag_idle board options memory true { writer with
        globals := globals
        dev := dev
        pos := (board.chip dev).seek 0 options.partOffset
        next := next
        w := 0
        e := 0 } set with ⟨current, opened⟩ | halted | halted
      · simp only [opened]
        exact ⟨member, others, sound.noFile, sound.notReplaced, sound.logged⟩
      · simp only [halted]
        exact sound.logged
      · simp only [halted]
        exact sound.logged

theorem resume_safe (apart : ∀ dev ∈ devs, options.tplUbootArgsPart ≠ some dev)
    (sound : Sound board options memory devs writer) :
    Safe board options memory devs (resume board options memory writer) := by
  rw [resume]
  split
  · exact sound.logged
  · rename_i dev next nextEq
    have others := sound.next
    rw [nextEq] at others
    refine openDevice_safe apart ?_ (others dev (by simp))
      fun other member => others other (List.mem_cons_of_mem _ member)
    split
    · exact { sound.write _ with }
    · exact sound

theorem storeBlock_safe (apart : ∀ dev ∈ devs, options.tplUbootArgsPart ≠ some dev)
    (sound : Sound board options memory devs writer) :
    Safe board options memory devs (storeBlock board options memory writer) := by
  rw [storeBlock]
  split
  · exact writeBlock_safe sound
  · have ahead := @eraseAhead_safe board options memory devs writer
      ((board.chip writer.dev).size + 2) sound
    cases result : eraseAhead board options ((board.chip writer.dev).size + 2) writer with
    | error halt =>
        rw [result] at ahead
        cases halt <;> exact ahead
    | ok reached =>
        rw [result] at ahead
        cases reached with
        | erased next => exact writeBlock_safe ahead
        | failed next => exact resume_safe apart ahead

theorem takeBlock_safe (apart : ∀ dev ∈ devs, options.tplUbootArgsPart ≠ some dev)
    (sound : Sound board options memory devs writer) :
    Safe board options memory devs (takeBlock board options memory writer) := by
  rw [takeBlock, sound.noFile]
  split
  · exact { sound with noFile := rfl }
  · exact storeBlock_safe apart sound

theorem writeLoop_safe (apart : ∀ dev ∈ devs, options.tplUbootArgsPart ≠ some dev)
    (sound : Sound board options memory devs writer) :
    Safe board options memory devs (writeLoop board options memory fuel writer) := by
  induction fuel generalizing writer with
  | zero => exact sound.logged
  | succ fuel ih =>
      rw [writeLoop]
      simp only
      split
      · exact sound.logged
      · split
        · exact { sound with }
        · have loaded : Sound board options memory devs { writer with
              image := (refill writer.globals.erasesize (writer.image.measure + 1) writer.buf
                writer.image).2
              buf := padBlock writer.globals.erasesize (refill writer.globals.erasesize
                (writer.image.measure + 1) writer.buf writer.image).1 } := { sound with }
          have taken := takeBlock_safe apart loaded
          revert taken
          cases takeBlock board options memory _ with
          | error halt =>
              intro taken
              cases halt <;> exact taken
          | ok next => exact ih

theorem openDevice_sound {dev : Nat} {next : List Nat} {opened : Writer}
    (noFile : writer.jffs2file = none) (notReplaced : writer.jffs2Replaced = false)
    (fresh : writer.log = []) (openedEq : openDevice board options memory writer dev next = .ok opened) :
    Sound board options memory (dev :: next) opened := by
  rw [openDevice] at openedEq
  split at openedEq
  · cases openedEq
  · obtain ⟨globals, more, same, -, onFlag, set, -⟩ := setRecoverFlag_spec openedEq
    subst same
    simp only [fresh, List.nil_append] at set
    refine ⟨by simp, fun other member => List.mem_cons_of_mem _ member, noFile, notReplaced, more,
      [], ?_, onFlag, set, by simp⟩
    simp only [fresh, List.nil_append, List.append_nil]

variable {dev : Nat} {next : List Nat} {buf : List UInt8} {image : Image} {log : List FlashEvent}

/-- The stages of a plain run that returns. -/
theorem mtdWrite_stages (noFile : options.jffs2file = none)
    (apart : ∀ other ∈ dev :: next, options.tplUbootArgsPart ≠ some other)
    (ran : mtdWrite board options memory dev next buf image = .ok log) :
    ∃ opened final,
      openDevice board options memory (startWriter board options dev next buf image) dev next =
        .ok opened ∧
      writeLoop board options memory (image.rest.length + next.length + 2) opened = .ok final ∧
      finish board options memory final = .ok log ∧
      Sound board options memory (dev :: next) final := by
  obtain ⟨opened, openedEq, onward⟩ := bind_eq_ok.mp ran
  obtain ⟨final, looped, finished⟩ := bind_eq_ok.mp onward
  have sound := @writeLoop_safe board options memory (dev :: next) opened
    (image.rest.length + next.length + 2) apart (openDevice_sound noFile rfl rfl openedEq)
  rw [looped] at sound
  exact ⟨opened, final, openedEq, looped, finished, sound⟩

/-- A run that returns has only allowed operations in its log, apart from those on the flag. -/
theorem mtdWrite_logged (noFile : options.jffs2file = none)
    (apart : ∀ other ∈ dev :: next, options.tplUbootArgsPart ≠ some other)
    (ran : mtdWrite board options memory dev next buf image = .ok log) :
    ∃ main cleared, log = main ++ cleared ∧ Logged board options memory (dev :: next) main ∧
      OnFlag options cleared := by
  obtain ⟨opened, final, -, -, finished, sound⟩ := mtdWrite_stages noFile apart ran
  simp only [finish, sound.notReplaced, Bool.false_eq_true, if_false] at finished
  obtain ⟨closed, clearedEq, returned⟩ := bind_eq_ok.mp finished
  obtain ⟨globals, more, same, -, onFlag, -, -⟩ := setRecoverFlag_spec clearedEq
  subst same
  cases returned
  exact ⟨final.log, more, rfl, sound.logged, onFlag⟩

/-! ## Without the flag the contents of the flash do not matter -/

variable (other : FlashMemory)

theorem openDevice_memory (noFlag : options.tplUbootArgsPart = none) :
    openDevice board options memory = openDevice board options other := by
  funext writer dev next
  simp only [openDevice, setRecoverFlag, noFlag]

theorem takeBlock_memory (noFlag : options.tplUbootArgsPart = none) :
    takeBlock board options memory = takeBlock board options other := by
  funext writer
  simp only [takeBlock, storeBlock, resume, openDevice_memory other noFlag]

theorem writeLoop_memory (noFlag : options.tplUbootArgsPart = none) :
    writeLoop board options memory fuel = writeLoop board options other fuel := by
  induction fuel with
  | zero => rfl
  | succ fuel ih =>
      funext writer
      simp only [writeLoop, takeBlock_memory other noFlag, ih]

theorem mtdWrite_memory (noFlag : options.tplUbootArgsPart = none)
    (noFile : options.jffs2file = none)
    (ran : mtdWrite board options memory dev next buf image = .ok log) :
    mtdWrite board options other dev next buf image = .ok log := by
  have apart : ∀ other ∈ dev :: next, options.tplUbootArgsPart ≠ some other := by
    intro other _ impossible
    rw [noFlag] at impossible
    cases impossible
  obtain ⟨opened, final, openedEq, looped, finished, sound⟩ := mtdWrite_stages noFile apart ran
  rw [openDevice_memory other noFlag] at openedEq
  rw [writeLoop_memory other noFlag] at looped
  simp only [finish, sound.notReplaced, setRecoverFlag, noFlag] at finished
  simp only [mtdWrite, openedEq, bind, Except.bind, looped, finish, sound.notReplaced,
    setRecoverFlag, noFlag]
  exact finished

end

end Rut9xx.Mtd
