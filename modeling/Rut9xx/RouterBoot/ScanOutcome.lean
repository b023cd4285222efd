import Rut9xx.Data.Loop
import Rut9xx.RouterBoot.Dynparts

namespace Rut9xx.RouterBoot

open Data

/-! # The scan for dynamic partitions when reads may fail -/

section

/-- What a device makes of a read in its bounds: an error, with what is in the buffer then, or the
number of bytes that it read. -/
inductive Read where
  | error (buf : List UInt8)
  | done (bytesRead : Nat)

def Master.bytes (master : Master) (start count : Nat) : List UInt8 :=
  (List.range count).map fun index => master.content (start + index)

/-- `mtd_read`: whether it returned 0, and the buffer. -/
def Master.mtdReadOutcome (master : Master) (read : Read) (start count : Nat) (buf : List UInt8) :
    Bool × List UInt8 :=
  if start + count ≤ master.size then
    match read with
    | .error left => (false, left)
    | .done bytesRead =>
        (true, (master.bytes start count).take bytesRead ++ buf.drop (min bytesRead count))
  else (false, buf)

/-- The reads of one turn of the loop: that of the word, and for each entry that of the header. -/
structure Round where
  word : Read
  header : Nat → Read

/-- `routerboot_dtbsfixup`: a short read is an error here. -/
def dtbsfixupOutcome (master : Master) (read : Read) (rbdpart : Dynpart) : Option Dynpart :=
  match read with
  | .error _ => none
  | .done bytesRead => if bytesRead < 40 then none else dtbsfixup master rbdpart

/-- The entry with its offset and, where it has a fixup, its size. -/
def located (master : Master) (read : Read) (offset : UInt32) (part : Dynpart) : Option Dynpart :=
  let part := { part with offset := offset }
  if part.sizeFixup then dtbsfixupOutcome master read part else some part

/-- The loop over `rb_dynparts` at one position. -/
def checkOutcome (master : Master) (offset buf : UInt32) : (Nat → Read) → List Dynpart → Step
  | _, [] => ⟨[], true, 0⟩
  | header, part :: rest =>
      let after := checkOutcome master offset buf (fun index => header (index + 1)) rest
      if part.found then { after with dynparts := part :: after.dynparts }
      else if part.magic = buf then
        match located master (header 0) offset part with
        | none => ⟨{ part with offset := offset } :: after.dynparts, false, after.skip⟩
        | some part => ⟨{ part with found := true } :: rest, false, skipped part⟩
      else ⟨part :: after.dynparts, false, after.skip⟩

/-- Where the scan is. `stopped` is set by the `break`. -/
structure Scan where
  offset : UInt32
  buf : List UInt8
  dynparts : List Dynpart
  stopped : Bool

/-- The loop is left. -/
def Scan.Ended (master : Master) (scan : Scan) : Prop :=
  scan.stopped = true ∨ master.size ≤ scan.offset.toNat

instance (master : Master) (scan : Scan) : Decidable (scan.Ended master) :=
  inferInstanceAs (Decidable (_ ∨ _))

/-- One turn of the loop of `routerboot_find_dynparts`. -/
def findRound (master : Master) (round : Round) (scan : Scan) : Scan :=
  if scan.Ended master then scan
  else
    match master.mtdReadOutcome round.word scan.offset.toNat 4 scan.buf with
    | (false, buf) => { scan with buf := buf }
    | (true, buf) =>
        let step := checkOutcome master scan.offset (master.order.word buf) round.header scan.dynparts
        { offset := scan.offset + step.skip + rbBlockSize
          buf := buf
          dynparts := step.dynparts
          stopped := step.allfound }

/-- The scan behind a number of turns, from what is in `buf` at the start. -/
def scanned (master : Master) (reads : Nat → Round) (buf : List UInt8) (dynparts : List Dynpart) :
    Nat → Scan :=
  rounds (findRound master) reads ⟨0, buf, dynparts, false⟩

/-! ## What is asked of the scan -/

/-- The entry is at a block of the device that begins with its magic. -/
structure AtMagic (master : Master) (part : Dynpart) : Prop where
  aligned : part.offset.toNat % 0x1000 = 0
  inside : part.offset.toNat + 4 ≤ master.size
  magic : master.order.word (master.bytes part.offset.toNat 4) = part.magic

/-- Each entry that is filled in is at its magic. -/
def FilledIn (master : Master) (before after : List Dynpart) : Prop :=
  ∀ (index : Nat) part, after[index]? = some part → part.found = true →
    before[index]? = some part ∨ AtMagic master part

/-- The scan ends, and has filled in no entry wrongly. -/
def Finds (master : Master) (reads : Nat → Round) (buf : List UInt8) (dynparts : List Dynpart) : Prop :=
  ∃ count, (scanned master reads buf dynparts count).Ended master ∧
    FilledIn master dynparts (scanned master reads buf dynparts count).dynparts

/-- The read of the word at a position completes. -/
def Completes (master : Master) (round : Round) (offset : UInt32) : Prop :=
  offset.toNat + 4 ≤ master.size ∧ ∃ bytesRead, round.word = .done bytesRead

/-- An entry that is looked for has the word as its magic, and its size is read. -/
def Matches (master : Master) (round : Round) (offset buf : UInt32) (dynparts : List Dynpart) : Prop :=
  ∃ (index : Nat) (part : Dynpart), dynparts[index]? = some part ∧ part.found = false ∧ part.magic = buf ∧
    (located master (round.header index) offset part).isSome = true

/-- Reads do not fail for good: at every position that the scan reaches, one completes. -/
def ReadsOn (master : Master) (reads : Nat → Round) (buf : List UInt8) (dynparts : List Dynpart) : Prop :=
  ∀ count, ¬ (scanned master reads buf dynparts count).Ended master →
    ∃ later, count ≤ later ∧
      Completes master (reads later) (scanned master reads buf dynparts count).offset

/-- The positions reach the end of the device, unless every entry is found. -/
def InReach (master : Master) (reads : Nat → Round) (buf : List UInt8) (dynparts : List Dynpart) : Prop :=
  master.size ≤ 2 ^ 32 - 0x1000 ∨
    ∃ count, ∀ part ∈ (scanned master reads buf dynparts count).dynparts, part.found = true

/-- Where an entry matches what is in `buf`, the read was not so short that the flash has another
word there. -/
def Genuine (master : Master) (reads : Nat → Round) (buf : List UInt8) (dynparts : List Dynpart) : Prop :=
  ∀ count, ¬ (scanned master reads buf dynparts count).Ended master →
    ∀ left, master.mtdReadOutcome (reads count).word
        (scanned master reads buf dynparts count).offset.toNat 4
        (scanned master reads buf dynparts count).buf = (true, left) →
      Matches master (reads count) (scanned master reads buf dynparts count).offset
        (master.order.word left) (scanned master reads buf dynparts count).dynparts →
      master.order.word left =
        master.order.word (master.bytes (scanned master reads buf dynparts count).offset.toNat 4)

end

/-! # When the scan for dynamic partitions ends, and finds what is there -/

section

variable {master : Master} {reads : Nat → Round} {round : Round} {header : Nat → Read} {read : Read}
  {offset word : UInt32} {buf left : List UInt8} {dynparts : List Dynpart} {part : Dynpart} {scan : Scan}
  {count later : Nat}

/-! ## One position -/

theorem located_some {placed : Dynpart} (found : located master read offset part = some placed) :
    placed.offset = offset ∧ placed.magic = part.magic := by
  rw [located] at found
  simp only at found
  split at found
  · cases read with
    | error left => contradiction
    | done bytesRead =>
        rw [dtbsfixupOutcome] at found
        split at found
        · contradiction
        · rw [dtbsfixup] at found
          split at found
          · contradiction
          · simp only at found
            split at found
            · contradiction
            · cases found
              exact ⟨rfl, rfl⟩
  · cases found
    exact ⟨rfl, rfl⟩

/-- Where the headers are read, a position does what it does on a device without failures. -/
theorem checkOutcome_done :
    checkOutcome master offset word (fun _ => .done 40) dynparts =
      checkDynparts master offset word dynparts := by
  induction dynparts with
  | nil => rfl
  | cons part rest ih =>
      rw [checkOutcome, checkDynparts, ih]
      rfl

/-- An entry that was found stays as it is. -/
theorem checkOutcome_kept {index : Nat} (before : dynparts[index]? = some part)
    (found : part.found = true) :
    (checkOutcome master offset word header dynparts).dynparts[index]? = some part := by
  induction dynparts generalizing header index with
  | nil => contradiction
  | cons first rest ih =>
      rw [checkOutcome]
      cases index with
      | zero =>
          cases before
          rw [if_pos found]
          rfl
      | succ index =>
          rw [List.getElem?_cons_succ] at before
          split
          · exact ih before
          · split
            · split
              · exact ih before
              · exact before
            · exact ih before

/-- An entry that is found behind a position was found before, or it matches there. -/
theorem checkOutcome_found {index : Nat}
    (after : (checkOutcome master offset word header dynparts).dynparts[index]? = some part)
    (found : part.found = true) :
    dynparts[index]? = some part ∨
      part.offset = offset ∧ part.magic = word ∧ ∃ old, dynparts[index]? = some old ∧
        old.found = false ∧ old.magic = word ∧
        (located master (header index) offset old).isSome = true := by
  induction dynparts generalizing header index with
  | nil => contradiction
  | cons first rest ih =>
      rw [checkOutcome] at after
      split at after
      · cases index with
        | zero => exact .inl after
        | succ index => exact ih after
      · rename_i missing
        split at after
        · rename_i matched
          split at after
          · cases index with
            | zero =>
                cases after
                exact absurd found missing
            | succ index => exact ih after
          · rename_i placed lookup
            cases index with
            | zero =>
                cases after
                obtain ⟨here, magic⟩ := located_some lookup
                refine .inr ⟨here, magic.trans matched, first, rfl, ?_, matched, ?_⟩
                · simpa using missing
                · rw [lookup]
                  rfl
            | succ index => exact .inl after
        · cases index with
          | zero =>
              cases after
              exact absurd found missing
          | succ index => exact ih after

/-- Where an entry matches, one is filled in. -/
theorem checkOutcome_matches
    (matched : ∃ (index : Nat) (part : Dynpart), dynparts[index]? = some part ∧ part.found = false ∧
      part.magic = word ∧ (located master (header index) offset part).isSome = true) :
    ∃ (index : Nat) (old new : Dynpart), dynparts[index]? = some old ∧ old.found = false ∧
      (checkOutcome master offset word header dynparts).dynparts[index]? = some new ∧
      new.found = true ∧ new.offset = offset ∧ new.magic = word := by
  induction dynparts generalizing header with
  | nil =>
      obtain ⟨index, part, impossible, -⟩ := matched
      contradiction
  | cons first rest ih =>
      obtain ⟨index, part, here, missing, magic, placed⟩ := matched
      have further (later : ∃ (index : Nat) (part : Dynpart), rest[index]? = some part ∧
          part.found = false ∧ part.magic = word ∧
          (located master (header (index + 1)) offset part).isSome = true) :
          ∃ (index : Nat) (old new : Dynpart), rest[index]? = some old ∧ old.found = false ∧
            (checkOutcome master offset word (fun index => header (index + 1)) rest).dynparts[index]? =
              some new ∧ new.found = true ∧ new.offset = offset ∧ new.magic = word := ih later
      have behind (notHere : index ≠ 0) : ∃ (index : Nat) (part : Dynpart), rest[index]? = some part ∧
          part.found = false ∧ part.magic = word ∧
          (located master (header (index + 1)) offset part).isSome = true := by
        obtain ⟨index, rfl⟩ := Nat.exists_eq_succ_of_ne_zero notHere
        exact ⟨index, part, here, missing, magic, placed⟩
      rw [checkOutcome]
      split
      · rename_i found
        have notHere : index ≠ 0 := by
          intro zero
          rw [zero] at here
          cases here
          rw [found] at missing
          contradiction
        obtain ⟨index, old, new, facts⟩ := further (behind notHere)
        exact ⟨index + 1, old, new, facts⟩
      · rename_i unfound
        split
        · rename_i matched
          split
          · rename_i none
            have notHere : index ≠ 0 := by
              intro zero
              rw [zero] at here placed
              cases here
              rw [none] at placed
              contradiction
            obtain ⟨index, old, new, facts⟩ := further (behind notHere)
            exact ⟨index + 1, old, new, facts⟩
          · rename_i new lookup
            obtain ⟨at', same⟩ := located_some lookup
            exact ⟨0, first, { new with found := true }, rfl, by simpa using unfound, rfl, rfl, at',
              same.trans matched⟩
        · rename_i other
          have notHere : index ≠ 0 := by
            intro zero
            rw [zero] at here
            cases here
            exact other magic
          obtain ⟨index, old, new, facts⟩ := further (behind notHere)
          exact ⟨index + 1, old, new, facts⟩

theorem checkOutcome_missing :
    missing (checkOutcome master offset word header dynparts).dynparts < missing dynparts ∨
      missing (checkOutcome master offset word header dynparts).dynparts = missing dynparts ∧
        (checkOutcome master offset word header dynparts).skip = 0 := by
  induction dynparts generalizing header with
  | nil => exact Or.inr ⟨rfl, rfl⟩
  | cons part rest ih =>
      have later := @ih fun index => header (index + 1)
      rw [checkOutcome]
      cases found : part.found with
      | true => simpa [missing, found] using later
      | false =>
          simp only [Bool.false_eq_true, if_false]
          split
          · split
            · simpa [missing, found] using later
            · left
              simp [missing, found]
          · simpa [missing, found] using later

theorem checkOutcome_aligned :
    (checkOutcome master offset word header dynparts).skip.toNat % 0x1000 = 0 := by
  induction dynparts generalizing header with
  | nil => rfl
  | cons part rest ih =>
      rw [checkOutcome]
      split
      · exact ih
      · split
        · split
          · exact ih
          · exact skipped_aligned _
        · exact ih

/-- The scan stops where every entry was found. -/
theorem checkOutcome_allfound :
    (checkOutcome master offset word header dynparts).allfound = true ↔
      ∀ part ∈ dynparts, part.found = true := by
  induction dynparts generalizing header with
  | nil => simp [checkOutcome]
  | cons part rest ih =>
      have later := @ih fun index => header (index + 1)
      rw [checkOutcome]
      cases found : part.found with
      | true => simpa [found] using later
      | false =>
          simp only [Bool.false_eq_true, if_false]
          split
          · split
            · simp [found]
            · simp [found]
          · simp [found]

theorem checkOutcome_of_found (all : ∀ part ∈ dynparts, part.found = true) :
    (checkOutcome master offset word header dynparts).dynparts = dynparts := by
  induction dynparts generalizing header with
  | nil => rfl
  | cons part rest ih =>
      rw [checkOutcome, if_pos (all part List.mem_cons_self)]
      exact congrArg (part :: ·) (ih fun other member => all other (List.mem_cons_of_mem part member))

/-! ## One turn -/

theorem completes_iff :
    Completes master round offset ↔
      ∃ left, master.mtdReadOutcome round.word offset.toNat 4 buf = (true, left) := by
  rw [Completes]
  by_cases inside : offset.toNat + 4 ≤ master.size
  · cases round.word with
    | error left => simp [Master.mtdReadOutcome, inside]
    | done bytesRead => simp [Master.mtdReadOutcome, inside]
  · simp [Master.mtdReadOutcome, inside]

theorem findRound_ended (ended : scan.Ended master) : findRound master round scan = scan :=
  if_pos ended

theorem findRound_failed (failed : ¬ Completes master round scan.offset) :
    ∃ buf, findRound master round scan = { scan with buf := buf } := by
  rw [findRound]
  split
  · exact ⟨scan.buf, rfl⟩
  · split
    · exact ⟨_, rfl⟩
    · rename_i left read
      exact absurd (completes_iff.mpr ⟨left, read⟩) failed

theorem findRound_completed (running : ¬ scan.Ended master)
    (read : master.mtdReadOutcome round.word scan.offset.toNat 4 scan.buf = (true, left)) :
    findRound master round scan =
      { offset := scan.offset +
          (checkOutcome master scan.offset (master.order.word left) round.header scan.dynparts).skip +
          rbBlockSize
        buf := left
        dynparts :=
          (checkOutcome master scan.offset (master.order.word left) round.header scan.dynparts).dynparts
        stopped :=
          (checkOutcome master scan.offset (master.order.word left) round.header
            scan.dynparts).allfound } := by
  rw [findRound, if_neg running, read]

/-- The positions keep to the blocks, and a scan that stopped has found every entry. -/
structure Tidy (scan : Scan) : Prop where
  aligned : scan.offset.toNat % 0x1000 = 0
  stopped : scan.stopped = true → ∀ part ∈ scan.dynparts, part.found = true

theorem findRound_tidy (round : Round) (scan : Scan) (tidy : Tidy scan) :
    Tidy (findRound master round scan) := by
  by_cases ended : scan.Ended master
  · rw [findRound_ended ended]
    exact tidy
  · by_cases completes : Completes master round scan.offset
    · obtain ⟨left, read⟩ := (@completes_iff master round scan.offset scan.buf).mp completes
      have skip := @checkOutcome_aligned master round.header scan.offset (master.order.word left)
        scan.dynparts
      rw [findRound_completed ended read]
      constructor
      · simp only [UInt32.toNat_add, rbBlockSize, UInt32.toNat_ofNat]
        have here := tidy.aligned
        omega
      · intro stopped part member
        have all := checkOutcome_allfound.mp stopped
        rw [checkOutcome_of_found all] at member
        exact all part member
    · obtain ⟨buf, same⟩ := findRound_failed completes
      rw [same]
      exact ⟨tidy.aligned, tidy.stopped⟩

/-- What tells how far a scan is; what is in `buf` does not. -/
def Scan.view (scan : Scan) : UInt32 × List Dynpart × Bool := (scan.offset, scan.dynparts, scan.stopped)

def ViewEnded (master : Master) (view : UInt32 × List Dynpart × Bool) : Prop :=
  view.2.2 = true ∨ master.size ≤ view.1.toNat

theorem findRound_stutters :
    Stutters (findRound master) Scan.view (ViewEnded master)
      fun round view => Completes master round view.1 where
  ended := by
    intro round scan ended
    rw [findRound_ended ended]
  still := by
    intro round scan failed
    obtain ⟨buf, same⟩ := findRound_failed failed
    rw [same]
    rfl

/-- Fewer entries are looked for, or as many on less of the device. -/
def Smaller (master : Master) : UInt32 × List Dynpart × Bool → UInt32 × List Dynpart × Bool → Prop :=
  InvImage (Prod.Lex (· < ·) (· < ·)) fun view => (missing view.2.1, master.size - view.1.toNat)

theorem findRound_smaller (small : master.size ≤ 2 ^ 32 - 0x1000) (tidy : Tidy scan)
    (running : ¬ scan.Ended master) (completes : Completes master round scan.offset) :
    Smaller master (findRound master round scan).view scan.view := by
  obtain ⟨left, read⟩ := (@completes_iff master round scan.offset scan.buf).mp completes
  rw [findRound_completed running read, Smaller, InvImage, Prod.lex_def]
  have inside := completes.1
  have aligned := tidy.aligned
  rcases @checkOutcome_missing master round.header scan.offset (master.order.word left) scan.dynparts with
    fewer | ⟨same, still⟩
  · exact .inl fewer
  · refine .inr ⟨same, ?_⟩
    simp only [Scan.view, still, UInt32.toNat_add, rbBlockSize, UInt32.toNat_ofNat]
    omega

/-! ## The whole scan -/

theorem scanned_succ :
    scanned master reads buf dynparts (count + 1) =
      findRound master (reads count) (scanned master reads buf dynparts count) :=
  rfl

theorem scanned_tidy (count : Nat) : Tidy (scanned master reads buf dynparts count) :=
  rounds_good (fun round scan tidy => findRound_tidy round scan tidy)
    ⟨rfl, fun impossible => Bool.noConfusion impossible⟩ count

/-- A scan ends exactly if reads complete where it is, and it can come to the end of the device. -/
theorem scan_ends_iff :
    (∃ count, (scanned master reads buf dynparts count).Ended master) ↔
      ReadsOn master reads buf dynparts ∧ InReach master reads buf dynparts := by
  constructor
  · intro ⟨final, ended⟩
    refine ⟨fun count running => findRound_stutters.moves_of_ends ended running, ?_⟩
    by_cases small : master.size ≤ 2 ^ 32 - 0x1000
    · exact .inl small
    · refine .inr ⟨final, ?_⟩
      have tidy := @scanned_tidy master reads buf dynparts final
      rcases ended with stopped | past
      · exact tidy.stopped stopped
      · have bound := (scanned master reads buf dynparts final).offset.toNat_lt
        have aligned := tidy.aligned
        omega
  · intro ⟨readsOn, inReach⟩
    rcases inReach with small | ⟨count, all⟩
    · have lex : WellFounded (Smaller master) := InvImage.wf _ WellFoundedRelation.wf
      exact findRound_stutters.ends_of_moves lex (fun round scan tidy => findRound_tidy round scan tidy)
        (⟨rfl, fun impossible => Bool.noConfusion impossible⟩ : Tidy ⟨0, buf, dynparts, false⟩)
        (fun round scan tidy running completes => findRound_smaller small tidy running completes) readsOn
    · by_cases ended : (scanned master reads buf dynparts count).Ended master
      · exact ⟨count, ended⟩
      · obtain ⟨later, -, same, completes⟩ := findRound_stutters.first_move (readsOn count ended)
        have dynparts' : (scanned master reads buf dynparts later).dynparts =
            (scanned master reads buf dynparts count).dynparts :=
          congrArg (fun view => view.2.1) same
        have running : ¬ (scanned master reads buf dynparts later).Ended master := by
          intro reached
          have seen : ViewEnded master (scanned master reads buf dynparts later).view := reached
          rw [show (scanned master reads buf dynparts later).view =
            (scanned master reads buf dynparts count).view from same] at seen
          exact ended seen
        obtain ⟨left, read⟩ := (@completes_iff master (reads later) _
          (scanned master reads buf dynparts later).buf).mp completes
        refine ⟨later + 1, .inl ?_⟩
        rw [scanned_succ, findRound_completed running read]
        exact checkOutcome_allfound.mpr (dynparts' ▸ all)

theorem scanned_kept {index : Nat} (behind : count ≤ later)
    (before : (scanned master reads buf dynparts count).dynparts[index]? = some part)
    (found : part.found = true) :
    (scanned master reads buf dynparts later).dynparts[index]? = some part := by
  induction later, behind using Nat.le_induction with
  | base => exact before
  | succ later _ ih =>
      rw [scanned_succ]
      by_cases ended : (scanned master reads buf dynparts later).Ended master
      · rw [findRound_ended ended]
        exact ih
      · by_cases completes :
          Completes master (reads later) (scanned master reads buf dynparts later).offset
        · obtain ⟨left, read⟩ := (@completes_iff master (reads later) _
            (scanned master reads buf dynparts later).buf).mp completes
          rw [findRound_completed ended read]
          exact checkOutcome_kept ih found
        · obtain ⟨left, same⟩ := findRound_failed completes
          rw [same]
          exact ih

/-- No read that fills in an entry is mistaken about the flash: then all are filled in rightly. -/
theorem filledIn_of_genuine (genuine : Genuine master reads buf dynparts) (count : Nat) :
    FilledIn master dynparts (scanned master reads buf dynparts count).dynparts := by
  induction count with
  | zero =>
      intro index part after _
      exact .inl after
  | succ count ih =>
      have tidy := @scanned_tidy master reads buf dynparts count
      have here := genuine count
      rw [scanned_succ]
      generalize scanned master reads buf dynparts count = scan at ih tidy here
      by_cases ended : scan.Ended master
      · rw [findRound_ended ended]
        exact ih
      · by_cases completes : Completes master (reads count) scan.offset
        · obtain ⟨left, read⟩ := (@completes_iff master (reads count) scan.offset scan.buf).mp completes
          rw [findRound_completed ended read]
          intro index part after found
          rcases checkOutcome_found after found with before | ⟨place, magic, old, old', missing, same, placed⟩
          · exact ih index part before found
          · have word := here ended left read ⟨index, old, old', missing, same, placed⟩
            exact .inr ⟨place ▸ tidy.aligned, place ▸ completes.1, by rw [place, magic, word]⟩
        · obtain ⟨left, same⟩ := findRound_failed completes
          rw [same]
          exact ih

theorem genuine_of_filledIn {final : Nat}
    (ended : (scanned master reads buf dynparts final).Ended master)
    (filled : FilledIn master dynparts (scanned master reads buf dynparts final).dynparts) :
    Genuine master reads buf dynparts := by
  intro count running left read matched
  have before : count < final := by
    by_contra behind
    have same := findRound_stutters.rounds_over
      (show ViewEnded master (rounds (findRound master) reads ⟨0, buf, dynparts, false⟩ final).view from
        ended) (Nat.le_of_not_lt behind)
    exact running (show ViewEnded master (rounds (findRound master) reads _ count).view from
      same.symm ▸ ended)
  obtain ⟨index, old, new, here, missing, after, found, place, magic⟩ := checkOutcome_matches matched
  have next : (scanned master reads buf dynparts (count + 1)).dynparts[index]? = some new := by
    rw [scanned_succ, findRound_completed running read]
    exact after
  rcases filled index new (scanned_kept before next found) found with first | atMagic
  · -- The entry was found before the scan already, and so it was at this position.
    have still := scanned_kept (Nat.zero_le count)
      (show (scanned master reads buf dynparts 0).dynparts[index]? = some new from first) found
    rw [here] at still
    cases still
    rw [found] at missing
    contradiction
  · have word := atMagic.magic
    rw [place, magic] at word
    exact word.symm

/-- The scan ends and fills in what is there exactly if reads do not fail for good, the end of the
device is in reach, and no short read brings up the magic of an entry. -/
theorem finds_iff :
    Finds master reads buf dynparts ↔
      ReadsOn master reads buf dynparts ∧ InReach master reads buf dynparts ∧
        Genuine master reads buf dynparts := by
  constructor
  · intro ⟨final, ended, filled⟩
    obtain ⟨readsOn, inReach⟩ := scan_ends_iff.mp ⟨final, ended⟩
    exact ⟨readsOn, inReach, genuine_of_filledIn ended filled⟩
  · intro ⟨readsOn, inReach, genuine⟩
    obtain ⟨final, ended⟩ := scan_ends_iff.mpr ⟨readsOn, inReach⟩
    exact ⟨final, ended, filledIn_of_genuine genuine final⟩

/-- A device of which no word can be read. -/
theorem scan_never_ends :
    ¬ ∀ master reads buf, Finds master reads buf (rbDynparts master.order) := by
  intro finds
  have readsOn := (Iff.mp finds_iff (finds ⟨0x10000, .big, fun _ => 0xff⟩
    (fun _ => ⟨.error [0, 0, 0, 0], fun _ => .done 40⟩) [0, 0, 0, 0])).1
  obtain ⟨later, -, -, bytesRead, impossible⟩ := readsOn 0 (by decide)
  exact Read.noConfusion impossible

end

end Rut9xx.RouterBoot
