import Rut9xx.Srec.Format

namespace Rut9xx.Srec

open Data

/-! # What the output denotes -/

def Record.writes : Record → List (UInt32 × UInt8)
  | .s3 address data => writesFrom (· + 1) address data
  | _ => []

def Record.start? : Record → Option UInt32
  | .s7 start => some start
  | _ => none

def writesOf (records : List Record) : List (UInt32 × UInt8) := records.flatMap Record.writes

def startOf (records : List Record) : Option UInt32 := (records.filterMap Record.start?).getLast?

/-- A count is that of the data records before it, and the program start comes last. -/
def WellFormed (total : Nat) : List Record → Prop
  | [] => True
  | .s0 _ :: rest => WellFormed total rest
  | .s3 _ _ :: rest => WellFormed (total + 1) rest
  | .s5 count :: rest => count.toNat = total ∧ WellFormed total rest
  | .s7 _ :: rest => rest = []

/-- It says that there are data records. -/
def Record.counts : Record → Bool
  | .s5 count => count != 0
  | _ => false

/-- The converter stops at the record: its line is longer than the buffer, or it counts data
records. -/
def Record.refused (record : Record) : Bool := decide record.Overlong || record.counts

/-- The records that are converted. -/
def kept (records : List Record) : List Record := records.takeWhile fun record => !record.refused

def dropped (records : List Record) : List Record := records.dropWhile fun record => !record.refused

variable {records : List Record} {text : List UInt8} {bigEndian : Bool} {state : Converter}
  {writes : List (UInt32 × UInt8)} {begin' : Option UInt32} {total : Nat} {count : UInt32}

theorem kept_append : kept records ++ dropped records = records := List.takeWhile_append_dropWhile

/-! ## The converter without its count -/

def Converter.counted (state : Converter) (count : UInt32) : Converter :=
  { state with s1s2s3Total := count }

theorem nextRecord_counted {address : UInt32} :
    nextRecord address (state.counted count) = (nextRecord address state).counted count := by
  rw [nextRecord, nextRecord, Converter.counted]
  split
  · rw [binRecEnd, binRecEnd]
    split <;> rfl
  · rfl

theorem outBytes_counted :
    outBytes writes (state.counted count) = (outBytes writes state).counted count := by
  induction writes generalizing state with
  | nil => rfl
  | cons write rest ih =>
      obtain ⟨address, byte⟩ := write
      have step : binRecOutByte address byte (state.counted count) =
          (binRecOutByte address byte state).counted count := by
        rw [binRecOutByte, nextRecord_counted]
        rfl
      show outBytes rest (binRecOutByte address byte (state.counted count)) = _
      rw [step]
      exact ih

theorem outBytes_s1s2s3Total : (outBytes writes state).s1s2s3Total = state.s1s2s3Total := by
  have same : outBytes writes (state.counted state.s1s2s3Total) =
      (outBytes writes state).counted state.s1s2s3Total := outBytes_counted
  have total := congrArg Converter.s1s2s3Total same
  exact total

theorem outStart_counted :
    outStart begin' (state.counted count) = (outStart begin' state).counted count := by
  cases begin' with
  | none => rfl
  | some address =>
      rw [outStart, binRecOutProgramStart, nextRecord_counted]
      rfl

theorem binRecEnd_counted : (binRecEnd (state.counted count)).fOut = (binRecEnd state).fOut := by
  rw [binRecEnd, binRecEnd, Converter.counted]
  split <;> rfl

theorem outBytes_append {more : List (UInt32 × UInt8)} :
    outBytes (writes ++ more) state = outBytes more (outBytes writes state) := List.foldl_append

theorem kept_cons {record : Record} {rest : List Record} :
    kept (record :: rest) = if record.refused then [] else record :: kept rest := by
  rw [kept, List.takeWhile_cons]
  cases record.refused <;> rfl

/-- The count of a well-formed record is that of the converter, so it is refused unless it is 0. -/
theorem s5_step {number : UInt16} (counted : number.toUInt32 = state.s1s2s3Total) :
    ((Record.s5 number).step state).1 = !(number != 0) := by
  show (number.toUInt32 ||| state.s1s2s3Total == 0) = !(number != 0)
  rw [← counted, UInt32.or_self, bne, Bool.not_not, Bool.eq_iff_iff, beq_iff_eq, beq_iff_eq,
    ← UInt32.toNat_inj, ← UInt16.toNat_inj, UInt16.toNat_toUInt32]
  rfl

/-- Well-formed records write what is converted of them. -/
theorem convert_eq (formed : WellFormed total records)
    (counted : state.s1s2s3Total = UInt32.ofNat total) :
    ∃ count, convert records state =
      (outStart (startOf (kept records)) (outBytes (writesOf (kept records)) state)).counted count := by
  induction records generalizing total state with
  | nil => exact ⟨state.s1s2s3Total, rfl⟩
  | cons record rest ih =>
      by_cases long : record.Overlong
      · have refused : record.refused = true := by
          simp only [Record.refused, long, decide_true, Bool.true_or]
        rw [convert, if_pos long, kept_cons, if_pos refused]
        exact ⟨state.s1s2s3Total, rfl⟩
      · have refused : record.refused = record.counts := by
          simp only [Record.refused, long, decide_false, Bool.false_or]
        rw [convert, if_neg long, kept_cons, refused]
        cases record with
        | s0 data => exact ih formed counted
        | s3 address data =>
            have more : (outBytes (writesFrom (· + 1) address data) state).s1s2s3Total + 1 =
                UInt32.ofNat (total + 1) := by
              rw [outBytes_s1s2s3Total, counted]
              apply UInt32.toNat_inj.mp
              rw [UInt32.toNat_add, UInt32.toNat_ofNat', UInt32.toNat_ofNat', Nat.mod_add_mod]
              rfl
            obtain ⟨count, same⟩ := @ih ((outBytes (writesFrom (· + 1) address data) state).counted
              ((outBytes (writesFrom (· + 1) address data) state).s1s2s3Total + 1)) _ formed more
            rw [outBytes_counted, outStart_counted, ← outBytes_append] at same
            exact ⟨count, same⟩
        | s5 number =>
            have word : number.toUInt32 = state.s1s2s3Total := by
              rw [counted, ← formed.1]
              apply UInt32.toNat_inj.mp
              rw [UInt32.toNat_ofNat', UInt16.toNat_toUInt32]
              have := number.toNat_lt
              omega
            rw [s5_step word, Record.counts]
            cases number != 0 with
            | true => exact ⟨state.s1s2s3Total, rfl⟩
            | false => exact ih formed.2 counted
        | s7 start =>
            cases formed
            exact ⟨_, rfl⟩

/-! ## Reading the output back -/

/-- The last address that is written; in front of all data what the converter begins with. -/
def lastAddress (writes : List (UInt32 × UInt8)) : UInt32 :=
  (writes.getLast?.map Prod.fst).getD 0xFFFFFFFF

/-- The output for writes and a program start. -/
def output (bigEndian : Bool) (writes : List (UInt32 × UInt8)) (begin' : Option UInt32) : List UInt8 :=
  (binRecEnd (outStart begin' (outBytes writes (start bigEndian)))).fOut

/-- The records that the output should have. -/
def recordsOf (writes : List (UInt32 × UInt8)) (begin' : Option UInt32) : List (Segment UInt32) :=
  runs (· + 1) writes ++ (begin'.map fun address => Segment.mk address []).toList

theorem srec2bin_eq (rendered : RendersFile records text) (formed : WellFormed 0 records) :
    srec2bin bigEndian text = output bigEndian (writesOf (kept records)) (startOf (kept records)) := by
  obtain ⟨count, same⟩ := @convert_eq records (start bigEndian) 0 formed rfl
  rw [srec2bin, lineLoop_renders rendered, same, binRecEnd_counted, output]

theorem start_hasRoom : HasRoom (start bigEndian) := by
  intro impossible
  cases impossible

theorem output_length : (output bigEndian writes begin').length =
    4 + writes.length + 12 * breaks (· + 1) 0xFFFFFFFF writes +
      (if ∃ address, begin' = some address ∧ address ≠ lastAddress writes + 1 then 12 else 0) := by
  obtain ⟨length, room, current⟩ := @outBytes_length _ writes (@start_hasRoom bigEndian)
  obtain ⟨length', room'⟩ := @outStart_length _ begin' room
  rw [output, binRecEnd_length room', length', length, current]
  rfl

theorem start_follows : (start bigEndian).addressCurrent + 1 = 0 := by
  show (0xFFFFFFFF : UInt32) + 1 = 0
  decide

theorem first_record {address : UInt32} :
    Writing (tag bigEndian) (binRecStart address (binRecEnd (start bigEndian))) [] ⟨address, []⟩ where
  fOut := rfl
  recStart := rfl
  recLength := rfl
  checkSum := (UInt32.add_zero _).symm

/-- The first byte opens a record unless its address is 0; the data is in the runs. -/
theorem outBytes_writing (some' : writes ≠ [])
    (above : ∀ write, writes.head? = some write → write.1 ≠ 0)
    (short : ∀ run ∈ runs (· + 1) writes, run.data.length < 2 ^ 32) :
    ∃ closed record, Writing (tag bigEndian) (outBytes writes (start bigEndian)) closed record ∧
      closed ++ [record] = runs (· + 1) writes := by
  cases writes with
  | nil => exact absurd rfl some'
  | cons write rest =>
      obtain ⟨address, byte⟩ := write
      have first : address ≠ 0 := above _ rfl
      have opened : binRecOutByte address byte (start bigEndian) =
          binOut8 byte { binRecStart address (binRecEnd (start bigEndian)) with
            addressCurrent := address,
            checkSum := (binRecStart address (binRecEnd (start bigEndian))).checkSum + byte.toUInt32 } := by
        rw [binRecOutByte, nextRecord, if_pos (by rw [start_follows]; exact first)]
      have unfolded : outBytes ((address, byte) :: rest) (start bigEndian) =
          outBytes rest (binRecOutByte address byte (start bigEndian)) := rfl
      rw [unfolded, opened]
      obtain ⟨closed, record, writing, all⟩ := first_record.goesOn.outBytes rfl short
      exact ⟨closed, record, writing, all⟩

theorem output_eq (above : ∀ write, writes.head? = some write → write.1 ≠ 0)
    (apart : ∀ address, begin' = some address → address ≠ lastAddress writes + 1)
    (short : ∀ run ∈ runs (· + 1) writes, run.data.length < 2 ^ 32) :
    output bigEndian writes begin' = le32 (tag bigEndian) ++ (recordsOf writes begin').flatMap encode := by
  have current : (outBytes writes (start bigEndian)).addressCurrent = lastAddress writes :=
    (outBytes_length start_hasRoom).2.2
  rw [output, recordsOf]
  by_cases empty : writes = []
  · subst empty
    cases begin' with
    | none => rfl
    | some address =>
        have some' : address ≠ (start bigEndian).addressCurrent + 1 := apart address rfl
        have opened : outStart (some address) (outBytes [] (start bigEndian)) =
            { binRecStart address (binRecEnd (start bigEndian)) with addressCurrent := address } := by
          rw [outStart, binRecOutProgramStart, nextRecord, outBytes, List.foldl_nil, if_pos some']
        rw [opened]
        exact first_record.ended (by simp)
  · obtain ⟨closed, record, writing, all⟩ := @outBytes_writing bigEndian writes empty above short
    have recordShort : record.data.length < 2 ^ 32 := short record (by rw [← all]; simp)
    rw [← all]
    cases begin' with
    | none =>
        rw [outStart, writing.ended recordShort, Option.map_none, Option.toList_none, List.append_nil]
    | some address =>
        have opened : outStart (some address) (outBytes writes (start bigEndian)) =
            { binRecStart address (binRecEnd (outBytes writes (start bigEndian))) with
              addressCurrent := address } := by
          rw [outStart, binRecOutProgramStart, nextRecord, if_pos (by rw [current]; exact apart address rfl)]
        rw [opened]
        exact (writing.next recordShort).ended (by simp)

theorem recordsWrites_recordsOf : recordsWrites (recordsOf writes begin') = writes := by
  rw [recordsWrites, recordsOf, List.flatMap_append, runs_writes]
  cases begin' with
  | none => exact List.append_nil _
  | some address => exact List.append_nil _

theorem programStart_recordsOf : programStart (recordsOf writes begin') = begin' := by
  have filled : (runs (· + 1) writes).filter (fun record => record.data.isEmpty) = [] := by
    rw [List.filter_eq_nil_iff]
    intro run member
    rw [List.isEmpty_iff]
    exact runs_filled run member
  rw [programStart, recordsOf, List.filter_append, filled, List.nil_append]
  cases begin' <;> rfl

/-! ## The records of any output -/

/-- Records of the same writes and with a program start are not fewer. -/
theorem records_length {records : List (Segment UInt32)} :
    (runs (· + 1) (recordsWrites records)).length +
        (if (programStart records).isSome then 1 else 0) ≤ records.length ∧
      (records.length ≤ (runs (· + 1) (recordsWrites records)).length +
          (if (programStart records).isSome then 1 else 0) →
        ∀ run ∈ runs (· + 1) (recordsWrites records), run ∈ records) := by
  have parts := List.length_eq_length_filter_add (l := records) fun record => record.data.isEmpty
  have writes : recordsWrites records =
      recordsWrites (records.filter fun record => !record.data.isEmpty) := by
    rw [recordsWrites, recordsWrites]
    clear parts
    induction records with
    | nil => rfl
    | cons record rest ih =>
        rw [List.flatMap_cons, ih, List.filter_cons]
        cases empty : record.data with
        | nil =>
            have none' : record.writes (· + 1) = [] := by rw [Segment.writes, empty, writesFrom]
            rw [none']
            rfl
        | cons byte data => rfl
  have filled : ∀ record ∈ records.filter (fun record => !record.data.isEmpty), record.data ≠ [] := by
    intro record member
    have := (List.mem_filter.mp member).2
    simpa using this
  obtain ⟨fewer, same⟩ := @runs_flatMap_le UInt32 (· + 1) _ _ filled
  rw [← recordsWrites, ← writes] at fewer same
  have starts : (if (programStart records).isSome then 1 else 0) ≤
      (records.filter fun record => record.data.isEmpty).length := by
    split
    · rename_i some'
      by_contra none'
      have empty : records.filter (fun record => record.data.isEmpty) = [] :=
        List.length_eq_zero_iff.mp (by omega)
      rw [programStart, empty] at some'
      cases some'
    · exact Nat.zero_le _
  refine ⟨by omega, fun long run member => ?_⟩
  rw [same (by omega)] at member
  exact (List.mem_filter.mp member).1

/-! ## The conversion -/

/-- Read by its format, the output writes the same bytes in the same order. -/
def ReadsInOrder (bigEndian : Bool) (records : List Record) (out : List UInt8) : Prop :=
  ∃ entries, parseFile (tag bigEndian) out = some entries ∧
    recordsWrites entries = writesOf records ∧ programStart entries = startOf records

/-- Read by its format, the output denotes the same bytes in memory and the same start. -/
def ReadsBack (bigEndian : Bool) (records : List Record) (out : List UInt8) : Prop :=
  ∃ entries, parseFile (tag bigEndian) out = some entries ∧
    memoryOf (recordsWrites entries) = memoryOf (writesOf records) ∧
    programStart entries = startOf records

/-- The input stays clear of what goes wrong. -/
structure Converts (records : List Record) : Prop where
  lost : ∀ record ∈ dropped records, record.writes = [] ∧ record.start? = none
  above : ∀ write, (writesOf records).head? = some write → write.1 ≠ 0
  apart : ∀ address, startOf records = some address → address ≠ lastAddress (writesOf records) + 1
  short : ∀ run ∈ runs (· + 1) (writesOf records), run.data.length < 2 ^ 32

theorem ReadsInOrder.readsBack {out : List UInt8} (reads : ReadsInOrder bigEndian records out) :
    ReadsBack bigEndian records out := by
  obtain ⟨entries, parsed, writes, start⟩ := reads
  exact ⟨entries, parsed, by rw [writes], start⟩

theorem writesOf_split : writesOf records = writesOf (kept records) ++ writesOf (dropped records) := by
  rw [writesOf, writesOf, writesOf, ← List.flatMap_append, kept_append]

theorem startOf_split : startOf records =
    ((kept records).filterMap Record.start? ++ (dropped records).filterMap Record.start?).getLast? := by
  rw [← List.filterMap_append, kept_append, startOf]

theorem lost_nothing (lost : ∀ record ∈ dropped records, record.writes = [] ∧ record.start? = none) :
    writesOf (kept records) = writesOf records ∧ startOf (kept records) = startOf records := by
  have writes : writesOf (dropped records) = [] :=
    List.flatMap_eq_nil_iff.mpr fun record member => (lost record member).1
  have starts : (dropped records).filterMap Record.start? = [] :=
    List.filterMap_eq_nil_iff.mpr fun record member => (lost record member).2
  constructor
  · rw [@writesOf_split records, writes, List.append_nil]
  · rw [@startOf_split records, starts, List.append_nil, startOf]

/-- The program start comes last: where it is converted, nothing is dropped. -/
theorem dropped_of_start (formed : WellFormed total records) {address : UInt32}
    (here : startOf (kept records) = some address) : dropped records = [] := by
  induction records generalizing total with
  | nil => rfl
  | cons record rest ih =>
      rw [kept_cons] at here
      cases refused : record.refused with
      | true =>
          rw [refused, if_pos rfl] at here
          cases here
      | false =>
          have tail : dropped (record :: rest) = dropped rest := by
            rw [dropped, List.dropWhile_cons, refused]
            rfl
          rw [refused, if_neg Bool.false_ne_true] at here
          rw [tail]
          cases record with
          | s0 data => exact ih formed here
          | s3 address data => exact ih formed here
          | s5 count => exact ih formed.2 here
          | s7 start =>
              cases formed
              rfl

theorem output_reads (converts : Converts records) :
    ReadsInOrder bigEndian records
      (output bigEndian (writesOf (kept records)) (startOf (kept records))) := by
  obtain ⟨writes, start⟩ := lost_nothing converts.lost
  have parsed : parseRecords ((recordsOf (writesOf records) (startOf records)).flatMap encode) =
      some (recordsOf (writesOf records) (startOf records)) := by
    apply parseRecords_flatMap
    intro record member
    rw [recordsOf, List.mem_append] at member
    rcases member with run | start
    · exact converts.short record run
    · rw [Option.mem_toList, Option.map_eq_some_iff] at start
      obtain ⟨address, -, rfl⟩ := start
      exact Nat.two_pow_pos 32
  refine ⟨recordsOf (writesOf records) (startOf records), ?_, recordsWrites_recordsOf,
    programStart_recordsOf⟩
  rw [writes, start, output_eq converts.above converts.apart converts.short, parseFile,
    if_neg (by rw [le32At_here, List.length_append, le32_length]; simp), List.drop_left' (le32_length _),
    parsed]

theorem startOf_isSome_of_kept (some' : (startOf (kept records)).isSome = true) :
    (startOf records).isSome = true := by
  rw [startOf, List.getLast?_isSome] at some'
  rw [@startOf_split records, List.getLast?_isSome]
  exact fun empty => some' (List.append_eq_nil_iff.mp empty).1

/-- Counting bytes: an output that is short of a record has too few for what it should denote. -/
theorem output_reads_converts (formed : WellFormed total records)
    (reads : ReadsInOrder bigEndian records
      (output bigEndian (writesOf (kept records)) (startOf (kept records)))) :
    Converts records := by
  obtain ⟨entries, parsed, writesEq, startEq⟩ := reads
  rw [parseFile] at parsed
  split at parsed
  · cases parsed
  · rename_i long
    obtain ⟨length, small⟩ := parseRecords_length parsed
    rw [List.length_drop, output_length] at length
    obtain ⟨needed, exact'⟩ := @records_length entries
    rw [writesEq, startEq] at needed exact'
    rw [writesEq] at length
    have split := @writesOf_split records
    have bytes := congrArg List.length split
    rw [List.length_append] at bytes
    have counted := @breaks_add_one_eq UInt32 (· + 1) _ (writesOf (kept records)) 0xFFFFFFFF
    have fewer : (runs (· + 1) (writesOf (kept records))).length ≤
        (runs (· + 1) (writesOf records)).length := by
      rw [split]
      exact runs_append_length_le
    have emitted : (if ∃ address, startOf (kept records) = some address ∧
          address ≠ lastAddress (writesOf (kept records)) + 1 then 12 else 0) ≤
        12 * (if (startOf records).isSome then 1 else 0) := by
      split
      · rename_i here
        obtain ⟨address, here, -⟩ := here
        rw [if_pos (startOf_isSome_of_kept (by rw [here]; rfl))]
      · exact Nat.zero_le _
    have nothing : writesOf (dropped records) = [] := List.length_eq_zero_iff.mp (by omega)
    rw [nothing, List.append_nil] at split
    have above : ¬ (writesOf records).head?.map Prod.fst = some 0 := by
      intro zero
      rw [split] at zero
      rw [show (0xFFFFFFFF : UInt32) + 1 = 0 by decide, if_pos zero] at counted
      omega
    have starts : (if ∃ address, startOf (kept records) = some address ∧
          address ≠ lastAddress (writesOf (kept records)) + 1 then 12 else 0) =
        12 * (if (startOf records).isSome then 1 else 0) := by omega
    have present : (startOf records).isSome = true → ∃ address, startOf (kept records) = some address ∧
        address ≠ lastAddress (writesOf records) + 1 := by
      intro some'
      rw [if_pos some'] at starts
      by_contra absent
      rw [← split, if_neg absent] at starts
      cases starts
    constructor
    · intro record member
      refine ⟨List.flatMap_eq_nil_iff.mp nothing record member, ?_⟩
      cases started : startOf records with
      | none =>
          rw [@startOf_split records, List.getLast?_eq_none_iff, List.append_eq_nil_iff] at started
          exact List.filterMap_eq_nil_iff.mp started.2 record member
      | some address =>
          obtain ⟨address, here, -⟩ := present (by rw [started]; rfl)
          rw [dropped_of_start formed here] at member
          cases member
    · rintro write first zero
      exact above (by rw [first, Option.map_some, zero])
    · intro address started
      obtain ⟨other, here, apart⟩ := present (by rw [started]; rfl)
      have all : kept records = records := by
        have parts := @kept_append records
        rw [dropped_of_start formed here, List.append_nil] at parts
        exact parts
      rw [all, started] at here
      cases here
      exact apart
    · intro run member
      exact small run (exact' (by omega) run member)

/-- The output denotes the input if this stays clear of what goes wrong; only then does it write
the same bytes in the same order. -/
theorem srec2bin_reads_iff (bigEndian : Bool) (rendered : RendersFile records text)
    (formed : WellFormed 0 records) :
    (ReadsInOrder bigEndian records (srec2bin bigEndian text) ↔ Converts records) ∧
      (Converts records → ReadsBack bigEndian records (srec2bin bigEndian text)) := by
  rw [srec2bin_eq rendered formed]
  exact ⟨⟨output_reads_converts formed, output_reads⟩, fun converts => (output_reads converts).readsBack⟩

/-- `S3060000000111E7` -/
def oneByteAtOne : List UInt8 :=
  [0x53, 0x33, 0x30, 0x36, 0x30, 0x30, 0x30, 0x30, 0x30, 0x30, 0x30, 0x31, 0x31, 0x31, 0x45, 0x37]

/-- `S3060000000011E8` -/
def oneByteAtZero : List UInt8 :=
  [0x53, 0x33, 0x30, 0x36, 0x30, 0x30, 0x30, 0x30, 0x30, 0x30, 0x30, 0x30, 0x31, 0x31, 0x45, 0x38]

theorem oneByteAtOne_renders : RendersFile [.s3 1 [0x11]] oneByteAtOne := by
  refine .last ⟨by decide, _, 0xe7, rfl, ?_, by decide⟩
  repeat' first
    | exact HexOf.nil
    | refine HexOf.cons (by decide) (by decide) ?_

theorem oneByteAtZero_renders : RendersFile [.s3 0 [0x11]] oneByteAtZero := by
  refine .last ⟨by decide, _, 0xe8, rfl, ?_, by decide⟩
  repeat' first
    | exact HexOf.nil
    | refine HexOf.cons (by decide) (by decide) ?_

theorem srec2bin_oneByteAtOne : ReadsInOrder true [.s3 1 [0x11]] (srec2bin true oneByteAtOne) := by
  refine (srec2bin_reads_iff true oneByteAtOne_renders trivial).1.mpr ⟨?_, ?_, ?_, ?_⟩
  · intro record member
    cases member
  · rintro write ⟨⟩ zero
    exact absurd zero (by decide)
  · rintro address ⟨⟩
  · intro run member
    have one : run = ⟨1, [0x11]⟩ := List.mem_singleton.mp member
    rw [one]
    decide

/-- The byte comes right behind the tag, without a record. -/
theorem srec2bin_oneByteAtZero : RendersFile [.s3 0 [0x11]] oneByteAtZero ∧
    WellFormed 0 [.s3 0 [0x11]] ∧ srec2bin true oneByteAtZero = [0x42, 0xbe, 0xad, 0xde, 0x11] ∧
    ¬ ReadsBack true [.s3 0 [0x11]] (srec2bin true oneByteAtZero) := by
  have out : srec2bin true oneByteAtZero = [0x42, 0xbe, 0xad, 0xde, 0x11] := by
    rw [srec2bin_eq oneByteAtZero_renders trivial]
    decide
  refine ⟨oneByteAtZero_renders, trivial, out, ?_⟩
  rw [out]
  rintro ⟨entries, parsed, -⟩
  rw [parseFile, if_neg (by decide), parseRecords, if_neg (by decide)] at parsed
  have short : (([0x42, 0xbe, 0xad, 0xde, 0x11] : List UInt8).drop 4).length < 12 := by decide
  simp only [if_pos (Nat.lt_add_right _ short)] at parsed
  cases parsed

end Rut9xx.Srec
