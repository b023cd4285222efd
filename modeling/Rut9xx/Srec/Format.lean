import Rut9xx.Data.Endian
import Rut9xx.Data.WriteRuns
import Rut9xx.Srec.Records

namespace Rut9xx.Srec

open Data

/-! # The binary format: a tag, and records of length, address, data and checksum -/

section

def byteSum : List UInt8 → UInt32
  | [] => 0
  | byte :: rest => byte.toUInt32 + byteSum rest

/-- 0 less the sum from the length to the end of the data. -/
def recordCheckSum (record : Segment UInt32) : UInt32 :=
  0 - (UInt32.ofNat record.data.length + record.address + byteSum record.data)

def encode (record : Segment UInt32) : List UInt8 :=
  le32 (UInt32.ofNat record.data.length) ++ (le32 record.address ++
    (record.data ++ le32 (recordCheckSum record)))

/-- The records of a file, if their lengths and checksums are correct. -/
def parseRecords (bytes : List UInt8) : Option (List (Segment UInt32)) :=
  if bytes = [] then some []
  else
    let length := (le32At bytes 0).toNat
    let record : Segment UInt32 := ⟨le32At bytes 4, slice bytes 8 length⟩
    if bytes.length < 12 + length then none
    else if le32At bytes (8 + length) ≠ recordCheckSum record then none
    else (parseRecords (bytes.drop (12 + length))).map (record :: ·)
termination_by bytes.length
decreasing_by
  rename_i some' _ _
  have := List.length_pos_iff.mpr some'
  rw [List.length_drop]
  omega

def parseFile (tag : UInt32) (bytes : List UInt8) : Option (List (Segment UInt32)) :=
  if bytes.length < 4 ∨ le32At bytes 0 ≠ tag then none else parseRecords (bytes.drop 4)

/-- A record without data holds the program start; the last one counts. -/
def programStart (records : List (Segment UInt32)) : Option UInt32 :=
  ((records.filter fun record => record.data.isEmpty).map Segment.address).getLast?

def recordsWrites (records : List (Segment UInt32)) : List (UInt32 × UInt8) :=
  records.flatMap (Segment.writes (· + 1))

variable {bytes data more : List UInt8} {record : Segment UInt32} {records : List (Segment UInt32)}

theorem byteSum_append : byteSum (data ++ more) = byteSum data + byteSum more := by
  induction data with
  | nil => exact (UInt32.zero_add _).symm
  | cons byte rest ih => rw [List.cons_append, byteSum, byteSum, ih, UInt32.add_assoc]

theorem encode_length : (encode record).length = 12 + record.data.length := by
  simp only [encode, List.length_append, le32_length]
  omega

theorem parseRecords_encode (short : record.data.length < 2 ^ 32) :
    parseRecords (encode record ++ bytes) = (parseRecords bytes).map (record :: ·) := by
  have some' : encode record ++ bytes ≠ [] := by
    intro empty
    have length := congrArg List.length empty
    rw [List.length_append, encode_length, List.length_nil] at length
    omega
  have text : encode record ++ bytes = le32 (UInt32.ofNat record.data.length) ++
      (le32 record.address ++ (record.data ++ (le32 (recordCheckSum record) ++ bytes))) := by
    simp only [encode, List.append_assoc]
  have length : (le32At (encode record ++ bytes) 0).toNat = record.data.length := by
    rw [text, le32At_here, UInt32.toNat_ofNat', Nat.mod_eq_of_lt short]
  have address : le32At (encode record ++ bytes) 4 = record.address := by
    rw [text, le32At_past32, le32At_here]
  have data : slice (encode record ++ bytes) 8 record.data.length = record.data := by
    rw [text, slice, ← List.append_assoc, List.drop_left' (by simp), List.take_left]
  have checkSum : le32At (encode record ++ bytes) (8 + record.data.length) = recordCheckSum record := by
    have behind := le32At_skip record.data (le32 (recordCheckSum record) ++ bytes) 0
    rw [le32At_here, Nat.add_zero] at behind
    rw [text, show 8 + record.data.length = record.data.length + 4 + 4 by omega, le32At_past32,
      le32At_past32, behind]
  rw [parseRecords, if_neg some']
  simp only [length, address, data]
  rw [if_neg (by rw [List.length_append, encode_length]; omega), checkSum]
  simp only [ne_eq, not_true_eq_false, if_false]
  rw [List.drop_left' encode_length]

theorem parseRecords_flatMap (short : ∀ record ∈ records, record.data.length < 2 ^ 32) :
    parseRecords (records.flatMap encode) = some records := by
  induction records with
  | nil =>
      rw [List.flatMap_nil, parseRecords, if_pos rfl]
  | cons record rest ih =>
      rw [List.forall_mem_cons] at short
      rw [List.flatMap_cons, parseRecords_encode short.1, ih short.2, Option.map_some]

/-- Twelve bytes a record, besides the data. -/
theorem parseRecords_length (parsed : parseRecords bytes = some records) :
    bytes.length = 12 * records.length + (recordsWrites records).length ∧
      ∀ record ∈ records, record.data.length < 2 ^ 32 := by
  induction bytes using parseRecords.induct generalizing records with
  | case1 =>
      rw [parseRecords, if_pos rfl] at parsed
      cases parsed
      exact ⟨rfl, by simp⟩
  | case2 bytes some' length =>
      rename_i short
      rw [parseRecords, if_neg some', if_pos short] at parsed
      cases parsed
  | case3 bytes some' length record long =>
      rename_i wrong
      rw [parseRecords, if_neg some', if_neg long, if_pos wrong] at parsed
      cases parsed
  | case4 bytes some' length record long right =>
      rename_i ih
      rw [parseRecords, if_neg some', if_neg long, if_neg right, Option.map_eq_some_iff] at parsed
      obtain ⟨rest, parsed, rfl⟩ := parsed
      obtain ⟨count, small⟩ := ih parsed
      rw [List.length_drop] at count
      have word : length < 2 ^ 32 := (le32At bytes 0).toNat_lt
      have size : (slice bytes 8 length).length = length := by
        rw [slice, List.length_take, List.length_drop]
        omega
      constructor
      · rw [recordsWrites, List.flatMap_cons, List.length_append, Segment.writes, writesFrom_length, size,
          List.length_cons, ← recordsWrites]
        omega
      · rw [List.forall_mem_cons]
        exact ⟨by rw [size]; exact word, small⟩

end

/-! # The output of the converter -/

section

variable {state : Converter} {address tagWord : UInt32} {byte : UInt8}
  {writes : List (UInt32 × UInt8)} {closed : List (Segment UInt32)} {record : Segment UInt32}
  {file front old back data : List UInt8}

theorem patch_length {pos : Nat} (within : pos + data.length ≤ file.length) :
    (patch file pos data).length = file.length := by
  simp only [patch, List.length_append, List.length_take, List.length_drop]
  omega

theorem patch_here (same : old.length = data.length) :
    patch (front ++ (old ++ back)) front.length data = front ++ (data ++ back) := by
  rw [patch, List.take_left, ← same, ← List.drop_drop, List.drop_left, List.drop_left, List.append_assoc]

/-! ## How long it gets -/

/-- A record that is open has its first two words. -/
def HasRoom (state : Converter) : Prop := state.recStart = true → 8 ≤ state.fOut.length

/-- The length of the output if it ended here. -/
def endLength (state : Converter) : Nat := state.fOut.length + if state.recStart then 4 else 0

theorem binRecEnd_length (room : HasRoom state) : (binRecEnd state).fOut.length = endLength state := by
  rw [binRecEnd, endLength]
  cases opened : state.recStart with
  | false => rfl
  | true =>
      have := room opened
      simp only [if_true, binOut32, List.length_append, le32_length]
      rw [patch_length (by rw [le32_length]; omega)]

theorem nextRecord_length (room : HasRoom state) :
    endLength (nextRecord address state) =
        endLength state + (if address = state.addressCurrent + 1 then 0 else 12) ∧
      HasRoom (nextRecord address state) := by
  rw [nextRecord]
  by_cases follows : address = state.addressCurrent + 1
  · rw [if_neg (not_not.mpr follows), if_pos follows]
    exact ⟨rfl, room⟩
  · rw [if_pos follows, if_neg follows]
    have length : (binRecStart address (binRecEnd state)).fOut.length = endLength state + 8 := by
      simp only [binRecStart, binOut32, List.length_append, le32_length, binRecEnd_length room]
    refine ⟨?_, fun _ => by omega⟩
    rw [endLength, length]
    rfl

theorem binRecOutByte_length (room : HasRoom state) :
    endLength (binRecOutByte address byte state) =
        endLength state + (if address = state.addressCurrent + 1 then 0 else 12) + 1 ∧
      HasRoom (binRecOutByte address byte state) ∧
      (binRecOutByte address byte state).addressCurrent = address := by
  obtain ⟨length, room'⟩ := @nextRecord_length state address room
  refine ⟨?_, fun opened => ?_, rfl⟩
  · rw [← length, endLength, endLength]
    simp only [binRecOutByte, binOut8, List.length_append, List.length_singleton]
    exact Nat.add_right_comm _ _ _
  · have := room' opened
    simp only [binRecOutByte, binOut8, List.length_append]
    omega

/-- Twelve bytes for each record that is opened. -/
theorem outBytes_length (room : HasRoom state) :
    endLength (outBytes writes state) =
        endLength state + writes.length + 12 * breaks (· + 1) state.addressCurrent writes ∧
      HasRoom (outBytes writes state) ∧
      (outBytes writes state).addressCurrent =
        ((writes.getLast?.map Prod.fst).getD state.addressCurrent) := by
  induction writes generalizing state with
  | nil => exact ⟨rfl, room, rfl⟩
  | cons write rest ih =>
      obtain ⟨address, byte⟩ := write
      obtain ⟨first, room', current⟩ := @binRecOutByte_length state address byte room
      obtain ⟨length, room'', last⟩ := ih room'
      have unfolded : outBytes ((address, byte) :: rest) state =
          outBytes rest (binRecOutByte address byte state) := rfl
      rw [unfolded, breaks, List.length_cons]
      refine ⟨?_, room'', ?_⟩
      · rw [length, first, current]
        split <;> omega
      · rw [last, current]
        cases rest with
        | nil => rfl
        | cons second rest => rfl

def outStart (start : Option UInt32) (state : Converter) : Converter :=
  match start with
  | none => state
  | some address => binRecOutProgramStart address state

theorem outStart_length {start : Option UInt32} (room : HasRoom state) :
    endLength (outStart start state) = endLength state +
        (if ∃ address, start = some address ∧ address ≠ state.addressCurrent + 1 then 12 else 0) ∧
      HasRoom (outStart start state) := by
  cases start with
  | none =>
      rw [if_neg (by simp)]
      exact ⟨rfl, room⟩
  | some address =>
      obtain ⟨length, room'⟩ := @nextRecord_length state address room
      refine ⟨?_, room'⟩
      show endLength (nextRecord address state) = _
      rw [length]
      by_cases follows : address = state.addressCurrent + 1 <;> simp [follows]

/-! ## What it is -/

/-- Closed records, and one that is being written. -/
structure Writing (tagWord : UInt32) (state : Converter) (closed : List (Segment UInt32))
    (record : Segment UInt32) : Prop where
  fOut : state.fOut = le32 tagWord ++ closed.flatMap encode ++
    (le32 0 ++ (le32 record.address ++ record.data))
  recStart : state.recStart = true
  recLength : state.recLength = UInt32.ofNat record.data.length
  checkSum : state.checkSum = record.address + byteSum record.data

theorem Writing.ended (writing : Writing tagWord state closed record)
    (short : record.data.length < 2 ^ 32) :
    (binRecEnd state).fOut = le32 tagWord ++ (closed ++ [record]).flatMap encode := by
  have length : state.recLength.toNat = record.data.length := by
    rw [writing.recLength, UInt32.toNat_ofNat', Nat.mod_eq_of_lt short]
  have place : state.fOut.length - state.recLength.toNat - 4 - 4 =
      (le32 tagWord ++ closed.flatMap encode).length := by
    rw [writing.fOut, length]
    simp only [List.length_append, le32_length]
    omega
  have sum : ~~~(state.checkSum + state.recLength) + 1 = recordCheckSum record := by
    rw [writing.checkSum, writing.recLength, recordCheckSum, UInt32.zero_sub, UInt32.neg_eq_not_add]
    congr 2
    rw [UInt32.add_comm, ← UInt32.add_assoc]
  rw [binRecEnd, if_pos writing.recStart]
  simp only [binOut32]
  rw [place, sum, writing.fOut, patch_here (by rw [le32_length, le32_length]), writing.recLength]
  simp only [List.flatMap_append, List.flatMap_cons, List.flatMap_nil, List.append_nil, encode,
    List.append_assoc]

theorem Writing.next (writing : Writing tagWord state closed record)
    (short : record.data.length < 2 ^ 32) :
    Writing tagWord (binRecStart address (binRecEnd state)) (closed ++ [record]) ⟨address, []⟩ where
  fOut := by
    simp only [binRecStart, binOut32, writing.ended short, List.append_assoc, List.append_nil]
  recStart := rfl
  recLength := rfl
  checkSum := (UInt32.add_zero _).symm

/-- A byte behind those of the record. -/
theorem Writing.goesOn (writing : Writing tagWord state closed record) :
    Writing tagWord
      (binOut8 byte { state with addressCurrent := address, checkSum := state.checkSum + byte.toUInt32 })
      closed ⟨record.address, record.data ++ [byte]⟩ where
  fOut := by
    simp only [binOut8, writing.fOut, List.append_assoc]
  recStart := writing.recStart
  recLength := by
    simp only [binOut8, writing.recLength, List.length_append, List.length_singleton]
    apply UInt32.toNat_inj.mp
    rw [UInt32.toNat_add, UInt32.toNat_ofNat', UInt32.toNat_ofNat', Nat.mod_add_mod]
    rfl
  checkSum := by
    simp only [binOut8, writing.checkSum, byteSum_append, byteSum, UInt32.add_zero, UInt32.add_assoc]

/-- The runs go out one behind the other, the last one staying open. -/
theorem Writing.outBytes (writing : Writing tagWord state closed record)
    (current : state.addressCurrent + 1 = record.behind (· + 1))
    (short : ∀ run ∈ join (· + 1) record (runs (· + 1) writes), run.data.length < 2 ^ 32) :
    ∃ closed' record', Writing tagWord (outBytes writes state) closed' record' ∧
      closed' ++ [record'] = closed ++ join (· + 1) record (runs (· + 1) writes) := by
  induction writes generalizing state closed record with
  | nil => exact ⟨closed, record, writing, rfl⟩
  | cons write rest ih =>
      obtain ⟨address, byte⟩ := write
      have unfolded : Srec.outBytes ((address, byte) :: rest) state =
          Srec.outBytes rest (binRecOutByte address byte state) := rfl
      rw [unfolded, runs, join_join] at *
      by_cases follows : address = record.behind (· + 1)
      · rw [if_pos follows] at short ⊢
        have same : binRecOutByte address byte state =
            binOut8 byte { state with addressCurrent := address, checkSum := state.checkSum + byte.toUInt32 } := by
          rw [binRecOutByte, nextRecord, if_neg (not_not.mpr (follows.trans current.symm))]
        rw [same]
        refine ih writing.goesOn ?_ short
        rw [behind_append (show (Segment.mk address [byte]).address = record.behind (· + 1) from follows)]
        rfl
      · rw [if_neg follows] at short ⊢
        rw [List.forall_mem_cons] at short
        have opened : binRecOutByte address byte state =
            binOut8 byte { binRecStart address (binRecEnd state) with
              addressCurrent := address,
              checkSum := (binRecStart address (binRecEnd state)).checkSum + byte.toUInt32 } := by
          rw [binRecOutByte, nextRecord, if_pos (fun same => follows (same.trans current))]
        rw [opened]
        obtain ⟨closed', record', writing', all⟩ := ih (writing.next short.1).goesOn rfl short.2
        refine ⟨closed', record', writing', ?_⟩
        rw [all, List.append_assoc]
        rfl

end

end Rut9xx.Srec
