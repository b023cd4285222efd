import Rut9xx.Srec.Convert
import Mathlib.Data.List.TakeWhile

namespace Rut9xx.Srec

open Data

/-! # Texts of S-records, and what becomes of each record -/

inductive Record where
  | s0 (data : List UInt8)
  | s3 (address : UInt32) (data : List UInt8)
  | s5 (count : UInt16)
  | s7 (start : UInt32)

def Record.type : Record → UInt8
  | .s0 _ => 0x30
  | .s3 _ _ => 0x33
  | .s5 _ => 0x35
  | .s7 _ => 0x37

/-- Address and data. -/
def Record.payload : Record → List UInt8
  | .s0 data => be16 0 ++ data
  | .s3 address data => be32 address ++ data
  | .s5 count => be16 count
  | .s7 start => be32 start

/-- The count of the bytes that follow it, with the checksum. -/
def Record.count (record : Record) : Nat := record.payload.length + 1

/-- Bytes in hexadecimal digits of either case. -/
inductive HexOf : List UInt8 → List UInt8 → Prop
  | nil : HexOf [] []
  | cons {byte high low : UInt8} {bytes text : List UInt8} :
      hexValue high = some (byte.toNat / 16) → hexValue low = some (byte.toNat % 16) →
      HexOf bytes text → HexOf (byte :: bytes) (high :: low :: text)

/-- The line of a record; its bytes add up to all ones with the count and the checksum. -/
structure Renders (record : Record) (line : List UInt8) : Prop where
  fits : record.count ≤ 255
  line : ∃ text last, line = 0x53 :: record.type :: text ∧
    HexOf (UInt8.ofNat record.count :: (record.payload ++ [last])) text ∧
    (record.count + ((record.payload ++ [last]).map UInt8.toNat).sum) % 256 = 255

/-- Lines may end as in Unix or in DOS, and the last one need not end. -/
inductive RendersFile : List Record → List UInt8 → Prop
  | nil : RendersFile [] []
  | last {record : Record} {line : List UInt8} : Renders record line → RendersFile [record] line
  | unix {record : Record} {line : List UInt8} {records : List Record} {text : List UInt8} :
      Renders record line → RendersFile records text →
      RendersFile (record :: records) (line ++ 0x0a :: text)
  | dos {record : Record} {line : List UInt8} {records : List Record} {text : List UInt8} :
      Renders record line → RendersFile records text →
      RendersFile (record :: records) (line ++ 0x0d :: 0x0a :: text)

/-- The bytes that go out one by one. -/
def outBytes (writes : List (UInt32 × UInt8)) (state : Converter) : Converter :=
  writes.foldl (fun state write => binRecOutByte write.1 write.2 state) state

/-- What a record of a line that fits the buffer does. -/
def Record.step (record : Record) (state : Converter) : Bool × Converter :=
  match record with
  | .s0 _ => (true, state)
  | .s3 address data =>
      let state := outBytes (writesFrom (· + 1) address data) state
      (true, { state with s1s2s3Total := state.s1s2s3Total + 1 })
  | .s5 count => (count.toUInt32 ||| state.s1s2s3Total == 0, state)
  | .s7 start => (true, binRecOutProgramStart start state)

/-- The line is longer than the buffer. -/
def Record.Overlong (record : Record) : Prop := buffSize ≤ 4 + 2 * record.count

instance (record : Record) : Decidable record.Overlong := inferInstanceAs (Decidable (_ ≤ _))

/-- The records up to the first that is refused. -/
def convert : List Record → Converter → Converter
  | [], state => state
  | record :: rest, state =>
      if record.Overlong then state
      else if (record.step state).1 then convert rest (record.step state).2
      else (record.step state).2

variable {record : Record} {records : List Record} {bytes more text line rest buf : List UInt8}
  {state : Converter} {adr : UInt32} {rlen : Nat}

/-! ## Digits -/

theorem HexOf.length (hex : HexOf bytes text) : text.length = 2 * bytes.length := by
  induction hex with
  | nil => rfl
  | cons _ _ _ ih =>
      simp only [List.length_cons, ih]
      omega

theorem HexOf.digits (hex : HexOf bytes text) : ∀ c ∈ text, (hexValue c).isSome = true := by
  induction hex with
  | nil => simp
  | cons high low _ ih =>
      simp only [List.forall_mem_cons, high, low, Option.isSome_some, true_and]
      exact ih

theorem HexOf.gh (hex : HexOf bytes text) {count : Nat} (within : count ≤ bytes.length) :
    gh text (2 * count) = (bytes.take count).foldl (fun j byte => 256 * j + byte.toNat) 0 := by
  have step (acc : Nat) : (text.take (2 * count)).foldl (fun j c => 16 * j + (hexValue c).getD 0) acc =
      (bytes.take count).foldl (fun j byte => 256 * j + byte.toNat) acc := by
    induction hex generalizing acc count with
    | nil => simp
    | cons high low _ ih =>
        cases count with
        | zero => rfl
        | succ count =>
            rename_i byte _ _ _ _ _
            rw [show 2 * (count + 1) = 2 * count + 1 + 1 by omega, List.take_succ_cons, List.take_succ_cons,
              List.take_succ_cons, List.foldl_cons, List.foldl_cons, List.foldl_cons, high, low,
              Option.getD_some, Option.getD_some, ih (by simpa using within)]
            congr 1
            omega
  exact step 0

theorem HexOf.drop (hex : HexOf bytes text) (count : Nat) :
    HexOf (bytes.drop count) (text.drop (2 * count)) := by
  induction hex generalizing count with
  | nil => simpa using HexOf.nil
  | cons high low rest ih =>
      cases count with
      | zero => exact HexOf.cons high low rest
      | succ count => exact ih count

theorem HexOf.sum (hex : HexOf bytes text) :
    sumBytes text bytes.length = (bytes.map UInt8.toNat).sum := by
  induction bytes generalizing text with
  | nil => rfl
  | cons byte rest ih =>
      have first := hex.gh (show 1 ≤ (byte :: rest).length by simp)
      rw [Nat.mul_one] at first
      rw [List.length_cons, sumBytes, first, ih (hex.drop 1), List.map_cons, List.sum_cons]
      simp

theorem HexOf.dataLoop (hex : HexOf (bytes ++ more) text) :
    dataLoop text adr bytes.length state = outBytes (writesFrom (· + 1) adr bytes) state := by
  induction bytes generalizing text adr state with
  | nil => rfl
  | cons byte rest ih =>
      have first := hex.gh (show 1 ≤ (byte :: rest ++ more).length by simp)
      rw [Nat.mul_one] at first
      rw [List.length_cons, Srec.dataLoop, ih (hex.drop 1), first]
      simp [writesFrom, outBytes]

/-! ## Lines -/

theorem gh_be16 {word : UInt16} (hex : HexOf (be16 word ++ more) text) : gh text 4 = word.toNat := by
  have read := hex.gh (show 2 ≤ (be16 word ++ more).length by simp)
  rw [show 2 * 2 = 4 by rfl, List.take_left' (be16_length word)] at read
  rw [read, be16]
  simp only [List.foldl_cons, List.foldl_nil, UInt8.toNat_ofNat']
  have := word.toNat_lt
  omega

theorem gh_be32 {word : UInt32} (hex : HexOf (be32 word ++ more) text) :
    UInt32.ofNat (gh text 8) = word := by
  have read := hex.gh (show 4 ≤ (be32 word ++ more).length by simp)
  rw [show 2 * 4 = 8 by rfl, List.take_left' (be32_length word)] at read
  rw [read, be32]
  simp only [List.foldl_cons, List.foldl_nil, UInt8.toNat_ofNat']
  apply UInt32.toNat_inj.mp
  rw [UInt32.toNat_ofNat']
  have := word.toNat_lt
  omega

theorem srecRecord_renders {last : UInt8} (hex : HexOf (record.payload ++ [last]) text) :
    srecRecord record.type text record.count state = record.step state := by
  cases record with
  | s0 data =>
      have address : gh text 4 = 0 := by
        rw [Record.payload, List.append_assoc] at hex
        exact gh_be16 hex
      have count : (Record.s0 data).count = data.length + 3 := by
        simp only [Record.count, Record.payload, List.length_append, be16_length]
        omega
      rw [show (Record.s0 data).type = 0x30 by rfl, srecRecord, address, count, if_pos rfl,
        if_neg (by omega)]
      rfl
  | s3 address data =>
      rw [Record.payload, List.append_assoc] at hex
      have start : UInt32.ofNat (gh text 8) = address := gh_be32 hex
      have bytes := hex.drop 4
      rw [List.drop_left' (be32_length address)] at bytes
      have count : (Record.s3 address data).count = data.length + 5 := by
        simp only [Record.count, Record.payload, List.length_append, be32_length]
        omega
      rw [show (Record.s3 address data).type = 0x33 by rfl, srecRecord, count, if_neg (by decide),
        if_neg (by decide), if_pos rfl, if_neg (by omega), start, Nat.add_sub_cancel, bytes.dataLoop]
      rfl
  | s5 count =>
      rw [Record.payload] at hex
      have number : gh text 4 = count.toNat := gh_be16 hex
      have word : UInt32.ofNat count.toNat = count.toUInt32 := by
        apply UInt32.toNat_inj.mp
        rw [UInt32.toNat_ofNat', UInt16.toNat_toUInt32]
        have := count.toNat_lt
        omega
      rw [show (Record.s5 count).type = 0x35 by rfl, srecRecord, number, word, if_neg (by decide),
        if_neg (by decide), if_neg (by decide), if_pos rfl, show (Record.s5 count).count = 3 by rfl,
        if_neg (by decide)]
      rfl
  | s7 start =>
      rw [Record.payload] at hex
      have address : UInt32.ofNat (gh text 8) = start := gh_be32 hex
      have count : (Record.s7 start).count = 5 := rfl
      rw [show (Record.s7 start).type = 0x37 by rfl, srecRecord, address, count, if_neg (by decide),
        if_neg (by decide), if_neg (by decide), if_neg (by decide), if_pos rfl, if_neg (by decide),
        if_neg (by decide)]
      rfl

theorem Renders.length (renders : Renders record line) : line.length = 4 + 2 * record.count := by
  obtain ⟨text, last, rfl, hex, -⟩ := renders.line
  rw [List.length_cons, List.length_cons, hex.length]
  simp only [List.length_cons, List.length_append, List.length_nil, Record.count]
  omega

/-- The line without what follows it, cut to the buffer. -/
theorem srecLine_renders (renders : Renders record line) :
    srecLine (line.take 255) state =
      if record.Overlong then (false, state) else record.step state := by
  have length := renders.length
  obtain ⟨text, last, rfl, hex, sum⟩ := renders.line
  have fits := renders.fits
  have some' : 1 ≤ record.count := Nat.succ_le_succ (Nat.zero_le _)
  have count : gh text 2 = record.count := by
    have read := hex.gh (show 1 ≤ (UInt8.ofNat record.count :: (record.payload ++ [last])).length by simp)
    rw [Nat.mul_one] at read
    rw [read]
    simp only [List.take_succ_cons, List.take_zero, List.foldl_cons, List.foldl_nil, Nat.mul_zero,
      Nat.zero_add, UInt8.toNat_ofNat']
    omega
  have digits := hex.drop 1
  rw [Nat.mul_one, List.drop_succ_cons, List.drop_zero] at digits
  have many : text.length = 2 * record.count + 2 := by
    simp only [List.length_cons] at length
    omega
  rw [show (255 : Nat) = 253 + 1 + 1 by rfl, List.take_succ_cons, List.take_succ_cons, srecLine,
    if_neg (by simp)]
  have front : gh (text.take 253) 2 = record.count := by
    rw [gh, List.take_take, Nat.min_eq_left (by decide), ← gh, count]
  simp only [front, List.length_drop, List.length_take]
  rw [if_neg (show ¬ min 253 text.length + 1 < 4 by omega)]
  by_cases long : record.Overlong
  · have beyond : 256 ≤ 4 + 2 * record.count := long
    rw [if_pos long, if_pos (by omega)]
  · have short : 4 + 2 * record.count < 256 := Nat.not_le.mp long
    have whole : text.take 253 = text := List.take_of_length_le (by omega)
    have valid : checksum (text.drop 2) record.count = true := by
      have total : (record.payload ++ [last]).length = record.count := by
        rw [Record.count, List.length_append, List.length_singleton]
      have added := digits.sum
      rw [total] at added
      rw [checksum, added, Bool.and_eq_true, List.all_eq_true, beq_iff_eq]
      exact ⟨digits.digits, sum⟩
    rw [if_neg long, if_neg (by omega), whole, if_pos valid, srecRecord_renders digits]

/-! ## Files -/

theorem digit_ge {c : UInt8} (digit : (hexValue c).isSome = true) : 0x30 ≤ c := by
  rw [hexValue] at digit
  split at digit
  · rename_i decimal
    exact decimal.1
  · split at digit
    · rename_i lower
      exact UInt8.le_trans (by decide) lower.1
    · split at digit
      · rename_i upper
        exact UInt8.le_trans (by decide) upper.1
      · cases digit

theorem Renders.printable (renders : Renders record line) : ∀ c ∈ line, 0x30 ≤ c := by
  obtain ⟨text, last, rfl, hex, -⟩ := renders.line
  rw [List.forall_mem_cons, List.forall_mem_cons]
  refine ⟨by decide, ?_, fun c member => digit_ge (hex.digits c member)⟩
  cases record <;> rw [Record.type] <;> decide

/-- A line goes into the buffer as far as it fits. -/
theorem readline_line {len : Nat} (printable : ∀ c ∈ line, 0x30 ≤ c) :
    readline len buf rlen (line ++ rest) =
      readline len (buf ++ line.take (len - 1 - buf.length)) (rlen + line.length) rest := by
  induction line generalizing buf rlen with
  | nil => simp
  | cons c line ih =>
      rw [List.forall_mem_cons] at printable
      have notNewline : c ≠ 0x0a := by
        rintro rfl
        exact absurd printable.1 (by decide)
      have notReturn : c ≠ 0x0d := by
        rintro rfl
        exact absurd printable.1 (by decide)
      rw [List.cons_append, readline, if_neg notNewline, List.length_cons]
      by_cases room : buf.length + 1 < len
      · rw [if_pos ⟨room, notReturn⟩, ih printable.2, List.length_append, List.length_singleton,
          show len - 1 - buf.length = len - 1 - (buf.length + 1) + 1 by omega, List.take_succ_cons,
          List.append_assoc, List.singleton_append, Nat.add_assoc, Nat.add_comm 1]
      · rw [if_neg fun both => room both.1, ih printable.2, show len - 1 - buf.length = 0 by omega,
          List.take_zero, List.take_zero, Nat.add_assoc, Nat.add_comm 1]

theorem lineLoop_read {buff : List UInt8} (read : readline buffSize [] 0 text = some (buff, rest))
    (some' : buff ≠ []) (printable : ∀ c ∈ buff, 0x30 ≤ c) :
    lineLoop text state =
      if (srecLine buff state).1 then lineLoop rest (srecLine buff state).2
      else (srecLine buff state).2 := by
  have whole : buff.takeWhile (· ≠ 0) = buff := by
    rw [List.takeWhile_eq_self_iff]
    intro c member
    rw [decide_eq_true_eq]
    rintro rfl
    exact absurd (printable 0 member) (by decide)
  rw [lineLoop]
  split
  · rename_i none'
    rw [read] at none'
    cases none'
  · rename_i again
    rw [read] at again
    cases again
    simp only [whole]
    rw [if_neg fun empty => some' (List.length_eq_zero_iff.mp empty)]

theorem lineLoop_end : lineLoop [] state = state := by
  rw [lineLoop]
  split
  · rfl
  · rename_i read
    cases read

theorem lineLoop_line (renders : Renders record line)
    (read : readline buffSize [] 0 text = some (line.take 255, rest)) :
    lineLoop text state =
      if record.Overlong then state
      else if (record.step state).1 then lineLoop rest (record.step state).2
      else (record.step state).2 := by
  have some' : line.take 255 ≠ [] := by
    intro empty
    have length := congrArg List.length empty
    rw [List.length_take, renders.length, List.length_nil] at length
    omega
  rw [lineLoop_read read some' fun c member => renders.printable c (List.mem_of_mem_take member),
    srecLine_renders renders]
  by_cases long : record.Overlong
  · rw [if_pos long, if_pos long, if_neg (by simp)]
  · rw [if_neg long, if_neg long]

/-- A text is converted record by record. -/
theorem lineLoop_renders (file : RendersFile records text) :
    lineLoop text state = convert records state := by
  induction file generalizing state with
  | nil => exact lineLoop_end
  | @last record line renders =>
      have read : readline buffSize [] 0 line = some (line.take 255, []) := by
        have through := @readline_line line [] [] 0 buffSize renders.printable
        rw [List.append_nil, List.nil_append, readline, if_neg (by rw [renders.length]; omega)] at through
        exact through
      rw [lineLoop_line renders read, lineLoop_end]
      rfl
  | @unix record line records text renders _ ih =>
      have read : readline buffSize [] 0 (line ++ 0x0a :: text) = some (line.take 255, text) := by
        rw [readline_line renders.printable, readline, if_pos rfl]
        rfl
      rw [lineLoop_line renders read, ih]
      rfl
  | @dos record line records text renders _ ih =>
      have read : readline buffSize [] 0 (line ++ 0x0d :: 0x0a :: text) = some (line.take 255, text) := by
        rw [readline_line renders.printable, readline, if_neg (by decide), if_neg (by simp), readline,
          if_pos rfl]
        rfl
      rw [lineLoop_line renders read, ih]
      rfl

end Rut9xx.Srec
