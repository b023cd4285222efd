import Rut9xx.Chilli.DhcpConn
import Rut9xx.Data.HexText

namespace Rut9xx.Chilli

open Data

/-! # The text of an ethers file

A line has a MAC and an IP address; a comment reaches to its end.
-/

section

def isNewline (byte : UInt8) : Bool := byte = 0x0a ∨ byte = 0x0d ∨ byte = 0x2c

def isBlank (byte : UInt8) : Bool := byte = 0x20 ∨ byte = 0x09 ∨ byte = 0x3d

def commentSign : UInt8 := 0x23

def lineFeed : UInt8 := 0x0a

/-- Up to the terminator. -/
def cString (text : List UInt8) : List UInt8 := text.takeWhile (· ≠ 0)

/-- One `%2x` with the blanks in front. -/
def scanHex (text : List UInt8) : Option (UInt8 × List UInt8) :=
  match text.dropWhile isSpace with
  | [] => none
  | high :: rest =>
      match hexValue high with
      | none => none
      | some first =>
          match rest with
          | [] => some (UInt8.ofNat first, [])
          | low :: more =>
              match hexValue low with
              | none => some (UInt8.ofNat first, rest)
              | some second => some (UInt8.ofNat (16 * first + second), more)

/-- `sscanf` with `%2x %2x %2x %2x %2x %2x`, if it reads all six. -/
def scanMac (text : List UInt8) : Option Mac := do
  let (a, text) ← scanHex text
  let (b, text) ← scanHex text
  let (c, text) ← scanHex text
  let (d, text) ← scanHex text
  let (e, text) ← scanHex text
  let (f, _) ← scanHex text
  pure #v[a, b, c, d, e, f]

/-- What is no digit separates. -/
def blankOther (text : List UInt8) : List UInt8 :=
  text.map fun byte => if (hexValue byte).isSome then byte else 0x20

def digitsValue (base : Nat) (text : List UInt8) : Option Nat :=
  if text = [] then none
  else (text.mapM hexValue).bind fun digits =>
    if ∀ digit ∈ digits, digit < base then some (digits.foldl (fun value digit => base * value + digit) 0)
    else none

/-- A number of `inet_aton`, with the base that its beginning tells; `strtoul` stops at 32 bits. -/
def inetNumber (text : List UInt8) : Option Nat :=
  let value :=
    match text with
    | first :: second :: rest =>
        if first = 0x30 then
          if second = 0x78 ∨ second = 0x58 then digitsValue 16 rest else digitsValue 8 (second :: rest)
        else digitsValue 10 text
    | _ => digitsValue 10 text
  value.map fun value => min value 0xffffffff

/-- `inet_aton` -/
def inetAton (text : List UInt8) : Option UInt32 :=
  ((text.splitOn 0x2e).mapM inetNumber).bind fun numbers =>
    match numbers with
    | [a] => some (UInt32.ofNat a)
    | [a, b] => if a < 2 ^ 8 ∧ b < 2 ^ 24 then some (UInt32.ofNat (a * 2 ^ 24 + b)) else none
    | [a, b, c] =>
        if a < 2 ^ 8 ∧ b < 2 ^ 8 ∧ c < 2 ^ 16 then some (UInt32.ofNat ((a * 2 ^ 8 + b) * 2 ^ 16 + c))
        else none
    | [a, b, c, d] =>
        if a < 2 ^ 8 ∧ b < 2 ^ 8 ∧ c < 2 ^ 8 ∧ d < 2 ^ 8 then
          some (UInt32.ofNat (((a * 2 ^ 8 + b) * 2 ^ 8 + c) * 2 ^ 8 + d))
        else none
    | _ => none

def readMac (field : List UInt8) : Option Mac := scanMac (blankOther (cString field))

def readIp (field : List UInt8) : Option UInt32 := inetAton (cString field)

end

/-! ## Entries -/

section

/-- A pair and the place behind its entry; no address where none is set. -/
structure Reserved where
  place : Nat
  mac : Mac
  ip : Option UInt32
  deriving DecidableEq

/-- What of a line is in front of a place: the fields that are complete with the places behind them,
the one that has begun, and whether a comment has. -/
structure Line where
  fields : List (List UInt8 × Nat)
  field : List UInt8
  comment : Bool

def Line.fresh : Line := ⟨[], [], false⟩

def Line.close (line : Line) (place : Nat) : List (List UInt8 × Nat) :=
  if line.field = [] then line.fields else line.fields ++ [(line.field, place)]

/-- The entry of a line, if it is well-formed. -/
def entryOf : List (List UInt8 × Nat) → List Reserved
  | [(mac, _), (ip, place)] =>
      match readMac mac, readIp ip with
      | some mac, some ip => [⟨place, mac, some ip⟩]
      | _, _ => []
  | _ => []

/-- The well-formed entries of a text that begins at `place` of a file, behind what is in front of it
in its line. -/
def entries (place : Nat) (line : Line) : List UInt8 → List Reserved
  | [] => entryOf (line.close place)
  | byte :: rest =>
      if isNewline byte ∧ (line.comment → byte = lineFeed) then
        entryOf (line.close place) ++ entries (place + 1) .fresh rest
      else if line.comment then entries (place + 1) line rest
      else if byte = commentSign then entries (place + 1) ⟨line.close place, [], true⟩ rest
      else if isBlank byte then entries (place + 1) ⟨line.close place, [], false⟩ rest
      -- a terminator in front of a field is no part of it
      else if byte = 0 ∧ line.field = [] then entries (place + 1) line rest
      else entries (place + 1) { line with field := line.field ++ [byte] } rest

end

/-! ## Fields as the scanner finds them -/

section

def isSeparator (byte : UInt8) : Bool := isNewline byte || isBlank byte

/-- What the scanner passes over behind a separator. -/
def isSkipped (byte : UInt8) : Bool :=
  byte = 0 ∨ byte = 0x0d ∨ byte = 0x0a ∨ byte = 0x20 ∨ byte = 0x09

/-- What is in front of the next separator that is in no comment, the separator, and what is behind
it. -/
def untilSeparator (comment : Bool) : List UInt8 → Option (List UInt8 × UInt8 × List UInt8)
  | [] => none
  | byte :: rest =>
      if !comment && isSeparator byte then some ([], byte, rest)
      else
        (untilSeparator (if comment then byte ≠ lineFeed else byte = commentSign) rest).map
          fun (token, sep, more) => (byte :: token, sep, more)

/-- What stands on the last line of `token`. -/
def ownField (field : List UInt8) (comment : Bool) : List UInt8 → List UInt8
  | [] => field
  | byte :: rest =>
      if comment then ownField [] (byte ≠ lineFeed) rest
      else if byte = commentSign then ownField [] true rest
      else if byte = 0 ∧ field = [] then ownField field false rest
      else ownField (field ++ [byte]) false rest

/-- Behind blanks the line ends or a comment begins. -/
def EndsLine (rest : List UInt8) : Prop :=
  ∀ byte ∈ (rest.dropWhile fun byte => isBlank byte ∨ byte = 0).head?,
    isNewline byte ∨ byte = commentSign

end

variable {place start : Nat} {line : Line} {rest token more field : List UInt8} {byte sep : UInt8}
  {comment : Bool} {fields : List (List UInt8 × Nat)} {entry : Reserved}

/-! ## What the entries of a text are -/

section

theorem entryOf_few (few : fields.length ≤ 1) : entryOf fields = [] := by
  match fields, few with
  | [], _ => rfl
  | [_], _ => rfl

theorem entryOf_place (member : entry ∈ entryOf fields) :
    ∃ first second, fields = [first, second] ∧ entry.place = second.2 := by
  match fields with
  | [] => cases member
  | [_] => cases member
  | [(mac, first), (ip, second)] =>
      refine ⟨_, _, rfl, ?_⟩
      simp only [entryOf] at member
      split at member
      · rw [List.mem_singleton.mp member]
      · cases member
  | _ :: _ :: _ :: _ => cases member

theorem close_cases : line.field = [] ∧ line.close place = line.fields ∨
    line.field ≠ [] ∧ line.close place = line.fields ++ [(line.field, place)] := by
  unfold Line.close
  split
  · exact .inl ⟨‹_›, rfl⟩
  · exact .inr ⟨‹_›, rfl⟩

/-- The place of a second field. -/
theorem close_second {first second : List UInt8 × Nat} (closed : line.close place = [first, second]) :
    line.fields = [first, second] ∧ line.field = [] ∨ second.2 = place := by
  rcases @close_cases place line with ⟨empty, same⟩ | ⟨-, grown⟩
  · exact .inl ⟨same ▸ closed, empty⟩
  · right
    rw [grown] at closed
    match fields : line.fields with
    | [] =>
        rw [fields] at closed
        cases closed
    | [_] =>
        rw [fields] at closed
        cases closed
        rfl
    | _ :: _ :: more =>
        rw [fields] at closed
        simp at closed

/-- An entry ends where its second field does. -/
theorem entries_place (member : entry ∈ entries place line rest) :
    (∃ first second, line.fields = [first, second] ∧ line.field = [] ∧ entry.place = second.2) ∨
      place ≤ entry.place := by
  have emitted {place : Nat} {line : Line} (member : entry ∈ entryOf (line.close place)) :
      (∃ first second, line.fields = [first, second] ∧ line.field = [] ∧ entry.place = second.2) ∨
        place ≤ entry.place := by
    obtain ⟨first, second, closed, here⟩ := entryOf_place member
    rcases close_second closed with ⟨fields, empty⟩ | behind
    · exact .inl ⟨first, second, fields, empty, here⟩
    · exact .inr (by omega)
  have closed {place : Nat} {line : Line} {comment : Bool}
      (later : (∃ first second, (Line.mk (line.close place) [] comment).fields = [first, second] ∧
        (Line.mk (line.close place) [] comment).field = [] ∧ entry.place = second.2) ∨
          place + 1 ≤ entry.place) :
      (∃ first second, line.fields = [first, second] ∧ line.field = [] ∧ entry.place = second.2) ∨
        place ≤ entry.place := by
    rcases later with ⟨first, second, closed, -, here⟩ | behind
    · rcases close_second closed with ⟨fields, empty⟩ | behind
      · exact .inl ⟨first, second, fields, empty, here⟩
      · exact .inr (by omega)
    · exact .inr (by omega)
  induction rest generalizing place line with
  | nil => exact emitted member
  | cons byte rest ih =>
      rw [entries] at member
      split at member
      · rcases List.mem_append.mp member with here | later
        · exact emitted here
        · rcases ih later with ⟨_, _, none', _⟩ | behind
          · cases none'
          · exact .inr (by omega)
      · split at member
        · rcases ih member with same | behind
          · exact .inl same
          · exact .inr (by omega)
        · split at member
          · exact closed (ih member)
          · split at member
            · exact closed (ih member)
            · split at member
              · rcases ih member with same | behind
                · exact .inl same
                · exact .inr (by omega)
              · rcases ih member with ⟨_, _, -, grown, -⟩ | behind
                · simp at grown
                · exact .inr (by omega)

theorem entries_behind (few : line.fields.length ≤ 1) (member : entry ∈ entries place line rest) :
    place ≤ entry.place := by
  rcases entries_place member with ⟨_, _, two, -⟩ | behind
  · rw [two] at few
    exact absurd few (by simp)
  · exact behind

end

/-! ## Fields and entries -/

section

theorem newline_separator (newline : isNewline byte = true) : isSeparator byte = true := by
  rw [isSeparator, newline, Bool.true_or]

theorem lineFeed_newline : isNewline lineFeed = true := by decide

theorem blank_not_newline (blank : isBlank byte = true) : isNewline byte = false := by
  simp only [isBlank, decide_eq_true_eq] at blank
  rcases blank with rfl | rfl | rfl <;> decide

theorem commentSign_plain : isSeparator commentSign = false := by decide

theorem untilSeparator_separator (found : untilSeparator comment rest = some (token, sep, more)) :
    isSeparator sep = true := by
  induction rest generalizing comment token with
  | nil => cases found
  | cons byte rest ih =>
      rw [untilSeparator] at found
      split at found
      · rename_i here
        cases found
        simp only [Bool.and_eq_true] at here
        exact here.2
      · obtain ⟨⟨token', sep', more'⟩, later, same⟩ := Option.map_eq_some_iff.mp found
        cases same
        exact ih later

theorem untilSeparator_append (found : untilSeparator comment rest = some (token, sep, more)) :
    rest = token ++ sep :: more := by
  induction rest generalizing comment token with
  | nil => cases found
  | cons byte rest ih =>
      rw [untilSeparator] at found
      split at found
      · cases found
        rfl
      · obtain ⟨⟨token', sep', more'⟩, later, same⟩ := Option.map_eq_some_iff.mp found
        cases same
        rw [ih later, List.cons_append]

/-- Fields that a text without a separator does not complete. -/
structure Alone (line : Line) : Prop where
  empty : line.comment = false → line.fields = []
  ended : line.comment = true → line.field = [] ∧ line.fields.length ≤ 1

theorem Alone.fresh : Alone .fresh := ⟨fun _ => rfl, fun impossible => by cases impossible⟩

theorem Alone.few (alone : Alone line) : (line.close place).length ≤ 1 := by
  unfold Line.close
  cases comment : line.comment with
  | true =>
      rw [if_pos (alone.ended comment).1]
      exact (alone.ended comment).2
  | false =>
      rw [alone.empty comment]
      split <;> simp

/-- Where a field begins on a line of its own, only what stands on its last line counts. -/
theorem entries_own (found : untilSeparator line.comment rest = some (token, sep, more))
    (alone : Alone line) :
    entries place line rest = entries (place + token.length)
      ⟨[], ownField line.field line.comment token, false⟩ (sep :: more) := by
  induction rest generalizing place line token with
  | nil => cases found
  | cons byte rest ih =>
      have few := @Alone.few place line alone
      obtain ⟨fields, field, comment⟩ := line
      rw [untilSeparator] at found
      simp only at found
      cases comment with
      | true =>
          rw [if_neg (by simp)] at found
          obtain ⟨⟨token', sep', more'⟩, later, same⟩ := Option.map_eq_some_iff.mp found
          cases same
          obtain ⟨rfl, -⟩ := alone.ended rfl
          simp only [if_true] at later
          rw [entries, List.length_cons, ← Nat.add_assoc, Nat.add_right_comm]
          by_cases feed : byte = lineFeed
          · subst feed
            rw [if_pos ⟨lineFeed_newline, fun _ => rfl⟩, entryOf_few few, List.nil_append,
              @ih _ .fresh _ later .fresh]
            simp [ownField, Line.fresh]
          · rw [if_neg (by simp [feed]), if_pos rfl,
              @ih _ ⟨fields, [], true⟩ _ (by simpa [feed] using later) alone]
            simp [ownField, feed]
      | false =>
          obtain rfl := alone.empty rfl
          by_cases separates : isSeparator byte = true
          · rw [if_pos (by simp [separates])] at found
            cases found
            rfl
          · rw [if_neg (by simp [separates])] at found
            obtain ⟨⟨token', sep', more'⟩, later, same⟩ := Option.map_eq_some_iff.mp found
            cases same
            simp only [isSeparator, Bool.or_eq_true, not_or] at separates
            simp only [Bool.false_eq_true, if_false] at later
            rw [entries, List.length_cons, ← Nat.add_assoc, Nat.add_right_comm,
              if_neg (by simp [separates.1]), if_neg (by simp)]
            by_cases sign : byte = commentSign
            · rw [if_pos sign, @ih _ ⟨Line.close ⟨[], field, false⟩ place, [], true⟩ _
                (by simpa [sign] using later) ⟨by simp, fun _ => ⟨rfl, few⟩⟩]
              simp [ownField, sign]
            · rw [if_neg sign, if_neg separates.2]
              simp only [sign, decide_false] at later
              by_cases terminator : byte = 0 ∧ field = []
              · rw [if_pos terminator, @ih _ ⟨[], field, false⟩ _ later ⟨fun _ => rfl, by simp⟩]
                simp only [ownField, sign, if_false, Bool.false_eq_true, if_pos terminator]
              · rw [if_neg terminator, @ih _ ⟨[], field ++ [byte], false⟩ _ later
                  ⟨fun _ => rfl, by simp⟩]
                simp [ownField, sign, terminator]

/-- The text behind the last separator has no entry, if its line has no field in front. -/
theorem entries_ended (ended : untilSeparator line.comment rest = none) (alone : Alone line) :
    entries place line rest = [] := by
  induction rest generalizing place line with
  | nil => exact entryOf_few alone.few
  | cons byte rest ih =>
      have few := @Alone.few place line alone
      obtain ⟨fields, field, comment⟩ := line
      rw [untilSeparator] at ended
      simp only at ended
      cases comment with
      | true =>
          obtain ⟨rfl, -⟩ := alone.ended rfl
          rw [if_neg (by simp), Option.map_eq_none_iff] at ended
          simp only [if_true] at ended
          rw [entries]
          by_cases feed : byte = lineFeed
          · subst feed
            rw [if_pos ⟨lineFeed_newline, fun _ => rfl⟩, entryOf_few few, List.nil_append]
            exact ih ended .fresh
          · rw [if_neg (by simp [feed]), if_pos rfl]
            exact ih (by simpa [feed] using ended) alone
      | false =>
          obtain rfl := alone.empty rfl
          by_cases separates : isSeparator byte = true
          · rw [if_pos (by simp [separates])] at ended
            cases ended
          · rw [if_neg (by simp [separates]), Option.map_eq_none_iff] at ended
            simp only [isSeparator, Bool.or_eq_true, not_or] at separates
            simp only [Bool.false_eq_true, if_false] at ended
            rw [entries, if_neg (by simp [separates.1]), if_neg (by simp)]
            by_cases sign : byte = commentSign
            · rw [if_pos sign]
              exact ih (by simpa [sign] using ended) ⟨by simp, fun _ => ⟨rfl, few⟩⟩
            · rw [if_neg sign, if_neg separates.2]
              simp only [sign, decide_false] at ended
              split
              · exact ih ended ⟨fun _ => rfl, by simp⟩
              · exact ih ended ⟨fun _ => rfl, by simp⟩

/-! ### Behind a separator -/

theorem skipped_cases (skips : isSkipped byte = true) :
    byte = 0 ∨ (isNewline byte = true ∧ isBlank byte = false) ∨
      isNewline byte = false ∧ isBlank byte = true ∧ byte ≠ commentSign := by
  simp only [isSkipped, decide_eq_true_eq] at skips
  rcases skips with rfl | rfl | rfl | rfl | rfl <;> decide

/-- Between lines nothing is skipped that counts. -/
theorem entries_skipped : entries place .fresh rest = entries
    (place + (rest.takeWhile isSkipped).length) .fresh (rest.dropWhile isSkipped) := by
  induction rest generalizing place with
  | nil => rfl
  | cons byte rest ih =>
      by_cases skips : isSkipped byte = true
      · rw [List.takeWhile_cons_of_pos skips, List.dropWhile_cons_of_pos skips, List.length_cons,
          ← Nat.add_assoc, Nat.add_right_comm, ← ih, entries]
        rcases skipped_cases skips with rfl | ⟨newline, -⟩ | ⟨newline, blank, sign⟩
        · rfl
        · rw [if_pos ⟨newline, fun _ => by contradiction⟩]
          rfl
        · rw [if_neg (by simp [newline]), if_neg (by simp [Line.fresh]), if_neg sign, if_pos blank]
          rfl
      · rw [List.takeWhile_cons_of_neg skips, List.dropWhile_cons_of_neg skips]
        rfl

/-- Behind a field only blanks are skipped, or its line is left. -/
theorem entries_gap (few : fields.length ≤ 1) : entries place ⟨fields, [], false⟩ rest = entries
    (place + (rest.takeWhile isSkipped).length)
      ⟨if (rest.takeWhile isSkipped).any isNewline then [] else fields, [], false⟩
        (rest.dropWhile isSkipped) := by
  induction rest generalizing place with
  | nil => rfl
  | cons byte rest ih =>
      by_cases skips : isSkipped byte = true
      · rw [List.takeWhile_cons_of_pos skips, List.dropWhile_cons_of_pos skips, List.length_cons,
          ← Nat.add_assoc, Nat.add_right_comm, entries, List.any_cons]
        rcases skipped_cases skips with rfl | ⟨newline, -⟩ | ⟨newline, blank, sign⟩
        · exact ih
        · rw [if_pos ⟨newline, fun _ => by contradiction⟩, newline, Bool.true_or, if_pos rfl]
          simp only [Line.close, if_true]
          rw [entryOf_few few, List.nil_append]
          exact entries_skipped
        · rw [if_neg (by simp [newline]), if_neg (by simp), if_neg sign, if_pos blank, newline,
            Bool.false_or]
          exact ih
      · rw [List.takeWhile_cons_of_neg skips, List.dropWhile_cons_of_neg skips]
        rfl

/-! ### A second field -/

theorem entries_plain (found : untilSeparator false rest = some (token, sep, more))
    (plain : commentSign ∉ token) (begins : field = [] → token.head? ≠ some 0) :
    entries place ⟨fields, field, false⟩ rest =
      entries (place + token.length) ⟨fields, field ++ token, false⟩ (sep :: more) := by
  induction rest generalizing place field token with
  | nil => cases found
  | cons byte rest ih =>
      rw [untilSeparator] at found
      by_cases separates : isSeparator byte = true
      · rw [if_pos (by simp [separates])] at found
        cases found
        rw [List.append_nil]
        rfl
      · rw [if_neg (by simp [separates])] at found
        obtain ⟨⟨token', sep', more'⟩, later, same⟩ := Option.map_eq_some_iff.mp found
        cases same
        simp only [isSeparator, Bool.or_eq_true, not_or] at separates
        simp only [List.mem_cons, not_or] at plain
        have sign : byte ≠ commentSign := fun same => plain.1 same.symm
        have begun : ¬ (byte = 0 ∧ field = []) := fun ⟨terminator, empty⟩ =>
          begins empty (by rw [terminator]; rfl)
        simp only [Bool.false_eq_true, if_false, sign, decide_false] at later
        rw [entries, if_neg (by simp [separates.1]), if_neg (by simp), if_neg sign, if_neg separates.2,
          if_neg begun, @ih _ _ (field ++ [byte]) later plain.2 (by simp), List.length_cons,
          ← Nat.add_assoc, Nat.add_right_comm, List.append_assoc, List.singleton_append]

/-- Where the line of a field has no other, no entry ends behind the field. -/
theorem entries_own_apart (separates : isSeparator sep = true)
    (member : entry ∈ entries place ⟨[], field, false⟩ (sep :: more)) : entry.place ≠ place := by
  rw [entries] at member
  by_cases newline : isNewline sep = true
  · rw [if_pos (by simp [newline]), entryOf_few (Alone.few ⟨fun _ => rfl, by simp⟩), List.nil_append] at member
    have behind := entries_behind (by simp [Line.fresh]) member
    omega
  · have blank : isBlank sep = true := by simpa [isSeparator, newline] using separates
    have sign : sep ≠ commentSign := by
      rintro rfl
      cases blank
    rw [if_neg (by simp [newline]), if_neg (by simp), if_neg sign, if_pos blank] at member
    have behind := entries_behind (Alone.few ⟨fun _ => rfl, by simp⟩) member
    omega

/-- Behind a comment no entry ends with the next field. -/
theorem entries_comment_apart (found : untilSeparator true rest = some (token, sep, more))
    (before : ∀ one ∈ fields, one.2 < place) (member : entry ∈ entries place ⟨fields, [], true⟩ rest) :
    entry.place ≠ place + token.length := by
  induction rest generalizing place token with
  | nil => cases found
  | cons byte rest ih =>
      rw [untilSeparator, if_neg (by simp)] at found
      obtain ⟨⟨token', sep', more'⟩, later, same⟩ := Option.map_eq_some_iff.mp found
      cases same
      simp only [if_true] at later
      rw [List.length_cons, ← Nat.add_assoc, Nat.add_right_comm]
      rw [entries] at member
      by_cases feed : byte = lineFeed
      · subst feed
        rw [if_pos ⟨lineFeed_newline, fun _ => rfl⟩] at member
        rcases List.mem_append.mp member with here | behind
        · obtain ⟨first, second, closed, same⟩ := entryOf_place here
          have low := before second (by
            simp only [Line.close, if_true] at closed
            simp [closed])
          omega
        · have found' : untilSeparator Line.fresh.comment rest = some (token', sep, more) := later
          rw [entries_own found' .fresh] at behind
          exact entries_own_apart (untilSeparator_separator later) behind
      · rw [if_neg (by simp [feed]), if_pos rfl] at member
        exact ih (by simpa [feed] using later) (fun one inside => Nat.lt_succ_of_lt (before one inside)) member

/-- With a comment in it, a field ends no entry either. -/
theorem entries_commented_apart (found : untilSeparator false rest = some (token, sep, more))
    (signed : commentSign ∈ token) (before : ∀ one ∈ fields, one.2 < place)
    (member : entry ∈ entries place ⟨fields, field, false⟩ rest) :
    entry.place ≠ place + token.length := by
  induction rest generalizing place field token with
  | nil => cases found
  | cons byte rest ih =>
      rw [untilSeparator] at found
      by_cases separates : isSeparator byte = true
      · rw [if_pos (by simp [separates])] at found
        cases found
        cases signed
      · rw [if_neg (by simp [separates])] at found
        obtain ⟨⟨token', sep', more'⟩, later, same⟩ := Option.map_eq_some_iff.mp found
        cases same
        simp only [isSeparator, Bool.or_eq_true, not_or] at separates
        simp only [Bool.false_eq_true, if_false] at later
        rw [List.length_cons, ← Nat.add_assoc, Nat.add_right_comm]
        rw [entries, if_neg (by simp [separates.1]), if_neg (by simp)] at member
        by_cases sign : byte = commentSign
        · rw [if_pos sign] at member
          refine entries_comment_apart (by simpa [sign] using later) (fun one inside => ?_) member
          rcases @close_cases place ⟨fields, field, false⟩ with ⟨-, same⟩ | ⟨-, same⟩
          · rw [same] at inside
            exact Nat.lt_succ_of_lt (before one inside)
          · rw [same] at inside
            rcases List.mem_append.mp inside with old | new
            · exact Nat.lt_succ_of_lt (before one old)
            · rw [List.mem_singleton.mp new]
              exact Nat.lt_succ_self place
        · rw [if_neg sign, if_neg separates.2] at member
          simp only [sign, decide_false] at later
          have signed' : commentSign ∈ token' := by
            rcases List.mem_cons.mp signed with same | inside
            · exact absurd same.symm sign
            · exact inside
          have before' := fun one inside => Nat.lt_succ_of_lt (before one inside)
          split at member
          · exact ih later signed' before' member
          · exact ih later signed' before' member

/-- A comment takes nothing from the fields in front of it. -/
theorem entries_comment : entries place ⟨fields, [], true⟩ rest =
    entryOf fields ++ entries place ⟨[], [], true⟩ rest := by
  induction rest generalizing place with
  | nil => exact (List.append_nil _).symm
  | cons byte rest ih =>
      by_cases feed : isNewline byte = true ∧ (true = true → byte = lineFeed)
      · rw [entries, if_pos feed, entries, if_pos feed]
        rfl
      · rw [entries, if_neg feed, if_pos rfl, entries, if_neg feed, if_pos rfl]
        exact ih

/-- Where the line ends, its entry is complete. -/
theorem entries_endsLine (ends : EndsLine rest) : entries place ⟨fields, [], false⟩ rest =
    entryOf fields ++ entries place ⟨[], [], false⟩ rest := by
  induction rest generalizing place with
  | nil => exact (List.append_nil _).symm
  | cons byte rest ih =>
      unfold EndsLine at ends
      have open' : ¬ (false = true) := Bool.false_ne_true
      by_cases newline : isNewline byte = true ∧ (false = true → byte = lineFeed)
      · rw [entries, if_pos newline, entries, if_pos newline]
        rfl
      · by_cases sign : byte = commentSign
        · rw [entries, if_neg newline, if_neg open', if_pos sign, entries, if_neg newline, if_neg open',
            if_pos sign]
          exact entries_comment
        · by_cases blank : isBlank byte = true
          · rw [entries, if_neg newline, if_neg open', if_neg sign, if_pos blank, entries, if_neg newline,
              if_neg open', if_neg sign, if_pos blank]
            rw [List.dropWhile_cons_of_pos (by simp [blank])] at ends
            exact ih ends
          · by_cases terminator : byte = 0
            · rw [entries, if_neg newline, if_neg open', if_neg sign, if_neg blank, if_pos ⟨terminator, rfl⟩,
                entries, if_neg newline, if_neg open', if_neg sign, if_neg blank, if_pos ⟨terminator, rfl⟩]
              rw [List.dropWhile_cons_of_pos (by simp [terminator])] at ends
              exact ih ends
            · rw [List.dropWhile_cons_of_neg (by simp [blank, terminator])] at ends
              rcases ends byte rfl with impossible | impossible
              · exact absurd ⟨impossible, fun closed => absurd closed open'⟩ newline
              · exact absurd impossible sign

/-- With a third field on its line, no entry ends in front of the line's end. -/
theorem entries_not_endsLine (goesOn : ¬ EndsLine rest)
    (member : entry ∈ entries place ⟨fields, [], false⟩ rest) : place ≤ entry.place := by
  induction rest generalizing place with
  | nil => exact absurd (fun _ impossible => by cases impossible) goesOn
  | cons byte rest ih =>
      by_cases plain : isNewline byte = true ∨ byte = commentSign
      · refine absurd ?_ goesOn
        unfold EndsLine
        rw [List.dropWhile_cons_of_neg (by
          rcases plain with newline | rfl
          · have terminator : byte ≠ 0 := by
              rintro rfl
              cases newline
            have blank : isBlank byte = false := by
              by_contra blank
              rw [Bool.not_eq_false] at blank
              rw [blank_not_newline blank] at newline
              cases newline
            simp [blank, terminator]
          · decide)]
        intro head here
        cases here
        exact plain
      · rw [not_or] at plain
        rw [entries, if_neg (by simp [plain.1]), if_neg (by simp), if_neg plain.2] at member
        unfold EndsLine at goesOn
        by_cases blank : isBlank byte = true
        · rw [if_pos blank] at member
          rw [List.dropWhile_cons_of_pos (by simp [blank])] at goesOn
          exact Nat.le_of_succ_le (ih goesOn member)
        · rw [if_neg blank] at member
          by_cases terminator : byte = 0
          · rw [if_pos ⟨terminator, rfl⟩] at member
            rw [List.dropWhile_cons_of_pos (by simp [terminator])] at goesOn
            exact Nat.le_of_succ_le (ih goesOn member)
          · rw [if_neg (by simp [terminator])] at member
            rcases entries_place member with ⟨_, _, -, impossible, -⟩ | behind
            · simp at impossible
            · exact Nat.le_of_succ_le behind

theorem entries_closed (separates : isSeparator sep = true) :
    entries place ⟨fields, field, false⟩ (sep :: more) =
      entries place ⟨Line.close ⟨fields, field, false⟩ place, [], false⟩ (sep :: more) := by
  have sign : sep ≠ commentSign := by
    rintro rfl
    cases separates
  by_cases newline : isNewline sep = true ∧ (false = true → sep = lineFeed)
  · rw [entries, if_pos newline, entries, if_pos newline]
    rfl
  · have blank : isBlank sep = true := by
      rcases Bool.or_eq_true _ _ ▸ separates with impossible | blank
      · exact absurd ⟨impossible, fun open' => by cases open'⟩ newline
      · exact blank
    rw [entries, if_neg newline, if_neg Bool.false_ne_true, if_neg sign, if_pos blank, entries,
      if_neg newline, if_neg Bool.false_ne_true, if_neg sign, if_pos blank]
    rfl

theorem entries_separator (separates : isSeparator sep = true) :
    entries place ⟨[], [], false⟩ (sep :: more) = entries (place + 1) .fresh more := by
  have sign : sep ≠ commentSign := by
    rintro rfl
    cases separates
  by_cases newline : isNewline sep = true ∧ (false = true → sep = lineFeed)
  · rw [entries, if_pos newline]
    rfl
  · have blank : isBlank sep = true := by
      rcases Bool.or_eq_true _ _ ▸ separates with impossible | blank
      · exact absurd ⟨impossible, fun open' => by cases open'⟩ newline
      · exact blank
    rw [entries, if_neg newline, if_neg Bool.false_ne_true, if_neg sign, if_pos blank]
    rfl

theorem entries_blank (blank : isBlank sep = true) :
    entries place ⟨fields, field, false⟩ (sep :: more) =
      entries (place + 1) ⟨Line.close ⟨fields, field, false⟩ place, [], false⟩ more := by
  have sign : sep ≠ commentSign := by
    rintro rfl
    cases blank
  rw [entries, if_neg (by simp [blank_not_newline blank]), if_neg Bool.false_ne_true, if_neg sign,
    if_pos blank]

end

/-! ## Where the scanner reads what stands there -/

section

/-- The fields `token` and `token'` are an entry with the MAC address `mac`. -/
structure Stands (token gap token' behind : List UInt8) (mac : Mac) : Prop where
  /-- Comments in front of the first field tell nothing. -/
  own : readMac (ownField [] false token) = some mac
  sameLine : gap.any isNewline = false
  plain : commentSign ∉ token'
  ends : EndsLine behind

variable {token' more' : List UInt8} {sep' : UInt8} {mac : Mac} {ip : UInt32}

theorem readMac_nil : readMac [] = none := by decide

theorem readIp_nil : readIp [] = none := by decide

theorem head_dropWhile_skipped (found : untilSeparator false (rest.dropWhile isSkipped) = some (token, sep, more)) :
    token.head? ≠ some 0 := by
  intro terminator
  have whole := untilSeparator_append found
  have head : (rest.dropWhile isSkipped).head? = some 0 := by
    rw [whole]
    cases token with
    | nil => cases terminator
    | cons first behind => exact terminator
  have kept := List.head?_dropWhile_not isSkipped rest
  rw [head] at kept
  cases kept

/-- Behind the first field. -/
theorem entries_first (first : untilSeparator false rest = some (token, sep, more))
    (blank : isBlank sep = true) : entries place .fresh rest = entries
      (place + token.length + 1 + (more.takeWhile isSkipped).length)
        ⟨if (more.takeWhile isSkipped).any isNewline then []
          else Line.close ⟨[], ownField [] false token, false⟩ (place + token.length), [], false⟩
          (more.dropWhile isSkipped) := by
  have found : untilSeparator Line.fresh.comment rest = some (token, sep, more) := first
  rw [entries_own found .fresh, entries_blank blank, entries_gap (Alone.few ⟨fun _ => rfl, by simp⟩)]
  rfl

theorem entries_stands (first : untilSeparator false rest = some (token, sep, more))
    (blank : isBlank sep = true)
    (second : untilSeparator false (more.dropWhile isSkipped) = some (token', sep', more'))
    (address : readIp token' = some ip)
    (stands : Stands token (more.takeWhile isSkipped) token' (sep' :: more') mac) (place : Nat) :
    let place' := place + token.length + 1 + (more.takeWhile isSkipped).length + token'.length
    entries place .fresh rest = ⟨place', mac, some ip⟩ ::
      entries (place' + 1 + (more'.takeWhile isSkipped).length) .fresh (more'.dropWhile isSkipped) := by
  intro place'
  have separates := untilSeparator_separator second
  have nonempty : ownField [] false token ≠ [] := by
    intro empty
    have own := stands.own
    rw [empty, readMac_nil] at own
    cases own
  have nonempty' : token' ≠ [] := by
    rintro rfl
    rw [readIp_nil] at address
    cases address
  rw [entries_first first blank, stands.sameLine, if_neg Bool.false_ne_true,
    entries_plain second stands.plain (fun _ => head_dropWhile_skipped second), List.nil_append,
    entries_closed separates, entries_endsLine stands.ends, entries_separator separates, entries_skipped]
  simp only [Line.close, if_neg nonempty, if_neg nonempty', List.nil_append, List.singleton_append, entryOf,
    stands.own, address]
  rfl

/-- Only an entry of the two fields ends behind the second. -/
theorem entries_second (first : untilSeparator false rest = some (token, sep, more))
    (blank : isBlank sep = true)
    (second : untilSeparator false (more.dropWhile isSkipped) = some (token', sep', more'))
    (member : entry ∈ entries place .fresh rest)
    (here : entry.place =
      place + token.length + 1 + (more.takeWhile isSkipped).length + token'.length) :
    (more.takeWhile isSkipped).any isNewline = false ∧ commentSign ∉ token' ∧ EndsLine (sep' :: more') ∧
      entry ∈ entryOf [(ownField [] false token, place + token.length), (token', entry.place)] := by
  have separates := untilSeparator_separator second
  rw [entries_first first blank] at member
  by_cases alone : (if (more.takeWhile isSkipped).any isNewline then []
      else Line.close ⟨[], ownField [] false token, false⟩ (place + token.length)) = []
  · rw [alone] at member
    have found : untilSeparator (Line.mk [] [] false).comment (more.dropWhile isSkipped) =
      some (token', sep', more') := second
    rw [entries_own found ⟨fun _ => rfl, by simp⟩] at member
    exact absurd here (entries_own_apart separates member)
  · have sameLine : (more.takeWhile isSkipped).any isNewline = false := by
      by_contra newline
      rw [Bool.not_eq_false] at newline
      exact alone (by rw [newline, if_pos rfl])
    rw [sameLine, if_neg Bool.false_ne_true] at alone member
    have own : ownField [] false token ≠ [] := fun empty => alone (by simp [Line.close, empty])
    simp only [Line.close, if_neg own, List.nil_append] at member
    by_cases plain : commentSign ∉ token'
    · rw [entries_plain second plain (fun _ => head_dropWhile_skipped second), List.nil_append,
        entries_closed separates, ← here] at member
      by_cases ends : EndsLine (sep' :: more')
      · rw [entries_endsLine ends, entries_separator separates] at member
        rcases List.mem_append.mp member with emitted | behind
        · refine ⟨sameLine, plain, ends, ?_⟩
          simp only [Line.close] at emitted
          split at emitted
          · cases emitted
          · exact emitted
        · have later := entries_behind (by simp [Line.fresh]) behind
          omega
      · by_cases blank' : isBlank sep' = true
        · rw [entries_blank blank'] at member
          unfold EndsLine at ends
          rw [List.dropWhile_cons_of_pos (by simp [blank'])] at ends
          have later := entries_not_endsLine ends member
          omega
        · have newline : isNewline sep' = true := by
            rcases Bool.or_eq_true _ _ ▸ separates with newline | impossible
            · exact newline
            · exact absurd impossible blank'
          refine absurd (fun head inside => ?_) ends
          have terminator : sep' ≠ 0 := by
            rintro rfl
            cases newline
          rw [List.dropWhile_cons_of_neg (by simp [blank', terminator])] at inside
          cases inside
          exact .inl newline
    · refine absurd here (entries_commented_apart second (not_not.mp plain) ?_ member)
      intro one inside
      rw [List.mem_singleton.mp inside]
      show place + token.length < _
      omega

theorem entries_not_stands (first : untilSeparator false rest = some (token, sep, more))
    (blank : isBlank sep = true)
    (second : untilSeparator false (more.dropWhile isSkipped) = some (token', sep', more'))
    (address : readIp token' = some ip)
    (differs : ¬ Stands token (more.takeWhile isSkipped) token' (sep' :: more') mac) (place : Nat) :
    ⟨place + token.length + 1 + (more.takeWhile isSkipped).length + token'.length, mac, some ip⟩ ∉
      entries place .fresh rest := by
  intro member
  obtain ⟨sameLine, plain, ends, emitted⟩ := entries_second first blank second member rfl
  refine differs ⟨?_, sameLine, plain, ends⟩
  simp only [entryOf, address] at emitted
  split at emitted
  · rename_i found _
    rw [found]
    cases List.mem_singleton.mp emitted
    rfl
  · cases emitted

/-- No entry ends behind a first field. -/
theorem entries_first_apart (first : untilSeparator false rest = some (token, sep, more))
    (member : entry ∈ entries place .fresh rest) : entry.place ≠ place + token.length := by
  have found : untilSeparator Line.fresh.comment rest = some (token, sep, more) := first
  rw [entries_own found .fresh] at member
  exact entries_own_apart (untilSeparator_separator first) member

/-- No entry ends behind a second field that is no address. -/
theorem entries_refused_apart (first : untilSeparator false rest = some (token, sep, more))
    (blank : isBlank sep = true)
    (second : untilSeparator false (more.dropWhile isSkipped) = some (token', sep', more'))
    (refused : readIp token' = none) (member : entry ∈ entries place .fresh rest) :
    entry.place ≠ place + token.length + 1 + (more.takeWhile isSkipped).length + token'.length := by
  intro here
  obtain ⟨-, -, -, emitted⟩ := entries_second first blank second member here
  simp only [entryOf, refused] at emitted
  split at emitted
  · rename_i impossible
    cases impossible
  · cases emitted

/-- The scanner gives up at a field, or finds no second one. -/
def StopsIn (rest : List UInt8) : Prop :=
  ∃ token sep more, untilSeparator false rest = some (token, sep, more) ∧ isBlank sep = true ∧
    (readMac token = none ∨ untilSeparator false (more.dropWhile isSkipped) = none ∨
      ∃ token' sep' more', untilSeparator false (more.dropWhile isSkipped) = some (token', sep', more') ∧
        isBlank sep' = true ∧ readIp token' = none)

/-- From `place` on, where `rest` begins, the scanner finds the entries. -/
inductive ScansAlike : Nat → List UInt8 → Prop where
  | ended {place : Nat} {rest : List UInt8} (last : untilSeparator false rest = none) : ScansAlike place rest
  /-- Nothing is lost where it stops. -/
  | stopped {place : Nat} {rest : List UInt8} (stops : StopsIn rest) (none' : entries place .fresh rest = []) :
      ScansAlike place rest
  | entry {place : Nat} {rest token more token' more' : List UInt8} {sep sep' : UInt8} {mac : Mac}
      {ip : UInt32}
      (first : untilSeparator false rest = some (token, sep, more)) (blank : isBlank sep = true)
      (hardware : readMac token = some mac)
      (second : untilSeparator false (more.dropWhile isSkipped) = some (token', sep', more'))
      (address : readIp token' = some ip)
      (stands : Stands token (more.takeWhile isSkipped) token' (sep' :: more') mac)
      (next : ScansAlike (place + token.length + 1 + (more.takeWhile isSkipped).length + token'.length + 1 +
        (more'.takeWhile isSkipped).length) (more'.dropWhile isSkipped)) : ScansAlike place rest

/-- Where the scanner stops it reads alike if no entry is left. -/
theorem stopped_iff (stops : StopsIn rest) :
    [] = entries place .fresh rest ↔ ScansAlike place rest := by
  refine ⟨fun none' => .stopped stops none'.symm, fun alike => ?_⟩
  obtain ⟨token, sep, more, first, blank, gives⟩ := stops
  cases alike with
  | ended last =>
      rw [last] at first
      cases first
  | stopped _ none' => exact none'.symm
  | entry first' _ hardware second address _ _ =>
      cases first.symm.trans first'
      rcases gives with none' | none' | ⟨token', sep', more', second', -, none'⟩
      · rw [hardware] at none'
        cases none'
      · rw [second] at none'
        cases none'
      · cases second.symm.trans second'
        rw [address] at none'
        cases none'

theorem not_alike_newline (first : untilSeparator false rest = some (token, sep, more))
    (newline : ¬ isBlank sep = true) : ¬ ScansAlike place rest := by
  intro alike
  cases alike with
  | ended last =>
      rw [last] at first
      cases first
  | stopped stops _ =>
      obtain ⟨_, _, _, first', blank, -⟩ := stops
      cases first.symm.trans first'
      exact newline blank
  | entry first' blank _ _ _ _ _ =>
      cases first.symm.trans first'
      exact newline blank

theorem not_alike_refused (first : untilSeparator false rest = some (token, sep, more))
    (hardware : readMac token = some mac)
    (second : untilSeparator false (more.dropWhile isSkipped) = some (token', sep', more'))
    (refused : readIp token' = none) (newline : ¬ isBlank sep' = true) : ¬ ScansAlike place rest := by
  intro alike
  cases alike with
  | ended last =>
      rw [last] at first
      cases first
  | stopped stops _ =>
      obtain ⟨_, _, _, first', -, gives⟩ := stops
      cases first.symm.trans first'
      rcases gives with none' | none' | ⟨_, _, _, second', blank, -⟩
      · rw [hardware] at none'
        cases none'
      · rw [second] at none'
        cases none'
      · cases second.symm.trans second'
        exact newline blank
  | entry first' _ _ second' address _ _ =>
      cases first.symm.trans first'
      cases second.symm.trans second'
      rw [address] at refused
      cases refused

theorem alike_entry_iff (first : untilSeparator false rest = some (token, sep, more))
    (blank : isBlank sep = true) (hardware : readMac token = some mac)
    (second : untilSeparator false (more.dropWhile isSkipped) = some (token', sep', more'))
    (address : readIp token' = some ip) : ScansAlike place rest ↔
      Stands token (more.takeWhile isSkipped) token' (sep' :: more') mac ∧
        ScansAlike (place + token.length + 1 + (more.takeWhile isSkipped).length + token'.length + 1 +
          (more'.takeWhile isSkipped).length) (more'.dropWhile isSkipped) := by
  refine ⟨fun alike => ?_, fun ⟨stands, next⟩ => .entry first blank hardware second address stands next⟩
  cases alike with
  | ended last =>
      rw [last] at first
      cases first
  | stopped stops _ =>
      obtain ⟨_, _, _, first', -, gives⟩ := stops
      cases first.symm.trans first'
      rcases gives with none' | none' | ⟨_, _, _, second', -, none'⟩
      · rw [hardware] at none'
        cases none'
      · rw [second] at none'
        cases none'
      · cases second.symm.trans second'
        rw [address] at none'
        cases none'
  | entry first' _ hardware' second' address' stands next =>
      cases first.symm.trans first'
      cases hardware.symm.trans hardware'
      cases second.symm.trans second'
      exact ⟨stands, next⟩

end

end Rut9xx.Chilli
