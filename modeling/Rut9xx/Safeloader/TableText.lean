import Mathlib.Data.List.TakeWhile
import Rut9xx.Safeloader.Image

namespace Rut9xx.Safeloader

open Data

/-! # Partition tables are read as they were printed -/

variable {header name ending text word more tail : Text} {base size maxEntries : Nat}
  {entries table : List FlashPartitionEntry}

/-! ## One line -/

/-- A name that a line can carry. -/
structure Plain (name : Text) : Prop where
  noBlank : 0x20 ∉ name
  noNewline : 0x0a ∉ name
  noNul : 0 ∉ name

theorem not_mem_hexText {byte : UInt8} (noDigit : hexValue byte = none) (noX : byte ≠ 0x78)
    (value : Nat) : byte ∉ hexText value := by
  intro member
  rw [hexText, List.mem_cons, List.mem_cons] at member
  rcases member with zero | x | digit
  · rw [zero] at noDigit
    contradiction
  · exact noX x
  · have isDigit := hexValue_of_mem_printHex digit
    rw [noDigit] at isDigit
    contradiction

theorem element_append (noBlank : 0x20 ∉ word) :
    Cursor.element { ptr := word ++ 0x20 :: tail, left := (word ++ 0x20 :: more).length } =
      some (word, { ptr := tail, left := more.length }) := by
  have length : (word ++ 0x20 :: more).length = word.length + (more.length + 1) := by
    rw [List.length_append, List.length_cons]
  have within : (word ++ 0x20 :: tail).take (word.length + (more.length + 1)) =
      word ++ 0x20 :: tail.take more.length := by
    rw [List.take_length_add_append, List.take_succ_cons]
  have behind : (word ++ 0x20 :: tail).drop (word.length + 1) = tail := by
    rw [List.drop_length_add_append, List.drop_succ_cons, List.drop_zero]
  have rest : word.length + (more.length + 1) - (word.length + 1) = more.length := by omega
  simp only [Cursor.element]
  rw [length, within, memchr_append noBlank, Option.map_some, List.take_left, behind, rest]

theorem readLine_tableLine (headerBlank : 0x20 ∉ header) (nameBlank : 0x20 ∉ name)
    (baseSmall : base < 2 ^ 64) (sizeSmall : size < 2 ^ 64)
    {byte : UInt8} (stop : hexValue byte = none) (behind : ending ++ tail = byte :: more)
    (lineEnd : List UInt8) :
    readLine lineEnd
        { ptr := tableLine header name base size ending ++ tail
          left := (tableLine header name base size ending).length } =
      some (some { name := elementName name, base := UInt32.ofNat base, size := UInt32.ofNat size },
        lineEnd) := by
  have positive (word more : Text) : (word ++ 0x20 :: more).length ≠ 0 := by
    rw [List.length_append, List.length_cons]
    omega
  have baseRead : ∀ more, strtoulHex (hexText base ++ 0x20 :: more) = base := by
    intro more
    exact strtoulHex_printHex (by decide) baseSmall (by decide)
  have sizeRead : strtoulHex (hexText size ++ (ending ++ tail)) = size := by
    rw [behind]
    exact strtoulHex_printHex (by decide) sizeSmall stop
  have baseBlank : 0x20 ∉ hexText base := not_mem_hexText (by decide) (by decide) base
  have wordBlank : 0x20 ∉ ascii "base" := by decide
  have sizeBlank : 0x20 ∉ ascii "size" := by decide
  simp only [tableLine, readLine, positive, if_false, element_append headerBlank,
    element_append nameBlank, element_append wordBlank, element_append baseBlank,
    element_append sizeBlank, Option.bind_some, List.append_assoc, List.cons_append]
  rw [baseRead, sizeRead]

theorem tableLine_append (header name : Text) (base size : Nat) (ending more : Text) :
    tableLine header name base size (ending ++ more) =
      tableLine header name base size ending ++ more := by
  simp only [tableLine, List.append_assoc, List.cons_append]

theorem header_isPrefix (header name : Text) (base size : Nat) (ending : Text) :
    header <+: tableLine header name base size ending :=
  List.prefix_append _ _

theorem header_length_lt (header name : Text) (base size : Nat) (ending : Text) :
    header.length < (tableLine header name base size ending).length := by
  rw [tableLine, List.length_append, List.length_cons]
  omega

theorem not_mem_tableLine (headerPlain : Plain header) (namePlain : Plain name)
    (noNewline : 0x0a ∉ ending) : 0x0a ∉ tableLine header name base size ending := by
  have blank : (0x0a : UInt8) ≠ 0x20 := by decide
  have baseFree : 0x0a ∉ hexText base := not_mem_hexText (by decide) (by decide) base
  have sizeFree : 0x0a ∉ hexText size := not_mem_hexText (by decide) (by decide) size
  have wordFree : 0x0a ∉ ascii "base" := by decide
  have otherFree : 0x0a ∉ ascii "size" := by decide
  simp only [tableLine, List.mem_append, List.mem_cons, headerPlain.noNewline, namePlain.noNewline,
    blank, baseFree, sizeFree, wordFree, otherFree, noNewline, or_self, not_false_eq_true]

/-! ## A whole table -/

/-- A table entry as a line prints it. -/
def entryLine (header ending : Text) (entry : FlashPartitionEntry) : Text :=
  tableLine header entry.name entry.base.toNat entry.size.toNat (ending ++ [0x0a])

/-- A table entry as it is read: the name is cut to 31 bytes. -/
def readEntry (entry : FlashPartitionEntry) : FlashPartitionEntry :=
  { entry with name := entry.name.take 31 }

theorem elementName_plain (plain : Plain name) : elementName name = name.take 31 := by
  rw [elementName, List.takeWhile_eq_self_iff]
  intro byte member
  rw [decide_eq_true_iff]
  intro nul
  exact plain.noNul (nul ▸ List.mem_of_mem_take member)

/-- What may end a line, with the newline behind it. -/
structure Ending (ending : Text) : Prop where
  noNewline : 0x0a ∉ ending
  stop : ∀ tail, ∃ byte more, ending ++ 0x0a :: tail = byte :: more ∧ hexValue byte = none

theorem readLine_entryLine (headerPlain : Plain header) (entry : FlashPartitionEntry)
    (namePlain : Plain entry.name) (ended : Ending ending) (rest : List UInt8) :
    (memchr 0x0a (entryLine header ending entry ++ rest)).bind (fun left =>
        readLine ((entryLine header ending entry ++ rest).drop (left + 1))
          { ptr := entryLine header ending entry ++ rest, left := left }) =
      some (some (readEntry entry), rest) := by
  obtain ⟨byte, more, behind, stop⟩ := ended.stop rest
  have small (value : UInt32) : value.toNat < 2 ^ 64 :=
    Nat.lt_trans value.toNat_lt (by decide)
  have split : entryLine header ending entry ++ rest =
      tableLine header entry.name entry.base.toNat entry.size.toNat ending ++ 0x0a :: rest := by
    rw [entryLine, tableLine_append, List.append_assoc, List.singleton_append]
  have after : (tableLine header entry.name entry.base.toNat entry.size.toNat ending ++
      0x0a :: rest).drop
        ((tableLine header entry.name entry.base.toNat entry.size.toNat ending).length + 1) = rest := by
    rw [List.drop_length_add_append, List.drop_succ_cons, List.drop_zero]
  rw [split, memchr_append (not_mem_tableLine headerPlain namePlain ended.noNewline),
    Option.bind_some, after, readLine_tableLine headerPlain.noBlank namePlain.noBlank (small _) (small _)
      stop behind, elementName_plain namePlain, UInt32.ofNat_toNat, UInt32.ofNat_toNat]
  rfl

/-- Line by line the whole table is read, up to a byte that begins no line. -/
theorem readLines_table (headerPlain : Plain header) (ended : Ending ending)
    (plain : ∀ entry ∈ table, Plain entry.name) (headless : ¬ header <+: tail) {fuel : Nat}
    (enough : table.length ≤ fuel) (room : entries.length + table.length ≤ maxEntries) :
    readLines header maxEntries fuel (table.flatMap (entryLine header ending) ++ tail) entries =
      some (entries ++ table.map readEntry) := by
  induction table generalizing fuel entries with
  | nil =>
      rw [List.flatMap_nil, List.nil_append, List.map_nil, List.append_nil]
      cases fuel with
      | zero => rfl
      | succ fuel => rw [readLines, if_neg (fun both => headless both.2)]
  | cons entry more ih =>
      cases fuel with
      | zero => exact absurd enough (Nat.not_succ_le_zero _)
      | succ fuel =>
          have line := readLine_entryLine headerPlain entry (plain entry List.mem_cons_self) ended
            (more.flatMap (entryLine header ending) ++ tail)
          have long : header.length < (entryLine header ending entry ++
              (more.flatMap (entryLine header ending) ++ tail)).length := by
            rw [List.length_append]
            exact Nat.lt_of_lt_of_le (header_length_lt _ _ _ _ _) (Nat.le_add_right _ _)
          have starts : header <+: entryLine header ending entry ++
              (more.flatMap (entryLine header ending) ++ tail) :=
            (header_isPrefix _ _ _ _ _).trans (List.prefix_append _ _)
          rw [List.length_cons] at enough room
          have added : addFlashPartition maxEntries entries (readEntry entry) =
              some (entries ++ [readEntry entry]) := if_pos (by omega)
          rw [List.flatMap_cons, List.append_assoc, readLines, if_pos ⟨long, starts⟩]
          cases newline : memchr 0x0a (entryLine header ending entry ++
              (more.flatMap (entryLine header ending) ++ tail)) with
          | none =>
              rw [newline] at line
              contradiction
          | some left =>
              rw [newline, Option.bind_some] at line
              simp only [line, Option.bind_some, added]
              rw [ih (fun other member => plain other (List.mem_cons_of_mem entry member))
                (Nat.le_of_succ_le_succ enough)
                (by rw [List.length_append, List.length_singleton]; omega),
                List.map_cons, List.append_assoc, List.singleton_append]

theorem length_le_lines : table.length ≤ (table.flatMap (entryLine header ending)).length := by
  induction table with
  | nil => exact Nat.le_refl 0
  | cons entry more ih =>
      have long := header_length_lt header entry.name entry.base.toNat entry.size.toNat (ending ++ [0x0a])
      rw [List.flatMap_cons, List.length_append, List.length_cons, entryLine]
      omega

/-- A table in a file: `text` with a zero byte behind it, in the 2048 bytes that are read. -/
theorem readPartitionTable_table {file : List UInt8} {offset : Nat} (headerPlain : Plain header)
    (ended : Ending ending) (plain : ∀ entry ∈ table, Plain entry.name)
    (headed : header ≠ []) (some' : table ≠ []) (room : table.length ≤ maxEntries)
    (stands : slice file offset ((table.flatMap (entryLine header ending)).length + 1) =
      table.flatMap (entryLine header ending) ++ [0])
    (short : (table.flatMap (entryLine header ending)).length < 2048)
    (within : offset + 2048 ≤ file.length) :
    readPartitionTable file offset maxEntries header = some (table.map readEntry) := by
  have length := congrArg List.length stands
  generalize texts : table.flatMap (entryLine header ending) = text at stands short length
  -- the bytes read, as the text, its terminator and what follows
  obtain ⟨behind, split⟩ : ∃ behind, slice file offset 2048 = text ++ 0 :: behind := by
    refine ⟨(slice file offset 2048).drop (text.length + 1), ?_⟩
    have front : (slice file offset 2048).take (text.length + 1) = text ++ [0] := by
      rw [slice, List.take_take, Nat.min_eq_left (by omega)]
      exact stands
    calc slice file offset 2048
        = (slice file offset 2048).take (text.length + 1) ++
            (slice file offset 2048).drop (text.length + 1) := (List.take_append_drop _ _).symm
      _ = text ++ 0 :: (slice file offset 2048).drop (text.length + 1) := by
        rw [front, List.append_assoc, List.singleton_append]
  have full : (slice file offset 2048).length = 2048 := by
    rw [slice, List.length_take, List.length_drop]
    omega
  -- setting the last byte to zero leaves a terminator behind the text
  obtain ⟨tail, cut⟩ : ∃ tail, (slice file offset 2048).take 2047 ++ [0] = text ++ 0 :: tail := by
    rw [split, List.length_append, List.length_cons] at full
    rw [split]
    by_cases last : text.length = 2047
    · refine ⟨[], ?_⟩
      rw [← last, List.take_left]
    · refine ⟨behind.take (2046 - text.length) ++ [0], ?_⟩
      have rest : 2047 = text.length + ((2046 - text.length) + 1) := by omega
      rw [rest, List.take_length_add_append, List.take_succ_cons, List.append_assoc, List.cons_append]
  have first : ∃ entry more, table = entry :: more := List.exists_cons_of_ne_nil some'
  have starts : header <+: text ++ 0 :: tail := by
    obtain ⟨entry, more, rfl⟩ := first
    rw [← texts, List.flatMap_cons, List.append_assoc]
    exact (header_isPrefix _ _ _ _ _).trans (List.prefix_append _ _)
  have headless : ¬ header <+: 0 :: tail := by
    intro starts
    cases header with
    | nil => exact headed rfl
    | cons byte rest =>
        have same := (List.cons_prefix_cons.mp starts).1
        exact headerPlain.noNul (same ▸ List.mem_cons_self)
  have fuel : table.length ≤ (text ++ 0 :: tail).length := by
    rw [List.length_append, ← texts]
    exact Nat.le_trans length_le_lines (Nat.le_add_right _ _)
  have empty : ([] : List FlashPartitionEntry).length + table.length ≤ maxEntries := by
    rw [List.length_nil, Nat.zero_add]
    exact room
  have read := readLines_table headerPlain ended plain headless fuel empty
  rw [texts, List.nil_append] at read
  rw [readPartitionTable, if_neg (by rw [full]; omega)]
  simp only [cut]
  rw [if_pos starts, read]

end Rut9xx.Safeloader
