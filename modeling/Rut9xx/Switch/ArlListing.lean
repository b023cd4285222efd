import Rut9xx.Switch.ArlTable

namespace Rut9xx.Switch.ArlTable

open Data

/-! # What the listing of the address resolution table shows -/

variable {chip : Chip} {table rest : List ArlEntry} {data : List AtuData} {raw : AtuData}
  {a entry : ArlEntry} {mac otherMac : Mac} {portmap seen : BitVec 16} {port other ports : Nat}

/-! ## Collecting -/

/-- Entries of one address have no port in common. -/
def Apart (table : List ArlEntry) : Prop :=
  table.Pairwise fun a b => a.mac = b.mac → ∀ port, ¬ (a.portmap.getLsbD port = true ∧
    b.portmap.getLsbD port = true)

@[simp] theorem hasPair_nil : ¬ HasPair [] port mac := by
  simp [HasPair]

@[simp] theorem hasPair_cons :
    HasPair (a :: table) port mac ↔
      (a.mac = mac ∧ a.portmap.getLsbD port = true) ∨ HasPair table port mac := by
  simp [HasPair]

@[simp] theorem hasPair_append :
    HasPair (table ++ rest) port mac ↔ HasPair table port mac ∨ HasPair rest port mac := by
  simp [HasPair, or_and_right, exists_or]

theorem getLsbD_without (port : Nat) :
    (portmap &&& ~~~seen).getLsbD port = true ↔
      portmap.getLsbD port = true ∧ seen.getLsbD port ≠ true := by
  by_cases inside : port < 16
  · simp [inside]
  · simp [BitVec.getLsbD_of_ge portmap port (by omega)]

theorem ignoreSeen_some (ignored : ignoreSeen mac table portmap = some seen) (port : Nat) :
    seen.getLsbD port = true ↔ portmap.getLsbD port = true ∧ ¬ HasPair table port mac := by
  induction table generalizing portmap with
  | nil =>
      cases ignored
      simp
  | cons a1 rest ih =>
      rw [ignoreSeen] at ignored
      split at ignored
      · rename_i same
        simp only at ignored
        split at ignored
        · contradiction
        · rw [ih ignored, getLsbD_without, hasPair_cons]
          simp [same, and_assoc]
      · rename_i differ
        rw [ih ignored, hasPair_cons]
        simp [Ne.symm differ]

theorem ignoreSeen_none (ignored : ignoreSeen mac table portmap = none)
    (set : portmap.getLsbD port = true) : HasPair table port mac := by
  induction table generalizing portmap with
  | nil => contradiction
  | cons a1 rest ih =>
      rw [hasPair_cons]
      rw [ignoreSeen] at ignored
      split at ignored
      · rename_i same
        by_cases here : a1.portmap.getLsbD port = true
        · exact .inl ⟨same.symm, here⟩
        · have left := (getLsbD_without port).mpr ⟨set, here⟩
          simp only at ignored
          split at ignored
          · rename_i empty
            rw [empty] at left
            simp at left
          · exact .inr (ih ignored left)
      · exact .inr (ih ignored set)

/-- The pairs of what is collected are those of the entries that were read. -/
theorem collect_pairs (port : Nat) (mac : Mac) :
    HasPair (collect chip table data) port mac ↔
      HasPair table port mac ∨ HasPair (entriesRead chip table data) port mac := by
  induction data generalizing table with
  | nil => simp [collect, entriesRead]
  | cons raw rest ih =>
      rw [collect, entriesRead]
      split
      · simp
      · cases chip.getArlEntry raw with
        | none => simp
        | some a =>
            simp only
            cases ignored : ignoreSeen a.mac table a.portmap with
            | none =>
                rw [ih, hasPair_cons]
                constructor
                · intro member
                  rcases member with old | new
                  · exact .inl old
                  · exact .inr (.inr new)
                · intro member
                  rcases member with old | ⟨same, set⟩ | new
                  · exact .inl old
                  · exact .inl (same ▸ ignoreSeen_none ignored set)
                  · exact .inr new
            | some seen =>
                have kept := ignoreSeen_some ignored port
                rw [ih, hasPair_append, hasPair_cons, hasPair_cons, or_assoc]
                simp only [kept, hasPair_nil, or_false]
                constructor
                · intro member
                  rcases member with old | ⟨same, set, -⟩ | new
                  · exact .inl old
                  · exact .inr (.inl ⟨same, set⟩)
                  · exact .inr (.inr new)
                · intro member
                  rcases member with old | ⟨same, set⟩ | new
                  · exact .inl old
                  · by_cases already : HasPair table port mac
                    · exact .inl already
                    · exact .inr (.inl ⟨same, set, same ▸ already⟩)
                  · exact .inr (.inr new)

theorem collect_apart (apart : Apart table) : Apart (collect chip table data) := by
  induction data generalizing table with
  | nil => exact apart
  | cons raw rest ih =>
      rw [collect]
      split
      · exact apart
      · cases chip.getArlEntry raw with
        | none => exact apart
        | some a =>
            simp only
            cases ignored : ignoreSeen a.mac table a.portmap with
            | none => exact ih apart
            | some seen =>
                apply ih
                rw [Apart, List.pairwise_append]
                refine ⟨apart, List.pairwise_singleton _ _, ?_⟩
                intro former member new single same port ⟨before, after⟩
                rw [List.mem_singleton.mp single] at same after
                exact ((ignoreSeen_some ignored port).mp after).2 ⟨former, member, same, before⟩

/-! ## Printing -/

theorem mem_printedPairs :
    (port, mac) ∈ printedPairs ports table ↔ port < ports ∧ HasPair table port mac := by
  simp only [printedPairs, List.mem_flatMap, List.mem_range, List.mem_filterMap, HasPair,
    Option.ite_none_right_eq_some, Option.some.injEq, Prod.mk.injEq]
  constructor
  · intro ⟨j, below, a, member, set, same, mac⟩
    exact ⟨same ▸ below, a, member, mac, same ▸ set⟩
  · intro ⟨below, a, member, mac, set⟩
    exact ⟨port, below, a, member, set, rfl, mac⟩

theorem printedPairs_nodup (apart : Apart table) : (printedPairs ports table).Nodup := by
  rw [printedPairs, List.nodup_flatMap]
  constructor
  · intro j _
    rw [List.Nodup, List.pairwise_filterMap]
    apply apart.imp
    intro former later apart pair here next there same
    rw [Option.ite_none_right_eq_some, Option.some.injEq] at here there
    obtain ⟨before, rfl⟩ := here
    obtain ⟨after, rfl⟩ := there
    exact apart (congrArg Prod.snd same) j ⟨before, after⟩
  · apply List.nodup_range.imp
    intro j k differ pair here there
    obtain ⟨former, -, here⟩ := List.mem_filterMap.mp here
    obtain ⟨later, -, there⟩ := List.mem_filterMap.mp there
    rw [Option.ite_none_right_eq_some, Option.some.injEq] at here there
    exact differ (congrArg Prod.fst (here.2.trans there.2.symm))

theorem mem_pairs {entries : List ArlEntry} :
    (port, mac) ∈ pairs entries ↔ HasPair entries port mac := by
  rw [pairs, List.mem_dedup, mem_printedPairs]
  constructor
  · exact And.right
  · intro has
    obtain ⟨a, -, -, set⟩ := id has
    exact ⟨BitVec.lt_of_getLsbD set, has⟩

/-! ## The text of a line -/

theorem hex2_length (byte : UInt8) : (hex2 byte).length = 2 := printHex_length byte.toNat_lt

theorem hex2_append_inj {left right : UInt8} {more other : List UInt8} :
    hex2 left ++ more = hex2 right ++ other ↔ left = right ∧ more = other := by
  constructor
  · intro same
    obtain ⟨bytes, behind⟩ := List.append_inj same ((hex2_length left).trans (hex2_length right).symm)
    have read (byte : UInt8) : readDigits 0 (hex2 byte ++ [0]) = byte.toNat :=
      readDigits_printHex (by decide)
    refine ⟨UInt8.toNat_inj.mp ?_, behind⟩
    rw [← read left, ← read right, bytes]
  · intro ⟨bytes, behind⟩
    rw [bytes, behind]

theorem macText_inj : macText mac = macText otherMac ↔ mac = otherMac := by
  have last {left right : UInt8} : hex2 left = hex2 right ↔ left = right := by
    have whole := @hex2_append_inj left right [] []
    simpa using whole
  cases mac
  cases otherMac
  simp only [macText, hex2_append_inj, List.cons.injEq, true_and, last, Mac.mk.injEq]
  constructor
  · intro ⟨h5, h4, h3, h2, h1, h0⟩
    exact ⟨h0, h1, h2, h3, h4, h5⟩
  · intro ⟨h0, h1, h2, h3, h4, h5⟩
    exact ⟨h5, h4, h3, h2, h1, h0⟩

theorem macText_length : (macText mac).length = 17 := by
  simp only [macText, List.length_append, List.length_cons, hex2_length]

/-- The digits are read back. -/
theorem ofDigits_printDec (value : Nat) :
    Nat.ofDigits 10 ((printDec value).map fun byte => (hexValue byte).getD 0).reverse = value := by
  rw [printDec]
  split
  · rename_i zero
    rw [zero]
    rfl
  · have digits : ((Nat.digits 10 value).reverse.map hexDigit).map (fun byte => (hexValue byte).getD 0) =
        (Nat.digits 10 value).reverse := by
      rw [List.map_map]
      apply (List.map_congr_left ?_).trans (List.map_id _)
      intro digit member
      have small := Nat.digits_lt_base (by decide) (List.mem_reverse.mp member)
      rw [Function.comp, hexValue_hexDigit (by omega)]
      rfl
    rw [digits, List.reverse_reverse, Nat.ofDigits_digits]

theorem printDec_inj (same : printDec port = printDec other) : port = other := by
  rw [← ofDigits_printDec port, same, ofDigits_printDec]

theorem portText_inj : portText port mac = portText other otherMac ↔ port = other ∧ mac = otherMac := by
  constructor
  · intro same
    obtain ⟨front, macs⟩ := List.append_inj' same (macText_length.trans macText_length.symm)
    rw [List.append_assoc, List.append_assoc, List.append_cancel_left_eq, List.append_cancel_right_eq]
      at front
    exact ⟨printDec_inj front, macText_inj.mp macs⟩
  · intro ⟨ports, macs⟩
    rw [ports, macs]

theorem plain_digit {byte : UInt8} (digit : (hexValue byte).isSome = true) : byte ≠ 0x0a := by
  intro newline
  rw [newline] at digit
  exact absurd digit (by decide)

theorem plain_hex2 (byte : UInt8) : 0x0a ∉ hex2 byte :=
  fun member => plain_digit (hexValue_of_mem_printHex member) rfl

theorem plain_printDec (value : Nat) : 0x0a ∉ printDec value := by
  rw [printDec]
  split
  · decide
  · intro member
    obtain ⟨digit, member, same⟩ := List.mem_map.mp member
    have small := Nat.digits_lt_base (by decide) (List.mem_reverse.mp member)
    exact plain_digit (by rw [hexValue_hexDigit (by omega)]; rfl) same

theorem plain_portText : 0x0a ∉ portText port mac := by
  have port : 0x0a ∉ ascii "Port " := by decide
  have colon : 0x0a ∉ ascii ": MAC " := by decide
  simp [portText, macText, port, colon, plain_printDec, plain_hex2]

theorem printDec_length (small : port < 10) : (printDec port).length = 1 := by
  revert port
  decide

theorem portText_length (small : port < 10) : (portText port mac).length = 29 := by
  rw [portText, List.length_append, List.length_append, List.length_append, macText_length,
    printDec_length small]
  rfl

/-! ## The ports of a chip -/

theorem getArlEntry_port (read : chip.getArlEntry raw = some a) (set : a.portmap.getLsbD port = true) :
    port < 7 := by
  have narrow {shift width word : Nat} (set : (BitVec.ofNat 16 (getField shift width word)).getLsbD port = true) :
      port < width := by
    rw [BitVec.getLsbD_ofNat, testBit_getField] at set
    simp only [Bool.and_eq_true, decide_eq_true_eq] at set
    exact set.2.1
  cases chip with
  | ar8216 =>
      rw [Chip.getArlEntry, ar8216GetArlEntry] at read
      split at read
      · contradiction
      · cases read
        exact Nat.lt_succ_of_lt (narrow set)
  | ar8327 =>
      rw [Chip.getArlEntry, ar8327GetArlEntry] at read
      split at read
      · contradiction
      · cases read
        exact narrow set

theorem entriesRead_port (has : HasPair (entriesRead chip table data) port mac) : port < 7 := by
  induction data generalizing table with
  | nil => exact absurd has hasPair_nil
  | cons raw rest ih =>
      rw [entriesRead] at has
      split at has
      · exact absurd has hasPair_nil
      · cases read : chip.getArlEntry raw with
        | none =>
            rw [read] at has
            exact absurd has hasPair_nil
        | some a =>
            rw [read] at has
            simp only at has
            split at has
            · rcases hasPair_cons.mp has with ⟨-, set⟩ | later
              · exact getArlEntry_port read set
              · exact ih later
            · rcases hasPair_cons.mp has with ⟨-, set⟩ | later
              · exact getArlEntry_port read set
              · exact ih later

/-! ## The lines of the listing -/

def headings (table : List ArlEntry) : List (List UInt8) :=
  headText :: if table.length = numArlRecords then [tooManyText] else []

theorem listing_eq (ports : Nat) (table : List ArlEntry) :
    listing ports table =
      headings table ++ (printedPairs ports table).map fun pair => portText pair.1 pair.2 :=
  rfl

theorem portText_not_heading : portText port mac ∉ headings table := by
  intro member
  have first : (portText port mac).head? = some 0x50 := rfl
  rw [headings, List.mem_cons] at member
  rcases member with same | member
  · rw [same] at first
    exact absurd first (by decide)
  · split at member
    · rw [List.mem_singleton.mp member] at first
      exact absurd first (by decide)
    · exact absurd member List.not_mem_nil

theorem headings_nodup : (headings table).Nodup := by
  rw [headings]
  split
  · decide
  · exact List.nodup_singleton _

theorem mem_listing : portText port mac ∈ listing ports table ↔ (port, mac) ∈ printedPairs ports table := by
  rw [listing_eq, List.mem_append, List.mem_map]
  constructor
  · intro member
    rcases member with heading | ⟨pair, member, same⟩
    · exact absurd heading portText_not_heading
    · obtain ⟨rfl, rfl⟩ := portText_inj.mp same
      exact member
  · intro member
    exact .inr ⟨(port, mac), member, rfl⟩

theorem listing_nodup (apart : Apart table) : (listing ports table).Nodup := by
  rw [listing_eq, List.nodup_append]
  refine ⟨headings_nodup, ?_, ?_⟩
  · apply List.Nodup.map_on _ (printedPairs_nodup apart)
    intro pair _ other _ same
    obtain ⟨ports, macs⟩ := portText_inj.mp same
    exact Prod.ext ports macs
  · intro heading here line member same
    obtain ⟨pair, -, rfl⟩ := List.mem_map.mp member
    exact portText_not_heading (same ▸ here)

theorem plain_listing : ∀ line ∈ listing ports table, 0x0a ∉ line := by
  intro line member
  rw [listing_eq, List.mem_append, headings, List.mem_cons] at member
  rcases member with (rfl | heading) | pair
  · decide
  · split at heading
    · rw [List.mem_singleton.mp heading]
      decide
    · exact absurd heading List.not_mem_nil
  · obtain ⟨pair, -, rfl⟩ := List.mem_map.mp pair
    exact plain_portText

/-- The length of the headings, with their newlines. -/
def headingsLength (table : List ArlEntry) : Nat := 25 + if table.length = numArlRecords then 55 else 0

theorem length_pairLines {printed : List (Nat × Mac)} (small : ∀ pair ∈ printed, pair.1 < 10) :
    ((printed.map fun pair => portText pair.1 pair.2).map endLine).flatten.length =
      30 * printed.length := by
  induction printed with
  | nil => rfl
  | cons pair rest ih =>
      have later := ih fun other member => small other (List.mem_cons_of_mem pair member)
      rw [List.map_cons, List.map_cons, List.flatten_cons, List.length_append, later, endLine,
        List.length_append, portText_length (small pair List.mem_cons_self), List.length_singleton,
        List.length_cons]
      omega

theorem length_headings : ((headings table).map endLine).flatten.length = headingsLength table := by
  rw [headings, headingsLength]
  split
  · decide
  · decide

theorem length_listing (small : ∀ pair ∈ printedPairs ports table, pair.1 < 10) :
    ((listing ports table).map endLine).flatten.length =
      headingsLength table + 30 * (printedPairs ports table).length := by
  rw [listing_eq, List.map_append, List.flatten_append, List.length_append, length_headings,
    length_pairLines small]

/-! ## The listing -/

/-- Each pair of the entries that were read has one line, other pairs have none, and the text with
its terminator is in the buffer. -/
structure Listed (read : List ArlEntry) (out : Printed) : Prop where
  once : ∀ port mac, HasPair read port mac → (linesOf [] out.text).count (portText port mac) = 1
  only : ∀ port mac, ¬ HasPair read port mac → portText port mac ∉ linesOf [] out.text
  bounded : out.text.length < arlBufSize

theorem swGetArlTable_text :
    (swGetArlTable chip ports data).text =
      ((listing ports (collect chip [] data)).map endLine).flatten.take (arlBufSize - 1) :=
  foldl_snprintf_text

theorem collect_hasPair :
    HasPair (collect chip [] data) port mac ↔ HasPair (entriesRead chip [] data) port mac := by
  rw [collect_pairs]
  simp

/-- Where no pair is left out for its port, as many lines are printed as there are pairs. -/
theorem printedPairs_length
    (within : ∀ port mac, HasPair (entriesRead chip [] data) port mac → port < ports) :
    (printedPairs ports (collect chip [] data)).length = (pairs (entriesRead chip [] data)).length := by
  have once : (pairs (entriesRead chip [] data)).Nodup := List.nodup_dedup _
  apply List.Perm.length_eq
  rw [List.perm_ext_iff_of_nodup (printedPairs_nodup (collect_apart List.Pairwise.nil)) once]
  intro (port, mac)
  rw [mem_printedPairs, mem_pairs, collect_hasPair]
  exact ⟨And.right, fun has => ⟨within port mac has, has⟩⟩

/-- A listing that is cut off has lost the line of its last pair. -/
theorem last_lost {kept : Nat} (apart : Apart table) (cut : kept < (listing ports table).length)
    (some' : printedPairs ports table ≠ []) :
    ∃ port mac, (port, mac) ∈ printedPairs ports table ∧
      portText port mac ∉ (listing ports table).take kept := by
  have nodup : (listing ports table).Nodup := listing_nodup apart
  refine ⟨((printedPairs ports table).getLast some').1, ((printedPairs ports table).getLast some').2,
    List.getLast_mem some', ?_⟩
  have split : listing ports table = (headings table ++
      (printedPairs ports table).dropLast.map fun pair => portText pair.1 pair.2) ++
      [portText ((printedPairs ports table).getLast some').1
        ((printedPairs ports table).getLast some').2] := by
    rw [listing_eq, List.append_assoc]
    congr 1
    conv_lhs => rw [← List.dropLast_append_getLast some', List.map_append, List.map_singleton]
  rw [split] at nodup cut ⊢
  rw [List.length_append, List.length_singleton] at cut
  rw [List.take_append_of_le_length (by omega)]
  intro member
  exact (List.nodup_append.mp nodup).2.2 _ (List.mem_of_mem_take member) _ (List.mem_singleton_self _) rfl

/-- The listing has a line for each pair exactly if every port is one of the switch's, and the lines
fit the buffer. -/
theorem listed_iff :
    Listed (entriesRead chip [] data) (swGetArlTable chip ports data) ↔
      (∀ port mac, HasPair (entriesRead chip [] data) port mac → port < ports) ∧
        headingsLength (collect chip [] data) + 30 * (pairs (entriesRead chip [] data)).length <
          arlBufSize := by
  have apart : Apart (collect chip [] data) := collect_apart List.Pairwise.nil
  have small : ∀ pair ∈ printedPairs ports (collect chip [] data), pair.1 < 10 := by
    intro pair member
    have has : HasPair (collect chip [] data) pair.1 pair.2 := (mem_printedPairs.mp member).2
    exact Nat.lt_trans (entriesRead_port (collect_hasPair.mp has)) (by decide)
  have length := length_listing small
  have size : arlBufSize = 3456 := rfl
  obtain ⟨kept, shown, all⟩ := linesOf_take (@plain_listing (collect chip [] data) ports)
    (arlBufSize - 1)
  rw [← swGetArlTable_text] at shown
  have bounded : (swGetArlTable chip ports data).text.length < arlBufSize := by
    rw [swGetArlTable_text, List.length_take]
    omega
  constructor
  · intro listed
    have within : ∀ port mac, HasPair (entriesRead chip [] data) port mac → port < ports := by
      intro port mac has
      have member := List.count_pos_iff.mp (Nat.lt_of_lt_of_eq Nat.one_pos (listed.once port mac has).symm)
      rw [shown] at member
      exact (mem_printedPairs.mp (mem_listing.mp (List.mem_of_mem_take member))).1
    refine ⟨within, ?_⟩
    rw [← printedPairs_length within, ← length]
    by_contra long
    have cut : kept < (listing ports (collect chip [] data)).length := by omega
    have some' : printedPairs ports (collect chip [] data) ≠ [] := by
      intro none
      rw [length, none, headingsLength, List.length_nil] at long
      split at long
      · omega
      · omega
    obtain ⟨port, mac, printed, lost⟩ := last_lost apart cut some'
    have has := collect_hasPair.mp (mem_printedPairs.mp printed).2
    rw [← shown] at lost
    have once := listed.once port mac has
    rw [List.count_eq_zero_of_not_mem lost] at once
    contradiction
  · intro ⟨within, fits⟩
    rw [← printedPairs_length within, ← length] at fits
    have whole : linesOf [] (swGetArlTable chip ports data).text =
        listing ports (collect chip [] data) := by
      rw [shown]
      exact List.take_of_length_le (all.mpr (by omega))
    constructor
    · intro port mac has
      rw [whole]
      apply List.count_eq_one_of_mem (listing_nodup apart)
      exact mem_listing.mpr (mem_printedPairs.mpr ⟨within port mac has, collect_hasPair.mpr has⟩)
    · intro port mac missing member
      rw [whole] at member
      exact missing (collect_hasPair.mp (mem_printedPairs.mp (mem_listing.mp member)).2)
    · exact bounded

/-! ## A table -/

/-- Twenty group addresses, each with all six ports of an AR8216. -/
def groupEntries : List AtuData :=
  (List.range 20).map fun n => ⟨0, BitVec.ofNat 32 n, 0x1003f⟩

theorem groups_not_listed :
    ¬ ∀ chip ports data, Listed (entriesRead chip [] data) (swGetArlTable chip ports data) := by
  intro lists
  have fits := (listed_iff.mp (lists .ar8216 6 groupEntries)).2
  have count : headingsLength (collect .ar8216 [] groupEntries) +
      30 * (pairs (entriesRead .ar8216 [] groupEntries)).length = 3625 := by
    decide +kernel
  rw [count] at fits
  exact absurd fits (by decide)

end Rut9xx.Switch.ArlTable
