import Rut9xx.Data.HexText
import Rut9xx.Data.Memory
import Mathlib.Data.List.GetD
import Mathlib.Data.List.TakeWhile

namespace Rut9xx.Mnf

open Data

/-! # Manufacturing fields and their text -/

section

inductive MnfFieldRestoreFunc where
  | restoreMac
  | restoreName
  | restoreNum
  | clear
  deriving DecidableEq, Repr

structure MnfField where
  offset : Nat
  length : Nat
  restoreFunc : MnfFieldRestoreFunc
  binary : Bool
  reversed : Bool
  deriving DecidableEq, Repr

/-- A terminated string, and what happens to lie in memory behind it. -/
structure CString where
  text : List UInt8
  beyond : Memory UInt8
  nonzero : ∀ c ∈ text, c ≠ 0

def CString.at (string : CString) (index : Nat) : UInt8 :=
  if index < string.text.length then string.text.getD index 0
  else if index = string.text.length then 0 else string.beyond index

/-- A buffer that a terminated text was written to. -/
def CString.ofBuffer (buffer : List UInt8) (beyond : Memory UInt8) : CString where
  text := buffer.takeWhile (· ≠ 0)
  beyond := beyond
  nonzero := by
    intro c member
    simpa using List.mem_takeWhile_imp member

/-- The swaps turn the buffer round. -/
def applyMnfOrder (field : MnfField) (buf : List UInt8) : List UInt8 :=
  if field.reversed then buf.reverse else buf

def hexChars : List UInt8 := ascii "0123456789ABCDEF"

def intToHexchar (val : Nat) : UInt8 := hexChars.getD val 0

def binToHexstr (input : List UInt8) : List UInt8 :=
  input.flatMap fun byte => [intToHexchar (byte.toNat / 16), intToHexchar (byte.toNat % 16)]

/-- The bytes written to `result` in front of its terminator; `input` has the field's length. -/
def mnfFieldToStr (field : MnfField) (input : List UInt8) : List UInt8 :=
  if field.binary then binToHexstr (applyMnfOrder field input)
  else (applyMnfOrder field input).takeWhile (· < 0x80)

/-- `toupper`, by `_ctype`: the letters, and those of Latin-1. -/
def toupper (c : UInt8) : UInt8 :=
  if (0x61 ≤ c ∧ c ≤ 0x7a) ∨ (0xdf ≤ c ∧ c ≠ 0xf7) then c - 0x20 else c

/-- `strchr` finds the terminator too. -/
def hexcharToInt (c : UInt8) : Option Nat := (hexChars ++ [0]).findIdx? (· = toupper c)

/-- The places of the string that were read, and what was made of them. -/
structure Hexstr where
  reads : List Nat
  bytes : Option (List UInt8)

/-- The loop of `hexstr_to_bin` from byte `i` on, with `count` of them to go. -/
def hexstrToBin (input : CString) (i : Nat) : Nat → Hexstr
  | 0 => ⟨[], some []⟩
  | count + 1 =>
      let highChar := input.at (i * 2)
      let lowChar := input.at (i * 2 + 1)
      if highChar = 0 then ⟨[i * 2, i * 2 + 1], some []⟩
      else
        match hexcharToInt highChar, hexcharToInt lowChar with
        | some high, some low =>
            let rest := hexstrToBin input (i + 1) count
            ⟨i * 2 :: (i * 2 + 1) :: rest.reads,
              rest.bytes.map fun bytes => UInt8.ofNat (high <<< 4 ||| low) :: bytes⟩
        | _, _ => ⟨[i * 2, i * 2 + 1], none⟩

/-- `memset(result, 0xff, field->length)` with `bytes` written over its front. -/
def filled (length : Nat) (bytes : List UInt8) : List UInt8 :=
  bytes ++ List.replicate (length - bytes.length) 0xff

/-- What `strlen` and `memcpy` read of the string when it is copied. -/
def copyReads (field : MnfField) (input : CString) : List Nat :=
  List.range (input.text.length + 1) ++ List.range (min input.text.length field.length)

def mnfStrToField (field : MnfField) (input : CString) : Hexstr :=
  if field.binary then
    let parsed := hexstrToBin input 0 field.length
    ⟨parsed.reads, parsed.bytes.map fun bytes => applyMnfOrder field (filled field.length bytes)⟩
  else
    ⟨copyReads field input,
      some (applyMnfOrder field (filled field.length (input.text.take field.length)))⟩

end

/-! # Which strings a field takes and gives back -/

section

variable {field : MnfField} {input : CString} {c hi lo : UInt8} {text bytes : List UInt8}
  {i count index value : Nat}

def IsHex (c : UInt8) : Prop := (hexValue c).isSome

instance : Decidable (IsHex c) := inferInstanceAs (Decidable (_ = true))

/-! ## Digits -/

theorem forall_byte {p : UInt8 → Prop} (all : ∀ bits : BitVec 8, p (UInt8.ofBitVec bits)) :
    ∀ c, p c :=
  fun c => all c.toBitVec

theorem hexcharToInt_eq (nonzero : c ≠ 0) : hexcharToInt c = hexValue c := by
  revert c
  apply forall_byte
  decide

theorem hexcharToInt_zero : hexcharToInt 0 = some 16 := by decide

theorem intToHexchar_toupper (digit : hexValue c = some value) : intToHexchar value = toupper c := by
  have each : ∀ c, (hexValue c).map intToHexchar = none ∨
      (hexValue c).map intToHexchar = some (toupper c) := by
    apply forall_byte
    decide
  have found := each c
  rw [digit] at found
  simpa using found

theorem hexValue_lt (digit : hexValue c = some value) : value < 16 := by
  have each : ∀ c, (hexValue c).getD 0 < 16 := by
    apply forall_byte
    decide
  have found := each c
  rwa [digit] at found

theorem hexValue_intToHexchar (small : value < 16) : hexValue (intToHexchar value) = some value := by
  revert value
  decide

theorem intToHexchar_ne_zero (small : value < 16) : intToHexchar value ≠ 0 := by
  revert value
  decide

/-! ## Pairs of digits -/

def pairByte (hi lo : UInt8) : UInt8 :=
  UInt8.ofNat (((hexValue hi).getD 0) <<< 4 ||| (hexValue lo).getD 0)

/-- The bytes that pairs of digits stand for. -/
def unhex : List UInt8 → List UInt8
  | hi :: lo :: rest => pairByte hi lo :: unhex rest
  | _ => []

theorem nibbles {high low : Nat} (highSmall : high < 16) (lowSmall : low < 16) :
    (UInt8.ofNat (high <<< 4 ||| low)).toNat / 16 = high ∧
      (UInt8.ofNat (high <<< 4 ||| low)).toNat % 16 = low := by
  have joined : high <<< 4 ||| low = 16 * high + low := by
    rw [Nat.shiftLeft_eq, Nat.mul_comm]
    exact (Nat.two_pow_add_eq_or_of_lt lowSmall high).symm
  rw [joined, UInt8.toNat_ofNat']
  omega

theorem unhex_length : (unhex text).length = text.length / 2 := by
  induction text using unhex.induct with
  | case1 hi lo rest ih =>
      rw [unhex, List.length_cons, ih, List.length_cons, List.length_cons]
      omega
  | case2 text short =>
      cases text with
      | nil => rfl
      | cons hi rest =>
          cases rest with
          | nil => simp [unhex]
          | cons lo rest => exact absurd rfl (short hi lo rest)

theorem binToHexstr_unhex (even : text.length % 2 = 0) (hex : ∀ c ∈ text, IsHex c) :
    binToHexstr (unhex text) = text.map toupper := by
  induction text using unhex.induct with
  | case1 hi lo rest ih =>
      obtain ⟨high, highDigit⟩ := Option.isSome_iff_exists.mp (hex hi (by simp))
      obtain ⟨low, lowDigit⟩ := Option.isSome_iff_exists.mp (hex lo (by simp))
      obtain ⟨upper, lower⟩ := nibbles (hexValue_lt highDigit) (hexValue_lt lowDigit)
      have rest' := ih (by simp only [List.length_cons] at even; omega)
        fun c member => hex c (by simp [member])
      rw [binToHexstr] at rest' ⊢
      rw [unhex, List.flatMap_cons, rest', pairByte, highDigit, lowDigit, Option.getD_some,
        Option.getD_some, upper, lower, intToHexchar_toupper highDigit,
        intToHexchar_toupper lowDigit]
      rfl
  | case2 text short =>
      cases text with
      | nil => rfl
      | cons hi rest =>
          cases rest with
          | nil => simp at even
          | cons lo rest => exact absurd rfl (short hi lo rest)

theorem binToHexstr_cons {byte : UInt8} : binToHexstr (byte :: bytes) =
    intToHexchar (byte.toNat / 16) :: intToHexchar (byte.toNat % 16) :: binToHexstr bytes := rfl

theorem pairByte_intToHexchar (byte : UInt8) :
    pairByte (intToHexchar (byte.toNat / 16)) (intToHexchar (byte.toNat % 16)) = byte := by
  have bound := byte.toNat_lt
  have high : byte.toNat / 16 < 16 := by omega
  have low : byte.toNat % 16 < 16 := by omega
  have joined : (byte.toNat / 16) <<< 4 ||| byte.toNat % 16 = byte.toNat := by
    rw [Nat.shiftLeft_eq, Nat.mul_comm]
    exact (Nat.two_pow_add_eq_or_of_lt low _).symm.trans (Nat.div_add_mod _ 16)
  rw [pairByte, hexValue_intToHexchar high, hexValue_intToHexchar low, Option.getD_some,
    Option.getD_some, joined, UInt8.ofNat_toNat]

theorem unhex_binToHexstr (bytes : List UInt8) : unhex (binToHexstr bytes) = bytes := by
  induction bytes with
  | nil => rfl
  | cons byte rest ih => rw [binToHexstr_cons, unhex, ih, pairByte_intToHexchar]

theorem binToHexstr_length : (binToHexstr bytes).length = bytes.length * 2 := by
  induction bytes with
  | nil => rfl
  | cons byte rest ih =>
      rw [binToHexstr_cons, List.length_cons, List.length_cons, List.length_cons, ih]
      omega

theorem binToHexstr_digits (member : c ∈ binToHexstr bytes) : IsHex c ∧ c ≠ 0 := by
  obtain ⟨byte, -, here⟩ := List.mem_flatMap.mp member
  have bound := byte.toNat_lt
  have digit : ∀ {value : Nat}, value < 16 → c = intToHexchar value → IsHex c ∧ c ≠ 0 := by
    rintro value small rfl
    unfold IsHex
    rw [hexValue_intToHexchar small]
    exact ⟨rfl, intToHexchar_ne_zero small⟩
  rcases List.mem_cons.mp here with high | low
  · exact digit (by omega) high
  · exact digit (by omega) (List.mem_singleton.mp low)

/-! ## The loop of `hexstr_to_bin` -/

theorem at_text (inside : index < input.text.length) : input.at index = input.text[index] := by
  rw [CString.at, if_pos inside, List.getD_eq_getElem _ _ inside]

theorem at_end : input.at input.text.length = 0 := by
  rw [CString.at, if_neg (Nat.lt_irrefl _), if_pos rfl]

theorem at_ne_zero (inside : index < input.text.length) : input.at index ≠ 0 := by
  rw [at_text inside]
  exact input.nonzero _ (List.getElem_mem inside)

theorem hexstrToBin_succ : hexstrToBin input i (count + 1) =
    if input.at (i * 2) = 0 then ⟨[i * 2, i * 2 + 1], some []⟩
    else
      match hexcharToInt (input.at (i * 2)), hexcharToInt (input.at (i * 2 + 1)) with
      | some high, some low =>
          ⟨i * 2 :: (i * 2 + 1) :: (hexstrToBin input (i + 1) count).reads,
            (hexstrToBin input (i + 1) count).bytes.map fun bytes =>
              UInt8.ofNat (high <<< 4 ||| low) :: bytes⟩
      | _, _ => ⟨[i * 2, i * 2 + 1], none⟩ := rfl

theorem hexstrToBin_pair {high low : Nat} (nonzero : input.at (i * 2) ≠ 0)
    (upper : hexcharToInt (input.at (i * 2)) = some high)
    (lower : hexcharToInt (input.at (i * 2 + 1)) = some low) :
    hexstrToBin input i (count + 1) =
      ⟨i * 2 :: (i * 2 + 1) :: (hexstrToBin input (i + 1) count).reads,
        (hexstrToBin input (i + 1) count).bytes.map fun bytes =>
          UInt8.ofNat (high <<< 4 ||| low) :: bytes⟩ := by
  rw [hexstrToBin_succ, upper, lower]
  dsimp only
  rw [if_neg nonzero]

theorem hexstrToBin_refused (nonzero : input.at (i * 2) ≠ 0)
    (refused : hexcharToInt (input.at (i * 2)) = none ∨
      hexcharToInt (input.at (i * 2 + 1)) = none) :
    hexstrToBin input i (count + 1) = ⟨[i * 2, i * 2 + 1], none⟩ := by
  rw [hexstrToBin_succ, if_neg nonzero]
  rcases refused with high | low
  · rw [high]
  · rw [low]
    cases hexcharToInt (input.at (i * 2)) <;> rfl

theorem hexstrToBin_reads (i count : Nat) :
    i * 2 + 1 ∈ (hexstrToBin input i (count + 1)).reads := by
  rw [hexstrToBin_succ]
  split
  · simp
  · split <;> simp

theorem drop_pair (inside : i * 2 + 1 < input.text.length) :
    input.text.drop (i * 2) =
      input.at (i * 2) :: input.at (i * 2 + 1) :: input.text.drop ((i + 1) * 2) := by
  rw [List.drop_eq_getElem_cons (by omega), List.drop_eq_getElem_cons inside, at_text inside,
    at_text (by omega)]
  congr 3
  omega

/-- With all the digits there, each pair is a byte. -/
theorem hexstrToBin_full (inside : (i + count) * 2 ≤ input.text.length)
    (hex : ∀ c ∈ (input.text.drop (i * 2)).take (count * 2), IsHex c) :
    (hexstrToBin input i count).bytes =
        some (unhex ((input.text.drop (i * 2)).take (count * 2))) ∧
      ∀ index ∈ (hexstrToBin input i count).reads, index ≤ input.text.length := by
  induction count generalizing i with
  | zero =>
      rw [Nat.zero_mul, List.take_zero]
      exact ⟨rfl, by simp [hexstrToBin]⟩
  | succ count ih =>
      have pair := @drop_pair input i (by omega)
      rw [pair, Nat.succ_mul] at hex ⊢
      rw [List.take_succ_cons, List.take_succ_cons] at hex ⊢
      obtain ⟨high, highDigit⟩ := Option.isSome_iff_exists.mp (hex (input.at (i * 2)) (by simp))
      obtain ⟨low, lowDigit⟩ := Option.isSome_iff_exists.mp (hex (input.at (i * 2 + 1)) (by simp))
      obtain ⟨rest, reads⟩ := ih (i := i + 1) (by omega) fun c member => hex c (by simp [member])
      have highNonzero := @at_ne_zero input (i * 2) (by omega)
      have lowNonzero := @at_ne_zero input (i * 2 + 1) (by omega)
      rw [hexstrToBin_pair highNonzero ((hexcharToInt_eq highNonzero).trans highDigit)
        ((hexcharToInt_eq lowNonzero).trans lowDigit), rest, unhex, pairByte, highDigit, lowDigit]
      refine ⟨rfl, ?_⟩
      intro index member
      rcases List.mem_cons.mp member with rfl | member
      · omega
      · rcases List.mem_cons.mp member with rfl | member
        · omega
        · exact reads index member

/-- A character that is no digit is found before the string ends. -/
theorem hexstrToBin_bad (bad : ∃ c ∈ (input.text.drop (i * 2)).take (count * 2), ¬ IsHex c) :
    (hexstrToBin input i count).bytes = none ∧
      ∀ index ∈ (hexstrToBin input i count).reads, index ≤ input.text.length := by
  induction count generalizing i with
  | zero =>
      obtain ⟨c, member, -⟩ := bad
      simp at member
  | succ count ih =>
      have more : i * 2 < input.text.length := by
        by_contra none
        obtain ⟨c, member, -⟩ := bad
        rw [List.drop_eq_nil_of_le (by omega)] at member
        simp at member
      have highNonzero := at_ne_zero more
      have both : ∀ index ∈ [i * 2, i * 2 + 1], index ≤ input.text.length := by
        simp only [List.mem_cons, List.not_mem_nil, or_false, forall_eq_or_imp, forall_eq]
        omega
      by_cases last : i * 2 + 1 < input.text.length
      · have lowNonzero := at_ne_zero last
        rw [drop_pair last, Nat.succ_mul, List.take_succ_cons, List.take_succ_cons] at bad
        cases highDigit : hexValue (input.at (i * 2)) with
        | none =>
            rw [hexstrToBin_refused highNonzero
              (Or.inl ((hexcharToInt_eq highNonzero).trans highDigit))]
            exact ⟨rfl, both⟩
        | some high =>
            cases lowDigit : hexValue (input.at (i * 2 + 1)) with
            | none =>
                rw [hexstrToBin_refused highNonzero
                  (Or.inr ((hexcharToInt_eq lowNonzero).trans lowDigit))]
                exact ⟨rfl, both⟩
            | some low =>
                have later : ∃ c ∈ (input.text.drop ((i + 1) * 2)).take (count * 2), ¬ IsHex c := by
                  obtain ⟨c, member, wrong⟩ := bad
                  unfold IsHex at wrong
                  rcases List.mem_cons.mp member with rfl | member
                  · rw [highDigit] at wrong
                    exact absurd rfl wrong
                  · rcases List.mem_cons.mp member with rfl | member
                    · rw [lowDigit] at wrong
                      exact absurd rfl wrong
                    · exact ⟨c, member, wrong⟩
                obtain ⟨rest, reads⟩ := ih later
                rw [hexstrToBin_pair highNonzero ((hexcharToInt_eq highNonzero).trans highDigit)
                  ((hexcharToInt_eq lowNonzero).trans lowDigit), rest]
                refine ⟨rfl, ?_⟩
                intro index member
                rcases List.mem_cons.mp member with rfl | member
                · omega
                · rcases List.mem_cons.mp member with rfl | member
                  · omega
                  · exact reads index member
      · -- one character is left, and it is the bad one
        have single : input.text.drop (i * 2) = [input.at (i * 2)] := by
          rw [List.drop_eq_getElem_cons more, List.drop_eq_nil_of_le (by omega), at_text more]
        obtain ⟨c, member, wrong⟩ := bad
        rw [single] at member
        obtain rfl := List.mem_singleton.mp (List.mem_of_mem_take member)
        have refused : hexcharToInt (input.at (i * 2)) = none := by
          rw [hexcharToInt_eq highNonzero]
          exact Option.not_isSome_iff_eq_none.mp wrong
        rw [hexstrToBin_refused highNonzero (Or.inl refused)]
        exact ⟨rfl, both⟩

/-- With digits to the end and too few of them, the end is read over, or its NUL is taken for a
digit. -/
theorem hexstrToBin_short (here : i * 2 ≤ input.text.length)
    (short : input.text.length < (i + count) * 2)
    (hex : ∀ c ∈ input.text.drop (i * 2), IsHex c) :
    (∃ index ∈ (hexstrToBin input i count).reads, input.text.length < index) ∨
      (input.text.length % 2 = 1 ∧ (hexstrToBin input i count).bytes.isSome) := by
  induction count generalizing i with
  | zero => omega
  | succ count ih =>
      by_cases ended : input.text.length = i * 2
      · exact Or.inl ⟨i * 2 + 1, hexstrToBin_reads i count, by omega⟩
      · have more : i * 2 < input.text.length := by omega
        have highNonzero := at_ne_zero more
        have highHex : IsHex (input.at (i * 2)) := by
          apply hex
          rw [List.drop_eq_getElem_cons more, at_text more]
          exact List.mem_cons_self
        obtain ⟨high, highDigit⟩ := Option.isSome_iff_exists.mp highHex
        by_cases last : i * 2 + 1 < input.text.length
        · have lowNonzero := at_ne_zero last
          rw [drop_pair last] at hex
          obtain ⟨low, lowDigit⟩ := Option.isSome_iff_exists.mp (hex (input.at (i * 2 + 1)) (by simp))
          rw [hexstrToBin_pair highNonzero ((hexcharToInt_eq highNonzero).trans highDigit)
            ((hexcharToInt_eq lowNonzero).trans lowDigit)]
          rcases ih (i := i + 1) (by omega) (by omega) (fun c member => hex c (by simp [member])) with
            ⟨index, read, past⟩ | ⟨odd, accepted⟩
          · exact Or.inl ⟨index, by simp [read], past⟩
          · exact Or.inr ⟨odd, by simpa using accepted⟩
        · have lowZero : input.at (i * 2 + 1) = 0 := by
            rw [show i * 2 + 1 = input.text.length by omega]
            exact at_end
          rw [hexstrToBin_pair highNonzero ((hexcharToInt_eq highNonzero).trans highDigit)
            (lowZero ▸ hexcharToInt_zero)]
          cases count with
          | zero => exact Or.inr ⟨by omega, rfl⟩
          | succ count =>
              exact Or.inl ⟨(i + 1) * 2 + 1, by simp [hexstrToBin_reads (i + 1) count], by omega⟩

/-! ## The field -/

/-- An even number of digits that fits. -/
def HexFits (field : MnfField) (text : List UInt8) : Prop :=
  (∀ c ∈ text, IsHex c) ∧ text.length % 2 = 0 ∧ text.length ≤ field.length * 2

/-- What a string that was stored comes back as. -/
def canonical (field : MnfField) (text : List UInt8) : List UInt8 :=
  if field.binary then text.map toupper else text

structure Faithful (field : MnfField) (input : CString) : Prop where
  accepted : field.binary = true →
    ((mnfStrToField field input).bytes.isSome ↔ HexFits field input.text)
  inside : ∀ index ∈ (mnfStrToField field input).reads, index ≤ input.text.length
  returned : ∀ stored, (mnfStrToField field input).bytes = some stored →
    mnfFieldToStr field stored = canonical field input.text

/-- A binary field takes the digits of all its bytes; whatever else has a character that is no
digit early enough is refused. A text fits and is in ASCII. -/
def Suitable (field : MnfField) (text : List UInt8) : Prop :=
  if field.binary then
    text.length = field.length * 2 ∨ ∃ c ∈ text.take (field.length * 2), ¬ IsHex c
  else text.length ≤ field.length ∧ ∀ c ∈ text, c < 0x80

/-- The bytes of a field that holds a value: anything for a binary one, else a text in ASCII and
the filling. -/
def ValidField (field : MnfField) (bytes : List UInt8) : Prop :=
  if field.binary then bytes.length = field.length
  else ∃ text, text.length ≤ field.length ∧ (∀ c ∈ text, c ≠ 0 ∧ c < 0x80) ∧
    bytes = applyMnfOrder field (filled field.length text)

theorem applyMnfOrder_twice : applyMnfOrder field (applyMnfOrder field bytes) = bytes := by
  unfold applyMnfOrder
  split
  · exact List.reverse_reverse bytes
  · rfl

theorem filled_full (full : bytes.length = field.length) : filled field.length bytes = bytes := by
  rw [filled, full, Nat.sub_self, List.replicate_zero, List.append_nil]

theorem mnfStrToField_binary (binary : field.binary = true) : mnfStrToField field input =
    ⟨(hexstrToBin input 0 field.length).reads,
      (hexstrToBin input 0 field.length).bytes.map fun bytes =>
        applyMnfOrder field (filled field.length bytes)⟩ := by
  rw [mnfStrToField, if_pos binary]

theorem mnfFieldToStr_binary (binary : field.binary = true) :
    mnfFieldToStr field (applyMnfOrder field bytes) = binToHexstr bytes := by
  rw [mnfFieldToStr, if_pos binary, applyMnfOrder_twice]

/-- All the digits of a field are taken, and come back in upper case. -/
theorem mnfStrToField_digits (binary : field.binary = true)
    (full : input.text.length = field.length * 2) (hex : ∀ c ∈ input.text, IsHex c) :
    (mnfStrToField field input).bytes = some (applyMnfOrder field (unhex input.text)) ∧
      ∀ index ∈ (mnfStrToField field input).reads, index ≤ input.text.length := by
  have whole : (input.text.drop (0 * 2)).take (field.length * 2) = input.text := by
    rw [Nat.zero_mul, List.drop_zero, ← full, List.take_length]
  obtain ⟨parsed, reads⟩ := @hexstrToBin_full input 0 field.length (by omega)
    (by rwa [whole])
  rw [mnfStrToField_binary binary, parsed, whole]
  refine ⟨?_, reads⟩
  rw [Option.map_some, filled_full (by rw [unhex_length]; omega)]

theorem faithful_binary_iff (binary : field.binary = true) :
    Faithful field input ↔ Suitable field input.text := by
  rw [Suitable, if_pos binary]
  by_cases bad : ∃ c ∈ input.text.take (field.length * 2), ¬ IsHex c
  · have shifted : ∃ c ∈ (input.text.drop (0 * 2)).take (field.length * 2), ¬ IsHex c := by
      rwa [Nat.zero_mul, List.drop_zero]
    obtain ⟨refused, reads⟩ := hexstrToBin_bad shifted
    refine iff_of_true ⟨?_, ?_, ?_⟩ (Or.inr bad)
    · intro _
      rw [mnfStrToField_binary binary, refused]
      refine iff_of_false (by simp) ?_
      rintro ⟨hex, -⟩
      obtain ⟨c, member, wrong⟩ := bad
      exact wrong (hex c (List.mem_of_mem_take member))
    · rw [mnfStrToField_binary binary]
      exact reads
    · intro stored taken
      rw [mnfStrToField_binary binary, refused] at taken
      cases taken
  · have hex : ∀ c ∈ input.text.take (field.length * 2), IsHex c := by
      intro c member
      by_contra wrong
      exact bad ⟨c, member, wrong⟩
    rcases Nat.lt_trichotomy input.text.length (field.length * 2) with short | full | long
    · rw [List.take_of_length_le (by omega)] at hex
      have shifted : ∀ c ∈ input.text.drop (0 * 2), IsHex c := by
        rwa [Nat.zero_mul, List.drop_zero]
      refine iff_of_false ?_ (not_or.mpr ⟨by omega, bad⟩)
      rintro ⟨accepted, inside, -⟩
      rw [mnfStrToField_binary binary] at accepted inside
      rcases @hexstrToBin_short input 0 field.length (by omega) (by omega) shifted with
        ⟨index, read, past⟩ | ⟨odd, taken⟩
      · have := inside index read
        omega
      · have fits := (accepted binary).mp (by simpa using taken)
        have := fits.2.1
        omega
    · rw [List.take_of_length_le (by omega)] at hex
      obtain ⟨taken, reads⟩ := mnfStrToField_digits binary full hex
      refine iff_of_true ⟨?_, reads, ?_⟩ (Or.inl full)
      · intro _
        rw [taken]
        exact iff_of_true rfl ⟨hex, by omega, by omega⟩
      · intro stored stores
        rw [taken] at stores
        cases stores
        rw [mnfFieldToStr_binary binary, canonical, if_pos binary, binToHexstr_unhex (by omega) hex]
    · refine iff_of_false ?_ (not_or.mpr ⟨by omega, bad⟩)
      rintro ⟨accepted, -, -⟩
      have shifted : ∀ c ∈ (input.text.drop (0 * 2)).take (field.length * 2), IsHex c := by
        rwa [Nat.zero_mul, List.drop_zero]
      obtain ⟨parsed, -⟩ := @hexstrToBin_full input 0 field.length (by omega) shifted
      have fits := (accepted binary).mp (by rw [mnfStrToField_binary binary, parsed]; rfl)
      have := fits.2.2
      omega

theorem takeWhile_filled (length : Nat) (plain : ∀ c ∈ text, c < 0x80) :
    (filled length text).takeWhile (· < 0x80) = text := by
  rw [filled, List.takeWhile_append_of_pos (by simpa using plain)]
  cases length - text.length with
  | zero => rw [List.replicate_zero, List.takeWhile_nil, List.append_nil]
  | succ count =>
      rw [List.replicate_succ, List.takeWhile_cons_of_neg (by decide), List.append_nil]

theorem mnfStrToField_text (plain : ¬ field.binary = true) : mnfStrToField field input =
    ⟨copyReads field input,
      some (applyMnfOrder field (filled field.length (input.text.take field.length)))⟩ := by
  rw [mnfStrToField, if_neg plain]

theorem mnfFieldToStr_text (plain : ¬ field.binary = true) :
    mnfFieldToStr field (applyMnfOrder field bytes) = bytes.takeWhile (· < 0x80) := by
  rw [mnfFieldToStr, if_neg plain, applyMnfOrder_twice]

theorem copyReads_inside : ∀ index ∈ copyReads field input, index ≤ input.text.length := by
  intro index member
  rcases List.mem_append.mp member with read | copied
  · have := List.mem_range.mp read
    omega
  · have := List.mem_range.mp copied
    omega

theorem faithful_text_iff (plain : ¬ field.binary = true) :
    Faithful field input ↔ Suitable field input.text := by
  rw [Suitable, if_neg plain]
  have back : (mnfStrToField field input).bytes = some (applyMnfOrder field
      (filled field.length (input.text.take field.length))) := by
    rw [mnfStrToField_text plain]
  constructor
  · intro faithful
    have same := faithful.returned _ back
    rw [mnfFieldToStr_text plain, canonical, if_neg plain] at same
    have ascii : ∀ c ∈ input.text, c < 0x80 := by
      intro c member
      rw [← same] at member
      simpa using List.mem_takeWhile_imp member
    refine ⟨?_, ascii⟩
    have cut : (filled field.length (input.text.take field.length)).takeWhile (· < 0x80) =
        input.text.take field.length :=
      takeWhile_filled _ fun c member => ascii c (List.mem_of_mem_take member)
    have few := congrArg List.length (same.symm.trans cut)
    rw [List.length_take] at few
    omega
  · rintro ⟨short, ascii⟩
    refine ⟨fun binary => absurd binary plain, ?_, ?_⟩
    · rw [mnfStrToField_text plain]
      exact copyReads_inside
    · intro stored taken
      rw [back] at taken
      cases taken
      rw [mnfFieldToStr_text plain, List.take_of_length_le short, takeWhile_filled _ ascii,
        canonical, if_neg plain]

/-- A valid field comes back from its own text. -/
theorem mnfStrToField_mnfFieldToStr {bytes : List UInt8} (beyond : Memory UInt8)
    (valid : ValidField field bytes) :
    (mnfStrToField field (CString.ofBuffer (mnfFieldToStr field bytes) beyond)).bytes =
      some bytes := by
  by_cases binary : field.binary = true
  · rw [ValidField, if_pos binary] at valid
    have digits : (CString.ofBuffer (mnfFieldToStr field bytes) beyond).text =
        binToHexstr (applyMnfOrder field bytes) := by
      rw [CString.ofBuffer, mnfFieldToStr, if_pos binary]
      apply List.takeWhile_eq_self_iff.mpr
      intro c member
      simpa using (binToHexstr_digits member).2
    have ordered : (applyMnfOrder field bytes).length = field.length := by
      unfold applyMnfOrder
      split <;> simp [valid]
    obtain ⟨taken, -⟩ := mnfStrToField_digits binary
      (by rw [digits, binToHexstr_length, ordered])
      (by rw [digits]; exact fun c member => (binToHexstr_digits member).1)
    rw [taken, digits, unhex_binToHexstr, applyMnfOrder_twice]
  · rw [ValidField, if_neg binary] at valid
    obtain ⟨text, short, ascii, rfl⟩ := valid
    have same : (CString.ofBuffer (mnfFieldToStr field
        (applyMnfOrder field (filled field.length text))) beyond).text = text := by
      rw [CString.ofBuffer, mnfFieldToStr_text binary,
        takeWhile_filled _ fun c member => (ascii c member).2]
      apply List.takeWhile_eq_self_iff.mpr
      intro c member
      simpa using (ascii c member).1
    rw [mnfStrToField_text binary, same, List.take_of_length_le short]

/-- The strings a field deals with as it should, and the way back, which always works. -/
theorem mnfCodec_iff (field : MnfField) :
    (∀ input : CString, Faithful field input ↔ Suitable field input.text) ∧
    (∀ bytes beyond, ValidField field bytes →
      (mnfStrToField field (CString.ofBuffer (mnfFieldToStr field bytes) beyond)).bytes =
        some bytes) := by
  refine ⟨?_, fun bytes beyond valid => mnfStrToField_mnfFieldToStr beyond valid⟩
  intro input
  by_cases binary : field.binary = true
  · exact faithful_binary_iff binary
  · exact faithful_text_iff binary

/-- The MAC address. -/
def macField : MnfField := ⟨0x00, 6, .restoreMac, true, false⟩

/-- Eleven digits for the twelve of a MAC address are taken. -/
theorem oddDigits_accepted : ¬ ∀ (field : MnfField) (input : CString), Faithful field input := by
  intro always
  have faithful := always macField ⟨ascii "001E42ABCDE", fun _ => 0, by decide +kernel⟩
  have fits := (faithful.accepted rfl).mp (by decide)
  exact absurd fits.2.1 (by decide)

end

end Rut9xx.Mnf
