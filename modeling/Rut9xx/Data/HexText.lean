import Mathlib.Data.Nat.Digits.Lemmas
import Mathlib.Data.UInt

namespace Rut9xx.Data

/-! # Numbers printed and read in hexadecimal -/

variable {width value digit : Nat} {digits : List Nat} {byte : UInt8} {rest : List UInt8}

def ascii (text : String) : List UInt8 := text.toList.map fun c => UInt8.ofNat c.toNat

def hexDigit (digit : Nat) : UInt8 := UInt8.ofNat (if digit < 10 then 0x30 + digit else 0x57 + digit)

/-- `%0*x` -/
def printHex (width value : Nat) : List UInt8 :=
  let digits := (Nat.digits 16 value).reverse.map hexDigit
  List.replicate (width - digits.length) 0x30 ++ digits

def hexValue (byte : UInt8) : Option Nat :=
  if 0x30 ≤ byte ∧ byte ≤ 0x39 then some (byte.toNat - 0x30)
  else if 0x61 ≤ byte ∧ byte ≤ 0x66 then some (byte.toNat - 0x57)
  else if 0x41 ≤ byte ∧ byte ≤ 0x46 then some (byte.toNat - 0x37)
  else none

/-- The value of the digits in front, put behind `acc`. -/
def readDigits (acc : Nat) : List UInt8 → Nat
  | [] => acc
  | byte :: rest =>
      match hexValue byte with
      | none => acc
      | some digit => readDigits (16 * acc + digit) rest

def isSpace (byte : UInt8) : Bool := byte = 0x20 ∨ 0x09 ≤ byte ∧ byte ≤ 0x0d

/-- The `0x` in front of a digit. -/
def skipPrefix (text : List UInt8) : List UInt8 :=
  match text with
  | zero :: x :: digit :: rest =>
      if zero = 0x30 ∧ (x = 0x78 ∨ x = 0x58) ∧ (hexValue digit).isSome then digit :: rest else text
  | _ => text

/-- `strtoul(text, NULL, 16)` with a 64-bit `unsigned long` -/
def strtoulHex (text : List UInt8) : Nat :=
  let text := text.dropWhile isSpace
  let negative := text.head? = some 0x2d
  let text := if text.head? = some 0x2d ∨ text.head? = some 0x2b then text.tail else text
  let value := readDigits 0 (skipPrefix text)
  if 2 ^ 64 ≤ value then 2 ^ 64 - 1 else if negative then (2 ^ 64 - value) % 2 ^ 64 else value

theorem hexValue_hexDigit (small : digit < 16) : hexValue (hexDigit digit) = some digit := by
  revert digit
  decide

theorem readDigits_map {acc : Nat} (small : ∀ digit ∈ digits, digit < 16)
    (stop : hexValue byte = none) :
    readDigits acc (digits.map hexDigit ++ byte :: rest) =
      digits.foldl (fun acc digit => 16 * acc + digit) acc := by
  induction digits generalizing acc with
  | nil => simp only [List.map_nil, List.nil_append, readDigits, stop, List.foldl_nil]
  | cons digit more ih =>
      rw [List.map_cons, List.cons_append, readDigits, hexValue_hexDigit (small digit List.mem_cons_self)]
      exact ih (fun other member => small other (List.mem_cons_of_mem digit member))

theorem readDigits_zeros {count : Nat} {text : List UInt8} :
    readDigits 0 (List.replicate count 0x30 ++ text) = readDigits 0 text := by
  induction count with
  | zero => rfl
  | succ count ih =>
      rw [List.replicate_succ, List.cons_append, readDigits]
      exact ih

/-- What is printed is read back, up to a byte that is no digit. -/
theorem readDigits_printHex (stop : hexValue byte = none) :
    readDigits 0 (printHex width value ++ byte :: rest) = value := by
  have small : ∀ digit ∈ (Nat.digits 16 value).reverse, digit < 16 := by
    intro digit member
    exact Nat.digits_lt_base (by decide) (List.mem_reverse.mp member)
  rw [printHex, List.append_assoc, readDigits_zeros, readDigits_map small stop, List.foldl_reverse]
  calc List.foldr (fun digit acc => 16 * acc + digit) 0 (Nat.digits 16 value)
      = Nat.ofDigits 16 (Nat.digits 16 value) := by
        rw [Nat.ofDigits_eq_foldr]
        simp only [Nat.cast_id, Nat.add_comm]
    _ = value := Nat.ofDigits_digits 16 value

theorem printHex_ne_nil (positive : 0 < width) : printHex width value ≠ [] := by
  intro empty
  have length := congrArg List.length empty
  simp only [printHex, List.length_append, List.length_replicate, List.length_nil] at length
  omega

/-- Every byte printed is a digit. -/
theorem hexValue_of_mem_printHex (member : byte ∈ printHex width value) :
    (hexValue byte).isSome = true := by
  rw [printHex, List.mem_append] at member
  rcases member with zero | digit
  · rw [List.eq_of_mem_replicate zero]
    decide
  · obtain ⟨digit, member, rfl⟩ := List.mem_map.mp digit
    rw [hexValue_hexDigit (Nat.digits_lt_base (by decide) (List.mem_reverse.mp member))]
    rfl

theorem printHex_length_le (narrow : width ≤ 8) (small : value < 2 ^ 32) :
    (printHex width value).length ≤ 8 := by
  have digits : (Nat.digits 16 value).length ≤ 8 := by
    rw [Nat.digits_length_le_iff (by decide)]
    exact small
  simp only [printHex, List.length_append, List.length_replicate, List.length_map, List.length_reverse]
  omega

theorem printHex_length (fits : value < 16 ^ width) : (printHex width value).length = width := by
  have digits : (Nat.digits 16 value).length ≤ width := by
    rw [Nat.digits_length_le_iff (by decide)]
    exact fits
  simp only [printHex, List.length_append, List.length_replicate, List.length_map, List.length_reverse]
  omega

/-- `strtoul` reads what `0x%0*x` prints. -/
theorem strtoulHex_printHex (positive : 0 < width) (small : value < 2 ^ 64)
    (stop : hexValue byte = none) :
    strtoulHex (0x30 :: 0x78 :: (printHex width value ++ byte :: rest)) = value := by
  have front : strtoulHex (0x30 :: 0x78 :: (printHex width value ++ byte :: rest)) =
      if 2 ^ 64 ≤ readDigits 0 (skipPrefix (0x30 :: 0x78 :: (printHex width value ++ byte :: rest)))
        then 2 ^ 64 - 1
      else readDigits 0 (skipPrefix (0x30 :: 0x78 :: (printHex width value ++ byte :: rest))) := rfl
  have skipped : skipPrefix (0x30 :: 0x78 :: (printHex width value ++ byte :: rest)) =
      printHex width value ++ byte :: rest := by
    cases printed : printHex width value with
    | nil => exact absurd printed (printHex_ne_nil positive)
    | cons first more =>
        have digit : (hexValue first).isSome = true :=
          hexValue_of_mem_printHex (printed ▸ List.mem_cons_self)
        rw [List.cons_append, skipPrefix, if_pos ⟨rfl, Or.inl rfl, digit⟩]
  rw [front, skipped, readDigits_printHex stop, if_neg (Nat.not_le_of_lt small)]

end Rut9xx.Data
