import Rut9xx.Data.Buffer
import Mathlib.Data.UInt

namespace Rut9xx.Data

/-! # Lists of options

An option is a tag, a length octet and a value.  Two tags are single octets: one
pads, the other closes the list.  A broken option ends what can be read.
-/

structure TaggedValue where
  tag : UInt8
  value : List UInt8
  deriving DecidableEq, Repr

structure OptionFormat where
  pad : UInt8
  stop : UInt8
  /-- How many bytes of an option its length octet leaves out. -/
  uncounted : Nat

section

variable (format : OptionFormat)

def OptionFormat.size (len : UInt8) : Nat := len.toNat + format.uncounted

/-- The options of `bytes` with their places; the first byte is at `place`. -/
def readOptions (place : Nat) : List UInt8 → List (Nat × TaggedValue)
  | [] => []
  | [_] => []
  | tag :: len :: rest =>
      if tag = format.stop then []
      else if tag = format.pad then readOptions (place + 1) (len :: rest)
      else if 2 ≤ format.size len ∧ format.size len ≤ rest.length + 2 then
        (place, ⟨tag, rest.take (format.size len - 2)⟩) ::
          readOptions (place + format.size len) (rest.drop (format.size len - 2))
      else []
termination_by bytes => bytes.length

/-- The options from `place` on. -/
def optionsFrom (bytes : List UInt8) (place : Nat) : List (Nat × TaggedValue) :=
  readOptions format place (bytes.drop place)

def TaggedValue.encode (option : TaggedValue) : List UInt8 :=
  option.tag :: UInt8.ofNat (option.value.length + 2 - format.uncounted) :: option.value

/-- An option that its length octet can describe. -/
structure TaggedValue.WellFormed (option : TaggedValue) : Prop where
  noPad : option.tag ≠ format.pad
  noStop : option.tag ≠ format.stop
  counted : option.value.length + 2 - format.uncounted < 256

end

variable {format : OptionFormat} {bytes rest : List UInt8} {place size : Nat} {tag len : UInt8}
  {option : TaggedValue}

@[simp] theorem readOptions_nil : readOptions format place [] = [] := by
  rw [readOptions]

@[simp] theorem readOptions_single : readOptions format place [tag] = [] := by
  rw [readOptions]

@[simp] theorem readOptions_stop : readOptions format place (format.stop :: rest) = [] := by
  cases rest with
  | nil => exact readOptions_single
  | cons len rest => rw [readOptions, if_pos rfl]

theorem readOptions_pad (apart : format.pad ≠ format.stop) :
    readOptions format place (format.pad :: rest) = readOptions format (place + 1) rest := by
  cases rest with
  | nil => rw [readOptions_single, readOptions_nil]
  | cons len rest => rw [readOptions, if_neg apart, if_pos rfl]

theorem readOptions_option (noStop : tag ≠ format.stop) (noPad : tag ≠ format.pad)
    (least : 2 ≤ format.size len) (whole : format.size len ≤ rest.length + 2) :
    readOptions format place (tag :: len :: rest) =
      (place, ⟨tag, rest.take (format.size len - 2)⟩) ::
        readOptions format (place + format.size len) (rest.drop (format.size len - 2)) := by
  rw [readOptions, if_neg noStop, if_neg noPad, if_pos ⟨least, whole⟩]

theorem readOptions_broken (noStop : tag ≠ format.stop) (noPad : tag ≠ format.pad)
    (broken : format.size len < 2 ∨ rest.length + 2 < format.size len) :
    readOptions format place (tag :: len :: rest) = [] := by
  rw [readOptions, if_neg noStop, if_neg noPad, if_neg (by omega)]

/-! ## Reading from a place -/

theorem drop_of_getElem? (here : bytes[place]? = some tag) :
    bytes.drop place = tag :: bytes.drop (place + 1) := by
  obtain ⟨inside, rfl⟩ := List.getElem?_eq_some_iff.mp here
  exact List.drop_eq_getElem_cons inside

theorem optionsFrom_past (past : bytes.length ≤ place) : optionsFrom format bytes place = [] := by
  rw [optionsFrom, List.drop_of_length_le past, readOptions_nil]

theorem optionsFrom_last (last : bytes.length = place + 1) : optionsFrom format bytes place = [] := by
  obtain ⟨tag, same⟩ := List.length_eq_one_iff.mp (show (bytes.drop place).length = 1 by
    rw [List.length_drop]
    omega)
  rw [optionsFrom, same, readOptions_single]

theorem optionsFrom_stop (here : bytes[place]? = some format.stop) :
    optionsFrom format bytes place = [] := by
  rw [optionsFrom, drop_of_getElem? here, readOptions_stop]

theorem optionsFrom_pad (apart : format.pad ≠ format.stop) (here : bytes[place]? = some format.pad) :
    optionsFrom format bytes place = optionsFrom format bytes (place + 1) := by
  rw [optionsFrom, drop_of_getElem? here, readOptions_pad apart, optionsFrom]

theorem optionsFrom_option (here : bytes[place]? = some tag) (noStop : tag ≠ format.stop)
    (noPad : tag ≠ format.pad) (next : bytes[place + 1]? = some len) (least : 2 ≤ format.size len)
    (whole : place + format.size len ≤ bytes.length) :
    optionsFrom format bytes place =
      (place, ⟨tag, slice bytes (place + 2) (format.size len - 2)⟩) ::
        optionsFrom format bytes (place + format.size len) := by
  have behind : (bytes.drop (place + 1 + 1)).drop (format.size len - 2) =
      bytes.drop (place + format.size len) := by
    rw [List.drop_drop]
    congr 1
    omega
  rw [optionsFrom, drop_of_getElem? here, drop_of_getElem? next, readOptions_option noStop noPad least
    (by
      rw [List.length_drop]
      omega), behind, optionsFrom, slice]

theorem optionsFrom_broken (here : bytes[place]? = some tag) (noStop : tag ≠ format.stop)
    (noPad : tag ≠ format.pad) (next : bytes[place + 1]? = some len)
    (broken : format.size len < 2 ∨ bytes.length < place + format.size len) :
    optionsFrom format bytes place = [] := by
  have inside := (List.getElem?_eq_some_iff.mp next).1
  rw [optionsFrom, drop_of_getElem? here, drop_of_getElem? next,
    readOptions_broken noStop noPad]
  rw [List.length_drop]
  omega

/-! ## Reading back -/

theorem length_encode : (option.encode format).length = option.value.length + 2 := by
  simp [TaggedValue.encode]

theorem readOptions_encode (wellFormed : option.WellFormed format) (most : format.uncounted ≤ 2) :
    readOptions format place (option.encode format ++ rest) =
      (place, option) :: readOptions format (place + (option.value.length + 2)) rest := by
  have counted := wellFormed.counted
  have size : format.size (UInt8.ofNat (option.value.length + 2 - format.uncounted)) =
      option.value.length + 2 := by
    rw [OptionFormat.size, UInt8.toNat_ofNat', Nat.mod_eq_of_lt counted]
    omega
  rw [TaggedValue.encode, List.cons_append, List.cons_append,
    readOptions_option wellFormed.noStop wellFormed.noPad (by omega) (by
      rw [size, List.length_append]
      omega), size]
  rw [Nat.add_sub_cancel, List.take_left, List.drop_left]

end Rut9xx.Data
