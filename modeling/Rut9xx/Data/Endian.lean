import Rut9xx.Data.Buffer
import Mathlib.Data.List.GetD
import Mathlib.Data.UInt

namespace Rut9xx.Data

/-! # Big-endian words in byte strings -/

section

def joinBe32 (b0 b1 b2 b3 : UInt8) : UInt32 :=
  UInt32.ofNat (2 ^ 24 * b0.toNat + 2 ^ 16 * b1.toNat + 2 ^ 8 * b2.toNat + b3.toNat)

def be32 (word : UInt32) : List UInt8 :=
  [UInt8.ofNat (word.toNat / 2 ^ 24), UInt8.ofNat (word.toNat / 2 ^ 16),
    UInt8.ofNat (word.toNat / 2 ^ 8), UInt8.ofNat word.toNat]

def be16 (word : UInt16) : List UInt8 :=
  [UInt8.ofNat (word.toNat / 2 ^ 8), UInt8.ofNat word.toNat]

/-- The word at `offset`; bytes past the end read as zero. -/
def be32At (bytes : List UInt8) (offset : Nat) : UInt32 :=
  joinBe32 (bytes.getD offset 0) (bytes.getD (offset + 1) 0) (bytes.getD (offset + 2) 0)
    (bytes.getD (offset + 3) 0)

@[simp] theorem be32_length (word : UInt32) : (be32 word).length = 4 := rfl

@[simp] theorem be16_length (word : UInt16) : (be16 word).length = 2 := rfl

theorem joinBe32_split (word : UInt32) :
    joinBe32 (UInt8.ofNat (word.toNat / 2 ^ 24)) (UInt8.ofNat (word.toNat / 2 ^ 16))
      (UInt8.ofNat (word.toNat / 2 ^ 8)) (UInt8.ofNat word.toNat) = word := by
  apply UInt32.toNat_inj.mp
  simp only [joinBe32, UInt8.toNat_ofNat', UInt32.toNat_ofNat']
  have bound := word.toNat_lt
  omega

/-- Reading at the place a word was laid down returns the word. -/
theorem be32At_append (front back : List UInt8) (word : UInt32) :
    be32At (front ++ (be32 word ++ back)) front.length = word := by
  have step (index : Nat) (bound : index < 4) :
      (front ++ (be32 word ++ back)).getD (front.length + index) 0 =
        (be32 word).getD index 0 := by
    rw [List.getD_append_right _ _ _ _ (by omega), Nat.add_sub_cancel_left,
      List.getD_append _ _ _ _ (by simpa using bound)]
  rw [be32At, show front.length = front.length + 0 from rfl, step 0 (by decide),
    step 1 (by decide), step 2 (by decide), step 3 (by decide)]
  exact joinBe32_split word

theorem be32At_skip (front back : List UInt8) (offset : Nat) :
    be32At (front ++ back) (front.length + offset) = be32At back offset := by
  have step (index : Nat) : (front ++ back).getD (front.length + index) 0 = back.getD index 0 := by
    rw [List.getD_append_right _ _ _ _ (by omega), Nat.add_sub_cancel_left]
  simp only [be32At, Nat.add_assoc, step]

/-! Reading a field of a record goes past the fields before it. -/

theorem be32At_here (word : UInt32) (back : List UInt8) : be32At (be32 word ++ back) 0 = word :=
  be32At_append [] back word

theorem be32At_past32 (word : UInt32) (back : List UInt8) (offset : Nat) :
    be32At (be32 word ++ back) (offset + 4) = be32At back offset := by
  rw [Nat.add_comm]
  exact be32At_skip (be32 word) back offset

theorem be32At_past16 (word : UInt16) (back : List UInt8) (offset : Nat) :
    be32At (be16 word ++ back) (offset + 2) = be32At back offset := by
  rw [Nat.add_comm]
  exact be32At_skip (be16 word) back offset

theorem be32At_of_take {bytes other : List UInt8} {offset count : Nat}
    (same : bytes.take count = other.take count) (bound : offset + 4 ≤ count) :
    be32At bytes offset = be32At other offset := by
  have step (index : Nat) (inside : index < count) : bytes.getD index 0 = other.getD index 0 := by
    rw [List.getD_eq_getElem?_getD, List.getD_eq_getElem?_getD,
      ← List.getElem?_take_of_lt inside, same, List.getElem?_take_of_lt inside]
  simp only [be32At]
  rw [step _ (by omega), step _ (by omega), step _ (by omega), step _ (by omega)]

theorem be32At_take {bytes : List UInt8} {place count : Nat} (within : place + 4 ≤ count) :
    be32At (bytes.take count) place = be32At bytes place :=
  be32At_of_take (by rw [List.take_take, Nat.min_self]) within

theorem getD_slice {bytes : List UInt8} {start count place : Nat} (within : place < count) :
    (slice bytes start count).getD place 0 = bytes.getD (start + place) 0 := by
  rw [List.getD_eq_getElem?_getD, List.getD_eq_getElem?_getD, slice,
    List.getElem?_take_of_lt within, List.getElem?_drop]

theorem be32At_slice {bytes : List UInt8} {start count place : Nat} (within : place + 4 ≤ count) :
    be32At (slice bytes start count) place = be32At bytes (start + place) := by
  rw [be32At, be32At, getD_slice (by omega), getD_slice (by omega), getD_slice (by omega),
    getD_slice (by omega)]
  rfl

end

/-! # Little-endian words in byte strings -/

section

def le32 (word : UInt32) : List UInt8 :=
  [UInt8.ofNat word.toNat, UInt8.ofNat (word.toNat / 2 ^ 8), UInt8.ofNat (word.toNat / 2 ^ 16),
    UInt8.ofNat (word.toNat / 2 ^ 24)]

def le16 (word : UInt16) : List UInt8 :=
  [UInt8.ofNat word.toNat, UInt8.ofNat (word.toNat / 2 ^ 8)]

/-- The word at `offset`; bytes past the end read as zero. -/
def le32At (bytes : List UInt8) (offset : Nat) : UInt32 :=
  joinBe32 (bytes.getD (offset + 3) 0) (bytes.getD (offset + 2) 0) (bytes.getD (offset + 1) 0)
    (bytes.getD offset 0)

@[simp] theorem le32_length (word : UInt32) : (le32 word).length = 4 := rfl

@[simp] theorem le16_length (word : UInt16) : (le16 word).length = 2 := rfl

theorem le32At_here (word : UInt32) (back : List UInt8) : le32At (le32 word ++ back) 0 = word :=
  joinBe32_split word

theorem le32At_skip (front back : List UInt8) (offset : Nat) :
    le32At (front ++ back) (front.length + offset) = le32At back offset := by
  have step (index : Nat) : (front ++ back).getD (front.length + index) 0 = back.getD index 0 := by
    rw [List.getD_append_right _ _ _ _ (by omega), Nat.add_sub_cancel_left]
  simp only [le32At, Nat.add_assoc, step]

/-! Reading a field of a record goes past the fields before it. -/

theorem le32At_past32 (word : UInt32) (back : List UInt8) (offset : Nat) :
    le32At (le32 word ++ back) (offset + 4) = le32At back offset := by
  rw [Nat.add_comm]
  exact le32At_skip (le32 word) back offset

theorem le32At_past16 (word : UInt16) (back : List UInt8) (offset : Nat) :
    le32At (le16 word ++ back) (offset + 2) = le32At back offset := by
  rw [Nat.add_comm]
  exact le32At_skip (le16 word) back offset

theorem le32At_slice {bytes : List UInt8} {start count place : Nat} (within : place + 4 ≤ count) :
    le32At (slice bytes start count) place = le32At bytes (start + place) := by
  rw [le32At, le32At, getD_slice (by omega), getD_slice (by omega), getD_slice (by omega),
    getD_slice (by omega)]
  rfl

end

end Rut9xx.Data
