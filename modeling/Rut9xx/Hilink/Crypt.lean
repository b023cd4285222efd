import Rut9xx.Data.BlockPass
import Rut9xx.Data.Buffer
import Rut9xx.Data.Endian
import Mathlib.Logic.Equiv.Basic

namespace Rut9xx.Hilink

open Data

/-! # `mkhilinkfw`: two passes of DES over a uImage -/

abbrev DesBlock := Block 8 UInt8

def IH_MAGIC : UInt32 := 0x27051956

/-- `sizeof(image_header_t)`. -/
def imageHeaderSize : Nat := 64

/-- `len / 8` goes into an `int` that is counted down to zero. -/
def numBlocks (len : Nat) : Nat := len / 8 % 2 ^ 32

/-- DES with its key; the second pass begins three bytes in. -/
def doEncrypt (des : DesBlock ≃ DesBlock) (p len : Nat) (memory : Memory UInt8) : Memory UInt8 :=
  let memory := passBlocks des (numBlocks len) p memory
  passBlocks des (numBlocks (len - 3)) (p + 3) memory

def doDecrypt (des : DesBlock ≃ DesBlock) (p len : Nat) (memory : Memory UInt8) : Memory UInt8 :=
  let memory := passBlocks des.symm (numBlocks (len - 3)) (p + 3) memory
  passBlocks des.symm (numBlocks len) p memory

/-- A file mapped at address 0. -/
def mmap (file : List UInt8) : Memory UInt8 := fun address => file.getD address 0

/-- `-e`: what is left in the temporary file, if the tool exits successfully. -/
def encryptFile (des : DesBlock ≃ DesBlock) (file : List UInt8) : Option (List UInt8) :=
  let fileLen := file.length
  if fileLen < 64 then none
  else
    let p := mmap file
    let header := load p 0 imageHeaderSize
    let len := min fileLen ((be32At header 12).toNat + imageHeaderSize)
    if be32At header 0 ≠ IH_MAGIC then none
    else some (load (doEncrypt des 0 len p) 0 len)

/-- `-d`: the header is looked at in a copy that only its own blocks are decrypted in. -/
def decryptFile (des : DesBlock ≃ DesBlock) (file : List UInt8) : Option (List UInt8) :=
  let fileLen := file.length
  if fileLen < 64 then none
  else
    let p := mmap file
    let headerLen := min fileLen (imageHeaderSize + 3)
    let buf := doDecrypt des 0 headerLen (mmap (load p 0 headerLen))
    if be32At (load buf 0 imageHeaderSize) 0 ≠ IH_MAGIC then none
    else some (load (doDecrypt des 0 fileLen p) 0 fileLen)

variable {des : DesBlock ≃ DesBlock} {p len count address : Nat} {memory : Memory UInt8}
  {file : List UInt8}

theorem load_mmap (within : count ≤ file.length) : load (mmap file) 0 count = file.take count := by
  apply List.ext_getElem?
  intro index
  rw [load_getElem?, List.getElem?_take]
  split
  · rename_i inside
    rw [mmap, Nat.zero_add, List.getD_eq_getElem?_getD, List.getElem?_eq_getElem (by omega),
      Option.getD_some]
  · rfl

theorem mmap_load (inside : address < count) : mmap (load memory 0 count) address = memory address := by
  rw [mmap, List.getD_eq_getElem?_getD, load_getElem?, if_pos inside, Option.getD_some, Nat.zero_add]

/-! ## Decrypting -/

theorem doDecrypt_doEncrypt : doDecrypt des p len (doEncrypt des p len memory) = memory := by
  rw [doDecrypt, doEncrypt, passBlocks_back des.symm_apply_apply, passBlocks_back des.symm_apply_apply]

theorem numBlocks_of_lt (small : len < 2 ^ 34) : numBlocks len = len / 8 :=
  Nat.mod_eq_of_lt (by omega)

theorem passBlocks_reaches (small : len < 2 ^ 34) : numBlocks len * 8 ≤ len := by
  rw [numBlocks_of_lt small]
  omega

/-- Bytes behind the length are not read. -/
theorem doDecrypt_congr {buf : Memory UInt8} (small : len < 2 ^ 34)
    (same : ∀ address, address < len → buf address = memory address) (below : address < len) :
    doDecrypt des 0 len buf address = doDecrypt des 0 len memory address := by
  have shifted : ∀ address, address < len →
      passBlocks des.symm (numBlocks (len - 3)) (0 + 3) buf address =
        passBlocks des.symm (numBlocks (len - 3)) (0 + 3) memory address :=
    fun address below => passBlocks_congr
      (fun address inside => same address (by have := passBlocks_reaches (show len - 3 < 2 ^ 34 by omega); omega))
      (same address below)
  exact passBlocks_congr
    (fun address inside => shifted address (by have := passBlocks_reaches small; omega))
    (shifted address below)

/-- Decrypting a front of what was encrypted restores the first blocks of the header: the
passes over the front go over the same blocks as those over the whole. -/
theorem doDecrypt_front {front : Nat} {buf : Memory UInt8} (long : 64 ≤ front) (within : front ≤ len)
    (small : len < 2 ^ 34)
    (copied : ∀ address, address < front → buf address = doEncrypt des 0 len memory address)
    (first : address < 8) : doDecrypt des 0 front buf address = memory address := by
  have blocks (length : Nat) (short : length ≤ len) : numBlocks length = length / 8 :=
    numBlocks_of_lt (by omega)
  have shifted : ∀ address, address < 0 + 1 * 8 →
      passBlocks des.symm (numBlocks (front - 3)) 3 buf address =
        passBlocks des (numBlocks len) 0 memory address := by
    intro address below
    have fewer : numBlocks (front - 3) ≤ numBlocks (len - 3) := by
      rw [blocks _ (by omega), blocks _ (by omega)]
      exact Nat.div_le_div_right (by omega)
    have reach : 3 + numBlocks (front - 3) * 8 ≤ front := by
      have := passBlocks_reaches (show front - 3 < 2 ^ 34 by omega)
      omega
    have many : 7 ≤ numBlocks (front - 3) := by
      rw [blocks _ (by omega)]
      omega
    rw [passBlocks_front fewer (fun address below => copied address (by omega)) (by omega),
      doEncrypt, Nat.zero_add, passBlocks_back des.symm_apply_apply]
  have one : 1 ≤ numBlocks front := by
    rw [blocks _ within]
    omega
  have whole : 1 ≤ numBlocks len := by
    rw [blocks _ (Nat.le_refl _)]
    omega
  rw [doDecrypt, Nat.zero_add,
    ← passBlocks_front (f := des.symm) one (fun _ _ => rfl) (by omega),
    passBlocks_front (f := des.symm) whole shifted (by omega), passBlocks_back des.symm_apply_apply]

/-! ## A file encrypted and decrypted -/

/-- The part of the file that its header speaks of. -/
def imageLen (file : List UInt8) : Nat := min file.length ((be32At file 12).toNat + 64)

theorem imageLen_bounds (long : 64 ≤ file.length) :
    64 ≤ imageLen file ∧ imageLen file ≤ file.length ∧ imageLen file < 2 ^ 34 := by
  have size := (be32At file 12).toNat_lt
  rw [imageLen]
  omega

theorem header_word {place : Nat} (long : 64 ≤ file.length) (within : place + 4 ≤ 64) :
    be32At (load (mmap file) 0 imageHeaderSize) place = be32At file place := by
  rw [load_mmap (show imageHeaderSize ≤ file.length from long)]
  exact be32At_of_take (by rw [List.take_take, imageHeaderSize, Nat.min_self]) within

theorem encryptFile_eq (long : 64 ≤ file.length) (headed : be32At file 0 = IH_MAGIC) :
    encryptFile des file =
      some (load (doEncrypt des 0 (imageLen file) (mmap file)) 0 (imageLen file)) := by
  rw [encryptFile, if_neg (by omega)]
  simp only [header_word long (show 0 + 4 ≤ 64 by decide), header_word long (show 12 + 4 ≤ 64 by decide),
    headed, ne_eq, not_true_eq_false, if_false]
  rfl

/-- The copy of the header decrypts to the header of the plain file. -/
theorem decrypted_header {cipher : List UInt8} {plain : Memory UInt8} (long : 64 ≤ cipher.length)
    (small : cipher.length < 2 ^ 34)
    (encrypted : ∀ address, address < cipher.length →
      mmap cipher address = doEncrypt des 0 cipher.length plain address) :
    be32At (load (doDecrypt des 0 (min cipher.length (imageHeaderSize + 3))
      (mmap (load (mmap cipher) 0 (min cipher.length (imageHeaderSize + 3))))) 0 imageHeaderSize) 0 =
    be32At (load plain 0 imageHeaderSize) 0 := by
  have front (address : Nat) (first : address < 8) :
      doDecrypt des 0 (min cipher.length (imageHeaderSize + 3))
        (mmap (load (mmap cipher) 0 (min cipher.length (imageHeaderSize + 3)))) address =
      plain address := by
    apply doDecrypt_front (by rw [imageHeaderSize]; omega) (Nat.min_le_left _ _) small _ first
    intro address below
    rw [mmap_load below, encrypted address (by omega)]
  have four (memory : Memory UInt8) : (load memory 0 imageHeaderSize).take 4 = load memory 0 4 := by
    rw [show imageHeaderSize = 4 + 60 by rfl, load_append, List.take_left' load_length]
  refine be32At_of_take ?_ (show 0 + 4 ≤ 4 by decide)
  rw [four, four]
  exact load_congr fun index below => by rw [Nat.zero_add, front index (by omega)]

theorem decryptFile_encrypted {plain : Memory UInt8} (long : 64 ≤ len) (small : len < 2 ^ 34)
    (headed : be32At (load plain 0 imageHeaderSize) 0 = IH_MAGIC) :
    decryptFile des (load (doEncrypt des 0 len plain) 0 len) = some (load plain 0 len) := by
  have same (address : Nat) (below : address < len) :
      mmap (load (doEncrypt des 0 len plain) 0 len) address = doEncrypt des 0 len plain address :=
    mmap_load below
  have header := @decrypted_header des (load (doEncrypt des 0 len plain) 0 len) plain
    (by rw [load_length]; exact long) (by rw [load_length]; exact small)
    (by rw [load_length]; exact same)
  rw [decryptFile, load_length, if_neg (by omega)]
  simp only [load_length] at header
  simp only [header, headed, ne_eq, not_true_eq_false, if_false, Option.some.injEq]
  apply load_congr
  intro index below
  -- Only the blocks inside the file matter, and these are what was encrypted.
  rw [Nat.zero_add, doDecrypt_congr small same below, doDecrypt_doEncrypt]

/-- Decrypting gives back the part of the input that its header speaks of. -/
theorem decryptFile_encryptFile (des : DesBlock ≃ DesBlock) (file : List UInt8)
    (long : 64 ≤ file.length) (headed : be32At file 0 = IH_MAGIC) :
    (encryptFile des file).bind (decryptFile des) =
      some (file.take (min file.length ((be32At file 12).toNat + 64))) := by
  obtain ⟨atLeast, atMost, small⟩ := imageLen_bounds long
  have magic : be32At (load (mmap file) 0 imageHeaderSize) 0 = IH_MAGIC := by
    rw [header_word long (by decide), headed]
  rw [encryptFile_eq long headed, Option.bind_some, decryptFile_encrypted atLeast small magic,
    load_mmap atMost, imageLen]

/-- A header with two bytes of data, of which it counts one. -/
def shortImage : List UInt8 :=
  be32 IH_MAGIC ++ List.replicate 8 0 ++ be32 1 ++ List.replicate 50 0

theorem decryptFile_encryptFile_short :
    (encryptFile (Equiv.swap (fun _ => 0) (fun _ => 1)) shortImage).bind
      (decryptFile (Equiv.swap (fun _ => 0) (fun _ => 1))) = some (shortImage.take 65) :=
  decryptFile_encryptFile _ shortImage (by decide) (by decide)

end Rut9xx.Hilink
