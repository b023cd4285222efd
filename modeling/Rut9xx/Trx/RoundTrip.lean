import Rut9xx.Trx.Partitions

namespace Rut9xx.Trx

open Data

variable {malloc : Nat → Bool} {options : List CreateOption} {image body : List UInt8}
  {hdr : TrxHeader} {length : UInt32} {offset : List UInt32}

@[simp] theorem TrxHeader.bytes_length (hdr : TrxHeader) : hdr.bytes.length = sizeofHdr := rfl

theorem TrxHeader.fields_at (hdr : TrxHeader) (slots : hdr.offset.length = trxMaxParts) :
    le32At hdr.bytes 0 = hdr.magic ∧ le32At hdr.bytes 4 = hdr.length ∧
      le32At hdr.bytes 8 = hdr.crc32 ∧
      [le32At hdr.bytes 16, le32At hdr.bytes 20, le32At hdr.bytes 24] = hdr.offset := by
  obtain ⟨first, second, third, same⟩ := List.length_eq_three.mp slots
  simp only [TrxHeader.bytes, same, List.getD_cons_zero, List.getD_cons_succ]
  have last := le32At_here third []
  rw [List.append_nil] at last
  simp only [le32At_here, le32At_past32 _ _ 0, le32At_past32 _ _ 4, le32At_past32 _ _ 8,
    le32At_past32 _ _ 12, le32At_past32 _ _ 16, le32At_past32 _ _ 20, le32At_past16 _ _ 0,
    le32At_past16 _ _ 2, le32At_past16 _ _ 4, le32At_past16 _ _ 6, le32At_past16 _ _ 8,
    le32At_past16 _ _ 10, last, and_self]

theorem readHeader_bytes (slots : hdr.offset.length = trxMaxParts) :
    ∃ read, readHeader (hdr.bytes ++ body) 0 = some read ∧ read.magic = hdr.magic ∧
      read.length = hdr.length ∧ read.crc32 = hdr.crc32 ∧ read.offset = hdr.offset := by
  obtain ⟨magic, length, crc, offsets⟩ := hdr.fields_at slots
  have front : readFrom (hdr.bytes ++ body) 0 sizeofHdr = hdr.bytes := by
    rw [readFrom, List.drop_zero, ← hdr.bytes_length, List.take_left]
  simp only [readHeader, front, hdr.bytes_length, ne_eq, not_true_eq_false, if_false]
  exact ⟨_, rfl, magic, length, crc, offsets⟩

/-- The bytes the CRC covers do not hold the CRC. -/
theorem crc_region (crc : UInt32) (size : Nat) :
    readFrom ({ hdr with crc32 := crc }.bytes ++ body) trxFlagsOffset size =
      readFrom (hdr.bytes ++ body) trxFlagsOffset size := rfl

theorem otrxCreateWriteHdr_length :
    (otrxCreateWriteHdr body length offset).length = sizeofHdr + body.length := by
  simp only [otrxCreateWriteHdr, List.length_append, TrxHeader.bytes_length]

theorem otrxCheck_create (slots : offset.length = trxMaxParts)
    (whole : length.toNat = sizeofHdr + body.length) :
    otrxCheck (otrxCreateWriteHdr body length offset) 0 = true := by
  have bound := length.toNat_lt
  have size : (length.toNat + 2 ^ 64 - trxFlagsOffset) % 2 ^ 64 = length.toNat - trxFlagsOffset := by
    simp only [trxFlagsOffset, sizeofHdr] at whole ⊢
    omega
  unfold otrxCreateWriteHdr
  simp only [size]
  generalize crcIs : otrxCrc32 0xffffffff _ = crc
  obtain ⟨read, header, magic, lengthIs, crcRead, -⟩ := @readHeader_bytes body
    { magic := trxMagic, length, crc32 := crc, flags := 0, version := 1, offset } slots
  rw [otrxCheck, header]
  simp only [magic, lengthIs, crcRead, Nat.zero_add]
  have accepted : ¬ (trxMagic ≠ trxMagic ∨ length.toNat < sizeofHdr) := by
    intro refused
    rcases refused with wrong | short
    · exact wrong rfl
    · omega
  rw [if_neg accepted, decide_eq_true_eq]
  constructor
  · rw [readFrom, List.length_take, List.length_drop, List.length_append, TrxHeader.bytes_length]
    simp only [sizeofHdr, trxFlagsOffset] at whole ⊢
    omega
  · exact crcIs

theorem readFrom_append {front middle back : List UInt8} :
    readFrom (front ++ (middle ++ back)) front.length middle.length = middle := by
  rw [readFrom, List.drop_left, List.take_left]

theorem otrxExtract_create {i : Nat} {first : UInt32} {rest content : List UInt8}
    {front : List UInt8} (slots : offset.length = trxMaxParts)
    (here : offset[i]? = some first) (started : first ≠ 0)
    (place : first.toNat = sizeofHdr + front.length)
    (parts : body = front ++ (content ++ rest))
    (extent : (if i + 1 ≥ trxMaxParts ∨ offset.getD (i + 1) 0 = 0 then length - first
      else offset.getD (i + 1) 0 - first).toNat = content.length) :
    otrxExtract malloc (otrxCreateWriteHdr body length offset) 0 i =
      if malloc content.length then some content else none := by
  unfold otrxCreateWriteHdr
  simp only
  generalize otrxCrc32 0xffffffff _ = crc
  obtain ⟨read, header, magic, lengthIs, -, offsets⟩ := @readHeader_bytes body
    { magic := trxMagic, length, crc32 := crc, flags := 0, version := 1, offset } slots
  have firstIs : offset.getD i 0 = first := by rw [List.getD_eq_getElem?_getD, here, Option.getD_some]
  rw [otrxExtract, header]
  simp only [magic, offsets, lengthIs, firstIs, ne_eq, not_true_eq_false, if_false, started, extent,
    Nat.zero_add, place, otrxExtractCopy]
  have copied := @readFrom_append
    ({ magic := trxMagic, length, crc32 := crc, flags := 0, version := 1, offset : TrxHeader }.bytes ++
      front) content rest
  rw [List.append_assoc, ← parts, List.length_append, TrxHeader.bytes_length] at copied
  simp only [copied, not_true_eq_false, if_false]

/-- The list of the parts that come before part `i`, the part, and those behind. -/
theorem flatten_split {contents : List (List UInt8)} {content : List UInt8} {i : Nat}
    (member : contents[i]? = some content) :
    contents.flatten = (contents.take i).flatten ++ (content ++ (contents.drop (i + 1)).flatten) := by
  have inside : i < contents.length := (List.getElem?_eq_some_iff.mp member).1
  have value := (List.getElem?_eq_some_iff.mp member).2
  calc
    contents.flatten = (contents.take i ++ contents.drop i).flatten := by rw [List.take_append_drop]
    _ = _ := by rw [List.drop_eq_getElem_cons inside, value, List.flatten_append, List.flatten_cons]

theorem otrx_roundTrip (created : otrxCreate malloc options = some image)
    (small : image.length < 2 ^ 32) :
    otrxCheck image 0 = true ∧
      ∃ front contents, image.drop sizeofHdr = front ++ contents.flatten ∧
        List.Forall₂ Padded (partitionFiles options) contents ∧
        ∀ i content, contents[i]? = some content →
          otrxExtract malloc image 0 i = if malloc content.length then some content else none := by
  obtain ⟨trx, ran, final, aligned, written⟩ : ∃ trx, createRun malloc Creation.start options = some trx ∧
      ∃ final, otrxCreateAlign malloc 0x1000 trx = some final ∧
        otrxCreateWriteHdr final.body (UInt32.ofNat final.currOffset) final.offset = image := by
    simpa only [otrxCreate, Option.bind_eq_bind, Option.bind_eq_some_iff, Option.some.injEq] using created
  obtain ⟨front, contents, laid⟩ := (createRun_laid ⟨[], [], start_laid⟩ ran).align aligned
  have total : image.length = final.currOffset := by
    rw [← written, otrxCreateWriteHdr_length, laid.offset]
  have lengthIs : (UInt32.ofNat final.currOffset).toNat = final.currOffset :=
    UInt32.toNat_ofNat_of_lt' (by rw [← total]; exact small)
  refine ⟨?_, front, contents.reverse, ?_, ?_, ?_⟩
  · rw [← written]
    exact otrxCheck_create laid.slots (by rw [lengthIs, laid.offset])
  · rw [← written, ← laid.body]
    exact List.drop_left' rfl
  · exact List.rel_reverse laid.padded
  · intro i content member
    have inside : i < contents.length := by
      have := (List.getElem?_eq_some_iff.mp member).1
      rwa [List.length_reverse] at this
    have split := flatten_split member
    generalize before : (contents.reverse.take i).flatten = ahead at split
    have bodyIs := laid.body
    rw [split, ← List.append_assoc] at bodyIs
    have bodyLength := congrArg List.length bodyIs
    simp only [List.length_append] at bodyLength
    have offsetIs := laid.offset
    have firstSlot := laid.starts i inside
    rw [before] at firstSlot
    have firstIs : (UInt32.ofNat (sizeofHdr + front.length + ahead.length)).toNat =
        sizeofHdr + front.length + ahead.length :=
      UInt32.toNat_ofNat_of_lt' (by simp only [UInt32.size]; omega)
    rw [← written]
    refine otrxExtract_create laid.slots firstSlot ?_ ?_ bodyIs ?_
    · intro zero
      have := congrArg UInt32.toNat zero
      rw [firstIs] at this
      simp only [sizeofHdr, UInt32.toNat_zero] at this
      omega
    · rw [firstIs, List.length_append, Nat.add_assoc]
    · by_cases more : i + 1 < contents.length
      · have nextSlot := laid.starts (i + 1) more
        have taken : (contents.reverse.take (i + 1)).flatten.length = ahead.length + content.length := by
          rw [List.take_add_one, member, Option.toList_some, List.flatten_append, List.length_append, before]
          simp
        rw [taken] at nextSlot
        have nextIs : (UInt32.ofNat (sizeofHdr + front.length + (ahead.length + content.length))).toNat =
            sizeofHdr + front.length + (ahead.length + content.length) :=
          UInt32.toNat_ofNat_of_lt' (by simp only [UInt32.size]; omega)
        have limit := laid.atMost
        rw [List.getD_eq_getElem?_getD, nextSlot, Option.getD_some, if_neg]
        · rw [UInt32.toNat_sub_of_le _ _ (by rw [UInt32.le_iff_toNat_le, firstIs, nextIs]; omega),
            firstIs, nextIs]
          omega
        · intro last
          rcases last with tooMany | zero
          · omega
          · have := congrArg UInt32.toNat zero
            rw [nextIs] at this
            simp only [sizeofHdr, UInt32.toNat_zero] at this
            omega
      · have nothing : (contents.reverse.drop (i + 1)).flatten = [] := by
          rw [List.drop_eq_nil_of_le (by rw [List.length_reverse]; omega), List.flatten_nil]
        rw [nothing] at bodyLength
        have last : i + 1 ≥ trxMaxParts ∨ final.offset.getD (i + 1) 0 = 0 := by
          by_cases full : i + 1 ≥ trxMaxParts
          · exact Or.inl full
          · rw [List.getD_eq_getElem?_getD, laid.free (i + 1) (by omega) (by omega)]
            exact Or.inr rfl
        simp only [List.length_nil] at bodyLength
        rw [if_pos last, UInt32.toNat_sub_of_le _ _ (by
          rw [UInt32.le_iff_toNat_le, firstIs, lengthIs]
          omega), firstIs, lengthIs]
        omega

/-- A file of one byte and, behind its padding, perhaps another appended. -/
def sampleBody (appended : List UInt8) : List UInt8 :=
  [1] ++ List.replicate 3 0 ++ appended ++ List.replicate (4064 - appended.length) 0

theorem sampleBody_length {appended : List UInt8} (short : appended.length ≤ 4064) :
    (sampleBody appended).length = 4068 := by
  simp only [sampleBody, List.length_append, List.length_replicate, List.length_singleton]
  omega

theorem otrx_roundTrip_sample :
    otrxCheck (otrxCreateWriteHdr (sampleBody []) 4096 [28, 0, 0]) 0 = true := by
  have created : otrxCreate (fun _ => true) [.f (some [1])] =
      some (otrxCreateWriteHdr (sampleBody []) 4096 [28, 0, 0]) := rfl
  refine (otrx_roundTrip created ?_).1
  rw [otrxCreateWriteHdr_length, sampleBody_length (by decide)]
  decide

/-- What `-A` appends comes out with the partition. -/
theorem appendedFile_extracted :
    otrxCreate (fun _ => true) [.f (some [1]), .A (some [2])] =
        some (otrxCreateWriteHdr (sampleBody ([2] ++ List.replicate 3 0)) 4096 [28, 0, 0]) ∧
      otrxExtract (fun _ => true)
          (otrxCreateWriteHdr (sampleBody ([2] ++ List.replicate 3 0)) 4096 [28, 0, 0]) 0 0 =
        some (sampleBody ([2] ++ List.replicate 3 0)) ∧
      ¬ ∃ count, sampleBody ([2] ++ List.replicate 3 0) = [1] ++ List.replicate count 0 := by
  refine ⟨rfl, ?_, ?_⟩
  · generalize whole : sampleBody ([2] ++ List.replicate 3 0) = body
    have size : body.length = 4068 := by rw [← whole, sampleBody_length (by decide)]
    exact @otrxExtract_create (fun _ => true) body 4096 [28, 0, 0] 0 28 [] body [] rfl rfl
      (by decide) rfl (by simp) (by rw [size]; rfl)
  · intro padded
    obtain ⟨count, same⟩ := padded
    have fifth := congrArg (fun list => list.getD 4 0) same
    have zero : ([1] ++ List.replicate count (0 : UInt8)).getD 4 0 = 0 := by
      rw [List.getD_append_right _ _ _ _ (by decide), List.getD_eq_getElem?_getD,
        List.getElem?_replicate]
      split <;> rfl
    rw [zero] at fifth
    exact absurd fifth (by decide)

/-- An image of zeros alone. -/
theorem otrxCreate_blank {count : Nat} (small : count < 2 ^ 40)
    (aligned : (sizeofHdr + count) &&& 4095 = 0) :
    otrxCreate (fun _ => true) [.b (sizeofHdr + count : Nat)] =
      some (otrxCreateWriteHdr (List.replicate count 0) (UInt32.ofNat (sizeofHdr + count)) [0, 0, 0]) := by
  have sbytes : Int.bmod (((sizeofHdr + count : Nat) : Int) - (sizeofHdr : Nat)) (2 ^ 64) = count := by
    rw [show ((sizeofHdr + count : Nat) : Int) - (sizeofHdr : Nat) = count by omega]
    exact Int.bmod_eq_of_le (by omega) (by omega)
  simp only [otrxCreate, createRun, createStep, Creation.start, sbytes, otrxCreateAppendZeros,
    Int.toNat_natCast, if_true, List.nil_append, Option.bind_eq_bind, otrxCreateAlign]
  rw [if_neg (by omega)]
  simp [aligned, List.replicate, trxMaxParts]

/-- From 4 GiB on the length field does not hold the length. -/
theorem oversizedImage_refused : ∃ image,
    otrxCreate (fun _ => true) [.b ((sizeofHdr + 4294967268 : Nat) : Int)] = some image ∧
      otrxCheck image 0 = false := by
  refine ⟨_, otrxCreate_blank (by decide) (by decide), ?_⟩
  generalize List.replicate 4294967268 (0 : UInt8) = body
  unfold otrxCreateWriteHdr
  simp only
  generalize otrxCrc32 0xffffffff _ = crc
  obtain ⟨read, header, -, lengthIs, -⟩ := @readHeader_bytes body
    { magic := trxMagic, length := UInt32.ofNat (sizeofHdr + 4294967268), crc32 := crc, flags := 0,
      version := 1, offset := [0, 0, 0] } rfl
  rw [otrxCheck, header]
  simp only [lengthIs]
  exact if_pos (Or.inr (by decide))

end Rut9xx.Trx
