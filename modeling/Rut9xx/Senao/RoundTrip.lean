import Rut9xx.Senao.Image
import Mathlib.Data.Fin.VecNotation

namespace Rut9xx.Senao

open Data
open Tplink (Md5Sum)

/-! # `mksenaofw`: what the decoder makes of an encoded image -/

variable {magic filesize : UInt32} {rest input image payload : List UInt8} {eof : Bool}
  {padding written : Nat} {header : ImgHeader} {cw : CapwapHeader} {md5 : List UInt8 → Md5Sum}
  {opts : Options}

theorem maskByte_repeats (place : Nat) : maskByte magic (place + 8) = maskByte magic place := by
  rw [maskByte, maskByte, Nat.add_mod_right]

/-- The buffers that the loops go by are cut where the mask starts anew. -/
theorem masked_cut {front back : List UInt8} (cut : front.length = BUF_SIZE ∨ back = []) :
    masked (maskByte magic) (front ++ back) =
      masked (maskByte magic) front ++ masked (maskByte magic) back := by
  apply masked_append maskByte_repeats
  rcases cut with length | empty
  · exact Or.inl ⟨64, length⟩
  · exact Or.inr empty

/-- One buffer is filled up with zeros; what is left of them goes into further ones. -/
theorem masked_padding {read : List UInt8} (short : read.length < BUF_SIZE) :
    masked (maskByte magic) (read ++ List.replicate (min (BUF_SIZE - read.length) padding) 0) ++
        masked (maskByte magic)
          (List.replicate (padding - min (BUF_SIZE - read.length) padding) 0) =
      masked (maskByte magic) (read ++ List.replicate padding 0) := by
  rw [← masked_cut, List.append_assoc, List.replicate_append_replicate,
    Nat.add_sub_cancel' (Nat.min_le_right _ _)]
  rcases Nat.le_total padding (BUF_SIZE - read.length) with few | many
  · rw [Nat.min_eq_right few, Nat.sub_self]
    exact Or.inr rfl
  · rw [Nat.min_eq_left many, List.length_append, List.length_replicate]
    exact Or.inl (by omega)

theorem encodeLoop_eq : encodeLoop magic rest eof padding =
    masked (maskByte magic) ((bif eof then [] else rest) ++ List.replicate padding 0) := by
  induction rest, eof, padding using encodeLoop.induct with
  | case1 rest eof padding done =>
      rw [encodeLoop, if_pos done, done.1, done.2]
      rfl
  | case2 rest eof padding going read added ih =>
      have addedEq : added = min (BUF_SIZE - read.length) padding := rfl
      rw [encodeLoop, if_neg going]
      change masked (maskByte magic) (read ++ List.replicate added 0) ++
        encodeLoop magic (rest.drop BUF_SIZE) (eof || decide (read.length < BUF_SIZE))
          (padding - added) = _
      rw [ih]
      cases eof with
      | true =>
          have nothing : read = [] := rfl
          rw [Bool.true_or, cond_true, cond_true, List.nil_append, addedEq, nothing]
          exact masked_padding (by decide)
      | false =>
          have taken : read = rest.take BUF_SIZE := rfl
          rw [Bool.false_or, cond_false]
          rcases Nat.lt_or_ge rest.length BUF_SIZE with short | long
          · have whole : read = rest := List.take_of_length_le (Nat.le_of_lt short)
            rw [addedEq, whole, decide_eq_true short, cond_true, List.nil_append]
            exact masked_padding short
          · have full : read.length = BUF_SIZE := List.length_take_of_le long
            have none' : added = 0 := by rw [addedEq, full, Nat.sub_self, Nat.zero_min]
            rw [decide_eq_false (by omega), cond_false, none', List.replicate_zero, List.append_nil,
              Nat.sub_zero, ← masked_cut (Or.inl full), ← List.append_assoc, taken,
              List.take_append_drop]

theorem decodeLoop_eq (within : written ≤ filesize.toNat) :
    decodeLoop magic filesize rest written =
      (masked (maskByte magic) rest).take (filesize.toNat - written) := by
  induction rest, written using decodeLoop.induct magic filesize with
  | case1 rest written read cut =>
      have taken : read = masked (maskByte magic) (rest.take BUF_SIZE) := rfl
      have front : read.length ≤ BUF_SIZE := by
        rw [taken, masked_length, List.length_take]
        exact Nat.min_le_left _ _
      rw [decodeLoop, if_pos cut, masked_take, masked_take, List.take_take, Nat.min_eq_left (by omega)]
  | case2 rest written read fits short =>
      have whole : rest.take BUF_SIZE = rest := List.take_of_length_le (Nat.le_of_lt short)
      have length : read.length = rest.length := by
        rw [show read = masked (maskByte magic) (rest.take BUF_SIZE) by rfl, masked_length, whole]
      rw [decodeLoop, if_neg fits, if_pos short, whole, List.take_of_length_le]
      rw [masked_length]
      omega
  | case3 rest written read fits more ih =>
      have taken : read = masked (maskByte magic) (rest.take BUF_SIZE) := rfl
      have full : (rest.take BUF_SIZE).length = BUF_SIZE := List.length_take_of_le (by omega)
      have length : read.length = BUF_SIZE := by rw [taken, masked_length, full]
      have cut : masked (maskByte magic) rest = read ++ masked (maskByte magic) (rest.drop BUF_SIZE) := by
        rw [taken, ← masked_cut (Or.inl full), List.take_append_drop]
      rw [decodeLoop, if_neg fits, if_neg more, ih (by omega), cut, List.take_append,
        List.take_of_length_le (show read.length ≤ filesize.toNat - written by omega), Nat.sub_sub]

/-! ## The headers -/

theorem header_length : header.bytes.length = HDR_LEN := by
  simp only [ImgHeader.bytes, List.length_append, be32_length, header.version.property,
    header.md5sum.property, List.length_replicate]
  rfl

theorem header_firmwareType : be32At (header.bytes ++ rest) 28 = header.firmwareType := by
  simp only [ImgHeader.bytes, List.append_assoc]
  rw [be32At_past32, be32At_past32, be32At_past32, show 16 = header.version.val.length + 0 from
    header.version.property.symm, be32At_skip, be32At_here]

theorem header_filesize : be32At (header.bytes ++ rest) 32 = header.filesize := by
  simp only [ImgHeader.bytes, List.append_assoc]
  rw [be32At_past32, be32At_past32, be32At_past32, show 20 = header.version.val.length + 4 by
    rw [header.version.property]; rfl, be32At_skip, be32At_past32, be32At_here]

theorem header_magic : be32At (header.bytes ++ rest) 92 = header.magic := by
  have pad : (List.replicate PAD_SIZE (0 : UInt8)).length = 32 := List.length_replicate
  simp only [ImgHeader.bytes, List.append_assoc]
  rw [be32At_past32, be32At_past32, be32At_past32, show 80 = header.version.val.length + 64 by
    rw [header.version.property]; rfl, be32At_skip, be32At_past32, be32At_past32, be32At_past32,
    show 52 = header.md5sum.val.length + 36 by rw [header.md5sum.property]; rfl, be32At_skip,
    show 36 = (List.replicate PAD_SIZE (0 : UInt8)).length + 4 by rw [pad], be32At_skip,
    be32At_past32, be32At_here]

theorem capwap_length : cw.bytes.length = capwapHeaderSize + cw.modelSize.toNat := by
  simp only [CapwapHeader.bytes, List.length_append, be32_length, cw.sized, capwapHeaderSize]
  omega

theorem capwap_modelSize : be32At (cw.bytes ++ rest) 36 = cw.modelSize := by
  simp only [CapwapHeader.bytes, List.append_assoc]
  rw [be32At_past32, be32At_past32, be32At_past32, be32At_past32, be32At_past32, be32At_past32,
    be32At_past32, be32At_past32, be32At_past32, be32At_here]

theorem behindHeaders_plain (typed : header.firmwareType ≠ 0) :
    behindHeaders (header.bytes ++ rest) = some rest := by
  have long : HDR_LEN ≤ (header.bytes ++ rest).length := by
    rw [List.length_append, header_length]
    omega
  simp only [behindHeaders, header_firmwareType, typed, ne_eq, not_false_eq_true, if_true,
    long, decide_true, require, Option.bind_eq_bind, Option.bind_some]
  rw [List.drop_left' header_length]

/-- The decoder goes past a capwap header that it expects, unless its name is as long as a
32-bit number can count. -/
theorem behindHeaders_capwap (untyped : header.firmwareType = 0) :
    behindHeaders (header.bytes ++ (cw.bytes ++ rest)) =
      if cw.modelSize + 1 = 0 then none else some rest := by
  have long : HDR_LEN ≤ (header.bytes ++ (cw.bytes ++ rest)).length := by
    rw [List.length_append, header_length]
    omega
  have follows : capwapHeaderSize + cw.modelSize.toNat ≤ (cw.bytes ++ rest).length := by
    rw [List.length_append, capwap_length]
    omega
  simp only [behindHeaders, header_firmwareType, untyped, ne_eq, not_true_eq_false, if_false,
    long, decide_true, require, Option.bind_eq_bind, Option.bind_some, if_true]
  rw [List.drop_left' header_length, capwap_modelSize, if_pos (decide_eq_true (by omega)),
    if_pos (decide_eq_true follows), ← capwap_length, List.drop_left]
  by_cases wraps : cw.modelSize + 1 = 0
  · rw [if_pos wraps, wraps]
    rfl
  · rw [if_neg wraps, if_pos (bne_iff_ne.mpr wraps)]
    rfl

/-! ## The whole way -/

theorem decodeImage_plain (typed : header.firmwareType ≠ 0) :
    decodeImage (header.bytes ++ rest) =
      some (header.magic, (masked (maskByte header.magic) rest).take header.filesize.toNat) := by
  simp only [decodeImage, behindHeaders_plain typed, Option.bind_eq_bind, Option.bind_some,
    header_magic, header_filesize, decodeLoop_eq (Nat.zero_le _), Nat.sub_zero]

theorem decodeImage_capwap (untyped : header.firmwareType = 0) :
    decodeImage (header.bytes ++ (cw.bytes ++ rest)) =
      if cw.modelSize + 1 = 0 then none
      else some (header.magic, (masked (maskByte header.magic) rest).take header.filesize.toNat) := by
  simp only [decodeImage, behindHeaders_capwap untyped, Option.bind_eq_bind]
  split
  · rfl
  · simp only [Option.bind_some, header_magic, header_filesize, decodeLoop_eq (Nat.zero_le _),
      Nat.sub_zero]

/-- What an image consists of. -/
structure Encoded (opts : Options) (input image : List UInt8) (cw : Option CapwapHeader)
    (header : ImgHeader) : Prop where
  capwap : cwHeader opts = some cw
  firmwareType : firmwareType opts = some header.firmwareType
  typed : cw = none → header.firmwareType ≠ 0
  filesize : header.filesize = UInt32.ofNat input.length
  magic : header.magic = opts.magic
  image : image = header.bytes ++ ((cw.map CapwapHeader.bytes).getD [] ++
    masked (maskByte opts.magic)
      (input ++ List.replicate (padLen opts.padding (UInt32.ofNat input.length)) 0))

theorem encodeMain_encoded (built : encodeMain md5 opts input = some image) :
    ∃ cw header, Encoded opts input image cw header := by
  simp only [encodeMain, Option.bind_eq_bind, Option.bind_eq_some_iff, require_eq_some,
    exists_const] at built
  obtain ⟨type, typeEq, dated, -, cw, cwEq, built⟩ := built
  simp only [encodeImage] at built
  split at built
  · cases built
  · rw [Option.some.injEq, encodeLoop_eq] at built
    refine ⟨cw, _, cwEq, typeEq, ?_, rfl, rfl, built.symm⟩
    rintro rfl
    show type ≠ 0
    rintro rfl
    rw [cwHeader] at cwEq
    split at cwEq
    · rename_i undated
      rw [undated] at dated
      cases dated
    · rw [Option.map_eq_some_iff] at cwEq
      obtain ⟨name, named, impossible⟩ := cwEq
      cases impossible

/-- A part of a text that is as long as a 32-bit number counts the input is the input with
something behind it if the input is that short and the text begins with it. -/
theorem counted_front_iff {text : List UInt8} {count : Nat} (long : input.length ≤ text.length) :
    text.take (UInt32.ofNat input.length).toNat = input ++ List.replicate count 0 ↔
      count = 0 ∧ input.length < 2 ^ 32 ∧
        ∀ place, place < input.length → input.getD place 0 = text.getD place 0 := by
  rw [UInt32.toNat_ofNat']
  constructor
  · intro same
    have length := congrArg List.length same
    rw [List.length_take, List.length_append, List.length_replicate] at length
    have small : input.length % 2 ^ 32 ≤ input.length := Nat.mod_le _ _
    have none' : count = 0 := by omega
    have short : input.length % 2 ^ 32 = input.length := by omega
    rw [none', List.replicate_zero, List.append_nil, short] at same
    refine ⟨none', by omega, fun place inside => ?_⟩
    rw [← same, List.getD_eq_getElem?_getD, List.getElem?_take_of_lt inside,
      List.getD_eq_getElem?_getD]
  · rintro ⟨rfl, short, same⟩
    rw [Nat.mod_eq_of_lt short, List.replicate_zero, List.append_nil]
    apply List.ext_getElem
    · rw [List.length_take, Nat.min_eq_left long]
    · intro place inside inside'
      rw [List.getElem_take, ← List.getD_eq_getElem (d := 0), ← List.getD_eq_getElem (d := 0), same place inside']

/-- The input repeats, under the mask, the capwap header and what follows it. -/
def Repeats (magic : UInt32) (cw input : List UInt8) : Prop :=
  ∀ place, place < input.length →
    input.getD place 0 =
      (if place < cw.length then cw.getD place 0
        else input.getD (place - cw.length) 0 ^^^ maskByte magic (place - cw.length)) ^^^
      maskByte magic place

/-- The decoder comes out with the magic and with the input, followed by padding alone. -/
def Recovers (opts : Options) (input image : List UInt8) : Prop :=
  ∃ count, count ≤ padLen opts.padding (UInt32.ofNat input.length) ∧
    decodeImage image = some (opts.magic, input ++ List.replicate count 0)

/-- The size fits 32 bits, and a capwap header goes with the type 0 that the decoder takes for its
sign. -/
def DecoderAgrees (opts : Options) (input : List UInt8) : Prop :=
  input.length < 2 ^ 32 ∧ ∀ cw, cwHeader opts = some (some cw) →
    firmwareType opts = some 0 ∧ cw.modelSize + 1 ≠ 0 ∨
      firmwareType opts ≠ some 0 ∧ Repeats opts.magic cw.bytes input

theorem recovers_iff {text : List UInt8} (long : input.length ≤ text.length)
    (decoded : decodeImage image =
      some (opts.magic, text.take (UInt32.ofNat input.length).toNat)) :
    Recovers opts input image ↔ input.length < 2 ^ 32 ∧
      ∀ place, place < input.length → input.getD place 0 = text.getD place 0 := by
  simp only [Recovers, decoded, Option.some.injEq, Prod.mk.injEq, true_and, counted_front_iff long]
  constructor
  · rintro ⟨count, -, -, short, same⟩
    exact ⟨short, same⟩
  · rintro ⟨short, same⟩
    exact ⟨0, Nat.zero_le _, rfl, short, same⟩

theorem recovers_padded {back : List UInt8}
    (decoded : decodeImage image =
      some (opts.magic, (input ++ back).take (UInt32.ofNat input.length).toNat)) :
    Recovers opts input image ↔ input.length < 2 ^ 32 := by
  rw [recovers_iff (by rw [List.length_append]; omega) decoded]
  exact and_iff_left fun place inside => (List.getD_append _ _ _ _ inside).symm

/-- Where the decoder takes the capwap header for data. -/
theorem recovers_unskipped {back : List UInt8}
    (decoded : decodeImage image =
      some (opts.magic, (masked (maskByte opts.magic) (cw.bytes ++
        masked (maskByte opts.magic) (input ++ back))).take (UInt32.ofNat input.length).toNat)) :
    Recovers opts input image ↔ input.length < 2 ^ 32 ∧ Repeats opts.magic cw.bytes input := by
  rw [recovers_iff (by simp only [masked_length, List.length_append]; omega) decoded]
  refine and_congr_right fun short => forall_congr' fun place => imp_congr_right fun inside => ?_
  rw [masked_getD (by simp only [masked_length, List.length_append]; omega)]
  rcases Nat.lt_or_ge place cw.bytes.length with header | data
  · rw [if_pos header, List.getD_append _ _ _ _ header]
  · rw [if_neg (Nat.not_lt.mpr data), List.getD_append_right _ _ _ _ data,
      masked_getD (by rw [List.length_append]; omega), List.getD_append _ _ _ _ (by omega)]

theorem senaoRoundTrip_iff (built : encodeMain md5 opts input = some image) :
    Recovers opts input image ↔ DecoderAgrees opts input := by
  obtain ⟨cw, header, encoded⟩ := encodeMain_encoded built
  have imageEq := encoded.image
  rw [DecoderAgrees, encoded.capwap, encoded.firmwareType]
  cases cw with
  | none =>
      have decoded := @decodeImage_plain (masked (maskByte opts.magic) (input ++
        List.replicate (padLen opts.padding (UInt32.ofNat input.length)) 0)) header (encoded.typed rfl)
      rw [encoded.magic, encoded.filesize, masked_masked] at decoded
      rw [Option.map_none, Option.getD_none, List.nil_append] at imageEq
      rw [← imageEq] at decoded
      rw [recovers_padded decoded]
      exact (and_iff_left fun cw impossible => by cases impossible).symm
  | some cw =>
      rw [Option.map_some, Option.getD_some] at imageEq
      simp only [Option.some.injEq, forall_eq']
      by_cases untyped : header.firmwareType = 0
      · have decoded := @decodeImage_capwap (masked (maskByte opts.magic) (input ++
          List.replicate (padLen opts.padding (UInt32.ofNat input.length)) 0)) header cw untyped
        rw [encoded.magic, encoded.filesize, masked_masked, ← imageEq] at decoded
        by_cases wraps : cw.modelSize + 1 = 0
        · rw [if_pos wraps] at decoded
          simp only [Recovers, decoded, untyped, wraps]
          simp
        · rw [if_neg wraps] at decoded
          rw [recovers_padded decoded]
          simp [untyped, wraps]
      · have decoded := @decodeImage_plain (cw.bytes ++ masked (maskByte opts.magic) (input ++
          List.replicate (padLen opts.padding (UInt32.ofNat input.length)) 0)) header untyped
        rw [encoded.magic, encoded.filesize, ← imageEq] at decoded
        rw [recovers_unskipped decoded]
        simp [untyped]

/-- `-t 2 -r 1 -p 2 -c 171101 -w 3.0.1 -x 1.8.53 -n E`. -/
def kernelOptions : Options where
  types := [2]
  version := DEFAULT_VERSION
  vendorId := 1
  productId := 2
  magic := DEFAULT_MAGIC
  pad := false
  blockSize := DEFAULT_BLOCK_SIZE
  datecode := 171101
  firmwareVer := ![3, 0, 1]
  capwapVer := ![1, 8, 53]
  modName := some [0x45]

theorem zeroSum_length : (List.replicate Tplink.MD5SUM_LEN (0 : UInt8)).length = Tplink.MD5SUM_LEN :=
  List.length_replicate

def zeroMd5 : List UInt8 → Md5Sum := fun _ => ⟨List.replicate Tplink.MD5SUM_LEN 0, zeroSum_length⟩

theorem senaoRoundTrip_iff_kernel : ∃ image, encodeMain zeroMd5 kernelOptions [1] = some image ∧
    (Recovers kernelOptions [1] image ↔ DecoderAgrees kernelOptions [1]) :=
  ⟨_, rfl, senaoRoundTrip_iff (show encodeMain zeroMd5 kernelOptions [1] = some _ from rfl)⟩

theorem senaoRoundTrip_kernel :
    ¬ ∀ (md5 : List UInt8 → Md5Sum) (opts : Options) (input image : List UInt8),
      encodeMain md5 opts input = some image → Recovers opts input image := by
  intro always
  have built : ∃ image, encodeMain zeroMd5 kernelOptions [1] = some image := ⟨_, rfl⟩
  obtain ⟨image, built⟩ := built
  have recovers := always _ _ _ _ built
  obtain ⟨cw, header, encoded⟩ := encodeMain_encoded built
  have capwap : some cw = some (some (capwapHeader kernelOptions [0x45])) := encoded.capwap.symm
  have typed : some header.firmwareType = some 2 := encoded.firmwareType.symm
  have imageEq := encoded.image
  cases capwap
  rw [Option.some.injEq] at typed
  have decoded := @decodeImage_plain ((capwapHeader kernelOptions [0x45]).bytes ++
    masked (maskByte kernelOptions.magic) ([1] ++
      List.replicate (padLen kernelOptions.padding (UInt32.ofNat ([1] : List UInt8).length)) 0)) header
    (by rw [typed]; decide)
  rw [Option.map_some, Option.getD_some] at imageEq
  rw [encoded.magic, encoded.filesize, ← imageEq] at decoded
  have first := ((recovers_unskipped decoded).mp recovers).2 0 (by decide)
  exact absurd first (by decide)

end Rut9xx.Senao
