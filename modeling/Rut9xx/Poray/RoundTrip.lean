import Rut9xx.Poray.Builder

namespace Rut9xx.Poray

open Data
open Tplink (FileArg statFile fileSize strcasecmpEq)

/-! # What an inspection makes of a built image -/

variable {opts : Options} {plan : Plan} {content body : List UInt8} {heap other : Memory UInt8}
  {board found : BoardInfo} {key again count : Nat}

/-! ## Accepted options -/

structure Settled (content : List UInt8) (plan : Plan) : Prop where
  firmware : plan.firmware = content.take (content.length % 2 ^ 32)
  length : plan.firmwareLen.toNat = plan.firmware.length
  fits : plan.firmware.length + fwHeaderSize ≤ plan.layout.fwMaxLen.toNat
  maxLen : plan.layout.fwMaxLen.toNat ≤ 0x7c0000
  board : ∀ board, plan.board = some board → board ∈ boards ∧ board.hwId = plan.hwId

theorem layouts_fwMaxLen : ∀ layout ∈ layouts,
    fwHeaderSize ≤ layout.fwMaxLen.toNat ∧ layout.fwMaxLen.toNat ≤ 0x7c0000 := by decide

theorem findBoardByHwid_spec {hwId : UInt32} (sought : findBoardByHwid hwId = some board) :
    board ∈ boards ∧ board.hwId = hwId := by
  refine ⟨List.mem_of_find?_eq_some sought, ?_⟩
  have same := List.find?_some sought
  exact (of_decide_eq_true same).symm

theorem settleBoard_spec {chosen : Option BoardInfo} {layoutId : List Char} {hwId : UInt32}
    (settled : settleBoard opts = some (chosen, layoutId, hwId)) :
    ∀ board, chosen = some board → board ∈ boards ∧ board.hwId = hwId := by
  rw [settleBoard] at settled
  cases named : opts.boardId with
  | some id =>
      simp only [named] at settled
      obtain ⟨board, sought, same⟩ := Option.map_eq_some_iff.mp settled
      cases same
      intro board same
      cases same
      exact ⟨List.mem_of_find?_eq_some sought, rfl⟩
  | none =>
      simp only [named] at settled
      obtain ⟨id, -, settled⟩ := Option.bind_eq_some_iff.mp settled
      obtain ⟨layout, -, same⟩ := Option.map_eq_some_iff.mp settled
      cases same
      exact fun board sought => findBoardByHwid_spec sought

theorem checkOptions_settled (accepted : checkOptions opts = some plan)
    (named : opts.firmware = .file content) : Settled content plan := by
  simp only [checkOptions, named, statFile, Option.bind_eq_bind, Option.bind_eq_some_iff,
    require_eq_some, decide_eq_true_eq, Option.some.injEq] at accepted
  obtain ⟨_, rfl, ⟨chosen, layoutId, hwId⟩, settled, layout, sought, _, fits, _, -, rfl⟩ := accepted
  obtain ⟨room, maxLen⟩ := layouts_fwMaxLen layout (List.mem_of_find?_eq_some sought)
  have size : (content.take (content.length % 2 ^ 32)).length < 2 ^ 32 := by
    rw [List.length_take]
    omega
  constructor
  · rfl
  · rw [UInt32.toNat_ofNat']
    exact Nat.mod_eq_of_lt size
  · simp only
    omega
  · exact maxLen
  · exact settleBoard_spec settled

/-- A board of the table is found, or one before it with the same hardware id. -/
theorem findBoardByHwid_of_mem (member : board ∈ boards) :
    ∃ found, findBoardByHwid board.hwId = some found := by
  rw [← Option.isSome_iff_exists, findBoardByHwid, List.find?_isSome]
  exact ⟨board, member, by simp⟩

/-! ## The built file -/

/-- A text combined with a key. -/
def covered (key : Nat) (text : List UInt8) : List UInt8 :=
  text.mapIdx fun i byte => byte ^^^ keyByte key i

/-- The firmware with its checksum behind it. -/
def sealed (firmware : List UInt8) : List UInt8 :=
  firmware ++ [(checksumFw firmware).toUInt8, (checksumFw firmware >>> 8).toUInt8]

@[simp] theorem fillHeader_length {hwId firmwareLen : UInt32} :
    (fillHeader hwId firmwareLen).length = fwHeaderSize := rfl

@[simp] theorem covered_length : (covered key body).length = body.length := List.length_mapIdx

theorem sealed_length : (sealed body).length = body.length + 2 := by simp [sealed]

/-- The buffer in front of the obfuscation. -/
def filled (heap : Memory UInt8) (plan : Plan) : Guarded :=
  let buf : Guarded := ⟨plan.layout.fwMaxLen.toNat, heap, true⟩
  let buf := buf.put 0 (List.replicate plan.layout.fwMaxLen.toNat 0xff)
  let buf := buf.put fwHeaderSize plan.firmware
  let buf := buf.put 0 (fillHeader plan.hwId plan.firmwareLen)
  let checksum := checksumFw plan.firmware
  let buf := buf.put (fwHeaderSize + plan.firmware.length + 1) [(checksum >>> 8).toUInt8]
  buf.put (fwHeaderSize + plan.firmware.length) [checksum.toUInt8]

theorem buildFw_eq (settled : Settled content plan) : buildFw heap plan = plan.board.map fun board =>
    let buf := xorFw board fwHeaderSize (plan.firmware.length + 2) (filled heap plan)
    (load buf.bytes 0 (fwHeaderSize + plan.firmware.length + 2),
      buf.touch 0 (fwHeaderSize + plan.firmware.length + 2)) := by
  have data (memory : Memory UInt8) : load (store (store memory fwHeaderSize plan.firmware) 0
      (fillHeader plan.hwId plan.firmwareLen)) fwHeaderSize plan.firmware.length = plan.firmware := by
    rw [load_store_apart (by rw [fillHeader_length]; omega)]
    exact load_store
  rw [buildFw, settled.length]
  simp only [Guarded.put_bytes, data]
  cases plan.board <;> rfl

theorem filled_header : load (filled heap plan).bytes 0 fwHeaderSize =
    fillHeader plan.hwId plan.firmwareLen := by
  simp only [filled, Guarded.put_bytes]
  rw [load_store_apart (by omega), load_store_apart (by omega)]
  exact load_store

theorem filled_body : load (filled heap plan).bytes fwHeaderSize (plan.firmware.length + 2) =
    sealed plan.firmware := by
  simp only [filled, Guarded.put_bytes]
  rw [load_append, load_succ, show load _ _ 1 = [_] from load_succ, sealed]
  congr 1
  · rw [load_store_apart (by omega), load_store_apart (by omega),
      load_store_apart (by rw [fillHeader_length]; omega)]
    exact load_store
  · rw [store_self, store_outside (by simp only [List.length_singleton]; omega), store_self]

theorem xorFw_eq (board : BoardInfo) (data count : Nat) (buf : Guarded) :
    xorFw board data count buf =
      buf.alterBytes (fun i byte => byte ^^^ keyByte board.key i) data (count + 1) 0 := by
  rw [xorFw]
  congr 1

theorem filled_inside_iff (settled : Settled content plan) : (filled heap plan).inside = true ↔
    plan.firmware.length + 30 ≤ plan.layout.fwMaxLen.toNat := by
  have fits := settled.fits
  rw [fwHeaderSize] at fits
  simp only [filled, Guarded.put_inside_iff, Guarded.put_size, List.length_replicate,
    List.length_singleton, fillHeader_length, fwHeaderSize, true_and]
  omega

/-- The loop over the key goes to the byte behind the checksum. -/
theorem buildFw_spec (settled : Settled content plan) (here : plan.board = some board) :
    ∃ buf, buildFw heap plan = some (fillHeader plan.hwId plan.firmwareLen ++
      covered board.key (sealed plan.firmware), buf) ∧
      (buf.inside = true ↔ plan.firmware.length + 31 ≤ plan.layout.fwMaxLen.toNat) := by
  rw [buildFw_eq settled, here]
  refine ⟨_, congrArg some (Prod.ext ?_ rfl), ?_⟩
  · have count : ((plan.firmware.length : Int) + 2) = ((plan.firmware.length + 2 : Nat) : Int) := by
      omega
    simp only [count, xorFw_eq]
    rw [show fwHeaderSize + plan.firmware.length + 2 = fwHeaderSize + (plan.firmware.length + 2) by rfl,
      load_append, Nat.zero_add, Guarded.load_alterBytes (by omega), filled_body]
    congr 1
    refine Eq.trans (load_congr ?_) (@filled_header plan heap)
    intro index below
    exact Guarded.alterBytes_outside (by omega)
  · have count : ((plan.firmware.length : Int) + 2) = ((plan.firmware.length + 2 : Nat) : Int) := by
      omega
    have size : (filled heap plan).size = plan.layout.fwMaxLen.toNat := rfl
    simp only [count, xorFw_eq, Guarded.touch_inside_iff, Guarded.alterBytes_inside_iff,
      Guarded.alterBytes_size, filled_inside_iff settled, size, fwHeaderSize]
    omega

/-! ## The inspected file -/

/-- The checksum at the end of a text that was uncovered. -/
def storedChecksum (text : List UInt8) (length : Nat) : UInt16 :=
  ((text.getD (length + 1) 0).toUInt16 <<< 8) ||| (text.getD length 0).toUInt16

theorem asInt_of_lt {word : UInt32} (small : word.toNat < 2 ^ 31) : asInt word = word.toNat :=
  if_pos small

theorem getD_of_load {memory : Memory UInt8} {start index : Nat} {text : List UInt8}
    (whole : load memory start text.length = text) (below : index < text.length) :
    memory (start + index) = text.getD index 0 := by
  have here := congrArg (fun list => list[index]?) whole
  simp only [load_getElem?, if_pos below] at here
  rw [List.getD_eq_getElem?_getD, ← here, Option.getD_some]

theorem take_of_load {memory : Memory UInt8} {start length more : Nat} {text : List UInt8}
    (whole : load memory start (length + more) = text) :
    load memory start length = text.take length := by
  rw [← whole, load_append, List.take_left' load_length]

/-- An inspection takes the key of the first board with the hardware id, and its loop leaves the
buffer by one byte. -/
theorem inspectFw_spec {hwId firmwareLen : UInt32} {length : Nat}
    (lengthWord : firmwareLen.toNat = length) (small : length + 30 < 2 ^ 31)
    (sought : findBoardByHwid hwId = some found) (bodyLength : body.length = length + 2) :
    ∃ inspection, inspectFw heap (fillHeader hwId firmwareLen ++ body) = some inspection ∧
      inspection.inside = false ∧
      (inspection.checksumsMatch = true ↔ checksumFw ((covered found.key body).take length) =
        storedChecksum (covered found.key body) length) ∧
      (inspection.checksumsMatch = true →
        inspection.extracted = some ((covered found.key body).take length)) := by
  have fileLength : (fillHeader hwId firmwareLen ++ body).length = length + 30 := by
    rw [List.length_append, fillHeader_length, bodyLength, fwHeaderSize]
    omega
  have size : (fileSize (fillHeader hwId firmwareLen ++ body)).toNat = length + 30 := by
    rw [fileSize, fileLength, UInt32.toNat_ofNat']
    exact Nat.mod_eq_of_lt (by omega)
  have last (back : UInt32) (short : back.toNat ≤ 30) :
      (fileSize (fillHeader hwId firmwareLen ++ body) - back).toNat = length + 30 - back.toNat := by
    rw [UInt32.toNat_sub_of_le _ _ (by rw [UInt32.le_iff_toNat_le, size]; omega), size]
  have hw : le32At (fillHeader hwId firmwareLen) 0 = hwId := by
    simp only [fillHeader, List.append_assoc, le32At_here]
  have len : le32At (fillHeader hwId firmwareLen) 4 = firmwareLen := by
    simp only [fillHeader, List.append_assoc]
    rw [show 4 = 0 + 4 by rfl, le32At_past32, le32At_here]
  have count : asInt (firmwareLen + 2) = ((length + 2 : Nat) : Int) := by
    have sum : (firmwareLen + 2).toNat = length + 2 := by
      rw [UInt32.toNat_add, lengthWord, show (2 : UInt32).toNat = 2 by rfl]
      exact Nat.mod_eq_of_lt (by omega)
    rw [asInt_of_lt (by omega), sum]
  have plainCount : (asInt firmwareLen).toNat = length := by
    rw [asInt_of_lt (by omega), Int.toNat_natCast, lengthWord]
  obtain ⟨header, behind⟩ := holds_append.mp
    (@holds_store _ heap (fillHeader hwId firmwareLen ++ body) 0)
  have headerHere : load (store heap 0 (fillHeader hwId firmwareLen ++ body)) 0 fwHeaderSize =
      fillHeader hwId firmwareLen := header
  have bodyHere : load (store heap 0 (fillHeader hwId firmwareLen ++ body)) fwHeaderSize
      (length + 2) = body := by
    rw [← bodyLength]
    exact behind
  rw [inspectFw]
  simp only [size, List.take_of_length_le (Nat.le_of_eq fileLength), Guarded.touch_bytes,
    Guarded.put_bytes, headerHere, hw, len, sought]
  rw [Option.bind_eq_bind, Option.bind_some]
  simp only [count, xorFw_eq, plainCount, lengthWord, last 1 (by decide), last 2 (by decide)]
  generalize memory : Guarded.touch _ _ _ = buf
  have bytes : buf.bytes = store heap 0 (fillHeader hwId firmwareLen ++ body) := by rw [← memory]; rfl
  have bufSize : buf.size = length + 30 := by rw [← memory]; rfl
  have uncovered : load (buf.alterBytes (fun i byte => byte ^^^ keyByte found.key i) fwHeaderSize
      (length + 2 + 1) 0).bytes fwHeaderSize (length + 2) = covered found.key body := by
    rw [Guarded.load_alterBytes (Nat.le_succ _), bytes, bodyHere]
    rfl
  have left : ¬ (buf.alterBytes (fun i byte => byte ^^^ keyByte found.key i) fwHeaderSize
      (length + 2 + 1) 0).inside = true := by
    rw [Guarded.alterBytes_inside_iff, bufSize, fwHeaderSize]
    omega
  generalize buf.alterBytes _ _ _ _ = buf' at uncovered left ⊢
  have place (index : Nat) (below : index < length + 2) :
      buf'.bytes (fwHeaderSize + index) = (covered found.key body).getD index 0 :=
    getD_of_load (by rw [covered_length, bodyLength]; exact uncovered)
      (by rw [covered_length, bodyLength]; exact below)
  have high := place (length + 1) (by omega)
  have low := place length (by omega)
  have front := take_of_load uncovered
  rw [fwHeaderSize] at high low
  rw [show length + 30 - (1 : UInt32).toNat = 28 + (length + 1) by
      rw [show (1 : UInt32).toNat = 1 by rfl]; omega,
    show length + 30 - (2 : UInt32).toNat = 28 + length by
      rw [show (2 : UInt32).toNat = 2 by rfl]; omega,
    high, low, front]
  split
  · rename_i same
    refine ⟨_, rfl, ?_, by simpa [storedChecksum] using same, fun _ => rfl⟩
    simp only [← Bool.not_eq_true, Guarded.touch_inside_iff]
    exact fun inside => left inside.1.1.1.1
  · rename_i differ
    refine ⟨_, rfl, ?_, ?_, fun impossible => nomatch impossible⟩
    · simp only [← Bool.not_eq_true, Guarded.touch_inside_iff]
      exact fun inside => left inside.1.1.1
    · simpa [storedChecksum] using differ

/-! ## Both keys -/

theorem xor_xor_eq_self_iff {byte left right : UInt8} :
    byte ^^^ left ^^^ right = byte ↔ left = right := by
  constructor
  · intro same
    have zero : left ^^^ right = 0 := by
      calc left ^^^ right = byte ^^^ (byte ^^^ left ^^^ right) := by
            rw [UInt8.xor_assoc byte, ← UInt8.xor_assoc byte byte, UInt8.xor_self, UInt8.zero_xor]
        _ = 0 := by rw [same, UInt8.xor_self]
    calc left = left ^^^ right ^^^ right := by rw [UInt8.xor_assoc, UInt8.xor_self, UInt8.xor_zero]
      _ = right := by rw [zero, UInt8.zero_xor]
  · rintro rfl
    rw [UInt8.xor_assoc, UInt8.xor_self, UInt8.xor_zero]

/-- The two keys are the same on a text of this length. -/
def KeysAgree (key again count : Nat) : Prop := ∀ i, i < count → keyByte key i = keyByte again i

theorem uncovered_getD {text : List UInt8} {i : Nat} (below : i < text.length) :
    (covered again (covered key text)).getD i 0 = text.getD i 0 ↔ keyByte key i = keyByte again i := by
  rw [List.getD_eq_getElem?_getD, List.getD_eq_getElem?_getD, covered, covered, List.getElem?_mapIdx,
    List.getElem?_mapIdx, List.getElem?_eq_getElem below, Option.map_some, Option.map_some,
    Option.getD_some, Option.getD_some]
  exact xor_xor_eq_self_iff

theorem uncovered_take_iff {text : List UInt8} (within : count ≤ text.length) :
    (covered again (covered key text)).take count = text.take count ↔ KeysAgree key again count := by
  constructor
  · intro same i below
    rw [← uncovered_getD (show i < text.length by omega), List.getD_eq_getElem?_getD,
      List.getD_eq_getElem?_getD, ← List.getElem?_take_of_lt below, same, List.getElem?_take_of_lt below]
  · intro agree
    apply List.ext_getElem?
    intro i
    by_cases below : i < count
    · have here := (uncovered_getD (show i < text.length by omega)).mpr (agree i below)
      rw [List.getElem?_take_of_lt below, List.getElem?_take_of_lt below,
        List.getElem?_eq_getElem (by simp only [covered_length]; omega),
        List.getElem?_eq_getElem (by omega)]
      rw [List.getD_eq_getElem _ _ (by simp only [covered_length]; omega),
        List.getD_eq_getElem _ _ (by omega)] at here
      rw [here]
    · rw [List.getElem?_eq_none (by simp only [List.length_take]; omega),
        List.getElem?_eq_none (by simp only [List.length_take]; omega)]

theorem joined_toNat {low high : UInt8} :
    ((high.toUInt16 <<< 8) ||| low.toUInt16).toNat = high.toNat * 256 + low.toNat := by
  have bound := high.toNat_lt
  have shifted : (high.toUInt16 <<< 8).toNat = high.toNat <<< 8 := by
    rw [UInt16.toNat_shiftLeft, UInt8.toNat_toUInt16]
    change high.toNat <<< 8 % 2 ^ 16 = _
    rw [Nat.shiftLeft_eq]
    omega
  rw [UInt16.toNat_or, shifted, UInt8.toNat_toUInt16, ← Nat.shiftLeft_add_eq_or_of_lt low.toNat_lt,
    Nat.shiftLeft_eq]

/-- A word is stored by its two bytes, the low one first. -/
theorem joined_eq_iff {low high : UInt8} {word : UInt16} :
    word = (high.toUInt16 <<< 8) ||| low.toUInt16 ↔
      low = word.toUInt8 ∧ high = (word >>> 8).toUInt8 := by
  have lowBound := low.toNat_lt
  have highBound := high.toNat_lt
  have wordBound := word.toNat_lt
  have shifted : (word >>> 8).toUInt8.toNat = word.toNat / 256 := by
    rw [UInt16.toNat_toUInt8, UInt16.toNat_shiftRight]
    change word.toNat >>> 8 % 2 ^ 8 = _
    rw [Nat.shiftRight_eq_div_pow]
    omega
  rw [← UInt16.toNat_inj, joined_toNat, ← UInt8.toNat_inj, ← UInt8.toNat_inj, shifted,
    UInt16.toNat_toUInt8]
  omega

theorem sealed_getD {firmware : List UInt8} :
    (sealed firmware).getD firmware.length 0 = (checksumFw firmware).toUInt8 ∧
      (sealed firmware).getD (firmware.length + 1) 0 = (checksumFw firmware >>> 8).toUInt8 := by
  rw [sealed, List.getD_append_right _ _ _ _ (by omega), List.getD_append_right _ _ _ _ (by omega),
    Nat.sub_self, Nat.add_sub_cancel_left]
  exact ⟨rfl, rfl⟩

/-- A checksum that matches over a firmware that is back: the keys agree on both. -/
theorem recovered_iff {firmware : List UInt8} :
    (checksumFw ((covered again (covered key (sealed firmware))).take firmware.length) =
        storedChecksum (covered again (covered key (sealed firmware))) firmware.length ∧
      (covered again (covered key (sealed firmware))).take firmware.length = firmware) ↔
    KeysAgree key again (firmware.length + 2) := by
  have length := @sealed_length firmware
  have front : (sealed firmware).take firmware.length = firmware := List.take_left
  obtain ⟨low, high⟩ := @sealed_getD firmware
  have back : (covered again (covered key (sealed firmware))).take firmware.length = firmware ↔
      KeysAgree key again firmware.length := by
    have iff := @uncovered_take_iff key again firmware.length (sealed firmware) (by omega)
    rwa [front] at iff
  have lowIff := @uncovered_getD key again (sealed firmware) firmware.length (by omega)
  have highIff := @uncovered_getD key again (sealed firmware) (firmware.length + 1) (by omega)
  rw [low] at lowIff
  rw [high] at highIff
  constructor
  · intro given
    obtain ⟨same, plain⟩ := given
    rw [plain, storedChecksum, joined_eq_iff, lowIff, highIff] at same
    intro i below
    rcases (by omega : i < firmware.length ∨ i = firmware.length ∨ i = firmware.length + 1) with
      front | rfl | rfl
    · exact back.mp plain i front
    · exact same.1
    · exact same.2
  · intro agree
    have plain := back.mpr fun i below => agree i (by omega)
    refine ⟨?_, plain⟩
    rw [plain, storedChecksum, joined_eq_iff, lowIff, highIff]
    exact ⟨agree _ (by omega), agree _ (by omega)⟩

/-! ## Building and inspecting -/

/-- What is wanted of an image: built and inspected inside the buffers, with a checksum that
matches and the file extracted again. -/
structure RoundTrip (heap other : Memory UInt8) (plan : Plan) (content : List UInt8)
    (file : List UInt8) (buf : Guarded) (inspection : Inspection) : Prop where
  built : buildFw heap plan = some (file, buf)
  buildInside : buf.inside = true
  inspected : inspectFw other file = some inspection
  inspectInside : inspection.inside = true
  checksum : inspection.checksumsMatch = true
  extracted : inspection.extracted = some content

/-- The key that the hardware id finds again is that of the board, as far as it is used. -/
def KeyFoundAgain (plan : Plan) : Prop :=
  ∃ board found, plan.board = some board ∧ findBoardByHwid plan.hwId = some found ∧
    KeysAgree board.key found.key (plan.firmware.length + 2)

theorem inspect_built (settled : Settled content plan) (here : plan.board = some board) :
    ∃ found inspection, findBoardByHwid plan.hwId = some found ∧
      inspectFw other (fillHeader plan.hwId plan.firmwareLen ++
        covered board.key (sealed plan.firmware)) = some inspection ∧
      inspection.inside = false ∧
      (inspection.checksumsMatch = true ∧ inspection.extracted = some plan.firmware ↔
        KeysAgree board.key found.key (plan.firmware.length + 2)) ∧
      (inspection.checksumsMatch = true → ∃ text, inspection.extracted = some text ∧
        text.length = plan.firmware.length) := by
  obtain ⟨member, hwId⟩ := settled.board board here
  obtain ⟨found, sought⟩ := findBoardByHwid_of_mem member
  rw [hwId] at sought
  have fits := settled.fits
  have maxLen := settled.maxLen
  obtain ⟨inspection, inspected, left, matches', extracted⟩ :=
    @inspectFw_spec (covered board.key (sealed plan.firmware)) other found _ _ _ settled.length
      (by omega) sought (by rw [covered_length, sealed_length])
  refine ⟨found, inspection, sought, inspected, left, ?_, ?_⟩
  · rw [← recovered_iff, ← matches']
    refine and_congr_right fun same => ?_
    rw [extracted same, Option.some.injEq]
  · intro same
    refine ⟨_, extracted same, List.length_take_of_le ?_⟩
    rw [covered_length, covered_length, sealed_length]
    omega

theorem buildFw_board {file : List UInt8} {buf : Guarded} (settled : Settled content plan)
    (built : buildFw heap plan = some (file, buf)) : ∃ board, plan.board = some board ∧
      file = fillHeader plan.hwId plan.firmwareLen ++ covered board.key (sealed plan.firmware) ∧
      (buf.inside = true ↔ plan.firmware.length + 31 ≤ plan.layout.fwMaxLen.toNat) := by
  cases here : plan.board with
  | none =>
      rw [buildFw_eq settled, here] at built
      cases built
  | some board =>
      obtain ⟨buf', built', inside⟩ := @buildFw_spec plan content heap board settled here
      rw [built'] at built
      cases built
      exact ⟨board, rfl, rfl, inside⟩

theorem buildFw_inside_iff (settled : Settled content plan) :
    (∃ file buf, buildFw heap plan = some (file, buf) ∧ buf.inside = true) ↔
      plan.board ≠ none ∧ plan.firmware.length + 31 ≤ plan.layout.fwMaxLen.toNat := by
  constructor
  · rintro ⟨file, buf, built, within⟩
    obtain ⟨board, here, -, inside⟩ := buildFw_board settled built
    exact ⟨by rw [here]; exact Option.some_ne_none board, inside.mp within⟩
  · rintro ⟨some', room⟩
    obtain ⟨board, here⟩ := Option.ne_none_iff_exists'.mp some'
    obtain ⟨buf, built, inside⟩ := @buildFw_spec plan content heap board settled here
    exact ⟨_, buf, built, inside.mpr room⟩

theorem inspectFw_leaves {file : List UInt8} {buf : Guarded} {inspection : Inspection}
    (settled : Settled content plan) (built : buildFw heap plan = some (file, buf))
    (inspected : inspectFw other file = some inspection) : inspection.inside = false := by
  obtain ⟨board, here, rfl, -⟩ := buildFw_board settled built
  obtain ⟨found, inspection', -, inspected', left, -⟩ := @inspect_built plan content other board settled here
  rw [inspected'] at inspected
  cases inspected
  exact left

theorem inspectFw_recovers_iff (settled : Settled content plan) :
    (∃ file buf inspection, buildFw heap plan = some (file, buf) ∧
        inspectFw other file = some inspection ∧ inspection.checksumsMatch = true ∧
        inspection.extracted = some plan.firmware) ↔ KeyFoundAgain plan := by
  constructor
  · rintro ⟨file, buf, inspection, built, inspected, same⟩
    obtain ⟨board, here, rfl, -⟩ := buildFw_board settled built
    obtain ⟨found, inspection', sought, inspected', -, recovers, -⟩ :=
      @inspect_built plan content other board settled here
    rw [inspected'] at inspected
    cases inspected
    exact ⟨board, found, here, sought, recovers.mp same⟩
  · rintro ⟨board, found, here, sought, agree⟩
    obtain ⟨buf, built, -⟩ := @buildFw_spec plan content heap board settled here
    obtain ⟨found', inspection, sought', inspected, -, recovers, -⟩ :=
      @inspect_built plan content other board settled here
    rw [sought'] at sought
    cases sought
    exact ⟨_, buf, inspection, built, inspected, recovers.mpr agree⟩

/-- The image never makes the whole way: its inspection always leaves the buffer.  Apart from that,
building stays inside its buffer with room for one more byte than the image has, and the file comes
back if its size fits 32 bits and the board that its hardware id finds has the same key. -/
theorem porayRoundTrip_iff (heap other : Memory UInt8) (accepted : checkOptions opts = some plan)
    (named : opts.firmware = .file content) :
    (¬ ∃ file buf inspection, RoundTrip heap other plan content file buf inspection) ∧
    ((∃ file buf, buildFw heap plan = some (file, buf) ∧ buf.inside = true) ↔
      plan.board ≠ none ∧ plan.firmware.length + 31 ≤ plan.layout.fwMaxLen.toNat) ∧
    ((∃ file buf inspection, buildFw heap plan = some (file, buf) ∧
        inspectFw other file = some inspection ∧ inspection.checksumsMatch = true ∧
        inspection.extracted = some content) ↔
      content.length < 2 ^ 32 ∧ KeyFoundAgain plan) := by
  have settled := checkOptions_settled accepted named
  have whole : plan.firmware = content ↔ content.length < 2 ^ 32 := by
    rw [settled.firmware, List.take_eq_self_iff]
    exact ⟨fun long => Nat.lt_of_le_of_lt long (Nat.mod_lt _ (by decide)),
      fun short => Nat.le_of_eq (Nat.mod_eq_of_lt short).symm⟩
  refine ⟨?_, buildFw_inside_iff settled, ?_⟩
  · rintro ⟨file, buf, inspection, trip⟩
    have left := inspectFw_leaves settled trip.built trip.inspected
    rw [trip.inspectInside] at left
    cases left
  · constructor
    · rintro ⟨file, buf, inspection, built, inspected, matches', extracted⟩
      obtain ⟨board, here, rfl, -⟩ := buildFw_board settled built
      obtain ⟨found, inspection', sought, inspected', -, recovers, extracts⟩ :=
        @inspect_built plan content other board settled here
      rw [inspected'] at inspected
      cases inspected
      obtain ⟨text, extracted', length⟩ := extracts matches'
      rw [extracted] at extracted'
      cases extracted'
      have short : content.length < 2 ^ 32 := by
        rw [length, settled.firmware, List.length_take]
        omega
      have plain := whole.mpr short
      rw [← plain] at extracted
      exact ⟨short, board, found, here, sought, recovers.mp ⟨matches', extracted⟩⟩
    · rintro ⟨short, again⟩
      rw [← whole.mpr short]
      exact (inspectFw_recovers_iff settled).mpr again

/-- Three bytes for the board "M3". -/
def m3Options : Options where
  firmware := .file [1, 2, 3]
  boardId := some ['m', '3']
  hwId := none
  layoutId := none
  ofname := true

def m3Plan : Plan where
  board := some ⟨['M', '3'], 0x31353335, ['4', 'M'], 1⟩
  hwId := 0x31353335
  layout := ⟨['4', 'M'], 0x3c0000⟩
  firmware := [1, 2, 3]
  firmwareLen := 3

theorem m3Options_accepted : checkOptions m3Options = some m3Plan := by rfl

theorem porayRoundTrip_iff_m3 :
    (¬ ∃ file buf inspection, RoundTrip (fun _ => 0) (fun _ => 0) m3Plan [1, 2, 3] file buf inspection) ∧
    ((∃ file buf, buildFw (fun _ => 0) m3Plan = some (file, buf) ∧ buf.inside = true) ↔
      m3Plan.board ≠ none ∧ m3Plan.firmware.length + 31 ≤ m3Plan.layout.fwMaxLen.toNat) ∧
    ((∃ file buf inspection, buildFw (fun _ => 0) m3Plan = some (file, buf) ∧
        inspectFw (fun _ => 0) file = some inspection ∧ inspection.checksumsMatch = true ∧
        inspection.extracted = some [1, 2, 3]) ↔
      ([1, 2, 3] : List UInt8).length < 2 ^ 32 ∧ KeyFoundAgain m3Plan) :=
  porayRoundTrip_iff (fun _ => 0) (fun _ => 0) m3Options_accepted rfl

theorem porayRoundTrip_m3 :
    ¬ ∀ (opts : Options) (plan : Plan) (content : List UInt8) (heap other : Memory UInt8),
      checkOptions opts = some plan → opts.firmware = .file content →
      ∃ file buf inspection, RoundTrip heap other plan content file buf inspection := by
  intro always
  obtain ⟨file, buf, inspection, trip⟩ :=
    always _ _ [1, 2, 3] (fun _ => 0) (fun _ => 0) m3Options_accepted rfl
  have left := inspectFw_leaves (checkOptions_settled m3Options_accepted rfl) trip.built trip.inspected
  rw [trip.inspectInside] at left
  cases left

end Rut9xx.Poray
