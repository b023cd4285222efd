import Rut9xx.Mnf.Repair
import Rut9xx.Mnf.Codec
import Rut9xx.Flash.WriteBuff

namespace Rut9xx.Mnf

open Data Flash

/-! # What a repair leaves of the block -/

variable {board : Board} {input other : RepairInput} {flags : MnfCmdFlags}
  {flash cache : Memory UInt8} {field : MnfField} {old : CString} {text bytes : List UInt8}

/-! ## The validators -/

/-- What the restore function of a field finds invalid, of the text alone. -/
def TextInvalid (board : Board) (field : MnfField) (text : List UInt8) : Prop :=
  match field.restoreFunc with
  | .restoreMac => ¬ configMacVidStr <+: text
  | .restoreName => ¬ deviceModelName board <+: text
  | .restoreNum => ¬ (field.length ≤ text.length ∧ ∀ c ∈ text.take field.length, isDigit c)
  | .clear => False

theorem validateNum_iff : validateNum field old = true ↔
    ¬ (field.length ≤ old.text.length ∧ ∀ c ∈ old.text.take field.length, isDigit c) := by
  rw [iff_not_comm, Bool.not_eq_true, validateNum, List.any_eq_false]
  constructor
  · rintro ⟨long, digits⟩ index inside
    have below := List.mem_range.mp inside
    rw [at_text (by omega)]
    have member : old.text[index] ∈ old.text.take field.length := by
      rw [List.mem_take_iff_getElem]
      exact ⟨index, by omega, rfl⟩
    simp [digits _ member]
  · intro digits
    have long : field.length ≤ old.text.length := by
      by_contra short
      have ended := digits old.text.length (List.mem_range.mpr (by omega))
      rw [at_end] at ended
      exact ended (by decide)
    refine ⟨long, ?_⟩
    intro c member
    obtain ⟨index, below, rfl⟩ := List.mem_take_iff_getElem.mp member
    have digit := digits index (List.mem_range.mpr (by omega))
    rw [at_text (by omega)] at digit
    simpa using digit

theorem restoreFunc_invalid_iff (rand : Nat) :
    (restoreFunc board rand field old).1 = true ↔ TextInvalid board field old.text := by
  unfold restoreFunc TextInvalid
  cases field.restoreFunc with
  | restoreMac => simp [restoreMac]
  | restoreName => simp [restoreName]
  | restoreNum => exact validateNum_iff
  | clear => simp [clear]

/-- The field as it stands in the flash does not pass. -/
def JudgedInvalid (board : Board) (flash : Memory UInt8) (field : MnfField) : Prop :=
  TextInvalid board field ((mnfFieldToStr field (mnfFlashRead flash field)).takeWhile (· ≠ 0))

theorem judgedInvalid_iff : (restoreFunc board input.rand field (oldText input flash field)).1 = true ↔
    JudgedInvalid board flash field := restoreFunc_invalid_iff input.rand

/-! ## The defaults -/

/-- What the table says of the fields that have a validator. -/
structure Tabulated (board : Board) (field : MnfField) : Prop where
  mac : field.restoreFunc = .restoreMac → field.binary = true ∧ field.length = 6
  name : field.restoreFunc = .restoreName →
    field.binary = false ∧ (deviceModelName board).length ≤ field.length
  num : field.restoreFunc = .restoreNum → field.binary = false

theorem tabulated (member : field ∈ mnfFields board) : Tabulated board field := by
  have each : ∀ field ∈ mnfFields board,
      (field.restoreFunc = .restoreMac → field.binary = true ∧ field.length = 6) ∧
      (field.restoreFunc = .restoreName →
        field.binary = false ∧ (deviceModelName board).length ≤ field.length) ∧
      (field.restoreFunc = .restoreNum → field.binary = false) := by
    cases board <;> decide
  obtain ⟨mac, name, num⟩ := each field member
  exact ⟨mac, name, num⟩

theorem toupper_toupper {c : UInt8} (hex : IsHex c) : toupper (toupper c) = toupper c := by
  revert c
  apply forall_byte
  decide

theorem isHex_toupper {c : UInt8} (hex : IsHex c) : IsHex (toupper c) := by
  revert c
  apply forall_byte
  decide

theorem mac_length (rand : Nat) :
    ((configMacVidStr ++ printHex 6 (rand &&& 0xffffff)).map toupper).length = 12 := by
  have small : rand &&& 0xffffff < 16 ^ 6 :=
    Nat.lt_of_le_of_lt Nat.and_le_right (by decide)
  rw [List.length_map, List.length_append, printHex_length small]
  rfl

theorem configMacVidStr_hex : ∀ digit ∈ configMacVidStr, IsHex digit := by decide +kernel

theorem mac_hex (rand : Nat) :
    ∀ c ∈ (configMacVidStr ++ printHex 6 (rand &&& 0xffffff)).map toupper, IsHex c := by
  intro c member
  obtain ⟨digit, here, rfl⟩ := List.mem_map.mp member
  apply isHex_toupper
  rcases List.mem_append.mp here with vid | nid
  · exact configMacVidStr_hex digit vid
  · exact hexValue_of_mem_printHex nid

theorem mac_upper (rand : Nat) :
    ((configMacVidStr ++ printHex 6 (rand &&& 0xffffff)).map toupper).map toupper =
      (configMacVidStr ++ printHex 6 (rand &&& 0xffffff)).map toupper := by
  rw [List.map_map]
  apply List.map_congr_left
  intro c member
  apply toupper_toupper
  rcases List.mem_append.mp member with vid | nid
  · exact configMacVidStr_hex c vid
  · exact hexValue_of_mem_printHex nid

/-- A default has no NUL, and its field takes it and gives it back. -/
structure Default (field : MnfField) (text : List UInt8) : Prop where
  nonzero : ∀ c ∈ text, c ≠ 0
  suitable : if field.binary then text.length = field.length * 2 ∧ ∀ c ∈ text, IsHex c
    else text.length ≤ field.length ∧ ∀ c ∈ text, c < 0x80
  canonical_eq : canonical field text = text

theorem ofBuffer_text {beyond : Memory UInt8} (nonzero : ∀ c ∈ text, c ≠ 0) :
    (CString.ofBuffer text beyond).text = text := by
  rw [CString.ofBuffer]
  apply List.takeWhile_eq_self_iff.mpr
  intro c member
  simpa using nonzero c member

/-- What is stored for a default reads as the default. -/
theorem Default.stored (default : Default field text) (beyond : Memory UInt8) :
    ∃ new, (mnfStrToField field (CString.ofBuffer text beyond)).bytes = some new ∧
      new.length = field.length ∧ mnfFieldToStr field new = text := by
  have same : (CString.ofBuffer text beyond).text = text := ofBuffer_text default.nonzero
  have suitable := default.suitable
  have ordered : ∀ bytes, (applyMnfOrder field bytes).length = bytes.length := by
    intro bytes
    unfold applyMnfOrder
    split <;> simp
  by_cases binary : field.binary = true
  · rw [if_pos binary] at suitable
    obtain ⟨taken, -⟩ := @mnfStrToField_digits field (CString.ofBuffer text beyond) binary
      (by rw [same]; exact suitable.1) (by rw [same]; exact suitable.2)
    rw [same] at taken
    refine ⟨_, taken, ?_, ?_⟩
    · rw [ordered, unhex_length]
      omega
    · rw [mnfFieldToStr_binary binary, binToHexstr_unhex (by omega) suitable.2]
      simpa [canonical, binary] using default.canonical_eq
  · rw [if_neg binary] at suitable
    rw [mnfStrToField_text binary, same, List.take_of_length_le suitable.1]
    refine ⟨_, rfl, ?_, ?_⟩
    · rw [ordered, filled, List.length_append, List.length_replicate]
      omega
    · rw [mnfFieldToStr_text binary, takeWhile_filled _ suitable.2]

/-- Every default passes the check of its own field. -/
theorem default_valid (member : field ∈ mnfFields board) (checked : field.restoreFunc ≠ .clear)
    (rand : Nat) (old : CString) :
    Default field (restoreFunc board rand field old).2 ∧
      ¬ TextInvalid board field (restoreFunc board rand field old).2 := by
  have table := tabulated member
  unfold restoreFunc TextInvalid
  cases kind : field.restoreFunc with
  | restoreMac =>
      obtain ⟨binary, length⟩ := table.mac kind
      refine ⟨⟨?_, ?_, ?_⟩, ?_⟩
      · intro c here
        have hexNonzero : ∀ c, IsHex c → c ≠ 0 := by
          apply forall_byte
          decide
        exact hexNonzero c (mac_hex rand c here)
      · rw [if_pos binary, length]
        exact ⟨mac_length rand, mac_hex rand⟩
      · rw [canonical, if_pos binary]
        exact mac_upper rand
      · rw [not_not]
        have upper : configMacVidStr.map toupper = configMacVidStr := by decide
        dsimp only [restoreMac]
        rw [List.map_append, upper]
        exact List.prefix_append ..
  | restoreName =>
      obtain ⟨plain, short⟩ := table.name kind
      have nameAscii : ∀ c ∈ deviceModelName board, c ≠ 0 ∧ c < 0x80 := by
        cases board <;> decide +kernel
      have textAscii : ∀ c ∈ (restoreName board field old).2, c ≠ 0 ∧ c < 0x80 := by
        intro c here
        rcases List.mem_append.mp here with name | zero
        · exact nameAscii c name
        · rw [List.eq_of_mem_replicate zero]
          decide
      refine ⟨⟨fun c here => (textAscii c here).1, ?_, ?_⟩, ?_⟩
      · rw [if_neg (by simp [plain])]
        refine ⟨?_, fun c here => (textAscii c here).2⟩
        simp only [restoreName, List.length_append, List.length_replicate]
        omega
      · rw [canonical, if_neg (by simp [plain])]
      · rw [not_not]
        exact List.prefix_append ..
  | restoreNum =>
      have plain := table.num kind
      have zeros : ∀ c ∈ (restoreNum field old).2, c = 0x30 := fun c => List.eq_of_mem_replicate
      refine ⟨⟨?_, ?_, ?_⟩, ?_⟩
      · intro c here
        rw [zeros c here]
        decide
      · rw [if_neg (by simp [plain])]
        refine ⟨by simp [restoreNum], ?_⟩
        intro c here
        rw [zeros c here]
        decide
      · rw [canonical, if_neg (by simp [plain])]
      · rw [not_not]
        refine ⟨by simp [restoreNum], ?_⟩
        intro c here
        rw [zeros c (List.mem_of_mem_take here)]
        decide
  | clear => exact absurd kind checked

/-! ## The fields written -/

theorem replacement_kept (unforced : flags.force = false) (valid : ¬ JudgedInvalid board flash field) :
    replacement board input flags flash field = none := by
  rw [replacement, if_neg]
  rintro (invalid | forced)
  · exact valid (judgedInvalid_iff.mp invalid)
  · rw [unforced] at forced
    cases forced

theorem replacement_invalid (member : field ∈ mnfFields board)
    (invalid : JudgedInvalid board flash field) :
    ∃ new, replacement board input flags flash field = some new ∧ new.length = field.length ∧
      ¬ TextInvalid board field ((mnfFieldToStr field new).takeWhile (· ≠ 0)) := by
  have checked : field.restoreFunc ≠ .clear := by
    intro kind
    unfold JudgedInvalid TextInvalid at invalid
    rw [kind] at invalid
    exact invalid
  obtain ⟨default, valid⟩ :=
    default_valid member checked input.rand (oldText input flash field)
  obtain ⟨new, taken, length, back⟩ := default.stored input.stale
  have plain := @ofBuffer_text _ input.stale default.nonzero
  rw [CString.ofBuffer] at plain
  refine ⟨new, ?_, length, ?_⟩
  · rw [replacement, if_pos (Or.inl (judgedInvalid_iff.mpr invalid)), taken]
  · rw [back]
    dsimp only at plain
    rwa [plain]

theorem replacement_length (member : field ∈ mnfFields board) (unforced : flags.force = false)
    {new : List UInt8} (written : replacement board input flags flash field = some new) :
    JudgedInvalid board flash field ∧ new.length = field.length := by
  by_cases invalid : JudgedInvalid board flash field
  · obtain ⟨default, same, length, -⟩ := replacement_invalid member invalid
    rw [written] at same
    cases same
    exact ⟨invalid, length⟩
  · rw [replacement_kept unforced invalid] at written
    cases written

def repairs (board : Board) (input : RepairInput) (flags : MnfCmdFlags) (flash : Memory UInt8)
    (fields : List MnfField) : List (Nat × List UInt8) :=
  fields.filterMap fun field =>
    (replacement board input flags flash field).map fun new => (field.offset, new)

theorem repairFields_eq (fields : List MnfField) :
    fields.foldl (mnfCmdRepairField board input flags flash) cache =
      storeAll cache (repairs board input flags flash fields) := by
  induction fields generalizing cache with
  | nil => rfl
  | cons field rest ih =>
      unfold repairs at ih ⊢
      rw [List.foldl_cons, ih, mnfCmdRepairField, List.filterMap_cons]
      cases replacement board input flags flash field with
      | none => rfl
      | some new => rfl

def FieldsApart (first second : MnfField) : Prop :=
  first.offset + first.length ≤ second.offset ∨ second.offset + second.length ≤ first.offset

instance (first second : MnfField) : Decidable (FieldsApart first second) :=
  inferInstanceAs (Decidable (_ ∨ _))

instance : Std.Symm FieldsApart where
  symm := fun _ _ => Or.symm

theorem fields_apart (board : Board) : (mnfFields board).Pairwise FieldsApart := by
  cases board <;> decide

theorem fields_inside (member : field ∈ mnfFields board) :
    field.offset + field.length ≤ mnfInfoSize := by
  have each : ∀ field ∈ mnfFields board, field.offset + field.length ≤ mnfInfoSize := by
    cases board <;> decide
  exact each field member

theorem mem_repairs {write : Nat × List UInt8} (unforced : flags.force = false)
    (member : write ∈ repairs board input flags flash (mnfFields board)) :
    ∃ field ∈ mnfFields board, replacement board input flags flash field = some write.2 ∧
      write.1 = field.offset ∧ write.2.length = field.length := by
  obtain ⟨field, listed, made⟩ := List.mem_filterMap.mp member
  obtain ⟨new, written, rfl⟩ := Option.map_eq_some_iff.mp made
  exact ⟨field, listed, written, rfl, (replacement_length listed unforced written).2⟩

theorem repairs_apart (unforced : flags.force = false) :
    (repairs board input flags flash (mnfFields board)).Pairwise fun first second =>
      first.1 + first.2.length ≤ second.1 ∨ second.1 + second.2.length ≤ first.1 := by
  apply List.Pairwise.filterMap _ _ (List.Pairwise.and_mem.mp (fields_apart board))
  rintro field another ⟨listed, listed', apart⟩ write made write' made'
  obtain ⟨new, written, rfl⟩ := Option.map_eq_some_iff.mp made
  obtain ⟨new', written', rfl⟩ := Option.map_eq_some_iff.mp made'
  rw [(replacement_length listed unforced written).2,
    (replacement_length listed' unforced written').2]
  exact apart

/-! ## The block written back -/

theorem finalize_eq : mnfFlashWriteFinalize flash cache =
    store (flashErase flash (offsetMnfInfo / sectorSize)) offsetMnfInfo (load cache 0 mnfInfoSize) := by
  have place : flashOffset (CFG_FLASH_BASE + 0x20000) = offsetMnfInfo := by decide
  have aligned : Aligned (flashOffset (CFG_FLASH_BASE + 0x20000)) (0x10000 : UInt32).toNat := by
    decide
  have addressable : Addressable (flashOffset (CFG_FLASH_BASE + 0x20000))
      (0x10000 : UInt32).toNat := Or.inr (by decide)
  have erased : Erased (flashErase flash (offsetMnfInfo / sectorSize))
      (flashOffset (CFG_FLASH_BASE + 0x20000)) (0x10000 : UInt32).toNat := by
    intro index inside
    have below : index < 0x10000 := inside
    rw [place, flashErase, if_pos]
    unfold offsetMnfInfo sectorSize
    omega
  rw [mnfFlashWriteFinalize, programAll_writeBuff aligned addressable erased, place]
  rfl

theorem finalize_inside {index : Nat} (inside : index < mnfInfoSize) :
    mnfFlashWriteFinalize flash cache (offsetMnfInfo + index) = cache index := by
  have within : index < (load cache 0 mnfInfoSize).length := by rwa [load_length]
  have found : (load cache 0 mnfInfoSize)[index]? = some (cache index) := by
    rw [load_getElem?, if_pos inside, Nat.zero_add]
  rw [finalize_eq, store_inside within]
  exact (List.getElem?_eq_some_iff.mp found).2

theorem finalize_outside {address : Nat}
    (outside : address < offsetMnfInfo ∨ offsetMnfInfo + mnfInfoSize ≤ address) :
    mnfFlashWriteFinalize flash cache address = flash address := by
  rw [finalize_eq, store_outside (by rwa [load_length]), flashErase, if_neg]
  unfold offsetMnfInfo sectorSize mnfInfoSize at *
  omega

theorem mnfFlashRead_finalize (member : field ∈ mnfFields board) :
    mnfFlashRead (mnfFlashWriteFinalize flash cache) field = load cache field.offset field.length := by
  have fits := fields_inside member
  apply List.map_congr_left
  intro index below
  rw [Nat.add_assoc]
  exact finalize_inside (by have := List.mem_range.mp below; omega)

theorem finalize_unchanged : mnfFlashWriteFinalize flash (mnfFlashWriteInit flash) = flash := by
  funext address
  by_cases inside : offsetMnfInfo ≤ address ∧ address < offsetMnfInfo + mnfInfoSize
  · obtain ⟨index, rfl⟩ := Nat.exists_eq_add_of_le inside.1
    exact finalize_inside (by omega)
  · exact finalize_outside (by omega)

/-! ## The command -/

theorem unforced_of_parse {argv : List (List UInt8)} (absent : ascii "FORCE" ∉ argv)
    (parsed : mnfCmdParseFlags argv = some flags) : flags.force = false := by
  induction argv generalizing flags with
  | nil => cases parsed; rfl
  | cons name rest ih =>
      obtain ⟨other, later⟩ := not_or.mp (List.mem_cons.not.mp absent)
      rw [mnfCmdParseFlags] at parsed
      split at parsed
      · obtain ⟨flags', tail, rfl⟩ := Option.map_eq_some_iff.mp parsed
        have tailUnforced := ih later tail
        exact tailUnforced
      · rw [if_neg fun same => other same.symm] at parsed
        cases parsed

/-- A run that reports an error has not written. -/
theorem doRepair_failed (failed : (doRepair board input flash).1 = false) :
    (doRepair board input flash).2 = flash := by
  unfold doRepair at failed ⊢
  cases parsed : mnfCmdParseFlags input.argv with
  | none => rfl
  | some flags =>
      rw [parsed] at failed
      dsimp only at failed ⊢
      split
      · rfl
      · rename_i confirmed
        rw [if_neg confirmed] at failed
        cases failed

theorem doRepair_completed (absent : ascii "FORCE" ∉ input.argv)
    (done : (doRepair board input flash).1 = true) :
    ∃ flags, flags.force = false ∧ (doRepair board input flash).2 =
      mnfFlashWriteFinalize flash (storeAll (mnfFlashWriteInit flash)
        (repairs board input flags flash (mnfFields board))) := by
  unfold doRepair at done ⊢
  cases parsed : mnfCmdParseFlags input.argv with
  | none =>
      rw [parsed] at done
      cases done
  | some flags =>
      rw [parsed] at done
      refine ⟨flags, unforced_of_parse absent parsed, ?_⟩
      dsimp only at done ⊢
      split
      · rename_i aborted
        rw [if_pos aborted] at done
        cases done
      · rw [repairFields_eq]

/-- Addresses of a field in the flash. -/
def InField (field : MnfField) (address : Nat) : Prop :=
  offsetMnfInfo + field.offset ≤ address ∧ address < offsetMnfInfo + field.offset + field.length

section

variable (unforced : flags.force = false)
include unforced

theorem repaired_elsewhere {address : Nat}
    (changed : mnfFlashWriteFinalize flash (storeAll (mnfFlashWriteInit flash)
      (repairs board input flags flash (mnfFields board))) address ≠ flash address) :
    ∃ field ∈ mnfFields board, JudgedInvalid board flash field ∧ InField field address := by
  by_contra none
  apply changed
  by_cases inside : offsetMnfInfo ≤ address ∧ address < offsetMnfInfo + mnfInfoSize
  · obtain ⟨index, rfl⟩ := Nat.exists_eq_add_of_le inside.1
    rw [finalize_inside (by omega)]
    apply storeAll_elsewhere
    intro write member
    obtain ⟨field, listed, written, start, length⟩ := mem_repairs unforced member
    by_contra within
    apply none
    refine ⟨field, listed, (replacement_length listed unforced written).1, ?_⟩
    unfold InField
    omega
  · exact finalize_outside (by omega)

theorem repaired_read (member : field ∈ mnfFields board) :
    mnfFlashRead (mnfFlashWriteFinalize flash (storeAll (mnfFlashWriteInit flash)
      (repairs board input flags flash (mnfFields board)))) field =
      (replacement board input flags flash field).getD (mnfFlashRead flash field) := by
  rw [mnfFlashRead_finalize member]
  cases written : replacement board input flags flash field with
  | some new =>
      have listed : (field.offset, new) ∈ repairs board input flags flash (mnfFields board) :=
        List.mem_filterMap.mpr ⟨field, member, by rw [written]; rfl⟩
      have kept := @load_storeAll _ (mnfFlashWriteInit flash) _ _ (repairs_apart unforced) listed
      rw [← (replacement_length member unforced written).2]
      exact kept
  | none =>
      rw [Option.getD_none, load_storeAll_apart]
      · apply List.map_congr_left
        intro index _
        rw [mnfFlashWriteInit, Nat.add_assoc]
      · intro write listed
        obtain ⟨another, listed', written', start, length⟩ := mem_repairs unforced listed
        rw [start, length]
        have different : field ≠ another := by
          rintro rfl
          rw [written] at written'
          cases written'
        exact (fields_apart board).forall member listed' different

theorem repaired_valid (member : field ∈ mnfFields board) :
    ¬ JudgedInvalid board (mnfFlashWriteFinalize flash (storeAll (mnfFlashWriteInit flash)
      (repairs board input flags flash (mnfFields board)))) field := by
  rw [JudgedInvalid, repaired_read unforced member]
  by_cases invalid : JudgedInvalid board flash field
  · obtain ⟨new, written, -, valid⟩ := @replacement_invalid board input flags flash field member
      invalid
    rwa [written]
  · rw [replacement_kept unforced invalid]
    exact invalid

end

theorem repairs_nil (unforced : flags.force = false)
    (valid : ∀ field ∈ mnfFields board, ¬ JudgedInvalid board flash field) :
    repairs board input flags flash (mnfFields board) = [] := by
  apply List.filterMap_eq_nil_iff.mpr
  intro field member
  rw [replacement_kept unforced (valid field member)]
  rfl

end Rut9xx.Mnf
