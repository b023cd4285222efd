import Rut9xx.Data.BlockRewrite
import Rut9xx.Trx.Builder

namespace Rut9xx.Trx

open Data

/-! # Where the input files of `trx` stay -/

/-- An input file with the offset it is put at, and the slot of the table that records it. -/
structure Placed where
  offset : UInt32
  data : List UInt8
  slot : Option Nat

def Placed.behind (file : Placed) : Nat := file.offset.toNat + file.data.length

/-- The builder with what it was asked for so far. -/
structure Session where
  builder : Builder
  placed : List Placed
  magic : UInt32

def Session.start (memory : Memory UInt8) : Session := ⟨Builder.start memory, [], TRX_MAGIC⟩

def placedBy (state : Builder) : BuildOption → List Placed
  | .file kind (some data) => [⟨state.curLen, data, if kind = .f then some state.i else none⟩]
  | _ => []

def magicBy (magic : UInt32) : BuildOption → UInt32
  | .M (some number) => number.toUInt32
  | _ => magic

def sessionStep (session : Session) (option : BuildOption) : Option Session :=
  (step session.builder option).map fun builder =>
    ⟨builder, session.placed ++ placedBy session.builder option, magicBy session.magic option⟩

/-- A header of version 1 has three offsets, one of version 2 has four. -/
def slots (version : UInt32) : Nat := if version = 2 then 4 else 3

/-- The header and the bytes of the files are in front of a place. -/
def Session.Below (session : Session) (place : Nat) : Prop :=
  16 + 4 * slots session.builder.trxVersion ≤ place ∧
    ∀ file ∈ session.placed, file.data ≠ [] → file.behind ≤ place

/-! ## What each option must stay clear of -/

/-- There is room for so many bytes more, and their end is below 2^32. -/
def Fits (count : Nat) (state : Builder) : Prop :=
  (count = 0 ∨ state.curLen.toNat + count ≤ state.maxlen.toNat) ∧ state.curLen.toNat + count < 2 ^ 32

def Careful (session : Session) : BuildOption → Prop
  | .file kind data =>
      (kind = .f → session.builder.i < slots session.builder.trxVersion) ∧
        ∀ bytes, data = some bytes → Fits (bytes.length + roundFile bytes.length) session.builder
  | .m number _ => ∀ value, number = some value → session.Below (roundMaxlen value).toNat
  | .a number =>
      ∀ value, number = some value → Fits (alignCount value session.builder.curLen) session.builder
  | .b number =>
      ∀ value, number = some value → session.builder.curLen.toNat ≤ value.toNat →
        Fits (value.toNat - session.builder.curLen.toNat) session.builder
  | .x number =>
      ∀ value, number = some value →
        if value < 0 then session.Below (session.builder.curLen.toNat + value.toInt).toNat
        else Fits value.toInt.toNat session.builder
  | _ => True

/-- What is done behind the options: padding to a page, and in version 2 a look at the fourth file. -/
structure CarefulEnd (state : Builder) : Prop where
  pad : padCount state.curLen = 0 ∨
    state.curLen.toNat + padCount state.curLen ≤ state.maxlen.toNat
  header : state.trxVersion = 2 → 12 ≤ (offset3 state.buf).toNat ∧
    (offset3 state.buf).toNat + 32 ≤ state.maxlen.toNat

/-! ## What is kept -/

structure Intact (session : Session) : Prop where
  inside : session.builder.buf.inside = true
  size : session.builder.buf.size = session.builder.maxlen.toNat
  roomy : 0x1000 ≤ session.builder.buf.size
  slots : session.builder.i ≤ Trx.slots session.builder.trxVersion
  current : session.Below session.builder.curLen.toNat
  within : session.Below session.builder.buf.size
  magic : load32 session.builder.buf 0 = session.magic
  behindHeader : ∀ file ∈ session.placed, file.data ≠ [] →
    16 + 4 * Trx.slots session.builder.trxVersion ≤ file.offset.toNat
  holds : ∀ file ∈ session.placed, Holds session.builder.buf.bytes file.offset.toNat file.data
  recorded : ∀ file ∈ session.placed, ∀ slot, file.slot = some slot →
    slot < session.builder.i ∧ load32 session.builder.buf (16 + 4 * slot) = file.offset

def Session.put (session : Session) (start : Nat) (data : List UInt8) : Session :=
  { session with builder := { session.builder with buf := session.builder.buf.put start data } }

def Session.move (session : Session) (curLen : UInt32) : Session :=
  { session with builder := { session.builder with curLen } }

/-- A stretch without bytes of the magic, of a recorded offset or of a file. -/
structure Session.Spared (session : Session) (start count : Nat) : Prop where
  magic : 4 ≤ start
  recorded : 16 + 4 * session.builder.i ≤ start ∨ start + count ≤ 16
  files : ∀ file ∈ session.placed, file.data ≠ [] →
    file.behind ≤ start ∨ start + count ≤ file.offset.toNat

variable {session next : Session} {state final : Builder} {buf : Guarded} {start count place : Nat}
  {data : List UInt8} {word : UInt32} {option : BuildOption} {memory : Memory UInt8}

theorem slots_le : slots word ≤ 4 := by
  rw [slots]
  split <;> omega

theorem load32_put : load32 (buf.put place (le32 word)) place = word := by
  have whole : load (store buf.bytes place (le32 word)) place 4 = le32 word := load_store
  have here := le32At_here word []
  rw [List.append_nil] at here
  rw [load32, Guarded.put_bytes, whole, here]

theorem load32_put_apart (apart : place + 4 ≤ start ∨ start + data.length ≤ place) :
    load32 (buf.put start data) place = load32 buf place := by
  rw [load32, load32, Guarded.put_bytes, load_store_apart apart]

theorem Session.Below.spared (below : session.Below start)
    (slots : session.builder.i ≤ Trx.slots session.builder.trxVersion) :
    session.Spared start count where
  magic := by
    have := below.1
    omega
  recorded := by
    have := below.1
    omega
  files := fun file member some' => Or.inl (below.2 file member some')

/-- A write to a stretch that is spared. -/
theorem Intact.put (intact : Intact session) (spared : session.Spared start data.length)
    (fits : data.length = 0 ∨ start + data.length ≤ session.builder.buf.size) :
    Intact (session.put start data) where
  inside := Guarded.put_inside_iff.mpr ⟨intact.inside, fits⟩
  size := intact.size
  roomy := intact.roomy
  slots := intact.slots
  current := intact.current
  within := intact.within
  magic := (load32_put_apart (Or.inl spared.magic)).trans intact.magic
  behindHeader := intact.behindHeader
  holds := by
    intro file member
    by_cases none' : file.data = []
    · rw [none']
      rfl
    · exact (intact.holds file member).store_apart (spared.files file member none')
  recorded := by
    intro file member slot recorded
    obtain ⟨below, here⟩ := intact.recorded file member slot recorded
    refine ⟨below, (load32_put_apart ?_).trans here⟩
    rcases spared.recorded with above | front
    · exact Or.inl (by omega)
    · exact Or.inr (by omega)

/-- The running length changes to one that all files are below. -/
theorem Intact.move (intact : Intact session) (below : session.Below word.toNat) :
    Intact (session.move word) :=
  { intact with current := below }

theorem Session.Below.le (below : session.Below start) (more : start ≤ place) : session.Below place :=
  ⟨Nat.le_trans below.1 more, fun file member some' => Nat.le_trans (below.2 file member some') more⟩

theorem add_toNat (small : word.toNat + count < 2 ^ 32) :
    (word + UInt32.ofNat count).toNat = word.toNat + count := by
  rw [UInt32.toNat_add, UInt32.toNat_ofNat', Nat.add_mod_mod, Nat.mod_eq_of_lt small]

theorem Intact.fill (intact : Intact session) (fits : Fits count session.builder) :
    Intact { session with builder := fill count session.builder } := by
  have spared : session.Spared session.builder.curLen.toNat (List.replicate count (0 : UInt8)).length :=
    intact.current.spared intact.slots
  have room : (List.replicate count (0 : UInt8)).length = 0 ∨ session.builder.curLen.toNat +
      (List.replicate count (0 : UInt8)).length ≤ session.builder.buf.size := by
    rw [List.length_replicate, intact.size]
    exact fits.1
  refine (intact.put spared room).move ?_
  rw [add_toNat fits.2]
  exact intact.current.le (Nat.le_add_right _ _)

theorem Intact.record (intact : Intact session)
    (room : session.builder.i < Trx.slots session.builder.trxVersion) :
    Intact { session with builder := recordOffset session.builder } := by
  have table := @slots_le session.builder.trxVersion
  have spared : session.Spared (16 + 4 * session.builder.i) (le32 session.builder.curLen).length := by
    rw [le32_length]
    refine ⟨by omega, Or.inl (Nat.le_refl _), fun file member some' => Or.inr ?_⟩
    have := intact.behindHeader file member some'
    omega
  have stored := intact.put spared (Or.inr (by have := intact.roomy; rw [le32_length]; omega))
  refine { stored with slots := room, recorded := ?_ }
  intro file member slot recorded
  obtain ⟨below, here⟩ := stored.recorded file member slot recorded
  exact ⟨Nat.lt_succ_of_lt below, here⟩

theorem recordOffset_load32 : load32 (recordOffset state).buf (16 + 4 * state.i) = state.curLen :=
  load32_put

/-- A file that is there can be counted as an input. -/
theorem Intact.placed (intact : Intact session) {file : Placed}
    (behindHeader : file.data ≠ [] →
      16 + 4 * Trx.slots session.builder.trxVersion ≤ file.offset.toNat)
    (current : file.data ≠ [] → file.behind ≤ session.builder.curLen.toNat)
    (within : file.data ≠ [] → file.behind ≤ session.builder.buf.size)
    (holds : Holds session.builder.buf.bytes file.offset.toNat file.data)
    (recorded : ∀ slot, file.slot = some slot →
      slot < session.builder.i ∧ load32 session.builder.buf (16 + 4 * slot) = file.offset) :
    Intact { session with placed := session.placed ++ [file] } where
  inside := intact.inside
  size := intact.size
  roomy := intact.roomy
  slots := intact.slots
  current := ⟨intact.current.1,
    List.forall_mem_append.mpr ⟨intact.current.2, List.forall_mem_singleton.mpr current⟩⟩
  within := ⟨intact.within.1,
    List.forall_mem_append.mpr ⟨intact.within.2, List.forall_mem_singleton.mpr within⟩⟩
  magic := intact.magic
  behindHeader :=
    List.forall_mem_append.mpr ⟨intact.behindHeader, List.forall_mem_singleton.mpr behindHeader⟩
  holds := List.forall_mem_append.mpr ⟨intact.holds, List.forall_mem_singleton.mpr holds⟩
  recorded := List.forall_mem_append.mpr ⟨intact.recorded, List.forall_mem_singleton.mpr recorded⟩

theorem Intact.readInput (intact : Intact session) {slot : Option Nat} {after : Builder}
    (fits : Fits (data.length + roundFile data.length) session.builder)
    (recorded : ∀ index, slot = some index → index < session.builder.i ∧
      load32 session.builder.buf (16 + 4 * index) = session.builder.curLen)
    (read : readInput data session.builder = some after) :
    Intact ⟨after, session.placed ++ [⟨session.builder.curLen, data, slot⟩], session.magic⟩ := by
  rw [Trx.readInput] at read
  split at read
  · cases read
    have current := intact.current
    have bounds := fits.1
    have size := intact.size
    have stored := intact.put (current.spared intact.slots)
      (show data.length = 0 ∨ session.builder.curLen.toNat + data.length ≤ _ by rw [size]; omega)
    have behind : (session.put session.builder.curLen.toNat data).Below
        (session.builder.curLen.toNat + data.length) := current.le (Nat.le_add_right _ _)
    have room : (List.replicate (roundFile data.length) (0 : UInt8)).length = 0 ∨
        session.builder.curLen.toNat + data.length +
          (List.replicate (roundFile data.length) (0 : UInt8)).length ≤ session.builder.buf.size := by
      rw [List.length_replicate, size]
      omega
    have rounded := stored.put (behind.spared intact.slots) room
    have moved := rounded.move (show Session.Below _ (session.builder.curLen +
        UInt32.ofNat (data.length + roundFile data.length)).toNat by
      rw [add_toNat fits.2]
      exact current.le (Nat.le_add_right _ _))
    have placed := @Intact.placed _ moved ⟨session.builder.curLen, data, slot⟩ ?_ ?_ ?_ ?_ ?_
    · exact { placed with }
    · exact fun _ => current.1
    · intro _
      show session.builder.curLen.toNat + data.length ≤ (session.builder.curLen +
        UInt32.ofNat (data.length + roundFile data.length)).toNat
      rw [add_toNat fits.2]
      omega
    · intro some'
      have := List.length_pos_iff.mpr some'
      show session.builder.curLen.toNat + data.length ≤ session.builder.buf.size
      rw [size]
      have : 0 < data.length := this
      omega
    · exact holds_store.store_apart (Or.inl (Nat.le_refl _))
    · intro index given
      obtain ⟨below, here⟩ := recorded index given
      refine ⟨below, ?_⟩
      have table := @slots_le session.builder.trxVersion
      have header := current.1
      have slots := intact.slots
      have front : 16 + 4 * index + 4 ≤ session.builder.curLen.toNat := by omega
      exact (load32_put_apart (Or.inl (by omega))).trans ((load32_put_apart (Or.inl front)).trans here)
  · cases read

theorem Intact.file (intact : Intact session) {kind : FileKind} {given : Option (List UInt8)}
    (careful : Careful session (.file kind given))
    (stepped : sessionStep session (.file kind given) = some next) : Intact next := by
  obtain ⟨after, opened, rfl⟩ := Option.map_eq_some_iff.mp stepped
  obtain ⟨data, rfl, read⟩ := Option.bind_eq_some_iff.mp opened
  have fits := careful.2 data rfl
  cases kind with
  | F =>
      have marked : Intact { session with builder := { session.builder with
        fsmark := session.builder.curLen } } := { intact with }
      exact marked.readInput fits (fun _ none' => by cases none') read
  | A => exact intact.readInput fits (fun _ none' => by cases none') read
  | f =>
      refine (intact.record (careful.1 rfl)).readInput fits ?_ read
      rintro index ⟨⟩
      exact ⟨Nat.lt_succ_self _, recordOffset_load32⟩

theorem Intact.maxlen (intact : Intact session) {value : UInt64} {fresh : Option (Memory UInt8)}
    {after : Builder} (below : session.Below (roundMaxlen value).toNat)
    (changed : maxlenOption value fresh session.builder = some after) :
    Intact ⟨after, session.placed, session.magic⟩ := by
  rw [maxlenOption] at changed
  split at changed
  · cases changed
  · rename_i large
    obtain ⟨behindIt, -, rfl⟩ := Option.map_eq_some_iff.mp changed
    have roomy : 0x1000 ≤ (roundMaxlen value).toNat := by
      rw [UInt64.lt_iff_toNat_lt] at large
      exact Nat.not_lt.mp large
    have kept (place : Nat) (inside : place < session.builder.buf.size)
        (inside' : place < (roundMaxlen value).toNat) :
        (if place < min session.builder.buf.size (roundMaxlen value).toNat then
          session.builder.buf.bytes place else behindIt place) = session.builder.buf.bytes place :=
      if_pos (Nat.lt_min.mpr ⟨inside, inside'⟩)
    have table := @slots_le session.builder.trxVersion
    have slots := intact.slots
    have before := intact.roomy
    have word (place : Nat) (front : place + 4 ≤ 32) :
        load (fun place => if place < min session.builder.buf.size (roundMaxlen value).toNat then
          session.builder.buf.bytes place else behindIt place) place 4 =
        load session.builder.buf.bytes place 4 :=
      load_congr fun index inside => kept _ (by omega) (by omega)
    refine { intact with size := rfl, roomy := roomy, within := below, magic := ?_, holds := ?_, recorded := ?_ }
    · rw [load32, word 0 (by omega)]
      exact intact.magic
    · intro file member
      refine (load_congr fun index inside => kept _ ?_ ?_).trans (intact.holds file member)
      · have := intact.within.2 file member (List.length_pos_iff.mp (Nat.zero_lt_of_lt inside))
        rw [Placed.behind] at this
        omega
      · have := below.2 file member (List.length_pos_iff.mp (Nat.zero_lt_of_lt inside))
        rw [Placed.behind] at this
        omega
    · intro file member slot given
      obtain ⟨recorded, here⟩ := intact.recorded file member slot given
      refine ⟨recorded, ?_⟩
      rw [load32, word _ (by omega)]
      exact here

/-- An option without a file changes no more than the builder and the magic. -/
theorem sessionStep_plain (plain : placedBy session.builder option = [])
    (stepped : sessionStep session option = some next) :
    ∃ after, step session.builder option = some after ∧
      next = ⟨after, session.placed, magicBy session.magic option⟩ := by
  obtain ⟨after, taken, rfl⟩ := Option.map_eq_some_iff.mp stepped
  rw [plain, List.append_nil]
  exact ⟨after, taken, rfl⟩

theorem Intact.two (intact : Intact session) (first : session.builder.curLen = 28) :
    Intact { session with builder := { session.builder with
      trxVersion := 2, curLen := session.builder.curLen + 4 } } := by
  have header := intact.current.1
  have few : 3 ≤ Trx.slots session.builder.trxVersion := by
    rw [Trx.slots]
    split <;> omega
  have length : (28 : UInt32).toNat = 28 := rfl
  have empty : ∀ file ∈ session.placed, file.data = [] := by
    intro file member
    by_contra some'
    have front := intact.behindHeader file member some'
    have behind := intact.current.2 file member some'
    have long := List.length_pos_iff.mpr some'
    rw [Placed.behind, first] at behind
    omega
  have none' (place : Nat) : ∀ file ∈ session.placed, file.data ≠ [] → file.behind ≤ place :=
    fun file member some' => absurd (empty file member) some'
  refine { intact with slots := ?_, current := ⟨?_, none' _⟩, within := ⟨?_, none' _⟩, behindHeader := ?_ }
  · exact Nat.le_trans intact.slots slots_le
  · show 16 + 4 * Trx.slots 2 ≤ (session.builder.curLen + 4).toNat
    rw [first]
    decide
  · exact Nat.le_trans (show 16 + 4 * Trx.slots 2 ≤ 0x1000 by decide) intact.roomy
  · intro file member some'
    exact absurd (empty file member) some'

/-- `-x` with a negative offset. -/
theorem Intact.back (intact : Intact session) {value : Int64} (negative : value < 0)
    (below : session.Below (session.builder.curLen.toNat + value.toInt).toNat) :
    Intact { session with builder :=
      if -value > Int64.ofNat session.builder.curLen.toNat then { session.builder with curLen := 0 }
      else { session.builder with curLen := session.builder.curLen + UInt32.ofInt value.toInt } } := by
  have header := below.1
  have small := session.builder.curLen.toNat_lt
  have less : value.toInt < 0 := Int64.lt_iff_toInt_lt.mp negative
  have current : (Int64.ofNat session.builder.curLen.toNat).toInt = session.builder.curLen.toNat :=
    Int64.toInt_ofNat_of_lt (by omega)
  have opposite : (-value).toInt = -value.toInt := by
    rw [Int64.toInt_neg, Int.bmod_eq_of_le (by omega) (by omega)]
  rw [if_neg]
  · refine intact.move ?_
    have sum : (session.builder.curLen + UInt32.ofInt value.toInt).toNat =
        (session.builder.curLen.toNat + value.toInt).toNat := by
      rw [UInt32.toNat_add, UInt32.ofInt, UInt32.toNat_ofNat']
      omega
    rw [sum]
    exact below
  · intro more
    have := Int64.lt_iff_toInt_lt.mp more
    rw [current, opposite] at this
    omega

theorem Intact.setMagic (intact : Intact session) {value : UInt32} :
    Intact { session with
      builder := { session.builder with buf := session.builder.buf.put 0 (le32 value) }
      magic := value } := by
  have roomy := intact.roomy
  refine { intact with inside := ?_, magic := load32_put, holds := ?_, recorded := ?_ }
  · exact Guarded.put_inside_iff.mpr ⟨intact.inside, Or.inr (by rw [le32_length]; omega)⟩
  · intro file member
    by_cases none' : file.data = []
    · rw [none']
      rfl
    · have front := intact.behindHeader file member none'
      have apart : 0 + (le32 value).length ≤ file.offset.toNat := by
        rw [le32_length]
        omega
      exact (intact.holds file member).store_apart (Or.inr apart)
  · intro file member slot given
    obtain ⟨recorded, here⟩ := intact.recorded file member slot given
    exact ⟨recorded, (load32_put_apart (Or.inr (by rw [le32_length]; omega))).trans here⟩

/-- Each option that is careful keeps what there is. -/
theorem Intact.step (intact : Intact session) (careful : Careful session option)
    (stepped : sessionStep session option = some next) : Intact next := by
  cases option with
  | file kind data => exact intact.file careful stepped
  | two =>
      obtain ⟨after, taken, rfl⟩ := sessionStep_plain rfl stepped
      cases taken
      split
      · exact intact
      · rename_i first
        exact intact.two (not_not.mp first)
  | o opened =>
      obtain ⟨after, taken, rfl⟩ := sessionStep_plain rfl stepped
      cases opened <;> cases taken
      exact intact
  | m number fresh =>
      obtain ⟨after, taken, rfl⟩ := sessionStep_plain rfl stepped
      obtain ⟨value, rfl, changed⟩ := Option.bind_eq_some_iff.mp taken
      exact intact.maxlen (careful value rfl) changed
  | a number =>
      obtain ⟨after, taken, rfl⟩ := sessionStep_plain rfl stepped
      obtain ⟨value, rfl, rfl⟩ := Option.map_eq_some_iff.mp taken
      exact intact.fill (careful value rfl)
  | b number =>
      obtain ⟨after, taken, rfl⟩ := sessionStep_plain rfl stepped
      obtain ⟨value, rfl, rfl⟩ := Option.map_eq_some_iff.mp taken
      split
      · exact intact
      · rename_i more
        rw [UInt64.lt_iff_toNat_lt, UInt32.toNat_toUInt64] at more
        exact intact.fill (careful value rfl (Nat.not_lt.mp more))
  | x number =>
      obtain ⟨after, taken, rfl⟩ := sessionStep_plain rfl stepped
      obtain ⟨value, rfl, rfl⟩ := Option.map_eq_some_iff.mp taken
      have fine := careful value rfl
      split
      · rename_i negative
        rw [if_pos negative] at fine
        exact intact.back negative fine
      · rename_i positive
        rw [if_neg positive] at fine
        exact intact.fill fine
  | M number =>
      obtain ⟨after, taken, rfl⟩ := sessionStep_plain rfl stepped
      obtain ⟨value, rfl, rfl⟩ := Option.map_eq_some_iff.mp taken
      exact intact.setMagic
  | other =>
      obtain ⟨after, taken, rfl⟩ := sessionStep_plain rfl stepped
      cases taken

theorem start_intact : Intact (Session.start memory) where
  inside := rfl
  size := rfl
  roomy := show 0x1000 ≤ TRX_MAX_LEN.toNat by decide
  slots := Nat.zero_le _
  current := ⟨show 16 + 4 * Trx.slots 1 ≤ 28 by decide, by simp [Session.start]⟩
  within := ⟨show 16 + 4 * Trx.slots 1 ≤ TRX_MAX_LEN.toNat by decide, by simp [Session.start]⟩
  magic := load32_put
  behindHeader := by simp [Session.start]
  holds := by simp [Session.start]
  recorded := by simp [Session.start]

theorem careful_intact {options : List BuildOption} (intact : Intact session)
    (careful : EveryStep sessionStep Careful session options)
    (ran : run sessionStep session options = some next) : Intact next :=
  run_keeps_fine (fun _ _ _ kept fine stepped => kept.step fine stepped) intact careful ran

/-! ## Behind the options -/

theorem padCount_fits (curLen : UInt32) : curLen.toNat + padCount curLen ≤ 2 ^ 32 := by
  have rest : (curLen &&& 0xfff).toNat = curLen.toNat % 4096 := by
    rw [UInt32.toNat_and]
    exact Nat.and_two_pow_sub_one_eq_mod curLen.toNat 12
  have small := curLen.toNat_lt
  rw [padCount]
  split
  · have less : curLen &&& 0xfff ≤ 0x1000 := by
      rw [UInt32.le_iff_toNat_le, rest]
      show _ ≤ 4096
      omega
    rw [UInt32.toNat_sub_of_le _ _ less, rest]
    show _ + (4096 - _) ≤ _
    omega
  · omega

/-- What a successful exit leaves, apart from the words of the header. -/
structure Finished (state final : Builder) : Prop where
  curLen : final.curLen = (padded state).curLen
  some : final.curLen ≠ 0
  inside : final.buf.inside = true
  kept : ∀ place, place < 4 ∨ 12 ≤ place → final.buf.bytes place = (padded state).buf.bytes place
  length : load32 final.buf 4 = headerLength (padded state)
  crc32 : load32 final.buf 8 = crc32buf (load (checkedBuf (padded state)).bytes 12
    ((headerLength (padded state)).toUInt64 - 12).toNat)

theorem writeHeader_elsewhere (apart : place < 4 ∨ 12 ≤ place) :
    (writeHeader word buf).bytes place = buf.bytes place := by
  rw [writeHeader, Guarded.put_bytes, store_outside (by rw [le32_length]; omega), Guarded.put_bytes,
    store_outside (by rw [le32_length]; omega)]

theorem writeHeader_inside (large : 12 ≤ buf.size) :
    (writeHeader word buf).inside = true ↔ buf.inside = true := by
  rw [writeHeader, Guarded.put_inside_iff, Guarded.put_inside_iff, Guarded.put_size, le32_length,
    le32_length, and_iff_left (Or.inr (by omega)), and_iff_left (Or.inr (by omega))]

theorem writeHeader_length : load32 (writeHeader word buf) 4 = word := load32_put

theorem writeHeader_crc32 : load32 (writeHeader word buf) 8 =
    crc32buf (load buf.bytes 12 (word.toUInt64 - 12).toNat) := by
  rw [writeHeader, load32_put_apart (Or.inr (by rw [le32_length])), load32_put]

theorem load32_congr {other : Guarded}
    (same : ∀ index, index < 4 → other.bytes (place + index) = buf.bytes (place + index)) :
    load32 other place = load32 buf place := by
  rw [load32, load32, load_congr same]

/-- Version 2: the flags of the `binheader` are set for the checksum only. -/
theorem restored_finished (inside : (padded state).buf.inside = true)
    (large : 0x1000 ≤ (padded state).buf.size) (second : (padded state).trxVersion = 2)
    (behind : 12 ≤ (offset3 (padded state).buf).toNat)
    (within : (offset3 (padded state).buf).toNat + 32 ≤ (padded state).buf.size)
    (some' : (padded state).curLen ≠ 0) :
    Finished state
      { padded state with
        buf := (writeHeader (headerLength (padded state)) (checkedBuf (padded state))).put
          (offset3 (writeHeader (headerLength (padded state)) (checkedBuf (padded state)))).toNat
          (load (padded state).buf.bytes (offset3 (padded state).buf).toNat 32) } := by
  have checked : checkedBuf (padded state) =
      (padded state).buf.put ((offset3 (padded state).buf).toNat + 22) (List.replicate 8 0xFF) :=
    if_pos second
  have size : (checkedBuf (padded state)).size = (padded state).buf.size := by rw [checked, Guarded.put_size]
  have elsewhere (place : Nat) (header : place < 4 ∨ 12 ≤ place)
      (apart : place < (offset3 (padded state).buf).toNat + 22 ∨
        (offset3 (padded state).buf).toNat + 30 ≤ place) :
      (writeHeader (headerLength (padded state)) (checkedBuf (padded state))).bytes place =
        (padded state).buf.bytes place := by
    rw [writeHeader_elsewhere header, checked, Guarded.put_bytes,
      store_outside (by rw [List.length_replicate]; omega)]
  have same : offset3 (writeHeader (headerLength (padded state)) (checkedBuf (padded state))) =
      offset3 (padded state).buf :=
    load32_congr fun index below => elsewhere _ (by omega) (by omega)
  rw [same]
  have marked : (checkedBuf (padded state)).inside = true := by
    rw [checked, Guarded.put_inside_iff, List.length_replicate]
    exact ⟨inside, Or.inr (by omega)⟩
  refine ⟨rfl, some', ?_, ?_, ?_, ?_⟩
  · rw [Guarded.put_inside_iff, writeHeader_inside (by omega), load_length]
    refine ⟨marked, Or.inr ?_⟩
    show _ ≤ (checkedBuf (padded state)).size
    omega
  · intro place header
    exact store_load fun apart => elsewhere place header (by omega)
  · exact (load32_put_apart (Or.inl (by omega))).trans writeHeader_length
  · exact (load32_put_apart (Or.inl (by omega))).trans writeHeader_crc32

theorem finish_cases {written : Bool} (ended : finish written state = some final) :
    (padded state).curLen ≠ 0 ∧ final =
      { padded state with
        buf :=
          if (padded state).trxVersion = 2 then
            (writeHeader (headerLength (padded state)) (checkedBuf (padded state))).put
              (offset3 (writeHeader (headerLength (padded state)) (checkedBuf (padded state)))).toNat
              (load (padded state).buf.bytes (offset3 (padded state).buf).toNat 32)
          else writeHeader (headerLength (padded state)) (checkedBuf (padded state)) } := by
  simp only [finish] at ended
  split at ended
  · cases ended
  split at ended
  · cases ended
  split at ended
  · rename_i done
    cases ended
    exact ⟨done.1, rfl⟩
  · cases ended

theorem finish_finished {written : Bool} (inside : (padded state).buf.inside = true)
    (large : 0x1000 ≤ (padded state).buf.size)
    (header : state.trxVersion = 2 → 12 ≤ (offset3 (padded state).buf).toNat ∧
      (offset3 (padded state).buf).toNat + 32 ≤ (padded state).buf.size)
    (ended : finish written state = some final) : Finished state final := by
  obtain ⟨some', rfl⟩ := finish_cases ended
  by_cases second : (padded state).trxVersion = 2
  · rw [if_pos second]
    obtain ⟨behind, within⟩ := header second
    exact restored_finished inside large second behind within some'
  · rw [if_neg second]
    have checked : checkedBuf (padded state) = (padded state).buf := if_neg second
    refine ⟨rfl, some', ?_, fun place apart => ?_, writeHeader_length, writeHeader_crc32⟩
    · rw [checked, writeHeader_inside (by omega)]
      exact inside
    · show (writeHeader _ (checkedBuf (padded state))).bytes place = _
      rw [writeHeader_elsewhere apart, checked]

theorem Intact.padded (intact : Intact session) (fits : padCount session.builder.curLen = 0 ∨
      session.builder.curLen.toNat + padCount session.builder.curLen ≤ session.builder.maxlen.toNat)
    (some' : (Trx.padded session.builder).curLen ≠ 0) :
    Intact { session with builder := Trx.padded session.builder } := by
  have table := @slots_le session.builder.trxVersion
  have spared : session.Spared 12 (le32 (session.builder.trxVersion <<< 16)).length := by
    rw [le32_length]
    refine ⟨by omega, Or.inr (Nat.le_refl _), fun file member some' => Or.inr ?_⟩
    have := intact.behindHeader file member some'
    omega
  have stored := intact.put spared (Or.inr (by have := intact.roomy; rw [le32_length]; omega))
  refine stored.fill ⟨fits, ?_⟩
  refine Nat.lt_of_le_of_ne (padCount_fits session.builder.curLen) fun wraps => some' ?_
  have whole : session.builder.curLen.toNat + padCount session.builder.curLen = 2 ^ 32 := wraps
  apply UInt32.toNat_inj.mp
  show (session.builder.curLen + UInt32.ofNat (padCount session.builder.curLen)).toNat = 0
  rw [UInt32.toNat_add, UInt32.toNat_ofNat', Nat.add_mod_mod, whole, Nat.mod_self]

/-- The output of a successful exit: the files are where the header has them, and all of the
header is what it was made. -/
structure Layout (session : Session) (final : Builder) : Prop where
  inside : final.buf.inside = true
  files : ∀ file ∈ session.placed, slice final.output file.offset.toNat file.data.length = file.data
  behindHeader : ∀ file ∈ session.placed, file.data ≠ [] →
    16 + 4 * slots session.builder.trxVersion ≤ file.offset.toNat
  recorded : ∀ file ∈ session.placed, ∀ slot, file.slot = some slot →
    slot < slots session.builder.trxVersion ∧ le32At final.output (16 + 4 * slot) = file.offset
  magic : le32At final.output 0 = session.magic
  length : le32At final.output 4 = headerLength (padded session.builder)
  crc32 : le32At final.output 8 = crc32buf (load (checkedBuf (padded session.builder)).bytes 12
    ((headerLength (padded session.builder)).toUInt64 - 12).toNat)
  version : le32At final.output 12 = session.builder.trxVersion <<< 16

theorem le32At_output (within : place + 4 ≤ state.curLen.toNat) :
    le32At state.output place = load32 state.buf place := by
  have inner := @slice_load _ state.buf.bytes 0 state.curLen.toNat place 4 within
  rw [Nat.zero_add] at inner
  rw [load32, ← inner, le32At_slice (Nat.le_refl _), Nat.add_zero, Builder.output]

theorem finished_layout (intact : Intact { session with builder := padded session.builder })
    (version : load32 (padded session.builder).buf 12 = session.builder.trxVersion <<< 16)
    (finished : Finished session.builder final) : Layout session final := by
  have whole : final.curLen.toNat = (padded session.builder).curLen.toNat := by rw [finished.curLen]
  have header : 16 + 4 * slots session.builder.trxVersion ≤ (padded session.builder).curLen.toNat :=
    intact.current.1
  have word (place : Nat) (behind : place = 0 ∨ 12 ≤ place) (within : place + 4 ≤ 16 + 4 *
      slots session.builder.trxVersion) : le32At final.output place =
        load32 (padded session.builder).buf place := by
    rw [le32At_output (by omega)]
    exact load32_congr fun index below => finished.kept _ (by omega)
  refine ⟨finished.inside, ?_, intact.behindHeader, ?_, ?_, ?_, ?_, ?_⟩
  · intro file member
    by_cases none' : file.data = []
    · rw [none']
      exact List.take_zero
    · have front := intact.behindHeader file member none'
      have behind : file.behind ≤ (padded session.builder).curLen.toNat :=
        intact.current.2 file member none'
      have start : 16 + 4 * slots session.builder.trxVersion ≤ file.offset.toNat := front
      rw [Placed.behind] at behind
      rw [Builder.output, slice_load (by omega), Nat.zero_add]
      exact (load_congr fun index below => finished.kept _ (by omega)).trans (intact.holds file member)
  · intro file member slot given
    obtain ⟨below, here⟩ := intact.recorded file member slot given
    have inTable : slot < slots session.builder.trxVersion := Nat.lt_of_lt_of_le below intact.slots
    exact ⟨inTable, (word _ (by omega) (by omega)).trans here⟩
  · rw [word 0 (by omega) (by omega)]
    exact intact.magic
  · rw [le32At_output (by omega)]
    exact finished.length
  · rw [le32At_output (by omega)]
    exact finished.crc32
  · rw [word 12 (by omega) (by omega), version]

theorem padded_load32 (within : place + 4 ≤ state.curLen.toNat) :
    load32 (padded state).buf place =
      load32 (state.buf.put 12 (le32 (state.trxVersion <<< 16))) place := by
  rw [padded, fill]
  exact load32_put_apart (Or.inl within)

theorem session_run {options : List BuildOption} :
    (run sessionStep session options).map Session.builder = run step session.builder options := by
  induction options generalizing session with
  | nil => rfl
  | cons option rest ih =>
      rw [run, run, sessionStep]
      cases step session.builder option with
      | none => rfl
      | some after => exact ih

/-- Where each option and the end of the run are careful, the run stays in its buffer, and the
output has every file and the header. -/
theorem trx_layout {options : List BuildOption} {written : Bool}
    (careful : EveryStep sessionStep Careful (Session.start memory) options)
    (carefulEnd : ∀ session, run sessionStep (Session.start memory) options = some session →
      CarefulEnd session.builder)
    (done : trx memory options written = some final) :
    ∃ session, run sessionStep (Session.start memory) options = some session ∧
      run step (Builder.start memory) options = some session.builder ∧ Intact session ∧
      Layout session final := by
  obtain ⟨builder, ran, ended⟩ := Option.bind_eq_some_iff.mp done
  have both := @session_run (Session.start memory) options
  rw [show (Session.start memory).builder = Builder.start memory by rfl, ran,
    Option.map_eq_some_iff] at both
  obtain ⟨session, sessions, rfl⟩ := both
  have intact := careful_intact start_intact careful sessions
  have last := carefulEnd session sessions
  have padded := intact.padded last.pad (finish_cases ended).1
  have header := intact.current.1
  have version : load32 (Trx.padded session.builder).buf 12 = session.builder.trxVersion <<< 16 := by
    rw [padded_load32 (by omega), load32_put]
  have binheader : session.builder.trxVersion = 2 →
      12 ≤ (offset3 (Trx.padded session.builder).buf).toNat ∧
        (offset3 (Trx.padded session.builder).buf).toNat + 32 ≤ (Trx.padded session.builder).buf.size := by
    intro second
    rw [second, slots, if_pos rfl] at header
    have kept : offset3 (Trx.padded session.builder).buf = offset3 session.builder.buf := by
      rw [offset3, padded_load32 (by omega), load32_put_apart (Or.inr (by rw [le32_length]; omega)), offset3]
    have room := last.header second
    rw [← intact.size] at room
    rw [kept]
    exact room
  exact ⟨session, sessions, ran, intact, finished_layout padded version
    (finish_finished padded.inside padded.roomy binheader ended)⟩

def oneByte : BuildOption := .file .f (some [0xaa])

theorem trx_layout_oneByte : ∃ final, trx (fun _ => 0) [oneByte] true = some final ∧
    ∃ session, run sessionStep (Session.start fun _ => 0) [oneByte] = some session ∧
      run step (Builder.start fun _ => 0) [oneByte] = some session.builder ∧ Intact session ∧
      Layout session final := by
  obtain ⟨final, done⟩ : ∃ final, trx (fun _ => 0) [oneByte] true = some final := ⟨_, rfl⟩
  refine ⟨final, done, trx_layout ⟨⟨by decide, ?_⟩, fun _ _ => trivial⟩ ?_ done⟩
  · rintro bytes ⟨⟩
    exact ⟨by decide, by decide⟩
  · rintro session ⟨⟩
    exact ⟨by decide, fun second => absurd second (by decide)⟩

/-- The fourth offset is put over the first file. -/
theorem trx_fourFiles : ∃ final session,
    trx (fun _ => 0) [oneByte, oneByte, oneByte, oneByte] true = some final ∧
      run sessionStep (Session.start fun _ => 0) [oneByte, oneByte, oneByte, oneByte] = some session ∧
      ⟨28, [0xaa], some 0⟩ ∈ session.placed ∧ slice final.output 28 1 = [0x28] ∧
      ¬ Layout session final := by
  obtain ⟨final, session, done, ran, member, whole, byte⟩ : ∃ final session,
      trx (fun _ => 0) [oneByte, oneByte, oneByte, oneByte] true = some final ∧
        run sessionStep (Session.start fun _ => 0) [oneByte, oneByte, oneByte, oneByte] = some session ∧
        ⟨28, [0xaa], some 0⟩ ∈ session.placed ∧ final.curLen = 0x1000 ∧ final.buf.bytes 28 = 0x28 :=
    ⟨_, _, rfl, rfl, List.mem_cons_self, rfl, rfl⟩
  have read : slice final.output 28 1 = [0x28] := by
    rw [Builder.output, whole, slice_load (by decide), load_succ, Nat.zero_add, byte]
    rfl
  refine ⟨final, session, done, ran, member, read, fun layout => ?_⟩
  have kept := layout.files _ member
  have same : ([0x28] : List UInt8) = [0xaa] := read.symm.trans kept
  cases same

end Rut9xx.Trx
