import Rut9xx.Chilli.DnsName
import Rut9xx.Data.Partial
import Rut9xx.Data.Throughout

namespace Rut9xx.Chilli

open Data

variable {Result Next : Type}

/-- The call touches nothing outside the packet and its buffer. -/
def Contained (call : Except DnsStop Result) : Prop :=
  call ≠ .error .readOutside ∧ call ≠ .error .writeOutside

@[simp] theorem contained_ok (result : Result) :
    Contained (.ok result : Except DnsStop Result) := by
  simp [Contained]

@[simp] theorem contained_refused : Contained (.error .refused : Except DnsStop Result) := by
  simp [Contained]

@[simp] theorem not_contained_read : ¬ Contained (.error .readOutside : Except DnsStop Result) := by
  simp [Contained]

@[simp] theorem not_contained_write :
    ¬ Contained (.error .writeOutside : Except DnsStop Result) := by
  simp [Contained]

theorem contained_bind {first : Except DnsStop Next} {next : Next → Except DnsStop Result} :
    Contained (first >>= next) ↔
      Contained first ∧ ∀ middle, first = .ok middle → Contained (next middle) := by
  cases first with
  | error stop =>
      have same : (Except.error stop : Except DnsStop Next) >>= next = .error stop := rfl
      simp [same, Contained]
  | ok middle =>
      have same : (Except.ok middle : Except DnsStop Next) >>= next = next middle := rfl
      simp [same]

section Primitives

variable {bytes data : List UInt8} {position count : Nat}

theorem readByte_contained : Contained (readByte bytes position) ↔ position < bytes.length := by
  unfold readByte
  cases found : bytes[position]? with
  | none => simpa using found
  | some byte => simpa using (List.getElem?_eq_some_iff.mp found).1

theorem readByte_eq_ok {byte : UInt8} :
    readByte bytes position = .ok byte ↔ bytes[position]? = some byte := by
  unfold readByte
  cases bytes[position]? <;> simp

theorem readBytes_contained :
    Contained (readBytes bytes position count) ↔ position + count ≤ bytes.length := by
  unfold readBytes
  split
  · rename_i inside
    simp [inside]
  · rename_i outside
    simp [outside]

theorem readBytes_eq_ok {text : List UInt8} (read : readBytes bytes position count = .ok text) :
    position + count ≤ bytes.length ∧ text = slice bytes position count ∧ text.length = count := by
  unfold readBytes at read
  split at read
  · rename_i inside
    cases read
    exact ⟨inside, rfl, by simp only [slice, List.length_take, List.length_drop]; omega⟩
  · cases read

theorem writeBytes_contained :
    Contained (writeBytes bytes position data) ↔ position + data.length ≤ bytes.length := by
  unfold writeBytes
  cases written : writeAt bytes position data with
  | none =>
      have outside : ¬ position + data.length ≤ bytes.length := by
        intro fits
        obtain ⟨after, done⟩ := writeAt_exists fits
        rw [written] at done
        cases done
      simp [outside]
  | some after => simpa using writeAt_fits written

theorem writeBytes_eq_ok {after : List UInt8} :
    writeBytes bytes position data = .ok after ↔ writeAt bytes position data = some after := by
  unfold writeBytes
  cases writeAt bytes position data <;> simp

theorem stringLength_contained : Contained (stringLength bytes) ↔ 0 ∈ bytes := by
  unfold stringLength
  cases found : bytes.findIdx? (· = 0) with
  | none =>
      rw [List.findIdx?_eq_none_iff] at found
      simp only [not_contained_read, false_iff]
      intro member
      simpa using found 0 member
  | some length =>
      obtain ⟨inside, zero, -⟩ := List.findIdx?_eq_some_iff_getElem.mp found
      simp only [contained_ok, true_iff]
      rw [← of_decide_eq_true zero]
      exact List.getElem_mem inside

end Primitives

/-! ## The walk through a name -/

/-- The code between two turns of the loop of `dns_fullname`, at some level of the call. -/
structure NameCursor where
  levels : Nat
  name : DnsName
  position : Nat
  reslen : Nat

/-- A label copied, or a pointer followed to the next level. -/
inductive NameStep (packet : List UInt8) (olen : Nat) : NameCursor → NameCursor → Prop
  | label {levels : Nat} {name next : DnsName} {position reslen : Nat} {l : UInt8}
      (more : reslen ≠ 0) (byte : packet[position]? = some l) (nonzero : l ≠ 0)
      (plain : isPointer l = false) (roomy : l.toNat < name.dlen) (short : l.toNat < olen)
      (copied : name.copyLabel packet (position + 1) l.toNat = .ok next) :
      NameStep packet olen ⟨levels, name, position, reslen⟩
        ⟨levels, next, position + 1 + l.toNat, reslenAfter reslen l⟩
  | pointer {levels : Nat} {name next : DnsName} {position reslen : Nat} {l low : UInt8}
      (more : reslen ≠ 0) (byte : packet[position]? = some l) (nonzero : l ≠ 0)
      (pointer : isPointer l = true) (second : reslen ≠ 1)
      (lowByte : packet[position + 1]? = some low) (backward : pointerOffset l low ≤ olen)
      (entered : name.enter = .ok next) :
      NameStep packet olen ⟨levels + 1, name, position, reslen⟩
        ⟨levels, next, pointerOffset l low, olen - pointerOffset l low⟩

/-- At a label that is not refused: its bytes are in the packet, if they are copied. At a
pointer: both its bytes are, and the next level finds its place in the buffer. -/
structure TurnInside (packet : List UInt8) (olen : Nat) (cursor : NameCursor) (l : UInt8) :
    Prop where
  label : isPointer l = false → l.toNat < cursor.name.dlen → l.toNat < olen →
    cursor.name.d ≠ none → cursor.position + 1 + l.toNat ≤ packet.length
  pointer : isPointer l = true → cursor.reslen ≠ 1 →
    ∃ low, packet[cursor.position + 1]? = some low ∧
      (pointerOffset l low ≤ olen → cursor.levels ≠ 0 →
        ∀ place, cursor.name.d = some place → place < cursor.name.data.length)

/-- What the turn of the loop at the cursor needs. -/
def CursorInside (packet : List UInt8) (olen : Nat) (cursor : NameCursor) : Prop :=
  cursor.reslen ≠ 0 →
    ∃ l, packet[cursor.position]? = some l ∧ (l ≠ 0 → TurnInside packet olen cursor l)

/-- The loop is left behind the name, by its terminator or at the end of the bytes. -/
def CursorEnded (packet : List UInt8) (cursor : NameCursor) : Prop :=
  cursor.reslen = 0 ∨ packet[cursor.position]? = some 0

/-- What is left of the buffer can be written. -/
def DnsName.Fits (name : DnsName) : Prop :=
  ∀ place, name.d = some place → place + name.dlen ≤ name.data.length

def DnsName.Enterable (name : DnsName) : Prop :=
  ∀ place, name.d = some place → place < name.data.length

variable {packet : List UInt8} {olen levels position reslen length : Nat} {name next : DnsName}
  {l low : UInt8} {post : List UInt8 → Prop}

theorem enter_contained : Contained name.enter ↔ name.Enterable := by
  unfold DnsName.enter DnsName.Enterable
  cases place : name.d with
  | none => simp
  | some place => simp [contained_bind, readByte_contained]

theorem enter_eq_ok (entered : name.enter = .ok next) :
    next = name ∨ next = { name with d := none } := by
  unfold DnsName.enter at entered
  cases place : name.d with
  | none =>
      rw [place] at entered
      cases entered
      exact Or.inl rfl
  | some place' =>
      rw [place] at entered
      obtain ⟨first, -, result⟩ := bind_eq_ok.mp entered
      cases result
      split
      · exact Or.inl rfl
      · exact Or.inr rfl

theorem enter_fits (fits : name.Fits) (entered : name.enter = .ok next) : next.Fits := by
  rcases enter_eq_ok entered with rfl | rfl
  · exact fits
  · intro place here
    cases here

theorem copyLabel_outside (captures : name.d ≠ none) (outside : packet.length < position + length) :
    name.copyLabel packet position length = .error .readOutside := by
  unfold DnsName.copyLabel
  cases place : name.d with
  | none => exact absurd place captures
  | some place =>
      have refused : readBytes packet position length = .error .readOutside := by
        rw [readBytes, if_neg (by omega)]
      simp only [refused]
      rfl

theorem copyLabel_inside (fits : name.Fits) (roomy : length < name.dlen)
    (inside : name.d ≠ none → position + length ≤ packet.length) :
    ∃ next, name.copyLabel packet position length = .ok next ∧ next.Fits ∧
      next.data.length = name.data.length ∧ (next.d = none ↔ name.d = none) ∧
        (name.d ≠ none → next.dlen = name.dlen - length - 1) := by
  unfold DnsName.copyLabel
  cases place : name.d with
  | none => exact ⟨name, rfl, fits, rfl, by simp [place], fun captures => absurd rfl captures⟩
  | some place' =>
      have room := fits place' place
      have read : readBytes packet position length = .ok (slice packet position length) := by
        rw [readBytes, if_pos (inside (by simp [place]))]
      have textLength := (readBytes_eq_ok read).2.2
      obtain ⟨stored, text⟩ := writeAt_exists
        (show place' + (slice packet position length).length ≤ name.data.length by omega)
      have storedLength := writeAt_length text
      obtain ⟨dotted, dot⟩ := writeAt_exists
        (show place' + length + [(46 : UInt8)].length ≤ stored.length by
          simp only [List.length_singleton]; omega)
      have dottedLength := writeAt_length dot
      refine ⟨⟨dotted, some (place' + length + 1), name.dlen - length - 1⟩, ?_, ?_, by simp; omega,
        by simp, fun _ => rfl⟩
      · simp only [read, writeBytes_eq_ok.mpr text, writeBytes_eq_ok.mpr dot, bind, Except.bind]
      · intro place same
        cases same
        dsimp only
        omega

/-! ## The turns of the loop -/

variable {follow : DnsName → Nat → Nat → Except DnsStop (Nat × DnsName)}

theorem nameLoop_done (done : reslen = 0) :
    nameLoop packet olen follow name position reslen = .ok (0, name) := by
  rw [nameLoop, if_pos done]

theorem nameLoop_outside (more : reslen ≠ 0) (outside : packet[position]? = none) :
    nameLoop packet olen follow name position reslen = .error .readOutside := by
  rw [nameLoop, if_neg more, dif_neg (by simpa using outside)]

/-- What one turn does with the byte it reads. -/
theorem nameLoop_turn (more : reslen ≠ 0) (byte : packet[position]? = some l) :
    nameLoop packet olen follow name position reslen =
      (if l = 0 then .ok (1, name)
      else if isPointer l then
        if reslen = 1 then .error .refused
        else do
          let low ← readByte packet (position + 1)
          let offset := pointerOffset l low
          if offset > olen then .error .refused
          else do
            let (_, inner) ← follow name offset (olen - offset)
            .ok (2, { name with data := inner.data })
      else if l.toNat ≥ name.dlen ∨ l.toNat ≥ olen then .error .refused
      else do
        let next ← name.copyLabel packet (position + 1) l.toNat
        let (ret, last) ← nameLoop packet olen follow next (position + 1 + l.toNat)
          (reslenAfter reslen l)
        .ok (1 + l.toNat + ret, last)) := by
  obtain ⟨inside, same⟩ := List.getElem?_eq_some_iff.mp byte
  subst same
  rw [nameLoop, if_neg more, dif_pos inside]

/-- The call stays inside, and `post` holds of the buffer it leaves. -/
def Meets (post : List UInt8 → Prop) (call : Except DnsStop (Nat × DnsName)) : Prop :=
  Contained call ∧ ∀ ret last, call = .ok (ret, last) → post last.data

theorem meets_ok {ret : Nat} : Meets post (.ok (ret, name)) ↔ post name.data := by
  constructor
  · intro meets
    exact meets.2 ret name rfl
  · intro holds
    refine ⟨contained_ok _, ?_⟩
    intro ret' last same
    cases same
    exact holds

theorem meets_refused : Meets post (.error .refused) :=
  ⟨contained_refused, fun _ _ impossible => nomatch impossible⟩

theorem not_meets_read : ¬ Meets post (.error .readOutside) := by
  intro meets
  exact not_contained_read meets.1

theorem meets_error {stop : DnsStop} :
    Meets post (.error stop) ↔ Contained (.error stop : Except DnsStop Unit) := by
  constructor
  · intro meets
    simpa [Contained] using meets.1
  · intro contained
    refine ⟨by simpa [Contained] using contained, ?_⟩
    intro ret last impossible
    cases impossible

/-- A call that returns the buffer of another one. -/
theorem meets_bind {call : Except DnsStop (Nat × DnsName)} (wrap : Nat × DnsName → Nat × DnsName)
    (sameData : ∀ result, (wrap result).2.data = result.2.data) :
    Meets post (do let result ← call; .ok (wrap result)) ↔ Meets post call := by
  cases call with
  | error stop =>
      have same : (do let result ← Except.error stop; Except.ok (wrap result)) =
        (Except.error stop : Except DnsStop (Nat × DnsName)) := rfl
      rw [same]
  | ok result =>
      have same : (do let result ← Except.ok result; Except.ok (wrap result)) =
        (Except.ok ((wrap result).1, (wrap result).2) : Except DnsStop (Nat × DnsName)) := rfl
      obtain ⟨ret, last⟩ := result
      rw [same, meets_ok, meets_ok, sameData]

/-- What the whole walk has to do at a cursor it comes to. -/
def CursorMeets (packet : List UInt8) (olen : Nat) (post : List UInt8 → Prop)
    (cursor : NameCursor) : Prop :=
  CursorInside packet olen cursor ∧ (CursorEnded packet cursor → post cursor.name.data)

/-- What the next level has to do, where there is one. -/
def LevelMeets (packet : List UInt8) (olen : Nat) (post : List UInt8 → Prop) :
    Nat → DnsName → Nat → Nat → Prop
  | 0, _, _, _ => True
  | levels + 1, name, position, reslen =>
      name.Enterable ∧ ∀ next, name.enter = .ok next →
        Throughout (NameStep packet olen) (CursorMeets packet olen post)
          ⟨levels, next, position, reslen⟩

theorem cursorMeets_ended (ended : CursorEnded packet ⟨levels, name, position, reslen⟩) :
    Throughout (NameStep packet olen) (CursorMeets packet olen post)
      ⟨levels, name, position, reslen⟩ ↔ post name.data := by
  have stuck : ∀ next, ¬ NameStep packet olen ⟨levels, name, position, reslen⟩ next := by
    intro next step
    cases step <;> rcases ended with done | zero <;> simp_all
  rw [throughout_of_stuck stuck]
  constructor
  · intro meets
    exact meets.2 ended
  · intro holds
    refine ⟨?_, fun _ => holds⟩
    intro more
    rcases ended with done | zero
    · exact absurd done more
    · exact ⟨0, zero, fun nonzero => absurd rfl nonzero⟩

theorem cursorMeets_turn (more : reslen ≠ 0) (byte : packet[position]? = some l)
    (nonzero : l ≠ 0) :
    CursorMeets packet olen post ⟨levels, name, position, reslen⟩ ↔
      TurnInside packet olen ⟨levels, name, position, reslen⟩ l := by
  have running : ¬ CursorEnded packet ⟨levels, name, position, reslen⟩ := by
    intro ended
    rcases ended with done | zero
    · exact more done
    · dsimp only at zero
      rw [byte] at zero
      cases zero
      exact nonzero rfl
  constructor
  · intro meets
    obtain ⟨other, same, turn⟩ := meets.1 more
    dsimp only at same
    rw [byte] at same
    cases same
    exact turn nonzero
  · intro turn
    exact ⟨fun _ => ⟨l, byte, fun _ => turn⟩, fun ended => absurd ended running⟩

/-- The turn at a pointer, the next level being right. -/
theorem nameLoop_pointer_meets
    (level : ∀ name position reslen, DnsName.Fits name →
      (Meets post (nameLevel packet olen levels name position reslen) ↔
        LevelMeets packet olen post levels name position reslen))
    (fits : name.Fits) (more : reslen ≠ 0) (byte : packet[position]? = some l) (nonzero : l ≠ 0)
    (pointer : isPointer l = true) :
    Meets post (nameLoop packet olen (nameLevel packet olen levels) name position reslen) ↔
      Throughout (NameStep packet olen) (CursorMeets packet olen post)
        ⟨levels, name, position, reslen⟩ := by
  rw [nameLoop_turn more byte, if_neg nonzero, if_pos pointer, throughout_iff,
    cursorMeets_turn more byte nonzero]
  have noLabel : ∀ P : Prop, isPointer l = false → P := by simp [pointer]
  by_cases cut : reslen = 1
  · rw [if_pos cut]
    have stuck : ∀ next, ¬ NameStep packet olen ⟨levels, name, position, reslen⟩ next := by
      intro next step
      cases step <;> simp_all
    refine iff_of_true meets_refused ⟨⟨noLabel _, fun _ second => absurd cut second⟩, ?_⟩
    intro next step
    exact absurd step (stuck next)
  rw [if_neg cut]
  cases second : packet[position + 1]? with
  | none =>
      have outside : readByte packet (position + 1) = .error .readOutside := by
        simp [readByte, second]
      rw [outside]
      refine iff_of_false not_meets_read ?_
      intro meets
      obtain ⟨low, found, -⟩ := meets.1.pointer pointer cut
      rw [second] at found
      cases found
  | some low =>
      rw [readByte_eq_ok.mpr second]
      change Meets post (if pointerOffset l low > olen then _ else _) ↔ _
      have turnInside : TurnInside packet olen ⟨levels, name, position, reslen⟩ l ↔
          (pointerOffset l low ≤ olen → levels ≠ 0 → name.Enterable) := by
        constructor
        · intro turn
          obtain ⟨other, same, enterable⟩ := turn.pointer pointer cut
          dsimp only at same
          rw [second] at same
          cases same
          exact enterable
        · intro enterable
          exact ⟨noLabel _, fun _ _ => ⟨low, second, enterable⟩⟩
      rw [turnInside]
      by_cases backward : pointerOffset l low ≤ olen
      · rw [if_neg (by omega), meets_bind (fun result => (2, { name with data := result.2.data }))
          (fun _ => rfl), level _ _ _ fits]
        cases levels with
        | zero =>
            refine iff_of_true trivial ⟨fun _ top => absurd rfl top, ?_⟩
            intro next step
            cases step with
            | label _ byte' _ plain => simp_all
        | succ levels =>
            simp only [LevelMeets]
            constructor
            · intro meets
              refine ⟨fun _ _ => meets.1, ?_⟩
              intro next step
              cases step with
              | label _ byte' _ plain => simp_all
              | pointer _ byte' _ _ _ low' _ entered =>
                  rw [byte] at byte'
                  cases byte'
                  rw [second] at low'
                  cases low'
                  exact meets.2 _ entered
            · intro meets
              refine ⟨meets.1 backward (Nat.succ_ne_zero _), ?_⟩
              intro next entered
              exact meets.2 _ (NameStep.pointer more byte nonzero pointer cut second backward entered)
      · rw [if_pos (by omega)]
        refine iff_of_true meets_refused ⟨fun inside => absurd inside backward, ?_⟩
        intro next step
        cases step with
        | label _ byte' _ plain => simp_all
        | pointer _ byte' _ _ _ low' inside =>
            rw [byte] at byte'
            cases byte'
            rw [second] at low'
            cases low'
            exact absurd inside backward

theorem nameLoop_label_meets
    (more : reslen ≠ 0) (byte : packet[position]? = some l) (nonzero : l ≠ 0)
    (plain : isPointer l = false) (fits : name.Fits)
    (later : ∀ next, DnsName.Fits next →
      (Meets post (nameLoop packet olen follow next (position + 1 + l.toNat) (reslenAfter reslen l)) ↔
        Throughout (NameStep packet olen) (CursorMeets packet olen post)
          ⟨levels, next, position + 1 + l.toNat, reslenAfter reslen l⟩)) :
    Meets post (nameLoop packet olen follow name position reslen) ↔
      Throughout (NameStep packet olen) (CursorMeets packet olen post)
        ⟨levels, name, position, reslen⟩ := by
  have notPointer : ¬ isPointer l = true := by simp [plain]
  have noPointer : ∀ P : Prop, isPointer l = true → P := by simp [plain]
  rw [nameLoop_turn more byte, if_neg nonzero, if_neg notPointer]
  by_cases refused : l.toNat ≥ name.dlen ∨ l.toNat ≥ olen
  · have stuck : ∀ next, ¬ NameStep packet olen ⟨levels, name, position, reslen⟩ next := by
      intro next step
      cases step with
      | label _ byte' _ _ roomy short =>
          rw [byte] at byte'
          cases byte'
          omega
      | pointer _ byte' _ pointer => simp_all
    rw [if_pos refused, throughout_of_stuck stuck, cursorMeets_turn more byte nonzero]
    refine iff_of_true meets_refused ⟨?_, noPointer _⟩
    intro _ roomy short
    dsimp only at roomy
    omega
  rw [if_neg refused]
  have turn : TurnInside packet olen ⟨levels, name, position, reslen⟩ l ↔
      (name.d ≠ none → position + 1 + l.toNat ≤ packet.length) := by
    constructor
    · intro turn
      exact turn.label plain (by dsimp only; omega) (by omega)
    · intro inside
      exact ⟨fun _ _ _ => inside, noPointer _⟩
  by_cases inside : name.d ≠ none → position + 1 + l.toNat ≤ packet.length
  · obtain ⟨next, copied, nextFits, -⟩ := copyLabel_inside fits (by omega) inside
    have taken : NameStep packet olen ⟨levels, name, position, reslen⟩
        ⟨levels, next, position + 1 + l.toNat, reslenAfter reslen l⟩ :=
      NameStep.label more byte nonzero plain (by omega) (by omega) copied
    have only : ∀ other, NameStep packet olen ⟨levels, name, position, reslen⟩ other →
        other = ⟨levels, next, position + 1 + l.toNat, reslenAfter reslen l⟩ := by
      intro other step
      cases step with
      | label _ byte' _ _ _ _ copied' =>
          rw [byte] at byte'
          cases byte'
          rw [copied] at copied'
          cases copied'
          rfl
      | pointer _ byte' _ pointer => simp_all
    rw [throughout_of_step taken only, cursorMeets_turn more byte nonzero, turn, copied]
    change Meets post (do
      let result ← nameLoop packet olen follow next (position + 1 + l.toNat) (reslenAfter reslen l)
      .ok (1 + l.toNat + result.1, result.2)) ↔ _
    rw [meets_bind (fun result => (1 + l.toNat + result.1, result.2)) (fun _ => rfl),
      later next nextFits]
    exact (and_iff_right inside).symm
  · obtain ⟨captures, outside⟩ := Classical.not_imp.mp inside
    rw [copyLabel_outside captures (by omega), throughout_iff, cursorMeets_turn more byte nonzero, turn]
    refine iff_of_false not_meets_read ?_
    intro meets
    exact inside meets.1

theorem nameLoop_meets
    (level : ∀ name position reslen, DnsName.Fits name →
      (Meets post (nameLevel packet olen levels name position reslen) ↔
        LevelMeets packet olen post levels name position reslen))
    (fits : name.Fits) :
    Meets post (nameLoop packet olen (nameLevel packet olen levels) name position reslen) ↔
      Throughout (NameStep packet olen) (CursorMeets packet olen post)
        ⟨levels, name, position, reslen⟩ := by
  -- a turn goes on behind the byte it read
  induction behind : packet.length - position using Nat.strongRecOn generalizing name position reslen with
  | ind behind' ih =>
      by_cases done : reslen = 0
      · rw [nameLoop_done done, meets_ok, cursorMeets_ended (Or.inl done)]
      cases byte : packet[position]? with
      | none =>
          rw [nameLoop_outside done byte, throughout_iff]
          refine iff_of_false not_meets_read ?_
          intro meets
          obtain ⟨l, found, -⟩ := meets.1.1 done
          dsimp only at found
          rw [byte] at found
          cases found
      | some l =>
          have inside := (List.getElem?_eq_some_iff.mp byte).1
          by_cases zero : l = 0
          · subst zero
            rw [nameLoop_turn done byte, if_pos rfl, meets_ok, cursorMeets_ended (Or.inr byte)]
          cases pointer : isPointer l with
          | true => exact nameLoop_pointer_meets level fits done byte zero pointer
          | false =>
              apply nameLoop_label_meets done byte zero pointer fits
              intro next nextFits
              exact ih _ (by omega) nextFits rfl

theorem nameLevel_meets (fits : name.Fits) :
    Meets post (nameLevel packet olen levels name position reslen) ↔
      LevelMeets packet olen post levels name position reslen := by
  induction levels generalizing name position reslen with
  | zero => exact iff_of_true meets_refused trivial
  | succ levels ih =>
      have loop : ∀ next, name.enter = .ok next →
          (Meets post (nameLoop packet olen (nameLevel packet olen levels) next position reslen) ↔
            Throughout (NameStep packet olen) (CursorMeets packet olen post)
              ⟨levels, next, position, reslen⟩) := by
        intro next entered
        exact nameLoop_meets (fun _ _ _ fits => ih fits) (enter_fits fits entered)
      simp only [nameLevel, LevelMeets, ← enter_contained]
      cases entered : name.enter with
      | error stop =>
          change Meets post (.error stop) ↔ _
          rw [meets_error]
          simp [Contained]
      | ok next =>
          change Meets post (nameLoop packet olen (nameLevel packet olen levels) next position reslen) ↔ _
          rw [loop next entered]
          simp

/-! ## The call from outside -/

/-- What the walk through the name at `position` needs. The name is captured when the buffer
starts empty, and then leaves a terminator in it. -/
def NameInside (packet : List UInt8) (olen : Nat) (data : List UInt8)
    (dlen position reslen : Nat) : Prop :=
  ∀ name, DnsName.enter ⟨data, some 0, dlen⟩ = .ok name →
    Throughout (NameStep packet olen)
      (CursorMeets packet olen fun data => name.d ≠ none → 0 ∈ data) ⟨14, name, position, reslen⟩

/-- The buffer keeps its size, and is left alone when nothing is captured. -/
def Keeps (name last : DnsName) : Prop :=
  last.data.length = name.data.length ∧ (name.d = none → last.data = name.data)

theorem nameLoop_keeps {ret : Nat} {last : DnsName} (fits : name.Fits)
    (level : ∀ name position reslen ret last, DnsName.Fits name →
      follow name position reslen = .ok (ret, last) → Keeps name last)
    (done : nameLoop packet olen follow name position reslen = .ok (ret, last)) :
    (last.d = none ↔ name.d = none) ∧ Keeps name last := by
  induction behind : packet.length - position using Nat.strongRecOn
    generalizing name position reslen ret with
  | ind behind' ih =>
      have unchanged : (name.d = none ↔ name.d = none) ∧ Keeps name name :=
        ⟨Iff.rfl, rfl, fun _ => rfl⟩
      by_cases ended : reslen = 0
      · rw [nameLoop_done ended] at done
        cases done
        exact unchanged
      cases byte : packet[position]? with
      | none =>
          rw [nameLoop_outside ended byte] at done
          cases done
      | some l =>
          have inside := (List.getElem?_eq_some_iff.mp byte).1
          rw [nameLoop_turn ended byte] at done
          split at done
          · cases done
            exact unchanged
          split at done
          · split at done
            · cases done
            obtain ⟨low, -, done⟩ := bind_eq_ok.mp done
            dsimp only at done
            split at done
            · cases done
            obtain ⟨⟨_, inner⟩, followed, done⟩ := bind_eq_ok.mp done
            cases done
            have kept := level _ _ _ _ _ fits followed
            exact ⟨Iff.rfl, kept.1, kept.2⟩
          split at done
          · cases done
          rename_i accepted
          obtain ⟨next, copied, done⟩ := bind_eq_ok.mp done
          obtain ⟨⟨_, _⟩, more, done⟩ := bind_eq_ok.mp done
          cases done
          have room : name.d ≠ none → position + 1 + l.toNat ≤ packet.length := by
            intro captures
            apply Nat.le_of_not_lt
            intro outside
            rw [copyLabel_outside captures outside] at copied
            cases copied
          obtain ⟨other, same, nextFits, size, captures, -⟩ := copyLabel_inside fits (by omega) room
          rw [same] at copied
          cases copied
          obtain ⟨laterCaptures, laterSize, laterData⟩ := ih _ (by omega) nextFits more rfl
          refine ⟨laterCaptures.trans captures, laterSize.trans size, ?_⟩
          intro skipped
          rw [laterData (captures.mpr skipped)]
          rw [DnsName.copyLabel, skipped] at same
          cases same
          rfl

theorem enter_keeps (entered : name.enter = .ok next) {last : DnsName} (kept : Keeps next last) :
    Keeps name last := by
  rcases enter_eq_ok entered with rfl | rfl
  · exact kept
  · exact ⟨kept.1, fun _ => kept.2 rfl⟩

theorem nameLevel_keeps {ret : Nat} {last : DnsName} (fits : name.Fits)
    (done : nameLevel packet olen levels name position reslen = .ok (ret, last)) :
    Keeps name last := by
  induction levels generalizing name position reslen ret last with
  | zero => cases done
  | succ levels ih =>
      obtain ⟨next, entered, looped⟩ := bind_eq_ok.mp done
      exact enter_keeps entered
        (nameLoop_keeps (enter_fits fits entered) (fun _ _ _ _ _ fits done => ih fits done) looped).2

section Call

variable {data after : List UInt8} {dlen ret : Nat} {d : Option Nat}

theorem trimName_contained : Contained (trimName data d) ↔ (d ≠ none → 0 ∈ data) := by
  unfold trimName
  cases d with
  | none => simp
  | some place => simp [contained_bind, stringLength_contained]

theorem stringLength_ok (terminated : 0 ∈ data) : ∃ length, stringLength data = .ok length := by
  unfold stringLength
  cases found : data.findIdx? (· = 0) with
  | none =>
      rw [List.findIdx?_eq_none_iff] at found
      simpa using found 0 terminated
  | some length => exact ⟨length, rfl⟩

theorem trimName_keeps (trimmed : trimName data d = .ok after) :
    after.length = data.length ∧ (d = none → after = data) ∧ (d ≠ none → 0 ∈ after) := by
  have contained : Contained (trimName data d) := by simp [trimmed]
  have terminated := trimName_contained.mp contained
  unfold trimName at trimmed
  cases d with
  | none =>
      cases trimmed
      exact ⟨rfl, fun _ => rfl, fun impossible => absurd rfl impossible⟩
  | some place =>
      obtain ⟨length, measured, trimmed⟩ := bind_eq_ok.mp trimmed
      cases trimmed
      have zero : 0 ∈ data := terminated (by simp)
      refine ⟨?_, (fun impossible => by cases impossible), fun _ => ?_⟩
      · split
        · exact List.length_set ..
        · rfl
      · split
        · rename_i dotted
          have inside := (List.getElem?_eq_some_iff.mp dotted.2.2).1
          exact List.mem_set inside _
        · exact zero

theorem entrance_fits (room : dlen ≤ data.length) : DnsName.Fits ⟨data, some 0, dlen⟩ := by
  intro place here
  cases here
  dsimp only
  omega

theorem dnsFullname_keeps (room : dlen ≤ data.length)
    (done : dnsFullname packet olen data dlen position reslen = .ok (ret, after)) :
    after.length = data.length ∧ (0 ∈ data → 0 ∈ after) := by
  obtain ⟨⟨_, last⟩, walked, done⟩ := bind_eq_ok.mp done
  obtain ⟨trimmed, cut, done⟩ := bind_eq_ok.mp done
  cases done
  obtain ⟨size, untouched⟩ := nameLevel_keeps (entrance_fits room) walked
  obtain ⟨name, entered, looped⟩ := bind_eq_ok.mp walked
  obtain ⟨captures, -, skipped⟩ := nameLoop_keeps (enter_fits (entrance_fits room) entered)
    (fun _ _ _ _ _ fits done => nameLevel_keeps fits done) looped
  obtain ⟨trimSize, plain, terminated⟩ := trimName_keeps cut
  refine ⟨trimSize.trans size, ?_⟩
  intro zero
  by_cases open' : last.d = none
  · rw [plain open', skipped (captures.mp open')]
    rcases enter_eq_ok entered with rfl | rfl
    · exact zero
    · exact zero
  · exact terminated open'

/-- The parser stays inside the packet and the buffer exactly where the walk does. -/
theorem dnsFullname_contained_iff (nonempty : 0 < data.length) (room : dlen ≤ data.length) :
    Contained (dnsFullname packet olen data dlen position reslen) ↔
      NameInside packet olen data dlen position reslen := by
  have fits := entrance_fits room
  obtain ⟨name, entered⟩ : ∃ name, DnsName.enter ⟨data, some 0, dlen⟩ = .ok name := by
    cases data with
    | nil => cases nonempty
    | cons first rest => exact ⟨_, rfl⟩
  have keeps : ∀ ret last, nameLoop packet olen (nameLevel packet olen 14) name position reslen =
      .ok (ret, last) → (last.d = none ↔ name.d = none) := by
    intro ret last looped
    exact (nameLoop_keeps (enter_fits fits entered)
      (fun _ _ _ _ _ fits done => nameLevel_keeps fits done) looped).1
  have level : nameLevel packet olen 15 ⟨data, some 0, dlen⟩ position reslen =
      nameLoop packet olen (nameLevel packet olen 14) name position reslen := by
    rw [nameLevel, entered]
    rfl
  have meets : Contained (dnsFullname packet olen data dlen position reslen) ↔
      Meets (fun data => name.d ≠ none → 0 ∈ data)
        (nameLoop packet olen (nameLevel packet olen 14) name position reslen) := by
    rw [dnsFullname, level, contained_bind, Meets]
    apply and_congr_right
    intro _
    constructor
    · intro trims ret last looped captures
      have trimmed := (contained_bind.mp (trims (ret, last) looped)).1
      apply trimName_contained.mp trimmed
      intro skipped
      exact captures ((keeps ret last looped).mp skipped)
    · intro terminated result looped
      obtain ⟨ret, last⟩ := result
      refine contained_bind.mpr ⟨trimName_contained.mpr ?_, fun _ _ => contained_ok _⟩
      intro captures
      apply terminated ret last looped
      intro skipped
      exact captures ((keeps ret last looped).mpr skipped)
  rw [meets, nameLoop_meets (fun _ _ _ fits => nameLevel_meets fits) (enter_fits fits entered)]
  constructor
  · intro walk other same
    rw [entered] at same
    cases same
    exact walk
  · intro inside
    exact inside name entered

end Call

end Rut9xx.Chilli
