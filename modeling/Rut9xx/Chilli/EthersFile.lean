import Rut9xx.Chilli.EthersText
import Rut9xx.Data.Loop
import Rut9xx.Data.Memory

namespace Rut9xx.Chilli

open Data

/-! # Reserved addresses (`dhcp_reserve_str`) -/

section

/-- The `state` of the scanner: 0, 1, 2 and -1. -/
inductive EthersState where
  | mac
  | ip
  | both
  | failed
  deriving DecidableEq

/-- The variables of the scanner, with the calls of `dhcp_reserve_ip` so far and where they were made;
no `ip` before it is set. -/
structure Ethers where
  b : Guarded
  i : Nat
  bp : Nat
  state : EthersState
  mac : Mac
  ip : Option UInt32
  reserved : List Reserved

/-- `while (i < blen && p(b[i])) i++`, with the bytes that are left. -/
def whileByte (p : UInt8 → Bool) : Nat → Nat → Guarded → Guarded × Nat
  | 0, i, b => (b, i)
  | left + 1, i, b =>
      let b := b.touch i 1
      if p (b.bytes i) then whileByte p left (i + 1) b else (b, i)

/-- The string at `bp`, read up to its terminator. -/
def readString (b : Guarded) (bp : Nat) : Guarded × List UInt8 :=
  let text := cString (load b.bytes bp (b.size - bp))
  (b.touch bp (text.length + 1), text)

/-- A field ends in front of a separator. -/
def endField (ethers : Ethers) : Ethers :=
  match ethers.state with
  | .mac =>
      let (b, text) := readString ethers.b ethers.bp
      let b := b.put ethers.bp (blankOther text)
      match scanMac (blankOther text) with
      | none => { ethers with b, state := .failed }
      | some mac => { ethers with b, mac, state := .ip }
  | .ip =>
      let (b, text) := readString ethers.b ethers.bp
      match inetAton text with
      -- what it leaves in `ip` then is not specified
      | none => { ethers with b, ip := none, state := .failed }
      | some ip => { ethers with b, ip := some ip, state := .both }
  | _ => ethers

/-- A separator, up to the next round. -/
def separate (blen : Nat) (newline : Bool) (ethers : Ethers) : Ethers :=
  let ethers := if newline ∧ ethers.state = .failed then { ethers with state := .mac } else ethers
  let ethers := endField { ethers with b := ethers.b.put ethers.i [0] }
  let ethers :=
    if newline ∨ ethers.state = .both then
      { ethers with
        state := .mac, reserved := ethers.reserved ++ [⟨ethers.i, ethers.mac, ethers.ip⟩] }
    else ethers
  let (b, i) := whileByte isSkipped (blen - ethers.i) ethers.i ethers.b
  -- `i--` and the `i++` of the loop
  { ethers with b, i, bp := i }

def ethersRound (blen : Nat) (ethers : Ethers) : Option (Ethers ⊕ Ethers) :=
  if ethers.state ≠ .failed ∧ ethers.i < blen then
    let ethers := { ethers with b := ethers.b.touch ethers.i 1 }
    let byte := ethers.b.bytes ethers.i
    if byte = commentSign then
      let (b, i) := whileByte (fun byte => byte ≠ lineFeed) (blen - ethers.i) ethers.i ethers.b
      some (.inl { ethers with b, i := i + 1 })
    else if isSeparator byte then some (.inl (separate blen (isNewline byte) ethers))
    else some (.inl { ethers with i := ethers.i + 1 })
  else some (.inr ethers)

/-- `dhcp_reserve_str` of `text`, with the calls of `dhcp_reserve_ip` for its value. -/
def dhcpReserveStr (fuel : Nat) (text : List UInt8) : Outcome Ethers :=
  loop (ethersRound text.length) fuel
    { b := ⟨text.length, fun place => (text[place]?).getD 0, true⟩, i := 0, bp := 0, state := .mac
      mac := .replicate 6 0, ip := none, reserved := [] }

end

variable {blen count i : Nat} {b : Guarded} {p : UInt8 → Bool} {ethers after : Ethers}
  {rest token more : List UInt8} {sep : UInt8} {out : List Reserved}

/-! ## One field -/

/-- What is left of the text stands in the buffer from the index on. -/
structure At (blen : Nat) (ethers : Ethers) (rest : List UInt8) : Prop where
  size : ethers.b.size = blen
  inside : ethers.b.inside = true
  left : ethers.i + rest.length = blen
  holds : Holds ethers.b.bytes ethers.i rest

/-- The loop comes from one state to the other. -/
def LeadsTo (blen : Nat) (ethers after : Ethers) : Prop :=
  ∃ rounds, ∀ fuel, loop (ethersRound blen) (rounds + fuel) ethers = loop (ethersRound blen) fuel after

/-- The loop ends inside the buffer, with `out` for its further calls. -/
def EndsWith (blen : Nat) (ethers : Ethers) (out : List Reserved) : Prop :=
  ∃ fuel after, loop (ethersRound blen) fuel ethers = .done after ∧ after.b.inside = true ∧
    after.reserved = ethers.reserved ++ out

theorem LeadsTo.refl : LeadsTo blen ethers ethers := ⟨0, fun fuel => by rw [Nat.zero_add]⟩

theorem LeadsTo.trans {between : Ethers} (first : LeadsTo blen ethers between)
    (second : LeadsTo blen between after) : LeadsTo blen ethers after := by
  obtain ⟨rounds, same⟩ := first
  obtain ⟨rounds', same'⟩ := second
  exact ⟨rounds + rounds', fun fuel => by rw [Nat.add_assoc, same, same']⟩

theorem LeadsTo.round (here : ethersRound blen ethers = some (.inl after)) : LeadsTo blen ethers after :=
  ⟨1, fun fuel => by rw [Nat.add_comm, loop, here]⟩

theorem EndsWith.of_leads {called : List Reserved} (leads : LeadsTo blen ethers after)
    (calls : after.reserved = ethers.reserved ++ called) (ends : EndsWith blen after out) :
    EndsWith blen ethers (called ++ out) := by
  obtain ⟨rounds, same⟩ := leads
  obtain ⟨fuel, final, done, inside, reserved⟩ := ends
  exact ⟨rounds + fuel, final, (same fuel).trans done, inside, by
    rw [reserved, calls, List.append_assoc]⟩

theorem touch_eq (inside : i + count ≤ b.size) : b.touch i count = b := by
  simp [Guarded.touch, inside]

/-- A loop over bytes that are there. -/
theorem whileByte_eq (holds : Holds b.bytes i rest) (left : i + rest.length = b.size) :
    whileByte p rest.length i b = (b, i + (rest.takeWhile p).length) := by
  induction rest generalizing i with
  | nil => rfl
  | cons byte rest ih =>
      obtain ⟨here, behind⟩ := holds_cons.mp holds
      rw [List.length_cons] at left
      rw [List.length_cons, whileByte, touch_eq (by omega), here]
      by_cases goesOn : p byte = true
      · rw [if_pos goesOn, ih behind (by omega), List.takeWhile_cons_of_pos goesOn, List.length_cons,
          Nat.add_assoc, Nat.add_comm 1]
      · rw [if_neg goesOn, List.takeWhile_cons_of_neg goesOn]
        rfl

theorem holds_drop (holds : Holds b.bytes i (token ++ more)) : Holds b.bytes (i + token.length) more :=
  (holds_append.mp holds).2

/-- A comment ends with its line. -/
theorem untilSeparator_comment : untilSeparator true rest =
    match rest.dropWhile fun byte => byte ≠ lineFeed with
    | [] => none
    | feed :: behind => (untilSeparator false behind).map fun (token, sep, more) =>
        ((rest.takeWhile fun byte => byte ≠ lineFeed) ++ feed :: token, sep, more) := by
  induction rest with
  | nil => rfl
  | cons byte rest ih =>
      rw [untilSeparator, if_neg (by simp)]
      by_cases feed : byte = lineFeed
      · simp [feed]
      · rw [if_pos rfl, List.dropWhile_cons_of_pos (by simp [feed]),
          List.takeWhile_cons_of_pos (by simp [feed])]
        simp only [ne_eq, feed, not_false_eq_true, decide_true]
        rw [ih]
        cases List.dropWhile (fun byte => decide (byte ≠ lineFeed)) rest with
        | nil => rfl
        | cons first behind => simp [Option.map_map, Function.comp_def]

theorem round_plain {byte : UInt8} (here : At blen ethers (byte :: rest)) (running : ethers.state ≠ .failed)
    (sign : byte ≠ commentSign) (plain : ¬ isSeparator byte = true) :
    ethersRound blen ethers = some (.inl { ethers with i := ethers.i + 1 }) := by
  have left := here.left
  have size := here.size
  rw [List.length_cons] at left
  have same : ethers.b.touch ethers.i 1 = ethers.b := by
    simp [Guarded.touch, show ethers.i + 1 ≤ ethers.b.size by omega]
  unfold ethersRound
  rw [if_pos ⟨running, by omega⟩]
  simp only [same, (holds_cons.mp here.holds).1, if_neg sign, if_neg plain]

theorem round_comment (here : At blen ethers (commentSign :: rest)) (running : ethers.state ≠ .failed) :
    ethersRound blen ethers = some (.inl { ethers with
      i := ethers.i + 1 + (rest.takeWhile fun byte => byte ≠ lineFeed).length + 1 }) := by
  have left := here.left
  have size := here.size
  have same : ethers.b.touch ethers.i 1 = ethers.b := by
    rw [List.length_cons] at left
    simp [Guarded.touch, show ethers.i + 1 ≤ ethers.b.size by omega]
  have passed := @whileByte_eq ethers.i ethers.b (fun byte => byte ≠ lineFeed) _ here.holds
    (left.trans size.symm)
  have counted : (commentSign :: rest).takeWhile (fun byte => byte ≠ lineFeed) =
      commentSign :: rest.takeWhile (fun byte => byte ≠ lineFeed) :=
    List.takeWhile_cons_of_pos (by decide)
  unfold ethersRound
  rw [if_pos ⟨running, by rw [List.length_cons] at left; omega⟩]
  simp only [same, (holds_cons.mp here.holds).1, if_true]
  rw [show blen - ethers.i = (commentSign :: rest).length by omega, passed, counted, List.length_cons]
  simp only [Nat.add_assoc, Nat.add_comm 1]

/-- Behind a byte that is no comment's, or behind a whole comment. -/
theorem At.next {byte : UInt8} (here : At blen ethers (byte :: rest)) :
    At blen { ethers with i := ethers.i + 1 } rest where
  size := here.size
  inside := here.inside
  left := by
    have left := here.left
    rw [List.length_cons] at left
    simp only
    omega
  holds := (holds_cons.mp here.holds).2

theorem At.drop (here : At blen ethers (token ++ more)) :
    At blen { ethers with i := ethers.i + token.length } more where
  size := here.size
  inside := here.inside
  left := by
    have left := here.left
    rw [List.length_append] at left
    simp only
    omega
  holds := holds_drop here.holds

theorem At.commented {feed : UInt8} {behind : List UInt8} (here : At blen ethers (commentSign :: rest))
    (split : rest.dropWhile (fun byte => byte ≠ lineFeed) = feed :: behind) :
    At blen { ethers with
      i := ethers.i + 1 + (rest.takeWhile fun byte => byte ≠ lineFeed).length + 1 } behind := by
  have parts : rest = rest.takeWhile (fun byte => byte ≠ lineFeed) ++ feed :: behind := by
    rw [← split, List.takeWhile_append_dropWhile]
  have next := here.next
  rw [parts] at next
  exact next.drop.next

/-- The scanner comes to the next separator. -/
theorem reach_separator (here : At blen ethers rest) (running : ethers.state ≠ .failed)
    (found : untilSeparator false rest = some (token, sep, more)) :
    LeadsTo blen ethers { ethers with i := ethers.i + token.length } := by
  induction left : rest.length using Nat.strong_induction_on generalizing rest ethers token with
  | _ left' ih =>
      match rest with
      | [] => cases found
      | byte :: rest =>
          rw [untilSeparator] at found
          by_cases separates : isSeparator byte = true
          · rw [if_pos (by simp [separates])] at found
            cases found
            exact .refl
          · rw [if_neg (by simp [separates])] at found
            obtain ⟨⟨token', sep', more'⟩, later, same⟩ := Option.map_eq_some_iff.mp found
            cases same
            rw [List.length_cons] at left
            simp only [Bool.false_eq_true, if_false] at later
            by_cases sign : byte = commentSign
            · subst sign
              have commented := round_comment here running
              rw [decide_eq_true rfl, untilSeparator_comment] at later
              cases split : rest.dropWhile (fun byte => byte ≠ lineFeed) with
              | nil =>
                  rw [split] at later
                  cases later
              | cons feed behind =>
                  rw [split] at later
                  obtain ⟨⟨token'', sep'', more''⟩, later, same⟩ := Option.map_eq_some_iff.mp later
                  cases same
                  have next := here.commented split
                  have fewer : behind.length < left' := by
                    have lengths := congrArg List.length
                      (@List.takeWhile_append_dropWhile _ (fun byte => decide (byte ≠ lineFeed)) rest)
                    rw [split, List.length_append, List.length_cons] at lengths
                    omega
                  have reached := ih _ fewer next running later rfl
                  refine (LeadsTo.round commented).trans ?_
                  have last : ethers.i + 1 + (rest.takeWhile fun byte => byte ≠ lineFeed).length + 1 +
                      token''.length = ethers.i + (commentSign ::
                        ((rest.takeWhile fun byte => byte ≠ lineFeed) ++ feed :: token'')).length := by
                    simp only [List.length_append, List.length_cons]
                    omega
                  simp only [last] at reached
                  exact reached
            · have passed := round_plain here running sign separates
              simp only [sign, decide_false] at later
              have reached := @ih rest.length (by omega) _ _ _ here.next running later rfl
              refine (LeadsTo.round passed).trans ?_
              simp only [Nat.add_assoc, Nat.add_comm 1] at reached
              exact reached

/-- The scanner comes to the end of the text. -/
theorem reach_end (here : At blen ethers rest) (running : ethers.state ≠ .failed)
    (ended : untilSeparator false rest = none) : EndsWith blen ethers [] := by
  induction left : rest.length using Nat.strong_induction_on generalizing rest ethers with
  | _ left' ih =>
      match rest with
      | [] =>
          refine ⟨1, ethers, ?_, here.inside, (List.append_nil _).symm⟩
          have left := here.left
          rw [List.length_nil] at left
          simp only [loop, ethersRound]
          rw [if_neg (by omega)]
      | byte :: rest =>
          rw [untilSeparator] at ended
          by_cases separates : isSeparator byte = true
          · rw [if_pos (by simp [separates])] at ended
            cases ended
          · rw [if_neg (by simp [separates]), Option.map_eq_none_iff] at ended
            rw [List.length_cons] at left
            simp only [Bool.false_eq_true, if_false] at ended
            by_cases sign : byte = commentSign
            · subst sign
              have commented := round_comment here running
              rw [decide_eq_true rfl, untilSeparator_comment] at ended
              cases split : rest.dropWhile (fun byte => byte ≠ lineFeed) with
              | nil =>
                  have all : rest.takeWhile (fun byte => byte ≠ lineFeed) = rest := by
                    have parts := @List.takeWhile_append_dropWhile _ (fun byte => decide (byte ≠ lineFeed)) rest
                    rw [split, List.append_nil] at parts
                    exact parts
                  rw [all] at commented
                  have left := here.left
                  rw [List.length_cons] at left
                  refine EndsWith.of_leads (LeadsTo.round commented) (List.append_nil _).symm ?_
                  refine ⟨1, { ethers with i := ethers.i + 1 + rest.length + 1 }, ?_, here.inside,
                    (List.append_nil _).symm⟩
                  have stop : ¬ (ethers.state ≠ .failed ∧ ethers.i + 1 + rest.length + 1 < blen) := by omega
                  simp only [loop, ethersRound]
                  rw [if_neg stop]
              | cons feed behind =>
                  rw [split] at ended
                  have fewer : behind.length < left' := by
                    have lengths := congrArg List.length
                      (@List.takeWhile_append_dropWhile _ (fun byte => decide (byte ≠ lineFeed)) rest)
                    rw [split, List.length_append, List.length_cons] at lengths
                    omega
                  exact EndsWith.of_leads (LeadsTo.round commented) (List.append_nil _).symm
                    (ih _ fewer (here.commented split) running (Option.map_eq_none_iff.mp ended) rfl)
            · have passed := round_plain here running sign separates
              simp only [sign, decide_false] at ended
              exact EndsWith.of_leads (LeadsTo.round passed) (List.append_nil _).symm
                (@ih rest.length (by omega) _ _ here.next running ended rfl)

/-! ## A separator -/

/-- What the string in front of a separator makes of the variables. -/
def fieldRead (token : List UInt8) (ethers : Ethers) : Ethers :=
  match ethers.state with
  | .mac =>
      match readMac token with
      | none => { ethers with state := .failed }
      | some mac => { ethers with mac, state := .ip }
  | .ip =>
      match readIp token with
      | none => { ethers with ip := none, state := .failed }
      | some ip => { ethers with ip := some ip, state := .both }
  | _ => ethers

/-- What a separator makes of them then. -/
def separated (newline : Bool) (ethers : Ethers) : Ethers :=
  if newline ∨ ethers.state = .both then
    { ethers with state := .mac, reserved := ethers.reserved ++ [⟨ethers.i, ethers.mac, ethers.ip⟩] }
  else ethers

theorem cString_terminated : cString (token ++ 0 :: more) = cString token := by
  induction token with
  | nil => rfl
  | cons byte token ih =>
      unfold cString at ih ⊢
      rw [List.cons_append]
      by_cases terminator : byte = 0
      · rw [List.takeWhile_cons_of_neg (by simp [terminator]), List.takeWhile_cons_of_neg (by simp [terminator])]
      · rw [List.takeWhile_cons_of_pos (by simp [terminator]), List.takeWhile_cons_of_pos (by simp [terminator]),
          ih]

theorem cString_length : (cString token).length ≤ token.length :=
  (List.takeWhile_prefix _).length_le

/-- A separator ends the field in front of it: the string that begins at `bp`. -/
structure Field (blen : Nat) (ethers : Ethers) (token more : List UInt8) (sep : UInt8) : Prop where
  size : ethers.b.size = blen
  inside : ethers.b.inside = true
  place : ethers.i = ethers.bp + token.length
  left : ethers.i + (sep :: more).length = blen
  holds : Holds ethers.b.bytes ethers.bp (token ++ sep :: more)

theorem readString_field (field : Field blen ethers token more sep) :
    readString (ethers.b.put ethers.i [0]) ethers.bp = (ethers.b.put ethers.i [0], cString token) := by
  have left := field.left
  have place := field.place
  have size := field.size
  rw [List.length_cons] at left
  have holds : Holds (store ethers.b.bytes ethers.i [0]) ethers.bp (token ++ 0 :: more) := by
    obtain ⟨front, back⟩ := holds_append.mp field.holds
    refine holds_append.mpr ⟨front.store_apart (.inl (by omega)), ?_⟩
    rw [← place] at back ⊢
    exact holds_cons.mpr ⟨store_self, (holds_cons.mp back).2.store_apart (.inr (by simp))⟩
  have text : load (store ethers.b.bytes ethers.i [0]) ethers.bp (ethers.b.size - ethers.bp) =
      token ++ 0 :: more := by
    unfold Holds at holds
    rw [List.length_append, List.length_cons] at holds
    rw [show ethers.b.size - ethers.bp = token.length + (more.length + 1) by omega]
    exact holds
  have short := @cString_length token
  simp only [readString, Guarded.put_bytes, Guarded.put_size, text, cString_terminated]
  rw [touch_eq (by rw [Guarded.put_size]; omega)]

theorem endField_field (field : Field blen ethers token more sep) :
    ∃ b, endField { ethers with b := ethers.b.put ethers.i [0] } = { fieldRead token ethers with b } ∧
      b.size = blen ∧ b.inside = true ∧ Holds b.bytes ethers.i (0 :: more) := by
  have left := field.left
  have place := field.place
  have size := field.size
  rw [List.length_cons] at left
  have inside : (ethers.b.put ethers.i [0]).inside = true := by
    rw [Guarded.put_inside_iff]
    exact ⟨field.inside, .inr (by simp only [List.length_singleton]; omega)⟩
  have holds : Holds (store ethers.b.bytes ethers.i [0]) ethers.i (0 :: more) := by
    obtain ⟨-, back⟩ := holds_append.mp field.holds
    rw [← place] at back
    exact holds_cons.mpr ⟨store_self, (holds_cons.mp back).2.store_apart (.inr (by simp))⟩
  have short := @cString_length token
  have length : (blankOther (cString token)).length = (cString token).length := List.length_map _
  have text := readString_field field
  cases state : ethers.state with
  | mac =>
      refine ⟨(ethers.b.put ethers.i [0]).put ethers.bp (blankOther (cString token)), ?_, size, ?_, ?_⟩
      · simp only [endField, state, text, fieldRead, readMac]
        cases scanMac (blankOther (cString token)) <;> rfl
      · rw [Guarded.put_inside_iff]
        exact ⟨inside, .inr (by rw [Guarded.put_size]; omega)⟩
      · exact holds.store_apart (.inr (by omega))
  | ip =>
      refine ⟨ethers.b.put ethers.i [0], ?_, size, inside, holds⟩
      simp only [endField, state, text, fieldRead, readIp]
      cases inetAton (cString token) <;> rfl
  | both => exact ⟨ethers.b.put ethers.i [0], by simp only [endField, state, fieldRead], size, inside, holds⟩
  | failed => exact ⟨ethers.b.put ethers.i [0], by simp only [endField, state, fieldRead], size, inside, holds⟩

/-- A round at a separator: the next field begins behind what is skipped. -/
theorem round_separator (field : Field blen ethers token more sep) (running : ethers.state ≠ .failed)
    (separates : isSeparator sep = true) :
    ∃ b, ethersRound blen ethers = some (.inl { separated (isNewline sep) (fieldRead token ethers) with
        b, i := ethers.i + 1 + (more.takeWhile isSkipped).length
        bp := ethers.i + 1 + (more.takeWhile isSkipped).length }) ∧
      b.size = blen ∧ b.inside = true ∧
        Holds b.bytes (ethers.i + 1 + (more.takeWhile isSkipped).length) (more.dropWhile isSkipped) := by
  have left := field.left
  have place := field.place
  have size := field.size
  obtain ⟨b, ended, size', inside', holds⟩ := endField_field field
  have back := (holds_append.mp field.holds).2
  rw [← place] at back
  have byte := (holds_cons.mp back).1
  have same : ethers.b.touch ethers.i 1 = ethers.b := touch_eq (by rw [List.length_cons] at left; omega)
  have sign : sep ≠ commentSign := by
    rintro rfl
    cases separates
  have passed : whileByte isSkipped (blen - ethers.i) ethers.i b =
      (b, ethers.i + 1 + (more.takeWhile isSkipped).length) := by
    have all := @whileByte_eq ethers.i b isSkipped _ holds (by simpa [size'] using left)
    have counted : ((0 : UInt8) :: more).takeWhile isSkipped = 0 :: more.takeWhile isSkipped :=
      List.takeWhile_cons_of_pos (by decide)
    rw [List.length_cons] at left
    rw [show blen - ethers.i = ((0 : UInt8) :: more).length by rw [List.length_cons]; omega, all, counted,
      List.length_cons, Nat.add_assoc, Nat.add_comm 1]
  have keeps : (fieldRead token ethers).i = ethers.i := by
    unfold fieldRead
    split
    · split <;> rfl
    · split <;> rfl
    · rfl
  refine ⟨b, ?_, size', inside', ?_⟩
  · unfold ethersRound
    rw [if_pos ⟨running, by rw [List.length_cons] at left; omega⟩]
    simp only [same, byte, if_neg sign, separates, if_true, separate, running, and_false, if_false, ended,
      separated, keeps]
    by_cases emits : isNewline sep = true ∨ (fieldRead token ethers).state = .both
    · simp only [if_pos emits, passed]
    · simp only [if_neg emits, passed]
  · have parts := @List.takeWhile_append_dropWhile _ isSkipped more
    have behind := (holds_cons.mp holds).2
    rw [← parts] at behind
    exact holds_drop behind

/-- The variables that a field leaves behind, wherever it has left the scanner. -/
structure Leaves (next after : Ethers) : Prop where
  state : next.state = after.state
  mac : next.mac = after.mac
  ip : next.ip = after.ip
  reserved : next.reserved = after.reserved

/-- From the beginning of a field to the beginning of the next. -/
theorem advance (here : At blen ethers rest) (begins : ethers.i = ethers.bp)
    (running : ethers.state ≠ .failed) (found : untilSeparator false rest = some (token, sep, more)) :
    ∃ next : Ethers, LeadsTo blen ethers next ∧ At blen next (more.dropWhile isSkipped) ∧ next.i = next.bp ∧
      next.i = ethers.i + token.length + 1 + (more.takeWhile isSkipped).length ∧
      Leaves next
        (separated (isNewline sep) (fieldRead token { ethers with i := ethers.i + token.length })) := by
  have whole := untilSeparator_append found
  have left := here.left
  have holds := here.holds
  rw [whole, List.length_append, List.length_cons] at left
  have field : Field blen { ethers with i := ethers.i + token.length } token more sep :=
    ⟨here.size, here.inside, by simp only [begins], by rw [List.length_cons]; simp only; omega,
      by rw [begins, whole] at holds; exact holds⟩
  obtain ⟨b, round, size, inside, holds'⟩ := round_separator field running (untilSeparator_separator found)
  have skipped := congrArg List.length (@List.takeWhile_append_dropWhile _ isSkipped more)
  rw [List.length_append] at skipped
  exact ⟨_, (reach_separator here running found).trans (.round round),
    ⟨size, inside, by simp only; omega, holds'⟩, rfl, rfl, rfl, rfl, rfl, rfl⟩

/-- Where the scanner has given up. -/
theorem ends_failed (failed : ethers.state = .failed) (inside : ethers.b.inside = true) :
    EndsWith blen ethers [] := by
  refine ⟨1, ethers, ?_, inside, (List.append_nil _).symm⟩
  rw [loop, ethersRound, if_neg fun running => running.1 failed]

theorem newline_not_blank (separates : isSeparator sep = true) (blank : ¬ isBlank sep = true) :
    isNewline sep = true := by
  rcases Bool.or_eq_true _ _ ▸ separates with newline | impossible
  · exact newline
  · exact absurd impossible blank

/-- A call that is made where no entry ends. -/
theorem call_lost {call : Reserved} {place : Nat} (apart : call ∉ entries place .fresh rest)
    (unlike : ¬ ScansAlike place rest) : call :: out = entries place .fresh rest ↔ ScansAlike place rest :=
  ⟨fun same => absurd (same ▸ List.mem_cons_self) apart, fun alike => absurd alike unlike⟩

theorem fieldRead_newline (state : ethers.state = .mac) :
    (separated true (fieldRead token ethers)).state = .mac ∧
      ∃ call, (separated true (fieldRead token ethers)).reserved = ethers.reserved ++ [call] ∧
        call.place = ethers.i := by
  unfold fieldRead separated
  rw [state]
  cases readMac token with
  | none => exact ⟨rfl, _, rfl, rfl⟩
  | some mac => exact ⟨rfl, _, rfl, rfl⟩

theorem fieldRead_refused (state : ethers.state = .mac) (refused : readMac token = none) :
    (separated false (fieldRead token ethers)).state = .failed ∧
      (separated false (fieldRead token ethers)).reserved = ethers.reserved := by
  simp [fieldRead, separated, state, refused]

theorem fieldRead_mac {mac : Mac} (state : ethers.state = .mac) (hardware : readMac token = some mac) :
    (separated false (fieldRead token ethers)).state = .ip ∧
      (separated false (fieldRead token ethers)).mac = mac ∧
        (separated false (fieldRead token ethers)).reserved = ethers.reserved := by
  simp [fieldRead, separated, state, hardware]

theorem fieldRead_ip {ip : UInt32} {newline : Bool} (state : ethers.state = .ip)
    (address : readIp token = some ip) :
    (separated newline (fieldRead token ethers)).state = .mac ∧
      (separated newline (fieldRead token ethers)).reserved =
        ethers.reserved ++ [⟨ethers.i, ethers.mac, some ip⟩] := by
  simp [fieldRead, separated, state, address]

theorem fieldRead_noIp (state : ethers.state = .ip) (refused : readIp token = none) :
    (separated false (fieldRead token ethers)).state = .failed ∧
      (separated false (fieldRead token ethers)).reserved = ethers.reserved := by
  simp [fieldRead, separated, state, refused]

theorem fieldRead_noIp_newline (state : ethers.state = .ip) (refused : readIp token = none) :
    (separated true (fieldRead token ethers)).state = .mac ∧
      ∃ call, (separated true (fieldRead token ethers)).reserved = ethers.reserved ++ [call] ∧
        call.place = ethers.i := by
  simp [fieldRead, separated, state, refused]

/-- The scanner ends, and finds the entries of what is left if and only if it reads it alike. -/
def Scans (blen : Nat) (ethers : Ethers) (rest : List UInt8) : Prop :=
  ∃ out, EndsWith blen ethers out ∧
    (out = entries ethers.i .fresh rest ↔ ScansAlike ethers.i rest)

/-- So it does for shorter texts. -/
def ScansBelow (blen bound : Nat) : Prop :=
  ∀ ethers rest, rest.length < bound → At blen ethers rest → ethers.i = ethers.bp →
    ethers.state = .mac → Scans blen ethers rest

theorem EndsWith.of_call {call : Reserved} (leads : LeadsTo blen ethers after)
    (calls : after.reserved = ethers.reserved ++ [call]) (ends : EndsWith blen after out) :
    EndsWith blen ethers (call :: out) := .of_leads leads calls ends

theorem dropWhile_shorter (found : untilSeparator false rest = some (token, sep, more)) :
    (more.dropWhile isSkipped).length < rest.length := by
  have lengths := congrArg List.length (untilSeparator_append found)
  have fewer := (List.dropWhile_suffix isSkipped (l := more)).length_le
  rw [List.length_append, List.length_cons] at lengths
  omega

/-- A line ends behind its first field. -/
theorem scan_newline (below : ScansBelow blen rest.length) (here : At blen ethers rest)
    (begins : ethers.i = ethers.bp) (state : ethers.state = .mac)
    (first : untilSeparator false rest = some (token, sep, more)) (blank : ¬ isBlank sep = true) :
    Scans blen ethers rest := by
  have running : ethers.state ≠ .failed := by simp [state]
  obtain ⟨next, leads, here', begins', -, leaves⟩ := advance here begins running first
  rw [newline_not_blank (untilSeparator_separator first) blank] at leaves
  have there : ({ ethers with i := ethers.i + token.length } : Ethers).state = .mac := state
  obtain ⟨state', call, reserved, place⟩ := @fieldRead_newline _ token there
  obtain ⟨out, ends, -⟩ := below next _ (dropWhile_shorter first) here' begins' (leaves.state.trans state')
  refine ⟨call :: out, .of_call leads (leaves.reserved.trans reserved) ends,
    call_lost (fun member => ?_) (not_alike_newline first blank)⟩
  exact entries_first_apart first member place

section

variable {mac : Mac} {token' more' : List UInt8} {sep' : UInt8}

/-- A MAC address and a second field. -/
theorem scan_second {next : Ethers} (below : ScansBelow blen rest.length)
    (first : untilSeparator false rest = some (token, sep, more)) (blank : isBlank sep = true)
    (hardware : readMac token = some mac) (leads : LeadsTo blen ethers next)
    (here : At blen next (more.dropWhile isSkipped)) (begins : next.i = next.bp)
    (place : next.i = ethers.i + token.length + 1 + (more.takeWhile isSkipped).length)
    (state : next.state = .ip) (mac' : next.mac = mac) (calls : next.reserved = ethers.reserved)
    (second : untilSeparator false (more.dropWhile isSkipped) = some (token', sep', more')) :
    Scans blen ethers rest := by
  have shorter := Nat.lt_trans (dropWhile_shorter second) (dropWhile_shorter first)
  obtain ⟨last, leads', here', begins', place', leaves⟩ := advance here begins (by simp [state]) second
  have there : ({ next with i := next.i + token'.length } : Ethers).state = .ip := state
  cases address : readIp token' with
  | none =>
      by_cases blank' : isBlank sep' = true
      · rw [blank_not_newline blank'] at leaves
        obtain ⟨failed, none'⟩ := fieldRead_noIp there address
        have calls' : last.reserved = ethers.reserved ++ [] := by
          rw [leaves.reserved, none', calls, List.append_nil]
        exact ⟨[], .of_leads (leads.trans leads') calls'
            (ends_failed (leaves.state.trans failed) here'.inside),
          stopped_iff ⟨token, sep, more, first, blank, .inr (.inr
            ⟨token', sep', more', second, blank', address⟩)⟩⟩
      · rw [newline_not_blank (untilSeparator_separator second) blank'] at leaves
        obtain ⟨state', call, reserved, at'⟩ := fieldRead_noIp_newline there address
        obtain ⟨out, ends, -⟩ := below last _ shorter here' begins' (leaves.state.trans state')
        refine ⟨call :: out, .of_call (leads.trans leads') ?_ ends, call_lost (fun member => ?_)
          (not_alike_refused first hardware second address blank')⟩
        · rw [leaves.reserved, reserved, calls]
        · exact entries_refused_apart first blank second address member (by rw [at', place])
  | some ip =>
      obtain ⟨state', reserved⟩ := @fieldRead_ip _ _ _ (isNewline sep') there address
      obtain ⟨out, ends, same⟩ := below last _ shorter here' begins' (leaves.state.trans state')
      rw [place', place] at same
      have call : last.reserved = ethers.reserved ++ [⟨ethers.i + token.length + 1 +
          (more.takeWhile isSkipped).length + token'.length, mac, some ip⟩] := by
        rw [leaves.reserved, reserved, calls, mac', place]
      refine ⟨_, .of_call (leads.trans leads') call ends, ?_⟩
      rw [alike_entry_iff first blank hardware second address, ← same]
      by_cases stands : Stands token (more.takeWhile isSkipped) token' (sep' :: more') mac
      · rw [entries_stands first blank second address stands]
        simp only [List.cons.injEq, true_and, stands]
      · constructor
        · intro equal
          exact absurd (equal ▸ List.mem_cons_self)
            (entries_not_stands first blank second address stands ethers.i)
        · exact fun alike => absurd alike.1 stands

end

theorem scan_entries (here : At blen ethers rest) (begins : ethers.i = ethers.bp)
    (state : ethers.state = .mac) : Scans blen ethers rest := by
  induction left : rest.length using Nat.strong_induction_on generalizing rest ethers with
  | _ left' ih =>
      have below : ScansBelow blen rest.length := fun after rest' shorter here' begins' state' =>
        ih rest'.length (left ▸ shorter) here' begins' state' rfl
      have running : ethers.state ≠ .failed := by simp [state]
      cases first : untilSeparator false rest with
      | none =>
          have none' : entries ethers.i .fresh rest = [] := entries_ended first .fresh
          exact ⟨[], reach_end here running first, fun _ => .ended first, fun _ => none'.symm⟩
      | some found =>
          obtain ⟨token, sep, more⟩ := found
          by_cases blank : isBlank sep = true
          · obtain ⟨next, leads, here', begins', place, leaves⟩ := advance here begins running first
            rw [blank_not_newline blank] at leaves
            have there : ({ ethers with i := ethers.i + token.length } : Ethers).state = .mac := state
            cases hardware : readMac token with
            | none =>
                obtain ⟨failed, calls⟩ := fieldRead_refused there hardware
                exact ⟨[], .of_leads leads (by rw [leaves.reserved, calls, List.append_nil])
                  (ends_failed (leaves.state.trans failed) here'.inside),
                    stopped_iff ⟨token, sep, more, first, blank, .inl hardware⟩⟩
            | some mac =>
                obtain ⟨state', mac', calls⟩ := fieldRead_mac there hardware
                have calls' : next.reserved = ethers.reserved := leaves.reserved.trans calls
                have state'' : next.state = .ip := leaves.state.trans state'
                cases second : untilSeparator false (more.dropWhile isSkipped) with
                | none =>
                    exact ⟨[], .of_leads leads (by rw [calls', List.append_nil])
                        (reach_end here' (by simp [state'']) second),
                      stopped_iff ⟨token, sep, more, first, blank, .inr (.inl second)⟩⟩
                | some found' =>
                    exact scan_second below first blank hardware leads here' begins' place state''
                      (leaves.mac.trans mac') calls' second
          · exact scan_newline below here begins state first blank

/-- The scanner ends, inside the buffer. It makes a call at the end of each well-formed entry, with
what the entry says, and no other call, if and only if it reads alike all of the text. -/
theorem dhcpReserveStr_entries_iff (text : List UInt8) : ∃ fuel after,
    dhcpReserveStr fuel text = .done after ∧ after.b.inside = true ∧
      (after.reserved = entries 0 .fresh text ↔ ScansAlike 0 text) := by
  have here : At text.length
      { b := ⟨text.length, fun place => (text[place]?).getD 0, true⟩, i := 0, bp := 0, state := .mac
        mac := .replicate 6 0, ip := none, reserved := [] } text := by
    refine ⟨rfl, rfl, Nat.zero_add _, ?_⟩
    apply List.ext_getElem?
    intro index
    rw [load_getElem?]
    split
    · rename_i below
      simp only [Nat.zero_add, List.getElem?_eq_getElem below, Option.getD_some]
    · rename_i above
      rw [List.getElem?_eq_none (by omega)]
  obtain ⟨out, ⟨fuel, after, done, inside, reserved⟩, same⟩ := scan_entries here rfl rfl
  rw [List.nil_append] at reserved
  exact ⟨fuel, after, done, inside, reserved ▸ same⟩

/-- At a line without an entry the pair of the entry before is reserved again. -/
theorem dhcpReserveStr_stale : ∃ after, dhcpReserveStr 64 (ascii "0:1:2:3:4:5 1.2.3.4\nx\n") = .done after ∧
    after.reserved = [⟨19, #v[0, 1, 2, 3, 4, 5], some 0x01020304⟩, ⟨21, #v[0, 1, 2, 3, 4, 5], some 0x01020304⟩] ∧
      entries 0 .fresh (ascii "0:1:2:3:4:5 1.2.3.4\nx\n") =
        [⟨19, #v[0, 1, 2, 3, 4, 5], some 0x01020304⟩] := by
  refine ⟨_, rfl, ?_, ?_⟩
  · decide
  · decide

end Rut9xx.Chilli
