import Rut9xx.Chilli.Frame
import Rut9xx.Data.Loop
import Rut9xx.Data.OptionList

namespace Rut9xx.Chilli

open Data

/-! # Looking up a DHCP option -/

section

def dhcpMinLen : Nat := 28 + 16 + 64 + 128

def dhcpOptionMagicLen : Nat := 4

def dhcpOptionPad : UInt8 := 0

def dhcpOptionEnd : UInt8 := 255

/-- The options as the format has them. -/
def dhcpFormat : OptionFormat := ⟨dhcpOptionPad, dhcpOptionEnd, 2⟩

/-- A round of the loop of `dhcp_gettag`. What is found is the place of the tag; none is -1. -/
def gettagRound (pack : List UInt8) (length : Nat) (tagtype : UInt8) (offset : Nat) :
    Option (Nat ⊕ Option Nat) :=
  if offset + 2 < length then do
    let t ← pack[offset]?
    let l ← pack[offset + 1]?
    if t = tagtype then
      if length < offset + 2 + l.toNat then some (.inr none) else some (.inr (some offset))
    else some (.inl (offset + (2 + l.toNat)))
  else some (.inr none)

/-- `dhcp_gettag`: each round takes the offset two bytes on at least. -/
def dhcpGettag (pack : List UInt8) (length : Nat) (tagtype : UInt8) : Outcome (Option Nat) :=
  loop (gettagRound pack length tagtype) (length + 1) (dhcpMinLen + dhcpOptionMagicLen)

/-- A frame as it stands in the receive buffer. -/
def received (frame : List UInt8) : Memory UInt8 := fun place => frame.getD place 0

/-- The bytes of `pkt_dhcppkt`, without the trailer of the frame. -/
def dhcpPacket (frame : List UInt8) : List UInt8 :=
  (frame.take (ethTotLen (received frame))).drop (sizeofudp (received frame))

/-- How long the UDP header has it. -/
def dhcpLength (frame : List UInt8) : Nat := udphLen (received frame) - pktUdpHlen

/-- The lookup of `dhcp_getreq` in a frame. -/
def getreqGettag (frame : List UInt8) (tagtype : UInt8) : Outcome (Option Nat) :=
  dhcpGettag (dhcpPacket frame) (dhcpLength frame) tagtype

end

/-! ## The first option of a type -/

variable {pack : List UInt8} {length offset place fuel : Nat} {tagtype t l other : UInt8}
  {result : Option Nat}

/-- The place of the first option of a type, among those from `place` on. -/
def firstOption (bytes : List UInt8) (tagtype : UInt8) (place : Nat) : Option Nat :=
  ((optionsFrom dhcpFormat bytes place).find? fun found => found.2.tag = tagtype).map Prod.fst

/-- The first place of the type that the length octets lead to, without a look at the tags. -/
inductive LedTo (pack : List UInt8) (length : Nat) (tagtype : UInt8) : Nat → Option Nat → Prop where
  | past {place : Nat} (ended : length ≤ place + 2) : LedTo pack length tagtype place none
  | found {place : Nat} {l : UInt8} (inside : place + 2 < length)
      (here : pack[place]? = some tagtype) (next : pack[place + 1]? = some l)
      (whole : place + 2 + l.toNat ≤ length) : LedTo pack length tagtype place (some place)
  | cut {place : Nat} {l : UInt8} (inside : place + 2 < length)
      (here : pack[place]? = some tagtype) (next : pack[place + 1]? = some l)
      (long : length < place + 2 + l.toNat) : LedTo pack length tagtype place none
  | onward {place : Nat} {t l : UInt8} {result : Option Nat} (inside : place + 2 < length)
      (here : pack[place]? = some t) (other : t ≠ tagtype) (next : pack[place + 1]? = some l)
      (rest : LedTo pack length tagtype (place + (2 + l.toNat)) result) :
      LedTo pack length tagtype place result

/-- The options from `place` on are such that the length octets lead to the first of the type. -/
inductive ReadsAlike (pack : List UInt8) (length : Nat) (tagtype : UInt8) : Nat → Prop where
  | past {place : Nat} (ended : length < place + 2) : ReadsAlike pack length tagtype place
  | last {place : Nat} (ended : length = place + 2)
      (other : pack[place]? = some tagtype → pack[place + 1]? ≠ some 0) :
      ReadsAlike pack length tagtype place
  | found {place : Nat} {l : UInt8} (inside : place + 2 < length)
      (here : pack[place]? = some tagtype) (next : pack[place + 1]? = some l)
      (whole : place + 2 + l.toNat ≤ pack.length ∨ length < place + 2 + l.toNat) :
      ReadsAlike pack length tagtype place
  | option {place : Nat} {t l : UInt8} (inside : place + 2 < length)
      (here : pack[place]? = some t) (other : t ≠ tagtype) (noPad : t ≠ dhcpOptionPad)
      (noEnd : t ≠ dhcpOptionEnd) (next : pack[place + 1]? = some l)
      (rest : ReadsAlike pack length tagtype (place + (2 + l.toNat))) :
      ReadsAlike pack length tagtype place
  | pads {place : Nat} (inside : place + 2 < length) (here : pack[place]? = some dhcpOptionPad)
      (next : pack[place + 1]? = some dhcpOptionPad) (rest : ReadsAlike pack length tagtype (place + 2)) :
      ReadsAlike pack length tagtype place
  /-- END, read as an option with a length, and nothing of the type behind it. -/
  | ended {place : Nat} {l : UInt8} (inside : place + 2 < length)
      (here : pack[place]? = some dhcpOptionEnd) (next : pack[place + 1]? = some l)
      (none' : LedTo pack length tagtype (place + (2 + l.toNat)) none) :
      ReadsAlike pack length tagtype place
  /-- A PAD, read as an option with the next octet for its length, but behind it all the same. -/
  | parted {place : Nat} {l : UInt8} (inside : place + 2 < length)
      (here : pack[place]? = some dhcpOptionPad) (next : pack[place + 1]? = some l)
      (noPad : l ≠ dhcpOptionPad)
      (same : LedTo pack length tagtype (place + (2 + l.toNat))
        (firstOption (pack.take length) tagtype (place + 1))) :
      ReadsAlike pack length tagtype place

/-! ## What the loop finds -/

/-- The loop ends, and finds what the length octets lead to. -/
theorem gettag_led (enough : length - offset < fuel)
    (done : loop (gettagRound pack length tagtype) fuel offset = .done result) :
    LedTo pack length tagtype offset result := by
  induction fuel generalizing offset with
  | zero => omega
  | succ fuel ih =>
      rw [loop] at done
      by_cases inside : offset + 2 < length
      · cases here : pack[offset]? with
        | none =>
            simp only [gettagRound, if_pos inside, here] at done
            cases done
        | some t =>
            cases next : pack[offset + 1]? with
            | none =>
                simp only [gettagRound, if_pos inside, here, next] at done
                cases done
            | some l =>
                simp only [gettagRound, if_pos inside, here, next, Option.bind_eq_bind,
                  Option.bind_some] at done
                by_cases same : t = tagtype
                · subst same
                  rw [if_pos rfl] at done
                  by_cases long : length < offset + 2 + l.toNat
                  · rw [if_pos long] at done
                    cases done
                    exact .cut inside here next long
                  · rw [if_neg long] at done
                    cases done
                    exact .found inside here next (Nat.not_lt.mp long)
                · rw [if_neg same] at done
                  exact .onward inside here same next (ih (by omega) done)
      · simp only [gettagRound, if_neg inside] at done
        cases done
        exact .past (by omega)

theorem LedTo.gettag (led : LedTo pack length tagtype offset result)
    (enough : length - offset < fuel) :
    loop (gettagRound pack length tagtype) fuel offset = .done result := by
  induction led generalizing fuel with
  | @past place ended =>
      obtain ⟨fuel, rfl⟩ := Nat.exists_eq_add_of_lt enough
      rw [loop]
      simp only [gettagRound, if_neg (Nat.not_lt.mpr ended)]
  | @found place l inside here next whole =>
      obtain ⟨fuel, rfl⟩ := Nat.exists_eq_add_of_lt enough
      rw [loop]
      simp only [gettagRound, if_pos inside, here, next, Option.bind_eq_bind, Option.bind_some,
        if_neg (Nat.not_lt.mpr whole), if_true]
  | @cut place l inside here next long =>
      obtain ⟨fuel, rfl⟩ := Nat.exists_eq_add_of_lt enough
      rw [loop]
      simp only [gettagRound, if_pos inside, here, next, Option.bind_eq_bind, Option.bind_some,
        if_pos long, if_true]
  | @onward place t l result inside here other next rest ih =>
      obtain ⟨more, rfl⟩ := Nat.exists_eq_add_of_lt enough
      rw [loop]
      simp only [gettagRound, if_pos inside, here, next, Option.bind_eq_bind, Option.bind_some,
        if_neg other]
      exact ih (by omega)

theorem dhcpGettag_iff :
    dhcpGettag pack length tagtype = .done result ↔
      LedTo pack length tagtype (dhcpMinLen + dhcpOptionMagicLen) result :=
  ⟨gettag_led (by omega), fun led => led.gettag (by omega)⟩

/-! ## The first option by the format -/

section

variable {bytes : List UInt8}

theorem firstOption_over (past : bytes.length ≤ place + 1) :
    firstOption bytes tagtype place = none := by
  have nothing : optionsFrom dhcpFormat bytes place = [] := by
    rcases Nat.eq_or_lt_of_le past with last | beyond
    · exact optionsFrom_last last
    · exact optionsFrom_past (Nat.le_of_lt_succ beyond)
  rw [firstOption, nothing]
  rfl

theorem firstOption_end (here : bytes[place]? = some dhcpOptionEnd) :
    firstOption bytes tagtype place = none := by
  rw [firstOption, @optionsFrom_stop dhcpFormat bytes place here]
  rfl

theorem firstOption_pad (tagtype : UInt8) (here : bytes[place]? = some dhcpOptionPad) :
    firstOption bytes tagtype place = firstOption bytes tagtype (place + 1) := by
  rw [firstOption, @optionsFrom_pad dhcpFormat bytes place (by decide) here, firstOption]

theorem dhcpFormat_size (l : UInt8) : dhcpFormat.size l = 2 + l.toNat := Nat.add_comm _ _

theorem firstOption_here (noPad : tagtype ≠ dhcpOptionPad) (noEnd : tagtype ≠ dhcpOptionEnd)
    (here : bytes[place]? = some tagtype) (next : bytes[place + 1]? = some l) :
    firstOption bytes tagtype place = if place + 2 + l.toNat ≤ bytes.length then some place else none := by
  have size := dhcpFormat_size l
  by_cases whole : place + 2 + l.toNat ≤ bytes.length
  · rw [if_pos whole, firstOption, optionsFrom_option here noEnd noPad next (by omega) (by omega)]
    simp
  · rw [if_neg whole, firstOption, optionsFrom_broken here noEnd noPad next (by omega)]
    rfl

theorem firstOption_other (other : t ≠ tagtype) (noPad : t ≠ dhcpOptionPad)
    (noEnd : t ≠ dhcpOptionEnd) (here : bytes[place]? = some t) (next : bytes[place + 1]? = some l) :
    firstOption bytes tagtype place = firstOption bytes tagtype (place + (2 + l.toNat)) := by
  have size := dhcpFormat_size l
  by_cases whole : place + 2 + l.toNat ≤ bytes.length
  · rw [firstOption, optionsFrom_option here noEnd noPad next (by omega) (by omega), size, firstOption]
    simp [other]
  · rw [firstOption, optionsFrom_broken here noEnd noPad next (by omega), firstOption_over (by omega)]
    rfl

end

/-! ## Where the two agree -/

theorem take_getElem? (length place : Nat) (inside : place < length) : (pack.take length)[place]? = pack[place]? :=
  List.getElem?_take_of_lt inside

theorem LedTo.readsAlike (noPad : tagtype ≠ dhcpOptionPad) (noEnd : tagtype ≠ dhcpOptionEnd)
    {bound : Nat} (near : length - place < bound)
    (led : LedTo pack length tagtype place (firstOption (pack.take length) tagtype place)) :
    ReadsAlike pack length tagtype place := by
  induction bound generalizing place with
  | zero => omega
  | succ bound ih =>
      generalize same : firstOption (pack.take length) tagtype place = result at led
      cases led with
      | past ended =>
          rcases Nat.eq_or_lt_of_le ended with last | short
          · refine .last last fun here empty => ?_
            have inside := (List.getElem?_eq_some_iff.mp empty).1
            have found := firstOption_here noPad noEnd ((take_getElem? length place (by omega)).trans here)
              ((take_getElem? _ _ (by omega)).trans empty)
            rw [same, if_pos (by
              rw [List.length_take]
              simp only [UInt8.toNat_zero]
              omega)] at found
            cases found
          · exact .past short
      | found inside here next whole =>
          have found := firstOption_here noPad noEnd ((take_getElem? length place (by omega)).trans here)
            ((take_getElem? _ _ (by omega)).trans next)
          rw [same, List.length_take] at found
          refine .found inside here next (.inl ?_)
          by_contra long
          rw [if_neg (by omega)] at found
          cases found
      | cut inside here next long => exact .found inside here next (.inr long)
      | @onward _ t l _ inside here other next rest =>
          have here' := (take_getElem? length place (by omega)).trans here
          have next' := (take_getElem? length (place + 1) (by omega)).trans next
          by_cases isEnd : t = dhcpOptionEnd
          · subst isEnd
            rw [← same, firstOption_end here'] at rest
            exact .ended inside here next rest
          by_cases isPad : t = dhcpOptionPad
          · subst isPad
            have behind := (firstOption_pad tagtype here').symm.trans same
            by_cases pads : l = dhcpOptionPad
            · subst pads
              have further := (firstOption_pad tagtype next').symm.trans behind
              rw [← further] at rest
              exact .pads inside here next (ih (by omega) rest)
            · rw [← behind] at rest
              exact .parted inside here next pads rest
          · have further := (firstOption_other other isPad isEnd here' next').symm.trans same
            rw [← further] at rest
            exact .option inside here other isPad isEnd next (ih (by omega) rest)

theorem ReadsAlike.led (noPad : tagtype ≠ dhcpOptionPad) (noEnd : tagtype ≠ dhcpOptionEnd)
    (alike : ReadsAlike pack length tagtype place) :
    LedTo pack length tagtype place (firstOption (pack.take length) tagtype place) := by
  induction alike with
  | @past place ended =>
      rw [firstOption_over (by
        rw [List.length_take]
        omega)]
      exact .past (by omega)
  | @last place ended other =>
      have nothing : firstOption (pack.take length) tagtype place = none := by
        cases here : pack[place]? with
        | none =>
            have past := List.getElem?_eq_none_iff.mp here
            exact firstOption_over (by
              rw [List.length_take]
              omega)
        | some t =>
            cases next : pack[place + 1]? with
            | none =>
                have past := List.getElem?_eq_none_iff.mp next
                exact firstOption_over (by
                  rw [List.length_take]
                  omega)
            | some l =>
                have here' := (take_getElem? length place (by omega)).trans here
                have next' := (take_getElem? length (place + 1) (by omega)).trans next
                by_cases isEnd : t = dhcpOptionEnd
                · exact firstOption_end (isEnd ▸ here')
                by_cases isPad : t = dhcpOptionPad
                · rw [firstOption_pad _ (isPad ▸ here'), firstOption_over (by
                    rw [List.length_take]
                    omega)]
                by_cases isTag : t = tagtype
                · subst isTag
                  have some' : l.toNat ≠ 0 := by
                    intro zero
                    exact other here (next.trans (congrArg some (UInt8.toNat_inj.mp zero)))
                  rw [firstOption_here noPad noEnd here' next', if_neg (by
                    rw [List.length_take]
                    omega)]
                · rw [firstOption_other isTag isPad isEnd here' next', firstOption_over (by
                    rw [List.length_take]
                    omega)]
      rw [nothing]
      exact .past (by omega)
  | @found place l inside here next whole =>
      rw [firstOption_here noPad noEnd ((take_getElem? _ _ (by omega)).trans here)
        ((take_getElem? _ _ (by omega)).trans next), List.length_take]
      rcases Nat.lt_or_ge length (place + 2 + l.toNat) with long | fits
      · rw [if_neg (by omega)]
        exact .cut inside here next long
      · rw [if_pos (by omega)]
        exact .found inside here next fits
  | @option place t l inside here other isPad isEnd next rest ih =>
      rw [firstOption_other other isPad isEnd ((take_getElem? _ _ (by omega)).trans here)
        ((take_getElem? _ _ (by omega)).trans next)]
      exact .onward inside here other next ih
  | @pads place inside here next rest ih =>
      rw [firstOption_pad _ ((take_getElem? _ _ (by omega)).trans here),
        firstOption_pad _ ((take_getElem? _ _ (by omega)).trans next)]
      exact .onward inside here noPad.symm next ih
  | @ended place l inside here next none' =>
      rw [firstOption_end ((take_getElem? _ _ (by omega)).trans here)]
      exact .onward inside here noEnd.symm next none'
  | @parted place l inside here next other same =>
      rw [firstOption_pad _ ((take_getElem? _ _ (by omega)).trans here)]
      exact .onward inside here noPad.symm next same

/-- The lookup finds the first option of the type exactly in the packets that read alike. -/
theorem dhcpGettag_first_iff (noPad : tagtype ≠ dhcpOptionPad) (noEnd : tagtype ≠ dhcpOptionEnd) :
    dhcpGettag pack length tagtype =
        .done (firstOption (pack.take length) tagtype (dhcpMinLen + dhcpOptionMagicLen)) ↔
      ReadsAlike pack length tagtype (dhcpMinLen + dhcpOptionMagicLen) :=
  dhcpGettag_iff.trans ⟨fun led => led.readsAlike noPad noEnd (Nat.lt_succ_self _),
    fun alike => alike.led noPad noEnd⟩

section

variable {frame : List UInt8}

/-- In every frame, those that pass the checks of the lengths included. -/
theorem getreqGettag_first_iff (noPad : tagtype ≠ dhcpOptionPad) (noEnd : tagtype ≠ dhcpOptionEnd) :
    getreqGettag frame tagtype =
        .done (firstOption ((dhcpPacket frame).take (dhcpLength frame)) tagtype
          (dhcpMinLen + dhcpOptionMagicLen)) ↔
      ReadsAlike (dhcpPacket frame) (dhcpLength frame) tagtype (dhcpMinLen + dhcpOptionMagicLen) :=
  dhcpGettag_first_iff noPad noEnd

/-- What the checks leave of the options of a packet without IP options that is no fragment: they
are all in the frame. -/
theorem receiveIpLengths_whole {mtu : Nat}
    (checked : receiveIpLengths (received frame) frame.length mtu = true)
    (plain : headerLen (received frame) = pktIpHlen) (whole : isFragment (received frame) = false)
    (small : iphTotLen (received frame) + sizeofeth (received frame) < 2 ^ 16) :
    (dhcpPacket frame).length = dhcpLength frame := by
  simp only [receiveIpLengths, whole, Bool.or_false, Bool.and_eq_true, decide_eq_true_eq] at checked
  obtain ⟨⟨⟨⟨⟨⟨⟨⟨⟨-, -⟩, inside⟩, -⟩, -⟩, -⟩, -⟩, least⟩, -⟩, total⟩ := checked
  have most := Nat.mod_le frame.length (2 ^ 16)
  rw [ethTotLen, Nat.mod_eq_of_lt small] at inside
  simp only [dhcpPacket, dhcpLength, sizeofudp, sizeofip, ethTotLen, plain, Nat.mod_eq_of_lt small,
    List.length_drop, List.length_take]
  omega

end

def dhcpOptionMessageType : UInt8 := 53

/-- A DHCPDISCOVER whose options are padded in front. -/
def padFrame : List UInt8 :=
  List.replicate 12 0 ++ [8, 0] ++
    [0x45, 0, 1, 17, 0, 0, 0, 0, 16, 17, 0, 0, 0, 0, 0, 0, 255, 255, 255, 255] ++
      [0, 68, 0, 67, 0, 253, 0, 0] ++ List.replicate 236 0 ++ [99, 130, 83, 99] ++ [0, 53, 1, 1, 255]

/-- The message type is taken for the length of the padding. -/
theorem getreqGettag_misses_padded :
    receiveIpLengths (received padFrame) padFrame.length 1500 = true ∧
      getreqGettag padFrame dhcpOptionMessageType = .done none ∧
        firstOption ((dhcpPacket padFrame).take (dhcpLength padFrame)) dhcpOptionMessageType
          (dhcpMinLen + dhcpOptionMagicLen) = some 241 := by
  refine ⟨by decide +kernel, by decide +kernel, ?_⟩
  rw [firstOption_pad _ (by rfl), firstOption_here (l := 1) (by decide) (by decide)
    (by rfl) (by rfl)]
  decide +kernel

theorem getreqGettag_first_iff_padded :
    getreqGettag padFrame dhcpOptionMessageType =
        .done (firstOption ((dhcpPacket padFrame).take (dhcpLength padFrame)) dhcpOptionMessageType
          (dhcpMinLen + dhcpOptionMagicLen)) ↔
      ReadsAlike (dhcpPacket padFrame) (dhcpLength padFrame) dhcpOptionMessageType
        (dhcpMinLen + dhcpOptionMagicLen) :=
  getreqGettag_first_iff (by decide) (by decide)

end Rut9xx.Chilli
