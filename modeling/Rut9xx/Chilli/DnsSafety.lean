import Rut9xx.Chilli.DnsName
import Rut9xx.Chilli.DnsNameSafety

namespace Rut9xx.Chilli

open Data

variable {options : DnsOptions} {isReq mdns q : Bool} {walk next : DnsWalk}
  {packet bytes text question : List UInt8}
  {position left count length type rdlen number olen : Nat}

/-! ## The data of a record -/

/-- One string of a TXT record logged. -/
inductive TextStep : List UInt8 × Nat → List UInt8 × Nat → Prop
  | string {l : UInt8} {rest : List UInt8} {txtlen : Nat} (nonzero : l ≠ 0) :
      TextStep (l :: rest, txtlen + 1) (rest.drop l.toNat, txtlen - l.toNat)

/-- The next string of the record ends, or is cut off by a NUL, before the packet ends. -/
def StringInside (cursor : List UInt8 × Nat) : Prop :=
  cursor.2 ≠ 0 → ∃ l rest, cursor.1 = l :: rest ∧ (l ≠ 0 → l.toNat ≤ rest.length ∨ 0 ∈ rest)

theorem printText_contained :
    Contained (printText text length) ↔ length ≤ text.length ∨ 0 ∈ text := by
  unfold printText
  split
  · rename_i inside
    simp [inside]
  · rename_i outside
    simp [outside]

theorem logText_contained_iff :
    Contained (logText text length) ↔ Throughout TextStep StringInside (text, length) := by
  induction length using Nat.strongRecOn generalizing text with
  | ind length ih =>
      rw [throughout_iff, logText.eq_def]
      cases length with
      | zero =>
          refine iff_of_true (contained_ok _) ⟨fun more => absurd rfl more, ?_⟩
          intro next step
          cases step
      | succ txtlen =>
          rw [if_neg (Nat.succ_ne_zero _)]
          cases text with
          | nil =>
              refine iff_of_false not_contained_read ?_
              intro inside
              obtain ⟨l, rest, impossible, -⟩ := inside.1 (Nat.succ_ne_zero _)
              cases impossible
          | cons l rest =>
              dsimp only
              by_cases zero : l = 0
              · rw [if_pos zero]
                refine iff_of_true (contained_ok _)
                  ⟨fun _ => ⟨l, rest, rfl, fun nonzero => absurd zero nonzero⟩, ?_⟩
                intro next step
                cases step
                contradiction
              · rw [if_neg zero, contained_bind, printText_contained, Nat.add_sub_cancel]
                have here : StringInside (l :: rest, txtlen + 1) ↔
                    l.toNat ≤ rest.length ∨ 0 ∈ rest := by
                  constructor
                  · intro inside
                    obtain ⟨l', rest', same, prints⟩ := inside (Nat.succ_ne_zero _)
                    cases same
                    exact prints zero
                  · intro prints _
                    exact ⟨l, rest, rfl, fun _ => prints⟩
                have later : Contained (logText (rest.drop l.toNat) (txtlen - l.toNat)) ↔
                    Throughout TextStep StringInside (rest.drop l.toNat, txtlen - l.toNat) :=
                  ih (txtlen - l.toNat) (by omega)
                rw [here, later]
                apply and_congr_right
                intro prints
                constructor
                · intro onward next step
                  cases step
                  exact onward () (if_pos prints)
                · intro onward _ _
                  exact onward _ (TextStep.string zero)

theorem readAddresses_contained (start : position ≤ packet.length) :
    Contained (readAddresses packet position count) ↔ position + 4 * count ≤ packet.length := by
  induction count generalizing position with
  | zero => exact iff_of_true (contained_ok _) (by omega)
  | succ count ih =>
      rw [readAddresses, contained_bind, readBytes_contained]
      constructor
      · intro contained
        obtain ⟨inside, later⟩ := contained
        have read : readBytes packet position 4 = .ok (slice packet position 4) := by
          rw [readBytes, if_pos inside]
        have := (ih inside).mp (contained_bind.mp (later _ read)).1
        omega
      · intro inside
        refine ⟨by omega, fun _ _ => contained_bind.mpr ⟨?_, fun _ _ => contained_ok _⟩⟩
        exact (ih (by omega)).mpr (by omega)

theorem readNumber_contained :
    Contained (readNumber packet position count) ↔ position + count ≤ packet.length := by
  rw [readNumber, contained_bind, readBytes_contained]
  constructor
  · intro contained
    exact contained.1
  · intro inside
    exact ⟨inside, fun _ _ => contained_ok _⟩

theorem readNumber_eq (inside : position + count ≤ packet.length) :
    readNumber packet position count = .ok (beNumber (slice packet position count)) := by
  rw [readNumber, readBytes, if_pos inside]
  rfl

/-! ## One record -/

/-- Between two records of a packet. -/
structure DnsWalk.Steady (walk : DnsWalk) : Prop where
  whole : walk.position + walk.left = walk.packet.length
  size : walk.question.length = questionSize
  terminated : 0 ∈ walk.question

def recordType (packet : List UInt8) (position : Nat) : Nat := beNumber (slice packet position 2)

def recordLength (packet : List UInt8) (position : Nat) : Nat :=
  beNumber (slice packet (position + 8) 2)

/-- The record behind a name that ends at `position`: the addresses that are read, four
bytes at a time, and the strings that are logged, end inside the packet. -/
def AnswerInside (options : DnsOptions) (mdns : Bool) (walk : DnsWalk) (position left : Nat) :
    Prop :=
  10 ≤ left → recordLength walk.packet position ≤ left - 10 →
    (recordType walk.packet position = 1 → mdns = true ∨ walk.qmatch = 1 →
      position + 10 + 4 * ((recordLength walk.packet position + 3) / 4) ≤ walk.packet.length) ∧
    (recordType walk.packet position = 16 → options.debug = true →
      Throughout TextStep StringInside
        (walk.packet.drop (position + 10), recordLength walk.packet position))

/-- What a call of `dns_copy_res` needs: its own name, then the question or the answer. -/
structure CallInside (options : DnsOptions) (mdns q : Bool) (walk : DnsWalk) : Prop where
  name : NameInside walk.packet walk.olen nameBuffer (pktIpPlen - 1)
    walk.position walk.left
  rest : ∀ namelen data,
    dnsFullname walk.packet walk.olen nameBuffer (pktIpPlen - 1) walk.position
      walk.left = .ok (namelen, data) →
    namelen + 4 ≤ walk.left → (options.dnsparanoia = true → namelen ≤ 128) →
      if q then
        NameInside walk.packet walk.olen walk.question questionSize walk.position walk.left
      else AnswerInside options mdns walk (walk.position + namelen) (walk.left - namelen)

theorem logQuestion_contained (terminated : 0 ∈ question) :
    Contained (logQuestion options question) := by
  obtain ⟨length, measured⟩ := stringLength_ok terminated
  unfold logQuestion
  split
  · simp [measured, contained_bind]
  · simp

theorem matchUamdomains_contained {qmatch : Int} (terminated : 0 ∈ question) :
    Contained (matchUamdomains options isReq qmatch question) := by
  obtain ⟨length, measured⟩ := stringLength_ok terminated
  unfold matchUamdomains
  split
  · simp [measured, contained_bind]
  · simp

theorem matchDomainfile_contained {qmatch : Int} (terminated : 0 ∈ question) :
    Contained (matchDomainfile options isReq qmatch question) := by
  obtain ⟨length, measured⟩ := stringLength_ok terminated
  unfold matchDomainfile
  cases options.domainfile with
  | none => simp
  | some check =>
      dsimp only
      split
      · simp [measured, contained_bind]
      · simp

theorem questionType_length (changed : questionType options isReq type = some bytes) :
    bytes.length = 2 := by
  unfold questionType at changed
  split at changed
  · split at changed
    · cases changed
      rfl
    · split at changed
      · cases changed
        rfl
      · cases changed
  · cases changed

theorem copyQuestion_contained (steady : walk.Steady) (left' : 4 ≤ left)
    (inside : position + left = walk.packet.length) :
    Contained (copyQuestion options isReq walk position left type) ↔
      NameInside walk.packet walk.olen walk.question questionSize walk.position walk.left := by
  have room : questionSize ≤ walk.question.length := Nat.le_of_eq steady.size.symm
  have nonempty : 0 < walk.question.length := by rw [steady.size]; decide
  rw [copyQuestion, contained_bind, dnsFullname_contained_iff nonempty room]
  apply and_iff_left
  intro result parsed
  obtain ⟨ret, question⟩ := result
  have terminated := (dnsFullname_keeps room parsed).2 steady.terminated
  dsimp only
  rw [contained_bind]
  refine ⟨logQuestion_contained terminated, fun _ _ => ?_⟩
  rw [contained_bind]
  refine ⟨matchUamdomains_contained terminated, fun qmatch _ => ?_⟩
  rw [contained_bind]
  refine ⟨matchDomainfile_contained terminated, fun qmatch _ => ?_⟩
  cases changed : questionType options isReq type with
  | none => simp
  | some bytes =>
      have size := questionType_length changed
      dsimp only
      rw [contained_bind, writeBytes_contained]
      exact ⟨by omega, fun _ _ => contained_ok _⟩

/-- Only the four bytes of the ttl and the mark are changed. -/
theorem rewriteTtl_ok (options : DnsOptions) (number : Nat)
    (inside : position + 4 ≤ walk.packet.length) :
    ∃ packet modified, rewriteTtl options walk position number =
      .ok { walk with packet, modified } ∧ packet.length = walk.packet.length ∧
        packet.drop (position + 4) = walk.packet.drop (position + 4) := by
  unfold rewriteTtl
  split
  · obtain ⟨packet, stored⟩ := writeAt_exists
      (show position + (be32 options.uamdomainTtl).length ≤ walk.packet.length from inside)
    refine ⟨packet, 1, ?_, writeAt_length stored, writeAt_drop stored (by simp)⟩
    rw [writeBytes_eq_ok.mpr stored]
    rfl
  · exact ⟨walk.packet, walk.modified, rfl, rfl, rfl⟩

theorem recordData_contained (start : position ≤ walk.packet.length) :
    Contained (recordData options mdns walk position type rdlen) ↔
      (type = 1 → mdns = true ∨ walk.qmatch = 1 →
        position + 4 * ((rdlen + 3) / 4) ≤ walk.packet.length) ∧
      (type = 16 → options.debug = true →
        Throughout TextStep StringInside (walk.packet.drop position, rdlen)) := by
  unfold recordData
  by_cases isA : type = 1
  · subst isA
    rw [if_pos rfl]
    cases mdns with
    | true => simp [contained_bind, readAddresses_contained start]
    | false =>
        by_cases matched : walk.qmatch = 1
        · simp [contained_bind, readAddresses_contained start, matched]
        · simp [matched]
  · rw [if_neg isA]
    by_cases logged : type = 16 ∧ options.debug = true
    · rw [if_pos logged, contained_bind, logText_contained_iff]
      simp [logged]
    · rw [if_neg logged]
      refine iff_of_true (contained_ok _) ⟨fun impossible => absurd impossible isA, ?_⟩
      intro isTxt debug
      exact absurd ⟨isTxt, debug⟩ logged

theorem recordRequired_none (unknown : recordRequired type = none) : type ≠ 1 ∧ type ≠ 16 := by
  constructor
  · intro isA
    subst isA
    cases unknown
  · intro isTxt
    subst isTxt
    cases unknown

theorem copyData_contained (start : position ≤ walk.packet.length) :
    Contained (copyData options mdns walk position left type rdlen) ↔
      (rdlen ≤ left →
        (type = 1 → mdns = true ∨ walk.qmatch = 1 →
          position + 4 * ((rdlen + 3) / 4) ≤ walk.packet.length) ∧
        (type = 16 → options.debug = true →
          Throughout TextStep StringInside (walk.packet.drop position, rdlen))) := by
  unfold copyData
  by_cases cut : left < rdlen
  · rw [if_pos cut]
    exact iff_of_true contained_refused fun fits => absurd fits (by omega)
  rw [if_neg cut, forall_prop_of_true (by omega)]
  cases known : recordRequired type with
  | none =>
      obtain ⟨notA, notTxt⟩ := recordRequired_none known
      exact iff_of_true contained_refused
        ⟨fun isA => absurd isA notA, fun isTxt => absurd isTxt notTxt⟩
  | some required =>
      dsimp only
      rw [contained_bind, recordData_contained start]
      apply and_iff_left
      intro walk _
      split
      · exact contained_refused
      · exact contained_ok _

theorem copyAnswer_eq (options : DnsOptions) (mdns : Bool) (type : Nat) (enough : 10 ≤ left) (inside : position + left = walk.packet.length) :
    ∃ packet modified, packet.length = walk.packet.length ∧
      packet.drop (position + 10) = walk.packet.drop (position + 10) ∧
        copyAnswer options mdns walk position left type =
          copyData options mdns { walk with packet, modified } (position + 10) (left - 10) type
            (recordLength walk.packet position) := by
  obtain ⟨packet, modified, rewritten, size, behind⟩ :=
    rewriteTtl_ok options (beNumber (slice walk.packet (position + 4) 4))
      (show position + 4 + 4 ≤ walk.packet.length by omega)
  refine ⟨packet, modified, size, ?_, ?_⟩
  · have := congrArg (List.drop 2) behind
    simpa only [List.drop_drop, Nat.add_assoc] using this
  · rw [copyAnswer, if_neg (by omega), readNumber_eq (by omega), readNumber_eq (by omega)]
    change (do
      let walk ← rewriteTtl options walk (position + 4)
        (beNumber (slice walk.packet (position + 4) 4))
      copyData options mdns walk (position + 10) (left - 10) type
        (beNumber (slice _ (position + 8) 2))) = _
    rw [rewritten]
    rfl

theorem copyAnswer_contained (inside : position + left = walk.packet.length) :
    Contained (copyAnswer options mdns walk position left (recordType walk.packet position)) ↔
      AnswerInside options mdns walk position left := by
  unfold AnswerInside
  by_cases short : left < 10
  · rw [copyAnswer, if_pos short]
    exact iff_of_true contained_refused fun enough => absurd short (by omega)
  obtain ⟨packet, modified, size, behind, same⟩ :=
    copyAnswer_eq options mdns (recordType walk.packet position)
      (show 10 ≤ left by omega) inside
  rw [same, copyData_contained (by dsimp only; omega)]
  dsimp only
  rw [size, behind]
  constructor
  · intro later _
    exact later
  · intro later
    exact later (by omega)

theorem copyAnswer_accepted (inside : position + left = walk.packet.length)
    (accepted : copyAnswer options mdns walk position left type = .ok next) :
    next.position = position + 10 + recordLength walk.packet position ∧
      next.position + next.left = next.packet.length ∧
        next.packet.length = walk.packet.length ∧ next.question = walk.question := by
  by_cases short : left < 10
  · rw [copyAnswer, if_pos short] at accepted
    cases accepted
  obtain ⟨packet, modified, size, -, same⟩ :=
    copyAnswer_eq options mdns type (show 10 ≤ left by omega) inside
  rw [same] at accepted
  unfold copyData at accepted
  split at accepted
  · cases accepted
  · rename_i fits
    split at accepted
    · cases accepted
    · obtain ⟨walked, recorded, accepted⟩ := bind_eq_ok.mp accepted
      have kept : ∃ garden, walked = { walk with packet, modified, garden } := by
        unfold recordData at recorded
        split at recorded
        · split at recorded
          · obtain ⟨addresses, -, recorded⟩ := bind_eq_ok.mp recorded
            cases recorded
            exact ⟨_, rfl⟩
          · split at recorded
            · obtain ⟨addresses, -, recorded⟩ := bind_eq_ok.mp recorded
              cases recorded
              exact ⟨_, rfl⟩
            · cases recorded
              exact ⟨_, rfl⟩
        · split at recorded
          · obtain ⟨-, -, recorded⟩ := bind_eq_ok.mp recorded
            cases recorded
            exact ⟨_, rfl⟩
          · cases recorded
            exact ⟨_, rfl⟩
      obtain ⟨garden, rfl⟩ := kept
      split at accepted
      · cases accepted
      · cases accepted
        exact ⟨rfl, by dsimp only; omega, size, rfl⟩

theorem copyQuestion_accepted (steady : walk.Steady) (enough : 4 ≤ left)
    (inside : position + left = walk.packet.length)
    (accepted : copyQuestion options isReq walk position left type = .ok next) : next.Steady := by
  have room : questionSize ≤ walk.question.length := Nat.le_of_eq steady.size.symm
  obtain ⟨⟨ret, question⟩, parsed, accepted⟩ := bind_eq_ok.mp accepted
  obtain ⟨_, -, accepted⟩ := bind_eq_ok.mp accepted
  obtain ⟨_, -, accepted⟩ := bind_eq_ok.mp accepted
  obtain ⟨_, -, accepted⟩ := bind_eq_ok.mp accepted
  obtain ⟨size, terminated⟩ := dnsFullname_keeps room parsed
  have kept := terminated steady.terminated
  split at accepted
  · obtain ⟨packet, written, accepted⟩ := bind_eq_ok.mp accepted
    cases accepted
    have stored := writeAt_length (writeBytes_eq_ok.mp written)
    exact ⟨by dsimp only at stored ⊢; omega, size.trans steady.size, kept⟩
  · cases accepted
    exact ⟨by dsimp only; omega, size.trans steady.size, kept⟩

/-! ## One call -/

/-- The rdata of an accepted answer: as many bytes as its length field says, all of them in
the packet, up to where the next record starts. -/
def RdataInside (walk next : DnsWalk) : Prop :=
  ∃ start, next.position = start + 10 + recordLength walk.packet start ∧
    next.position ≤ walk.packet.length

/-- The call reads inside the packet and writes inside its buffer and the packet, and an
answer it accepts has its rdata inside the packet. -/
def CallSafe (options : DnsOptions) (isReq mdns q : Bool) (walk : DnsWalk) : Prop :=
  Contained (dnsCopyRes options isReq mdns q walk) ∧
    (q = false → ∀ next, dnsCopyRes options isReq mdns q walk = .ok next → RdataInside walk next)

theorem nameBuffer_nonempty : 0 < nameBuffer.length := by
  rw [nameBuffer, List.length_replicate]
  decide

theorem nameBuffer_room : pktIpPlen - 1 ≤ nameBuffer.length := by
  rw [nameBuffer, List.length_replicate]
  decide

/-- What is behind the name of a record, once the lengths are checked. -/
theorem dnsCopyRes_eq {namelen : Nat} {data : List UInt8} (steady : walk.Steady)
    (named : dnsFullname walk.packet walk.olen nameBuffer (pktIpPlen - 1)
      walk.position walk.left = .ok (namelen, data))
    (enough : namelen + 4 ≤ walk.left) (honest : options.dnsparanoia = true → namelen ≤ 128) :
    dnsCopyRes options isReq mdns q walk =
      if q then copyQuestion options isReq walk (walk.position + namelen) (walk.left - namelen)
        (recordType walk.packet (walk.position + namelen))
      else copyAnswer options mdns walk (walk.position + namelen) (walk.left - namelen)
        (recordType walk.packet (walk.position + namelen)) := by
  have whole := steady.whole
  rw [dnsCopyRes, named]
  change (if namelen > walk.left then _ else _) = _
  rw [if_neg (by omega), if_neg (by simpa using honest), if_neg (by omega), readNumber_eq (by omega),
    readNumber_eq (by omega)]
  rfl

theorem dnsCopyRes_refused {namelen : Nat} {data : List UInt8}
    (named : dnsFullname walk.packet walk.olen nameBuffer (pktIpPlen - 1)
      walk.position walk.left = .ok (namelen, data))
    (bad : ¬ (namelen + 4 ≤ walk.left ∧ (options.dnsparanoia = true → namelen ≤ 128))) :
    dnsCopyRes options isReq mdns q walk = .error .refused := by
  rw [dnsCopyRes, named]
  change (if namelen > walk.left then _ else _) = _
  by_cases long : namelen > walk.left
  · rw [if_pos long]
  rw [if_neg long]
  by_cases dishonest : (options.dnsparanoia && decide (namelen > 128)) = true
  · rw [if_pos dishonest]
  rw [if_neg dishonest, if_pos]
  apply Nat.lt_of_not_le
  intro enough
  apply bad
  refine ⟨by omega, ?_⟩
  intro paranoid
  simpa [paranoid] using dishonest

theorem dnsCopyRes_contained_iff (steady : walk.Steady) :
    Contained (dnsCopyRes options isReq mdns q walk) ↔ CallInside options mdns q walk := by
  have named : Contained (dnsFullname walk.packet walk.olen nameBuffer (pktIpPlen - 1)
      walk.position walk.left) ↔ NameInside walk.packet walk.olen nameBuffer (pktIpPlen - 1)
        walk.position walk.left := dnsFullname_contained_iff nameBuffer_nonempty nameBuffer_room
  have whole := steady.whole
  cases outcome : dnsFullname walk.packet walk.olen nameBuffer (pktIpPlen - 1)
      walk.position walk.left with
  | error stop =>
      rw [outcome] at named
      have same : dnsCopyRes options isReq mdns q walk = .error stop := by
        rw [dnsCopyRes, outcome]
        rfl
      have stops : Contained (.error stop : Except DnsStop DnsWalk) ↔
          Contained (.error stop : Except DnsStop (Nat × List UInt8)) := by
        simp [Contained]
      rw [same, stops, named]
      constructor
      · intro inside
        refine ⟨inside, ?_⟩
        intro namelen data done
        rw [outcome] at done
        cases done
      · intro inside
        exact inside.name
  | ok result =>
      obtain ⟨namelen, data⟩ := result
      have inside := named.mp (by simp [outcome])
      by_cases good : namelen + 4 ≤ walk.left ∧ (options.dnsparanoia = true → namelen ≤ 128)
      · obtain ⟨enough, honest⟩ := good
        have split : CallInside options mdns q walk ↔
            if q then
              NameInside walk.packet walk.olen walk.question questionSize walk.position walk.left
            else AnswerInside options mdns walk (walk.position + namelen) (walk.left - namelen) := by
          constructor
          · intro call
            exact call.rest namelen data outcome enough honest
          · intro rest
            refine ⟨inside, ?_⟩
            intro namelen' data' done _ _
            rw [outcome] at done
            cases done
            exact rest
        rw [split, dnsCopyRes_eq steady outcome enough honest]
        cases q with
        | true => exact copyQuestion_contained steady (by omega) (by omega)
        | false => exact copyAnswer_contained (by omega)
      · rw [dnsCopyRes_refused outcome good]
        refine iff_of_true contained_refused ⟨inside, ?_⟩
        intro namelen' data' done enough honest
        rw [outcome] at done
        cases done
        exact absurd ⟨enough, honest⟩ good

theorem dnsCopyRes_accepted (steady : walk.Steady)
    (accepted : dnsCopyRes options isReq mdns q walk = .ok next) :
    next.Steady ∧ (q = false → RdataInside walk next) := by
  have whole := steady.whole
  obtain ⟨⟨namelen, data⟩, named, -⟩ := bind_eq_ok.mp accepted
  by_cases good : namelen + 4 ≤ walk.left ∧ (options.dnsparanoia = true → namelen ≤ 128)
  · obtain ⟨enough, honest⟩ := good
    rw [dnsCopyRes_eq steady named enough honest] at accepted
    cases q with
    | true => exact ⟨copyQuestion_accepted steady (by omega) (by omega) accepted, nofun⟩
    | false =>
        obtain ⟨ends, later, size, question⟩ := copyAnswer_accepted (by omega) accepted
        exact ⟨⟨later, question ▸ steady.size, question ▸ steady.terminated⟩,
          fun _ => ⟨_, ends, by omega⟩⟩
  · rw [dnsCopyRes_refused named good] at accepted
    cases accepted

/-! ## Every call for a packet -/

/-- The walks that calls of `dns_copy_res` lead to from the first record. -/
inductive Reached (options : DnsOptions) (isReq mdns : Bool) (packet : List UInt8) :
    DnsWalk → Prop
  | first : Reached options isReq mdns packet (firstWalk packet)
  | record {walk next : DnsWalk} (q : Bool) (reached : Reached options isReq mdns packet walk)
      (accepted : dnsCopyRes options isReq mdns q walk = .ok next) :
      Reached options isReq mdns packet next

theorem reached_steady (header : dnsHlen ≤ packet.length)
    (reached : Reached options isReq mdns packet walk) : walk.Steady := by
  induction reached with
  | first =>
      refine ⟨?_, List.length_replicate .., ?_⟩
      · simp only [firstWalk]
        omega
      · exact List.mem_replicate.mpr ⟨by decide, rfl⟩
  | record q reached accepted ih => exact (dnsCopyRes_accepted ih accepted).1

theorem copyres_contained (q : Bool) (count : Nat)
    (inside : ∀ q walk, Reached options isReq mdns packet walk → CallInside options mdns q walk)
    (header : dnsHlen ≤ packet.length) (reached : Reached options isReq mdns packet walk) :
    Contained (copyres options isReq mdns q count walk) ∧
      ∀ next, copyres options isReq mdns q count walk = .ok next →
        Reached options isReq mdns packet next := by
  induction count generalizing walk with
  | zero =>
      refine ⟨contained_ok _, ?_⟩
      intro next done
      cases done
      exact reached
  | succ count ih =>
      rw [copyres]
      split
      · refine ⟨contained_ok _, ?_⟩
        intro next done
        cases done
        exact reached
      · rw [contained_bind, dnsCopyRes_contained_iff (reached_steady header reached)]
        refine ⟨⟨inside q walk reached, ?_⟩, ?_⟩
        · intro next accepted
          exact (ih (Reached.record q reached accepted)).1
        · intro last done
          obtain ⟨next, accepted, done⟩ := bind_eq_ok.mp done
          exact (ih (Reached.record q reached accepted)).2 last done

/-- A packet whose records are all inside is walked to its end, or refused, in bounds. -/
theorem dnsRecords_contained (header : dnsHlen ≤ packet.length)
    (inside : ∀ q walk, Reached options isReq mdns packet walk → CallInside options mdns q walk) :
    Contained (dnsRecords options isReq mdns packet) := by
  have count : ∀ {place}, place + 2 ≤ dnsHlen → Contained (readNumber packet place 2) := by
    intro place early
    exact readNumber_contained.mpr (by omega)
  refine contained_bind.mpr ⟨count (by decide), fun qdcount _ => ?_⟩
  refine contained_bind.mpr ⟨count (by decide), fun ancount _ => ?_⟩
  refine contained_bind.mpr ⟨count (by decide), fun nscount _ => ?_⟩
  refine contained_bind.mpr ⟨count (by decide), fun arcount _ => ?_⟩
  obtain ⟨questions, asked⟩ := copyres_contained true qdcount inside header Reached.first
  refine contained_bind.mpr ⟨questions, fun walk done => ?_⟩
  obtain ⟨answers, answered⟩ := copyres_contained false ancount inside header (asked walk done)
  refine contained_bind.mpr ⟨answers, fun walk done => ?_⟩
  obtain ⟨servers, served⟩ := copyres_contained false nscount inside header (answered walk done)
  refine contained_bind.mpr ⟨servers, fun walk done => ?_⟩
  exact (copyres_contained false arcount inside header (served walk done)).1

theorem dnsCopyRes_safe_iff (header : dnsHlen ≤ packet.length)
    (reached : Reached options isReq mdns packet walk) :
    CallSafe options isReq mdns q walk ↔ CallInside options mdns q walk := by
  have steady := reached_steady header reached
  rw [CallSafe, dnsCopyRes_contained_iff steady]
  apply and_iff_left
  intro answer next accepted
  exact (dnsCopyRes_accepted steady accepted).2 answer

def plainOptions : DnsOptions where
  debug := false
  dnsparanoia := false
  uamdomains := []
  uamdomainTtl := 60
  ipv6 := false
  domainfile := none

/-- A header that announces one record in the first section. -/
def oneRecord (records : List UInt8) : List UInt8 := [0, 1, 1, 0, 0, 1, 0, 0, 0, 0, 0, 0] ++ records

theorem dnsCopyRes_safe_iff_sample :
    CallSafe plainOptions true false true (firstWalk (oneRecord [1, 97, 0, 0, 1, 0, 1])) ↔
      CallInside plainOptions false true (firstWalk (oneRecord [1, 97, 0, 0, 1, 0, 1])) :=
  dnsCopyRes_safe_iff (by decide) Reached.first

/-- A label of five bytes, three of which the packet has. -/
def cutPacket : List UInt8 := oneRecord [1, 97, 5, 98, 99, 100]

theorem cutPacket_overread : ¬ CallSafe plainOptions true false true (firstWalk cutPacket) := by
  intro safe
  have reached : Reached plainOptions true false cutPacket (firstWalk cutPacket) := Reached.first
  have steady := reached_steady (by decide) reached
  have inside := ((dnsCopyRes_contained_iff steady).mp safe.1).name
  have walk := inside ⟨nameBuffer, some 0, pktIpPlen - 1⟩ rfl
  have fits := entrance_fits nameBuffer_room
  have inPacket : 12 + 1 + (1 : UInt8).toNat ≤ cutPacket.length := by decide
  obtain ⟨next, copied, -, -, captures, room⟩ := copyLabel_inside fits
    (show (1 : UInt8).toNat < pktIpPlen - 1 by decide) fun _ => inPacket
  have step : NameStep cutPacket 6 ⟨14, ⟨nameBuffer, some 0, pktIpPlen - 1⟩, 12, 6⟩
      ⟨14, next, 12 + 1 + (1 : UInt8).toNat, reslenAfter 6 1⟩ :=
    NameStep.label (by decide) rfl (by decide) rfl (by decide) (by decide) copied
  have more : reslenAfter 6 1 ≠ 0 := by simp [reslenAfter]
  obtain ⟨l, byte, turn⟩ := (walk _ (Relation.ReflTransGen.single step)).1 more
  cases byte
  have ends : 12 + 1 + (1 : UInt8).toNat + 1 + (5 : UInt8).toNat ≤ cutPacket.length :=
    (turn (by decide)).label rfl (by rw [room nofun]; decide) (by decide)
      (fun none => nomatch captures.mp none)
  exact absurd ends (by decide)

end Rut9xx.Chilli
