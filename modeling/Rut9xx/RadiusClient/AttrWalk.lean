import Rut9xx.Data.Loop
import Rut9xx.RadiusClient.Client

namespace Rut9xx.RadiusClient

open Data Relation

/-! # The walk along the attributes (`radius.c`)

What lies in the buffer behind the payload is read as `behind` has it, by its place in the payload. -/

def attrVendorSpecific : UInt8 := 26

/-- The bytes at `&pack->payload[0]`. -/
def payloadAt (pack : RadiusPacket) (behind : Nat → UInt8) (place : Nat) : UInt8 :=
  pack.payload.getD place (behind place)

def vendorAt (pack : RadiusPacket) (behind : Nat → UInt8) (offset : Nat) : UInt32 :=
  joinBe32 (payloadAt pack behind (offset + 2)) (payloadAt pack behind (offset + 3))
    (payloadAt pack behind (offset + 4)) (payloadAt pack behind (offset + 5))

section Walk

variable (pack : RadiusPacket) (behind : Nat → UInt8) (type : UInt8) (vendorId : UInt32)
  (vendorType : UInt8) (instance' : Int)

/-- A round of the walk from an offset, with the matches before. What is found is the place that
`*attr` points to and the new `*roffset`; none is -1. -/
def attrRound : Nat × Int → Option ((Nat × Int) ⊕ Option (Nat × Nat))
  | (start, count) =>
      if start < pack.payload.length then
        let t := payloadAt pack behind start
        let l := payloadAt pack behind (start + 1)
        let offset := start + l.toNat
        if t = 0 ∨ l < 2 then some (.inr none)
        else if t ≠ type then some (.inl (offset, count))
        else if t = attrVendorSpecific ∧ vendorId ≠ 0 ∧
            (vendorAt pack behind start ≠ vendorId ∨ payloadAt pack behind (start + 6) ≠ vendorType) then
          some (.inl (offset, count))
        else if count = instance' then
          let attr := if type = attrVendorSpecific ∧ vendorId ≠ 0 then start + 6 else start
          some (.inr (some (attr, offset)))
        else some (.inl (offset, count + 1))
      else some (.inr none)

/-- `radius_getnextattr` with `*roffset` as it is before. -/
def radiusGetnextattr (fuel roffset : Nat) : Outcome (Option (Nat × Nat)) :=
  loop (attrRound pack behind type vendorId vendorType instance') fuel (roffset, 0)

end Walk

/-! ## Attributes on the way -/

variable {pack : RadiusPacket} {behind : Nat → UInt8} {type vendorType : UInt8} {vendorId : UInt32}
  {instance' count : Int} {start offset place attr roffset fuel : Nat}

/-- An attribute that the walk does not stop at. -/
structure AttrAt (pack : RadiusPacket) (behind : Nat → UInt8) (start : Nat) : Prop where
  below : start < pack.payload.length
  type : payloadAt pack behind start ≠ 0
  length : 2 ≤ (payloadAt pack behind (start + 1)).toNat

/-- From an attribute to the next. -/
def NextAttr (pack : RadiusPacket) (behind : Nat → UInt8) (start next : Nat) : Prop :=
  AttrAt pack behind start ∧ next = start + (payloadAt pack behind (start + 1)).toNat

/-- The arguments ask for the attribute. -/
def AskedFor (pack : RadiusPacket) (behind : Nat → UInt8) (type : UInt8) (vendorId : UInt32)
    (vendorType : UInt8) (start : Nat) : Prop :=
  payloadAt pack behind start = type ∧
    (type = attrVendorSpecific → vendorId ≠ 0 →
      vendorAt pack behind start = vendorId ∧ payloadAt pack behind (start + 6) = vendorType)

/-- The place that is handed out for an attribute. -/
def pointer (type : UInt8) (vendorId : UInt32) (start : Nat) : Nat :=
  if type = attrVendorSpecific ∧ vendorId ≠ 0 then start + 6 else start

/-- Two header bytes and the rest, inside the declared length. -/
structure AttrInside (pack : RadiusPacket) (behind : Nat → UInt8) (attr : Nat) : Prop where
  header : 2 ≤ (payloadAt pack behind (attr + 1)).toNat
  inside : attr + (payloadAt pack behind (attr + 1)).toNat ≤ pack.payload.length

theorem attrRound_stops (stop : ¬ AttrAt pack behind start) :
    attrRound pack behind type vendorId vendorType instance' (start, count) = some (.inr none) := by
  rw [attrRound]
  by_cases below : start < pack.payload.length
  · have last : payloadAt pack behind start = 0 ∨ payloadAt pack behind (start + 1) < 2 := by
      by_contra more
      rw [not_or] at more
      exact stop ⟨below, more.1, UInt8.le_iff_toNat_le.mp (UInt8.not_lt.mp more.2)⟩
    simp only [if_pos below, if_pos last]
  · simp only [if_neg below]

theorem AttrAt.goesOn (here : AttrAt pack behind start) :
    ¬ (payloadAt pack behind start = 0 ∨ payloadAt pack behind (start + 1) < 2) := by
  intro stop
  rcases stop with zero | short
  · exact here.type zero
  · have length := here.length
    have few : (payloadAt pack behind (start + 1)).toNat < 2 := UInt8.lt_iff_toNat_lt.mp short
    omega

theorem attrRound_matches (here : AttrAt pack behind start)
    (wanted : AskedFor pack behind type vendorId vendorType start) :
    attrRound pack behind type vendorId vendorType instance' (start, count) =
      if count = instance' then
        some (.inr (some (pointer type vendorId start,
          start + (payloadAt pack behind (start + 1)).toNat)))
      else some (.inl (start + (payloadAt pack behind (start + 1)).toNat, count + 1)) := by
  have vendor : ¬ (payloadAt pack behind start = attrVendorSpecific ∧ vendorId ≠ 0 ∧
      (vendorAt pack behind start ≠ vendorId ∨ payloadAt pack behind (start + 6) ≠ vendorType)) := by
    intro ⟨special, nonzero, other⟩
    obtain ⟨sameId, sameType⟩ := wanted.2 (wanted.1 ▸ special) nonzero
    rcases other with differs | differs
    · exact differs sameId
    · exact differs sameType
  have same : ¬ payloadAt pack behind start ≠ type := not_not.mpr wanted.1
  simp only [attrRound, if_pos here.below, if_neg here.goesOn, if_neg same, if_neg vendor, pointer]

theorem attrRound_other (here : AttrAt pack behind start)
    (other : ¬ AskedFor pack behind type vendorId vendorType start) :
    attrRound pack behind type vendorId vendorType instance' (start, count) =
      some (.inl (start + (payloadAt pack behind (start + 1)).toNat, count)) := by
  simp only [attrRound, if_pos here.below, if_neg here.goesOn]
  by_cases same : payloadAt pack behind start = type
  · have vendor : payloadAt pack behind start = attrVendorSpecific ∧ vendorId ≠ 0 ∧
        (vendorAt pack behind start ≠ vendorId ∨ payloadAt pack behind (start + 6) ≠ vendorType) := by
      by_contra more
      apply other
      refine ⟨same, fun special nonzero => ?_⟩
      by_contra differs
      rw [Decidable.not_and_iff_or_not] at differs
      exact more ⟨same.trans special, nonzero, differs⟩
    rw [if_neg (not_not.mpr same), if_pos vendor]
  · rw [if_pos same]

/-! ## Walks -/

theorem radiusGetnextattr_ends : ∃ fuel result,
    radiusGetnextattr pack behind type vendorId vendorType instance' fuel roffset = .done result := by
  apply loop_terminates fun state => pack.payload.length - state.1
  · intro ⟨start, count⟩
    by_cases here : AttrAt pack behind start
    · by_cases wanted : AskedFor pack behind type vendorId vendorType start
      · rw [attrRound_matches here wanted]
        split <;> simp
      · simp [attrRound_other here wanted]
    · simp [attrRound_stops here]
  · intro ⟨start, count⟩ next step
    by_cases here : AttrAt pack behind start
    · have below := here.below
      have length := here.length
      by_cases wanted : AskedFor pack behind type vendorId vendorType start
      · rw [Follows, attrRound_matches here wanted] at step
        split at step
        · cases step
        · cases step
          dsimp only
          omega
      · rw [Follows, attrRound_other here wanted] at step
        cases step
        dsimp only
        omega
    · rw [Follows, attrRound_stops here] at step
      cases step

/-- What is found is an attribute on the way that the arguments ask for. -/
theorem found_onWay
    (found : loop (attrRound pack behind type vendorId vendorType instance') fuel (start, count) =
      .done (some (attr, roffset))) :
    ∃ place, ReflTransGen (NextAttr pack behind) start place ∧ AttrAt pack behind place ∧
      AskedFor pack behind type vendorId vendorType place ∧ attr = pointer type vendorId place := by
  induction fuel generalizing start count with
  | zero => cases found
  | succ fuel ih =>
      rw [loop] at found
      by_cases here : AttrAt pack behind start
      · have further {more : Int} (rest : loop (attrRound pack behind type vendorId vendorType instance')
            fuel (start + (payloadAt pack behind (start + 1)).toNat, more) = .done (some (attr, roffset))) :
            ∃ place, ReflTransGen (NextAttr pack behind) start place ∧ AttrAt pack behind place ∧
              AskedFor pack behind type vendorId vendorType place ∧
              attr = pointer type vendorId place := by
          obtain ⟨place, reached, there, wanted, same⟩ := ih rest
          exact ⟨place, .head ⟨here, rfl⟩ reached, there, wanted, same⟩
        by_cases wanted : AskedFor pack behind type vendorId vendorType start
        · rw [attrRound_matches here wanted] at found
          by_cases last : count = instance'
          · rw [if_pos last] at found
            cases found
            exact ⟨start, .refl, here, wanted, rfl⟩
          · rw [if_neg last] at found
            exact further found
        · rw [attrRound_other here wanted] at found
          exact further found
      · rw [attrRound_stops here] at found
        cases found

/-- An attribute on the way is found under its number among those that the arguments ask for. -/
theorem onWay_found (reached : ReflTransGen (NextAttr pack behind) start place)
    (there : AttrAt pack behind place) (wanted : AskedFor pack behind type vendorId vendorType place)
    (count : Int) : ∃ instance' ≥ count, ∃ fuel roffset,
      loop (attrRound pack behind type vendorId vendorType instance') fuel (start, count) =
        .done (some (pointer type vendorId place, roffset)) := by
  induction reached using ReflTransGen.head_induction_on generalizing count with
  | refl =>
      refine ⟨count, Int.le_refl _, 1, place + (payloadAt pack behind (place + 1)).toNat, ?_⟩
      rw [loop, attrRound_matches there wanted, if_pos rfl]
  | @head start next step _ ih =>
      obtain ⟨here, rfl⟩ := step
      by_cases matches' : AskedFor pack behind type vendorId vendorType start
      · obtain ⟨instance', above, fuel, roffset, found⟩ := ih (count + 1)
        refine ⟨instance', by omega, fuel + 1, roffset, ?_⟩
        rw [loop, attrRound_matches here matches', if_neg (by omega)]
        exact found
      · obtain ⟨instance', above, fuel, roffset, found⟩ := ih count
        refine ⟨instance', above, fuel + 1, roffset, ?_⟩
        rw [loop, attrRound_other here matches']
        exact found

/-- Every attribute on the way from `roffset` is inside, and so is what is in those of vendors. -/
def AttrsInside (pack : RadiusPacket) (behind : Nat → UInt8) (roffset : Nat) : Prop :=
  ∀ place, ReflTransGen (NextAttr pack behind) roffset place → AttrAt pack behind place →
    place + (payloadAt pack behind (place + 1)).toNat ≤ pack.payload.length ∧
      (payloadAt pack behind place = attrVendorSpecific → vendorAt pack behind place ≠ 0 →
        AttrInside pack behind (place + 6))

/-- The walk ends and hands out only what is inside, whatever is asked for, exactly when every
attribute on the way is inside. -/
theorem radiusGetnextattr_inside_iff (pack : RadiusPacket) (behind : Nat → UInt8) (roffset : Nat) :
    (∀ type vendorId vendorType instance', ∃ fuel result,
      radiusGetnextattr pack behind type vendorId vendorType instance' fuel roffset = .done result ∧
        ∀ attr after, result = some (attr, after) → AttrInside pack behind attr) ↔
      AttrsInside pack behind roffset := by
  constructor
  · intro always place reached here
    have handedOut (type vendorType : UInt8) (vendorId : UInt32)
        (wanted : AskedFor pack behind type vendorId vendorType place) :
        AttrInside pack behind (pointer type vendorId place) := by
      obtain ⟨instance', -, fuel, after, found⟩ := onWay_found reached here wanted 0
      obtain ⟨more, result, done, inside⟩ := always type vendorId vendorType instance'
      exact inside _ _ (loop_unique done found)
    constructor
    · have plain := handedOut (payloadAt pack behind place) 0 0 ⟨rfl, fun _ zero => absurd rfl zero⟩
      rw [pointer, if_neg (fun both => both.2 rfl)] at plain
      exact plain.inside
    · intro special nonzero
      have vendor := handedOut (payloadAt pack behind place) (payloadAt pack behind (place + 6))
        (vendorAt pack behind place) ⟨rfl, fun _ _ => ⟨rfl, rfl⟩⟩
      rwa [pointer, if_pos ⟨special, nonzero⟩] at vendor
  · intro inside type vendorId vendorType instance'
    obtain ⟨fuel, result, done⟩ := @radiusGetnextattr_ends pack behind type vendorType vendorId instance'
      roffset
    refine ⟨fuel, result, done, ?_⟩
    intro attr after same
    subst same
    obtain ⟨place, reached, here, wanted, rfl⟩ := found_onWay done
    obtain ⟨whole, vendor⟩ := inside place reached here
    unfold pointer
    split
    · rename_i special
      exact vendor (wanted.1.trans special.1) ((wanted.2 special.1 special.2).1 ▸ special.2)
    · exact ⟨here.length, whole⟩

/-! ## A packet that the client hands on -/

/-- A request with an attribute of two bytes that claims to have 200. -/
def overlongRequest : List UInt8 :=
  [codeCoaRequest, 0, 0, 22] ++ List.replicate 16 0 ++ [1, 200]

def overlongPacket : RadiusPacket := ⟨codeCoaRequest, 0, noAuthenticator, [1, 200]⟩

def openClient : Radius Nat where
  coanocheck := true
  lastreply := false
  authport := 1812
  acctport := 1813
  hisaddr0 := 1
  hisaddr1 := 2
  secret := []
  nextid := 1
  queue _ := clearedSlot
  qsize := 0
  qnext := 0
  first := none
  last := none
  cbAuthConf := true
  cbAcctConf := true
  cbCoaInd := true

theorem radiusGetnextattr_overlong :
    (radiusDecaps (fun _ => noAuthenticator) openClient overlongRequest 1 3799).2 =
        [.coaInd overlongPacket 1 3799] ∧
      ∀ behind, radiusGetnextattr overlongPacket behind 1 0 0 0 1 0 = .done (some (0, 200)) ∧
        ¬ AttrInside overlongPacket behind 0 := by
  constructor
  · have read : readPacket overlongRequest = some overlongPacket := by decide +kernel
    have signed : radiusAcctcheck (fun _ => noAuthenticator) [] overlongPacket = false := by decide +kernel
    have coa : overlongPacket.code = codeDisconnectRequest ∨ overlongPacket.code = codeCoaRequest :=
      .inr rfl
    simp [radiusDecaps, read, coa, openClient, signed]
  · intro behind
    refine ⟨rfl, ?_⟩
    intro inside
    have whole : 0 + 200 ≤ 2 := inside.inside
    exact absurd whole (by decide)

end Rut9xx.RadiusClient
