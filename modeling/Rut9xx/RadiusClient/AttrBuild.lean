import Rut9xx.Data.Memory
import Rut9xx.RadiusClient.AttrWalk
import Rut9xx.RadiusClient.Obfuscation

namespace Rut9xx.RadiusClient

open Data

/-! # Attributes that are added (`radius.c`)

Memory has no end here: `data` is what the pointer points to and all behind it, and the payload of a
packet that is being built is known by its places, also where the length field does not cover it. -/

def radiusAttrVlen : Nat := 253

def radiusPwsize : Nat := 128

def attrUserPassword : UInt8 := 2

def attrEventTimestamp : UInt8 := 55

def vendorCoovachilli : UInt32 := 14559

def coovachilliVersion : UInt8 := 8

def coovachilliAcctViewPoint : UInt8 := 10

structure Draft where
  code : UInt8
  id : UInt8
  authenticator : Authenticator
  used : Nat
  area : Memory UInt8
  fits : radiusHdrsize + used ≤ radiusPacksize

def Draft.packet (pack : Draft) : RadiusPacket :=
  ⟨pack.code, pack.id, pack.authenticator, load pack.area 0 pack.used⟩

/-- A packet behind its `memset`. -/
def blankDraft (code id : UInt8) (authenticator : Authenticator) : Draft :=
  ⟨code, id, authenticator, 0, fun _ => 0, by decide⟩

/-- The arguments of a call. -/
structure AttrCall where
  type : UInt8
  vendorId : UInt32
  vendorType : UInt8
  value : UInt32
  data : Option (Memory UInt8)
  dlen : UInt16

/-- What a call returns and leaves, and how many bytes it writes from the end of the packet on. -/
structure Added where
  accepted : Bool
  pack : Draft
  written : Nat

/-- All of `dst`, and `*dstlen`. -/
def pwencodeInto (md5 : Md5) (secret : List UInt8) (authenticator : Authenticator) (src : List UInt8)
    (dstsize : Nat) : List UInt8 × Nat :=
  let dstlen := pwPadded src.length
  if dstsize < dstlen then (List.replicate dstsize 0, 0)
  else
    let dst := src.take 128 ++ List.replicate (dstsize - min 128 src.length) 0
    let encoded := pwencodeBlocks md5 secret dst (max 1 (dstlen / radiusMd5len)) 0 authenticator.1
    (encoded ++ dst.drop encoded.length, dstlen)

section Program

variable (md5 : Md5) (secret : List UInt8)

/-- `data` and `dlen`, behind the encoding of a password. -/
def attrData (authenticator : Authenticator) (call : AttrCall) : Option (Memory UInt8) × Nat :=
  if call.type = attrUserPassword then
    let src := call.data.elim [] fun memory => load memory 0 call.dlen.toNat
    let (passwd, pwlen) := pwencodeInto md5 secret authenticator src radiusPwsize
    (some fun place => passwd.getD place 0, pwlen)
  else (call.data, call.dlen.toNat)

def attrVlen (limit dlen : Nat) : Nat := min (if dlen ≠ 0 then dlen else 4) limit

/-- What is put in for the value, `count` bytes when it is copied or left empty. -/
def attrValue (data : Option (Memory UInt8)) (dlen count : Nat) (value : UInt32) : List UInt8 :=
  match data with
  | some memory => load memory 0 count
  | none => if dlen ≠ 0 then List.replicate count 0 else be32 value

/-- The length field covers `size` bytes more, however many are written. -/
def Draft.put (pack : Draft) (bytes : List UInt8) (size : Nat)
    (room : radiusHdrsize + pack.used + size ≤ radiusPacksize) : Draft :=
  { pack with
    used := pack.used + size
    area := store pack.area pack.used bytes
    fits := by rwa [← Nat.add_assoc] }

def radiusAddattr (pack : Draft) (call : AttrCall) : Added :=
  let (data, dlen) := attrData md5 secret pack.authenticator call
  if call.type ≠ attrVendorSpecific then
    let vlen := attrVlen radiusAttrVlen dlen
    if room : radiusHdrsize + pack.used + (vlen + 2) ≤ radiusPacksize then
      let bytes := call.type :: UInt8.ofNat (vlen + 2) :: attrValue data dlen vlen call.value
      ⟨true, pack.put bytes (vlen + 2) room, bytes.length⟩
    else ⟨false, pack, 0⟩
  else
    let vlen := attrVlen (radiusAttrVlen - 8) dlen
    if room : radiusHdrsize + pack.used + (vlen + 8) ≤ radiusPacksize then
      -- the copies are `dlen` bytes long here, not `vlen`
      let bytes := call.type :: UInt8.ofNat (vlen + 8) :: (be32 call.vendorId ++
        call.vendorType :: UInt8.ofNat (vlen + 2) :: attrValue data dlen dlen call.value)
      ⟨true, pack.put bytes (vlen + 8) room, bytes.length⟩
    else ⟨false, pack, 0⟩

def addAttrs (pack : Draft) (calls : List AttrCall) : Draft :=
  calls.foldl (fun pack call => (radiusAddattr md5 secret pack call).pack) pack

/-- The calls that `radius_default_pack` makes; `version` is `VERSION`, `wall` is the clock. -/
def defaultCalls (code : UInt8) (version : List UInt8) (swapoctets : Bool) (wall : UInt32) :
    List AttrCall :=
  let ofVersion : AttrCall := ⟨attrVendorSpecific, vendorCoovachilli, coovachilliVersion, 0,
    some fun place => version.getD place 0, UInt16.ofNat version.length⟩
  let viewPoint : AttrCall := ⟨attrVendorSpecific, vendorCoovachilli, coovachilliAcctViewPoint,
    if swapoctets then 1 else 2, none, 0⟩
  let timestamp : AttrCall := ⟨attrEventTimestamp, 0, 0, wall, none, 0⟩
  if code = codeAccessRequest then [ofVersion]
  else if code = codeAccountingRequest then [ofVersion, viewPoint, timestamp]
  else []

end Program

/-! ## Attributes in a row -/

/-- The type, and what stands behind the two bytes of the header. -/
structure Attribute where
  type : UInt8
  body : List UInt8
  named : type ≠ 0
  short : body.length ≤ radiusAttrVlen
  vendor : type = attrVendorSpecific → 6 ≤ body.length

namespace Attribute

def bytes (attr : Attribute) : List UInt8 :=
  attr.type :: UInt8.ofNat (attr.body.length + 2) :: attr.body

/-- The arguments of a search ask for the attribute. -/
def AskedFor (attr : Attribute) (type : UInt8) (vendorId : UInt32) (vendorType : UInt8) : Prop :=
  attr.type = type ∧ (type = attrVendorSpecific → vendorId ≠ 0 →
    be32At attr.body 0 = vendorId ∧ attr.body.getD 4 0 = vendorType)

instance (attr : Attribute) (type : UInt8) (vendorId : UInt32) (vendorType : UInt8) :
    Decidable (attr.AskedFor type vendorId vendorType) := inferInstanceAs (Decidable (_ ∧ _))

@[simp] theorem length_bytes (attr : Attribute) : attr.bytes.length = attr.body.length + 2 := rfl

end Attribute

def attrBytes (attrs : List Attribute) : List UInt8 := attrs.flatMap Attribute.bytes

@[simp] theorem attrBytes_cons (attr : Attribute) (rest : List Attribute) :
    attrBytes (attr :: rest) = attr.bytes ++ attrBytes rest := rfl

@[simp] theorem attrBytes_append (front back : List Attribute) :
    attrBytes (front ++ back) = attrBytes front ++ attrBytes back := List.flatMap_append

section Walk

variable {pack : RadiusPacket} {behind : Nat → UInt8} {type vendorType : UInt8} {vendorId : UInt32}
  {instance' count : Int} {attr : Attribute} {front back : List UInt8} {before after : List Attribute}

theorem payloadAt_attr (payload : pack.payload = front ++ (attr.bytes ++ back)) {place : Nat}
    (inside : place < attr.body.length + 2) :
    payloadAt pack behind (front.length + place) = attr.bytes.getD place 0 := by
  have place' : place < attr.bytes.length := inside
  rw [payloadAt, payload, List.getD_append_right _ _ _ _ (Nat.le_add_right _ _), Nat.add_sub_cancel_left,
    List.getD_append _ _ _ _ place', List.getD_eq_getElem _ _ place', List.getD_eq_getElem _ _ place']

theorem payloadAt_length (payload : pack.payload = front ++ (attr.bytes ++ back)) :
    (payloadAt pack behind (front.length + 1)).toNat = attr.bytes.length := by
  have short := attr.short
  rw [payloadAt_attr payload (by omega)]
  unfold radiusAttrVlen at short
  exact UInt8.toNat_ofNat_of_lt' (show attr.body.length + 2 < 256 by omega)

theorem payloadAt_type (payload : pack.payload = front ++ (attr.bytes ++ back)) :
    payloadAt pack behind front.length = attr.type :=
  @payloadAt_attr _ behind attr front back payload 0 (by omega)

theorem attrAt_front (payload : pack.payload = front ++ (attr.bytes ++ back)) :
    AttrAt pack behind front.length where
  below := by
    rw [payload]
    simp only [List.length_append, Attribute.length_bytes]
    omega
  type := payloadAt_type payload ▸ attr.named
  length := by simp [payloadAt_length payload]

theorem askedFor_front (payload : pack.payload = front ++ (attr.bytes ++ back)) :
    AskedFor pack behind type vendorId vendorType front.length ↔
      attr.AskedFor type vendorId vendorType := by
  unfold AskedFor Attribute.AskedFor
  rw [payloadAt_type payload]
  refine and_congr_right fun same => imp_congr_right fun special => imp_congr_right fun _ => ?_
  have room := attr.vendor (same.trans special)
  unfold vendorAt
  rw [payloadAt_attr payload (by omega), payloadAt_attr payload (by omega),
    payloadAt_attr payload (by omega), payloadAt_attr payload (by omega),
    payloadAt_attr payload (by omega)]
  rfl

/-- The walk gets to the attribute that is asked for when it has passed as many as `instance'` says. -/
theorem walk_found (asked : attr.AskedFor type vendorId vendorType) {front back : List Attribute}
    (payload : pack.payload = attrBytes (front ++ before ++ attr :: back))
    (number : instance' = count + (before.countP (·.AskedFor type vendorId vendorType) : Int)) :
    loop (attrRound pack behind type vendorId vendorType instance') (before.length + 1)
        ((attrBytes front).length, count) =
      .done (some (pointer type vendorId (attrBytes (front ++ before)).length,
        (attrBytes (front ++ before ++ [attr])).length)) := by
  induction before generalizing front count with
  | nil =>
      have here : pack.payload = attrBytes front ++ (attr.bytes ++ attrBytes back) := by
        simpa using payload
      have same : count = instance' := by simpa using number.symm
      rw [List.length_nil, Nat.zero_add, loop, attrRound_matches (attrAt_front here)
        ((askedFor_front here).mpr asked), if_pos same, payloadAt_length here]
      simp [attrBytes]
  | cons first before ih =>
      have here : pack.payload =
          attrBytes front ++ (first.bytes ++ attrBytes (before ++ attr :: back)) := by
        simpa using payload
      have next : (attrBytes front).length + first.bytes.length = (attrBytes (front ++ [first])).length := by
        simp [attrBytes]
      have rest (more : Int)
          (number : instance' = more + (before.countP (·.AskedFor type vendorId vendorType) : Int)) :=
        @ih more (front ++ [first]) (by simpa using payload) number
      rw [List.length_cons, loop]
      by_cases passed : first.AskedFor type vendorId vendorType
      · rw [List.countP_cons_of_pos (by simpa using passed)] at number
        rw [attrRound_matches (attrAt_front here) ((askedFor_front here).mpr passed),
          if_neg (by omega), payloadAt_length here, next]
        simpa using rest (count + 1) (by omega)
      · rw [List.countP_cons_of_neg (by simpa using passed)] at number
        rw [attrRound_other (attrAt_front here) fun there => passed ((askedFor_front here).mp there),
          payloadAt_length here, next]
        simpa using rest count number

theorem walk_missing {front attrs : List Attribute} (payload : pack.payload = attrBytes (front ++ attrs))
    (number : instance' < count ∨
      count + (attrs.countP (·.AskedFor type vendorId vendorType) : Int) ≤ instance') :
    loop (attrRound pack behind type vendorId vendorType instance') (attrs.length + 1)
      ((attrBytes front).length, count) = .done none := by
  induction attrs generalizing front count with
  | nil =>
      have ended : ¬ AttrAt pack behind (attrBytes front).length := by
        intro here
        have below := here.below
        rw [payload, List.append_nil] at below
        exact Nat.lt_irrefl _ below
      rw [List.length_nil, Nat.zero_add, loop, attrRound_stops ended]
  | cons first attrs ih =>
      have here : pack.payload = attrBytes front ++ (first.bytes ++ attrBytes attrs) := by
        simpa using payload
      have next : (attrBytes front).length + first.bytes.length = (attrBytes (front ++ [first])).length := by
        simp [attrBytes]
      have rest {more : Int} (number : instance' < more ∨
          more + (attrs.countP (·.AskedFor type vendorId vendorType) : Int) ≤ instance') :=
        @ih more (front ++ [first]) (by simpa using payload) number
      rw [List.length_cons, loop]
      by_cases passed : first.AskedFor type vendorId vendorType
      · rw [List.countP_cons_of_pos (by simpa using passed)] at number
        rw [attrRound_matches (attrAt_front here) ((askedFor_front here).mpr passed),
          if_neg (by omega), payloadAt_length here, next]
        exact rest (by omega)
      · rw [List.countP_cons_of_neg (by simpa using passed)] at number
        rw [attrRound_other (attrAt_front here) fun there => passed ((askedFor_front here).mp there),
          payloadAt_length here, next]
        exact rest number

end Walk

/-! ## What a call puts in -/

/-- The call names its attribute, has no password but a given one, and no value of a vendor's that is
longer than what is kept of it. -/
structure AttrCall.Proper (call : AttrCall) : Prop where
  named : call.type ≠ 0
  password : call.type = attrUserPassword → call.data = none → call.dlen = 0
  short : call.type = attrVendorSpecific → call.dlen.toNat ≤ radiusAttrVlen - 8

abbrev ProperCall := { call : AttrCall // call.Proper }

section Calls

variable (md5 : Md5) (secret : List UInt8)

/-- What is under the length of the value: data without a length is not copied to a vendor's
attribute, which then keeps the four zeros that were there. -/
def AttrCall.body (authenticator : Authenticator) (call : AttrCall) : List UInt8 :=
  let (data, dlen) := attrData md5 secret authenticator call
  if call.type ≠ attrVendorSpecific then
    attrValue data dlen (attrVlen radiusAttrVlen dlen) call.value
  else
    be32 call.vendorId ++ call.vendorType :: UInt8.ofNat (attrVlen (radiusAttrVlen - 8) dlen + 2) ::
      if data.isSome ∧ dlen = 0 then List.replicate 4 0 else attrValue data dlen dlen call.value

variable {md5 secret} {authenticator : Authenticator} {call : AttrCall} {data : Option (Memory UInt8)}
  {dlen limit : Nat} {value : UInt32}

theorem length_attrValue (four : 4 ≤ limit) :
    (attrValue data dlen (attrVlen limit dlen) value).length = attrVlen limit dlen := by
  unfold attrValue attrVlen
  cases data with
  | some memory => simp
  | none =>
      by_cases given : dlen ≠ 0
      · simp [given]
      · simp [given, Nat.min_eq_left four]

theorem attrVlen_short (short : dlen ≤ limit) (given : dlen ≠ 0) : attrVlen limit dlen = dlen := by
  rw [attrVlen, if_pos given, Nat.min_eq_left short]

theorem attrData_vendor (vendor : call.type = attrVendorSpecific) :
    attrData md5 secret authenticator call = (call.data, call.dlen.toNat) := by
  rw [attrData, if_neg (by rw [vendor]; decide)]

theorem length_vendorValue (four : 4 ≤ limit) (short : dlen ≤ limit) :
    (if data.isSome ∧ dlen = 0 then List.replicate 4 0
      else attrValue data dlen dlen value).length = attrVlen limit dlen := by
  by_cases given : dlen ≠ 0
  · rw [if_neg fun both => given both.2]
    have same := @length_attrValue data dlen limit value four
    rwa [attrVlen_short short given] at same ⊢
  · obtain rfl : dlen = 0 := not_not.mp given
    have none' : attrVlen limit 0 = 4 := by simpa [attrVlen] using four
    rw [none']
    cases data with
    | some memory => simp
    | none => simp [attrValue]

theorem AttrCall.length_body_plain (plain : call.type ≠ attrVendorSpecific) :
    (call.body md5 secret authenticator).length =
      attrVlen radiusAttrVlen (attrData md5 secret authenticator call).2 := by
  rw [AttrCall.body]
  simp only [if_pos plain]
  exact length_attrValue (by decide)

theorem AttrCall.length_body_vendor (vendor : call.type = attrVendorSpecific) (proper : call.Proper) :
    (call.body md5 secret authenticator).length =
      attrVlen (radiusAttrVlen - 8) call.dlen.toNat + 6 := by
  have value := @length_vendorValue call.data call.dlen.toNat (radiusAttrVlen - 8) call.value (by decide)
    (proper.short vendor)
  simp only [AttrCall.body, attrData_vendor vendor, if_neg (not_not.mpr vendor), List.length_append,
    List.length_cons, be32_length, value]
  omega

theorem attrVlen_le : attrVlen limit dlen ≤ limit := Nat.min_le_right _ _

theorem AttrCall.body_short (proper : call.Proper) :
    (call.body md5 secret authenticator).length ≤ radiusAttrVlen := by
  by_cases vendor : call.type = attrVendorSpecific
  · have value := @attrVlen_le call.dlen.toNat (radiusAttrVlen - 8)
    rw [AttrCall.length_body_vendor vendor proper]
    unfold radiusAttrVlen at value ⊢
    omega
  · rw [AttrCall.length_body_plain vendor]
    exact attrVlen_le

variable (md5 secret authenticator) in
def ProperCall.attribute (call : ProperCall) : Attribute where
  type := call.1.type
  body := call.1.body md5 secret authenticator
  named := call.2.named
  short := AttrCall.body_short call.2
  vendor := by
    intro vendor
    rw [AttrCall.length_body_vendor vendor call.2]
    omega

end Calls

/-! ## What is added -/

section Adding

variable {md5 : Md5} {secret : List UInt8} {pack : Draft} {calls : List ProperCall}

/-- Nothing stands behind the packet yet. -/
def Draft.Blank (pack : Draft) : Prop := ∀ place, pack.used ≤ place → pack.area place = 0

/-- An attribute is added whole or not at all. -/
def Draft.add (pack : Draft) (attr : Attribute) : Draft :=
  if room : radiusHdrsize + pack.used + attr.bytes.length ≤ radiusPacksize then
    pack.put attr.bytes attr.bytes.length room
  else pack

theorem Draft.Blank.add (blank : pack.Blank) (attr : Attribute) : (pack.add attr).Blank := by
  unfold Draft.add
  split
  · intro place behind
    have outside : pack.used + attr.bytes.length ≤ place := behind
    exact (store_outside (.inr outside)).trans (blank place (by omega))
  · exact blank

/-- The four zeros that are not written are there. -/
theorem store_zeros {area : Memory UInt8} {start count : Nat} {front : List UInt8}
    (zeros : ∀ place, start ≤ place → area place = 0) :
    store area start (front ++ List.replicate count 0) = store area start front := by
  funext place
  by_cases before : place < start ∨ start + front.length ≤ place
  · rw [store_outside before]
    by_cases inside : place < start ∨ start + (front ++ List.replicate count (0 : UInt8)).length ≤ place
    · exact store_outside inside
    · obtain ⟨index, rfl⟩ := Nat.exists_eq_add_of_le (show start ≤ place by omega)
      rw [store_inside (by omega), List.getElem_append_right (by omega), List.getElem_replicate]
      exact (zeros _ (by omega)).symm
  · obtain ⟨index, rfl⟩ := Nat.exists_eq_add_of_le (show start ≤ place by omega)
    rw [store_inside (by simp only [List.length_append]; omega), store_inside (by omega),
      List.getElem_append_left]

theorem Draft.add_fits {attr : Attribute}
    (room : radiusHdrsize + pack.used + (attr.body.length + 2) ≤ radiusPacksize) :
    pack.add attr = pack.put attr.bytes attr.bytes.length room := dif_pos room

theorem Draft.add_full {attr : Attribute}
    (full : ¬ radiusHdrsize + pack.used + (attr.body.length + 2) ≤ radiusPacksize) :
    pack.add attr = pack := dif_neg full

theorem Draft.put_congr {bytes others : List UInt8} {size other : Nat}
    {room : radiusHdrsize + pack.used + size ≤ radiusPacksize} (sizes : size = other)
    (same : store pack.area pack.used bytes = store pack.area pack.used others) :
    pack.put bytes size room = pack.put others other (sizes ▸ room) := by
  subst sizes
  simp only [Draft.put, same]

/-- Whatever is tried, the writes stay inside when what is added is the attribute. -/
theorem added_inside {size written : Nat} (room : radiusHdrsize + pack.used + size ≤ radiusPacksize)
    (few : written ≤ size) : pack.used + written ≤ radiusPacksize - radiusHdrsize := by
  have header : radiusHdrsize ≤ radiusPacksize := by decide
  omega

theorem radiusAddattr_plain {call : ProperCall} (plain : call.1.type ≠ attrVendorSpecific) :
    (radiusAddattr md5 secret pack call.1).pack = pack.add (call.attribute md5 secret pack.authenticator) ∧
      pack.used + (radiusAddattr md5 secret pack call.1).written ≤ radiusPacksize - radiusHdrsize := by
  have length := @AttrCall.length_body_plain md5 secret pack.authenticator call.1 plain
  have body : attrValue (attrData md5 secret pack.authenticator call.1).1
      (attrData md5 secret pack.authenticator call.1).2
        (call.1.body md5 secret pack.authenticator).length call.1.value =
          call.1.body md5 secret pack.authenticator := by
    rw [length, AttrCall.body]
    simp only [if_pos plain]
  simp only [radiusAddattr, if_pos plain, ← length, body]
  split
  · rename_i room
    exact ⟨(@Draft.add_fits pack (call.attribute md5 secret pack.authenticator) room).symm,
      added_inside room (Nat.le_refl _)⟩
  · rename_i full
    exact ⟨(Draft.add_full full).symm, Nat.le_sub_of_add_le' pack.fits⟩

/-- The header of a vendor's attribute, with that of the value in it. -/
def vendorHead (call : AttrCall) (vlen : Nat) : List UInt8 :=
  call.type :: UInt8.ofNat (vlen + 8) ::
    (be32 call.vendorId ++ [call.vendorType, UInt8.ofNat (vlen + 2)])

theorem vendorHead_append {call : AttrCall} {vlen : Nat} {value : List UInt8} :
    vendorHead call vlen ++ value = call.type :: UInt8.ofNat (vlen + 8) ::
      (be32 call.vendorId ++ call.vendorType :: UInt8.ofNat (vlen + 2) :: value) := rfl

theorem bytes_vendor {authenticator : Authenticator} {call : ProperCall}
    (vendor : call.1.type = attrVendorSpecific) :
    (call.attribute md5 secret authenticator).bytes =
      vendorHead call.1 (attrVlen (radiusAttrVlen - 8) call.1.dlen.toNat) ++
        if call.1.data.isSome ∧ call.1.dlen.toNat = 0 then List.replicate 4 0
        else attrValue call.1.data call.1.dlen.toNat call.1.dlen.toNat call.1.value := by
  have length := @AttrCall.length_body_vendor md5 secret authenticator call.1 vendor call.2
  change call.1.type :: UInt8.ofNat ((call.1.body md5 secret authenticator).length + 2) ::
    call.1.body md5 secret authenticator = _
  rw [length, vendorHead_append]
  simp only [AttrCall.body, attrData_vendor vendor, if_neg (not_not.mpr vendor)]

theorem radiusAddattr_vendor {call : ProperCall} (blank : pack.Blank)
    (vendor : call.1.type = attrVendorSpecific) :
    (radiusAddattr md5 secret pack call.1).pack = pack.add (call.attribute md5 secret pack.authenticator) ∧
      pack.used + (radiusAddattr md5 secret pack call.1).written ≤ radiusPacksize - radiusHdrsize := by
  have bytes := @bytes_vendor md5 secret pack.authenticator call vendor
  have length : (call.attribute md5 secret pack.authenticator).body.length + 2 =
      attrVlen (radiusAttrVlen - 8) call.1.dlen.toNat + 8 := by
    rw [ProperCall.attribute, AttrCall.length_body_vendor vendor call.2]
  simp only [radiusAddattr, if_neg (not_not.mpr vendor), attrData_vendor vendor, ← vendorHead_append]
  split
  · rename_i room
    have room' := room
    rw [← length] at room'
    rw [Draft.add_fits room']
    by_cases kept : call.1.data.isSome ∧ call.1.dlen.toNat = 0
    · have nothing : attrValue call.1.data call.1.dlen.toNat call.1.dlen.toNat call.1.value = [] := by
        obtain ⟨memory, given⟩ := Option.isSome_iff_exists.mp kept.1
        rw [given, kept.2]
        rfl
      rw [if_pos kept] at bytes
      rw [nothing, List.append_nil]
      constructor
      · refine @Draft.put_congr pack _ _ _ _ room length.symm ?_
        rw [bytes, store_zeros blank]
      · refine added_inside room ?_
        simp [vendorHead]
    · rw [if_neg kept] at bytes
      rw [← bytes]
      refine ⟨@Draft.put_congr pack _ _ _ _ room length.symm rfl, added_inside room ?_⟩
      rw [Attribute.length_bytes, length]
  · rename_i full
    rw [← length] at full
    exact ⟨(Draft.add_full full).symm, Nat.le_sub_of_add_le' pack.fits⟩

theorem radiusAddattr_proper (blank : pack.Blank) (call : ProperCall) :
    (radiusAddattr md5 secret pack call.1).pack = pack.add (call.attribute md5 secret pack.authenticator) ∧
      pack.used + (radiusAddattr md5 secret pack call.1).written ≤ radiusPacksize - radiusHdrsize := by
  by_cases vendor : call.1.type = attrVendorSpecific
  · exact radiusAddattr_vendor blank vendor
  · exact radiusAddattr_plain vendor

theorem Draft.add_authenticator {attr : Attribute} : (pack.add attr).authenticator = pack.authenticator := by
  unfold Draft.add
  split <;> rfl

/-- The calls of a run add their attributes one by one. -/
theorem addAttrs_proper (blank : pack.Blank) :
    addAttrs md5 secret pack (calls.map Subtype.val) =
      (calls.map (·.attribute md5 secret pack.authenticator)).foldl Draft.add pack := by
  induction calls generalizing pack with
  | nil => rfl
  | cons call rest ih =>
      have added := (@radiusAddattr_proper md5 secret pack blank call).1
      have rest' := ih (blank.add (call.attribute md5 secret pack.authenticator))
      rw [Draft.add_authenticator] at rest'
      simp only [addAttrs, List.map_cons, List.foldl_cons, added] at rest' ⊢
      exact rest'

theorem blank_addAttrs (blank : pack.Blank) : (addAttrs md5 secret pack (calls.map Subtype.val)).Blank := by
  rw [addAttrs_proper blank]
  generalize calls.map (·.attribute md5 secret pack.authenticator) = attrs
  induction attrs generalizing pack with
  | nil => exact blank
  | cons attr rest ih => exact ih (blank.add attr)

/-- Those that still fit are kept, in their order. -/
def fitted : Nat → List Attribute → List Attribute
  | _, [] => []
  | room, attr :: rest =>
      if attr.bytes.length ≤ room then attr :: fitted (room - attr.bytes.length) rest
      else fitted room rest

theorem mem_fitted {room : Nat} {attrs : List Attribute} {attr : Attribute}
    (member : attr ∈ fitted room attrs) : attr ∈ attrs := by
  fun_induction fitted room attrs with
  | case1 => exact member
  | case2 room first rest fits ih =>
      rcases List.mem_cons.mp member with rfl | later
      · exact List.mem_cons_self
      · exact List.mem_cons_of_mem _ (ih later)
  | case3 room first rest full ih => exact List.mem_cons_of_mem _ (ih member)

theorem Draft.add_packet_fits {attr : Attribute}
    (room : attr.bytes.length ≤ radiusPacksize - radiusHdrsize - pack.used) :
    (pack.add attr).packet =
        { pack.packet with payload := pack.packet.payload ++ attr.bytes } ∧
      (pack.add attr).used = pack.used + attr.bytes.length := by
  have fits := pack.fits
  rw [Draft.add, dif_pos (by omega)]
  refine ⟨?_, rfl⟩
  have front : load (store pack.area pack.used attr.bytes) 0 pack.used = load pack.area 0 pack.used :=
    load_store_apart (.inl (by omega))
  have back := @load_store UInt8 pack.area attr.bytes pack.used
  simp only [Draft.packet, Draft.put]
  rw [load_append, front, Nat.zero_add, back]

theorem addAll_packet {attrs : List Attribute} : (attrs.foldl Draft.add pack).packet =
    { pack.packet with
      payload := pack.packet.payload ++
        attrBytes (fitted (radiusPacksize - radiusHdrsize - pack.used) attrs) } := by
  induction attrs generalizing pack with
  | nil => simp [fitted, attrBytes]
  | cons attr rest ih =>
      rw [List.foldl_cons, ih, fitted]
      by_cases room : attr.bytes.length ≤ radiusPacksize - radiusHdrsize - pack.used
      · obtain ⟨packet, used⟩ := Draft.add_packet_fits room
        rw [if_pos room, packet, used, attrBytes_cons, List.append_assoc, Nat.sub_add_eq]
      · have fits := pack.fits
        rw [if_neg room, Draft.add, dif_neg (by omega)]

end Adding

/-! ## From one end to the other -/

section Sending

variable {md5 : Md5} {secret : List UInt8} {pack : RadiusPacket} {attrs before after : List Attribute}
  {attr : Attribute} {digest : Authenticator}

/-- Whatever the attribute carried, it carries a digest now. -/
def Attribute.authenticated (digest : Authenticator) (attr : Attribute) : Attribute where
  type := attr.type
  body := digest.1
  named := attr.named
  short := by rw [digest.2]; decide
  vendor _ := by rw [digest.2]; decide

/-- The first message authenticator gets its digest. -/
def signAttrs (digest : Authenticator) : List Attribute → List Attribute
  | [] => []
  | attr :: rest =>
      if attr.type = attrMessageAuthenticator then attr.authenticated digest :: rest
      else attr :: signAttrs digest rest

/-- Every message authenticator has room for a digest. -/
def MacRoom (attrs : List Attribute) : Prop :=
  ∀ attr ∈ attrs, attr.type = attrMessageAuthenticator → attr.body.length = radiusAuthlen

theorem length_signAttrs (room : MacRoom attrs) :
    (attrBytes (signAttrs digest attrs)).length = (attrBytes attrs).length := by
  induction attrs with
  | nil => rfl
  | cons attr rest ih =>
      have rest' := ih fun other member => room other (List.mem_cons_of_mem _ member)
      rw [signAttrs]
      split
      · rename_i mac
        have here := room attr List.mem_cons_self mac
        unfold radiusAuthlen at here
        simp [Attribute.authenticated, digest.2, here]
      · simp [rest']

theorem radiusGetattr_here {payload front back : List UInt8} {type : UInt8} {fuel : Nat}
    (all : payload = front ++ (attr.bytes ++ back)) :
    radiusGetattr payload type (fuel + 1) front.length =
      if attr.type = type then some front.length
      else radiusGetattr payload type fuel (front.length + attr.bytes.length) := by
  let pack : RadiusPacket := ⟨0, 0, noAuthenticator, payload⟩
  have here : AttrAt pack (fun _ => 0) front.length := attrAt_front all
  have below : ¬ payload.length ≤ front.length := Nat.not_le.mpr here.below
  have type' : payload.getD front.length 0 = attr.type := @payloadAt_type pack (fun _ => 0) attr front back all
  have length : (payload.getD (front.length + 1) 0).toNat = attr.bytes.length :=
    @payloadAt_length pack (fun _ => 0) attr front back all
  rw [radiusGetattr, if_neg below]
  have goesOn : ¬ (payload.getD front.length 0 = 0 ∨ payload.getD (front.length + 1) 0 < 2) := here.goesOn
  simp only [if_neg goesOn]
  rw [type', length]

/-- What the search for a message authenticator finds is what gets its digest. -/
theorem signAttrs_cases {payload : List UInt8} {front : List Attribute} {fuel : Nat}
    (all : payload = attrBytes (front ++ attrs)) (enough : attrs.length ≤ fuel) :
    (radiusGetattr payload attrMessageAuthenticator fuel (attrBytes front).length = none ∧
        signAttrs digest attrs = attrs) ∨
      ∃ before attr after, attrs = before ++ attr :: after ∧ attr.type = attrMessageAuthenticator ∧
        radiusGetattr payload attrMessageAuthenticator fuel (attrBytes front).length =
          some (attrBytes (front ++ before)).length ∧
        signAttrs digest attrs = before ++ attr.authenticated digest :: after := by
  induction attrs generalizing front fuel with
  | nil =>
      rw [List.append_nil] at all
      left
      cases fuel with
      | zero => exact ⟨rfl, rfl⟩
      | succ fuel => exact ⟨by rw [all, radiusGetattr, if_pos (Nat.le_refl _)], rfl⟩
  | cons attr rest ih =>
      obtain ⟨fuel, rfl⟩ := Nat.exists_eq_add_of_lt (Nat.lt_of_lt_of_le (Nat.zero_lt_succ _) enough)
      have here : payload = attrBytes front ++ (attr.bytes ++ attrBytes rest) := by simpa using all
      rw [signAttrs, Nat.zero_add, radiusGetattr_here here]
      by_cases mac : attr.type = attrMessageAuthenticator
      · right
        rw [if_pos mac, if_pos mac]
        exact ⟨[], attr, rest, rfl, mac, by simp, rfl⟩
      · have next : (attrBytes front).length + attr.bytes.length = (attrBytes (front ++ [attr])).length := by
          simp [attrBytes]
        rw [if_neg mac, if_neg mac, next]
        rcases @ih (front ++ [attr]) fuel (by simpa using all)
            (by simpa using enough) with
          ⟨none', same⟩ | ⟨before, found, after, rfl, mac', some', same⟩
        · exact .inl ⟨none', by rw [same]⟩
        · exact .inr ⟨attr :: before, found, after, rfl, mac', by simpa using some', by rw [same]; rfl⟩

theorem length_attrs_le : attrs.length ≤ (attrBytes attrs).length := by
  induction attrs with
  | nil => exact Nat.le_refl _
  | cons attr rest ih =>
      simp only [attrBytes_cons, List.length_append, List.length_cons, Attribute.length_bytes]
      omega

theorem fillMessageAuthenticator_attrs (payload : pack.payload = attrBytes attrs) (room : MacRoom attrs) :
    fillMessageAuthenticator md5 secret pack =
      { pack with payload := attrBytes (signAttrs (radiusHmacMd5 md5 secret pack) attrs) } := by
  have enough : attrs.length ≤ pack.payload.length := payload ▸ length_attrs_le
  rcases @signAttrs_cases attrs (radiusHmacMd5 md5 secret pack) pack.payload [] _ payload enough with
    ⟨none', same⟩ | ⟨before, attr, after, rfl, mac, found, same⟩
  · rw [fillMessageAuthenticator, show radiusGetattr _ _ _ 0 = none from none', same, ← payload]
  · have here : attr.body.length = radiusAuthlen := room attr (by simp) mac
    let head := attrBytes before ++ [attr.type, UInt8.ofNat (attr.body.length + 2)]
    have offset : head.length = (attrBytes before).length + 2 := List.length_append
    have parts : pack.payload = head ++ (attr.body ++ attrBytes after) := by
      simp [payload, head, Attribute.bytes]
    have behind : (head ++ attr.body).length = (attrBytes before).length + 2 + radiusAuthlen := by
      rw [List.length_append, offset, here]
    have kept : pack.payload.take ((attrBytes before).length + 2) = head := by
      rw [parts, List.take_left' offset]
    have rest : pack.payload.drop ((attrBytes before).length + 2 + radiusAuthlen) = attrBytes after := by
      rw [parts, ← List.append_assoc, List.drop_left' behind]
    have signed : attrBytes (before ++ attr.authenticated (radiusHmacMd5 md5 secret pack) :: after) =
        head ++ (radiusHmacMd5 md5 secret pack).1 ++ attrBytes after := by
      have length := (radiusHmacMd5 md5 secret pack).2
      simp only [attrBytes_append, attrBytes_cons, Attribute.bytes, Attribute.authenticated, length, head,
        here, radiusAuthlen, List.append_assoc, List.cons_append, List.nil_append]
    have whole : (head ++ (radiusHmacMd5 md5 secret pack).1 ++ attrBytes after).length =
        pack.payload.length := by
      have length := (radiusHmacMd5 md5 secret pack).2
      simp only [parts, List.length_append, length, here, radiusAuthlen]
      omega
    rw [fillMessageAuthenticator, show radiusGetattr _ _ _ 0 = _ from found, same, signed]
    simp only [List.nil_append, kept, rest, ← whole, List.take_length]

theorem readPacket_bytes (fits : radiusHdrsize + pack.payload.length ≤ radiusPacksize) :
    readPacket (pack.bytesWith pack.authenticator) = some pack := by
  obtain ⟨code, id, ⟨authenticator, size⟩, payload⟩ := pack
  have length : ([code, id] ++ be16 (RadiusPacket.length ⟨code, id, ⟨authenticator, size⟩, payload⟩) ++
      authenticator ++ payload).length = radiusHdrsize + payload.length := by
    simp only [List.length_append, size, be16_length, List.length_cons, List.length_nil, radiusHdrsize]
  have front : (authenticator ++ payload).take 16 = authenticator := List.take_left' size
  have back : (authenticator ++ payload).drop 16 = payload := List.drop_left' size
  have room : radiusAuthlen ≤ (authenticator ++ payload).length := by
    rw [List.length_append, size]
    exact Nat.le_add_right _ _
  rw [readPacket, RadiusPacket.bytesWith, List.take_of_length_le (length ▸ fits)]
  simp only [be16, List.cons_append, List.nil_append, dif_pos room, front, back, if_true]

/-- The message authenticator, the identifier and the attributes as they are sent. -/
theorem signRequest_attrs (payload : pack.payload = attrBytes attrs) (room : MacRoom attrs) :
    (signRequest md5 secret pack).payload =
        attrBytes (signAttrs (radiusHmacMd5 md5 secret pack) attrs) ∧
      (signRequest md5 secret pack).code = pack.code ∧ (signRequest md5 secret pack).id = pack.id ∧
      (pack.code ≠ codeAccountingRequest →
        (signRequest md5 secret pack).authenticator = pack.authenticator) ∧
      (pack.code = codeAccountingRequest → radiusAcctcheck md5 secret (signRequest md5 secret pack) = false) := by
  rw [signRequest, fillMessageAuthenticator_attrs payload room]
  split
  · rename_i accounting
    exact ⟨rfl, rfl, rfl, fun other => absurd accounting other, fun _ => decide_eq_false (not_not.mpr rfl)⟩
  · rename_i other
    exact ⟨rfl, rfl, rfl, fun _ => rfl, fun accounting => absurd accounting other⟩

/-- A search in the packet finds an attribute under its number among those that it asks for, whatever
stands behind the packet, and there it is whole. It finds nothing under any other number. -/
def Reads (pack : RadiusPacket) (attrs : List Attribute) : Prop :=
  ∀ behind type vendorId vendorType,
    (∀ before attr after, attrs = before ++ attr :: after → attr.AskedFor type vendorId vendorType →
      (∃ fuel, radiusGetnextattr pack behind type vendorId vendorType
          (before.countP (·.AskedFor type vendorId vendorType)) fuel 0 =
        .done (some (pointer type vendorId (attrBytes before).length,
          (attrBytes (before ++ [attr])).length))) ∧
      load (payloadAt pack behind) (attrBytes before).length attr.bytes.length = attr.bytes) ∧
    ∀ instance' : Int,
      instance' < 0 ∨ (attrs.countP (·.AskedFor type vendorId vendorType) : Int) ≤ instance' →
        ∃ fuel, radiusGetnextattr pack behind type vendorId vendorType instance' fuel 0 = .done none

theorem reads_of_payload (payload : pack.payload = attrBytes attrs) : Reads pack attrs := by
  intro behind type vendorId vendorType
  constructor
  · rintro before attr after rfl asked
    have here : pack.payload = attrBytes before ++ (attr.bytes ++ attrBytes after) := by simpa using payload
    constructor
    · refine ⟨before.length + 1, ?_⟩
      exact @walk_found pack behind type vendorType vendorId _ 0 attr before asked [] after payload (by simp)
    · apply List.ext_getElem (by simp)
      intro place inside within
      rw [load_getElem, payloadAt_attr here within, List.getD_eq_getElem _ _ within]
  · intro instance' outside
    refine ⟨attrs.length + 1, ?_⟩
    exact @walk_missing pack behind type vendorType vendorId instance' 0 [] attrs payload (by simpa using outside)

end Sending

section Request

variable (md5 : Md5) (secret : List UInt8) (code id : UInt8) (authenticator : Authenticator)
  (calls : List ProperCall)

/-- The packet that the calls build. -/
def builtPacket : RadiusPacket :=
  (addAttrs md5 secret (blankDraft code id authenticator) (calls.map Subtype.val)).packet

/-- The attributes that found room. -/
def builtAttrs : List Attribute :=
  fitted (radiusPacksize - radiusHdrsize) (calls.map (·.attribute md5 secret authenticator))

theorem builtPacket_eq : builtPacket md5 secret code id authenticator calls =
    ⟨code, id, authenticator, attrBytes (builtAttrs md5 secret authenticator calls)⟩ := by
  have blank : (blankDraft code id authenticator).Blank := fun _ _ => rfl
  rw [builtPacket, addAttrs_proper blank, addAll_packet]
  rfl

theorem builtPacket_fits :
    radiusHdrsize + (builtPacket md5 secret code id authenticator calls).payload.length ≤ radiusPacksize := by
  rw [builtPacket, Draft.packet, load_length]
  exact Draft.fits _

variable {md5 secret authenticator calls} in
theorem builtAttrs_macRoom
    (mac : ∀ call ∈ calls, call.1.type = attrMessageAuthenticator → call.1.dlen = 16) :
    MacRoom (builtAttrs md5 secret authenticator calls) := by
  intro attr member type
  obtain ⟨call, member', rfl⟩ := List.mem_map.mp (mem_fitted member)
  have type' : call.1.type = attrMessageAuthenticator := type
  have plain : call.1.type ≠ attrVendorSpecific := by rw [type']; decide
  have length : (call.1.body md5 secret authenticator).length = _ := AttrCall.length_body_plain plain
  have data : attrData md5 secret authenticator call.1 = (call.1.data, 16) := by
    rw [attrData, if_neg (by rw [type']; decide), mac call member' type']
    rfl
  rw [data] at length
  exact length

/-- What a packet that is built by calls and sent is at the other end. -/
structure Conveyed (sent : RadiusPacket) : Prop where
  inside : ∀ before call after, calls = before ++ call :: after →
    let pack := addAttrs md5 secret (blankDraft code id authenticator) (before.map Subtype.val)
    pack.used + (radiusAddattr md5 secret pack call.1).written ≤ radiusPacksize - radiusHdrsize
  read : readPacket (sent.bytesWith sent.authenticator) = some sent
  sameCode : sent.code = code
  sameId : sent.id = id
  nonce : code ≠ codeAccountingRequest → sent.authenticator = authenticator
  accounting : code = codeAccountingRequest → radiusAcctcheck md5 secret sent = false
  attrs : Reads sent (signAttrs
    (radiusHmacMd5 md5 secret (builtPacket md5 secret code id authenticator calls))
    (builtAttrs md5 secret authenticator calls))

variable {md5 secret code id authenticator calls}

theorem builtPacket_conveyed
    (mac : ∀ call ∈ calls, call.1.type = attrMessageAuthenticator → call.1.dlen = 16) :
    Conveyed md5 secret code id authenticator calls
      (signRequest md5 secret (builtPacket md5 secret code id authenticator calls)) := by
  have blank : (blankDraft code id authenticator).Blank := fun _ _ => rfl
  have packet := builtPacket_eq md5 secret code id authenticator calls
  have payload := congrArg RadiusPacket.payload packet
  have room := @builtAttrs_macRoom md5 secret authenticator calls mac
  obtain ⟨signed, sameCode, sameId, other, accounting⟩ :=
    @signRequest_attrs md5 secret _ _ payload room
  have fits := builtPacket_fits md5 secret code id authenticator calls
  rw [payload, ← length_signAttrs room, ← signed] at fits
  refine ⟨fun before call after _ => ?_, readPacket_bytes fits, ?_, ?_, ?_, ?_, reads_of_payload signed⟩
  · exact (radiusAddattr_proper (blank_addAttrs blank) call).2
  · rw [sameCode, packet]
  · rw [sameId, packet]
  · intro plain
    rw [other (by rwa [packet]), packet]
  · intro acct
    exact accounting (by rw [packet]; exact acct)

/-- A user's name of one letter, and a message authenticator. -/
def signedCalls : List ProperCall :=
  [⟨⟨1, 0, 0, 0, some fun _ => 0x41, 1⟩, by decide, nofun, nofun⟩,
    ⟨⟨attrMessageAuthenticator, 0, 0, 0, none, 16⟩, by decide, nofun, nofun⟩]

theorem builtPacket_conveyed_signed :
    Conveyed (fun _ => noAuthenticator) [0x73] codeAccessRequest 1 noAuthenticator signedCalls
      (signRequest (fun _ => noAuthenticator) [0x73]
        (builtPacket (fun _ => noAuthenticator) [0x73] codeAccessRequest 1 noAuthenticator signedCalls)) :=
  builtPacket_conveyed fun call member type => by
    simp only [signedCalls, List.mem_cons, List.not_mem_nil, or_false] at member
    rcases member with rfl | rfl
    · exact absurd type (by decide)
    · rfl

/-- The calls of `radius_default_pack` are among them for any version that fits. -/
theorem defaultCalls_proper {version : List UInt8} {swapoctets : Bool} {wall : UInt32}
    (short : version.length ≤ radiusAttrVlen - 8) :
    ∀ call ∈ defaultCalls code version swapoctets wall, call.Proper := by
  have version' : (UInt16.ofNat version.length).toNat = version.length :=
    UInt16.toNat_ofNat_of_lt' (Nat.lt_of_le_of_lt short (by decide))
  have fits := version'.le.trans short
  have special : attrVendorSpecific ≠ 0 := by decide
  have event : attrEventTimestamp ≠ 0 := by decide
  intro call member
  simp only [defaultCalls] at member
  by_cases request : code = codeAccessRequest
  · rw [if_pos request] at member
    obtain rfl := List.mem_singleton.mp member
    exact ⟨special, nofun, fun _ => fits⟩
  · rw [if_neg request] at member
    by_cases accounting : code = codeAccountingRequest
    · rw [if_pos accounting] at member
      simp only [List.mem_cons, List.not_mem_nil, or_false] at member
      rcases member with rfl | rfl | rfl
      · exact ⟨special, nofun, fun _ => fits⟩
      · exact ⟨special, fun _ _ => rfl, fun _ => Nat.zero_le _⟩
      · exact ⟨event, fun _ _ => rfl, fun _ => Nat.zero_le _⟩
    · rw [if_neg accounting] at member
      cases member

end Request

end Rut9xx.RadiusClient
