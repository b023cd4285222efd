import Rut9xx.Chilli.Frame
import Rut9xx.Data.OptionWalk

namespace Rut9xx.Chilli

open Data

/-! # Clamping the maximum segment size of a TCP packet -/

section

def tcpMaxOptionLen : Nat := 40

/-- `tcph->offres >> 4` -/
def tcpOff (pack : Memory UInt8) : Nat := (pack (sizeofip pack + 12)).toNat / 2 ^ 4

/-- `tcphdr_syn` -/
def tcpSyn (pack : Memory UInt8) : Bool := pack (sizeofip pack + 13) &&& 2 = 2

/-- The MSS at `place`, rewritten where it is above `optval`. -/
def clampMss (optval : UInt16) (iph place : Nat) (packet : Guarded) : Guarded :=
  let packet := packet.touch place 2
  if optval < word16 packet.bytes place then chksum (packet.put place (be16 optval)) iph else packet

/-- The loop over the options at `opts`, from `i` on, with `scalewin` off: the packet and `hasmss`,
none for a bad option. -/
def walkOptions (optval : UInt16) (iph opts words i : Nat) (hasmss : Bool) (packet : Guarded) :
    Guarded × Option Bool :=
  if i / 4 < words then
    let packet := packet.touch (opts + i) 1
    if packet.bytes (opts + i) = 0 then (packet, some hasmss)
    else if packet.bytes (opts + i) = 1 then walkOptions optval iph opts words (i + 1) hasmss packet
    else
      let packet := packet.touch (opts + i + 1) 1
      let len := (packet.bytes (opts + i + 1)).toNat
      if len < 2 ∨ tcpMaxOptionLen < len then (packet, none)
      else if packet.bytes (opts + i) = 2 ∧ len = 4 then
        walkOptions optval iph opts words (i + 2 + (len - 2)) true
          (clampMss optval iph (opts + i + 2) packet)
      else walkOptions optval iph opts words (i + 2 + (len - 2)) hasmss packet
  else (packet, some hasmss)
termination_by 4 * words - i

/-- The copy `p` of the packet gets an MSS option behind its options. -/
def putMss (optval : UInt16) (off : Nat) (packet : Guarded) (length : Nat) (p : Guarded) : Guarded :=
  let iph := sizeofeth p.bytes
  let tcph := sizeofip p.bytes
  -- `options + (off - 5) * 4`
  let dst := tcph + 4 * off
  let src := sizeofip packet.bytes + 4 * off
  let dlen := length - sizeofip packet.bytes - 4 * off
  let p := p.put (tcph + 12) [UInt8.ofNat ((off + 1) * 2 ^ 4)]
  let p := (p.put dst [2, 4]).put (dst + 2) (be16 optval)
  let p := p.put (dst + 4) (load packet.bytes src dlen)
  p.put (iph + 2) (be16 (word16 p.bytes (iph + 2) + 4))

/-- A packet of `length` bytes is replaced by a copy with an MSS option; `uninit` is in the copy
before. -/
def addMss (optval : UInt16) (uninit : Memory UInt8) (off : Nat) (packet : Guarded) (length : Nat) :
    Guarded × Nat :=
  let packet := packet.touch 0 length
  let p := Guarded.put ⟨pktBuffer, uninit, true⟩ 0 (load packet.bytes 0 length)
  let packet := packet.touch (sizeofip packet.bytes + 4 * off) (length - sizeofip packet.bytes - 4 * off)
  let p := (chksum (putMss optval off packet length p) (sizeofeth p.bytes)).touch 0 (length + 4)
  let packet := packet.put 0 (load p.bytes 0 (length + 4))
  ({ packet with inside := packet.inside && p.inside }, length + 4)

/-- `pkt_shape_tcpmss`, its value left out: the packet and its length. `off` has four bits. -/
def pktShapeTcpmss (optval : UInt16) (uninit : Memory UInt8) (packet : Guarded) (length : Nat) :
    Guarded × Nat :=
  if protocol packet.bytes = ipProtoTcp then
    let iph := sizeofeth packet.bytes
    let tcph := sizeofip packet.bytes
    let off := tcpOff packet.bytes
    let packet := packet.touch 0 (tcph + pktTcpHlen)
    let (packet, hasmss) :=
      if 5 < off then walkOptions optval iph (tcph + pktTcpHlen) (off - 5) 0 false packet
      else (packet, some false)
    match hasmss with
    | none => (packet, length)
    | some hasmss =>
        if hasmss = false ∧ length < 1400 ∧ packet.bytes (tcph + 13) &&& 2 = 2 then
          addMss optval uninit off packet length
        else (packet, length)
  else (packet, length)

end

/-! ## What it is for -/

section

/-- The options of TCP as the format has them. -/
def tcpFormat : OptionFormat := ⟨1, 0, 0⟩

/-- How many bytes of options the header has. -/
def tcpOptionsLen (pack : Memory UInt8) : Nat := 4 * (tcpOff pack - 5)

def tcpOptions (pack : Memory UInt8) : List (Nat × TaggedValue) :=
  optionsFrom tcpFormat (load pack (sizeofip pack + pktTcpHlen) (tcpOptionsLen pack)) 0

def tcpPayload (pack : Memory UInt8) (length : Nat) : List UInt8 :=
  load pack (sizeofip pack + 4 * tcpOff pack) (length - (sizeofip pack + 4 * tcpOff pack))

/-- The maximum segment size of an option that has one. -/
def mss (option : TaggedValue) : Option UInt16 :=
  if option.tag = 2 then
    match option.value with
    | [high, low] => some (joinBe16 high low)
    | _ => none
  else none

def HasMss (options : List (Nat × TaggedValue)) : Prop := ∃ found ∈ options, (mss found.2).isSome

/-- A well-formed frame of `length` bytes: IPv4 without IP options, with a whole TCP header. -/
structure TcpFrame (packet : Guarded) (length : Nat) : Prop where
  inside : packet.inside = true
  /-- The buffers of the callers have that room at least. -/
  room : 1500 ≤ packet.size
  fits : length ≤ packet.size
  header : versionIhl packet.bytes = 0x45
  tcp : protocol packet.bytes = ipProtoTcp
  total : sizeofeth packet.bytes + iphTotLen packet.bytes = length
  least : 5 ≤ tcpOff packet.bytes
  within : sizeofip packet.bytes + 4 * tcpOff packet.bytes ≤ length

/-- `after`, of `length'` bytes, is `packet` with the MSS clamped to `optval`, for good. -/
structure Clamped (optval : UInt16) (packet : Guarded) (length : Nat) (after : Guarded)
    (length' : Nat) : Prop where
  wellFormed : TcpFrame after length'
  bounded : ∀ found ∈ tcpOptions after.bytes, ∀ size ∈ mss found.2, size ≤ optval
  syn : tcpSyn packet.bytes = true → length < 1400 → HasMss (tcpOptions after.bytes)
  others : ((tcpOptions after.bytes).filter fun found => (mss found.2).isNone) =
    (tcpOptions packet.bytes).filter fun found => (mss found.2).isNone
  payload : tcpPayload after.bytes length' = tcpPayload packet.bytes length
  again : ∀ uninit, pktShapeTcpmss optval uninit after length' = (after, length')

/-- The options of `size` bytes at `opts` are cut off inside an MSS option at `last`. -/
def CutAt (memory : Memory UInt8) (opts size last : Nat) : Prop :=
  last < size ∧ memory (opts + last) = 2 ∧ memory (opts + last + 1) = 4

/-- The options end such that the MSS can be clamped. -/
structure Clampable (optval : UInt16) (packet : Guarded) (length : Nat) : Prop where
  /-- A value of an MSS option that is cut off and above the bound has the bytes of the bound where
  they are in the payload. -/
  apart : ∀ options last, OptionsRead tcpFormat packet.bytes (sizeofip packet.bytes + pktTcpHlen)
      (tcpOptionsLen packet.bytes) 0 options last →
    CutAt packet.bytes (sizeofip packet.bytes + pktTcpHlen) (tcpOptionsLen packet.bytes) last →
    optval < word16 packet.bytes (sizeofip packet.bytes + pktTcpHlen + last + 2) →
      ∀ address, sizeofip packet.bytes + 4 * tcpOff packet.bytes ≤ address → address < length →
        store packet.bytes (sizeofip packet.bytes + pktTcpHlen + last + 2) (be16 optval) address =
          packet.bytes address
  /-- A short SYN has an MSS option, or options that are read to their end and room for one more. -/
  syn : tcpSyn packet.bytes = true → length < 1400 →
    HasMss (tcpOptions packet.bytes) ∨
      tcpOff packet.bytes < 15 ∧ ∃ options, OptionsRead tcpFormat packet.bytes
        (sizeofip packet.bytes + pktTcpHlen) (tcpOptionsLen packet.bytes) 0 options
          (tcpOptionsLen packet.bytes)

end

variable {optval : UInt16} {packet after : Guarded} {memory : Memory UInt8}
  {length eth place limit address words last : Nat} {hasmss : Bool}
  {options : List (Nat × TaggedValue)}

/-! ## The headers -/

/-- No byte of the two checksums behind an Ethernet header of `eth` bytes. -/
def NoSum (eth address : Nat) : Prop :=
  (address < eth + 10 ∨ eth + 12 ≤ address) ∧ (address < eth + 36 ∨ eth + 38 ≤ address)

/-- The headers up to the options are the same but for the checksums. -/
def SameHead (before after : Memory UInt8) : Prop :=
  ∀ address, address < sizeofip before + 20 → NoSum (sizeofeth before) address →
    after address = before address

namespace TcpFrame

variable (frame : TcpFrame packet length)

include frame

theorem headerLen_eq : headerLen packet.bytes = 20 := by
  rw [headerLen, frame.header]
  rfl

theorem sizeofip_eq : sizeofip packet.bytes = sizeofeth packet.bytes + 20 := by
  rw [sizeofip, frame.headerLen_eq]

/-- Fields of the headers that are no checksums. -/
theorem fields (same : SameHead packet.bytes memory) :
    sizeofeth memory = sizeofeth packet.bytes ∧ versionIhl memory = versionIhl packet.bytes ∧
      sizeofip memory = sizeofip packet.bytes ∧ tcpOff memory = tcpOff packet.bytes ∧
        tcpSyn memory = tcpSyn packet.bytes ∧ iphTotLen memory = iphTotLen packet.bytes ∧
          protocol memory = protocol packet.bytes := by
  have cases := sizeofeth_cases packet.bytes
  have ip := frame.sizeofip_eq
  have here {address : Nat} (below : address < sizeofeth packet.bytes + 36)
      (clear : address < sizeofeth packet.bytes + 10 ∨ sizeofeth packet.bytes + 12 ≤ address) :
      memory address = packet.bytes address :=
    same address (by omega) ⟨clear, .inl below⟩
  have ethernet : sizeofeth memory = sizeofeth packet.bytes :=
    sizeofeth_congr (here (by omega) (by omega)) (here (by omega) (by omega))
  have version : versionIhl memory = versionIhl packet.bytes := by
    rw [versionIhl, versionIhl, ethernet]
    exact here (by omega) (by omega)
  have ip' : sizeofip memory = sizeofip packet.bytes := by
    rw [sizeofip, sizeofip, headerLen, headerLen, version, ethernet]
  refine ⟨ethernet, version, ip', ?_, ?_, ?_, ?_⟩
  · rw [tcpOff, tcpOff, ip', here (by omega) (by omega)]
  · rw [tcpSyn, tcpSyn, ip', here (by omega) (by omega)]
  · rw [iphTotLen, iphTotLen, ethernet, word16_congr fun index below => here (by omega) (by omega)]
  · rw [protocol, protocol, ethernet, here (by omega) (by omega)]

theorem congr (inside : after.inside = true) (size : after.size = packet.size)
    (same : SameHead packet.bytes after.bytes) : TcpFrame after length := by
  obtain ⟨ethernet, version, ip, off, -, total, tcp⟩ := frame.fields same
  exact ⟨inside, size ▸ frame.room, size ▸ frame.fits, version.trans frame.header, tcp.trans frame.tcp,
    by rw [ethernet, total, frame.total], off ▸ frame.least, by rw [ip, off]; exact frame.within⟩

/-- The checksums of a frame are put inside it, and leave all other bytes. -/
theorem chksum_put (optval : UInt16) (above : sizeofip packet.bytes + 22 ≤ place)
    (within : place + 2 ≤ packet.size) :
    (chksum (packet.put place (be16 optval)) (sizeofeth packet.bytes)).inside = true ∧
      (chksum (packet.put place (be16 optval)) (sizeofeth packet.bytes)).size = packet.size ∧
        ∀ address, NoSum (sizeofeth packet.bytes) address →
          (chksum (packet.put place (be16 optval)) (sizeofeth packet.bytes)).bytes address =
            store packet.bytes place (be16 optval) address := by
  have ip := frame.sizeofip_eq
  have room := frame.room
  have cases := sizeofeth_cases packet.bytes
  have below {address : Nat} (low : address < sizeofip packet.bytes + 22) :
      (packet.put place (be16 optval)).bytes address = packet.bytes address :=
    store_outside (.inl (by omega))
  have header : (packet.put place (be16 optval)).bytes (sizeofeth packet.bytes) = 0x45 :=
    (below (by omega)).trans frame.header
  have tcp : (packet.put place (be16 optval)).bytes (sizeofeth packet.bytes + 9) = ipProtoTcp :=
    (below (by omega)).trans frame.tcp
  have five : (0x45 : UInt8).toNat % 16 * 4 = 20 := rfl
  refine ⟨chksum_inside_tcp tcp header (show _ ≤ packet.size by omega) ?_ ?_, chksum_size,
    fun address clear => ?_⟩
  · rw [word16_congr (fun index inside => below (by omega)), Guarded.put_size]
    exact frame.total.symm ▸ frame.fits
  · rw [Guarded.put_inside_iff]
    exact ⟨frame.inside, .inr within⟩
  · refine (chksum_apart tcp clear.1 ?_).trans rfl
    rw [header, five]
    exact clear.2

end TcpFrame

/-! ## The walk over the options -/

section

variable {opts i : Nat} (inside : packet.inside = true) (room : opts + i + 2 ≤ packet.size)

theorem walkOptions_end (past : 4 * words ≤ i) :
    walkOptions optval eth opts words i hasmss packet = (packet, some hasmss) := by
  rw [walkOptions, if_neg (by omega)]

include inside room

theorem walkOptions_eol (below : i < 4 * words) (here : packet.bytes (opts + i) = 0) :
    walkOptions optval eth opts words i hasmss packet = (packet, some hasmss) := by
  rw [walkOptions, if_pos (by omega)]
  simp only [Guarded.touch_self inside (show opts + i + 1 ≤ packet.size by omega), here, if_true]

theorem walkOptions_nop (below : i < 4 * words) (here : packet.bytes (opts + i) = 1) :
    walkOptions optval eth opts words i hasmss packet =
      walkOptions optval eth opts words (i + 1) hasmss packet := by
  have noEnd : ¬ (1 : UInt8) = 0 := by decide
  rw [walkOptions, if_pos (by omega)]
  simp only [Guarded.touch_self inside (show opts + i + 1 ≤ packet.size by omega), here, if_true,
    if_neg noEnd]

theorem walkOptions_option (below : i < 4 * words) (noEnd : packet.bytes (opts + i) ≠ 0)
    (noPad : packet.bytes (opts + i) ≠ 1) :
    walkOptions optval eth opts words i hasmss packet =
      if (packet.bytes (opts + i + 1)).toNat < 2 ∨ tcpMaxOptionLen < (packet.bytes (opts + i + 1)).toNat then
        (packet, none)
      else if packet.bytes (opts + i) = 2 ∧ (packet.bytes (opts + i + 1)).toNat = 4 then
        walkOptions optval eth opts words (i + 2 + ((packet.bytes (opts + i + 1)).toNat - 2)) true
          (clampMss optval eth (opts + i + 2) packet)
      else
        walkOptions optval eth opts words (i + 2 + ((packet.bytes (opts + i + 1)).toNat - 2)) hasmss
          packet := by
  rw [walkOptions, if_pos (by omega)]
  simp only [Guarded.touch_self inside (show opts + i + 1 ≤ packet.size by omega),
    Guarded.touch_self inside (show opts + i + 1 + 1 ≤ packet.size by omega), if_neg noEnd, if_neg noPad]

end

/-- An MSS option clamped. -/
def clampFound (optval : UInt16) (found : Nat × TaggedValue) : Nat × TaggedValue :=
  match mss found.2 with
  | some size => if optval < size then (found.1, ⟨2, be16 optval⟩) else found
  | none => found

/-- What the walk over the options that `memory` has from `place` on makes of a packet. -/
structure Walked (optval : UInt16) (memory : Memory UInt8) (opts words place length : Nat) (hasmss : Bool)
    (options : List (Nat × TaggedValue)) (last : Nat) (packet after : Guarded) (result : Option Bool) :
    Prop where
  frame : TcpFrame after length
  size : after.size = packet.size
  front : ∀ address, address < opts + place → NoSum (sizeofeth packet.bytes) address →
    after.bytes address = packet.bytes address
  read : OptionsRead tcpFormat after.bytes opts (4 * words) place (options.map (clampFound optval)) last
  cut : CutAt memory opts (4 * words) last → optval < word16 memory (opts + last + 2) →
    ∀ address, opts + last ≤ address →
      after.bytes address = store memory (opts + last + 2) (be16 optval) address
  tail : (CutAt memory opts (4 * words) last → word16 memory (opts + last + 2) ≤ optval) →
    ∀ address, opts + last ≤ address → after.bytes address = memory address
  still : (∀ found ∈ options, ∀ size ∈ mss found.2, size ≤ optval) →
    (CutAt memory opts (4 * words) last → word16 memory (opts + last + 2) ≤ optval) → after = packet
  bad : result = none → last < 4 * words
  found : ∀ has, result = some has →
    (has = true ↔ hasmss = true ∨ HasMss options ∨ CutAt memory opts (4 * words) last)

theorem mss_load {tag : UInt8} {start count : Nat} : mss ⟨tag, load memory start count⟩ =
    if tag = 2 ∧ count = 2 then some (word16 memory start) else none := by
  by_cases two : tag = 2
  · by_cases length : count = 2
    · subst length
      rw [mss, if_pos two, if_pos ⟨two, rfl⟩]
      rfl
    · rw [mss, if_pos two, if_neg fun both => length both.2]
      split
      · rename_i same
        have lengths := congrArg List.length same
        rw [load_length] at lengths
        exact absurd lengths length
      · rfl
  · rw [mss, if_neg two, if_neg fun both => two both.1]

theorem clampFound_other {found : Nat × TaggedValue} (other : mss found.2 = none) :
    clampFound optval found = found := by
  rw [clampFound, other]

theorem clampFound_mss {found : Nat × TaggedValue} {size : UInt16} (known : mss found.2 = some size) :
    clampFound optval found =
      if optval < size then (found.1, ⟨2, be16 optval⟩) else found := by
  rw [clampFound, known]

theorem clampFound_load {start : Nat} : clampFound optval (place, ⟨2, load memory start 2⟩) =
    (place, ⟨2, load (if optval < word16 memory start then store memory start (be16 optval) else memory)
      start 2⟩) := by
  have known : mss ⟨2, load memory start 2⟩ = some (word16 memory start) := by
    rw [mss_load, if_pos ⟨rfl, rfl⟩]
  rw [clampFound_mss known]
  split
  · exact congrArg (fun value => (place, (⟨2, value⟩ : TaggedValue))) load_store.symm
  · rfl

theorem TcpFrame.clampMss (frame : TcpFrame packet length) (above : sizeofip packet.bytes + 22 ≤ place)
    (within : place + 2 ≤ packet.size) :
    TcpFrame (clampMss optval (sizeofeth packet.bytes) place packet) length ∧
      (clampMss optval (sizeofeth packet.bytes) place packet).size = packet.size ∧
        SameHead packet.bytes (clampMss optval (sizeofeth packet.bytes) place packet).bytes ∧
          ∀ address, NoSum (sizeofeth packet.bytes) address →
            (clampMss optval (sizeofeth packet.bytes) place packet).bytes address =
              if optval < word16 packet.bytes place then store packet.bytes place (be16 optval) address
              else packet.bytes address := by
  rw [Chilli.clampMss, Guarded.touch_self frame.inside within]
  by_cases larger : optval < word16 packet.bytes place
  · obtain ⟨inside, size, bytes⟩ := frame.chksum_put optval above within
    have head : SameHead packet.bytes
        (chksum (packet.put place (be16 optval)) (sizeofeth packet.bytes)).bytes := by
      intro address below clear
      rw [bytes address clear]
      exact store_outside (.inl (by omega))
    simp only [if_pos larger]
    exact ⟨frame.congr inside size head, size, head, bytes⟩
  · simp only [if_neg larger]
    exact ⟨frame, trivial, fun _ _ _ => rfl, fun _ _ => trivial⟩

theorem clampMss_still (frame : TcpFrame packet length) (within : place + 2 ≤ packet.size)
    (bounded : word16 packet.bytes place ≤ optval) : clampMss optval eth place packet = packet := by
  rw [clampMss, Guarded.touch_self frame.inside within]
  exact if_neg (UInt16.not_lt.mpr bounded)

namespace Walked

variable {opts : Nat} {result : Option Bool}

/-- The walk ends at `place` without an MSS. -/
theorem ended (frame : TcpFrame packet length)
    (same : ∀ address, opts + place ≤ address → packet.bytes address = memory address)
    (read : OptionsRead tcpFormat memory opts (4 * words) place [] place)
    (uncut : ¬ CutAt memory opts (4 * words) place) (bad : result = none → place < 4 * words)
    (found : ∀ has, result = some has → has = hasmss) :
    Walked optval memory opts words place length hasmss [] place packet packet result where
  frame := frame
  size := rfl
  front _ _ _ := rfl
  read := read.congr same
  cut is := absurd is uncut
  tail _ := same
  still _ _ := rfl
  bad := bad
  found has is := by
    rw [found has is]
    simp only [HasMss, List.not_mem_nil, false_and, exists_false, uncut, or_false]

variable (at' : opts = sizeofip packet.bytes + 20) (frame : TcpFrame packet length)

include at' frame

/-- No checksum is among the options or behind them. -/
theorem noSum (above : opts ≤ address) : NoSum (sizeofeth packet.bytes) address := by
  have ip := frame.sizeofip_eq
  exact ⟨.inr (by omega), .inr (by omega)⟩

theorem pad (walked : Walked optval memory opts words (place + 1) length hasmss options last packet after
      result)
    (same : ∀ address, opts + place ≤ address → packet.bytes address = memory address)
    (inside : place < 4 * words) (here : memory (opts + place) = 1) :
    Walked optval memory opts words place length hasmss options last packet after result := by
  have here' : after.bytes (opts + place) = 1 :=
    (walked.front _ (by omega) (noSum at' frame (by omega))).trans ((same _ (Nat.le_refl _)).trans here)
  have noEnd : ¬ (1 : UInt8) = 0 := by decide
  exact { walked with
    front := fun address below clear => walked.front address (by omega) clear
    read := .pad inside (here' ▸ noEnd) here' walked.read }

/-- An option of `len` bytes that is no MSS. -/
theorem option {len : UInt8}
    (walked : Walked optval memory opts words (place + tcpFormat.size len) length hasmss options last
      packet after result)
    (same : ∀ address, opts + place ≤ address → packet.bytes address = memory address)
    (inside : place < 4 * words) (noEnd : memory (opts + place) ≠ 0) (noPad : memory (opts + place) ≠ 1)
    (next : memory (opts + place + 1) = len) (least : 2 ≤ tcpFormat.size len)
    (whole : place + tcpFormat.size len ≤ 4 * words)
    (other : mss ⟨memory (opts + place), load memory (opts + place + 2) (tcpFormat.size len - 2)⟩ = none) :
    Walked optval memory opts words place length hasmss
      ((place, ⟨memory (opts + place), load memory (opts + place + 2) (tcpFormat.size len - 2)⟩) :: options)
      last packet after result := by
  have kept {address : Nat} (above : opts + place ≤ address)
      (below : address < opts + (place + tcpFormat.size len)) : after.bytes address = memory address :=
    (walked.front _ below (noSum at' frame (by omega))).trans (same _ above)
  have value : load after.bytes (opts + place + 2) (tcpFormat.size len - 2) =
      load memory (opts + place + 2) (tcpFormat.size len - 2) :=
    load_congr fun index below => kept (by omega) (by omega)
  have here := kept (Nat.le_refl _) (by omega)
  have next' := (kept (Nat.le_succ _) (by omega)).trans next
  refine { walked with
    front := fun address below clear => walked.front address (by omega) clear
    read := ?_
    still := fun bounded => walked.still fun found member => bounded found (.tail _ member)
    found := ?_ }
  · rw [List.map_cons, clampFound_other other, ← here, ← value, ← next']
    rw [← next'] at least whole
    exact .option inside (here ▸ noEnd) (here ▸ noPad) least whole (next' ▸ walked.read)
  · intro has is
    rw [walked.found has is]
    simp only [HasMss, List.mem_cons, exists_eq_or_imp, other, Option.isSome_none, Bool.false_eq_true,
      false_or]

/-- An MSS option, clamped before the walk goes on. -/
theorem clamp
    (walked : Walked optval memory opts words (place + 4) length true options last
      (clampMss optval (sizeofeth packet.bytes) (opts + place + 2) packet) after result)
    (same : ∀ address, opts + place ≤ address → packet.bytes address = memory address)
    (here : memory (opts + place) = 2) (next : memory (opts + place + 1) = 4)
    (whole : place + 4 ≤ 4 * words) (room : opts + place + 4 ≤ packet.size) :
    Walked optval memory opts words place length hasmss
      ((place, ⟨2, load memory (opts + place + 2) 2⟩) :: options) last packet after result := by
  obtain ⟨clamped, size, head, bytes⟩ := @TcpFrame.clampMss optval packet length (opts + place + 2) frame
    (by omega) (by omega)
  have ethernet := (frame.fields head).1
  have word : word16 packet.bytes (opts + place + 2) = word16 memory (opts + place + 2) :=
    word16_congr fun index below => same _ (by omega)
  rw [word] at bytes
  have front {address : Nat} (below : address < opts + (place + 4))
      (clear : NoSum (sizeofeth packet.bytes) address) :
      after.bytes address = if optval < word16 memory (opts + place + 2) then
        store packet.bytes (opts + place + 2) (be16 optval) address else packet.bytes address := by
    rw [← bytes address clear]
    refine walked.front address below ?_
    rw [ethernet]
    exact clear
  have outside {address : Nat} (below : address < opts + place + 2)
      (clear : NoSum (sizeofeth packet.bytes) address) : after.bytes address = packet.bytes address := by
    rw [front (by omega) clear]
    split
    · exact store_outside (.inl below)
    · rfl
  have here' : after.bytes (opts + place) = 2 :=
    (outside (by omega) (noSum at' frame (by omega))).trans ((same _ (by omega)).trans here)
  have next' : after.bytes (opts + place + 1) = 4 :=
    (outside (by omega) (noSum at' frame (by omega))).trans ((same _ (by omega)).trans next)
  have noEnd : ¬ (2 : UInt8) = 0 := by decide
  have noPad : ¬ (2 : UInt8) = 1 := by decide
  refine { walked with
    size := walked.size.trans size
    front := fun address below clear => outside (by omega) clear
    read := ?_
    still := ?_
    found := ?_ }
  · have value : load (if optval < word16 memory (opts + place + 2) then
        store memory (opts + place + 2) (be16 optval) else memory) (opts + place + 2) 2 =
          load after.bytes (opts + place + 2) 2 := by
      refine (load_congr fun index below => ?_).symm
      rw [front (by omega) (noSum at' frame (by omega))]
      by_cases larger : optval < word16 memory (opts + place + 2)
      · rw [if_pos larger, if_pos larger]
        exact store_congr (same _ (by omega))
      · rw [if_neg larger, if_neg larger]
        exact same _ (by omega)
    rw [List.map_cons, clampFound_load, value]
    have four : tcpFormat.size (after.bytes (opts + place + 1)) = 4 := by
      rw [next']
      rfl
    have rest : OptionsRead tcpFormat after.bytes opts (4 * words)
        (place + tcpFormat.size (after.bytes (opts + place + 1))) (options.map (clampFound optval)) last := by
      rw [four]
      exact walked.read
    have read := OptionsRead.option (show place < 4 * words by omega) (here' ▸ noEnd) (here' ▸ noPad)
      (by omega) (by omega) rest
    rw [four, here'] at read
    exact read
  · intro bounded uncut
    have least := bounded _ (.head _) (word16 memory (opts + place + 2)) (by
      rw [mss_load, if_pos ⟨rfl, rfl⟩]
      rfl)
    have self : clampMss optval (sizeofeth packet.bytes) (opts + place + 2) packet = packet :=
      clampMss_still frame (by omega) (word ▸ least)
    exact (walked.still (fun found member => bounded found (.tail _ member)) uncut).trans self
  · intro has is
    have known : (mss ⟨2, load memory (opts + place + 2) 2⟩).isSome := by
      rw [mss_load, if_pos ⟨rfl, rfl⟩]
      rfl
    rw [walked.found has is]
    simp only [HasMss, List.mem_cons, exists_eq_or_imp, known, true_or, or_true]

/-- An MSS option that is cut off is clamped all the same. -/
theorem clampCut (same : ∀ address, opts + place ≤ address → packet.bytes address = memory address)
    (is : CutAt memory opts (4 * words) place) (past : 4 * words < place + 4)
    (room : opts + place + 4 ≤ packet.size) :
    Walked optval memory opts words place length hasmss [] place packet
      (clampMss optval (sizeofeth packet.bytes) (opts + place + 2) packet) (some true) := by
  obtain ⟨clamped, size, head, bytes⟩ := @TcpFrame.clampMss optval packet length (opts + place + 2) frame
    (by omega) (by omega)
  have word : word16 packet.bytes (opts + place + 2) = word16 memory (opts + place + 2) :=
    word16_congr fun index below => same _ (by omega)
  have outside {address : Nat} (below : address < opts + place + 2)
      (clear : NoSum (sizeofeth packet.bytes) address) :
      (clampMss optval (sizeofeth packet.bytes) (opts + place + 2) packet).bytes address =
        packet.bytes address := by
    rw [bytes address clear]
    split
    · exact store_outside (.inl below)
    · rfl
  have here := (outside (by omega) (noSum at' frame (by omega))).trans
    ((same _ (Nat.le_refl (opts + place))).trans is.2.1)
  have next := (outside (by omega) (noSum at' frame (by omega))).trans
    ((same _ (Nat.le_add_right (opts + place) 1)).trans is.2.2)
  have noEnd : ¬ (2 : UInt8) = 0 := by decide
  have noPad : ¬ (2 : UInt8) = 1 := by decide
  refine ⟨clamped, size, fun address below => outside (by omega), ?_, fun _ larger address above => ?_,
    fun bounded address above => ?_, fun _ bounded => ?_, (fun none => by cases none), fun has same => ?_⟩
  · refine .broken is.1 (here ▸ noEnd) (here ▸ noPad) (.inr ?_)
    rw [next]
    exact past
  · rw [bytes address (noSum at' frame (by omega)), word, if_pos larger]
    exact store_congr (same address above)
  · rw [bytes address (noSum at' frame (by omega)), word, if_neg (UInt16.not_lt.mpr (bounded is))]
    exact same address above
  · exact clampMss_still frame (by omega) (word ▸ bounded is)
  · cases same
    exact ⟨fun _ => .inr (.inr is), fun _ => rfl⟩

end Walked

/-- The walk reads the options as the format has them. -/
theorem walkOptions_walked {opts : Nat}
    (read : OptionsRead tcpFormat memory opts (4 * words) place options last)
    (frame : TcpFrame packet length) (at' : opts = sizeofip packet.bytes + 20) (few : words ≤ 10)
    (same : ∀ address, opts + place ≤ address → packet.bytes address = memory address) :
    ∃ after result,
      walkOptions optval (sizeofeth packet.bytes) opts words place hasmss packet = (after, result) ∧
        Walked optval memory opts words place length hasmss options last packet after result := by
  have cases := sizeofeth_cases packet.bytes
  have ip := frame.sizeofip_eq
  have room := frame.room
  induction read generalizing packet hasmss with
  | whole =>
      refine ⟨_, _, walkOptions_end (Nat.le_refl _), .ended frame same .whole
        (fun is => absurd is.1 (Nat.lt_irrefl _)) (fun none => by cases none) ?_⟩
      rintro has ⟨⟩
      rfl
  | @stop place inside closed =>
      refine ⟨_, _, walkOptions_eol frame.inside (by omega) inside ((same _ (Nat.le_refl _)).trans closed),
        .ended frame same (.stop inside closed) ?_ (fun none => by cases none) ?_⟩
      · intro is
        rw [is.2.1] at closed
        exact absurd closed (by decide)
      · rintro has ⟨⟩
        rfl
  | @pad place last options inside noStop padded rest ih =>
      obtain ⟨after, result, walk, walked⟩ := @ih packet hasmss frame at'
        (fun address above => same address (by omega)) cases ip room
      refine ⟨after, result, ?_, walked.pad at' frame same inside padded⟩
      rw [walkOptions_nop frame.inside (by omega) inside ((same _ (Nat.le_refl _)).trans padded)]
      exact walk
  | @option place last options inside noStop noPad least whole rest ih =>
      have here := same _ (Nat.le_refl (opts + place))
      have next := same _ (Nat.le_add_right (opts + place) 1)
      have size : tcpFormat.size (memory (opts + place + 1)) = (memory (opts + place + 1)).toNat := rfl
      rw [walkOptions_option frame.inside (by omega) inside (here ▸ noStop) (here ▸ noPad), here, next,
        if_neg (by rw [tcpMaxOptionLen]; omega)]
      by_cases isMss : memory (opts + place) = 2 ∧ (memory (opts + place + 1)).toNat = 4
      · have four := isMss.2
        have four' : memory (opts + place + 1) = 4 := UInt8.toNat_inj.mp four
        obtain ⟨clamped, size', head, bytes⟩ :=
          @TcpFrame.clampMss optval packet length (opts + place + 2) frame (by omega) (by omega)
        obtain ⟨ethernet, -, ip', -⟩ := frame.fields head
        obtain ⟨after, result, walk, walked⟩ := @ih _ true clamped (by rw [ip', at'])
          (fun address above => by
            rw [bytes address (Walked.noSum at' frame (by omega))]
            split
            · exact (store_outside (.inr (by rw [be16_length]; omega))).trans (same address (by omega))
            · exact same address (by omega)) (sizeofeth_cases _) (by rw [ip', ethernet, ip]) (by omega)
        rw [if_pos isMss]
        refine ⟨after, result, ?_, ?_⟩
        · rw [size, four, ethernet] at walk
          rw [← walk, four]
        · rw [isMss.1, four']
          rw [four'] at walked
          exact walked.clamp at' frame same isMss.1 four' (by omega) (by omega)
      · rw [if_neg isMss]
        obtain ⟨after, result, walk, walked⟩ := @ih packet hasmss frame at'
          (fun address above => same address (by omega)) cases ip room
        refine ⟨after, result, ?_, walked.option at' frame same inside noStop noPad rfl least whole ?_⟩
        · rw [size] at walk
          rw [← walk]
          congr 1
          omega
        · rw [mss_load, if_neg]
          rintro ⟨tag, count⟩
          exact isMss ⟨tag, by omega⟩
  | @broken place inside noStop noPad cut =>
      have here := same _ (Nat.le_refl (opts + place))
      have next := same _ (Nat.le_add_right (opts + place) 1)
      have size : tcpFormat.size (memory (opts + place + 1)) = (memory (opts + place + 1)).toNat := rfl
      rw [walkOptions_option frame.inside (by omega) inside (here ▸ noStop) (here ▸ noPad), here, next]
      by_cases bad : (memory (opts + place + 1)).toNat < 2 ∨
          tcpMaxOptionLen < (memory (opts + place + 1)).toNat
      · rw [if_pos bad]
        refine ⟨_, _, rfl, .ended frame same (.broken inside noStop noPad cut) ?_ (fun _ => inside) ?_⟩
        · intro is
          rw [is.2.2, tcpMaxOptionLen] at bad
          exact absurd bad (by decide)
        · rintro has ⟨⟩
      · rw [if_neg bad]
        by_cases isMss : memory (opts + place) = 2 ∧ (memory (opts + place + 1)).toNat = 4
        · have past : 4 * words < place + 4 := by
            rcases cut with short | past
            · exact absurd (.inl short) bad
            · rw [size, isMss.2] at past
              exact past
          rw [if_pos isMss, isMss.2, walkOptions_end (by omega)]
          exact ⟨_, _, rfl, .clampCut at' frame same ⟨inside, isMss.1, UInt8.toNat_inj.mp isMss.2⟩ past
            (by omega)⟩
        · rw [if_neg isMss, walkOptions_end (by omega)]
          refine ⟨_, _, rfl, .ended frame same (.broken inside noStop noPad cut) ?_
            (fun none => by cases none) ?_⟩
          · intro is
            exact isMss ⟨is.2.1, congrArg UInt8.toNat is.2.2⟩
          · rintro has ⟨⟩
            rfl

end Rut9xx.Chilli
