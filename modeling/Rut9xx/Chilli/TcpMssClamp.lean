import Rut9xx.Chilli.TcpMss

namespace Rut9xx.Chilli

open Data

/-! # What the MSS clamp leaves -/

section

variable {optval : UInt16} {uninit : Memory UInt8} {packet after : Guarded} {length address : Nat}

/-! ## A new MSS option -/

/-- `after` has four more bytes, an MSS option behind the others, but for the checksums. -/
structure Added (optval : UInt16) (packet : Guarded) (length : Nat) (after : Guarded) : Prop where
  inside : after.inside = true
  head : ∀ address, address < sizeofip packet.bytes + 4 * tcpOff packet.bytes →
    NoSum (sizeofeth packet.bytes) address →
      address < sizeofeth packet.bytes + 2 ∨ sizeofeth packet.bytes + 4 ≤ address →
        address ≠ sizeofip packet.bytes + 12 → after.bytes address = packet.bytes address
  total : word16 after.bytes (sizeofeth packet.bytes + 2) =
    word16 packet.bytes (sizeofeth packet.bytes + 2) + 4
  offres : after.bytes (sizeofip packet.bytes + 12) = UInt8.ofNat ((tcpOff packet.bytes + 1) * 2 ^ 4)
  option : Holds after.bytes (sizeofip packet.bytes + 4 * tcpOff packet.bytes) ([2, 4] ++ be16 optval)
  payload : load after.bytes (sizeofip packet.bytes + 4 * tcpOff packet.bytes + 4)
      (length - (sizeofip packet.bytes + 4 * tcpOff packet.bytes)) =
    load packet.bytes (sizeofip packet.bytes + 4 * tcpOff packet.bytes)
      (length - (sizeofip packet.bytes + 4 * tcpOff packet.bytes))

/-- Bytes that are no checksums and the same in the first bytes are all it takes. -/
theorem Added.congr {other : Guarded} (added : Added optval packet length other)
    (frame : TcpFrame packet length) (inside : after.inside = true)
    (same : ∀ address, address < length + 4 → NoSum (sizeofeth packet.bytes) address →
      after.bytes address = other.bytes address) : Added optval packet length after := by
  have cases := sizeofeth_cases packet.bytes
  have ip := frame.sizeofip_eq
  have within := frame.within
  have least := frame.least
  refine ⟨inside, fun address below clear apart apart' => ?_, ?_, ?_, ?_, ?_⟩
  · exact (same address (by omega) clear).trans (added.head address below clear apart apart')
  · rw [← added.total]
    exact word16_congr fun index below => same _ (by omega) ⟨by omega, by omega⟩
  · exact (same _ (by omega) ⟨by omega, by omega⟩).trans added.offres
  · refine (load_congr fun index below => ?_).trans added.option
    have below' : index < 4 := below
    exact same _ (by omega) ⟨by omega, by omega⟩
  · exact (load_congr fun index below => same _ (by omega) ⟨by omega, by omega⟩).trans added.payload

section

variable {p : Guarded} (frame : TcpFrame packet length)
  (copy : ∀ address, address < length → p.bytes address = packet.bytes address)

include frame copy

/-- What is put into the copy. -/
theorem TcpFrame.putMss_bytes : (putMss optval (tcpOff packet.bytes) packet length p).bytes =
    store (store (store p.bytes (sizeofip packet.bytes + 12) [UInt8.ofNat ((tcpOff packet.bytes + 1) * 2 ^ 4)])
      (sizeofip packet.bytes + 4 * tcpOff packet.bytes) ([2, 4] ++ be16 optval ++
        load packet.bytes (sizeofip packet.bytes + 4 * tcpOff packet.bytes)
          (length - (sizeofip packet.bytes + 4 * tcpOff packet.bytes))))
        (sizeofeth packet.bytes + 2) (be16 (word16 packet.bytes (sizeofeth packet.bytes + 2) + 4)) := by
  have cases := sizeofeth_cases packet.bytes
  have ip := frame.sizeofip_eq
  have within := frame.within
  have least := frame.least
  obtain ⟨ethernet, -, ip', -⟩ := @TcpFrame.fields packet p.bytes length frame
    fun address below _ => copy address (by omega)
  have pieces (front : Memory UInt8) (dst : Nat) (payload : List UInt8) :
      store (store (store front dst [2, 4]) (dst + 2) (be16 optval)) (dst + 4) payload =
        store front dst ([2, 4] ++ be16 optval ++ payload) := by
    rw [@store_next _ front [2, 4] dst (be16 optval) (dst + 2) rfl,
      @store_next _ front ([2, 4] ++ be16 optval) dst payload (dst + 4) rfl]
  have word (data : List UInt8) (offres : UInt8) :
      word16 (store (store p.bytes (sizeofip packet.bytes + 12) [offres])
        (sizeofip packet.bytes + 4 * tcpOff packet.bytes) data) (sizeofeth packet.bytes + 2) =
          word16 packet.bytes (sizeofeth packet.bytes + 2) := by
    refine word16_congr fun index below => ?_
    rw [store_outside (.inl (by omega)), store_outside (.inl (by omega))]
    exact copy _ (by omega)
  simp only [putMss, ethernet, ip', Guarded.put_bytes, pieces, word, Nat.sub_sub]

theorem TcpFrame.putMss (room : length + 4 ≤ p.size) (inside : p.inside = true) :
    Added optval packet length (putMss optval (tcpOff packet.bytes) packet length p) := by
  have cases := sizeofeth_cases packet.bytes
  have ip := frame.sizeofip_eq
  have within := frame.within
  have least := frame.least
  obtain ⟨ethernet, -, ip', -⟩ := @TcpFrame.fields packet p.bytes length frame
    fun address below _ => copy address (by omega)
  have bytes := @TcpFrame.putMss_bytes optval packet length p frame copy
  generalize same : sizeofip packet.bytes + 4 * tcpOff packet.bytes = dst at within bytes
  have data : Holds (Chilli.putMss optval (tcpOff packet.bytes) packet length p).bytes dst
      ([2, 4] ++ be16 optval ++ load packet.bytes dst (length - dst)) := by
    rw [bytes]
    exact holds_store.store_apart (.inr (by rw [be16_length]; omega))
  obtain ⟨option, payload⟩ := holds_append.mp data
  refine ⟨?_, fun address below clear apart apart' => ?_, ?_, ?_, same ▸ option, ?_⟩
  · simp only [Chilli.putMss, Guarded.put_inside_iff, Guarded.put_size, inside, ethernet, ip', same,
      load_length, be16_length, List.length_cons, List.length_nil, true_and]
    refine ⟨⟨⟨⟨.inr ?_, .inr ?_⟩, .inr ?_⟩, ?_⟩, .inr ?_⟩
    all_goals omega
  · rw [bytes, store_outside (by rw [be16_length]; omega), store_outside (.inl (by omega)),
      store_outside (by rw [List.length_singleton]; omega)]
    exact copy address (by omega)
  · rw [bytes]
    exact word16_store _
  · rw [bytes, store_outside (by rw [be16_length]; omega), store_outside (.inl (by omega))]
    exact store_self
  · rw [same]
    rw [Holds, load_length] at payload
    exact payload

end

theorem TcpFrame.addMss (frame : TcpFrame packet length) (short : length < 1400) :
    (addMss optval uninit (tcpOff packet.bytes) packet length).2 = length + 4 ∧
      (addMss optval uninit (tcpOff packet.bytes) packet length).1.size = packet.size ∧
        Added optval packet length (addMss optval uninit (tcpOff packet.bytes) packet length).1 := by
  have room := frame.room
  have cases := sizeofeth_cases packet.bytes
  have ip := frame.sizeofip_eq
  have within := frame.within
  have least := frame.least
  have bound : length + 4 ≤ pktBuffer := (Nat.add_le_add_right (Nat.le_of_lt short) 4).trans (by decide)
  have ethernet := (@TcpFrame.fields packet (store uninit 0 (load packet.bytes 0 length)) length frame
    fun address below _ => store_load_inside (Nat.zero_le _) (by omega)).1
  have copy : (Guarded.put ⟨pktBuffer, uninit, true⟩ 0 (load packet.bytes 0 length)).inside = true := by
    rw [Guarded.put_inside_iff, load_length]
    exact ⟨rfl, .inr (show 0 + length ≤ pktBuffer by omega)⟩
  have added := @TcpFrame.putMss optval packet length
    (Guarded.put ⟨pktBuffer, uninit, true⟩ 0 (load packet.bytes 0 length)) frame
    (fun _ below => store_load_inside (Nat.zero_le _) (by omega))
    bound copy
  unfold Chilli.addMss
  simp only [Guarded.touch_self frame.inside (show 0 + length ≤ packet.size by omega),
    Guarded.touch_self frame.inside (show sizeofip packet.bytes + 4 * tcpOff packet.bytes +
      (length - sizeofip packet.bytes - 4 * tcpOff packet.bytes) ≤ packet.size by omega), Guarded.put_bytes,
    ethernet]
  generalize same : Chilli.putMss optval (tcpOff packet.bytes) packet length
    (Guarded.put ⟨pktBuffer, uninit, true⟩ 0 (load packet.bytes 0 length)) = p at added ⊢
  have size : p.size = pktBuffer := by
    rw [← same]
    rfl
  have header : p.bytes (sizeofeth packet.bytes) = 0x45 :=
    (added.head _ (by omega) ⟨by omega, by omega⟩ (by omega) (by omega)).trans frame.header
  have tcp : p.bytes (sizeofeth packet.bytes + 9) = ipProtoTcp :=
    (added.head _ (by omega) ⟨by omega, by omega⟩ (by omega) (by omega)).trans frame.tcp
  have total := frame.total
  have inside : (chksum p (sizeofeth packet.bytes)).inside = true := by
    refine chksum_inside_tcp tcp header (by omega) ?_ ?_
    · rw [added.total, UInt16.toNat_add, size]
      exact (Nat.add_le_add_left (Nat.mod_le _ _) _).trans (by
        rw [← Nat.add_assoc]
        exact (Nat.add_le_add_right (Nat.le_of_eq total) 4).trans bound)
    · exact added.inside
  refine ⟨trivial, rfl, added.congr frame ?_ fun address below clear => ?_⟩
  · rw [Bool.and_eq_true, Guarded.put_inside_iff, load_length, Guarded.touch_inside_iff, chksum_size, size]
    exact ⟨⟨frame.inside, .inr (by omega)⟩, inside, .inr (by omega)⟩
  · refine (store_load_inside (Nat.zero_le _) (by omega)).trans (chksum_apart tcp clear.1 ?_)
    have five : (0x45 : UInt8).toNat % 16 * 4 = 20 := rfl
    rw [header, five]
    exact clear.2

theorem tcpOff_lt (memory : Memory UInt8) : tcpOff memory < 16 := by
  have bound := (memory (sizeofip memory + 12)).toNat_lt
  rw [tcpOff]
  omega

/-- The place behind the options. -/
theorem TcpFrame.behind (frame : TcpFrame packet length) :
    sizeofip packet.bytes + pktTcpHlen + tcpOptionsLen packet.bytes =
      sizeofip packet.bytes + 4 * tcpOff packet.bytes := by
  have least := frame.least
  rw [tcpOptionsLen, pktTcpHlen]
  omega

theorem length_of_mss {option : TaggedValue} (known : (mss option).isSome) : option.value.length = 2 := by
  unfold mss at known
  split at known
  · split at known
    · rename_i high low same
      rw [same]
      rfl
    · cases known
  · cases known

namespace Added

variable (added : Added optval packet length after) (frame : TcpFrame packet length)

include added frame

theorem fields : sizeofeth after.bytes = sizeofeth packet.bytes ∧
    versionIhl after.bytes = versionIhl packet.bytes ∧ sizeofip after.bytes = sizeofip packet.bytes ∧
      tcpOff after.bytes = (tcpOff packet.bytes + 1) % 16 ∧ protocol after.bytes = protocol packet.bytes := by
  have cases := sizeofeth_cases packet.bytes
  have ip := frame.sizeofip_eq
  have least := frame.least
  have here {address : Nat} (below : address < sizeofeth packet.bytes + 30)
      (clear : address < sizeofeth packet.bytes + 2 ∨ sizeofeth packet.bytes + 4 ≤ address)
      (clear' : address < sizeofeth packet.bytes + 10 ∨ sizeofeth packet.bytes + 12 ≤ address) :
      after.bytes address = packet.bytes address :=
    added.head address (by omega) ⟨clear', by omega⟩ clear (by omega)
  have ethernet : sizeofeth after.bytes = sizeofeth packet.bytes :=
    sizeofeth_congr (here (by omega) (by omega) (by omega)) (here (by omega) (by omega) (by omega))
  have version : versionIhl after.bytes = versionIhl packet.bytes := by
    rw [versionIhl, versionIhl, ethernet]
    exact here (by omega) (by omega) (by omega)
  have ip' : sizeofip after.bytes = sizeofip packet.bytes := by
    rw [sizeofip, sizeofip, headerLen, headerLen, version, ethernet]
  refine ⟨ethernet, version, ip', ?_, ?_⟩
  · rw [tcpOff, ip', added.offres, UInt8.toNat_ofNat']
    omega
  · rw [protocol, protocol, ethernet, here (by omega) (by omega) (by omega)]

theorem frame_after (size : after.size = packet.size) (short : length < 1400)
    (room : tcpOff packet.bytes < 15) : TcpFrame after (length + 4) := by
  obtain ⟨ethernet, version, ip, off, tcp⟩ := added.fields frame
  have least := frame.least
  have within := frame.within
  have total := frame.total
  have off' : tcpOff after.bytes = tcpOff packet.bytes + 1 := off.trans (Nat.mod_eq_of_lt (by omega))
  refine ⟨added.inside, size ▸ frame.room, ?_, version.trans frame.header, tcp.trans frame.tcp, ?_, ?_, ?_⟩
  · rw [size]
    exact (Nat.add_le_add_right (Nat.le_of_lt short) 4).trans (Nat.le_trans (by decide) frame.room)
  · rw [ethernet, iphTotLen, ethernet, added.total, UInt16.toNat_add, Nat.mod_eq_of_lt, ← Nat.add_assoc]
    · exact congrArg (· + 4) total
    · exact show iphTotLen packet.bytes + 4 < 2 ^ 16 by omega
  · omega
  · rw [ip, off']
    omega

/-- The options up to where their reading ends, and then what follows there. -/
theorem reads {options more : List (Nat × TaggedValue)} {last last' : Nat}
    (read : OptionsRead tcpFormat packet.bytes (sizeofip packet.bytes + pktTcpHlen)
      (tcpOptionsLen packet.bytes) 0 options last)
    (rest : OptionsRead tcpFormat after.bytes (sizeofip packet.bytes + pktTcpHlen)
      (tcpOptionsLen packet.bytes + 4) last more last') :
    OptionsRead tcpFormat after.bytes (sizeofip packet.bytes + pktTcpHlen)
      (tcpOptionsLen packet.bytes + 4) 0 (options ++ more) last' := by
  have ip := frame.sizeofip_eq
  have least := frame.least
  have bounds := read.bounds
  refine read.join (fun address above below => ?_) (Nat.le_add_right _ 4) rest
  rw [tcpOptionsLen] at bounds
  rw [pktTcpHlen] at above below
  exact added.head address (by omega) ⟨by omega, by omega⟩ (by omega) (by omega)

theorem bytes : after.bytes (sizeofip packet.bytes + pktTcpHlen + tcpOptionsLen packet.bytes) = 2 ∧
    after.bytes (sizeofip packet.bytes + pktTcpHlen + tcpOptionsLen packet.bytes + 1) = 4 ∧
      load after.bytes (sizeofip packet.bytes + pktTcpHlen + tcpOptionsLen packet.bytes + 2) 2 =
        be16 optval := by
  rw [frame.behind]
  obtain ⟨front, value⟩ := holds_append.mp added.option
  obtain ⟨tag, len⟩ := holds_cons.mp front
  exact ⟨tag, (holds_cons.mp len).1, value⟩

/-- Behind options that are read to their end stands the new one. -/
theorem reads_whole :
    OptionsRead tcpFormat after.bytes (sizeofip packet.bytes + pktTcpHlen)
      (tcpOptionsLen packet.bytes + 4) (tcpOptionsLen packet.bytes)
        [(tcpOptionsLen packet.bytes, ⟨2, be16 optval⟩)] (tcpOptionsLen packet.bytes + 4) := by
  obtain ⟨tag, len, value⟩ := added.bytes frame
  have four : tcpFormat.size (after.bytes (sizeofip packet.bytes + pktTcpHlen +
      tcpOptionsLen packet.bytes + 1)) = 4 := by
    rw [len]
    rfl
  have noEnd : ¬ (2 : UInt8) = 0 := by decide
  have noPad : ¬ (2 : UInt8) = 1 := by decide
  have rest : OptionsRead tcpFormat after.bytes (sizeofip packet.bytes + pktTcpHlen)
      (tcpOptionsLen packet.bytes + 4) (tcpOptionsLen packet.bytes + tcpFormat.size
        (after.bytes (sizeofip packet.bytes + pktTcpHlen + tcpOptionsLen packet.bytes + 1))) []
          (tcpOptionsLen packet.bytes + 4) := by
    rw [four]
    exact .whole
  have read := OptionsRead.option (show tcpOptionsLen packet.bytes < _ by omega) (tag ▸ noEnd)
    (tag ▸ noPad) (by omega) (by omega) rest
  rw [four, tag, value] at read
  exact read

/-- Behind options that are not, no MSS is read. -/
theorem reads_broken {options more : List (Nat × TaggedValue)} {last last' : Nat}
    (read : OptionsRead tcpFormat packet.bytes (sizeofip packet.bytes + pktTcpHlen)
      (tcpOptionsLen packet.bytes) 0 options last)
    (uncut : ¬ CutAt packet.bytes (sizeofip packet.bytes + pktTcpHlen) (tcpOptionsLen packet.bytes) last)
    (broken : last < tcpOptionsLen packet.bytes)
    (rest : OptionsRead tcpFormat after.bytes (sizeofip packet.bytes + pktTcpHlen)
      (tcpOptionsLen packet.bytes + 4) last more last') : ¬ HasMss more := by
  have ip := frame.sizeofip_eq
  have least := frame.least
  have behind := frame.behind
  have same {address : Nat} (above : sizeofip packet.bytes + pktTcpHlen ≤ address)
      (below : address < sizeofip packet.bytes + pktTcpHlen + tcpOptionsLen packet.bytes) :
      after.bytes address = packet.bytes address := by
    rw [behind] at below
    rw [pktTcpHlen] at above
    exact added.head address below ⟨by omega, by omega⟩ (by omega) (by omega)
  have here := same (Nat.le_add_right _ last) (by omega)
  rintro ⟨found, member, known⟩
  rcases read.ending with whole | closed | ⟨noPad', cut⟩
  · omega
  · cases rest with
    | whole => cases member
    | stop => cases member
    | pad _ noStop | option _ noStop => exact noStop (here.trans closed)
    | broken => cases member
  · cases rest with
    | whole => cases member
    | stop => cases member
    | pad inside noStop padded rest => exact noPad' (here.symm.trans padded)
    | broken => cases member
    | option inside noStop noPad least whole rest =>
        -- the option that was cut off reaches over the first byte of the new one
        have next : after.bytes (sizeofip packet.bytes + pktTcpHlen + last + 1) = 2 ∧
            last + 1 = tcpOptionsLen packet.bytes ∨
              after.bytes (sizeofip packet.bytes + pktTcpHlen + last + 1) =
                packet.bytes (sizeofip packet.bytes + pktTcpHlen + last + 1) := by
          rcases Nat.eq_or_lt_of_le (show last + 1 ≤ tcpOptionsLen packet.bytes from broken) with last' | inner
          · refine .inl ⟨?_, last'⟩
            rw [Nat.add_assoc, last']
            exact (added.bytes frame).1
          · exact .inr (same (by omega) (by omega))
        have past : tcpOptionsLen packet.bytes < last + tcpFormat.size
            (after.bytes (sizeofip packet.bytes + pktTcpHlen + last + 1)) := by
          rcases next with ⟨two, last'⟩ | next
          · rw [two, ← last']
            exact Nat.lt_add_one _
          · rw [next] at least ⊢
            omega
        have other : mss ⟨after.bytes (sizeofip packet.bytes + pktTcpHlen + last),
            load after.bytes (sizeofip packet.bytes + pktTcpHlen + last + 2) (tcpFormat.size
              (after.bytes (sizeofip packet.bytes + pktTcpHlen + last + 1)) - 2)⟩ = none := by
          rw [mss_load, if_neg]
          rintro ⟨tag, count⟩
          rcases next with ⟨two, -⟩ | next
          · rw [two] at count
            exact absurd count (by decide)
          · rw [next] at count least
            have four : (packet.bytes (sizeofip packet.bytes + pktTcpHlen + last + 1)).toNat - 2 = 2 := count
            exact uncut ⟨broken, here.symm.trans tag, UInt8.toNat_inj.mp (show _ = 4 by omega)⟩
        rcases List.mem_cons.mp member with rfl | later
        · rw [other] at known
          cases known
        · have bounds := rest.found_bounds later
          have two := length_of_mss known
          omega

end Added

/-! ## A clamped list of options -/

section

variable {found : Nat × TaggedValue} {options : List (Nat × TaggedValue)}

theorem mss_be16 (size : UInt16) : mss ⟨2, be16 size⟩ = some size :=
  congrArg some (joinBe16_split size)

theorem clampFound_bounded : ∀ size ∈ mss (clampFound optval found).2, size ≤ optval := by
  intro size known
  cases before : mss found.2 with
  | none =>
      rw [clampFound_other before, before] at known
      cases known
  | some given =>
      rw [clampFound_mss before] at known
      split at known
      · rw [mss_be16] at known
        cases known
        exact UInt16.le_refl _
      · rename_i bounded
        rw [before] at known
        cases known
        exact UInt16.not_lt.mp bounded

theorem isSome_clampFound : (mss (clampFound optval found).2).isSome = (mss found.2).isSome := by
  cases before : mss found.2 with
  | none => rw [clampFound_other before, before]
  | some given =>
      rw [clampFound_mss before]
      split
      · rw [mss_be16]
        rfl
      · rw [before]

theorem hasMss_clamped : HasMss (options.map (clampFound optval)) ↔ HasMss options := by
  simp only [HasMss, List.mem_map, exists_exists_and_eq_and, isSome_clampFound]

theorem others_clamped : ((options.map (clampFound optval)).filter fun found => (mss found.2).isNone) =
    options.filter fun found => (mss found.2).isNone := by
  induction options with
  | nil => rfl
  | cons found options ih =>
      have same : (mss (clampFound optval found).2).isNone = (mss found.2).isNone := by
        rw [← Option.not_isSome, ← Option.not_isSome, isSome_clampFound]
      rw [List.map_cons, List.filter_cons, List.filter_cons, same, ih]
      split
      · rename_i other
        rw [clampFound_other (Option.isNone_iff_eq_none.mp other)]
      · rfl

end

/-! ## A call -/

/-- What a call does by the options that it reads. -/
theorem pktShapeTcpmss_cases (frame : TcpFrame packet length) : ∃ options last,
    OptionsRead tcpFormat packet.bytes (sizeofip packet.bytes + pktTcpHlen) (tcpOptionsLen packet.bytes) 0
      options last ∧
      ((¬ HasMss options ∧
          ¬ CutAt packet.bytes (sizeofip packet.bytes + pktTcpHlen) (tcpOptionsLen packet.bytes) last ∧
            length < 1400 ∧ tcpSyn packet.bytes = true ∧
              pktShapeTcpmss optval uninit packet length =
                addMss optval uninit (tcpOff packet.bytes) packet length) ∨
        ∃ after result, Walked optval packet.bytes (sizeofip packet.bytes + pktTcpHlen)
            (tcpOff packet.bytes - 5) 0 length false options last packet after result ∧
          pktShapeTcpmss optval uninit packet length = (after, length) ∧
            (tcpSyn packet.bytes = true → length < 1400 → HasMss options ∨
              CutAt packet.bytes (sizeofip packet.bytes + pktTcpHlen) (tcpOptionsLen packet.bytes) last ∨
                last < tcpOptionsLen packet.bytes)) := by
  have ip := frame.sizeofip_eq
  have room := frame.room
  have cases := sizeofeth_cases packet.bytes
  have few := tcpOff_lt packet.bytes
  obtain ⟨options, last, read⟩ := @optionsRead_exists tcpFormat packet.bytes
    (sizeofip packet.bytes + pktTcpHlen) (tcpOptionsLen packet.bytes) 0 (Nat.zero_le _)
  refine ⟨options, last, read, ?_⟩
  obtain ⟨after, result, walk, walked⟩ := @walkOptions_walked optval packet packet.bytes length 0
    (tcpOff packet.bytes - 5) last false options _ read frame rfl (by omega) fun _ _ => rfl
  have flags : after.bytes (sizeofip packet.bytes + 13) = packet.bytes (sizeofip packet.bytes + 13) :=
    walked.front _ (by rw [pktTcpHlen]; omega) ⟨by omega, by omega⟩
  have walk' : (if 5 < tcpOff packet.bytes then
      walkOptions optval (sizeofeth packet.bytes) (sizeofip packet.bytes + pktTcpHlen)
        (tcpOff packet.bytes - 5) 0 false packet else (packet, some false)) = (after, result) := by
    split
    · exact walk
    · rw [← walk, walkOptions_end (by omega)]
  have shape : pktShapeTcpmss optval uninit packet length = result.elim (after, length) fun hasmss =>
      if hasmss = false ∧ length < 1400 ∧ tcpSyn packet.bytes = true then
        addMss optval uninit (tcpOff packet.bytes) after length
      else (after, length) := by
    rw [pktShapeTcpmss, if_pos frame.tcp]
    simp only [Guarded.touch_self frame.inside (show 0 + (sizeofip packet.bytes + pktTcpHlen) ≤ packet.size by
      rw [pktTcpHlen]
      omega), walk', flags, tcpSyn, decide_eq_true_eq]
    cases result with
    | none => rfl
    | some hasmss => rfl
  cases result with
  | none => exact .inr ⟨after, none, walked, shape, fun _ _ => .inr (.inr (walked.bad rfl))⟩
  | some hasmss =>
      have found := walked.found hasmss rfl
      by_cases asked : hasmss = false ∧ length < 1400 ∧ tcpSyn packet.bytes = true
      · have none' : ¬ (false = true ∨ HasMss options ∨ CutAt packet.bytes
            (sizeofip packet.bytes + pktTcpHlen) (4 * (tcpOff packet.bytes - 5)) last) := by
          rw [← found, asked.1]
          exact Bool.false_ne_true
        rw [not_or, not_or] at none'
        have still : after = packet :=
          walked.still (fun found member size known => absurd ⟨found, member, known ▸ rfl⟩ none'.2.1)
            fun is => absurd is none'.2.2
        rw [still] at shape
        exact .inl ⟨none'.2.1, none'.2.2, asked.2.1, asked.2.2, shape.trans (if_pos asked)⟩
      · refine .inr ⟨after, some hasmss, walked, shape.trans (if_neg asked), fun syn short => ?_⟩
        have has : hasmss = true := by
          rw [← Bool.not_eq_false]
          exact fun none' => asked ⟨none', short, syn⟩
        rcases found.mp has with impossible | known | is
        · cases impossible
        · exact .inl known
        · exact .inr (.inl is)

theorem tcpOptions_read {options : List (Nat × TaggedValue)} {last : Nat}
    (read : OptionsRead tcpFormat packet.bytes (sizeofip packet.bytes + pktTcpHlen)
      (tcpOptionsLen packet.bytes) 0 options last) : tcpOptions packet.bytes = options :=
  read.optionsFrom (by decide)

/-- A packet whose options ask for nothing stays. -/
theorem TcpFrame.again (frame : TcpFrame packet length) {options : List (Nat × TaggedValue)} {last : Nat}
    (read : OptionsRead tcpFormat packet.bytes (sizeofip packet.bytes + pktTcpHlen)
      (tcpOptionsLen packet.bytes) 0 options last)
    (bounded : ∀ found ∈ options, ∀ size ∈ mss found.2, size ≤ optval)
    (cut : CutAt packet.bytes (sizeofip packet.bytes + pktTcpHlen) (tcpOptionsLen packet.bytes) last →
      word16 packet.bytes (sizeofip packet.bytes + pktTcpHlen + last + 2) ≤ optval)
    (syn : tcpSyn packet.bytes = true → length < 1400 → HasMss options) :
    pktShapeTcpmss optval uninit packet length = (packet, length) := by
  obtain ⟨options', last', read', call⟩ := @pktShapeTcpmss_cases optval uninit packet length frame
  obtain ⟨rfl, rfl⟩ := read.unique read'
  rcases call with ⟨none', -, short, flag, -⟩ | ⟨after, result, walked, shape, -⟩
  · exact absurd (syn flag short) none'
  · rw [shape, walked.still bounded cut]

/-- An MSS option that is cut off is clamped as well. -/
theorem Walked.cut_bounded {memory : Memory UInt8} {opts words place last : Nat} {hasmss : Bool}
    {options : List (Nat × TaggedValue)} {result : Option Bool}
    (walked : Walked optval memory opts words place length hasmss options last packet after result)
    (is : CutAt after.bytes opts (4 * words) last) : word16 after.bytes (opts + last + 2) ≤ optval := by
  by_cases larger : CutAt memory opts (4 * words) last ∧ optval < word16 memory (opts + last + 2)
  · rw [word16_congr fun index below => walked.cut larger.1 larger.2 _ (by omega), word16_store]
    exact UInt16.le_refl _
  · have same := walked.tail fun is => UInt16.not_lt.mp fun more => larger ⟨is, more⟩
    have is' : CutAt memory opts (4 * words) last :=
      ⟨is.1, (same _ (Nat.le_refl _)).symm.trans is.2.1, (same _ (Nat.le_succ _)).symm.trans is.2.2⟩
    rw [word16_congr fun index below => same _ (by omega)]
    exact UInt16.not_lt.mp fun more => larger ⟨is', more⟩

/-- The walk alone. -/
theorem Walked.clamped_iff {options : List (Nat × TaggedValue)} {last : Nat} {result : Option Bool}
    (frame : TcpFrame packet length)
    (read : OptionsRead tcpFormat packet.bytes (sizeofip packet.bytes + pktTcpHlen)
      (tcpOptionsLen packet.bytes) 0 options last)
    (walked : Walked optval packet.bytes (sizeofip packet.bytes + pktTcpHlen) (tcpOff packet.bytes - 5) 0
      length false options last packet after result)
    (found : tcpSyn packet.bytes = true → length < 1400 → HasMss options ∨
      CutAt packet.bytes (sizeofip packet.bytes + pktTcpHlen) (tcpOptionsLen packet.bytes) last ∨
        last < tcpOptionsLen packet.bytes) :
    Clamped optval packet length after length ↔ Clampable optval packet length := by
  have head : SameHead packet.bytes after.bytes := fun address below clear =>
    walked.front address below clear
  obtain ⟨-, -, ip, off, flag, -, -⟩ := frame.fields head
  have len : tcpOptionsLen after.bytes = tcpOptionsLen packet.bytes := by
    rw [tcpOptionsLen, tcpOptionsLen, off]
  have readAfter : OptionsRead tcpFormat after.bytes (sizeofip after.bytes + pktTcpHlen)
      (tcpOptionsLen after.bytes) 0 (options.map (clampFound optval)) last := by
    rw [ip, len]
    exact walked.read
  have options' := tcpOptions_read read
  have optionsAfter := tcpOptions_read readAfter
  have behind := frame.behind
  have payload : tcpPayload after.bytes length = tcpPayload packet.bytes length ↔
      ∀ address, sizeofip packet.bytes + 4 * tcpOff packet.bytes ≤ address → address < length →
        after.bytes address = packet.bytes address := by
    rw [tcpPayload, tcpPayload, ip, off, load_eq_iff]
    constructor
    · intro same address above below
      obtain ⟨index, rfl⟩ := Nat.exists_eq_add_of_le above
      exact same index (by omega)
    · exact fun same index below => same _ (by omega) (by omega)
  have past {address : Nat} (above : sizeofip packet.bytes + 4 * tcpOff packet.bytes ≤ address) :
      sizeofip packet.bytes + pktTcpHlen + last ≤ address := by
    have bounds := read.bounds
    omega
  constructor
  · intro clamped
    refine ⟨fun options'' last'' read'' is larger address above below => ?_, fun syn short => .inl ?_⟩
    · obtain ⟨rfl, rfl⟩ := read.unique read''
      rw [← walked.cut is larger address (past above)]
      exact payload.mp clamped.payload address above below
    · have reached := clamped.syn syn short
      rw [optionsAfter, hasMss_clamped] at reached
      rw [options']
      exact reached
  · intro clampable
    have reached (syn : tcpSyn packet.bytes = true) (short : length < 1400) : HasMss options := by
      rcases clampable.syn syn short with known | ⟨-, options'', complete⟩
      · exact options' ▸ known
      · obtain ⟨rfl, rfl⟩ := read.unique complete
        rcases found syn short with known | is | below
        · exact known
        · exact absurd is.1 (Nat.lt_irrefl _)
        · exact absurd below (Nat.lt_irrefl _)
    have bounded : ∀ found ∈ options.map (clampFound optval), ∀ size ∈ mss found.2, size ≤ optval := by
      intro found member
      obtain ⟨before, -, rfl⟩ := List.mem_map.mp member
      exact clampFound_bounded
    refine ⟨walked.frame, ?_, fun syn short => ?_, ?_, payload.mpr fun address above below => ?_,
      fun uninit => walked.frame.again readAfter bounded ?_ fun syn short => ?_⟩
    · rw [optionsAfter]
      exact bounded
    · rw [optionsAfter]
      exact hasMss_clamped.mpr (reached syn short)
    · rw [optionsAfter, options']
      exact others_clamped
    · by_cases larger : CutAt packet.bytes (sizeofip packet.bytes + pktTcpHlen) (tcpOptionsLen packet.bytes)
          last ∧ optval < word16 packet.bytes (sizeofip packet.bytes + pktTcpHlen + last + 2)
      · rw [walked.cut larger.1 larger.2 address (past above)]
        exact clampable.apart options last read larger.1 larger.2 address above below
      · exact walked.tail (fun is => UInt16.not_lt.mp fun more => larger ⟨is, more⟩) address (past above)
    · rw [ip, len]
      exact walked.cut_bounded
    · exact hasMss_clamped.mpr (reached (flag ▸ syn) short)

theorem Added.options_after (added : Added optval packet length after) (frame : TcpFrame packet length)
    (room : tcpOff packet.bytes < 15) {options more : List (Nat × TaggedValue)} {last last' : Nat}
    (read : OptionsRead tcpFormat packet.bytes (sizeofip packet.bytes + pktTcpHlen)
      (tcpOptionsLen packet.bytes) 0 options last)
    (rest : OptionsRead tcpFormat after.bytes (sizeofip packet.bytes + pktTcpHlen)
      (tcpOptionsLen packet.bytes + 4) last more last') :
    OptionsRead tcpFormat after.bytes (sizeofip after.bytes + pktTcpHlen) (tcpOptionsLen after.bytes) 0
      (options ++ more) last' := by
  obtain ⟨-, -, ip, off, -⟩ := added.fields frame
  have least := frame.least
  have len : tcpOptionsLen after.bytes = tcpOptionsLen packet.bytes + 4 := by
    rw [tcpOptionsLen, tcpOptionsLen, off]
    omega
  rw [ip, len]
  exact added.reads frame read rest

/-- The packet with a new MSS option. -/
theorem Added.clamped_iff (added : Added optval packet length after) (frame : TcpFrame packet length)
    (size : after.size = packet.size) (short : length < 1400) (flag : tcpSyn packet.bytes = true)
    {options : List (Nat × TaggedValue)} {last : Nat}
    (read : OptionsRead tcpFormat packet.bytes (sizeofip packet.bytes + pktTcpHlen)
      (tcpOptionsLen packet.bytes) 0 options last)
    (uncut : ¬ CutAt packet.bytes (sizeofip packet.bytes + pktTcpHlen) (tcpOptionsLen packet.bytes) last)
    (noMss : ¬ HasMss options) :
    Clamped optval packet length after (length + 4) ↔ Clampable optval packet length := by
  have options' := tcpOptions_read read
  obtain ⟨-, -, ip, off, -⟩ := added.fields frame
  have within := frame.within
  constructor
  · intro clamped
    have least := clamped.wellFormed.least
    have room : tcpOff packet.bytes < 15 := by
      have bound := tcpOff_lt packet.bytes
      omega
    refine ⟨fun options'' last'' read'' is => ?_, fun _ _ => .inr ⟨room, ?_⟩⟩
    · obtain ⟨rfl, rfl⟩ := read.unique read''
      exact absurd is uncut
    · have bounds := read.bounds
      rcases Nat.eq_or_lt_of_le bounds.2 with rfl | broken
      · exact ⟨options, read⟩
      · obtain ⟨more, last', rest⟩ := @optionsRead_exists tcpFormat after.bytes
          (sizeofip packet.bytes + pktTcpHlen) (tcpOptionsLen packet.bytes + 4) last (by omega)
        have reached := clamped.syn flag short
        rw [tcpOptions_read (added.options_after frame room read rest)] at reached
        obtain ⟨found, member, known⟩ := reached
        rcases List.mem_append.mp member with old | new
        · exact absurd ⟨found, old, known⟩ noMss
        · exact absurd ⟨found, new, known⟩ (added.reads_broken frame read uncut broken rest)
  · intro clampable
    rcases clampable.syn flag short with known | ⟨room, options'', complete⟩
    · exact absurd (options' ▸ known) noMss
    · obtain ⟨rfl, rfl⟩ := read.unique complete
      have readAfter := added.options_after frame room read (added.reads_whole frame)
      have optionsAfter := tcpOptions_read readAfter
      have frameAfter := added.frame_after frame size short room
      have new : mss ⟨2, be16 optval⟩ = some optval := mss_be16 optval
      have reached : HasMss (options ++ [(tcpOptionsLen packet.bytes, ⟨2, be16 optval⟩)]) :=
        ⟨_, List.mem_append_right _ (.head _), new ▸ rfl⟩
      have bounded : ∀ found ∈ options ++ [(tcpOptionsLen packet.bytes, ⟨2, be16 optval⟩)],
          ∀ size ∈ mss found.2, size ≤ optval := by
        intro found member size known
        rcases List.mem_append.mp member with old | last
        · exact absurd ⟨found, old, known ▸ rfl⟩ noMss
        · cases List.mem_singleton.mp last
          rw [new] at known
          cases known
          exact UInt16.le_refl _
      refine ⟨frameAfter, optionsAfter ▸ bounded, fun _ _ => optionsAfter ▸ reached, ?_, ?_,
        fun uninit => frameAfter.again readAfter bounded (fun is => ?_) fun _ _ => reached⟩
      · rw [optionsAfter, options', List.filter_append, List.filter_cons_of_neg, List.filter_nil,
          List.append_nil]
        rw [new]
        exact Bool.false_ne_true
      · have more : sizeofip packet.bytes + 4 * ((tcpOff packet.bytes + 1) % 16) =
            sizeofip packet.bytes + 4 * tcpOff packet.bytes + 4 := by omega
        rw [tcpPayload, tcpPayload, ip, off, more, Nat.add_sub_add_right]
        exact added.payload
      · have len : tcpOptionsLen after.bytes = tcpOptionsLen packet.bytes + 4 := by
          have least := frame.least
          rw [tcpOptionsLen, tcpOptionsLen, off]
          omega
        exact absurd is.1 (by omega)

theorem TcpFrame.shape_iff (frame : TcpFrame packet length) : ∃ after length',
    pktShapeTcpmss optval uninit packet length = (after, length') ∧
      (Clamped optval packet length after length' ↔ Clampable optval packet length) := by
  obtain ⟨options, last, read, call⟩ := @pktShapeTcpmss_cases optval uninit packet length frame
  rcases call with ⟨noMss, uncut, short, flag, shape⟩ | ⟨after, result, walked, shape, found⟩
  · obtain ⟨length', size, added⟩ := @TcpFrame.addMss optval uninit packet length frame short
    refine ⟨(Chilli.addMss optval uninit (tcpOff packet.bytes) packet length).1, length + 4, ?_, ?_⟩
    · rw [shape, ← length']
    · exact added.clamped_iff frame size short flag read uncut noMss
  · exact ⟨after, length, shape, walked.clamped_iff frame read found⟩

/-- The MSS clamp leaves a well-formed packet with its MSS clamped just where the options end well. -/
theorem pktShapeTcpmss_clamped_iff (frame : TcpFrame packet length) :
    Clamped optval packet length (pktShapeTcpmss optval uninit packet length).1
        (pktShapeTcpmss optval uninit packet length).2 ↔ Clampable optval packet length := by
  obtain ⟨after, length', shape, same⟩ := @TcpFrame.shape_iff optval uninit packet length frame
  rw [shape]
  exact same

/-- A SYN with four bytes of options. -/
def synFrame (options : List UInt8) : Guarded :=
  ⟨1500, fun place => (List.replicate 12 0 ++ [8, 0] ++
    [0x45, 0, 0, 44, 0, 0, 0, 0, 64, 6, 0, 0, 10, 0, 0, 2, 10, 0, 0, 1] ++
      [0, 80, 0, 80, 0, 0, 0, 1, 0, 0, 0, 0, 0x60, 2, 16, 0, 0, 0, 0, 0] ++ options).getD place 0, true⟩

theorem pktShapeTcpmss_clamped_iff_syn :
    Clamped 1400 (synFrame [2, 4, 5, 0xb4]) 58 (pktShapeTcpmss 1400 (fun _ => 0) (synFrame [2, 4, 5, 0xb4]) 58).1
        (pktShapeTcpmss 1400 (fun _ => 0) (synFrame [2, 4, 5, 0xb4]) 58).2 ↔
      Clampable 1400 (synFrame [2, 4, 5, 0xb4]) 58 :=
  pktShapeTcpmss_clamped_iff ⟨rfl, by decide, by decide, by decide, by decide, by decide, by decide,
    by decide⟩

/-- An MSS option behind the end of the options is not reached. -/
theorem pktShapeTcpmss_padded :
    TcpFrame (synFrame [0, 0, 0, 0]) 58 ∧
      ¬ Clamped 1400 (synFrame [0, 0, 0, 0]) 58
        (pktShapeTcpmss 1400 (fun _ => 0) (synFrame [0, 0, 0, 0]) 58).1
          (pktShapeTcpmss 1400 (fun _ => 0) (synFrame [0, 0, 0, 0]) 58).2 := by
  have frame : TcpFrame (synFrame [0, 0, 0, 0]) 58 :=
    ⟨rfl, by decide, by decide, by decide, by decide, by decide, by decide, by decide⟩
  have read : OptionsRead tcpFormat (synFrame [0, 0, 0, 0]).bytes
      (sizeofip (synFrame [0, 0, 0, 0]).bytes + pktTcpHlen) (tcpOptionsLen (synFrame [0, 0, 0, 0]).bytes) 0
        [] 0 := .stop (by decide) (by decide)
  obtain ⟨after, length', shape, same⟩ := @TcpFrame.shape_iff 1400 (fun _ => 0) _ _ frame
  refine ⟨frame, ?_⟩
  rw [shape, same]
  intro clampable
  rcases clampable.syn (by decide) (by decide) with known | ⟨-, options, complete⟩
  · rw [tcpOptions_read read] at known
    obtain ⟨found, member, -⟩ := known
    cases member
  · exact absurd (read.unique complete).2 (by decide)

end

end Rut9xx.Chilli
