import Rut9xx.Chilli.DnsNat
import Rut9xx.Data.Memory

namespace Rut9xx.Chilli

open Data

/-! # Ethernet frames that carry IPv4 (`pkt.h`, with IEEE 802.1Q)

The CPU has network byte order.
-/

def pktEthAlen : Nat := 6

def pktEthHlen : Nat := 14

def pktTcpHlen : Nat := 20

def pktEthProto8021Q : UInt16 := 0x8100

/-- `PKT_BUFFER`, without the large limits -/
def pktBuffer : Nat := 9000

section

variable {memory : Memory UInt8} {start address : Nat}

def joinBe16 (high low : UInt8) : UInt16 := UInt16.ofNat (2 ^ 8 * high.toNat + low.toNat)

def word16 (memory : Memory UInt8) (place : Nat) : UInt16 :=
  joinBe16 (memory place) (memory (place + 1))

def word32 (memory : Memory UInt8) (place : Nat) : UInt32 :=
  joinBe32 (memory place) (memory (place + 1)) (memory (place + 2)) (memory (place + 3))

theorem joinBe16_split (word : UInt16) :
    joinBe16 (UInt8.ofNat (word.toNat / 2 ^ 8)) (UInt8.ofNat word.toNat) = word := by
  apply UInt16.toNat_inj.mp
  simp only [joinBe16, UInt8.toNat_ofNat', UInt16.toNat_ofNat']
  have bound := word.toNat_lt
  omega

theorem word16_of_holds {word : UInt16} (holds : Holds memory start (be16 word)) :
    word16 memory start = word := by
  obtain ⟨high, rest⟩ := holds_cons.mp holds
  rw [word16, high, (holds_cons.mp rest).1, joinBe16_split]

theorem word16_store (word : UInt16) : word16 (store memory start (be16 word)) start = word :=
  word16_of_holds holds_store

theorem word32_store (word : UInt32) : word32 (store memory start (be32 word)) start = word := by
  have byte (index : Nat) (inside : index < (be32 word).length) :
      store memory start (be32 word) (start + index) = (be32 word)[index] := store_inside inside
  have first := byte 0 (by simp)
  rw [Nat.add_zero] at first
  rw [word32, first, byte 1 (by simp), byte 2 (by simp), byte 3 (by simp)]
  exact joinBe32_split word

theorem word16_congr {after : Memory UInt8}
    (same : ∀ index, index < 2 → after (address + index) = memory (address + index)) :
    word16 after address = word16 memory address := by
  have first := same 0 (by decide)
  rw [Nat.add_zero] at first
  rw [word16, word16, first, same 1 (by decide)]

theorem word32_congr {after : Memory UInt8}
    (same : ∀ index, index < 4 → after (address + index) = memory (address + index)) :
    word32 after address = word32 memory address := by
  have first := same 0 (by decide)
  rw [Nat.add_zero] at first
  rw [word32, word32, first, same 1 (by decide), same 2 (by decide), same 3 (by decide)]

end

section

variable (pack : Memory UInt8)

def is8021q : Bool := word16 pack (2 * pktEthAlen) = pktEthProto8021Q

def sizeofeth : Nat := pktEthHlen + if is8021q pack then 4 else 0

def versionIhl : UInt8 := pack (sizeofeth pack)

/-- The length of the IP header. -/
def headerLen : Nat := (versionIhl pack).toNat % 16 * 4

def sizeofip : Nat := sizeofeth pack + headerLen pack

def sizeofudp : Nat := sizeofip pack + pktUdpHlen

def iphTotLen : Nat := (word16 pack (sizeofeth pack + 2)).toNat

/-- `eth_tot_len`, a 16-bit number. -/
def ethTotLen : Nat := (iphTotLen pack + sizeofeth pack) % 2 ^ 16

def optOffHigh : UInt8 := pack (sizeofeth pack + 6)

def offLow : UInt8 := pack (sizeofeth pack + 7)

def protocol : UInt8 := pack (sizeofeth pack + 9)

/-- `len` of `pkt_udphdr` -/
def udphLen : Nat := (word16 pack (sizeofip pack + 4)).toNat

/-- `iphdr_more_frag` or `iphdr_offset` -/
def isFragment : Bool :=
  optOffHigh pack &&& 0x20 ≠ 0 || optOffHigh pack &&& 0x13 ≠ 0 || offLow pack ≠ 0

/-- What `dhcp_receive_ip` asks of the lengths of a UDP packet in a frame of `len` bytes. -/
def receiveIpLengths (len mtu : Nat) : Bool :=
  pktIpHlen + pktEthHlen + 4 ≤ len && versionIhl pack &&& 0xf0 = 0x40 &&
    ethTotLen pack ≤ len % 2 ^ 16 && 20 ≤ headerLen pack &&
      headerLen pack ≤ iphTotLen pack && !(mtu < iphTotLen pack && optOffHigh pack &&& 64 ≠ 0) &&
        protocol pack = ipProtoUdp && pktUdpHlen ≤ udphLen pack &&
          pktIpHlen + pktUdpHlen ≤ iphTotLen pack &&
            (iphTotLen pack = udphLen pack + pktIpHlen || isFragment pack)

end

section

theorem sizeofeth_cases (pack : Memory UInt8) : sizeofeth pack = 14 ∨ sizeofeth pack = 18 := by
  unfold sizeofeth
  split
  · exact .inr rfl
  · exact .inl rfl

theorem is8021q_congr {before after : Memory UInt8} (first : after 12 = before 12)
    (second : after 13 = before 13) : is8021q after = is8021q before := by
  unfold is8021q
  rw [@word16_congr before (2 * pktEthAlen) after fun index below => ?_]
  rcases Nat.lt_succ_iff_lt_or_eq.mp below with low | rfl
  · rw [Nat.lt_one_iff.mp low]
    exact first
  · exact second

theorem sizeofeth_congr {before after : Memory UInt8} (first : after 12 = before 12)
    (second : after 13 = before 13) : sizeofeth after = sizeofeth before := by
  unfold sizeofeth
  rw [is8021q_congr first second]

theorem headerLen_congr {before after : Memory UInt8} (ethernet : sizeofeth after = sizeofeth before)
    (version : after (sizeofeth before) = before (sizeofeth before)) : headerLen after = headerLen before := by
  rw [headerLen, headerLen, versionIhl, versionIhl, ethernet, version]

end

/-! ## Checksums (`chksum.c`) -/

section

/-- `in_cksum` of `len` bytes. -/
def inCksum (memory : Memory UInt8) : Nat → Nat → Nat
  | _, 0 => 0
  -- a last odd byte is the first one of its word
  | place, 1 => (memory place).toNat * 2 ^ 8
  | place, len + 2 => (word16 memory place).toNat + inCksum memory (place + 2) len

/-- `cksum_wrap` -/
def cksumWrap (c : Nat) : UInt16 :=
  let c := c / 2 ^ 16 + c % 2 ^ 16
  UInt16.ofNat (2 ^ 16 - 1 - (c + c / 2 ^ 16) % 2 ^ 16)

/-- A checksum at `field` over `len` bytes from `place` on, itself as 0, and `extra`. -/
def putChecksum (buf : Guarded) (field place len : Nat) (extra : Memory UInt8 → Nat) : Guarded :=
  let buf := (buf.put field (be16 0)).touch place len
  buf.put field (be16 (cksumWrap (extra buf.bytes + inCksum buf.bytes place len)))

/-- The addresses, the protocol and the length. -/
def pseudoHeader (iph proto len : Nat) (memory : Memory UInt8) : Nat :=
  inCksum memory (iph + 12) 8 + (proto + len) % 2 ^ 16

/-- The checksum behind the IP header; none where `chksum` gives up. -/
def chksumTransport (buf : Guarded) (iph hlen len : Nat) : Option Guarded :=
  let proto := buf.bytes (iph + 9)
  if proto = ipProtoTcp then
    some (putChecksum buf (iph + hlen + 16) (iph + hlen) (len - hlen) (pseudoHeader iph 6 (len - hlen)))
  else if proto = ipProtoUdp then
    let udplen := (word16 buf.bytes (iph + hlen + 4)).toNat
    if len < udplen then none
    else some (putChecksum buf (iph + hlen + 6) (iph + hlen) udplen (pseudoHeader iph 17 udplen))
  else if proto = ipProtoIcmp then
    some (putChecksum buf (iph + hlen + 2) (iph + hlen) (len - hlen) fun _ => 0)
  else some buf

/-- `chksum` of the packet at `iph`, its value left out. -/
def chksum (buf : Guarded) (iph : Nat) : Guarded :=
  let hlen := (buf.bytes iph).toNat % 16 * 4
  let len := (word16 buf.bytes (iph + 2)).toNat
  if buf.bytes iph &&& 0xf0 ≠ 0x40 then buf
  else if hlen < pktIpHlen ∨ pktBuffer < len ∨ len < hlen then buf
  else
    match chksumTransport buf iph hlen len with
    | none => buf
    | some buf => putChecksum buf (iph + 10) iph hlen fun _ => 0

variable {buf : Guarded} {field place len address iph : Nat} {extra : Memory UInt8 → Nat}

theorem putChecksum_size : (putChecksum buf field place len extra).size = buf.size := rfl

theorem putChecksum_inside_of (inside : (putChecksum buf field place len extra).inside = true) :
    buf.inside = true := by
  simp only [putChecksum, Guarded.put_inside_iff, Guarded.touch_inside_iff] at inside
  exact inside.1.1.1

/-- What stays inside was inside before. -/
theorem chksum_inside_of (inside : (chksum buf iph).inside = true) : buf.inside = true := by
  simp only [chksum] at inside
  split at inside
  · exact inside
  · split at inside
    · exact inside
    · split at inside
      · exact inside
      · rename_i summed
        have summed' := putChecksum_inside_of inside
        simp only [chksumTransport] at summed
        split at summed
        · cases summed
          exact putChecksum_inside_of summed'
        · split at summed
          · split at summed
            · cases summed
            · cases summed
              exact putChecksum_inside_of summed'
          · split at summed
            · cases summed
              exact putChecksum_inside_of summed'
            · cases summed
              exact summed'

theorem chksum_size : (chksum buf iph).size = buf.size := by
  simp only [chksum]
  split
  · rfl
  · split
    · rfl
    · split
      · rfl
      · rename_i summed
        simp only [chksumTransport] at summed
        rw [putChecksum_size]
        split at summed
        · cases summed
          rfl
        · split at summed
          · split at summed
            · cases summed
            · cases summed
              rfl
          · split at summed
            · cases summed
              rfl
            · cases summed
              rfl

theorem putChecksum_apart (apart : address < field ∨ field + 2 ≤ address) :
    (putChecksum buf field place len extra).bytes address = buf.bytes address := by
  simp only [putChecksum, Guarded.put_bytes, Guarded.touch_bytes]
  rw [store_outside (by rw [be16_length]; exact apart), store_outside (by rw [be16_length]; exact apart)]

/-- The fields of a TCP packet that are no checksums stay. -/
theorem chksum_apart (tcp : buf.bytes (iph + 9) = ipProtoTcp)
    (apart : address < iph + 10 ∨ iph + 12 ≤ address)
    (apart' : address < iph + (buf.bytes iph).toNat % 16 * 4 + 16 ∨
      iph + (buf.bytes iph).toNat % 16 * 4 + 18 ≤ address) :
    (chksum buf iph).bytes address = buf.bytes address := by
  simp only [chksum, chksumTransport, tcp, if_true]
  split
  · rfl
  · split
    · rfl
    · rw [putChecksum_apart apart, putChecksum_apart apart']

/-- So do those of a UDP packet. -/
theorem chksum_apart_udp (udp : buf.bytes (iph + 9) = ipProtoUdp)
    (apart : address < iph + 10 ∨ iph + 12 ≤ address)
    (apart' : address < iph + (buf.bytes iph).toNat % 16 * 4 + 6 ∨
      iph + (buf.bytes iph).toNat % 16 * 4 + 8 ≤ address) :
    (chksum buf iph).bytes address = buf.bytes address := by
  have noTcp : ¬ ipProtoUdp = ipProtoTcp := by decide
  simp only [chksum, chksumTransport, udp, if_neg noTcp, if_true]
  split
  · rfl
  · split
    · rfl
    · split
      · rfl
      · rename_i summed
        split at summed
        · cases summed
        · cases summed
          rw [putChecksum_apart apart, putChecksum_apart apart']

theorem putChecksum_inside (field' : field + 2 ≤ buf.size) (whole : len = 0 ∨ place + len ≤ buf.size)
    (inside : buf.inside = true) : (putChecksum buf field place len extra).inside = true := by
  simp only [putChecksum, Guarded.put_inside_iff, Guarded.touch_inside_iff, Guarded.touch_size,
    Guarded.put_size, be16_length]
  exact ⟨⟨⟨inside, .inr field'⟩, whole⟩, .inr field'⟩

/-- The checksums of a UDP packet stay in its bytes. -/
theorem chksum_inside_udp (udp : buf.bytes (iph + 9) = ipProtoUdp) (header : buf.bytes iph = 0x45)
    (whole : iph + 28 ≤ buf.size)
    (udplen : iph + 20 + (word16 buf.bytes (iph + 24)).toNat ≤ buf.size) (inside : buf.inside = true) :
    (chksum buf iph).inside = true := by
  have noTcp : ¬ ipProtoUdp = ipProtoTcp := by decide
  have five : (0x45 : UInt8).toNat % 16 * 4 = 20 := rfl
  simp only [chksum, chksumTransport, udp, if_neg noTcp, if_true, header, five]
  split
  · exact inside
  · split
    · exact inside
    · split
      · exact inside
      · rename_i summed
        split at summed
        · cases summed
        · cases summed
          have first : (putChecksum buf (iph + 20 + 6) (iph + 20) (word16 buf.bytes (iph + 20 + 4)).toNat
              (pseudoHeader iph 17 (word16 buf.bytes (iph + 20 + 4)).toNat)).inside = true :=
            putChecksum_inside (by omega) (.inr udplen) inside
          exact putChecksum_inside (by rw [putChecksum_size]; omega) (.inr (by
            rw [putChecksum_size]
            omega)) first

/-- So do those of a TCP packet. -/
theorem chksum_inside_tcp (tcp : buf.bytes (iph + 9) = ipProtoTcp) (header : buf.bytes iph = 0x45)
    (least : iph + 40 ≤ buf.size) (whole : iph + (word16 buf.bytes (iph + 2)).toNat ≤ buf.size)
    (inside : buf.inside = true) : (chksum buf iph).inside = true := by
  have five : (0x45 : UInt8).toNat % 16 * 4 = 20 := rfl
  simp only [chksum, chksumTransport, tcp, if_true, header, five]
  split
  · exact inside
  · split
    · exact inside
    · rename_i lengths
      have first : (putChecksum buf (iph + 20 + 16) (iph + 20)
          ((word16 buf.bytes (iph + 2)).toNat - 20)
          (pseudoHeader iph 6 ((word16 buf.bytes (iph + 2)).toNat - 20))).inside = true :=
        putChecksum_inside (by omega) (.inr (by omega)) inside
      exact putChecksum_inside (by rw [putChecksum_size]; omega) (.inr (by
        rw [putChecksum_size]
        omega)) first

end

end Rut9xx.Chilli
