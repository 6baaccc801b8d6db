import Masqr.Dns.Wire
import Masqr.Headers

/-!
Measuring whether the tunnel carries IPv6: one query sent over it, and whether anything comes back.

The checksum of the datagram is taken with every sum checked, as the language checks it. A receiver
sums the pseudo-header and the datagram, the checksum among it, and wants all ones.
-/

namespace Masqr.Probe

open Masqr.Lib Masqr.Headers Masqr.Queue Masqr.Transport

/-- A resolver that can be reached over IPv6 from anywhere. -/
def PROBE_RESOLVER : Ipv6Addr := 0x26064700470000000000000000001111#128

def PROBE_NAME : String := "cloudflare.com"
def PROBE_PORT : UInt16 := 40001
def NEXT_HEADER_UDP : UInt8 := 17

def octets (address : Ipv6Addr) : List UInt8 := toBe 16 address.toNat

/-- The bytes a text is kept in. -/
def utf8 (text : List Char) : List UInt8 := text.flatMap String.utf8EncodeChar

/-- A label behind its length. -/
def labelled (label : List Char) : List UInt8 := UInt8.ofNat (utf8 label).length :: utf8 label

/-- A minimal query for an address. -/
def dnsQuery (name : String) : List UInt8 :=
  [0x2a, 0x2a, 0x01, 0x00, 0, 1, 0, 0, 0, 0, 0, 0] ++
    (name.toList.splitOn '.').flatMap labelled ++ [0] ++ [0, 1, 0, 1]

/-- The checksum over the pseudo-header, then the datagram. -/
def udpChecksum (source destination : Ipv6Addr) (datagram : List UInt8) : Option ℕ := do
  let sum ← Checked.sumAdd 0 (octets source)
  let sum ← Checked.sumAdd sum (octets destination)
  let sum ← Checked.sumAdd sum (toBe 4 datagram.length)
  let sum ← Checked.sumAdd sum [0, 0, 0, NEXT_HEADER_UDP]
  let sum ← Checked.sumAdd sum datagram
  let folded := Ip.Sum.fold sum
  -- zero would say that there is none
  return if folded = 0 then 0xffff else folded

/-- An IPv6 packet with the query in it. -/
def dnsOverIpv6 (source destination : Ipv6Addr) (port : UInt16) (name : String) :
    Option (List UInt8) := do
  let query := dnsQuery name
  let udpLen := 8 + query.length
  let udp := toBe 2 port.toNat ++ toBe 2 53 ++ toBe 2 udpLen ++ [0, 0] ++ query
  let checksum ← udpChecksum source destination udp
  let udp ← Checked.copyInto udp 6 8 (toBe 2 checksum)
  return [0x60, 0, 0, 0] ++ toBe 2 udpLen ++ [NEXT_HEADER_UDP, 64] ++ octets source ++
    octets destination ++ udp

/-- Whether a packet is a datagram sent back to us, at the port we asked from. -/
def isReplyTo (packet : Packet) (us : Ipv6Addr) (port : UInt16) : Bool :=
  if packet.length < 48 ∨ byte packet 0 >>> (4 : UInt8) ≠ 6 ∨ byte packet 6 ≠ NEXT_HEADER_UDP then
    false
  else if BitVec.ofNat 128 (ofBe 0 ((packet.drop 24).take 16)) ≠ us then false
  else decide (ofBe 0 ((packet.drop 42).take 2) = port.toNat)

/-- What waiting for a packet comes to: one, or none, by the deadline, a fault or the end. -/
inductive Waited
  | packet (reply : Packet)
  | nothing

/-- Something else that came back is passed over. -/
def awaitReply (source : Ipv6Addr) : List Waited → Bool
  | .packet reply :: rest =>
    if isReplyTo reply source PROBE_PORT then true else awaitReply source rest
  | _ => false

/-- Whether the tunnel carried the query and anything came back. -/
def carriesIpv6 (send : Packet → Bool) (waited : List Waited) (source : Ipv6Addr) : Option Bool := do
  let packet ← dnsOverIpv6 source PROBE_RESOLVER PROBE_PORT PROBE_NAME
  if send packet then return awaitReply source waited
  else return false

/-! ### What a receiver sums -/

/-- A run of bytes with a zero put behind an odd one. -/
def pad (bytes : List UInt8) : List UInt8 :=
  if bytes.length % 2 = 0 then bytes else bytes ++ [0]

/-- The addresses, the length as four bytes, three zeros and what the datagram is. -/
def pseudoHeader (addresses : List UInt8) (length : ℕ) : List UInt8 :=
  addresses ++ toBe 4 length ++ [0, 0, 0, NEXT_HEADER_UDP]

/-- The ones'-complement sum of the pseudo-header and the datagram. -/
def udpSum (addresses datagram : List UInt8) : ℕ :=
  OnesComplement.sum 0xffff (words (pseudoHeader addresses datagram.length ++ pad datagram))

lemma pad_append {front : List UInt8} (n : ℕ) (h : front.length = 2 * n) (back : List UInt8) :
    pad (front ++ back) = front ++ pad back := by
  have hparity : (front ++ back).length % 2 = back.length % 2 := by
    rw [List.length_append]
    omega
  unfold pad
  rw [hparity]
  split_ifs
  · rfl
  · rw [List.append_assoc]

lemma pad_pair (hi lo : UInt8) (back : List UInt8) : pad (hi :: lo :: back) = hi :: lo :: pad back :=
  have hpair : [hi, lo].length = 2 * 1 := rfl
  pad_append 1 hpair back

/-- The sum a sender takes is that of the words, as long as it fits. -/
lemma sumAdd_eq (total : ℕ) (bytes : List UInt8)
    (h : total + 0xffff * ((bytes.length + 1) / 2) < 2 ^ 32) :
    Checked.sumAdd total bytes = some (total + (words (pad bytes)).sum) ∧
      (words (pad bytes)).sum ≤ 0xffff * ((bytes.length + 1) / 2) := by
  induction bytes using words.induct generalizing total with
  | case1 hi lo rest ih =>
    have hhi := hi.toNat_lt
    have hlo := lo.toNat_lt
    rw [List.length_cons, List.length_cons] at h ⊢
    have hpair := pad_pair hi lo rest
    have hfits : total + (hi.toNat * 256 + lo.toNat) < 2 ^ 32 := by omega
    have hplus : Checked.plus total (hi.toNat * 256 + lo.toNat) =
        some (total + (hi.toNat * 256 + lo.toNat)) := if_pos hfits
    have hrest : total + (hi.toNat * 256 + lo.toNat) + 0xffff * ((rest.length + 1) / 2) < 2 ^ 32 := by
      omega
    obtain ⟨hsum, hle⟩ := ih _ hrest
    rw [Nat.add_assoc total] at hsum
    rw [hpair, words, List.sum_cons, Checked.sumAdd, hplus]
    exact ⟨hsum, by omega⟩
  | case2 bytes hshort =>
    obtain _ | ⟨last, _ | ⟨lo, rest⟩⟩ := bytes
    · exact ⟨rfl, Nat.zero_le _⟩
    · have hlast := last.toNat_lt
      have hword : (words (pad [last])).sum = last.toNat * 256 := by simp [pad, words]
      rw [List.length_singleton] at h
      rw [hword, List.length_singleton]
      exact ⟨if_pos (by omega), by omega⟩
    · exact absurd rfl (hshort last lo rest)

lemma sumAdd_even (total : ℕ) {bytes : List UInt8} (n : ℕ) (hlen : bytes.length = 2 * n)
    (h : total + 0xffff * n < 2 ^ 32) :
    Checked.sumAdd total bytes = some (total + (words bytes).sum) ∧
      (words bytes).sum ≤ 0xffff * n := by
  have hpad : pad bytes = bytes := if_pos (by omega)
  have hwords : (bytes.length + 1) / 2 = n := by omega
  have hsum := sumAdd_eq total bytes (by rwa [hwords])
  rwa [hpad, hwords] at hsum

/-! ### The checksum -/

/-- What the words of a pseudo-header and a datagram add up to. -/
def total (addresses datagram : List UInt8) : ℕ :=
  (words (pseudoHeader addresses datagram.length ++ pad datagram)).sum

lemma udpSum_eq (addresses datagram : List UInt8) :
    udpSum addresses datagram = OnesComplement.residue 0xffff (total addresses datagram) :=
  OnesComplement.sum_eq_residue (by omega) (words_le _)

@[simp] lemma length_octets (address : Ipv6Addr) : (octets address).length = 16 := length_toBe _ _

lemma total_eq (source destination : Ipv6Addr) (datagram : List UInt8) :
    total (octets source ++ octets destination) datagram =
      (words (octets source)).sum + (words (octets destination)).sum +
        (words (toBe 4 datagram.length)).sum + (words [0, 0, 0, NEXT_HEADER_UDP]).sum +
          (words (pad datagram)).sum := by
  rw [total, pseudoHeader, words_append 20 (by simp), words_append 18 (by simp),
    words_append 16 (by simp), words_append 8 (by simp)]
  simp only [List.sum_append]

/-- **The 32 bits of the sum are enough** for every datagram there is room for. -/
lemma udpChecksum_eq (source destination : Ipv6Addr) {datagram : List UInt8}
    (h : datagram.length < 65536) : udpChecksum source destination datagram =
      some (OnesComplement.complement 0xffff
        (total (octets source ++ octets destination) datagram)) := by
  obtain ⟨s, hs⟩ : ∃ s, s = (words (octets source)).sum := ⟨_, rfl⟩
  obtain ⟨d, hd⟩ : ∃ d, d = (words (octets destination)).sum := ⟨_, rfl⟩
  obtain ⟨l, hl⟩ : ∃ l, l = (words (toBe 4 datagram.length)).sum := ⟨_, rfl⟩
  obtain ⟨k, hk⟩ : ∃ k, k = (words [0, 0, 0, NEXT_HEADER_UDP]).sum := ⟨_, rfl⟩
  obtain ⟨hsource, hs'⟩ := sumAdd_even 0 8 (length_octets source) (by omega)
  rw [← hs] at hsource hs'
  obtain ⟨hdestination, hd'⟩ := sumAdd_even (0 + s) 8 (length_octets destination) (by omega)
  rw [← hd] at hdestination hd'
  obtain ⟨hlength, hl'⟩ := sumAdd_even (0 + s + d) 2 (length_toBe 4 datagram.length) (by omega)
  rw [← hl] at hlength hl'
  obtain ⟨hheader, hk'⟩ := sumAdd_even (0 + s + d + l) 2
    (show [0, 0, 0, NEXT_HEADER_UDP].length = 2 * 2 from rfl) (by omega)
  rw [← hk] at hheader hk'
  obtain ⟨hdatagram, -⟩ := sumAdd_eq (0 + s + d + l + k) datagram (by omega)
  simp only [udpChecksum, hsource, hdestination, hlength, hheader, hdatagram, Option.bind_eq_bind,
    Option.bind_some, Ip.Sum.fold, carry_run]
  rw [Nat.zero_add, hs, hd, hl, hk, ← total_eq]
  rfl

/-- A field among the words of a datagram. -/
lemma sum_words_field {front : List UInt8} (h : front.length = 6) (hi lo : UInt8)
    (back : List UInt8) : (words (pad (front ++ hi :: lo :: back))).sum =
      (words front).sum + (words (pad back)).sum + (hi.toNat * 256 + lo.toNat) := by
  rw [pad_append 3 h, words_append 3 h, pad_pair, words, List.sum_append, List.sum_cons]
  omega

lemma total_field (source destination : Ipv6Addr) {front : List UInt8} (h : front.length = 6)
    (hi lo : UInt8) (back : List UInt8) :
    total (octets source ++ octets destination) (front ++ hi :: lo :: back) =
      total (octets source ++ octets destination) (front ++ 0 :: 0 :: back) +
        (hi.toNat * 256 + lo.toNat) := by
  have hlen : (front ++ hi :: lo :: back).length = (front ++ 0 :: 0 :: back).length := by simp
  have hempty : (0 : UInt8).toNat = 0 := rfl
  rw [total_eq, total_eq, hlen, sum_words_field h, sum_words_field h, hempty, Nat.zero_mul,
    Nat.add_zero, ← Nat.add_assoc]

/-- **Where the checksum goes, the sum is all ones.** -/
lemma udpSum_written (source destination : Ipv6Addr) {datagram : List UInt8}
    (hlong : 8 ≤ datagram.length) (hzero : (datagram.drop 6).take 2 = [0, 0]) :
    udpSum (octets source ++ octets destination) (copyFrom datagram 6 (toBe 2
      (OnesComplement.complement 0xffff (total (octets source ++ octets destination) datagram)))) =
        0xffff := by
  have hm : 0 < 0xffff := by omega
  have hroom : 6 + 2 ≤ datagram.length := by omega
  obtain ⟨front, hi, lo, back, rfl, hfront⟩ := exists_split hroom
  obtain ⟨rfl, rfl⟩ : hi = 0 ∧ lo = 0 := by
    rw [← hfront, List.drop_left] at hzero
    simpa using hzero
  have hbalance := OnesComplement.residue_add_complement_ne hm
    (total (octets source ++ octets destination) (front ++ 0 :: 0 :: back))
  obtain ⟨hi, lo, hbytes, hword⟩ := exists_word (OnesComplement.complement_le
    (total (octets source ++ octets destination) (front ++ 0 :: 0 :: back)))
  have htotal := total_field source destination hfront hi lo back
  rw [hword] at htotal
  rw [hbytes, copyFrom_split hfront, List.append_assoc]
  exact (udpSum_eq _ _).trans ((congrArg _ htotal).trans hbalance)

/-! ### The packet -/

@[simp] lemma utf8_cons (c : Char) (text : List Char) :
    utf8 (c :: text) = String.utf8EncodeChar c ++ utf8 text := List.flatMap_cons

/-- The labels and their lengths are one byte more than the name: a length for each dot, and the
first. -/
lemma length_labelled_splitOn (text : List Char) :
    ((text.splitOn '.').flatMap labelled).length = (utf8 text).length + 1 := by
  induction text with
  | nil => rfl
  | cons c text ih =>
    rw [List.splitOn_cons_eq_if_modifyHead]
    split_ifs with hdot
    · obtain rfl : c = '.' := by simpa using hdot
      have hone : (String.utf8EncodeChar '.').length = 1 := rfl
      have hnone : (labelled []).length = 1 := rfl
      rw [List.flatMap_cons, List.length_append, ih, hnone, utf8_cons, List.length_append, hone]
      omega
    · obtain ⟨label, labels, hlabels⟩ := List.exists_cons_of_ne_nil (List.splitOn_ne_nil '.' text)
      rw [hlabels] at ih ⊢
      rw [List.flatMap_cons, List.length_append] at ih
      rw [List.modifyHead_cons, List.flatMap_cons, List.length_append, utf8_cons,
        List.length_append]
      simp only [labelled, utf8_cons, List.length_cons, List.length_append] at ih ⊢
      omega

lemma length_dnsQuery (name : String) :
    (dnsQuery name).length = (utf8 name.toList).length + 18 := by
  simp only [dnsQuery, List.length_append, length_labelled_splitOn, List.length_cons,
    List.length_nil]
  omega

/-- A packet whose two lengths are what follows its header, and whose checksum is there and is right
for its addresses. -/
structure Delivers (source destination : Ipv6Addr) (packet : List UInt8) : Prop where
  payloadLength : ofBe 0 ((packet.drop 4).take 2) + 40 = packet.length
  udpLength : ofBe 0 ((packet.drop 44).take 2) + 40 = packet.length
  addresses : (packet.drop 8).take 32 = octets source ++ octets destination
  written : (packet.drop 46).take 2 ≠ [0, 0]
  verifies : udpSum ((packet.drop 8).take 32) (packet.drop 40) = 0xffff

/-- **The checksum of a datagram is found, is not zero, and is right once it is written.** -/
theorem udpChecksum_verifies (source destination : Ipv6Addr) {datagram : List UInt8}
    (hlong : 8 ≤ datagram.length) (hshort : datagram.length < 65536)
    (hzero : (datagram.drop 6).take 2 = [0, 0]) :
    ∃ checksum, udpChecksum source destination datagram = some checksum ∧
      checksum ≠ 0 ∧ checksum ≤ 0xffff ∧
      Checked.copyInto datagram 6 8 (toBe 2 checksum) =
        some (copyFrom datagram 6 (toBe 2 checksum)) ∧
      udpSum (octets source ++ octets destination) (copyFrom datagram 6 (toBe 2 checksum)) =
        0xffff := by
  have hm : 0 < 0xffff := by omega
  exact ⟨_, udpChecksum_eq source destination hshort, OnesComplement.complement_ne_zero hm _,
    OnesComplement.complement_le _, if_pos ⟨by omega, hlong, length_toBe _ _⟩,
    udpSum_written source destination hlong hzero⟩

lemma toBe_ne_zero {n : ℕ} (hn : n ≠ 0) (hle : n ≤ 0xffff) : toBe 2 n ≠ [0, 0] := by
  intro h
  have hread := ofBe_toBe 2 0 n
  rw [h, Nat.zero_mul, Nat.zero_add, Nat.mod_eq_of_lt (by omega)] at hread
  exact hn hread.symm

lemma stands_toBe_iff {message : Dns.Message} {start width n : ℕ}
    (hbound : start + width ≤ message.length) (hn : n < 256 ^ width) :
    Dns.Stands message start (toBe width n) ↔ ofBe 0 ((message.drop start).take width) = n := by
  have hlen : ((message.drop start).take width).length = width := by
    rw [List.length_take, List.length_drop]
    omega
  constructor
  · intro h
    have htake := h.take
    rw [length_toBe] at htake
    rw [htake, ofBe_toBe, Nat.zero_mul, Nat.zero_add, Nat.mod_eq_of_lt hn]
  · intro h
    have hback := toBe_ofBe ((message.drop start).take width) 0
    rw [hlen, h] at hback
    rw [Dns.stands_iff, Dns.slice, length_toBe, if_pos hbound, hback]

lemma ofBe_stands {packet : List UInt8} {start n : ℕ} (h : Dns.Stands packet start (toBe 2 n))
    (hn : n < 256 ^ 2) : ofBe 0 ((packet.drop start).take 2) = n := by
  have hbound := h.bound
  rw [length_toBe] at hbound
  exact (stands_toBe_iff hbound hn).1 h

/-- The header of a packet with so many bytes behind it. -/
def header (source destination : Ipv6Addr) (length : ℕ) : List UInt8 :=
  [0x60, 0, 0, 0] ++ toBe 2 length ++ [NEXT_HEADER_UDP, 64] ++ octets source ++ octets destination

@[simp] lemma length_header (source destination : Ipv6Addr) (n : ℕ) :
    (header source destination n).length = 40 := by
  simp [header]

lemma stands_length (source destination : Ipv6Addr) (n : ℕ) (datagram : List UInt8) :
    Dns.Stands (header source destination n ++ datagram) 4 (toBe 2 n) :=
  ⟨[0x60, 0, 0, 0], [NEXT_HEADER_UDP, 64] ++ octets source ++ octets destination ++ datagram,
    by simp only [header, List.append_assoc], rfl⟩

lemma stands_addresses (source destination : Ipv6Addr) (n : ℕ) (datagram : List UInt8) :
    Dns.Stands (header source destination n ++ datagram) 8
      (octets source ++ octets destination) :=
  ⟨[0x60, 0, 0, 0] ++ toBe 2 n ++ [NEXT_HEADER_UDP, 64], datagram,
    by simp only [header, List.append_assoc], by simp⟩

/-- What stands in a datagram stands forty bytes on in its packet. -/
lemma stands_behind {datagram bytes : List UInt8} {start : ℕ} (h : Dns.Stands datagram start bytes)
    (source destination : Ipv6Addr) (n : ℕ) :
    Dns.Stands (header source destination n ++ datagram) (40 + start) bytes := by
  obtain ⟨before, after, rfl, rfl⟩ := h
  exact ⟨header source destination n ++ before, after, by simp only [List.append_assoc], by simp⟩

/-- The ports and the length of a datagram with so many bytes in it. -/
def ports (port : UInt16) (length : ℕ) : List UInt8 := toBe 2 port.toNat ++ toBe 2 53 ++ toBe 2 length

@[simp] lemma length_ports (port : UInt16) (n : ℕ) : (ports port n).length = 6 := by
  simp [ports]

/-- What the packet of a query is made of. -/
lemma dnsOverIpv6_eq (source destination : Ipv6Addr) (port : UInt16) (name : String)
    (h : 8 + (dnsQuery name).length < 65536) :
    ∃ checksum datagram, dnsOverIpv6 source destination port name =
        some (header source destination (8 + (dnsQuery name).length) ++ datagram) ∧
      datagram = ports port (8 + (dnsQuery name).length) ++ toBe 2 checksum ++ dnsQuery name ∧
      checksum ≠ 0 ∧ checksum ≤ 0xffff ∧
      udpSum (octets source ++ octets destination) datagram = 0xffff := by
  generalize hq : dnsQuery name = query at h ⊢
  have hfront := length_ports port (8 + query.length)
  generalize hf : ports port (8 + query.length) = front at hfront ⊢
  have hlen : (front ++ [0, 0] ++ query).length = 8 + query.length := by
    simp only [List.length_append, List.length_cons, List.length_nil, hfront]
  have hzero : ((front ++ [0, 0] ++ query).drop 6).take 2 = [0, 0] := by
    rw [List.append_assoc, ← hfront, List.drop_left]
    rfl
  obtain ⟨checksum, hsum, hne, hle, hcopy, hverifies⟩ := udpChecksum_verifies source destination
    (show 8 ≤ (front ++ [0, 0] ++ query).length by omega) (by omega) hzero
  have hwritten : copyFrom (front ++ [0, 0] ++ query) 6 (toBe 2 checksum) =
      front ++ toBe 2 checksum ++ query := by
    rw [List.append_assoc]
    exact copyFrom_split hfront 0 0 _ _
  rw [hwritten] at hcopy hverifies
  refine ⟨checksum, _, ?_, rfl, hne, hle, hverifies⟩
  unfold ports at hf
  simp only [dnsOverIpv6, hq, hf, hsum, hcopy, Option.bind_eq_bind, Option.bind_some]
  rfl

/-- **The packet of a query delivers it.** -/
theorem dnsOverIpv6_delivers (source destination : Ipv6Addr) (port : UInt16) {name : String}
    (h : (utf8 name.toList).length ≤ 253) :
    ∃ packet, dnsOverIpv6 source destination port name = some packet ∧
      Delivers source destination packet ∧ packet.drop 48 = dnsQuery name := by
  have hquery := length_dnsQuery name
  obtain ⟨checksum, datagram, hpacket, hdatagram, hne, hle, hverifies⟩ :=
    dnsOverIpv6_eq source destination port name (by omega)
  generalize hn : 8 + (dnsQuery name).length = n at hpacket hdatagram
  have hfits : n < 65536 := by omega
  have hall : (header source destination n ++ datagram).length = 40 + n := by
    simp only [hdatagram, List.length_append, length_header, length_ports, length_toBe]
    omega
  have hlength : Dns.Stands datagram 4 (toBe 2 n) :=
    ⟨toBe 2 port.toNat ++ toBe 2 53, toBe 2 checksum ++ dnsQuery name,
      by rw [hdatagram]; simp only [ports, List.append_assoc], by simp⟩
  have hchecksum : Dns.Stands datagram 6 (toBe 2 checksum) :=
    ⟨ports port n, dnsQuery name, hdatagram, length_ports port n⟩
  have haddresses := (stands_addresses source destination n datagram).take
  rw [List.length_append, length_octets, length_octets] at haddresses
  have hbehind : (header source destination n ++ datagram).drop 40 = datagram :=
    List.drop_left' (length_header source destination n)
  refine ⟨_, hpacket, ⟨?_, ?_, haddresses, ?_, ?_⟩, ?_⟩
  · rw [ofBe_stands (stands_length source destination n datagram) hfits, hall, Nat.add_comm]
  · rw [ofBe_stands (stands_behind hlength source destination n) hfits, hall, Nat.add_comm]
  · have htake := (stands_behind hchecksum source destination n).take
    rw [length_toBe] at htake
    rw [htake]
    exact toBe_ne_zero hne hle
  · rw [haddresses, hbehind]
    exact hverifies
  · have hlast : (ports port n ++ toBe 2 checksum).length = 8 := by simp
    rw [show 48 = 40 + 8 from rfl, ← List.drop_drop, hbehind, hdatagram]
    exact List.drop_left' hlast

/-! ### The question in it -/

/-- The labels of a name. -/
def labels (name : String) : List (List UInt8) := (name.toList.splitOn '.').map utf8

/-- A name of labels that the format has room for. -/
structure WellFormed (name : String) : Prop where
  longest : (utf8 name.toList).length ≤ 253
  fits : ∀ label ∈ labels name, 1 ≤ label.length ∧ label.length ≤ 63

lemma nameAt_labelled {message : Dns.Message} {start : ℕ} (pieces : List (List Char))
    (hfits : ∀ label ∈ pieces, 1 ≤ (utf8 label).length ∧ (utf8 label).length ≤ 63)
    (h : Dns.Stands message start (pieces.flatMap labelled ++ [0])) :
    Dns.NameAt message start (pieces.map utf8) 0 (pieces.flatMap labelled).length
      (start + (pieces.flatMap labelled).length + 1) := by
  induction pieces generalizing start with
  | nil => exact .root h
  | cons label pieces ih =>
    obtain ⟨hpos, hmax⟩ := hfits label List.mem_cons_self
    rw [List.flatMap_cons, List.append_assoc] at h
    have hlength : (labelled label).length = (utf8 label).length + 1 := rfl
    have hrest := h.right
    rw [hlength, Nat.add_comm (utf8 label).length, ← Nat.add_assoc] at hrest
    have hname := Dns.NameAt.label hpos hmax h.left
      (ih (fun piece hpiece => hfits piece (List.mem_cons_of_mem _ hpiece)) hrest)
    rw [List.map_cons, List.flatMap_cons, List.length_append, hlength]
    convert hname using 1
    omega

/-- **The query asks for the labels of its name.** -/
theorem asks_dnsQuery {name : String} (h : WellFormed name) :
    Dns.Asks (dnsQuery name) (labels name) := by
  have hfits : ∀ label ∈ name.toList.splitOn '.',
      1 ≤ (utf8 label).length ∧ (utf8 label).length ≤ 63 := fun label hlabel =>
    h.fits (utf8 label) (List.mem_map_of_mem hlabel)
  have hstands : Dns.Stands (dnsQuery name) Dns.HEADER_LEN
      ((name.toList.splitOn '.').flatMap labelled ++ [0] ++ ([0, 1] ++ [0, 1])) :=
    ⟨[0x2a, 0x2a, 0x01, 0x00, 0, 1, 0, 0, 0, 0, 0, 0], [], by simp [dnsQuery], rfl⟩
  have hlength := length_labelled_splitOn name.toList
  have hlongest := h.longest
  refine ⟨⟨[0x2a, 0x2a], [0x01, 0x00], [0, 0, 0, 0, 0, 0], 1, ?_, rfl, rfl, rfl, by omega, by omega⟩,
    ⟨_, 1, 1, ⟨0, _, nameAt_labelled _ hfits hstands.left, Nat.zero_le _, ?_⟩, ?_, by omega, by omega⟩⟩
  · exact ⟨[], _, by simp [dnsQuery, toBe]; rfl, rfl⟩
  · rw [hlength]
    unfold Dns.MAX_NAME
    omega
  · have hright := hstands.right
    rw [List.length_append, List.length_singleton, ← Nat.add_assoc] at hright
    exact hright

/-- The reader of queries finds the name in it. -/
theorem readQuery_dnsQuery {name : String} (h : WellFormed name) :
    ∃ q, Dns.readQuery (dnsQuery name) = .ok q ∧ q.name = Dns.dotted (labels name) :=
  Dns.readQuery_asks (asks_dnsQuery h)

lemma wellFormed_PROBE_NAME : WellFormed PROBE_NAME where
  longest := by decide
  fits := by decide

/-! ### What comes back -/

lemma ofNat_eq_iff {bytes : List UInt8} (h : bytes.length = 16) (address : Ipv6Addr) :
    BitVec.ofNat 128 (ofBe 0 bytes) = address ↔ ofBe 0 bytes = address.toNat := by
  have hlt := ofBe_lt bytes 0
  rw [h] at hlt
  rw [← BitVec.toNat_inj, BitVec.toNat_ofNat, Nat.mod_eq_of_lt (by omega)]

/-- **Only a datagram of ours counts**: to our address, at our port. -/
theorem isReplyTo_iff (packet : Packet) (us : Ipv6Addr) (port : UInt16) :
    isReplyTo packet us port = true ↔ 48 ≤ packet.length ∧ version packet = some 6 ∧
      byte packet 6 = NEXT_HEADER_UDP ∧ Dns.Stands packet 24 (octets us) ∧
        Dns.Stands packet 42 (toBe 2 port.toNat) := by
  unfold isReplyTo octets
  by_cases hlong : 48 ≤ packet.length
  · have hversion : version packet = some 6 ↔ byte packet 0 >>> (4 : UInt8) = 6 := by
      obtain _ | ⟨first, rest⟩ := packet
      · simp at hlong
      · simp [version, byte]
    have haddress : ((packet.drop 24).take 16).length = 16 := by
      rw [List.length_take, List.length_drop]
      omega
    have hport := port.toNat_lt
    have hus := us.isLt
    rw [hversion, stands_toBe_iff (by omega) (by omega), stands_toBe_iff (by omega) (by omega),
      ← ofNat_eq_iff haddress]
    split_ifs with hhead hother
    · refine iff_of_false not_false ?_
      rintro ⟨-, h6, hudp, -, -⟩
      rcases hhead with hshort | hother | hother
      · exact absurd hlong (by omega)
      · exact hother h6
      · exact hother hudp
    · refine iff_of_false not_false ?_
      rintro ⟨-, -, -, hours, -⟩
      exact hother hours
    · rw [decide_eq_true_iff]
      push Not at hhead hother
      exact ⟨fun h => ⟨hlong, hhead.2.1, hhead.2.2, hother, h⟩, fun h => h.2.2.2.2⟩
  · rw [if_pos (.inl (by omega))]
    simp [hlong]

lemma awaitReply_iff (source : Ipv6Addr) (waited : List Waited) :
    awaitReply source waited = true ↔ ∃ (before : List Packet) (reply : Packet) (after : List Waited),
      waited = before.map .packet ++ .packet reply :: after ∧
        isReplyTo reply source PROBE_PORT = true := by
  induction waited with
  | nil => simp [awaitReply]
  | cons first rest ih =>
    cases first with
    | nothing =>
      refine ⟨fun h => Bool.noConfusion h, ?_⟩
      rintro ⟨_ | ⟨earlier, before⟩, reply, after, hwaited, -⟩
      · cases hwaited
      · cases hwaited
    | packet reply =>
      rw [awaitReply]
      split_ifs with hreply
      · exact iff_of_true rfl ⟨[], reply, rest, rfl, hreply⟩
      · rw [ih]
        constructor
        · rintro ⟨before, answer, after, rfl, hanswer⟩
          exact ⟨reply :: before, answer, after, rfl, hanswer⟩
        · rintro ⟨_ | ⟨earlier, before⟩, answer, after, hwaited, hanswer⟩
          · cases hwaited
            exact absurd hanswer hreply
          · cases hwaited
            exact ⟨before, answer, after, rfl, hanswer⟩

/-- **The tunnel carries IPv6 exactly where the query was taken and something of ours came back**,
whatever else came before it. -/
theorem carriesIpv6_iff (send : Packet → Bool) (waited : List Waited) (source : Ipv6Addr) :
    ∃ packet answer, dnsOverIpv6 source PROBE_RESOLVER PROBE_PORT PROBE_NAME = some packet ∧
      Delivers source PROBE_RESOLVER packet ∧ carriesIpv6 send waited source = some answer ∧
      (answer = true ↔ send packet = true ∧
        ∃ (before : List Packet) (reply : Packet) (after : List Waited),
          waited = before.map .packet ++ .packet reply :: after ∧
            isReplyTo reply source PROBE_PORT = true) := by
  obtain ⟨packet, hpacket, hdelivers, -⟩ :=
    dnsOverIpv6_delivers source PROBE_RESOLVER PROBE_PORT wellFormed_PROBE_NAME.longest
  refine ⟨packet, send packet && awaitReply source waited, hpacket, hdelivers, ?_, ?_⟩
  · simp only [carriesIpv6, hpacket, Option.bind_eq_bind, Option.bind_some]
    cases send packet <;> rfl
  · rw [Bool.and_eq_true, awaitReply_iff]

/-- **The probe's datagram always verifies.** For every datagram that has room for a checksum and
none in it one is found within the 32 bits of the sum; it is not zero, and
with it in its place the pseudo-header and the datagram add up to all ones. And for every name of the
format the packet of its query says twice how much follows its header, and verifies. -/
theorem probe_verifies :
    (∀ (source destination : Ipv6Addr) (datagram : List UInt8), 8 ≤ datagram.length →
      datagram.length < 65536 → (datagram.drop 6).take 2 = [0, 0] →
      ∃ checksum, udpChecksum source destination datagram = some checksum ∧
        checksum ≠ 0 ∧ checksum ≤ 0xffff ∧
        Checked.copyInto datagram 6 8 (toBe 2 checksum) =
          some (copyFrom datagram 6 (toBe 2 checksum)) ∧
        udpSum (octets source ++ octets destination) (copyFrom datagram 6 (toBe 2 checksum)) =
          0xffff) ∧
    (∀ (source destination : Ipv6Addr) (port : UInt16) (name : String), WellFormed name →
      ∃ packet, dnsOverIpv6 source destination port name = some packet ∧
        Delivers source destination packet ∧ packet.drop 48 = dnsQuery name ∧
        Dns.Asks (dnsQuery name) (labels name)) := by
  refine ⟨fun source destination datagram hlong hshort hzero =>
    udpChecksum_verifies source destination hlong hshort hzero,
    fun source destination port name hname => ?_⟩
  obtain ⟨packet, hpacket, hdelivers, hquery⟩ :=
    dnsOverIpv6_delivers source destination port hname.longest
  exact ⟨packet, hpacket, hdelivers, hquery, asks_dnsQuery hname⟩

end Masqr.Probe
