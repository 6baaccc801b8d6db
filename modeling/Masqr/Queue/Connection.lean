import Masqr.Queue.Packet

/-!
The connection a packet belongs to, and what the header readers make of it.

Three readers go over the headers on their own: the one that files a packet in a bucket, the one
that compares the connections of two packets and the one that knows an acknowledgement. What
they have in common is stated once, as the connection the headers spell.
-/

namespace Masqr.Queue

/-- A connection, from the side of a packet: version, protocol, both addresses, both ports. -/
structure Connection where
  version : UInt8
  proto : UInt8
  addresses : List UInt8
  ports : List UInt8
  deriving DecidableEq

/-- The transport header of a packet starts here, and this is its connection. -/
inductive Connects : Packet → ℕ → Connection → Prop
  | v4 {packet} : version packet = some 4 → 20 ≤ packet.length → 20 ≤ headerLen packet →
      headerLen packet + 4 ≤ packet.length →
      Connects packet (headerLen packet) ⟨4, byte packet 9, packet.extract 12 20,
        packet.extract (headerLen packet) (headerLen packet + 4)⟩
  | v6 {packet} : version packet = some 6 → 44 ≤ packet.length →
      Connects packet 40 ⟨6, byte packet 6, packet.extract 8 40, packet.extract 40 44⟩

lemma byte_version {packet : Packet} {v : UInt8} (h : version packet = some v) :
    byte packet 0 >>> 4 = v := by
  obtain _ | ⟨first, rest⟩ := packet
  · cases h
  · exact Option.some.inj h

/-- Where the addresses of a version stand. -/
def addressSpan (version : UInt8) : ℕ × ℕ := if version = 4 then (12, 20) else (8, 40)

lemma Connects.transport {packet : Packet} {start : ℕ} {c : Connection}
    (h : Connects packet start c) :
    transport packet = some (start, c.proto) ∧ byte packet 0 >>> 4 = c.version ∧
      start + 4 ≤ packet.length ∧
      c.addresses = packet.extract (addressSpan c.version).1 (addressSpan c.version).2 ∧
      c.ports = packet.extract start (start + 4) := by
  cases h with
  | v4 hversion hlen hheader hports =>
    refine ⟨?_, byte_version hversion, hports, rfl, rfl⟩
    rw [Queue.transport, if_pos ⟨hversion, hlen⟩, if_pos ⟨hheader, by omega⟩]
  | v6 hversion hlen =>
    refine ⟨?_, byte_version hversion, hlen, rfl, rfl⟩
    have hnot : ¬ (version packet = some 4 ∧ 20 ≤ packet.length) := fun h4 => by
      rw [hversion] at h4
      exact absurd h4.1 (by decide)
    rw [Queue.transport, if_neg hnot, if_pos ⟨hversion, by omega⟩]

/-- Where there is a transport header with room for the ports there is a connection. -/
lemma connects_of_transport {packet : Packet} {start : ℕ} {proto : UInt8}
    (h : transport packet = some (start, proto)) (hports : start + 4 ≤ packet.length) :
    ∃ c, Connects packet start c ∧ c.proto = proto := by
  unfold transport at h
  split_ifs at h with h4 hheader h6
  · cases h
    exact ⟨_, .v4 h4.1 h4.2 hheader.1 hports, rfl⟩
  · cases h
    exact ⟨_, .v6 h6.1 hports, rfl⟩

/-- What is compared, where both packets have a transport header. -/
lemma sameConnection_eq {a b : Packet} {aAt bAt : ℕ} {aProto bProto : UInt8}
    (ha : transport a = some (aAt, aProto)) (hb : transport b = some (bAt, bProto)) :
    sameConnection a b = true ↔
      (aProto = bProto ∧ byte a 0 >>> 4 = byte b 0 >>> 4) ∧
      a.extract (addressSpan (byte a 0 >>> 4)).1 (addressSpan (byte a 0 >>> 4)).2 =
        b.extract (addressSpan (byte a 0 >>> 4)).1 (addressSpan (byte a 0 >>> 4)).2 ∧
      aAt + 4 ≤ a.length ∧ bAt + 4 ≤ b.length ∧
      a.extract aAt (aAt + 4) = b.extract bAt (bAt + 4) := by
  unfold sameConnection
  rw [ha, hb]
  simp only
  by_cases hdiffers : aProto ≠ bProto ∨ byte a 0 >>> 4 ≠ byte b 0 >>> 4
  · rw [if_pos hdiffers]
    rw [← not_and_or] at hdiffers
    exact iff_of_false Bool.false_ne_true fun h => hdiffers h.1
  · rw [if_neg hdiffers, ← addressSpan]
    rw [← not_and_or, not_not] at hdiffers
    simp only [Bool.and_eq_true, decide_eq_true_eq, beq_iff_eq, and_assoc, hdiffers, true_and]

/-- **Two packets are of the same connection** when their headers spell the same one. -/
theorem sameConnection_iff (a b : Packet) : sameConnection a b = true ↔
    ∃ c aAt bAt, Connects a aAt c ∧ Connects b bAt c := by
  constructor
  · intro h
    obtain ⟨⟨aAt, aProto⟩, ha⟩ : ∃ header, transport a = some header := by
      refine Option.ne_none_iff_exists'.1 fun hnone => ?_
      simp [sameConnection, hnone] at h
    obtain ⟨⟨bAt, bProto⟩, hb⟩ : ∃ header, transport b = some header := by
      refine Option.ne_none_iff_exists'.1 fun hnone => ?_
      simp [sameConnection, hnone] at h
    obtain ⟨⟨hproto, hversion⟩, haddresses, hla, hlb, hports⟩ := (sameConnection_eq ha hb).1 h
    obtain ⟨ca, hca, hpa⟩ := connects_of_transport ha hla
    obtain ⟨cb, hcb, hpb⟩ := connects_of_transport hb hlb
    obtain ⟨-, hva, -, haa, hsa⟩ := hca.transport
    obtain ⟨-, hvb, -, hab, hsb⟩ := hcb.transport
    have hsame : ca = cb := by
      have hversions : ca.version = cb.version := hva.symm.trans (hversion.trans hvb)
      have hprotos : ca.proto = cb.proto := hpa.trans (hproto.trans hpb.symm)
      have hends : ca.addresses = cb.addresses := by
        rw [haa, hab, ← hversions, ← hva]
        exact haddresses
      have hboth : ca.ports = cb.ports := by rw [hsa, hsb, hports]
      cases ca
      cases cb
      simp_all only
    exact ⟨ca, aAt, bAt, hca, hsame ▸ hcb⟩
  · rintro ⟨c, aAt, bAt, ha, hb⟩
    obtain ⟨hta, hva, hla, haa, hsa⟩ := ha.transport
    obtain ⟨htb, hvb, hlb, hab, hsb⟩ := hb.transport
    refine (sameConnection_eq hta htb).2 ⟨⟨rfl, hva.trans hvb.symm⟩, ?_, hla, hlb, ?_⟩
    · rw [hva, ← haa, ← hab]
    · rw [← hsa, ← hsb]

/-- The bucket of a connection. -/
def Connection.bucket (c : Connection) : Bucket :=
  let hash := eat (eat 0xcbf29ce484222325 c.addresses) [c.proto]
  let hash := if c.proto = 6 ∨ c.proto = 17 then eat hash c.ports else hash
  ⟨hash.toNat % FLOWS, Nat.mod_lt _ (by decide)⟩

/-- A packet is filed by its connection. -/
lemma Connects.flowOf {packet : Packet} {start : ℕ} {c : Connection}
    (h : Connects packet start c) : flowOf packet = c.bucket := by
  cases h with
  | v4 hversion hlen hheader hports =>
    unfold Queue.flowOf Connection.bucket
    simp only [hversion, hlen, hports, and_self, and_true, if_true]
  | v6 hversion hlen =>
    have hnot : ¬ ((some 6 : Option UInt8) = some 4 ∧ 20 ≤ packet.length) := fun h4 =>
      absurd h4.1 (by decide)
    have hlen' : 40 ≤ packet.length := by omega
    unfold Queue.flowOf Connection.bucket
    simp only [hversion, if_neg hnot, hlen', hlen, and_self, and_true, if_true]

/-- **The packets of a connection share a bucket.** -/
theorem flowOf_sameConnection {a b : Packet} (h : sameConnection a b = true) :
    flowOf a = flowOf b := by
  obtain ⟨c, aAt, bAt, ha, hb⟩ := (sameConnection_iff a b).1 h
  rw [ha.flowOf, hb.flowOf]

/-- The packet acknowledges up to `number` and does nothing else: a transport header of TCP with no
options and exactly the flag ACK, and nothing past it. -/
def IsAck (packet : Packet) (number : UInt32) : Prop :=
  ∃ start c, Connects packet start c ∧ c.proto = 6 ∧ packet.length = start + 20 ∧
    byte packet (start + 12) = 0x50 ∧ byte packet (start + 13) = 0x10 ∧
    number = be32 (byte packet (start + 8)) (byte packet (start + 9)) (byte packet (start + 10))
      (byte packet (start + 11))

lemma byte_drop (packet : Packet) (start k : ℕ) :
    byte (packet.drop start) k = byte packet (start + k) := by
  simp [byte, List.getD_eq_getElem?_getD]

/-- **The reader of acknowledgements knows them all and takes nothing else for one.** -/
theorem pureAck_iff (packet : Packet) (number : UInt32) :
    pureAck packet = some number ↔ IsAck packet number := by
  constructor
  · intro h
    unfold pureAck at h
    split at h
    · cases h
    · next start proto htransport =>
      by_cases hshort : proto ≠ 6 ∨ packet.length < start + 20
      · rw [if_pos hshort] at h
        cases h
      · rw [if_neg hshort] at h
        simp only [byte_drop] at h
        split at h
        · cases h
        · next hother =>
          cases h
          simp only [not_or, not_not, Nat.not_lt] at hshort hother
          obtain ⟨c, hc, hproto⟩ := connects_of_transport htransport (by omega)
          exact ⟨start, c, hc, hproto.trans hshort.1, hother.2.2, hother.1, hother.2.1, rfl⟩
  · rintro ⟨start, c, hc, hproto, hlen, hoptions, hflags, rfl⟩
    obtain ⟨htransport, -⟩ := hc.transport
    unfold pureAck
    rw [htransport]
    simp only [byte_drop]
    rw [if_neg (by simp [hproto, hlen]), if_neg (by simp [hoptions, hflags, hlen])]

end Masqr.Queue
