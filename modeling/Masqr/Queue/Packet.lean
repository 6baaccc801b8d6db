import Masqr.Ip

/-!
What the queue reads out of a packet: its connection, the acknowledgement it is, the
bucket it belongs in, and the congestion mark it may carry.

A packet is any list of bytes. Bytes are read only where the length has been checked.
-/

namespace Masqr.Queue

abbrev Packet := List UInt8

def FLOWS : ℕ := 64
def QUANTUM : ℕ := 1280
def LIMIT_BYTES : ℕ := 2 * 1024 * 1024

/-- A bucket. -/
abbrev Bucket := Fin FLOWS

/-- The byte at a position. -/
def byte (packet : Packet) (k : ℕ) : UInt8 := packet.getD k 0

/-- The IP version of a packet that has a first byte. -/
def version (packet : Packet) : Option UInt8 := packet.head?.map fun b => b >>> (4 : UInt8)

/-- The length an IPv4 header says it has. -/
def headerLen (packet : Packet) : ℕ := (byte packet 0 &&& 0x0f).toNat * 4

/-- Where the transport header starts, and which protocol it is. -/
def transport (packet : Packet) : Option (ℕ × UInt8) :=
  if version packet = some 4 ∧ 20 ≤ packet.length then
    if 20 ≤ headerLen packet ∧ headerLen packet ≤ packet.length then
      some (headerLen packet, byte packet 9)
    else none
  else if version packet = some 6 ∧ 40 ≤ packet.length then some (40, byte packet 6)
  else none

/-- Whether two packets belong to the same connection. -/
def sameConnection (a b : Packet) : Bool :=
  match transport a, transport b with
  | some (aAt, aProto), some (bAt, bProto) =>
    if aProto ≠ bProto ∨ byte a 0 >>> 4 ≠ byte b 0 >>> 4 then false
    else
      let (lo, hi) := if byte a 0 >>> 4 = 4 then (12, 20) else (8, 40)
      a.extract lo hi == b.extract lo hi
        && decide (aAt + 4 ≤ a.length)
        && decide (bAt + 4 ≤ b.length)
        && a.extract aAt (aAt + 4) == b.extract bAt (bAt + 4)
  | _, _ => false

def be32 (a b c d : UInt8) : UInt32 :=
  a.toUInt32 <<< 24 ||| b.toUInt32 <<< 16 ||| c.toUInt32 <<< 8 ||| d.toUInt32

/-- The acknowledgement number of a packet that is an acknowledgement and nothing else. -/
def pureAck (packet : Packet) : Option UInt32 :=
  match transport packet with
  | none => none
  | some (start, proto) =>
    if proto ≠ 6 ∨ packet.length < start + 20 then none
    else
      let tcp := packet.drop start
      -- no options, and exactly the ACK flag
      if byte tcp 12 ≠ 0x50 ∨ byte tcp 13 ≠ 0x10 ∨ packet.length ≠ start + 20 then none
      else some (be32 (byte tcp 8) (byte tcp 9) (byte tcp 10) (byte tcp 11))

/-- The packet with the congestion mark set, or nothing when it is not willing to carry
one. -/
def markCongestion (packet : Packet) : Option Packet :=
  if version packet = some 4 ∧ 20 ≤ packet.length then
    if byte packet 1 &&& 0b11 = 0 then none
    else if byte packet 1 &&& 0b11 = 0b11 then some packet
    else if headerLen packet < 20 ∨ packet.length < headerLen packet then none
    else
      let marked := packet.set 1 (byte packet 1 ||| 0b11)
      let sum := Ip.ipv4Checksum (marked.take (headerLen packet))
      some ((marked.set 10 (UInt8.ofNat (sum / 256))).set 11 (UInt8.ofNat (sum % 256)))
  else if version packet = some 6 ∧ 40 ≤ packet.length then
    if byte packet 1 &&& 0b00110000 = 0 then none
    else some (packet.set 1 (byte packet 1 ||| 0b00110000))
  else none

lemma markCongestion_length {p p' : Packet} (h : markCongestion p = some p') :
    p'.length = p.length := by
  unfold markCongestion at h
  split_ifs at h <;> simp only [Option.some.injEq] at h <;> subst h <;> simp

def eat (hash : UInt64) (bytes : List UInt8) : UInt64 :=
  bytes.foldl (fun hash b => (hash ^^^ b.toUInt64) * 0x100000001b3) hash

/-- Which bucket a packet belongs in: its 5-tuple, hashed. -/
def flowOf (packet : Packet) : Bucket :=
  let hash : UInt64 := 0xcbf29ce484222325
  let hash :=
    if version packet = some 4 ∧ 20 ≤ packet.length then
      let protocol := byte packet 9
      let hash := eat (eat hash (packet.extract 12 20)) [protocol]
      let header := headerLen packet
      if (protocol = 6 ∨ protocol = 17) ∧ header + 4 ≤ packet.length then
        eat hash (packet.extract header (header + 4))
      else hash
    else if version packet = some 6 ∧ 40 ≤ packet.length then
      let protocol := byte packet 6
      let hash := eat (eat hash (packet.extract 8 40)) [protocol]
      if (protocol = 6 ∨ protocol = 17) ∧ 44 ≤ packet.length then
        eat hash (packet.extract 40 44)
      else hash
    else eat hash [0]
  ⟨hash.toNat % FLOWS, Nat.mod_lt _ (by decide)⟩

end Masqr.Queue
