import Mathlib
import Masqr.Ip
import Masqr.Transport.Capsule
import Masqr.Transport.Http3

/-!
What the two carriers of a tunnel share: why one could not be opened or stopped carrying, and what
is done to a packet on its way out.
-/

namespace Masqr.Transport

/-- Why a tunnel could not be opened, or stopped carrying. What other libraries report is kept as
its text, and a status as its number. -/
inductive ConnectError
  | tlsSetup (problem : String)
  | io (problem : String)
  | h2 (problem : String)
  | request (problem : String)
  | refused (status : ℕ)
  | badEndpoint (address : String)
  | closed
  | framing (problem : Capsule.TooLong)
  | handshakeCut (sni how : String)
  | quicUnavailable (why : String)
  | h3Unanswered (sni how : String)
  | h3Refused (status : ℕ)
  | h3Unfit (why : String)
  | quic (problem : String)
  | quicWrite (problem : String)
  | quicRead (problem : String)
  | h3 (problem : Http3.H3Error)
  | goingAway
  deriving DecidableEq

/-- The bytes written over those of a packet from a place on. -/
def copyFrom (packet : List UInt8) (start : ℕ) (bytes : List UInt8) : List UInt8 :=
  packet.take start ++ bytes ++ packet.drop (start + bytes.length)

/-- One hop less, in the time to live or the hop limit, and the header checksum of IPv4 with it.
False where the packet is malformed or has no hop left. -/
def decrementHopLimit (packet : List UInt8) : Bool × List UInt8 :=
  match packet with
  | [] => (false, packet)
  | first :: _ =>
    if first.toNat / 16 = 4 then
      let header := first.toNat % 16 * 4
      if header < 20 ∨ packet.length < header ∨ (packet.getD 8 0).toNat ≤ 1 then (false, packet)
      else
        let packet := packet.set 8 (packet.getD 8 0 - 1)
        let checksum := Ip.ipv4Checksum (packet.take header)
        (true, copyFrom packet 10 (Lib.toBe 2 checksum))
    else if first.toNat / 16 = 6 then
      if packet.length < 40 ∨ (packet.getD 7 0).toNat ≤ 1 then (false, packet)
      else (true, packet.set 7 (packet.getD 7 0 - 1))
    else (false, packet)

lemma length_copyFrom {packet bytes : List UInt8} {start : ℕ}
    (h : start + bytes.length ≤ packet.length) :
    (copyFrom packet start bytes).length = packet.length := by
  rw [copyFrom, List.length_append, List.length_append, List.length_take, List.length_drop]
  omega

/-- A packet is as long as it was. -/
lemma length_decrementHopLimit (packet : List UInt8) :
    (decrementHopLimit packet).2.length = packet.length := by
  unfold decrementHopLimit
  split
  · rfl
  · next first rest =>
    split
    · simp only
      split
      · rfl
      · next hgood =>
        rw [not_or, not_or] at hgood
        obtain ⟨hheader, hlen, -⟩ := hgood
        rw [length_copyFrom, List.length_set]
        rw [List.length_set, Lib.length_toBe]
        omega
    · split
      · split
        · rfl
        · exact List.length_set
      · rfl

end Masqr.Transport
