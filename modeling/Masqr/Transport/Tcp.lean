import Mathlib
import Masqr.Transport.Capsule
import Masqr.Transport.ConnectIp

/-!
The HTTP/2 carrier: the packets of the tunnel as capsules on one stream.
-/

namespace Masqr.Transport.Tcp

open Masqr.Lib

/-! ### Packets out -/

/-- The half that carries packets out; `staging` is the run being put together. -/
structure Sender where
  staging : List UInt8
  deriving DecidableEq

/-- What became of a run of packets: how the call ended, the packets as it left them, and what was
handed to the stream. -/
structure Sent where
  result : Except ConnectError Unit
  sender : Sender
  packets : List (List UInt8)
  written : List (List UInt8)

/-- A run of packets, each that still has a hop put behind the others as a capsule. -/
def stage : List UInt8 → List (List UInt8) → List UInt8 × List (List UInt8)
  | staging, [] => (staging, [])
  | staging, packet :: packets =>
    match decrementHopLimit packet with
    | (true, packet) =>
      let staged := stage (Capsule.encodeDatagramInto staging packet) packets
      (staged.1, packet :: staged.2)
    | (false, packet) =>
      let staged := stage staging packets
      (staged.1, packet :: staged.2)

/-- Send a run of packets as one write. `sendData` is the wait for room and the write that
follows it. -/
def Sender.send (sender : Sender) (sendData : List UInt8 → Except ConnectError Unit)
    (packets : List (List UInt8)) : Sent :=
  let staged := stage sender.staging packets
  if staged.1.isEmpty then ⟨.ok (), ⟨staged.1⟩, staged.2, []⟩
  else
    match sendData staged.1 with
    | .ok () => ⟨.ok (), ⟨[]⟩, staged.2, [staged.1]⟩
    | .error problem => ⟨.error problem, ⟨[]⟩, staged.2, []⟩

/-! ### Packets back -/

/-- The half that carries packets back: what the stream has yet to deliver, piece by piece, and
what has arrived and is not used up. -/
structure Receiver where
  inbound : List (Except ConnectError (List UInt8))
  pending : List UInt8

/-- One round of looking for a packet: past a capsule of another type, or past a piece more of the
stream. -/
def Receiver.round (r : Receiver) :
    Receiver ⊕ (Except ConnectError (Option (List UInt8)) × Receiver) :=
  match Capsule.takeCapsule r.pending with
  | (.error problem, pending) => .inr (.error (.framing problem), { r with pending })
  | (.ok (some (some payload)), pending) => .inr (.ok (some payload), { r with pending })
  | (.ok (some none), pending) => .inl { r with pending }
  | (.ok none, pending) =>
    match r.inbound with
    | [] => .inr (.ok none, { r with pending })
    | .error problem :: inbound => .inr (.error problem, ⟨inbound, pending⟩)
    | .ok chunk :: inbound => .inl ⟨inbound, pending ++ chunk⟩

/-- The bytes a receiver still has to read, and one for each piece they come in. -/
def Receiver.size (r : Receiver) : ℕ :=
  r.pending.length +
    (r.inbound.map fun piece => 1 + (piece.toOption.getD []).length).sum

/-- Receive one packet, or none once the endpoint closed the tunnel. -/
def Receiver.recv : Loop Receiver (Except ConnectError (Option (List UInt8)) × Receiver) where
  body := Receiver.round
  measure := Receiver.size
  lowers {r r'} h := by
    unfold Receiver.round at h
    split at h
    · cases h
    · cases h
    · next pending ht =>
      cases h
      have hlt := Capsule.takeCapsule_shrinks ht
      simp only [Receiver.size]
      omega
    · next pending ht =>
      obtain rfl := Capsule.takeCapsule_more ht
      split at h
      · cases h
      · cases h
      · next chunk inbound hin =>
        cases h
        simp only [Receiver.size, hin, List.map_cons, List.sum_cons, List.length_append,
          Except.toOption, Option.getD_some]
        omega

/-- What a receiver of a stream without faults has still to say, told of one call. -/
def Call (r : Receiver) (result : Except ConnectError (Option (List UInt8)) × Receiver) : Prop :=
  ∀ chunks : List (List UInt8), r.inbound = chunks.map .ok →
    match result with
    | (.ok (some payload), r') => ∃ chunks' : List (List UInt8), r'.inbound = chunks'.map .ok ∧
        Capsule.payloads (r.pending ++ chunks.flatten) =
          (payload :: (Capsule.payloads (r'.pending ++ chunks'.flatten)).1,
            (Capsule.payloads (r'.pending ++ chunks'.flatten)).2)
    | (.ok none, _) => Capsule.payloads (r.pending ++ chunks.flatten) = ([], none)
    | (.error problem, _) => ∃ long, problem = .framing long ∧
        Capsule.payloads (r.pending ++ chunks.flatten) = ([], some long)

lemma recv_call (r : Receiver) : Call r (Receiver.recv.run r) := by
  refine Receiver.recv.run_rule Call ?_ ?_ r
  · intro r result h chunks hin
    change r.round = .inr result at h
    unfold Receiver.round at h
    split at h
    · next problem pending ht =>
      cases h
      have hlong := Capsule.takeCapsule_append_error ht chunks.flatten
      exact ⟨problem, rfl, by rw [Capsule.payloads_fail hlong]⟩
    · next payload pending ht =>
      cases h
      have hwhole := Capsule.takeCapsule_append ht chunks.flatten
      exact ⟨chunks, hin, by rw [Capsule.payloads_whole hwhole]; rfl⟩
    · cases h
    · next pending ht =>
      obtain rfl := Capsule.takeCapsule_more ht
      obtain _ | ⟨chunk, chunks⟩ := chunks
      · rw [hin] at h
        cases h
        change Capsule.payloads (r.pending ++ []) = _
        rw [List.append_nil, Capsule.payloads_more ht]
      · rw [hin] at h
        cases h
  · intro r r' result h ih chunks hin
    change r.round = .inl r' at h
    unfold Receiver.round at h
    split at h
    · cases h
    · cases h
    · next pending ht =>
      cases h
      have hwhole := Capsule.takeCapsule_append ht chunks.flatten
      have hsame : Capsule.payloads (r.pending ++ chunks.flatten) =
          Capsule.payloads (pending ++ chunks.flatten) := by
        rw [Capsule.payloads_whole hwhole]
        rfl
      have hcall := ih chunks hin
      simp only [← hsame] at hcall
      exact hcall
    · next pending ht =>
      obtain rfl := Capsule.takeCapsule_more ht
      obtain _ | ⟨chunk, chunks⟩ := chunks
      · rw [hin] at h
        cases h
      · rw [hin] at h
        cases h
        have hcall := ih chunks rfl
        simp only [List.append_assoc] at hcall
        exact hcall

/-- The packets received until the stream ends or fails. -/
def received : Source Receiver (List UInt8) (Option ConnectError) where
  pull r :=
    match Receiver.recv.run r with
    | (.ok (some payload), r') => .inl (payload, r')
    | (.ok none, _) => .inr none
    | (.error problem, _) => .inr (some problem)
  size := Receiver.size
  lowers {r payload r'} h := by
    have hsize := Receiver.recv.run_rule
      (fun r result => ∀ payload r', result = (.ok (some payload), r') → r'.size < r.size) ?_ ?_ r
    · split at h
      · next hr => cases h; exact hsize _ _ hr
      · cases h
      · cases h
    · intro r result hr payload r' hres
      subst hres
      change r.round = _ at hr
      unfold Receiver.round at hr
      split at hr
      · cases hr
      · next ht =>
        cases hr
        have hlt := Capsule.takeCapsule_shrinks ht
        simp only [Receiver.size]
        omega
      · cases hr
      · split at hr <;> cases hr
    · intro r r' result hr ih payload r'' hres
      exact lt_trans (ih payload r'' hres) (Receiver.recv.lowers hr)

lemma received_from (r : Receiver) (chunks : List (List UInt8)) (hin : r.inbound = chunks.map .ok) :
    received.all r = ((Capsule.payloads (r.pending ++ chunks.flatten)).1,
      (Capsule.payloads (r.pending ++ chunks.flatten)).2.map ConnectError.framing) := by
  refine received.all_rule (fun r payloads t => ∀ chunks : List (List UInt8),
    r.inbound = chunks.map .ok → (payloads, t) =
      ((Capsule.payloads (r.pending ++ chunks.flatten)).1,
        (Capsule.payloads (r.pending ++ chunks.flatten)).2.map ConnectError.framing)) ?_ ?_ r chunks
      hin
  · intro r t hpull chunks hin
    have hcall := recv_call r chunks hin
    simp only [received] at hpull
    split at hpull
    · cases hpull
    · next hr =>
      cases hpull
      rw [hr] at hcall
      simp only at hcall
      rw [hcall]
      rfl
    · next hr =>
      cases hpull
      rw [hr] at hcall
      obtain ⟨long, rfl, hlong⟩ := hcall
      rw [hlong]
      rfl
  · intro r payload r' payloads t hpull ih chunks hin
    have hcall := recv_call r chunks hin
    simp only [received] at hpull
    split at hpull
    · next hr =>
      cases hpull
      rw [hr] at hcall
      obtain ⟨chunks', hin', hall⟩ := hcall
      have hrest := ih chunks' hin'
      rw [Prod.mk.injEq] at hrest
      rw [hall, hrest.1, hrest.2]
    · cases hpull
    · cases hpull

/-- **A stream of capsules cut anywhere is the stream uncut**: the packets of the receive loop and
the problem it ends in are those of one pass over the whole stream, what is written comes back
whatever else is put between, a call that takes nothing touches nothing, and a buffer waiting for
more holds less than a header and the longest capsule. -/
theorem feed_payloads :
    (∀ chunks : List (List UInt8),
      ((Capsule.pending.feed [] chunks).1.filterMap id, (Capsule.pending.feed [] chunks).2.1) =
        Capsule.payloads chunks.flatten ∧
      received.all ⟨chunks.map .ok, []⟩ = ((Capsule.payloads chunks.flatten).1,
        (Capsule.payloads chunks.flatten).2.map ConnectError.framing)) ∧
    (∀ stream written, Capsule.Written stream written → ∀ rest,
      Capsule.payloads (stream ++ rest) =
        (written ++ (Capsule.payloads rest).1, (Capsule.payloads rest).2)) ∧
    (∀ buf rest, Capsule.takeCapsule buf = (.ok none, rest) → rest = buf) ∧
    (∀ buf rest problem, Capsule.takeCapsule buf = (.error problem, rest) → rest = buf) ∧
    ∀ chunks, chunks ≠ [] → (Capsule.pending.feed [] chunks).2.1 = none →
      (Capsule.pending.feed [] chunks).2.2.length < 16 + Capsule.MAX_CAPSULE := by
  refine ⟨fun chunks => ⟨?_, ?_⟩, fun stream written h rest => h.payloads_append rest,
    fun buf rest h => Capsule.takeCapsule_more h, fun buf rest problem h => Capsule.takeCapsule_error h,
    fun chunks hne hnone => ?_⟩
  · have hfeed := Capsule.pending_follows.feed chunks
    rw [show Capsule.pending.start = [] from rfl, List.nil_append] at hfeed
    rw [Capsule.payloads, ← hfeed]
  · exact received_from ⟨chunks.map .ok, []⟩ chunks rfl
  · obtain ⟨before, h⟩ := Capsule.pending.feed_ends chunks hne [] hnone
    exact Capsule.takeCapsule_more_length h

/-- A drain that ends in a capsule too long keeps all that had arrived behind it. -/
theorem capsule_too_long_keeps :
    16 + Capsule.MAX_CAPSULE ≤ (Capsule.pending.feed []
      [Varint.put Capsule.DATAGRAM ++ Varint.put 65536 ++ List.replicate 65546 0]).2.2.length := by
  have hkind : Varint.Encodes (Varint.put Capsule.DATAGRAM) Capsule.DATAGRAM :=
    Varint.put_encodes (by decide)
  have hlong : Varint.Encodes (Varint.put 65536) 65536 := Varint.put_encodes (by decide)
  have hh := Varint.header_of_encodes hkind hlong (List.replicate 65546 0)
  generalize hstream : Varint.put Capsule.DATAGRAM ++ Varint.put 65536 ++ List.replicate 65546 0 =
    stream at hh ⊢
  have hlen : stream.length = 5 + 65546 := by
    rw [← hstream, List.length_append, List.length_append, List.length_replicate,
      Varint.length_put, Varint.length_put]
    rfl
  have hnext : Capsule.pending.next stream = (.error ⟨65536⟩, stream) := by
    change Capsule.takeCapsule stream = _
    rw [Capsule.takeCapsule_eq, hh]
    rfl
  have hextend : Capsule.pending.extend [] stream = stream := rfl
  rw [Reader.feed, hextend, Reader.drain_fail hnext]
  simp only [hlen]
  decide

end Masqr.Transport.Tcp
