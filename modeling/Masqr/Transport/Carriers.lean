import Mathlib
import Masqr.Transport.Quic
import Masqr.Transport.Tcp

/-!
The two carriers side by side: the same packets go out over either.
-/

namespace Masqr.Transport

/-- What a sender hands its bytes to. -/
structure Network where
  sendData : List UInt8 → Except ConnectError Unit
  connection : Quic.Connection

/-- The half of a tunnel that carries packets out. -/
inductive TunnelSender
  | h2 (sender : Tcp.Sender)
  | h3 (sender : Quic.Sender)

/-- What became of a run of packets: how the call ended, the sender and the packets as it left
them, and what was handed to the network. -/
structure Sent where
  result : Except ConnectError Unit
  sender : TunnelSender
  packets : List (List UInt8)
  handed : List (List UInt8)

/-- Send a run of packets in the order given. -/
def TunnelSender.send (sender : TunnelSender) (network : Network) (packets : List (List UInt8)) :
    Sent :=
  match sender with
  | .h2 sender =>
    let sent := sender.send network.sendData packets
    ⟨sent.result, .h2 sent.sender, sent.packets, sent.written⟩
  | .h3 sender =>
    let sent := sender.send network.connection packets
    ⟨sent.result, .h3 sender, sent.packets, sent.datagrams⟩

/-- The packets that have a hop left, one hop less. -/
def forwarded (packets : List (List UInt8)) : List (List UInt8) :=
  packets.filterMap fun packet =>
    if (decrementHopLimit packet).1 then some (decrementHopLimit packet).2 else none

lemma forwarded_cons_true {packet packet' : List UInt8}
    (h : decrementHopLimit packet = (true, packet')) (packets : List (List UInt8)) :
    forwarded (packet :: packets) = packet' :: forwarded packets := by
  rw [forwarded, List.filterMap_cons, h]
  rfl

lemma forwarded_cons_false {packet packet' : List UInt8}
    (h : decrementHopLimit packet = (false, packet')) (packets : List (List UInt8)) :
    forwarded (packet :: packets) = forwarded packets := by
  rw [forwarded, List.filterMap_cons, h]
  rfl

/-! ### HTTP/2 -/

lemma stage_written (packets : List (List UInt8)) {staging : List UInt8}
    {payloads : List (List UInt8)} (hstaging : Capsule.Written staging payloads)
    (hlen : ∀ packet ∈ packets, packet.length ≤ Capsule.MAX_CAPSULE) :
    Capsule.Written (Tcp.stage staging packets).1 (payloads ++ forwarded packets) := by
  induction packets generalizing staging payloads with
  | nil =>
    have hnil : forwarded [] = [] := rfl
    rw [hnil, List.append_nil]
    exact hstaging
  | cons packet packets ih =>
    have hrest : ∀ p ∈ packets, p.length ≤ Capsule.MAX_CAPSULE :=
      fun p hp => hlen p (List.mem_cons_of_mem _ hp)
    obtain ⟨⟨good, packet'⟩, hdec⟩ : ∃ out, decrementHopLimit packet = out := ⟨_, rfl⟩
    have hlen' : packet'.length ≤ Capsule.MAX_CAPSULE := by
      have hsame := length_decrementHopLimit packet
      rw [hdec] at hsame
      rw [hsame]
      exact hlen packet (List.mem_cons_self ..)
    cases good with
    | true =>
      have hnext := ih (hstaging.datagram hlen') hrest
      rw [forwarded_cons_true hdec]
      simp only [Tcp.stage, hdec]
      simpa using hnext
    | false =>
      rw [forwarded_cons_false hdec]
      simp only [Tcp.stage, hdec]
      exact ih hstaging hrest

/-- A run that is empty carries nothing. -/
lemma written_payloads {stream : List UInt8} {payloads : List (List UInt8)}
    (h : Capsule.Written stream payloads) : Capsule.payloads stream = (payloads, none) := by
  have hall := h.payloads_append []
  have hnil : Capsule.payloads [] = ([], none) := @Capsule.payloads_more [] [] rfl
  rw [List.append_nil, hnil, List.append_nil] at hall
  exact hall

variable {network : Network}

lemma send_h2 (hdata : ∀ run, network.sendData run = .ok ()) (packets : List (List UInt8)) :
    ((TunnelSender.h2 ⟨[]⟩).send network packets).result = .ok () ∧
    ((TunnelSender.h2 ⟨[]⟩).send network packets).sender = .h2 ⟨[]⟩ ∧
    ((TunnelSender.h2 ⟨[]⟩).send network packets).handed.length ≤ 1 ∧
    ((TunnelSender.h2 ⟨[]⟩).send network packets).handed.flatten = (Tcp.stage [] packets).1 := by
  simp only [TunnelSender.send, Tcp.Sender.send, hdata]
  split
  · next hempty =>
    rw [List.isEmpty_iff] at hempty
    exact ⟨rfl, by rw [hempty], Nat.zero_le _, by rw [hempty]; rfl⟩
  · exact ⟨rfl, rfl, le_rfl, by simp⟩

/-! ### HTTP/3 -/

lemma send_h3 (hquic : ∀ n datagram, network.connection.sendDatagramWait n datagram = .ok ())
    (sender : Quic.Sender) (packets : List (List UInt8)) (n : ℕ) :
    (sender.sendAfter network.connection n packets).result = .ok () ∧
    (sender.sendAfter network.connection n packets).datagrams =
      (forwarded packets).map (Http3.datagram sender.streamId) := by
  induction packets generalizing n with
  | nil => exact ⟨rfl, rfl⟩
  | cons packet packets ih =>
    obtain ⟨⟨good, packet'⟩, hdec⟩ : ∃ out, decrementHopLimit packet = out := ⟨_, rfl⟩
    cases good with
    | true =>
      rw [forwarded_cons_true hdec]
      simp only [Quic.Sender.sendAfter, hdec, hquic]
      exact ⟨(ih (n + 1)).1, by rw [(ih (n + 1)).2, List.map_cons]⟩
    | false =>
      rw [forwarded_cons_false hdec]
      simp only [Quic.Sender.sendAfter, hdec]
      exact ih n

lemma datagrams_read {streamId : ℕ} (h : streamId < 2 ^ 62) (packets : List (List UInt8)) :
    (packets.map (Http3.datagram streamId)).filterMap (Http3.datagramPacket · streamId) =
      packets := by
  induction packets with
  | nil => rfl
  | cons packet packets ih =>
    have hread := Http3.datagramPacket_datagram h streamId packet
    rw [if_neg (by simp)] at hread
    rw [List.map_cons, List.filterMap_cons, hread, ih]

/-- **The two carriers carry the same packets**: those that have a hop left, in order and one hop
less, read back out of the one run of capsules or out of the datagrams. A datagram is longer than
its packet by the overhead of its stream, and no packet of another stream or in another context. -/
theorem carriers_agree (hdata : ∀ run, network.sendData run = .ok ())
    (hquic : ∀ n datagram, network.connection.sendDatagramWait n datagram = .ok ())
    (packets : List (List UInt8)) (hlen : ∀ packet ∈ packets, packet.length ≤ 65535)
    (streamId : ℕ) (hfour : streamId % 4 = 0) (hbound : streamId < 2 ^ 62)
    (ended : Option Quic.Ended) :
    let h2 := (TunnelSender.h2 ⟨[]⟩).send network packets
    let h3 := (TunnelSender.h3 ⟨streamId, ended⟩).send network packets
    h2.result = .ok () ∧ h3.result = .ok () ∧ h2.sender = .h2 ⟨[]⟩ ∧ h2.handed.length ≤ 1 ∧
    Capsule.payloads h2.handed.flatten = (forwarded packets, none) ∧
    h3.handed.filterMap (Http3.datagramPacket · streamId) = forwarded packets ∧
    List.Forall₂ (fun datagram packet =>
      datagram.length = packet.length + Http3.datagramOverhead streamId) h3.handed
      (forwarded packets) ∧
    (∀ datagram ∈ h3.handed, ∀ other, other % 4 = 0 → other ≠ streamId →
      Http3.datagramPacket datagram other = none) ∧
    ∀ datagram quarter used context contextLen, Varint.get datagram = some (quarter, used) →
      Varint.get (datagram.drop used) = some (context, contextLen) → context ≠ 0 →
      ∀ stream, Http3.datagramPacket datagram stream = none := by
  obtain ⟨hresult, hsender, hone, hrun⟩ := send_h2 hdata packets
  obtain ⟨hresult', hdatagrams⟩ := send_h3 hquic ⟨streamId, ended⟩ packets 0
  refine ⟨hresult, hresult', hsender, hone, ?_, ?_, ?_, ?_, ?_⟩
  · have hwritten := stage_written packets Capsule.Written.nil hlen
    rw [hrun]
    exact written_payloads hwritten
  · change (Quic.Sender.sendAfter _ _ 0 packets).datagrams.filterMap _ = _
    rw [hdatagrams]
    exact datagrams_read hbound _
  · change List.Forall₂ _ (Quic.Sender.sendAfter _ _ 0 packets).datagrams _
    rw [hdatagrams, List.forall₂_map_left_iff, List.forall₂_same]
    exact fun packet _ => Http3.length_datagram streamId packet
  · intro datagram hmem other hfour' hne
    change datagram ∈ (Quic.Sender.sendAfter _ _ 0 packets).datagrams at hmem
    rw [hdatagrams] at hmem
    obtain ⟨packet, -, rfl⟩ := List.mem_map.1 hmem
    rw [Http3.datagramPacket_datagram hbound, if_pos]
    intro hquarter
    omega
  · intro datagram quarter used context contextLen hq hc hne stream
    exact Http3.datagramPacket_context hq hc hne stream

/-- A packet with hops left goes over both, and one with its last hop over neither. -/
theorem carriers_agree_two :
    Capsule.payloads ((TunnelSender.h2 ⟨[]⟩).send
      ⟨fun _ => .ok (), ⟨fun _ _ => .ok (), none⟩⟩
      [0x60 :: List.replicate 6 0 ++ 64 :: List.replicate 32 0,
        0x60 :: List.replicate 6 0 ++ 1 :: List.replicate 32 0]).handed.flatten =
      ([0x60 :: List.replicate 6 0 ++ 63 :: List.replicate 32 0], none) :=
  (carriers_agree (fun _ => rfl) (fun _ _ => rfl) _ (by decide) 4 (by decide) (by decide)
    none).2.2.2.2.1

end Masqr.Transport
