import Mathlib
import Masqr.Headers
import Masqr.Transport.Carriers

/-!
Room on the HTTP/2 stream: a run of packets waits until the whole of it fits.

What the library grants is never more than the windows leave open, and the windows open again only
for what was sent. So a run that is longer than the smaller of them waits for room that will never
come, and one that is not waits only for what is in flight.
-/

namespace Masqr.Transport.Tcp

open Masqr.Lib

/-- How many packets are taken from the queue and written as one run. -/
def BATCH : ℕ := 32

/-- The adapter's MTU, as the command line accepts it. -/
def mtuAccepted (mtu : ℕ) : Prop := 1280 ≤ mtu ∧ mtu ≤ 9000

/-- What the endpoint announced, for the stream and for the connection. -/
structure Windows where
  stream : ℕ
  connection : ℕ

/-- What may be in flight at once. -/
def Windows.room (w : Windows) : ℕ := min w.stream w.connection

/-- The library's side of flow control: the capacity a stream has where so much is reserved and so
much of the windows is open. It does not exceed what is open, and covers what is reserved where that
is open. -/
structure Http2 where
  capacity : ℕ → ℕ → ℕ
  le_open : ∀ reserved room, capacity reserved room ≤ room
  enough : ∀ reserved room, reserved ≤ room → reserved ≤ capacity reserved room

/-- The half that carries packets out, the run that waits for capacity, how much of the stream is in
flight, and the runs written. -/
structure Outbound where
  sender : Sender
  waiting : Option (List UInt8)
  inFlight : ℕ
  written : List (List UInt8)

inductive Outbound.Event
  | send (packets : List (List UInt8))
  | pollCapacity
  | reopen (bytes : ℕ)

namespace Outbound

def init : Outbound := ⟨⟨[]⟩, none, 0, []⟩

variable (h2 : Http2) (w : Windows)

/-- The capacity of the stream while a run of that length waits. -/
def capacity (s : Outbound) (reserved : ℕ) : ℕ := h2.capacity reserved (w.room - s.inFlight)

/-- One step: a run is put together, the one that waits is written where it fits, or the windows
open for some of what was sent. -/
def step (s : Outbound) : Event → Outbound
  | .send packets =>
    match s.waiting with
    | some _ => s
    | none =>
      let staged := (stage s.sender.staging packets).1
      if staged.isEmpty then { s with sender := ⟨staged⟩ }
      else { s with sender := ⟨[]⟩, waiting := some staged }
  | .pollCapacity =>
    match s.waiting with
    | none => s
    | some frame =>
      if s.capacity h2 w frame.length < frame.length then s
      else
        { s with
          waiting := none
          inFlight := s.inFlight + frame.length
          written := s.written ++ [frame] }
  | .reopen bytes => { s with inFlight := s.inFlight - bytes }

def run (s : Outbound) (events : List Event) : Outbound := events.foldl (step h2 w) s

/-- A run waits for capacity. -/
def Waits (s : Outbound) : Prop :=
  ∃ frame, s.waiting = some frame ∧ s.capacity h2 w frame.length < frame.length

/-- A run waits with the windows fully open and nothing in flight. -/
def Stalled (s : Outbound) : Prop := s.Waits h2 w ∧ s.inFlight = 0

/-- The runs are those the engine hands over: a batch at the most, of packets of at most the MTU. -/
def Within (mtu : ℕ) (events : List Event) : Prop := ∀ packets, .send packets ∈ events →
  1 ≤ packets.length ∧ packets.length ≤ BATCH ∧ ∀ packet ∈ packets, packet.length ≤ mtu

@[simp] lemma run_nil (s : Outbound) : run h2 w s [] = s := rfl

lemma run_cons (s : Outbound) (event : Event) (events : List Event) :
    run h2 w s (event :: events) = run h2 w (step h2 w s event) events := rfl

end Outbound

/-! ### How long a run is -/

/-- The bytes of a packet as a capsule. -/
def framed (packet : List UInt8) : ℕ := 1 + Varint.len packet.length + packet.length

lemma length_encodeDatagramInto (out payload : List UInt8) :
    (Capsule.encodeDatagramInto out payload).length = out.length + framed payload := by
  have hkind : (Varint.put Capsule.DATAGRAM).length = 1 := rfl
  simp only [Capsule.encodeDatagramInto, List.length_append, hkind, Varint.length_put, framed]
  omega

lemma length_stage (staging : List UInt8) (packets : List (List UInt8)) :
    (stage staging packets).1.length = staging.length + ((forwarded packets).map framed).sum := by
  induction packets generalizing staging with
  | nil => rfl
  | cons packet packets ih =>
    obtain ⟨⟨good, packet'⟩, hdec⟩ : ∃ out, decrementHopLimit packet = out := ⟨_, rfl⟩
    cases good with
    | true =>
      rw [forwarded_cons_true hdec, List.map_cons, List.sum_cons]
      simp only [stage, hdec, ih, length_encodeDatagramInto]
      omega
    | false =>
      rw [forwarded_cons_false hdec]
      simp only [stage, hdec, ih]

/-- A packet of at most the MTU takes three bytes more than the MTU at the most. -/
lemma framed_le {mtu : ℕ} (hmtu : mtuAccepted mtu) {packet : List UInt8} (h : packet.length ≤ mtu) :
    framed packet ≤ mtu + 3 := by
  obtain ⟨-, hmax⟩ := hmtu
  unfold framed Varint.len
  split_ifs <;> omega

lemma forwarded_length_le (packets : List (List UInt8)) :
    (forwarded packets).length ≤ packets.length := List.length_filterMap_le _ _

lemma mem_forwarded {packets : List (List UInt8)} {packet' : List UInt8}
    (h : packet' ∈ forwarded packets) : ∃ packet ∈ packets, packet'.length = packet.length := by
  obtain ⟨packet, hpacket, hsome⟩ := List.mem_filterMap.1 h
  refine ⟨packet, hpacket, ?_⟩
  split_ifs at hsome
  rw [← Option.some.inj hsome, length_decrementHopLimit]

/-- A run of so many packets of at most the MTU. -/
lemma length_stage_le {mtu : ℕ} (hmtu : mtuAccepted mtu) {packets : List (List UInt8)}
    (hlen : packets.length ≤ BATCH) (hpackets : ∀ packet ∈ packets, packet.length ≤ mtu) :
    (stage [] packets).1.length ≤ BATCH * (mtu + 3) := by
  have hsum : ((forwarded packets).map framed).sum ≤
      ((forwarded packets).map framed).length • (mtu + 3) := by
    refine List.sum_le_card_nsmul _ _ fun n hn => ?_
    obtain ⟨packet', hpacket', rfl⟩ := List.mem_map.1 hn
    obtain ⟨packet, hpacket, hsame⟩ := mem_forwarded hpacket'
    exact framed_le hmtu (hsame ▸ hpackets packet hpacket)
  have hcount := (forwarded_length_le packets).trans hlen
  calc (stage [] packets).1.length = ((forwarded packets).map framed).sum := by
        rw [length_stage, List.length_nil, Nat.zero_add]
    _ ≤ (forwarded packets).length * (mtu + 3) := by
        rw [List.length_map, smul_eq_mul] at hsum
        exact hsum
    _ ≤ BATCH * (mtu + 3) := Nat.mul_le_mul_right _ hcount

/-- A packet of IPv4 of a length, with hops left. -/
def fullPacket (length : ℕ) : List UInt8 :=
  0x45 :: 0 :: 0 :: 0 :: 0 :: 0 :: 0 :: 0 :: 64 :: List.replicate (length - 9) 0

lemma length_fullPacket {length : ℕ} (h : 9 ≤ length) : (fullPacket length).length = length := by
  simp only [fullPacket, List.length_cons, List.length_replicate]
  omega

lemma decrementHopLimit_fullPacket {length : ℕ} (h : 20 ≤ length) :
    (decrementHopLimit (fullPacket length)).1 = true := by
  have hlen := length_fullPacket (show 9 ≤ length by omega)
  have hversion : Queue.version (fullPacket length) = some 4 := rfl
  have hheader : Queue.headerLen (fullPacket length) = 20 := by
    change ((0x45 : UInt8) &&& 0x0f).toNat * 4 = 20
    decide
  have hhops : ¬Queue.byte (fullPacket length) 8 ≤ 1 := by
    change ¬(64 : UInt8) ≤ 1
    decide
  rw [Headers.decrementHopLimit_eq, if_pos hversion, hheader, hlen, if_neg]
  rintro (hbad | hbad | hbad)
  · omega
  · omega
  · exact hhops hbad

lemma length_stage_full {length : ℕ} (hlong : 64 ≤ length) (hshort : length < 16384) (count : ℕ) :
    (stage [] (List.replicate count (fullPacket length))).1.length = count * (length + 3) := by
  have hgood := decrementHopLimit_fullPacket (show 20 ≤ length by omega)
  have hsame := length_decrementHopLimit (fullPacket length)
  rw [length_fullPacket (by omega)] at hsame
  have hframed : framed (decrementHopLimit (fullPacket length)).2 = length + 3 := by
    rw [framed, hsame, Varint.len, if_neg (by omega), if_pos hshort]
    omega
  have hall : forwarded (List.replicate count (fullPacket length)) =
      List.replicate count (decrementHopLimit (fullPacket length)).2 := by
    rw [forwarded, List.filterMap_replicate]
    simp only [hgood, if_true]
  rw [length_stage, hall, List.map_replicate, hframed, List.sum_replicate, smul_eq_mul,
    List.length_nil, Nat.zero_add]

/-! ### What waits -/

namespace Outbound

variable {h2 : Http2} {w : Windows} {s : Outbound}

/-- **With nothing in flight a run waits exactly where it is longer than what the windows
allow.** -/
lemma stalled_iff {frame : List UInt8} (hwaiting : s.waiting = some frame)
    (hdrained : s.inFlight = 0) : s.Stalled h2 w ↔ w.room < frame.length := by
  have hcapacity : s.capacity h2 w frame.length = h2.capacity frame.length w.room := by
    rw [capacity, hdrained, Nat.sub_zero]
  constructor
  · rintro ⟨⟨frame', hwaiting', hshort⟩, -⟩
    obtain rfl : frame' = frame := Option.some.inj (hwaiting'.symm.trans hwaiting)
    by_contra hfits
    have henough := h2.enough frame'.length w.room (not_lt.1 hfits)
    omega
  · intro hlong
    have hle := h2.le_open frame.length w.room
    exact ⟨⟨frame, hwaiting, by omega⟩, hdrained⟩

/-- The run that waits is one of those handed over, and what is staged is nothing. -/
structure Fair (room : ℕ) (s : Outbound) : Prop where
  staging : s.sender.staging = []
  fits : ∀ frame, s.waiting = some frame → frame.length ≤ room

lemma fair_init (room : ℕ) : Fair room init := ⟨rfl, fun _ h => by cases h⟩

lemma Fair.step {room : ℕ} (h : Fair room s) {event : Event}
    (hfits : ∀ packets, event = .send packets → (stage [] packets).1.length ≤ room) :
    Fair room (step h2 w s event) := by
  cases event with
  | send packets =>
    have hlen := hfits packets rfl
    cases hwaiting : s.waiting with
    | some frame =>
      simp only [Outbound.step, hwaiting]
      exact h
    | none =>
      simp only [Outbound.step, hwaiting, h.staging]
      split_ifs with hempty
      · exact ⟨List.isEmpty_iff.1 hempty, fun frame hframe => by cases hframe⟩
      · refine ⟨rfl, fun frame hframe => ?_⟩
        obtain rfl := Option.some.inj hframe
        exact hlen
  | pollCapacity =>
    cases hwaiting : s.waiting with
    | none =>
      simp only [Outbound.step, hwaiting]
      exact h
    | some frame =>
      simp only [Outbound.step, hwaiting]
      split_ifs
      · exact h
      · exact ⟨h.staging, fun frame' hframe => by cases hframe⟩
  | reopen bytes => exact ⟨h.staging, h.fits⟩

lemma Fair.run {room : ℕ} (h : Fair room s) {events : List Event}
    (hfits : ∀ packets, .send packets ∈ events → (stage [] packets).1.length ≤ room) :
    Fair room (run h2 w s events) := by
  induction events generalizing s with
  | nil => exact h
  | cons event events ih =>
    refine ih (h.step fun packets heq => ?_) fun packets hmem => ?_
    · exact hfits packets (heq ▸ List.mem_cons_self)
    · exact hfits packets (List.mem_cons_of_mem _ hmem)

/-- A run whose frames fit the windows never stalls. -/
lemma Fair.not_stalled (h : Fair w.room s) : ¬s.Stalled h2 w := by
  intro hstalled
  obtain ⟨⟨frame, hwaiting, -⟩, hdrained⟩ := id hstalled
  have hlong := (stalled_iff hwaiting hdrained).1 hstalled
  have hfits := h.fits frame hwaiting
  omega

lemma step_send {packets : List (List UInt8)} (hne : (stage [] packets).1 ≠ []) :
    step h2 w init (.send packets) = ⟨⟨[]⟩, some (stage [] packets).1, 0, []⟩ := by
  have hempty : (stage [] packets).1.isEmpty = false := by simpa using hne
  simp [Outbound.step, init, hempty]

/-- A first run that is longer than the windows allow stalls at once. -/
lemma stalled_send {packets : List (List UInt8)} (hlong : w.room < (stage [] packets).1.length) :
    (run h2 w init [.send packets]).Stalled h2 w := by
  have hne : (stage [] packets).1 ≠ [] := by
    intro hnil
    rw [hnil, List.length_nil] at hlong
    exact Nat.not_lt_zero _ hlong
  rw [run_cons, run_nil, step_send hne]
  exact (stalled_iff rfl rfl).2 hlong

end Outbound

open Outbound

/-- **When a run waits for room that will never come.** With an MTU the command line accepts, no run
of batches the engine may hand over stalls exactly where a whole batch of packets of the MTU, each
with its capsule header, fits the smaller of the two windows. Batch by batch: a run that waits is
stalled, once all that is in flight has been let go of, exactly where it is longer than that, and
where none is, nothing stalls. -/
theorem send_stalls_iff (h2 : Http2) (w : Windows) {mtu : ℕ} (hmtu : mtuAccepted mtu) :
    ((∀ events, Within mtu events → ¬(run h2 w init events).Stalled h2 w) ↔
      BATCH * (mtu + 3) ≤ w.room) ∧
    (∀ events, (∀ packets, .send packets ∈ events → (stage [] packets).1.length ≤ w.room) →
      ¬(run h2 w init events).Stalled h2 w) ∧
    ∀ events frame, (run h2 w init events).waiting = some frame →
      ({ run h2 w init events with inFlight := 0 }.Stalled h2 w ↔ w.room < frame.length) := by
  have hfits : ∀ events, (∀ packets, .send packets ∈ events →
      (stage [] packets).1.length ≤ w.room) → ¬(run h2 w init events).Stalled h2 w :=
    fun events h => ((fair_init w.room).run h).not_stalled
  refine ⟨⟨fun hnever => ?_, fun hroom events hwithin => hfits events fun packets hmem => ?_⟩,
    hfits, fun events frame hwaiting => stalled_iff hwaiting rfl⟩
  · by_contra hshort
    obtain ⟨hmin, hmax⟩ := id hmtu
    have hlen := length_stage_full (show 64 ≤ mtu by omega) (by omega) BATCH
    refine hnever [.send (List.replicate BATCH (fullPacket mtu))] ?_
      (stalled_send (by rw [hlen]; omega))
    intro packets hmem
    cases List.mem_singleton.1 hmem
    refine ⟨by rw [List.length_replicate]; decide, by rw [List.length_replicate],
      fun packet hp => ?_⟩
    rw [List.eq_of_mem_replicate hp, length_fullPacket (by omega)]
  · obtain ⟨-, hlen, hpackets⟩ := hwithin packets hmem
    exact (length_stage_le hmtu hlen hpackets).trans hroom

/-- The library as it is: the capacity is what was reserved, as far as it is open. -/
def eager : Http2 := ⟨min, fun _ _ => min_le_right _ _, fun _ _ h => le_min le_rfl h⟩

/-- With HTTP/2's initial windows and the largest MTU, eight whole packets wait for ever. -/
theorem jumbo_batch_stalls :
    ¬∀ (h2 : Http2) (w : Windows), 65535 ≤ w.stream → 65535 ≤ w.connection →
      ∀ mtu, mtuAccepted mtu → ∀ events, Within mtu events →
        ¬(run h2 w init events).Stalled h2 w := by
  intro hclaim
  have hlen := length_stage_full (show 64 ≤ 9000 by omega) (by omega) 8
  have hroom : (Windows.mk 65535 65535).room = 65535 := rfl
  refine hclaim eager ⟨65535, 65535⟩ le_rfl le_rfl 9000 ⟨by omega, le_rfl⟩
    [.send (List.replicate 8 (fullPacket 9000))] ?_ (stalled_send (by rw [hlen, hroom]; omega))
  intro packets hmem
  cases List.mem_singleton.1 hmem
  refine ⟨by rw [List.length_replicate]; omega, by rw [List.length_replicate]; decide,
    fun packet hp => ?_⟩
  rw [List.eq_of_mem_replicate hp, length_fullPacket (by omega)]

/-- With the MTU as it comes, and HTTP/2's initial windows, nothing stalls. -/
theorem send_stalls_iff_default :
    mtuAccepted 1280 ∧ ∀ events, Within 1280 events →
      ¬(run eager ⟨65535, 65535⟩ init events).Stalled eager ⟨65535, 65535⟩ :=
  have hmtu : mtuAccepted 1280 := ⟨le_rfl, by omega⟩
  ⟨hmtu, ((send_stalls_iff eager ⟨65535, 65535⟩ hmtu).1).2 (by decide)⟩

end Masqr.Transport.Tcp
