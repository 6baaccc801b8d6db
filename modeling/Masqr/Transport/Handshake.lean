import Mathlib
import Masqr.Lib.Occurs
import Masqr.Lib.Run
import Masqr.Time
import Masqr.Transport.Carrier

/-!
The socket a ClientHello is written to: the first write cut inside the name, and the rest of it
held back.
-/

namespace Masqr.Transport

open Masqr.Lib

/-- The name in the ClientHello. -/
def CONNECT_SNI : List UInt8 :=
  "consumer-masque.cloudflareclient.com".toList.map fun c => UInt8.ofNat c.toNat

/-- How long the second half of a split ClientHello is held back. -/
def SPLIT_DELAY : Duration := .millis 40

/-- What the socket does when it is asked to write: nothing yet, an error, or it takes what it is
offered, no more than so many bytes and one. -/
inductive Reaction
  | pending
  | fails
  | takes (more : ℕ)

/-- What a call to write comes back with. -/
inductive Answer
  | pending
  | failed
  | ready (written : ℕ)

def Answer.written : Answer → ℕ
  | ready written => written
  | _ => 0

/-- The socket underneath: whether it writes several buffers in one call, and what it was given,
write by write. -/
structure Socket where
  vectored : Bool
  writes : List (Instant × List UInt8)

namespace Socket

def pollWrite (s : Socket) (now : Instant) (buf : List UInt8) : Reaction → Answer × Socket
  | .pending => (.pending, s)
  | .fails => (.failed, s)
  | .takes more =>
    (.ready (min (more + 1) buf.length),
      { s with writes := s.writes ++ [(now, buf.take (more + 1))] })

def pollWriteVectored (s : Socket) (now : Instant) (bufs : List (List UInt8)) (r : Reaction) :
    Answer × Socket :=
  s.pollWrite now bufs.flatten r

end Socket

inductive SplitState
  /-- Nothing written yet. -/
  | waiting
  /-- The first segment is out, and the rest is held until then. -/
  | holding (due : Instant)
  /-- Every later write is ordinary. -/
  | through
  deriving DecidableEq

/-- Where to cut the first write, and how long to wait before the rest of it. -/
structure SplitPlan where
  needle : List UInt8
  delay : Option Duration
  state : SplitState

structure HandshakeStream where
  inner : Socket
  plan : Option SplitPlan

/-- Where to stop the first write so that the name straddles the boundary: the middle of the name,
or of the buffer where there is no name in it. -/
def cutPoint (buffer needle : List UInt8) : Option ℕ :=
  let middle :=
    match (windows needle.length buffer).findIdx? (· == needle) with
    | some start => start + needle.length / 2
    | none => buffer.length / 2
  if 0 < middle ∧ middle < buffer.length then some middle else none

namespace HandshakeStream

/-- Wrap a socket with the plan the strategy calls for. -/
def wrapping (inner : Socket) : Handshake → HandshakeStream
  | .split => ⟨inner, some ⟨CONNECT_SNI, none, .waiting⟩⟩
  | .splitSlow => ⟨inner, some ⟨CONNECT_SNI, some SPLIT_DELAY, .waiting⟩⟩
  | _ => ⟨inner, none⟩

def isWriteVectored (s : HandshakeStream) : Bool :=
  (match s.plan with
    | none => true
    | some plan => decide (plan.state = .through)) && s.inner.vectored

/-- The socket is asked, and the plan is then this. -/
def forward (s : HandshakeStream) (now : Instant) (plan : Option SplitPlan) (buf : List UInt8)
    (r : Reaction) : Answer × HandshakeStream :=
  let (answer, inner) := s.inner.pollWrite now buf r
  (answer, ⟨inner, plan⟩)

def pollWrite (s : HandshakeStream) (now : Instant) (buf : List UInt8) (r : Reaction) :
    Answer × HandshakeStream :=
  match s.plan with
  | none => s.forward now none buf r
  | some plan =>
    match plan.state with
    | .waiting =>
      match cutPoint buf plan.needle with
      | none => s.forward now (some { plan with state := .through }) buf r
      | some cut =>
        -- a short write: the caller is told how much went, and comes back with the rest
        match s.inner.pollWrite now (buf.take cut) r with
        | (.ready written, inner) =>
          let state :=
            match plan.delay with
            | some delay => .holding (now + delay)
            | none => .through
          (.ready written, ⟨inner, some { plan with state }⟩)
        | (answer, inner) => (answer, ⟨inner, s.plan⟩)
    | .holding due =>
      if now < due then (.pending, s)
      else s.forward now (some { plan with state := .through }) buf r
    | .through => s.forward now s.plan buf r

/-- While a plan is pending, the first buffer that is not empty is written alone. -/
def pollWriteVectored (s : HandshakeStream) (now : Instant) (bufs : List (List UInt8))
    (r : Reaction) : Answer × HandshakeStream :=
  if s.isWriteVectored then
    let (answer, inner) := s.inner.pollWriteVectored now bufs r
    (answer, ⟨inner, s.plan⟩)
  else s.pollWrite now ((bufs.find? fun b => !b.isEmpty).getD []) r

end HandshakeStream

/-! ### A caller that writes all it has -/

/-- What a caller presents: one buffer, or several at once. -/
inductive Offer
  | plain (buf : List UInt8)
  | vectored (bufs : List (List UInt8))

namespace Offer

def bytes : Offer → List UInt8
  | plain buf => buf
  | vectored bufs => bufs.flatten

/-- The first buffer with anything in it. -/
def first : Offer → List UInt8
  | plain buf => buf
  | vectored bufs => (bufs.find? fun b => !b.isEmpty).getD []

end Offer

def HandshakeStream.poll (s : HandshakeStream) (now : Instant) (r : Reaction) :
    Offer → Answer × HandshakeStream
  | .plain buf => s.pollWrite now buf r
  | .vectored bufs => s.pollWriteVectored now bufs r

/-- A caller and the stream it writes to: what it has not written yet, and the time. -/
structure Sending where
  stream : HandshakeStream
  remaining : List UInt8
  now : Instant

inductive Turn
  | wait (span : Duration)
  | poll (offer : Offer) (r : Reaction)

namespace Sending

def start (handshake : Handshake) (vectored : Bool) (data : List UInt8) (now : Instant) : Sending :=
  ⟨.wrapping ⟨vectored, []⟩ handshake, data, now⟩

/-- What the socket was given, write by write. -/
def writes (s : Sending) : List (Instant × List UInt8) := s.stream.inner.writes

/-- All that the socket was given. -/
def written (s : Sending) : List UInt8 := (s.writes.map Prod.snd).flatten

/-- One turn: time passes, or the caller presents what remains. Until something is written, the
first buffer holds the name. -/
def step (s : Sending) : Turn → Option Sending
  | .wait span => some { s with now := s.now + span }
  | .poll offer r =>
    if offer.bytes = s.remaining ∧ (s.writes = [] → CONNECT_SNI <:+: offer.first) then
      let (answer, stream) := s.stream.poll s.now r offer
      some { s with stream, remaining := s.remaining.drop answer.written }
    else none

/-- What a split handshake is for: no write shows the whole name, every byte is written once and in
order, and the slow one leaves the delay after the first write. -/
structure Split (handshake : Handshake) (data : List UInt8) (s : Sending) : Prop where
  hidden : ∀ w ∈ s.writes, ¬CONNECT_SNI <:+: w.2
  whole : s.written ++ s.remaining = data
  held : handshake = .splitSlow → ∀ first rest, s.writes = first :: rest →
    ∀ w ∈ rest, first.1 + SPLIT_DELAY ≤ w.1

end Sending

namespace HandshakeStream

/-- The second half is held back. -/
def Held (s : HandshakeStream) (now : Instant) : Prop :=
  ∃ plan due, s.plan = some plan ∧ plan.state = .holding due ∧ now < due

/-- What the socket is shown of an offer once the first write is out: all of it, or the first buffer
alone. -/
def passed (s : HandshakeStream) (offer : Offer) : List UInt8 :=
  if s.isWriteVectored then offer.bytes else offer.first

/-- The most that goes of an offer then. -/
def room (s : HandshakeStream) (offer : Offer) : Reaction → ℕ
  | .takes more => min (more + 1) (s.passed offer).length
  | _ => 0

end HandshakeStream

/-- The turn does not find the first write out, all of the name still to go, and the socket with
room for everything to the name's end. -/
def Spared (p : ℕ) (s : Sending) : Turn → Prop
  | .wait _ => True
  | .poll offer r =>
    s.writes = [] ∨ s.stream.Held s.now ∨ p < s.written.length ∨
      s.written.length + s.stream.room offer r < p + CONNECT_SNI.length

/-! ### One poll -/

namespace Offer

lemma first_prefix (offer : Offer) : offer.first <+: offer.bytes := by
  cases offer with
  | plain buf => exact List.prefix_rfl
  | vectored bufs =>
    change (bufs.find? fun b => !b.isEmpty).getD [] <+: bufs.flatten
    induction bufs with
    | nil => exact List.prefix_rfl
    | cons buf bufs ih =>
      cases buf with
      | nil => exact ih
      | cons b buf => exact List.prefix_append _ _

end Offer

namespace HandshakeStream

variable {s : HandshakeStream} {now : Instant} {plan : SplitPlan} {offer : Offer} {r : Reaction}

lemma passed_prefix (s : HandshakeStream) (offer : Offer) : s.passed offer <+: offer.bytes := by
  unfold passed
  split_ifs
  · exact List.prefix_rfl
  · exact offer.first_prefix

@[simp] lemma passed_plain (s : HandshakeStream) (buf : List UInt8) :
    s.passed (.plain buf) = buf := by
  unfold passed
  split_ifs <;> rfl

lemma isWriteVectored_eq (hplan : s.plan = some plan) :
    s.isWriteVectored = (decide (plan.state = .through) && s.inner.vectored) := by
  rw [isWriteVectored, hplan]

/-- Until the plan is through, a call with several buffers writes the first. -/
lemma poll_first (hplan : s.plan = some plan) (hstate : plan.state ≠ .through) :
    s.poll now r offer = s.pollWrite now offer.first r := by
  have hsingle : s.isWriteVectored = false := by
    rw [isWriteVectored_eq hplan, decide_eq_false hstate, Bool.false_and]
  cases offer with
  | plain buf => rfl
  | vectored bufs => simp only [poll, pollWriteVectored, hsingle, Offer.first]; rfl

lemma poll_waiting (now : Instant) (r : Reaction) (hplan : s.plan = some plan)
    (hstate : plan.state = .waiting) {cut : ℕ} (hcut : cutPoint offer.first plan.needle = some cut) :
    s.poll now r offer =
      match s.inner.pollWrite now (offer.first.take cut) r with
      | (.ready written, inner) =>
        (.ready written, ⟨inner, some { plan with state :=
          match plan.delay with
          | some delay => .holding (now + delay)
          | none => .through }⟩)
      | (answer, inner) => (answer, ⟨inner, s.plan⟩) := by
  rw [poll_first hplan (by rw [hstate]; decide)]
  simp only [pollWrite, hplan, hstate, hcut]

lemma poll_held (h : s.Held now) : s.poll now r offer = (.pending, s) := by
  obtain ⟨plan, due, hplan, hstate, hearly⟩ := h
  rw [poll_first hplan (by rw [hstate]; nofun)]
  simp only [pollWrite, hplan, hstate, if_pos hearly]

/-- Once the first write is out and nothing is held, the socket is asked. -/
lemma poll_later (hplan : s.plan = some plan) (hstate : plan.state ≠ .waiting)
    (hheld : ¬s.Held now) :
    s.poll now r offer = s.forward now (some { plan with state := .through }) (s.passed offer) r := by
  cases hcase : plan.state with
  | waiting => exact absurd hcase hstate
  | holding due =>
    have hlate : ¬now < due := fun hearly => hheld ⟨plan, due, hplan, hcase, hearly⟩
    have hsingle : s.isWriteVectored = false := by
      rw [isWriteVectored_eq hplan, hcase]
      rfl
    rw [poll_first hplan (by rw [hcase]; nofun)]
    simp only [pollWrite, hplan, hcase, if_neg hlate, passed, hsingle]
    rfl
  | through =>
    have hsame : some { plan with state := .through } = s.plan := by rw [hplan, ← hcase]
    rw [hsame]
    cases offer with
    | plain buf => simp only [poll, pollWrite, hplan, hcase, passed_plain]
    | vectored bufs =>
      cases hvec : s.isWriteVectored with
      | true => simp only [poll, pollWriteVectored, passed, hvec, if_true]; rfl
      | false =>
        simp only [poll, pollWriteVectored, passed, hvec, pollWrite, hplan, hcase]
        rfl

end HandshakeStream

@[simp] lemma length_CONNECT_SNI : CONNECT_SNI.length = 36 := rfl

/-- The first write ends inside the name, wherever it is. -/
lemma cutPoint_once {buffer : List UInt8} {p : ℕ} (h : Once CONNECT_SNI buffer p) :
    cutPoint buffer CONNECT_SNI = some (p + 18) := by
  have hreach := h.reaches
  rw [length_CONNECT_SNI] at hreach
  unfold cutPoint
  rw [h.findIdx?_windows]
  exact if_pos ⟨by simp only [length_CONNECT_SNI]; omega, by simp only [length_CONNECT_SNI]; omega⟩

/-! ### Every turn -/

/-- The delay of the plan a strategy calls for. -/
def Handshake.delay : Handshake → Option Duration
  | .splitSlow => some SPLIT_DELAY
  | _ => none

/-- Where a plan stands, and what was written by then. -/
inductive Phase (delay : Option Duration) (now : Instant) :
    SplitState → List (Instant × List UInt8) → Prop
  | waiting : Phase delay now .waiting []
  | holding {span : Duration} (first : Instant × List UInt8) :
    delay = some span → Phase delay now (.holding (first.1 + span)) [first]
  | through (first : Instant × List UInt8) (rest : List (Instant × List UInt8)) :
    (∀ span, delay = some span → first.1 + span ≤ now ∧ ∀ w ∈ rest, first.1 + span ≤ w.1) →
    Phase delay now .through (first :: rest)

namespace Phase

variable {delay : Option Duration} {now : Instant} {state : SplitState}
  {writes : List (Instant × List UInt8)}

lemma wait (h : Phase delay now state writes) (span : Duration) :
    Phase delay (now + span) state writes := by
  cases h with
  | waiting => exact .waiting
  | holding first hdelay => exact .holding first hdelay
  | through first rest hafter =>
    refine .through first rest fun d hd => ?_
    obtain ⟨hdue, hrest⟩ := hafter d hd
    exact ⟨hdue.trans (Nat.le_add_right _ _), hrest⟩

lemma waiting_iff (h : Phase delay now state writes) : state = .waiting ↔ writes = [] := by
  cases h <;> simp

/-- Once the delay is over, the plan is through, and one more write may follow. -/
lemma later (h : Phase delay now state writes) (hwrites : writes ≠ [])
    (hlate : ∀ due, state = .holding due → due ≤ now) (more : List (Instant × List UInt8))
    (hmore : ∀ w ∈ more, w.1 = now) : Phase delay now .through (writes ++ more) := by
  cases h with
  | waiting => exact absurd rfl hwrites
  | @holding span first hdelay =>
    refine .through first more fun d hd => ?_
    obtain rfl : span = d := Option.some.inj (hdelay.symm.trans hd)
    have hdue := hlate _ rfl
    exact ⟨hdue, fun w hw => by rw [hmore w hw]; exact hdue⟩
  | through first rest hafter =>
    refine .through first (rest ++ more) fun d hd => ?_
    obtain ⟨hdue, hrest⟩ := hafter d hd
    refine ⟨hdue, fun w hw => ?_⟩
    rcases List.mem_append.1 hw with hw | hw
    · exact hrest w hw
    · rw [hmore w hw]
      exact hdue

/-- The slow plan leaves its delay after the first write. -/
lemma held (h : Phase delay now state writes) {span : Duration} (hdelay : delay = some span)
    {first : Instant × List UInt8} {rest : List (Instant × List UInt8)}
    (hwrites : writes = first :: rest) : ∀ w ∈ rest, first.1 + span ≤ w.1 := by
  cases h with
  | waiting => cases hwrites
  | holding first' _ =>
    cases hwrites
    exact fun w hw => absurd hw List.not_mem_nil
  | through first' rest' hafter =>
    cases hwrites
    exact (hafter span hdelay).2

end Phase

namespace Sending

variable {delay : Option Duration} {data : List UInt8} {p : ℕ} {s s' : Sending}

/-- What holds whatever the socket does. -/
structure Sound (delay : Option Duration) (data : List UInt8) (s : Sending) : Prop where
  whole : s.written ++ s.remaining = data
  planned : ∃ state, s.stream.plan = some ⟨CONNECT_SNI, delay, state⟩ ∧
    Phase delay s.now state s.writes

lemma written_of_none (h : s.writes = []) : s.written = [] := by
  rw [written, h]
  rfl

lemma Sound.remaining (h : Sound delay data s) : s.remaining = data.drop s.written.length := by
  rw [← h.whole, List.drop_left]

lemma Sound.split {handshake : Handshake} (h : Sound handshake.delay data s)
    (hhidden : ∀ w ∈ s.writes, ¬CONNECT_SNI <:+: w.2) : Split handshake data s where
  hidden := hhidden
  whole := h.whole
  held hslow first rest hwrites := by
    obtain ⟨state, -, hphase⟩ := h.planned
    exact hphase.held (by rw [hslow]; rfl) hwrites

@[simp] lemma writes_start (handshake : Handshake) (vectored : Bool) (data : List UInt8)
    (now : Instant) : (start handshake vectored data now).writes = [] := by
  cases handshake <;> rfl

lemma start_split {handshake : Handshake}
    (hsplit : handshake = .split ∨ handshake = .splitSlow) (vectored : Bool) (data : List UInt8)
    (now : Instant) : start handshake vectored data now =
      ⟨⟨⟨vectored, []⟩, some ⟨CONNECT_SNI, handshake.delay, .waiting⟩⟩, data, now⟩ := by
  rcases hsplit with rfl | rfl <;> rfl

lemma sound_start {handshake : Handshake}
    (hsplit : handshake = .split ∨ handshake = .splitSlow) (vectored : Bool) (data : List UInt8)
    (now : Instant) : Sound handshake.delay data (start handshake vectored data now) := by
  rw [start_split hsplit]
  exact ⟨rfl, .waiting, rfl, .waiting⟩

/-- Nothing is written. -/
def Idle (s s' : Sending) : Prop := s'.writes = s.writes ∧ s'.remaining = s.remaining

/-- The next so many bytes are written. -/
def Writes (s : Sending) (n : ℕ) (s' : Sending) : Prop :=
  s'.writes = s.writes ++ [(s.now, s.remaining.take n)] ∧ s'.remaining = s.remaining.drop n

lemma Idle.whole (h : Idle s s') (hs : s.written ++ s.remaining = data) :
    s'.written ++ s'.remaining = data := by
  rw [written, h.1, h.2]
  exact hs

lemma Writes.written {n : ℕ} (h : Writes s n s') :
    s'.written = s.written ++ s.remaining.take n := by
  simp only [Sending.written, h.1, List.map_append, List.flatten_append, List.map_cons,
    List.map_nil, List.flatten_cons, List.flatten_nil, List.append_nil]

lemma Writes.whole {n : ℕ} (h : Writes s n s') (hs : s.written ++ s.remaining = data) :
    s'.written ++ s'.remaining = data := by
  rw [h.written, h.2, List.append_assoc, List.take_append_drop, hs]

/-- **A write shows the whole name** where it begins at its first byte or before and goes on to its
last. -/
lemma Sound.shows_iff (hs : Sound delay data s) (honce : Once CONNECT_SNI data p) (n : ℕ) :
    CONNECT_SNI <:+: s.remaining.take n ↔
      ¬(p < s.written.length ∨ s.written.length + n < p + CONNECT_SNI.length) := by
  rw [hs.remaining, honce.shown_iff, not_or, not_lt, not_lt]

lemma step_poll {offer : Offer} {r : Reaction} (h : step s (.poll offer r) = some s') :
    offer.bytes = s.remaining ∧ (s.writes = [] → CONNECT_SNI <:+: offer.first) ∧
      s' = ⟨(s.stream.poll s.now r offer).2,
        s.remaining.drop (s.stream.poll s.now r offer).1.written, s.now⟩ := by
  simp only [step] at h
  split_ifs at h with hcan
  exact ⟨hcan.1, hcan.2, (Option.some.inj h).symm⟩

/-- What is taken of the front of what remains. -/
lemma take_front {front remaining : List UInt8} (h : front <+: remaining) (n : ℕ) :
    front.take n = remaining.take (min n front.length) := by
  conv_lhs => rw [List.prefix_iff_eq_take.1 h, List.take_take]

/-- The first write: it ends inside the name, and the plan moves on. -/
lemma Sound.first_write (hs : Sound delay data s) (honce : Once CONNECT_SNI data p)
    (hnone : s.writes = []) {offer : Offer} {r : Reaction}
    (h : step s (.poll offer r) = some s') :
    Sound delay data s' ∧
      (Idle s s' ∨ ∃ more, r = .takes more ∧ Writes s (min (more + 1) (p + 18)) s') := by
  obtain ⟨hbytes, hfirst, rfl⟩ := step_poll h
  obtain ⟨state, hplan, hphase⟩ := id hs.planned
  obtain rfl : state = .waiting := hphase.waiting_iff.2 hnone
  -- the first buffer is the front of all there is, and shows the name
  have hall : s.remaining = data := by
    have hwhole := hs.whole
    rwa [written_of_none hnone, List.nil_append] at hwhole
  have hfront : offer.first <+: s.remaining := hbytes ▸ offer.first_prefix
  have hfirst' := honce.front (hall ▸ hfront) (hfirst hnone)
  have hcut := cutPoint_once hfirst'
  have hpoll := HandshakeStream.poll_waiting s.now r hplan rfl hcut
  cases r with
  | pending | fails =>
    rw [hpoll]
    exact ⟨⟨hs.whole, .waiting, hplan, hphase⟩, .inl ⟨rfl, rfl⟩⟩
  | takes more =>
    have hreach := hfirst'.reaches
    rw [length_CONNECT_SNI] at hreach
    have hlen : (offer.first.take (p + 18)).length = p + 18 := by
      rw [List.length_take]
      omega
    have htaken := take_front ((List.take_prefix (p + 18) _).trans hfront) (more + 1)
    rw [hlen] at htaken
    have hwrites : ∀ plan, Writes s (min (more + 1) (p + 18))
        ⟨⟨{ s.stream.inner with writes := s.stream.inner.writes ++
          [(s.now, (offer.first.take (p + 18)).take (more + 1))] }, plan⟩,
          s.remaining.drop (min (more + 1) (p + 18)), s.now⟩ := fun plan => by
      rw [htaken]
      exact ⟨rfl, rfl⟩
    rw [hpoll]
    simp only [Socket.pollWrite, hlen, Answer.written]
    refine ⟨⟨(hwrites _).whole hs.whole, ?_⟩, .inr ⟨more, rfl, hwrites _⟩⟩
    have hone : ∀ w, s.stream.inner.writes ++ [w] = [w] := fun w => by
      rw [show s.stream.inner.writes = [] from hnone, List.nil_append]
    cases delay with
    | none =>
      refine ⟨.through, rfl, ?_⟩
      simp only [writes, hone]
      exact .through _ [] fun span hspan => by cases hspan
    | some span =>
      refine ⟨.holding (s.now + span), rfl, ?_⟩
      simp only [writes, hone]
      exact .holding (s.now, _) rfl

/-- Every later one: nothing while the rest is held, and then what the socket has room for. -/
lemma Sound.later_write (hs : Sound delay data s) (hsome : s.writes ≠ []) {offer : Offer}
    {r : Reaction} (h : step s (.poll offer r) = some s') :
    Sound delay data s' ∧ (Idle s s' ∧ (s.stream.Held s.now ∨ s.stream.room offer r = 0) ∨
      ¬s.stream.Held s.now ∧ Writes s (s.stream.room offer r) s') := by
  obtain ⟨hbytes, -, rfl⟩ := step_poll h
  obtain ⟨state, hplan, hphase⟩ := id hs.planned
  by_cases hheld : s.stream.Held s.now
  · rw [HandshakeStream.poll_held hheld]
    exact ⟨⟨hs.whole, hs.planned⟩, .inl ⟨⟨rfl, rfl⟩, .inl hheld⟩⟩
  have hstate : state ≠ .waiting := fun hw => hsome (hphase.waiting_iff.1 hw)
  have hlate : ∀ due, state = .holding due → due ≤ s.now := fun due hdue =>
    not_lt.1 fun hearly => hheld ⟨_, due, hplan, hdue, hearly⟩
  rw [HandshakeStream.poll_later hplan hstate hheld]
  cases r with
  | pending | fails =>
    refine ⟨⟨hs.whole, .through, rfl, ?_⟩, .inl ⟨⟨rfl, rfl⟩, .inr rfl⟩⟩
    have hnext := hphase.later hsome hlate [] fun w hw => absurd hw List.not_mem_nil
    rwa [List.append_nil] at hnext
  | takes more =>
    have hfront : s.stream.passed offer <+: s.remaining := hbytes ▸ s.stream.passed_prefix offer
    have hwrites : Writes s (s.stream.room offer (.takes more))
        ⟨(s.stream.forward s.now (some ⟨CONNECT_SNI, delay, .through⟩) (s.stream.passed offer)
          (.takes more)).2, s.remaining.drop (s.stream.room offer (.takes more)), s.now⟩ := by
      refine ⟨?_, rfl⟩
      simp only [HandshakeStream.forward, Socket.pollWrite, writes, HandshakeStream.room]
      rw [take_front hfront]
    refine ⟨⟨hwrites.whole hs.whole, .through, rfl, ?_⟩, .inr ⟨hheld, hwrites⟩⟩
    refine hphase.later hsome hlate [_] fun w hw => ?_
    rw [List.mem_singleton.1 hw]

lemma Sound.step (hs : Sound delay data s) (honce : Once CONNECT_SNI data p) {turn : Turn}
    (h : step s turn = some s') : Sound delay data s' := by
  cases turn with
  | wait span =>
    obtain rfl := (Option.some.inj h).symm
    obtain ⟨state, hplan, hphase⟩ := hs.planned
    exact ⟨hs.whole, state, hplan, hphase.wait span⟩
  | poll offer r =>
    by_cases hnone : s.writes = []
    · exact (hs.first_write honce hnone h).1
    · exact (hs.later_write hnone h).1

/-- **A turn shows the whole name exactly where it is not spared.** -/
lemma Sound.hidden_iff (hs : Sound delay data s) (honce : Once CONNECT_SNI data p)
    (hhidden : ∀ w ∈ s.writes, ¬CONNECT_SNI <:+: w.2) {turn : Turn}
    (h : Sending.step s turn = some s') :
    (∀ w ∈ s'.writes, ¬CONNECT_SNI <:+: w.2) ↔ Spared p s turn := by
  have hidle : Idle s s' → ∀ w ∈ s'.writes, ¬CONNECT_SNI <:+: w.2 := fun hi => hi.1 ▸ hhidden
  have hwrites : ∀ n, Writes s n s' → ((∀ w ∈ s'.writes, ¬CONNECT_SNI <:+: w.2) ↔
      (p < s.written.length ∨ s.written.length + n < p + CONNECT_SNI.length)) := by
    rintro n ⟨hw, -⟩
    have hshows := hs.shows_iff honce n
    rw [hw, List.forall_mem_append]
    simp only [List.forall_mem_singleton, hshows, not_not]
    exact and_iff_right hhidden
  cases turn with
  | wait span =>
    obtain rfl := (Option.some.inj h).symm
    exact iff_of_true hhidden trivial
  | poll offer r =>
    by_cases hnone : s.writes = []
    · refine iff_of_true ?_ (.inl hnone)
      rcases (hs.first_write honce hnone h).2 with hi | ⟨more, -, hw⟩
      · exact hidle hi
      · refine (hwrites _ hw).2 (.inr ?_)
        rw [written_of_none hnone, List.length_nil, length_CONNECT_SNI]
        omega
    · rcases (hs.later_write hnone h).2 with ⟨hi, hheld | hroom⟩ | ⟨hheld, hw⟩
      · exact iff_of_true (hidle hi) (.inr (.inl hheld))
      · refine iff_of_true (hidle hi) (.inr (.inr ?_))
        rw [hroom, length_CONNECT_SNI]
        omega
      · rw [hwrites _ hw]
        simp only [Spared, hnone, hheld, false_or]

end Sending

open Sending

/-- **When a split handshake keeps its name apart**: in every state of a run no write shows the whole
name, every byte is written once and in order, and the slow plan leaves its delay, exactly when no
poll after the first write finds the name still to come and the socket with room for all of it. The
plan is done with the first write however short it is. -/
theorem split_hides_iff {handshake : Handshake}
    (hsplit : handshake = .split ∨ handshake = .splitSlow) {data : List UInt8} {p : ℕ}
    (honce : Once CONNECT_SNI data p) (vectored : Bool) (now : Instant) {turns : List Turn}
    {t : Sending} (h : run step (start handshake vectored data now) turns = some t) :
    (∀ before, before <+: turns → ∀ u,
        run step (start handshake vectored data now) before = some u → Split handshake data u) ↔
      Meets step (Spared p) (start handshake vectored data now) turns := by
  refine Meets.iff_prefixes (I := Sound handshake.delay data) (fun s a s' hs hstep =>
    hs.step honce hstep) (fun s a s' hs hgood hstep => ?_) (sound_start hsplit vectored data now)
    ((sound_start hsplit vectored data now).split (by simp)) h
  rw [← hs.hidden_iff honce hgood.hidden hstep]
  exact ⟨Split.hidden, (hs.step honce hstep).split⟩

/-! ### What decides it -/

/-- The socket's first write takes the first byte of the name. -/
def Ample (p : ℕ) (s : Sending) (turn : Turn) : Prop :=
  s.writes = [] → ∀ offer more, turn = .poll offer (.takes more) → p ≤ more

namespace Sending

variable {handshake : Handshake} {delay : Option Duration} {data : List UInt8} {p : ℕ}
  {s s' : Sending}

/-- The first byte of the name is gone, or nothing is. -/
def Begun (p : ℕ) (s : Sending) : Prop := s.writes = [] ∨ p < s.written.length

lemma Writes.length_written {n : ℕ} (h : Writes s n s') :
    s'.written.length = s.written.length + min n s.remaining.length := by
  rw [h.written, List.length_append, List.length_take]

lemma Begun.step (hs : Sound delay data s) (honce : Once CONNECT_SNI data p)
    (hbegun : Begun p s) {turn : Turn} (hample : Ample p s turn)
    (h : Sending.step s turn = some s') : Begun p s' := by
  have hidle : Idle s s' → Begun p s' := fun hi => by
    rw [Begun, written, hi.1]
    exact hbegun
  cases turn with
  | wait span =>
    obtain rfl := (Option.some.inj h).symm
    exact hbegun
  | poll offer r =>
    by_cases hnone : s.writes = []
    · rcases (hs.first_write honce hnone h).2 with hi | ⟨more, rfl, hw⟩
      · exact hidle hi
      · have hmore := hample hnone offer more rfl
        have hreach := honce.reaches
        have hall := congrArg List.length hs.whole
        rw [List.length_append, written_of_none hnone, List.length_nil] at hall
        rw [length_CONNECT_SNI] at hreach
        refine .inr ?_
        rw [hw.length_written, written_of_none hnone, List.length_nil]
        omega
    · have hgone : p < s.written.length := hbegun.resolve_left hnone
      rcases (hs.later_write hnone h).2 with ⟨hi, -⟩ | ⟨-, hw⟩
      · exact hidle hi
      · refine .inr ?_
        rw [hw.length_written]
        omega

end Sending

/-- **A first write that takes the first byte of the name is enough**: no later one shows the whole
of it then. -/
theorem spared_of_ample {handshake : Handshake}
    (hsplit : handshake = .split ∨ handshake = .splitSlow) {data : List UInt8} {p : ℕ}
    (honce : Once CONNECT_SNI data p) (vectored : Bool) (now : Instant) {turns : List Turn}
    (hample : Meets step (Ample p) (start handshake vectored data now) turns) :
    Meets step (Spared p) (start handshake vectored data now) turns := by
  refine Meets.imp (I := fun s => Sound handshake.delay data s ∧ Begun p s)
    (fun s turn s' ha hs hstep => ⟨hs.1.step honce hstep, hs.2.step hs.1 honce ha hstep⟩)
    (fun s turn _ hs => ?_) hample ⟨sound_start hsplit vectored data now, .inl (writes_start ..)⟩
  cases turn with
  | wait span => trivial
  | poll offer r =>
    rcases hs.2 with hnone | hgone
    · exact .inl hnone
    · exact .inr (.inr (.inl hgone))

/-- A socket that takes one byte first, and all it is offered when the delay is over. -/
def oneByteFirst (data : List UInt8) : List Turn :=
  [.poll (.plain data) (.takes 0), .wait SPLIT_DELAY,
    .poll (.plain (data.drop 1)) (.takes data.length)]

/-- The first byte is out. -/
def Sending.oneByteOut (handshake : Handshake) (vectored : Bool) (data : List UInt8)
    (now : Instant) : Sending :=
  let state :=
    match handshake.delay with
    | some span => SplitState.holding (now + span)
    | none => .through
  ⟨⟨⟨vectored, [(now, data.take 1)]⟩, some ⟨CONNECT_SNI, handshake.delay, state⟩⟩, data.drop 1, now⟩

lemma Sending.step_oneByte {handshake : Handshake}
    (hsplit : handshake = .split ∨ handshake = .splitSlow) {data : List UInt8} {p : ℕ}
    (honce : Once CONNECT_SNI data p) (vectored : Bool) (now : Instant) :
    step (start handshake vectored data now) (.poll (.plain data) (.takes 0)) =
      some (oneByteOut handshake vectored data now) := by
  have hreach := honce.reaches
  rw [length_CONNECT_SNI] at hreach
  have hshown : CONNECT_SNI <:+: data := by
    have hall := (honce.shown_iff 0 data.length).2 ⟨p.zero_le, by rw [length_CONNECT_SNI]; omega⟩
    rwa [List.drop_zero, List.take_length] at hall
  have hlen : min (0 + 1) (data.take (p + 18)).length = 1 := by
    rw [List.length_take]
    omega
  have htake : (data.take (p + 18)).take (0 + 1) = data.take 1 := by
    rw [List.take_take, Nat.min_eq_left (by omega)]
  have hcut : cutPoint (Offer.plain data).first CONNECT_SNI = some (p + 18) := cutPoint_once honce
  rw [start_split hsplit, step, if_pos ⟨rfl, fun _ => hshown⟩,
    HandshakeStream.poll_waiting now (.takes 0) rfl rfl hcut]
  simp only [Socket.pollWrite, hlen, Answer.written, Offer.first, htake]
  rfl

/-- **Where the name is not the very front, there is a socket it is shown to.** -/
theorem shown_oneByteFirst {handshake : Handshake}
    (hsplit : handshake = .split ∨ handshake = .splitSlow) {data : List UInt8} {p : ℕ}
    (honce : Once CONNECT_SNI data p) (hfront : 1 ≤ p) (vectored : Bool) (now : Instant) :
    ∃ t, run step (start handshake vectored data now) (oneByteFirst data) = some t ∧
      ¬Split handshake data t := by
  have hfirst := step_oneByte hsplit honce vectored now
  have hsound := (sound_start hsplit vectored data now).step honce hfirst
  have hreach := honce.reaches
  rw [length_CONNECT_SNI] at hreach
  -- the delay is over, and the socket is offered all that remains
  obtain ⟨s, hs⟩ : ∃ s, s = { oneByteOut handshake vectored data now with
    now := now + SPLIT_DELAY } := ⟨_, rfl⟩
  have hwait : step (oneByteOut handshake vectored data now) (.wait SPLIT_DELAY) = some s := by
    rw [hs]
    rfl
  have hsound' := hsound.step honce hwait
  have hlate : ¬s.stream.Held s.now := by
    rintro ⟨plan, due, hplan, hstate, hearly⟩
    rw [hs] at hplan hearly
    cases hplan
    rcases hsplit with rfl | rfl
    · cases hstate
    · cases hstate
      exact absurd hearly (lt_irrefl _)
  have hlast : ∃ t, step s (.poll (.plain (data.drop 1)) (.takes data.length)) = some t := by
    rw [hs, step, if_pos ⟨rfl, fun hnone => absurd hnone (List.cons_ne_nil _ _)⟩]
    exact ⟨_, rfl⟩
  obtain ⟨t, ht⟩ := hlast
  refine ⟨t, ?_, fun hgood => ?_⟩
  · simp only [oneByteFirst, run, hfirst, hwait, ht, Option.bind_some]
  · have hhidden : ∀ w ∈ s.writes, ¬CONNECT_SNI <:+: w.2 := by
      rw [hs]
      intro w hw hshow
      rw [List.mem_singleton.1 hw] at hshow
      have hlen := hshow.length_le
      rw [length_CONNECT_SNI, List.length_take] at hlen
      omega
    have hout : s.written.length = 1 := by
      rw [hs]
      simp only [written, writes, oneByteOut, List.map_cons, List.map_nil, List.flatten_cons,
        List.flatten_nil, List.append_nil, List.length_take]
      omega
    have hroom : s.stream.room (.plain (data.drop 1)) (.takes data.length) = data.length - 1 := by
      rw [HandshakeStream.room, HandshakeStream.passed_plain, List.length_drop]
      omega
    rcases (hsound'.hidden_iff honce hhidden ht).1 hgood.hidden with hnone | hheld | hgone | hshort
    · rw [hs] at hnone
      cases hnone
    · exact hlate hheld
    · omega
    · rw [hroom, length_CONNECT_SNI] at hshort
      omega

/-- **Safe from every socket** is only the ClientHello that begins with the name. -/
theorem split_hides_always_iff {handshake : Handshake}
    (hsplit : handshake = .split ∨ handshake = .splitSlow) {data : List UInt8} {p : ℕ}
    (honce : Once CONNECT_SNI data p) (vectored : Bool) (now : Instant) :
    (∀ turns t, run step (start handshake vectored data now) turns = some t →
      Split handshake data t) ↔ p = 0 := by
  constructor
  · intro hall
    by_contra hfront
    obtain ⟨t, hrun, hbad⟩ := shown_oneByteFirst hsplit honce (by omega) vectored now
    exact hbad (hall _ t hrun)
  · rintro rfl turns t hrun
    have hample : Meets step (Ample 0) (start handshake vectored data now) turns :=
      Meets.of_forall (fun _ _ _ _ _ more _ => more.zero_le) _
    have hspared := spared_of_ample hsplit honce vectored now hample
    exact (split_hides_iff hsplit honce vectored now hrun).2 hspared turns List.prefix_rfl t hrun

/-- A buffer with the name after its first byte. -/
def hello : List UInt8 := 0x16 :: CONNECT_SNI

lemma once_hello : Once CONNECT_SNI hello 1 := by
  intro i
  match i with
  | 0 => exact iff_of_false (by decide) (by omega)
  | 1 => exact iff_of_true List.prefix_rfl rfl
  | i + 2 =>
    refine iff_of_false (fun hat => ?_) (by omega)
    have hlen := hat.length_le
    rw [List.length_drop, length_CONNECT_SNI] at hlen
    change 36 ≤ 37 - (i + 2) at hlen
    omega

/-- A first write of one byte, and the second shows the name. -/
theorem split_shows_name :
    ¬∀ handshake : Handshake, handshake = .split ∨ handshake = .splitSlow →
      ∀ data p, Once CONNECT_SNI data p → ∀ vectored now turns t,
        run step (start handshake vectored data now) turns = some t → Split handshake data t := by
  intro hclaim
  obtain ⟨t, hrun, hbad⟩ := shown_oneByteFirst (.inl rfl) once_hello le_rfl true 0
  exact hbad (hclaim .split (.inl rfl) hello 1 once_hello true 0 _ t hrun)

/-- A socket that takes all it is offered is shown the name in two halves. -/
def inHalves : List Turn :=
  [.poll (.plain hello) (.takes 1500), .wait SPLIT_DELAY,
    .poll (.vectored [[], hello.drop 19]) (.takes 1500)]

theorem split_hides_iff_hello :
    (∃ t, run step (start .splitSlow true hello 0) inHalves = some t) ∧
    ∀ before, before <+: inHalves →
      ∀ u, run step (start .splitSlow true hello 0) before = some u → Split .splitSlow hello u := by
  have hample : Meets step (Ample 1) (start .splitSlow true hello 0) inHalves := by
    refine Meets.of_forall (fun turn hturn s _ offer more heq => ?_) _
    subst heq
    simp only [inHalves, List.mem_cons, Turn.poll.injEq, Reaction.takes.injEq, List.not_mem_nil,
      or_false, reduceCtorEq, false_or] at hturn
    omega
  have hrun : ∃ t, run step (start .splitSlow true hello 0) inHalves = some t := ⟨_, rfl⟩
  obtain ⟨t, ht⟩ := id hrun
  exact ⟨hrun, (split_hides_iff (.inr rfl) once_hello true 0 ht).2
    (spared_of_ample (.inr rfl) once_hello true 0 hample)⟩

end Masqr.Transport
