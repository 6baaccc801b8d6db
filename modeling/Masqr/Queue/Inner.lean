import Masqr.Queue.Packet
import Masqr.Time
import Masqr.Lib.Select

/-!
The queue between the adapter and the tunnel: flow queueing over 64 buckets, and CoDel
inside each.

The fields of the source are here under its names. Three more are read by nothing and
say what has happened: `arrived`, every packet ever enqueued; `log`, what became of them,
the latest first; and `faulted`, set by a subtraction that goes below zero and by a loop
that stops making progress. A queued packet carries the position it has in `arrived`.

The one thing the model does not compute is the square root of the control law, which the
source takes in floating point: `divSqrt interval n` stands for the interval divided by
the root of `n`, and may be any function.
-/

namespace Masqr.Queue

open Masqr.Lib

def INTERVAL : Duration := .millis 100
def INTERVAL_FLOOR : Duration := .millis 50
def INTERVAL_CEILING : Duration := .millis 300
def RTT_TO_INTERVAL : ℕ := 4
def TARGET_SHARE : ℕ := 20
def STALE_AFTER : Duration := .secs 1

/-- A packet, when it was put here, and which of all packets it is. -/
structure Queued where
  packet : Packet
  since : Instant
  seq : ℕ
  deriving DecidableEq

/-- One bucket: its packets in order, its round-robin credit, and its CoDel state. -/
structure Flow where
  packets : List Queued := []
  bytes : ℕ := 0
  deficit : ℤ := 0
  listed : Bool := false
  aboveSince : Option Instant := none
  dropNext : Option Instant := none
  count : ℕ := 0
  dropping : Bool := false

/-- How a packet leaves the queue. -/
inductive Fate | delivered | overLimit | overTarget | thinned | stale
  deriving DecidableEq

/-- What happens in the queue. -/
inductive Event
  | selected (i : Bucket)
  | ranDry (i : Bucket) (fresh : Bool)
  | took (i : Bucket) (seq : ℕ) (now : Instant) (waited target interval : Duration) (left : ℕ)
  | marked (i : Bucket) (seq : ℕ)
  | left (i : Bucket) (seq len : ℕ) (fate : Fate)
  | swept
  deriving DecidableEq

structure Inner where
  flows : Bucket → Flow
  fresh : List Bucket
  backlogged : List Bucket
  bytes : ℕ
  packets : ℕ
  overLimit : ℕ
  overTarget : ℕ
  marked : ℕ
  thinned : ℕ
  stale : ℕ
  worstWait : Duration
  interval : Duration
  target : Duration
  arrived : List Packet
  log : List Event
  faulted : Bool

namespace Inner

/-- The empty queue. -/
def new : Inner where
  flows := fun _ => {}
  fresh := []
  backlogged := []
  bytes := 0
  packets := 0
  overLimit := 0
  overTarget := 0
  marked := 0
  thinned := 0
  stale := 0
  worstWait := 0
  interval := INTERVAL
  target := INTERVAL / TARGET_SHARE
  arrived := []
  log := []
  faulted := false

def note (q : Inner) (e : Event) : Inner := { q with log := e :: q.log }

@[simp] lemma note_flows (q : Inner) (e : Event) : (q.note e).flows = q.flows := rfl
@[simp] lemma note_fresh (q : Inner) (e : Event) : (q.note e).fresh = q.fresh := rfl
@[simp] lemma note_backlogged (q : Inner) (e : Event) : (q.note e).backlogged = q.backlogged := rfl
@[simp] lemma note_log (q : Inner) (e : Event) : (q.note e).log = e :: q.log := rfl

/-- Change one bucket. -/
def modify (q : Inner) (i : Bucket) (f : Flow → Flow) : Inner :=
  { q with flows := Function.update q.flows i (f (q.flows i)) }

@[simp] lemma modify_flows (q : Inner) (i : Bucket) (f : Flow → Flow) :
    (q.modify i f).flows = Function.update q.flows i (f (q.flows i)) := rfl

@[simp] lemma modify_fresh (q : Inner) (i : Bucket) (f : Flow → Flow) :
    (q.modify i f).fresh = q.fresh := rfl
@[simp] lemma modify_backlogged (q : Inner) (i : Bucket) (f : Flow → Flow) :
    (q.modify i f).backlogged = q.backlogged := rfl
@[simp] lemma modify_log (q : Inner) (i : Bucket) (f : Flow → Flow) :
    (q.modify i f).log = q.log := rfl

/-- How many packets the buckets hold. -/
def waitingCount (q : Inner) : ℕ := ∑ i, (q.flows i).packets.length

/-- Take the packet at a position out of a bucket, and off the three counters. -/
def remove (q : Inner) (i : Bucket) (k : ℕ) : Option (Queued × Inner) :=
  match (q.flows i).packets[k]? with
  | none => none
  | some x =>
    let len := x.packet.length
    some (x, { q.modify i fun f =>
        { f with packets := f.packets.eraseIdx k, bytes := f.bytes - len } with
      bytes := q.bytes - len
      packets := q.packets - 1
      faulted := q.faulted || decide ((q.flows i).bytes < len) || decide (q.bytes < len)
        || decide (q.packets < 1) })

/-- Take the packet at the head of a bucket, and off the three counters. -/
def popFront (q : Inner) (i : Bucket) : Option (Queued × Inner) := q.remove i 0

lemma remove_cases {q q' : Inner} {i : Bucket} {k : ℕ} {x : Queued}
    (h : q.remove i k = some (x, q')) :
    (q.flows i).packets[k]? = some x ∧ q' = { q.modify i fun f =>
        { f with packets := f.packets.eraseIdx k, bytes := f.bytes - x.packet.length } with
      bytes := q.bytes - x.packet.length
      packets := q.packets - 1
      faulted := q.faulted || decide ((q.flows i).bytes < x.packet.length)
        || decide (q.bytes < x.packet.length) || decide (q.packets < 1) } := by
  unfold remove at h
  split at h
  · cases h
  · next y hy =>
    simp only [Option.some.injEq, Prod.mk.injEq] at h
    obtain ⟨rfl, rfl⟩ := h
    exact ⟨hy, rfl⟩

lemma popFront_none {q : Inner} {i : Bucket} (h : q.popFront i = none) :
    (q.flows i).packets = [] := by
  unfold popFront remove at h
  split at h
  · next hn => simpa using hn
  · cases h

lemma popFront_head {q q' : Inner} {i : Bucket} {x : Queued}
    (h : q.popFront i = some (x, q')) :
    (q.flows i).packets = x :: (q'.flows i).packets := by
  obtain ⟨hx, rfl⟩ := remove_cases h
  have hsplit : (q.flows i).packets ≠ [] := by
    intro hnil
    rw [hnil] at hx
    cases hx
  obtain ⟨y, rest, hpackets⟩ := List.exists_cons_of_ne_nil hsplit
  rw [hpackets] at hx
  cases hx
  simp [hpackets]

lemma remove_shorter {q q' : Inner} {i : Bucket} {k : ℕ} {x : Queued}
    (h : q.remove i k = some (x, q')) :
    (q'.flows i).packets.length + 1 = (q.flows i).packets.length := by
  obtain ⟨hx, rfl⟩ := remove_cases h
  obtain ⟨hk, -⟩ := List.getElem?_eq_some_iff.mp hx
  simp only [modify_flows, Function.update_self]
  rw [List.length_eraseIdx_of_lt hk]
  omega

/-! ### Overflow -/

/-- Make room by taking the head of the longest bucket. `false` when there was nothing to
take. -/
def dropFattest (q : Inner) : Bool × Inner :=
  match (maxByKey (fun i => (q.flows i).bytes) (List.finRange FLOWS)).filter
      fun i => 0 < (q.flows i).bytes with
  | none => (false, q)
  | some i =>
    match q.popFront i with
    | none => (true, q)
    | some (x, q) =>
      (true, { q with overLimit := q.overLimit + 1 }.note
        (.left i x.seq x.packet.length .overLimit))

/-- Drop until a packet of `len` bytes fits. A bucket with bytes to its name and no packet
in it would keep the source here for ever; the model says so and goes on. -/
def makeRoom (len : ℕ) : Loop Inner Inner where
  body q :=
    if q.bytes + len ≤ LIMIT_BYTES then .inr q
    else
      let (dropped, q') := q.dropFattest
      if dropped then
        if q'.waitingCount < q.waitingCount then .inl q' else .inr { q with faulted := true }
      else .inr q
  measure := waitingCount
  lowers {s s'} h := by
    dsimp only at h
    split_ifs at h
    cases h
    assumption

/-- A turn of making room: there is room, nothing is there to drop, a drop changed nothing, or one
more packet goes. -/
inductive RoomTurn (len : ℕ) (q : Inner) : Inner ⊕ Inner → Prop
  | fits (hfits : q.bytes + len ≤ LIMIT_BYTES) : RoomTurn len q (.inr q)
  | nothing (hover : LIMIT_BYTES < q.bytes + len) (hnone : q.dropFattest.1 = false) :
      RoomTurn len q (.inr q)
  | stuck (hdropped : q.dropFattest.1 = true)
      (hsame : ¬ q.dropFattest.2.waitingCount < q.waitingCount) :
      RoomTurn len q (.inr { q with faulted := true })
  | dropped (hover : LIMIT_BYTES < q.bytes + len) : RoomTurn len q (.inl q.dropFattest.2)

lemma makeRoom_turn {len : ℕ} {q : Inner} {r : Inner ⊕ Inner} (h : (makeRoom len).body q = r) :
    RoomTurn len q r := by
  subst h
  simp only [makeRoom]
  split_ifs with hfits hdropped hless
  · exact .fits hfits
  · exact .dropped (not_le.1 hfits)
  · exact .stuck hdropped hless
  · exact .nothing (not_le.1 hfits) (Bool.eq_false_iff.2 hdropped)

/-! ### Acknowledgements -/

/-- The positions of the acknowledgements a newer one covers, in order. -/
def redundant (q : Inner) (i : Bucket) (newer : Packet) (acked : UInt32) : List ℕ :=
  ((q.flows i).packets.zipIdx.filter fun (x, _) =>
    match pureAck x.packet with
    | none => false
    | some older => decide (0 < (acked - older).toInt32) && sameConnection newer x.packet).map
      Prod.snd

def thinOne (i : Bucket) (q : Inner) (k : ℕ) : Inner :=
  match q.remove i k with
  | none => q
  | some (x, q) =>
    { q with thinned := q.thinned + 1 }.note (.left i x.seq x.packet.length .thinned)

/-- Drop the acknowledgements this one has made redundant, all but the newest of them,
back to front. -/
def thinAcks (q : Inner) (i : Bucket) (newer : Packet) (acked : UInt32) : Inner :=
  (q.redundant i newer acked).dropLast.reverse.foldl (thinOne i) q

/-! ### Arrival -/

/-- File a packet at the end of its bucket. -/
def push (q : Inner) (i : Bucket) (packet : Packet) (now : Instant) : Inner :=
  { q.modify i fun f =>
      { f with
        packets := f.packets ++ [⟨packet, now, q.arrived.length⟩]
        bytes := f.bytes + packet.length } with
    bytes := q.bytes + packet.length
    packets := q.packets + 1
    arrived := q.arrived ++ [packet] }

@[simp] lemma push_flows (q : Inner) (i : Bucket) (packet : Packet) (now : Instant) :
    (q.push i packet now).flows = Function.update q.flows i { q.flows i with
      packets := (q.flows i).packets ++ [⟨packet, now, q.arrived.length⟩]
      bytes := (q.flows i).bytes + packet.length } := rfl
@[simp] lemma push_deficit (q : Inner) (i j : Bucket) (packet : Packet) (now : Instant) :
    ((q.push i packet now).flows j).deficit = (q.flows j).deficit := by
  by_cases hj : j = i <;> simp [hj]
@[simp] lemma push_listed (q : Inner) (i j : Bucket) (packet : Packet) (now : Instant) :
    ((q.push i packet now).flows j).listed = (q.flows j).listed := by
  by_cases hj : j = i <;> simp [hj]
@[simp] lemma push_fresh (q : Inner) (i : Bucket) (packet : Packet) (now : Instant) :
    (q.push i packet now).fresh = q.fresh := rfl
@[simp] lemma push_backlogged (q : Inner) (i : Bucket) (packet : Packet) (now : Instant) :
    (q.push i packet now).backlogged = q.backlogged := rfl
@[simp] lemma push_log (q : Inner) (i : Bucket) (packet : Packet) (now : Instant) :
    (q.push i packet now).log = q.log := rfl

/-- Thin the acknowledgements of a bucket, if the packet that arrives is one itself. -/
def thinFor (q : Inner) (i : Bucket) (packet : Packet) : Inner :=
  match pureAck packet with
  | some acked => q.thinAcks i packet acked
  | none => q

/-- What every packet taken out keeps, thinning keeps. -/
lemma thinFor_rule {I : Inner → Prop} {i : Bucket} (hone : ∀ q k, I q → I (thinOne i q k))
    (packet : Packet) {q : Inner} (h : I q) : I (q.thinFor i packet) := by
  unfold thinFor
  split
  · exact List.foldlRecOn _ (thinOne i) h fun q hq k _ => hone q k hq
  · exact h

/-- A bucket that is on no list becomes a fresh one, with a whole quantum. -/
def join (q : Inner) (i : Bucket) : Inner :=
  if (q.flows i).listed then q
  else
    { q.modify i fun f => { f with listed := true, deficit := QUANTUM } with
      fresh := q.fresh ++ [i] }

lemma join_fresh (q : Inner) (i : Bucket) :
    (q.join i).fresh = if (q.flows i).listed then q.fresh else q.fresh ++ [i] := by
  unfold join
  split_ifs <;> rfl

@[simp] lemma join_backlogged (q : Inner) (i : Bucket) : (q.join i).backlogged = q.backlogged := by
  unfold join
  split_ifs <;> rfl

@[simp] lemma join_bytes (q : Inner) (i : Bucket) : (q.join i).bytes = q.bytes := by
  unfold join
  split_ifs <;> rfl

@[simp] lemma join_log (q : Inner) (i : Bucket) : (q.join i).log = q.log := by
  unfold join
  split_ifs <;> rfl

@[simp] lemma join_arrived (q : Inner) (i : Bucket) : (q.join i).arrived = q.arrived := by
  unfold join
  split_ifs <;> rfl

@[simp] lemma join_packets (q : Inner) (i j : Bucket) :
    ((q.join i).flows j).packets = (q.flows j).packets := by
  unfold join
  split_ifs
  · rfl
  · by_cases hj : j = i <;> simp [hj]

lemma join_deficit (q : Inner) (i j : Bucket) : ((q.join i).flows j).deficit =
    if j = i ∧ (q.flows i).listed = false then (QUANTUM : ℤ) else (q.flows j).deficit := by
  unfold join
  by_cases hj : j = i <;> split_ifs <;> simp_all

def enqueue (q : Inner) (packet : Packet) (now : Instant) : Inner :=
  let q := (makeRoom packet.length).run q
  let i := flowOf packet
  let q := q.thinFor i packet
  (q.push i packet now).join i

/-! ### What waited too long -/

/-- Take the packets of one bucket that have waited `age` or longer, and count them. -/
def sweepFlow (now : Instant) (age : Duration) (i : Bucket) :
    Loop (Inner × ℕ) (Inner × ℕ) where
  body := fun (q, dropped) =>
    match (q.flows i).packets.head? with
    | none => .inr (q, dropped)
    | some head =>
      if age ≤ now.since head.since then
        match q.popFront i with
        | none => .inr (q, dropped)
        | some (old, q) =>
          .inl (q.note (.left i old.seq old.packet.length .stale), dropped + 1)
      else .inr (q, dropped)
  measure := fun (q, _) => (q.flows i).packets.length
  lowers {s s'} h := by
    dsimp only at h
    split at h
    · cases h
    · split_ifs at h
      split at h
      · cases h
      · next x q hr =>
        cases h
        have := remove_shorter hr
        simp only [note]
        omega

/-- A turn of a sweep: the head has waited too long and goes, or the sweep stops as it is. -/
inductive SweepTurn (now : Instant) (age : Duration) (i : Bucket) (s : Inner × ℕ) :
    (Inner × ℕ) ⊕ (Inner × ℕ) → Prop
  | gone {old : Queued} {q : Inner} (hpop : s.1.popFront i = some (old, q))
      (hold : age ≤ now.since old.since) : SweepTurn now age i s
        (.inl (q.note (.left i old.seq old.packet.length .stale), s.2 + 1))
  | stop (hyoung : ∀ head ∈ (s.1.flows i).packets.head?, now.since head.since < age) :
      SweepTurn now age i s (.inr s)

lemma sweepFlow_turn {now : Instant} {age : Duration} {i : Bucket} {s : Inner × ℕ}
    {r : (Inner × ℕ) ⊕ (Inner × ℕ)} (h : (sweepFlow now age i).body s = r) :
    SweepTurn now age i s r := by
  subst h
  obtain ⟨q, dropped⟩ := s
  simp only [sweepFlow]
  split
  · next hempty =>
    refine .stop fun head hhead => ?_
    cases hempty.symm.trans hhead
  · next head hhead =>
    split_ifs with hold
    · cases hpop : q.popFront i with
      | none =>
        rw [popFront_none hpop] at hhead
        cases hhead
      | some popped =>
        obtain ⟨old, q'⟩ := popped
        rw [popFront_head hpop] at hhead
        cases hhead
        exact .gone hpop hold
    · refine .stop fun head' hhead' => ?_
      cases hhead.symm.trans hhead'
      exact Nat.lt_of_not_le hold

def sweepOne (now : Instant) (age : Duration) (s : Inner × ℕ) (i : Bucket) : Inner × ℕ :=
  let (q, dropped) := (sweepFlow now age i).run s
  (q.modify i fun f => { f with aboveSince := none, dropping := false }, dropped)

/-- Take every packet that has waited `age` or longer, and say how many there were. -/
def dropOlderThan (q : Inner) (now : Instant) (age : Duration) : Inner × ℕ :=
  let (q, dropped) := (List.finRange FLOWS).foldl (sweepOne now age) (q.note .swept, 0)
  ({ q with stale := q.stale + dropped }, dropped)

/-! ### CoDel -/

/-- Whether the queue of a bucket is standing after its head was taken, having waited
`waited`. -/
def standing (q : Inner) (i : Bucket) (waited : Duration) : Bool :=
  decide (q.target ≤ waited) && decide (QUANTUM < (q.flows i).bytes)

/-- The wait of a packet that leaves, recorded whether it is dropped or delivered. -/
def recordWait (q : Inner) (i : Bucket) (head : Queued) (now : Instant) : Inner :=
  { q with worstWait := max q.worstWait (now.since head.since) }.note
    (.took i head.seq now (now.since head.since) q.target q.interval (q.flows i).bytes)

/-- Whether the queue has been standing for a whole interval, and since when it has been
standing. -/
def judge (q : Inner) (i : Bucket) (waited : Duration) (now : Instant) : Bool × Inner :=
  match q.standing i waited, (q.flows i).aboveSince with
  | false, _ => (false, q.modify i fun f => { f with aboveSince := none })
  | true, none => (false, q.modify i fun f => { f with aboveSince := some (now + q.interval) })
  | true, some due => (decide (due ≤ now), q)

/-- Take the head of one bucket, and say whether the queue has been standing too long. -/
def take (q : Inner) (i : Bucket) (now : Instant) : Option (Queued × Bool × Inner) :=
  match q.popFront i with
  | none => none
  | some (head, q) => some (head, (q.recordWait i head now).judge i (now.since head.since) now)

def due (q : Inner) (i : Bucket) (now : Instant) : Bool :=
  (q.flows i).dropNext.any fun next => decide (next ≤ now)

/-- Put the congestion signal inside the packet, if it says it can carry one. -/
def mark (q : Inner) (i : Bucket) (x : Queued) : Option (Queued × Inner) :=
  (markCongestion x.packet).map fun p =>
    ({ x with packet := p }, { q with marked := q.marked + 1 }.note (.marked i x.seq))

/-- The packet in hand carries the congestion signal away by not being delivered. -/
def dropOverTarget (q : Inner) (i : Bucket) (x : Queued) : Inner :=
  { q with overTarget := q.overTarget + 1 }.note (.left i x.seq x.packet.length .overTarget)

/-- The count one higher, in 32 bits. -/
def countUp (q : Inner) (i : Bucket) : Inner :=
  q.modify i fun f => { f with count := (f.count + 1) % 2 ^ 32 }

def setDropping (q : Inner) (i : Bucket) (b : Bool) : Inner :=
  q.modify i fun f => { f with dropping := b }

lemma judge_packets (q : Inner) (i j : Bucket) (waited : Duration) (now : Instant) :
    ((q.judge i waited now).2.flows j).packets = (q.flows j).packets := by
  unfold judge
  split <;> by_cases h : j = i <;> simp [h]

lemma take_cases {q q' : Inner} {i : Bucket} {now : Instant} {x : Queued} {o : Bool}
    (h : q.take i now = some (x, o, q')) :
    ∃ q1, q.popFront i = some (x, q1) ∧
      (o, q') = (q1.recordWait i x now).judge i (now.since x.since) now := by
  unfold take at h
  split at h
  · cases h
  · next head q1 hr =>
    simp only [Option.some.injEq, Prod.mk.injEq] at h
    obtain ⟨rfl, h⟩ := h
    exact ⟨q1, hr, h.symm⟩

lemma take_shorter {q q' : Inner} {i : Bucket} {now : Instant} {x : Queued} {o : Bool}
    (h : q.take i now = some (x, o, q')) :
    (q'.flows i).packets.length + 1 = (q.flows i).packets.length := by
  obtain ⟨q1, hr, hj⟩ := take_cases h
  have hp := judge_packets (q1.recordWait i x now) i i (now.since x.since) now
  rw [← hj] at hp
  rw [hp]
  have h1 := remove_shorter hr
  exact h1

variable (divSqrt : Duration → ℕ → Duration)

/-- The control law: drops come the interval over the root of the count apart. -/
def schedule (q : Inner) (i : Bucket) (moment : Instant) : Inner :=
  q.modify i fun f =>
    { f with dropNext := some (moment + divSqrt q.interval (max f.count 1)) }

/-- The drops of one episode that are due. -/
def dropLoop (i : Bucket) (now : Instant) : Loop (Inner × Queued) (Inner × Option Queued) where
  body := fun (q, x) =>
    if (q.flows i).dropping && q.due i now then
      let q := q.countUp i
      match q.mark i x with
      | some (x, q) =>
        .inr (q.schedule divSqrt i ((q.flows i).dropNext.getD now), some x)
      | none =>
        match (q.dropOverTarget i x).take i now with
        | none => .inr ((q.dropOverTarget i x).setDropping i false, none)
        | some (x, overdue, q) =>
          if overdue then .inl (q.schedule divSqrt i ((q.flows i).dropNext.getD now), x)
          else .inl (q.setDropping i false, x)
    else .inr (q, some x)
  measure := fun (q, _) => (q.flows i).packets.length
  lowers {s s'} h := by
    dsimp only at h
    split_ifs at h
    split at h
    · cases h
    · split at h
      · cases h
      · next hr =>
        have := take_shorter hr
        split_ifs at h <;> cases h <;>
          simp [schedule, setDropping, dropOverTarget, countUp, note] at this ⊢ <;> omega

/-- A turn of an episode: no drop is due, or the packet in hand is marked, or it is dropped, and the
next one is overdue too, is not, or is not there. -/
inductive DropTurn (i : Bucket) (now : Instant) (s : Inner × Queued) :
    (Inner × Queued) ⊕ (Inner × Option Queued) → Prop
  | idle : DropTurn i now s (.inr (s.1, some s.2))
  | marked {y : Queued} {q : Inner} (hdropping : (s.1.flows i).dropping = true)
      (hmark : (s.1.countUp i).mark i s.2 = some (y, q)) :
      DropTurn i now s (.inr (q.schedule divSqrt i ((q.flows i).dropNext.getD now), some y))
  | dry (hdropping : (s.1.flows i).dropping = true) (hmark : (s.1.countUp i).mark i s.2 = none)
      (htake : ((s.1.countUp i).dropOverTarget i s.2).take i now = none) :
      DropTurn i now s (.inr (((s.1.countUp i).dropOverTarget i s.2).setDropping i false, none))
  | again {y : Queued} {q : Inner} (hdropping : (s.1.flows i).dropping = true)
      (hmark : (s.1.countUp i).mark i s.2 = none)
      (htake : ((s.1.countUp i).dropOverTarget i s.2).take i now = some (y, true, q)) :
      DropTurn i now s (.inl (q.schedule divSqrt i ((q.flows i).dropNext.getD now), y))
  | eased {y : Queued} {q : Inner} (hdropping : (s.1.flows i).dropping = true)
      (hmark : (s.1.countUp i).mark i s.2 = none)
      (htake : ((s.1.countUp i).dropOverTarget i s.2).take i now = some (y, false, q)) :
      DropTurn i now s (.inl (q.setDropping i false, y))

lemma dropLoop_turn {i : Bucket} {now : Instant} {s : Inner × Queued}
    {r : (Inner × Queued) ⊕ (Inner × Option Queued)}
    (h : (dropLoop divSqrt i now).body s = r) : DropTurn divSqrt i now s r := by
  subst h
  obtain ⟨q, x⟩ := s
  simp only [dropLoop]
  split_ifs with hdue
  · have hdropping := (Bool.and_eq_true_iff.1 hdue).1
    split
    · next hmark => exact .marked hdropping hmark
    · next hmark =>
      split
      · next htake => exact .dry hdropping hmark htake
      · next y overdue q' htake =>
        cases overdue with
        | true => exact .again hdropping hmark htake
        | false => exact .eased hdropping hmark htake
  · exact .idle

/-- The count a new episode starts from. -/
def resumedCount (f : Flow) (interval : Duration) (now : Instant) : ℕ :=
  let resumed := f.dropNext.any fun last => decide (now.since last < 16 * interval)
  if 2 < f.count && resumed then f.count - 2 else 1

/-- Start dropping. -/
def startEpisode (q : Inner) (i : Bucket) (now : Instant) : Inner :=
  (q.modify i fun f =>
    { f with count := resumedCount f q.interval now, dropping := true }).schedule divSqrt i now

/-- Deliver the head, unless the queue has been standing, in which case the head carries
the congestion signal away. -/
def codel (q : Inner) (i : Bucket) (now : Instant) : Inner × Option Queued :=
  match q.take i now with
  | none => (q, none)
  | some (x, overdue, q) =>
    if (q.flows i).dropping then
      if overdue then (dropLoop divSqrt i now).run (q, x)
      else (q.setDropping i false, some x)
    else if overdue then
      match q.mark i x with
      | some (x, q) => (q.startEpisode divSqrt i now, some x)
      | none =>
        match (q.dropOverTarget i x).take i now with
        | none => ((q.dropOverTarget i x).startEpisode divSqrt i now, none)
        | some (next, _, q) => (q.startEpisode divSqrt i now, some next)
    else (q, some x)

end Inner

end Masqr.Queue
