import Masqr.Lib.Notify
import Masqr.Queue.Conserving
import Masqr.Queue.Order

/-!
The queue between its threads: what pushes and closes on one side, and the one consumer on the
other, which may be dropped while it waits and started again.

Each call is as many steps as it takes the lock and touches the notification. A consumer that has
looked and found nothing lets go of the lock before it waits, and whatever was done in between is
told to it by a permit. The steps may come in any order and at any times.
-/

namespace Masqr.Queue

open Masqr.Lib

/-- The queue as its threads share it. -/
structure PacketQueue where
  inner : Inner
  closed : Bool
  ready : Notify

namespace PacketQueue

def new : PacketQueue := ⟨.new, false, .new⟩

/-- What `push` does under the lock, and whether the packet was taken. -/
def push (q : PacketQueue) (packet : Packet) (now : Instant) : Bool × PacketQueue :=
  if q.closed then (false, q) else (true, { q with inner := q.inner.enqueue packet now })

/-- What `close` does under the lock. -/
def close (q : PacketQueue) : PacketQueue := { q with closed := true }

variable (divSqrt : Duration → ℕ → Duration)

/-- Up to so many packets, as long as there are any. -/
def fill (now : Instant) : ℕ → Inner → Inner × List Queued
  | 0, q => (q, [])
  | room + 1, q =>
    match q.dequeue divSqrt now with
    | (q, none) => (q, [])
    | (q, some x) => ((fill now room q).1, x :: (fill now room q).2)

end PacketQueue

/-- Where the consumer is in `pop_batch`: not in it, about to take the lock, past it with nothing in
hand, or waiting. -/
inductive Place | idle | looking | unlocked | waiting
  deriving DecidableEq

/-- The queue and its threads: how many calls of `push` and `close` have yet to notify, where the
consumer is, the packets it was handed, and what its calls answered. -/
structure Threads where
  queue : PacketQueue
  notifying : ℕ
  consumer : Place
  out : List Queued
  answers : List Bool

/-- What a thread does next. -/
inductive Move
  | push (packet : Packet) (now : Instant)
  | close
  | notify
  | dropOlderThan (now : Instant) (age : Duration)
  | observeRtt (rtt : Duration)
  | call
  | look (now : Instant)
  | poll
  | resume
  | drop

namespace Threads

def init : Threads := ⟨.new, 0, .idle, [], []⟩

variable (divSqrt : Duration → ℕ → Duration) (max : ℕ)

/-- The consumer looks, with the lock: it answers with what it found, or that there will be no more,
or goes to wait. -/
def look (s : Threads) (now : Instant) : Threads :=
  let (inner, batch) := PacketQueue.fill divSqrt now max s.queue.inner
  let s := { s with queue := { s.queue with inner := inner }, out := s.out ++ batch }
  if batch ≠ [] then { s with consumer := .idle, answers := s.answers ++ [true] }
  else if s.queue.closed then { s with consumer := .idle, answers := s.answers ++ [false] }
  else { s with consumer := .unlocked }

/-- One move of one thread. What a thread cannot do where it is does nothing. -/
def step (s : Threads) : Move → Threads
  | .push packet now =>
    let (taken, queue) := s.queue.push packet now
    { s with queue := queue, notifying := if taken then s.notifying + 1 else s.notifying }
  | .close => { s with queue := s.queue.close, notifying := s.notifying + 1 }
  | .notify =>
    if s.notifying = 0 then s
    else
      { s with
        queue := { s.queue with ready := s.queue.ready.notifyOne }
        notifying := s.notifying - 1 }
  | .dropOlderThan now age =>
    { s with queue := { s.queue with inner := (s.queue.inner.dropOlderThan now age).1 } }
  | .observeRtt rtt =>
    { s with queue := { s.queue with inner := s.queue.inner.observeRtt rtt } }
  | .call => if s.consumer = .idle then { s with consumer := .looking } else s
  | .look now => if s.consumer = .looking then s.look divSqrt max now else s
  | .poll =>
    if s.consumer = .unlocked then
      let (permit, ready) := s.queue.ready.poll
      { s with
        queue := { s.queue with ready := ready }
        consumer := if permit then .looking else .waiting }
    else s
  | .resume =>
    if s.consumer = .waiting ∧ s.queue.ready.waiter = .woken then
      { s with queue := { s.queue with ready := s.queue.ready.resume }, consumer := .looking }
    else s
  | .drop =>
    -- a future is dropped between two polls: before it has run, or while it waits
    if s.consumer = .looking then { s with consumer := .idle }
    else if s.consumer = .waiting then
      { s with queue := { s.queue with ready := s.queue.ready.drop }, consumer := .idle }
    else s

def run (s : Threads) (moves : List Move) : Threads := moves.foldl (step divSqrt max) s

/-- The queue holds a packet. -/
def Holds (s : Threads) : Prop := ∃ i, (s.queue.inner.flows i).packets ≠ []

/-- The consumer waits, or has found nothing and is about to. -/
def Waits (s : Threads) : Prop := s.consumer = .unlocked ∨ s.consumer = .waiting

/-- A wake-up is there for the consumer, or on its way from a call that has yet to notify. -/
def WakeUp (s : Threads) : Prop := s.queue.ready.Available ∨ 0 < s.notifying

@[simp] lemma run_nil (s : Threads) : run divSqrt max s [] = s := rfl

lemma run_cons (s : Threads) (move : Move) (moves : List Move) :
    run divSqrt max s (move :: moves) = run divSqrt max (s.step divSqrt max move) moves := rfl

/-- **The invariant rule of the threads.** -/
theorem run_inv {I : Threads → Prop} (hstep : ∀ s move, I s → I (s.step divSqrt max move))
    {s : Threads} (hs : I s) (moves : List Move) : I (s.run divSqrt max moves) := by
  induction moves generalizing s with
  | nil => exact hs
  | cons move moves ih => exact ih (hstep s move hs)

end Threads

/-! ### What the consumer takes -/

/-- The books do not ask for the time. -/
lemma Books.anytime {q : Inner} {out : List Queued} {t : Instant} (h : Books ⟨q, t, out⟩)
    (t' : Instant) : Books ⟨q, t', out⟩ := ⟨h.straight, h.listed, h.handed⟩

lemma Books.enqueue {q : Inner} {out : List Queued} (h : Books ⟨q, 0, out⟩) (packet : Packet)
    (now : Instant) : Books ⟨q.enqueue packet now, 0, out⟩ :=
  ⟨Inner.enqueue_straight packet now h.straight, h.listed.enqueue packet now,
    fun x hx => (h.handed x hx).mono (Inner.enqueue_arrived _ _ _)⟩

lemma Books.dropOlderThan {q : Inner} {out : List Queued} (h : Books ⟨q, 0, out⟩) (now : Instant)
    (age : Duration) : Books ⟨(q.dropOlderThan now age).1, 0, out⟩ := by
  have hdrained := Inner.dropOlderThan_drained q now age
  have hstraight := Inner.dropOlderThan_straight now age h.straight
  generalize q.dropOlderThan now age = r at hdrained hstraight ⊢
  exact ⟨hstraight, h.listed.drained hdrained, fun x hx => (h.handed x hx).same hdrained.arrived⟩

lemma Books.observeRtt {q : Inner} {out : List Queued} (h : Books ⟨q, 0, out⟩) (rtt : Duration) :
    Books ⟨q.observeRtt rtt, 0, out⟩ :=
  ⟨h.straight.same (fun _ => ⟨rfl, rfl⟩) ⟨rfl, rfl, rfl⟩ ⟨rfl, rfl, rfl, rfl⟩ rfl rfl,
    ⟨h.listed.once, h.listed.busy⟩, h.handed⟩

namespace PacketQueue

variable (divSqrt : Duration → ℕ → Duration)

/-- What the consumer takes it takes in order, and it stops short of its room only where there is no
more. -/
lemma fill_books (now : Instant) (room : ℕ) {q : Inner} {out : List Queued}
    (h : Books ⟨q, 0, out⟩) :
    Books ⟨(fill divSqrt now room q).1, 0, out ++ (fill divSqrt now room q).2⟩ := by
  induction room generalizing q out with
  | zero => simpa [fill] using h
  | succ room ih =>
    have hnext : Books ⟨(q.dequeue divSqrt now).1, 0,
        out ++ (q.dequeue divSqrt now).2.toList⟩ := by
      have hstep := h.step divSqrt (now, .dequeue)
      rw [Sim.step_dequeue, Nat.zero_add] at hstep
      exact hstep.anytime 0
    unfold fill
    split
    · next q' hnone =>
      rw [hnone] at hnext
      exact hnext
    · next q' x hsome =>
      rw [hsome] at hnext
      have hrest := ih hnext
      rw [Option.toList_some, List.append_assoc] at hrest
      exact hrest

lemma fill_drains (now : Instant) (room : ℕ) (q : Inner) (i : Bucket) :
    ((fill divSqrt now room q).1.flows i).packets.Sublist (q.flows i).packets := by
  induction room generalizing q with
  | zero => exact .refl _
  | succ room ih =>
    have hnext := (Inner.dequeue_inTurn divSqrt q now).packets i
    unfold fill
    split
    · next q' hnone =>
      rw [hnone] at hnext
      exact hnext
    · next q' x hsome =>
      rw [hsome] at hnext
      exact (ih q').trans hnext

/-- **The consumer finds nothing exactly where there is nothing.** -/
lemma fill_eq_nil (now : Instant) {room : ℕ} (hroom : 0 < room) {q : Inner} {out : List Queued}
    (h : Books ⟨q, 0, out⟩) :
    (fill divSqrt now room q).2 = [] ↔ ∀ i, (q.flows i).packets = [] := by
  obtain ⟨room, rfl⟩ := Nat.exists_eq_succ_of_ne_zero hroom.ne'
  rw [← Inner.dequeue_none_iff divSqrt h.straight h.listed now]
  unfold fill
  split
  · next q' hnone => exact iff_of_true rfl (by rw [hnone])
  · next q' x hsome => exact iff_of_false (List.cons_ne_nil _ _) (by rw [hsome]; simp)

end PacketQueue

/-! ### The invariant -/

/-- Whoever goes to wait while there is something to be told has it coming, the books of the queue
are straight, and one call that answered that there will be no more is the last word. -/
structure Live (s : Threads) : Prop where
  waiting : s.consumer = .waiting ↔ s.queue.ready.waiter ≠ .away
  told : s.Waits → s.Holds ∨ s.queue.closed = true → s.WakeUp
  books : Books ⟨s.queue.inner, 0, s.out⟩
  ended : false ∈ s.answers → s.queue.closed = true ∧ ¬s.Holds
  last : s.answers.Pairwise fun a b => a = false → b = false

namespace Live

variable {s : Threads}

lemma init : Live .init where
  waiting := by simp [Threads.init, PacketQueue.new, Notify.new]
  told h := by
    rcases h with h | h <;> cases h
  books := .init 0
  ended h := absurd h List.not_mem_nil
  last := .nil

lemma waiter_away (h : Live s) (hplace : s.consumer ≠ .waiting) : s.queue.ready.waiter = .away := by
  by_contra hne
  exact hplace (h.waiting.2 hne)

/-- What only takes packets out of the queue leaves nobody waiting for more. -/
lemma drained (h : Live s) {inner : Inner} (hbooks : Books ⟨inner, 0, s.out⟩)
    (hpackets : ∀ i, (inner.flows i).packets.Sublist (s.queue.inner.flows i).packets) :
    Live { s with queue := { s.queue with inner := inner } } := by
  have hholds : (∃ i, (inner.flows i).packets ≠ []) → s.Holds := by
    rintro ⟨i, hi⟩
    exact ⟨i, fun hempty => hi (List.sublist_nil.1 (hempty ▸ hpackets i))⟩
  exact ⟨h.waiting, fun hwaits hbusy => h.told hwaits (hbusy.imp_left hholds), hbooks,
    fun hend => ⟨(h.ended hend).1, fun hmore => (h.ended hend).2 (hholds hmore)⟩, h.last⟩

/-- A call that has something to tell is on its way to tell it. -/
lemma push (h : Live s) (packet : Packet) (now : Instant) (divSqrt : Duration → ℕ → Duration)
    (max : ℕ) : Live (s.step divSqrt max (.push packet now)) := by
  cases hclosed : s.queue.closed with
  | true =>
    have hstep : s.step divSqrt max (.push packet now) = s := by
      simp [Threads.step, PacketQueue.push, hclosed]
    rw [hstep]
    exact h
  | false =>
    have hstep : s.step divSqrt max (.push packet now) =
        { s with
          queue := { s.queue with inner := s.queue.inner.enqueue packet now }
          notifying := s.notifying + 1 } := by
      simp [Threads.step, PacketQueue.push, hclosed]
    rw [hstep]
    refine ⟨h.waiting, fun _ _ => .inr (Nat.succ_pos _), h.books.enqueue packet now,
      fun hend => ?_, h.last⟩
    have htrue := (h.ended hend).1
    rw [hclosed] at htrue
    cases htrue

lemma close (h : Live s) (divSqrt : Duration → ℕ → Duration) (max : ℕ) :
    Live (s.step divSqrt max .close) :=
  ⟨h.waiting, fun _ _ => .inr (Nat.succ_pos _), h.books, fun hend => ⟨rfl, (h.ended hend).2⟩,
    h.last⟩

lemma notify (h : Live s) (divSqrt : Duration → ℕ → Duration) (max : ℕ) :
    Live (s.step divSqrt max .notify) := by
  simp only [Threads.step]
  split_ifs
  · exact h
  · refine ⟨?_, fun _ _ => .inl (Notify.available_notifyOne _), h.books, h.ended, h.last⟩
    rw [ne_eq, Notify.waiter_notifyOne]
    exact h.waiting

/-- Nobody waits: it is no matter what is told. -/
lemma away (h : Live s) {consumer : Place} {ready : Notify}
    (hplace : consumer = .idle ∨ consumer = .looking) (hready : ready.waiter = .away) :
    Live { s with queue := { s.queue with ready := ready }, consumer := consumer } := by
  refine ⟨?_, fun hwaits => ?_, h.books, h.ended, h.last⟩
  · rcases hplace with rfl | rfl <;> simp [hready]
  · rcases hplace with rfl | rfl <;> rcases hwaits with hwaits | hwaits <;> cases hwaits

/-- **The consumer goes to wait only where it has not been told, or takes what it was told.** -/
lemma poll (h : Live s) (divSqrt : Duration → ℕ → Duration) (max : ℕ) :
    Live (s.step divSqrt max .poll) := by
  simp only [Threads.step]
  split_ifs with hplace hpoll
  · have hready := Notify.waiter_poll s.queue.ready
    rw [if_pos hpoll] at hready
    exact h.away (.inr rfl) hready
  · have hready := Notify.waiter_poll s.queue.ready
    rw [if_neg hpoll] at hready
    refine ⟨by simp [hready], fun _ hbusy => ?_, h.books, h.ended, h.last⟩
    exact .inr ((h.told (.inl hplace) hbusy).resolve_left
      (Notify.not_available_of_poll (h.waiter_away (by simp [hplace])) (by simpa using hpoll)))
  · exact h

/-- **What the consumer finds when it looks.** -/
lemma look (h : Live s) (divSqrt : Duration → ℕ → Duration) {max : ℕ} (hmax : 0 < max)
    (hplace : s.consumer = .looking) (now : Instant) :
    Live (s.look divSqrt max now) := by
  have hbooks := PacketQueue.fill_books divSqrt now max h.books
  have hdrains := PacketQueue.fill_drains divSqrt now max s.queue.inner
  have hnil := PacketQueue.fill_eq_nil divSqrt now hmax h.books
  have haway := h.waiter_away (by simp [hplace])
  unfold Threads.look
  generalize PacketQueue.fill divSqrt now max s.queue.inner = filled at *
  obtain ⟨inner, batch⟩ := filled
  dsimp only at *
  have hempty : batch = [] → ∀ i, (inner.flows i).packets = [] := fun hbatch i =>
    List.sublist_nil.1 (hnil.1 hbatch i ▸ hdrains i)
  split_ifs with hbatch hclosed
  · have hmore : ∃ i, (s.queue.inner.flows i).packets ≠ [] := by
      by_contra hnone
      exact hbatch (hnil.2 fun i => not_not.1 fun hi => hnone ⟨i, hi⟩)
    have hnot : false ∉ s.answers := fun hend => (h.ended hend).2 hmore
    refine ⟨by simp [haway], fun hwaits => ?_, hbooks, fun hend => ?_, ?_⟩
    · rcases hwaits with hwaits | hwaits <;> cases hwaits
    · rcases List.mem_append.1 hend with hend | hend
      · exact absurd hend hnot
      · cases List.mem_singleton.1 hend
    · refine List.pairwise_append.2 ⟨h.last, List.pairwise_singleton _ _, fun a ha b _ hfalse => ?_⟩
      exact absurd (hfalse ▸ ha) hnot
  · rw [not_not] at hbatch
    refine ⟨by simp [haway], fun hwaits => ?_, hbooks, fun _ => ⟨hclosed, ?_⟩, ?_⟩
    · rcases hwaits with hwaits | hwaits <;> cases hwaits
    · rintro ⟨i, hi⟩
      exact hi (hempty hbatch i)
    · refine List.pairwise_append.2 ⟨h.last, List.pairwise_singleton _ _, fun a _ b hb _ => ?_⟩
      exact List.mem_singleton.1 hb
  · rw [not_not] at hbatch
    refine ⟨by simp [haway], fun _ hbusy => ?_, hbooks, fun hend => ?_, h.last⟩
    · rcases hbusy with ⟨i, hi⟩ | hbusy
      · exact absurd (hempty hbatch i) hi
      · exact absurd hbusy hclosed
    · exact absurd (h.ended hend).1 hclosed

lemma step (h : Live s) (divSqrt : Duration → ℕ → Duration) {max : ℕ} (hmax : 0 < max)
    (move : Move) : Live (s.step divSqrt max move) := by
  cases move with
  | push packet now => exact h.push packet now divSqrt max
  | close => exact h.close divSqrt max
  | notify => exact h.notify divSqrt max
  | dropOlderThan now age =>
    have hpackets := (Inner.dropOlderThan_drained s.queue.inner now age).packets
    have hbooks := h.books.dropOlderThan now age
    simp only [Threads.step]
    generalize s.queue.inner.dropOlderThan now age = r at hpackets hbooks ⊢
    exact h.drained hbooks hpackets
  | observeRtt rtt => exact h.drained (h.books.observeRtt rtt) fun _ => .refl _
  | call =>
    simp only [Threads.step]
    split_ifs with hplace
    · exact h.away (.inr rfl) (h.waiter_away (by simp [hplace]))
    · exact h
  | look now =>
    simp only [Threads.step]
    split_ifs with hplace
    · exact h.look divSqrt hmax hplace now
    · exact h
  | poll => exact h.poll divSqrt max
  | resume =>
    simp only [Threads.step]
    split_ifs with hplace
    · exact h.away (.inr rfl) rfl
    · exact h
  | drop =>
    simp only [Threads.step]
    split_ifs with hplace hplace'
    · exact h.away (.inl rfl) (h.waiter_away (by simp [hplace]))
    · refine h.away (.inl rfl) ?_
      unfold Notify.drop
      split_ifs <;> rfl
    · exact h

lemma run (divSqrt : Duration → ℕ → Duration) {max : ℕ} (hmax : 0 < max) (moves : List Move) :
    Live (Threads.run divSqrt max .init moves) :=
  Threads.run_inv divSqrt max (fun _ move h => h.step divSqrt hmax move) init moves

end Live

/-- What a look comes to in a queue that is closed. -/
lemma Live.look_closed {s : Threads} (h : Live s) (divSqrt : Duration → ℕ → Duration) {max : ℕ}
    (hmax : 0 < max) (hclosed : s.queue.closed = true) (now : Instant) :
    (s.look divSqrt max now).consumer = .idle ∧
      ((s.Holds ∧ (s.look divSqrt max now).answers = s.answers ++ [true] ∧
        s.out.length < (s.look divSqrt max now).out.length) ∨
      (¬s.Holds ∧ (s.look divSqrt max now).answers = s.answers ++ [false])) := by
  have hnil := PacketQueue.fill_eq_nil divSqrt now hmax h.books
  unfold Threads.look
  generalize PacketQueue.fill divSqrt now max s.queue.inner = filled at *
  obtain ⟨inner, batch⟩ := filled
  dsimp only at *
  by_cases hbatch : batch = []
  · have hnone : ¬s.Holds := by
      rintro ⟨i, hi⟩
      exact hi (hnil.1 hbatch i)
    rw [if_neg (not_not.2 hbatch), if_pos hclosed]
    exact ⟨rfl, .inr ⟨hnone, rfl⟩⟩
  · have hsome : s.Holds := by
      by_contra hnone
      exact hbatch (hnil.2 fun i => not_not.1 fun hi => hnone ⟨i, hi⟩)
    have hpos := List.length_pos_of_ne_nil hbatch
    rw [if_pos hbatch]
    refine ⟨rfl, .inl ⟨hsome, rfl, ?_⟩⟩
    rw [List.length_append]
    omega

/-- **The consumer is never left asleep.** In whatever order the threads move, and wherever the
consumer is dropped and started again, it does not wait while the queue holds a packet or is closed
unless a wake-up is there or on its way. Once the queue is closed a call that looks answers, with
what it finds or, where there is nothing, that there will be no more; a call that answers so finds
every packet handed out or counted as dropped, and all that follow answer the same. -/
theorem consumer_wakes (divSqrt : Duration → ℕ → Duration) (max : ℕ) (hmax : 0 < max)
    (moves : List Move) :
    let s := Threads.run divSqrt max .init moves
    (s.Waits → s.Holds ∨ s.queue.closed = true → s.WakeUp) ∧
    (s.queue.closed = true → s.consumer = .looking → ∀ now,
      let s' := s.step divSqrt max (.look now)
      s'.consumer = .idle ∧
        ((s.Holds ∧ s'.answers = s.answers ++ [true] ∧ s.out.length < s'.out.length) ∨
          (¬s.Holds ∧ s'.answers = s.answers ++ [false]))) ∧
    (false ∈ s.answers → s.queue.closed = true ∧ ¬s.Holds ∧
      seqs s.out + s.queue.inner.lost = Multiset.range s.queue.inner.arrived.length ∧
      ∀ fate, fate ≠ .delivered →
        (gone fate s.queue.inner.log).card = s.queue.inner.tally 0 fate) ∧
    s.answers.Pairwise fun a b => a = false → b = false := by
  intro s
  have hlive := Live.run divSqrt hmax moves
  refine ⟨hlive.told, fun hclosed hplace now => ?_, fun hend => ?_, hlive.last⟩
  · have hstep : s.step divSqrt max (.look now) = s.look divSqrt max now := if_pos hplace
    rw [hstep]
    exact hlive.look_closed divSqrt hmax hclosed now
  · obtain ⟨hclosed, hnone⟩ := hlive.ended hend
    refine ⟨hclosed, hnone, ?_, hlive.books.straight.counted⟩
    have hledger := hlive.books.straight.ledger
    have hwaiting : s.queue.inner.waiting = 0 := by
      refine Finset.sum_eq_zero fun i _ => ?_
      have hempty : (s.queue.inner.flows i).packets = [] :=
        not_not.1 fun hi => hnone ⟨i, hi⟩
      rw [hempty]
      rfl
    calc seqs s.out + s.queue.inner.lost = s.queue.inner.waiting + s.queue.inner.lost + seqs s.out := by
          rw [hwaiting]
          abel
      _ = Multiset.range s.queue.inner.arrived.length := hledger

/-- A close between the look of a consumer and its wait is told to it. -/
theorem consumer_wakes_close :
    0 < 32 ∧
    let s := Threads.run (fun interval _ => interval) 32 .init [.call, .look 0, .close, .poll]
    s.Waits → s.Holds ∨ s.queue.closed = true → s.WakeUp :=
  ⟨by decide, (consumer_wakes (fun interval _ => interval) 32 (by decide)
    [.call, .look 0, .close, .poll]).1⟩

end Masqr.Queue
