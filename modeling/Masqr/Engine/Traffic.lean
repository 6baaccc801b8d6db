import Mathlib
import Masqr.Core.State
import Masqr.Dns.History
import Masqr.Lib.Bytes
import Masqr.Lib.Run
import Masqr.Queue.Consumer

/-!
The packets of the machine on their way through one tunnel after another.

A pump takes a batch out of the queue, counts it, renews the leases of where it goes and hands it to
its tunnel; packets that come back are counted and written to the adapter. Whatever stops a pump
drops its futures where they are, and the next pump goes on with the queue as that left it.
-/

namespace Masqr

open Lib Dns Queue

def Counter.record (c : Counter) (bytes : ℕ) : Counter := ⟨c.packets + 1, c.bytes + bytes⟩

namespace Engine

/-- How many packets are taken from the queue and written as one run. -/
def BATCH : ℕ := 32

/-- Where a packet is going, if it is an IP packet. -/
def destination (packet : Packet) : Option IpAddr :=
  if version packet = some 4 ∧ 20 ≤ packet.length then
    some (.v4 (BitVec.ofNat 32 (ofBe 0 (packet.extract 16 20))))
  else if version packet = some 6 ∧ 40 ≤ packet.length then
    some (.v6 (BitVec.ofNat 128 (ofBe 0 (packet.extract 24 40))))
  else none

/-- A packet on its way out is counted, and the lease of where it goes renewed. -/
def carry (now : Instant) (core : Core) (packet : Packet) : Core :=
  let counters := { core.counters with out := core.counters.out.record packet.length }
  match destination packet with
  | some address => { core with counters := counters, leases := core.leases.touch address now }
  | none => { core with counters := counters }

/-- Where the future that carries packets out is. -/
inductive Outward
  | away
  | popping
  | sending (batch : List Queued)

/-- The batch it has in hand. -/
def Outward.inHand : Outward → List Queued
  | sending batch => batch
  | _ => []

/-- What one tunnel was handed: the batches that were sent, and the one that was being sent when it
ended. -/
structure Carried where
  sent : List (List Queued)
  cut : List Queued

def Carried.all (c : Carried) : List Queued := c.sent.flatten ++ c.cut

/-- The queue and its threads, what the core keeps, and the pump: where it is, and the batches that
were sent. Then the tunnels before it, the packets that came back, and those the adapter took. -/
structure Traffic where
  threads : Threads
  core : Core
  outward : Outward
  sent : List (List Queued)
  before : List Carried
  back : List Packet
  written : List Packet

/-- What happens next. -/
inductive Label
  -- from outside the pump
  | queue (move : Move)
  | leases (call : Leases.Call)
  -- the pump
  | opened (now : Instant)
  | pop (move : Move) (now : Instant)
  | sent (ok : Bool)
  | received (packet : Packet) (taken : Bool)
  | stopped

/-- What others than the consumer do to the queue while it may wait. -/
def fromOutside : Move → Bool
  | .push .. | .close | .notify | .observeRtt _ => true
  | _ => false

/-- What the consumer does when it is polled. -/
def ofConsumer : Move → Bool
  | .call | .look _ | .poll | .resume => true
  | _ => false

/-- A call that renews a lease comes from the pump alone. -/
def isTouch : Leases.Call → Bool
  | .touch .. => true
  | _ => false

namespace Traffic

variable (divSqrt : Duration → ℕ → Duration) (s : Traffic)

/-- The pump is over. -/
def ended (cut : List Queued) : Traffic :=
  { s with outward := .away, sent := [], before := s.before ++ [⟨s.sent, cut⟩] }

/-- The pump is dropped where it is. A future that waits is dropped between two polls. -/
def stop : Option Traffic :=
  match s.outward with
  | .away => none
  | .popping =>
    if s.threads.consumer = .unlocked then none
    else some ({ s with threads := s.threads.step divSqrt BATCH .drop }.ended [])
  | .sending batch => some (s.ended batch)

/-- What follows a poll of the consumer: nothing yet, a batch to send, or the end of the adapter. -/
def popped (threads : Threads) (now : Instant) : Traffic :=
  let batch := threads.out.drop s.threads.out.length
  if threads.answers.length = s.threads.answers.length then { s with threads := threads }
  else if batch.isEmpty then { s with threads := threads, core := s.core.stop }.ended []
  else
    { s with
      threads := threads
      core := batch.foldl (fun c x => carry now c x.packet) s.core
      outward := .sending batch }

def step : Label → Option Traffic
  | .queue move =>
    if fromOutside move then some { s with threads := s.threads.step divSqrt BATCH move } else none
  | .leases call =>
    if isTouch call then none
    else some { s with core := { s.core with leases := call.perform s.core.leases } }
  | .opened now =>
    match s.outward with
    | .away => some { s with
        threads := s.threads.step divSqrt BATCH (.dropOlderThan now STALE_AFTER)
        outward := .popping }
    | _ => none
  | .pop move now =>
    match s.outward with
    | .popping =>
      if ofConsumer move then some (s.popped (s.threads.step divSqrt BATCH move) now) else none
    | _ => none
  | .sent ok =>
    match s.outward with
    | .sending batch =>
      if ok then some { s with outward := .popping, sent := s.sent ++ [batch] }
      else some (s.ended batch)
    | _ => none
  | .received packet taken =>
    let counters := { s.core.counters with back := s.core.counters.back.record packet.length }
    let s := { s with core := { s.core with counters := counters }, back := s.back ++ [packet] }
    match s.outward with
    | .away => none
    | _ => if taken then some { s with written := s.written ++ [packet] } else s.stop divSqrt
  | .stopped => s.stop divSqrt

/-- Before the first tunnel. -/
def init (adapter : Tun.Adapter) (now : Instant) : Traffic where
  threads := .init
  core := .new adapter now
  outward := .away
  sent := []
  before := []
  back := []
  written := []

end Traffic

/-- Stopping neither asks for nor changes what the core keeps and what came back. -/
lemma Traffic.stop_with (divSqrt : Duration → ℕ → Duration) (s : Traffic) (core : Core)
    (back : List Packet) : ({ s with core := core, back := back } : Traffic).stop divSqrt =
      (s.stop divSqrt).map fun t => { t with core := core, back := back } := by
  obtain ⟨threads, core', outward, sent, before, back', written⟩ := s
  unfold Traffic.stop
  cases outward with
  | away => rfl
  | popping =>
    dsimp only
    split_ifs <;> rfl
  | sending batch => rfl

/-- One more tunnel is behind it. -/
lemma Traffic.stop_before {divSqrt : Duration → ℕ → Duration} {s t : Traffic}
    (h : s.stop divSqrt = some t) : t.before.length = s.before.length + 1 ∧
      t.written = s.written ∧ t.back = s.back ∧ t.core = s.core := by
  unfold Traffic.stop at h
  split at h
  · cases h
  · split_ifs at h
    cases h
    exact ⟨List.length_append, rfl, rfl, rfl⟩
  · cases h
    exact ⟨List.length_append, rfl, rfl, rfl⟩

/-! ### What the consumer comes back with -/

lemma fill_length (divSqrt : Duration → ℕ → Duration) (now : Instant) (room : ℕ) (q : Inner) :
    (PacketQueue.fill divSqrt now room q).2.length ≤ room := by
  induction room generalizing q with
  | zero => exact Nat.le_refl 0
  | succ room ih =>
    unfold PacketQueue.fill
    split
    · exact Nat.zero_le _
    · exact Nat.succ_le_succ (ih _)

/-- One poll of the consumer: no answer, a batch, or that there will be no more. -/
inductive Polled (s t : Threads) : Prop
  | waits (hout : t.out = s.out) (hanswers : t.answers = s.answers)
  | batch (taken : List Queued) (hout : t.out = s.out ++ taken)
      (hanswers : t.answers = s.answers ++ [true]) (hsome : taken ≠ [])
      (hroom : taken.length ≤ BATCH)
      (hidle : t.consumer = .idle)
  | ends (hout : t.out = s.out) (hanswers : t.answers = s.answers ++ [false])
      (hidle : t.consumer = .idle)

lemma polled (divSqrt : Duration → ℕ → Duration) (s : Threads) {move : Move}
    (hmove : ofConsumer move = true) : Polled s (s.step divSqrt BATCH move) := by
  cases move with
  | call =>
    simp only [Threads.step]
    split_ifs <;> exact .waits rfl rfl
  | poll =>
    simp only [Threads.step]
    split_ifs <;> exact .waits rfl rfl
  | resume =>
    simp only [Threads.step]
    split_ifs <;> exact .waits rfl rfl
  | look now =>
    have hroom := fill_length divSqrt now BATCH s.queue.inner
    simp only [Threads.step, Threads.look]
    split_ifs with hlooking hbatch hclosed
    · exact .batch _ rfl rfl hbatch hroom rfl
    · rw [not_not] at hbatch
      exact .ends (by simp [hbatch]) rfl rfl
    · rw [not_not] at hbatch
      exact .waits (by simp [hbatch]) rfl
    · exact .waits rfl rfl
  | _ => cases hmove

/-- What others do to the queue hands nothing out. -/
lemma step_outside (divSqrt : Duration → ℕ → Duration) (s : Threads) {move : Move}
    (hmove : fromOutside move = true) : (s.step divSqrt BATCH move).out = s.out ∧
      (s.step divSqrt BATCH move).answers = s.answers ∧
      (s.step divSqrt BATCH move).consumer = s.consumer := by
  cases move with
  | notify =>
    simp only [Threads.step]
    split_ifs <;> exact ⟨rfl, rfl, rfl⟩
  | push | close | observeRtt => exact ⟨rfl, rfl, rfl⟩
  | _ => cases hmove

/-- Nor does a sweep. -/
lemma step_sweep (divSqrt : Duration → ℕ → Duration) (s : Threads) (now : Instant)
    (age : Duration) : (s.step divSqrt BATCH (.dropOlderThan now age)).out = s.out ∧
      (s.step divSqrt BATCH (.dropOlderThan now age)).answers = s.answers ∧
      (s.step divSqrt BATCH (.dropOlderThan now age)).consumer = s.consumer := by
  simp only [Threads.step, and_self]

/-- A consumer that is dropped while it waits is idle, and nothing is handed out. -/
lemma step_drop (divSqrt : Duration → ℕ → Duration) (s : Threads)
    (hplace : s.consumer ≠ .unlocked) :
    (s.step divSqrt BATCH .drop).out = s.out ∧ (s.step divSqrt BATCH .drop).answers = s.answers ∧
      (s.step divSqrt BATCH .drop).consumer = .idle := by
  simp only [Threads.step]
  split_ifs with hlooking hwaiting
  · exact ⟨rfl, rfl, rfl⟩
  · exact ⟨rfl, rfl, rfl⟩
  · cases hidle : s.consumer with
    | idle => exact ⟨rfl, rfl, rfl⟩
    | looking => exact absurd hidle hlooking
    | unlocked => exact absurd hidle hplace
    | waiting => exact absurd hidle hwaiting

/-! ### What is carried -/

/-- What a batch does to the core. -/
lemma carry_all (now : Instant) (batch : List Queued) (core : Core) :
    (batch.foldl (fun c x => carry now c x.packet) core).counters =
        { core.counters with
          out := ⟨core.counters.out.packets + batch.length,
            core.counters.out.bytes + size batch⟩ } ∧
      (batch.foldl (fun c x => carry now c x.packet) core).stopped = core.stopped := by
  induction batch generalizing core with
  | nil => exact ⟨rfl, rfl⟩
  | cons x batch ih =>
    obtain ⟨hcounters, hstopped⟩ := ih (carry now core x.packet)
    have hone : (carry now core x.packet).counters =
        { core.counters with out := core.counters.out.record x.packet.length } ∧
        (carry now core x.packet).stopped = core.stopped := by
      unfold carry
      cases destination x.packet <;> exact ⟨rfl, rfl⟩
    rw [List.foldl_cons, hcounters, hstopped, hone.1, hone.2]
    refine ⟨?_, rfl⟩
    simp only [Counter.record, List.length_cons, size, List.map_cons, List.sum_cons]
    congr 2 <;> omega

/-- What was handed out of the queue so far is accounted for. -/
structure Accounted (s : Traffic) : Prop where
  live : Live s.threads
  out : s.threads.out = s.before.flatMap Carried.all ++ s.sent.flatten ++ s.outward.inHand
  hand : s.outward.inHand.length ≤ BATCH
  cut : ∀ c ∈ s.before, c.cut.length ≤ BATCH
  rest : ∀ batch, s.outward = .sending batch → s.threads.consumer = .idle
  away : s.outward = .away → s.threads.consumer = .idle ∧ s.sent = []
  counted : s.core.counters = ⟨⟨s.threads.out.length, size s.threads.out⟩,
    ⟨s.back.length, (s.back.map List.length).sum⟩⟩
  written : s.written.Sublist s.back ∧ s.back.length ≤ s.written.length + s.before.length
  last : s.core.stopped = true → false ∈ s.threads.answers

namespace Accounted

variable {divSqrt : Duration → ℕ → Duration} {s t : Traffic}

lemma init (adapter : Tun.Adapter) (now : Instant) : Accounted (.init adapter now) where
  live := .init
  out := rfl
  hand := Nat.zero_le _
  cut := fun _ h => by cases h
  rest := fun _ h => by cases h
  away := fun _ => ⟨rfl, rfl⟩
  counted := rfl
  written := ⟨.refl _, Nat.le_refl _⟩
  last := fun h => by cases h

/-- The threads move and nothing is handed out. -/
lemma moved (h : Accounted s) {move : Move}
    (hout : (s.threads.step divSqrt BATCH move).out = s.threads.out)
    (hanswers : (s.threads.step divSqrt BATCH move).answers = s.threads.answers)
    (hidle : s.threads.consumer = .idle → (s.threads.step divSqrt BATCH move).consumer = .idle) :
    Accounted { s with threads := s.threads.step divSqrt BATCH move } where
  live := h.live.step divSqrt (by decide) move
  out := hout.trans h.out
  hand := h.hand
  cut := h.cut
  rest batch hs := hidle (h.rest batch hs)
  away hs := ⟨hidle (h.away hs).1, (h.away hs).2⟩
  counted := by
    dsimp only
    rw [hout]
    exact h.counted
  written := h.written
  last hs := by
    dsimp only
    rw [hanswers]
    exact h.last hs

/-- The pump ends with what it has in hand. -/
lemma ended (h : Accounted s) (hidle : s.threads.consumer = .idle) :
    Accounted (s.ended s.outward.inHand) where
  live := h.live
  out := by
    simpa [Traffic.ended, Carried.all, Outward.inHand] using h.out
  hand := Nat.zero_le _
  cut c hc := by
    rcases List.mem_append.1 hc with hc | hc
    · exact h.cut c hc
    · cases List.mem_singleton.1 hc
      exact h.hand
  rest _ hs := by cases hs
  away _ := ⟨hidle, rfl⟩
  counted := h.counted
  written := by
    refine ⟨h.written.1, Nat.le_trans h.written.2 (Nat.add_le_add_left ?_ _)⟩
    simp [Traffic.ended]
  last := h.last

lemma stop (h : Accounted s) (ht : s.stop divSqrt = some t) : Accounted t := by
  unfold Traffic.stop at ht
  split at ht
  · cases ht
  · next hplace =>
    split_ifs at ht with hunlocked
    cases ht
    obtain ⟨hout, hanswers, hidle⟩ := step_drop divSqrt s.threads hunlocked
    have hmoved : Accounted { s with threads := s.threads.step divSqrt BATCH .drop } :=
      h.moved hout hanswers fun _ => hidle
    have hended := hmoved.ended hidle
    simpa [hplace, Outward.inHand] using hended
  · next batch hplace =>
    cases ht
    have hended := h.ended (h.rest batch hplace)
    simpa [hplace, Outward.inHand] using hended

lemma leases (h : Accounted s) (leases : Leases) :
    Accounted { s with core := { s.core with leases := leases } } :=
  ⟨h.live, h.out, h.hand, h.cut, h.rest, h.away, h.counted, h.written, h.last⟩

/-- What a poll of the consumer comes back with goes where it belongs. -/
lemma popped (h : Accounted s) (hplace : s.outward = .popping) {move : Move}
    (hmove : ofConsumer move = true) (now : Instant) :
    Accounted (s.popped (s.threads.step divSqrt BATCH move) now) := by
  have hbatch : 0 < BATCH := by decide
  have hlive := h.live.step divSqrt hbatch move
  have hpolled := polled divSqrt s.threads hmove
  have hout : s.threads.out = s.before.flatMap Carried.all ++ s.sent.flatten := by
    simpa [hplace, Outward.inHand] using h.out
  generalize s.threads.step divSqrt BATCH move = threads at hlive hpolled
  unfold Traffic.popped
  cases hpolled with
  | waits hsame hanswers =>
    rw [if_pos (by rw [hanswers])]
    refine ⟨hlive, by rw [hsame]; exact h.out, h.hand, h.cut, fun batch hs => ?_, fun hs => ?_, ?_,
      h.written, fun hs => ?_⟩
    · rw [hplace] at hs
      cases hs
    · rw [hplace] at hs
      cases hs
    · dsimp only
      rw [hsame]
      exact h.counted
    · dsimp only
      rw [hanswers]
      exact h.last hs
  | batch taken htaken hanswers hsome hroom hidle =>
    have hdrop : threads.out.drop s.threads.out.length = taken := by
      rw [htaken, List.drop_left]
    obtain ⟨hcounters, hstopped⟩ := carry_all now taken s.core
    rw [if_neg (by simp [hanswers]), hdrop, if_neg (by simpa using hsome)]
    refine ⟨hlive, ?_, hroom, h.cut, fun _ _ => hidle, fun hs => ?_, ?_, h.written, fun hs => ?_⟩
    · dsimp only [Outward.inHand]
      rw [htaken, hout]
    · cases hs
    · dsimp only
      rw [hcounters, h.counted, htaken, List.length_append, size_append]
    · dsimp only at hs
      rw [hstopped] at hs
      rw [hanswers]
      exact List.mem_append_left _ (h.last hs)
  | ends hsame hanswers hidle =>
    have hdrop : threads.out.drop s.threads.out.length = [] := by
      rw [hsame, List.drop_length]
    rw [if_neg (by simp [hanswers]), hdrop, List.isEmpty_nil, if_pos rfl]
    have hover : Accounted { s with threads := threads, core := s.core.stop } := by
      refine ⟨hlive, by rw [hsame]; exact h.out, h.hand, h.cut, fun _ _ => hidle,
        fun hs => ⟨hidle, (h.away hs).2⟩, ?_, h.written, fun _ => ?_⟩
      · dsimp only [Core.stop]
        rw [hsame]
        exact h.counted
      · dsimp only
        rw [hanswers]
        exact List.mem_append_right _ (List.mem_singleton_self _)
    simpa [hplace, Outward.inHand] using hover.ended hidle

/-- **Every step keeps account.** -/
lemma step (h : Accounted s) {label : Label} (ht : s.step divSqrt label = some t) :
    Accounted t := by
  cases label with
  | queue move =>
    simp only [Traffic.step] at ht
    split_ifs at ht with hmove
    cases ht
    obtain ⟨hout, hanswers, hconsumer⟩ := step_outside divSqrt s.threads hmove
    exact h.moved hout hanswers fun hidle => hconsumer.trans hidle
  | leases call =>
    simp only [Traffic.step] at ht
    split_ifs at ht
    cases ht
    exact h.leases _
  | opened now =>
    simp only [Traffic.step] at ht
    split at ht
    · next hplace =>
      obtain rfl := Option.some.inj ht
      obtain ⟨hout, hanswers, hconsumer⟩ := step_sweep divSqrt s.threads now STALE_AFTER
      have hmoved := h.moved hout hanswers fun hidle => hconsumer.trans hidle
      refine ⟨hmoved.live, ?_, Nat.zero_le _, h.cut, fun _ hs => ?_, fun hs => ?_, hmoved.counted,
        h.written, hmoved.last⟩
      · simpa [hplace, Outward.inHand] using hmoved.out
      · cases hs
      · cases hs
    · cases ht
  | pop move now =>
    simp only [Traffic.step] at ht
    split at ht
    · next hplace =>
      split_ifs at ht with hmove
      cases ht
      exact h.popped hplace hmove now
    · cases ht
  | sent ok =>
    simp only [Traffic.step] at ht
    split at ht
    · next batch hplace =>
      have hidle := h.rest batch hplace
      split_ifs at ht with hok
      · cases ht
        refine ⟨h.live, ?_, Nat.zero_le _, h.cut, fun _ hs => ?_, fun hs => ?_, h.counted,
          h.written, h.last⟩
        · simpa [hplace, Outward.inHand] using h.out
        · cases hs
        · cases hs
      · cases ht
        simpa [hplace, Outward.inHand] using h.ended hidle
    · cases ht
  | received packet taken =>
    have hcounted : ({ s.core.counters with back := s.core.counters.back.record packet.length } :
        Counters) = ⟨⟨s.threads.out.length, size s.threads.out⟩,
          ⟨(s.back ++ [packet]).length, ((s.back ++ [packet]).map List.length).sum⟩⟩ := by
      rw [h.counted]
      simp [Counter.record]
    simp only [Traffic.step] at ht
    split at ht
    · cases ht
    · split_ifs at ht with htaken
      · cases ht
        have hcount := h.written.2
        refine ⟨h.live, h.out, h.hand, h.cut, h.rest, h.away, hcounted, ⟨?_, ?_⟩, h.last⟩
        · exact h.written.1.append (.refl _)
        · simp only [List.length_append, List.length_singleton]
          omega
      · rw [Traffic.stop_with] at ht
        obtain ⟨u, hu, rfl⟩ := Option.map_eq_some_iff.1 ht
        have hstopped := h.stop hu
        obtain ⟨hbefore, hwritten, hback, hcore⟩ := Traffic.stop_before hu
        have hcount := h.written.2
        refine ⟨hstopped.live, hstopped.out, hstopped.hand, hstopped.cut, hstopped.rest,
          hstopped.away, ?_, ⟨?_, ?_⟩, ?_⟩
        · have hsame := hstopped.counted
          rw [hcore, h.counted] at hsame
          have hout := congrArg Counters.out hsame
          dsimp only at hout ⊢
          rw [hcounted, hout]
        · dsimp only
          rw [hwritten]
          exact h.written.1.trans (List.sublist_append_left _ _)
        · dsimp only
          rw [hwritten, hbefore, List.length_append, List.length_singleton]
          omega
        · have hlast := hstopped.last
          rw [hcore] at hlast
          exact hlast
  | stopped => exact h.stop ht

end Accounted

variable {divSqrt : Duration → ℕ → Duration} {s t : Traffic}

/-- The address is held, and not to be let go of before then. -/
def Floor (a : IpAddr) (due : ℕ) (held : Held) : Prop :=
  ∃ expires, Leases.expiry held a = some expires ∧ due ≤ expires

/-- The call neither comes after then with a sweep nor puts the address out to make room. -/
def Spares (a : IpAddr) (due : ℕ) (l : Leases) (call : Leases.Call) : Prop :=
  (∀ later : Instant, call = .expire later → (later.since l.base).asMillis < due) ∧
    ∀ es e es', call.events l.base = es ++ e :: es' → ¬ e.Evicts (Leases.after l.held es) a

/-- No call of a step lets go of the address before then. -/
def Traffic.Spares (a : IpAddr) (due : ℕ) (s : Traffic) (label : Label) : Prop :=
  ∀ call, label = .leases call → Engine.Spares a due s.core.leases call

section

variable {a : IpAddr} {due : ℕ} {held : Held}

lemma Floor.event (h : Floor a due held) {e : Leases.Event} (hkept : ¬ e.Evicts held a)
    (hearly : ∀ nowMs, e = .expire nowMs → nowMs < due) : Floor a due (e.apply held) := by
  obtain ⟨expires, hexpiry, hle⟩ := h
  cases Leases.effect held a e with
  | entered _ hafter =>
    rw [hexpiry, Option.getD_some] at hafter
    exact ⟨_, hafter, Nat.le_trans hle (Nat.le_max_left _ _)⟩
  | touched _ hafter =>
    rw [hexpiry, Option.map_some] at hafter
    exact ⟨_, hafter, Nat.le_trans hle (Nat.le_max_left _ _)⟩
  | untouched _ _ hafter => exact ⟨expires, hafter.trans hexpiry, hle⟩
  | evicted he => exact absurd he hkept
  | @expired nowMs he hafter =>
    have hlt := Nat.lt_of_lt_of_le (hearly nowMs he) hle
    rw [hexpiry, Option.filter_some, if_pos (by simpa using hlt)] at hafter
    exact ⟨expires, hafter, hle⟩

lemma Floor.events (h : Floor a due held) {events : List Leases.Event}
    (hkept : ∀ es e es', events = es ++ e :: es' → ¬ e.Evicts (Leases.after held es) a)
    (hearly : ∀ nowMs, .expire nowMs ∈ events → nowMs < due) :
    Floor a due (Leases.after held events) := by
  induction events generalizing held with
  | nil => exact h
  | cons e events ih =>
    refine ih (h.event (hkept [] e events rfl) fun nowMs he => ?_) (fun es e' es' hsplit => ?_) ?_
    · exact hearly nowMs (he ▸ List.mem_cons_self)
    · exact hkept (e :: es) e' es' (congrArg _ hsplit)
    · exact fun nowMs hmem => hearly nowMs (List.mem_cons_of_mem _ hmem)

lemma Floor.call {l : Leases} (h : Floor a due l.held) {call : Leases.Call}
    (hspares : Spares a due l call) : Floor a due (call.perform l).held := by
  rw [(Leases.perform_held l call).1]
  refine h.events hspares.2 fun nowMs hmem => ?_
  cases call with
  | record walk name records now =>
    obtain ⟨r, -, hr⟩ := List.mem_map.1 hmem
    cases hr
  | touch address now => cases List.mem_singleton.1 hmem
  | expire now =>
    cases List.mem_singleton.1 hmem
    exact hspares.1 now rfl

lemma spares_touch (l : Leases) (address : IpAddr) (now : Instant) :
    Spares a due l (.touch address now) := by
  refine ⟨fun later h => ?_, fun es e es' hsplit hevicts => ?_⟩
  · cases h
  obtain ⟨-, -, walk, nowMs, name, r, rfl⟩ := hevicts
  have hmem : Leases.Event.entry walk nowMs name r ∈
      Leases.Call.events l.base (.touch address now) := by
    rw [hsplit]
    exact List.mem_append_right _ List.mem_cons_self
  cases List.mem_singleton.1 hmem

lemma Floor.carry {core : Core} (h : Floor a due core.leases.held) (now : Instant)
    (packet : Packet) : Floor a due (carry now core packet).leases.held := by
  unfold Engine.carry
  cases destination packet with
  | none => exact h
  | some address => exact h.call (spares_touch core.leases address now)

lemma Floor.carryAll (now : Instant) (batch : List Queued) {core : Core}
    (h : Floor a due core.leases.held) :
    Floor a due (batch.foldl (fun c x => Engine.carry now c x.packet) core).leases.held := by
  induction batch generalizing core with
  | nil => exact h
  | cons x batch ih => exact ih (h.carry now x.packet)

/-- **Use renews a lease.** -/
lemma floor_carry {core : Core} {packet : Packet} {now : Instant}
    (hto : destination packet = some a) (hheld : a ∈ core.leases.held) :
    Floor a ((now.since core.leases.base).asMillis + MIN_LEASE.asMillis)
      (Engine.carry now core packet).leases.held := by
  obtain ⟨expires, hexpiry⟩ := Option.isSome_iff_exists.1 (Leases.mem_iff_expiry.1 hheld)
  have hleases : (Engine.carry now core packet).leases = core.leases.touch a now := by
    unfold Engine.carry
    rw [hto]
  obtain ⟨lease, hlease, -⟩ := Option.map_eq_some_iff.1 hexpiry
  rw [hleases, Leases.touch, hlease]
  refine ⟨_, (Leases.expiry_insert).trans (if_pos rfl), Nat.le_max_right _ _⟩

lemma carry_leases (now : Instant) (core : Core) (packet : Packet) :
    (Engine.carry now core packet).leases.base = core.leases.base ∧
      ∀ b, b ∈ (Engine.carry now core packet).leases.held ↔ b ∈ core.leases.held := by
  unfold Engine.carry
  cases destination packet with
  | none => exact ⟨rfl, fun _ => Iff.rfl⟩
  | some address =>
    exact ⟨(Leases.perform_held core.leases (.touch address now)).2, fun _ => Leases.mem_touch⟩

/-- Every packet of a batch renews the lease of where it goes. -/
lemma floor_carryAll {now : Instant} {batch : List Queued} {x : Queued} {core : Core}
    (hx : x ∈ batch) (hto : destination x.packet = some a) (hheld : a ∈ core.leases.held) :
    Floor a ((now.since core.leases.base).asMillis + MIN_LEASE.asMillis)
      (batch.foldl (fun c x => Engine.carry now c x.packet) core).leases.held := by
  induction batch generalizing core with
  | nil => cases hx
  | cons y batch ih =>
    obtain ⟨hbase, hmem⟩ := carry_leases now core y.packet
    rcases List.mem_cons.1 hx with rfl | hx
    · exact Floor.carryAll now batch (floor_carry hto hheld)
    · have hlater := ih hx ((hmem a).2 hheld)
      rw [hbase] at hlater
      exact hlater

/-- A step that spares the address keeps it. -/
lemma Floor.step (h : Floor a due s.core.leases.held) {label : Label}
    (hspares : s.Spares a due label) (ht : s.step divSqrt label = some t) :
    Floor a due t.core.leases.held := by
  cases label with
  | queue move =>
    simp only [Traffic.step] at ht
    split_ifs at ht
    cases ht
    exact h
  | leases call =>
    simp only [Traffic.step] at ht
    split_ifs at ht
    cases ht
    exact h.call (hspares call rfl)
  | opened now =>
    simp only [Traffic.step] at ht
    split at ht
    · obtain rfl := Option.some.inj ht
      exact h
    · cases ht
  | pop move now =>
    simp only [Traffic.step] at ht
    split at ht
    · split_ifs at ht
      cases ht
      unfold Traffic.popped
      dsimp only
      split_ifs
      · exact h
      · exact h
      · exact h.carryAll now _
    · cases ht
  | sent ok =>
    simp only [Traffic.step] at ht
    split at ht
    · split_ifs at ht <;> cases ht <;> exact h
    · cases ht
  | received packet taken =>
    simp only [Traffic.step] at ht
    split at ht
    · cases ht
    · split_ifs at ht
      · cases ht
        exact h
      · rw [(Traffic.stop_before ht).2.2.2]
        exact h
  | stopped =>
    rw [(Traffic.stop_before ht).2.2.2]
    exact h

end

/-- **The route of an address in use stays.** Where a pump takes a packet out to an address the
table holds, the address is held from then on for as long as a lease lasts at the least, whatever
becomes of the tunnel, unless an answer puts it out to make room. The time is counted as the table
counts it, in whole milliseconds since it was made, and a batch is popped and its addresses touched
in one step. -/
theorem in_use_kept {move : Move} {now : Instant} {x : Queued} {a : IpAddr} {s' : Traffic}
    {labels : List Label} (hpop : s.step divSqrt (.pop move now) = some s')
    (hx : x ∈ s'.outward.inHand) (hto : destination x.packet = some a)
    (hheld : a ∈ s.core.leases.held) (hrun : run (Traffic.step divSqrt) s' labels = some t)
    (hspared : Meets (Traffic.step divSqrt) (Traffic.Spares a
      ((now.since s.core.leases.base).asMillis + MIN_LEASE.asMillis)) s' labels) :
    a ∈ t.core.leases.held := by
  have hfloor : Floor a ((now.since s.core.leases.base).asMillis + MIN_LEASE.asMillis)
      s'.core.leases.held := by
    simp only [Traffic.step] at hpop
    split at hpop
    · next hplace =>
      split_ifs at hpop
      obtain rfl := Option.some.inj hpop
      unfold Traffic.popped at hx ⊢
      dsimp only at hx ⊢
      split_ifs at hx ⊢
      · rw [hplace] at hx
        cases hx
      · cases hx
      · exact floor_carryAll hx hto hheld
    · cases hpop
  obtain ⟨expires, hexpiry, -⟩ := hspared.run_inv
    (fun u label u' hlabel (hu : Floor a _ u.core.leases.held) hstep => hu.step hlabel hstep)
    hfloor hrun
  exact Leases.mem_iff_expiry.2 (by rw [hexpiry]; rfl)

/-- An address leased for the shortest time there is, and half of that later a packet to it. -/
def busy : List Label :=
  [.leases (.record .asHeld "a" [⟨"a", .v4 (BitVec.ofNat 32 0), 30⟩] 0),
    .queue (.push (0x45 :: List.replicate 19 0) (Duration.secs 300)), .opened (Duration.secs 300),
    .pop .call (Duration.secs 300)]

def inUse : Traffic :=
  (run (Traffic.step fun interval _ => interval) (.init ⟨fun _ => 0, fun _ => 0⟩ 0) busy).getD
    (.init ⟨fun _ => 0, fun _ => 0⟩ 0)

/-- The packet is on its way, and the sweep comes that would have let go of the address. -/
def sweeping : List Label := [.sent true, .leases (.expire (Duration.secs 700))]

theorem in_use_kept_sweeping : ∃ s' t, inUse.step (fun interval _ => interval)
    (.pop (.look (Duration.secs 300)) (Duration.secs 300)) = some s' ∧
    run (Traffic.step fun interval _ => interval) s' sweeping = some t ∧
    .v4 (BitVec.ofNat 32 0) ∈ t.core.leases.held := by
  have hsome {o : Option Traffic} (ho : o.isSome = true) : o = some (o.getD inUse) := by
    cases o with
    | none => cases ho
    | some s => rfl
  have hpop := hsome (o := inUse.step (fun interval _ => interval)
    (.pop (.look (Duration.secs 300)) (Duration.secs 300))) (by decide +kernel)
  have hrun := hsome (o := run (Traffic.step fun interval _ => interval)
    ((inUse.step (fun interval _ => interval)
      (.pop (.look (Duration.secs 300)) (Duration.secs 300))).getD inUse) sweeping)
    (by decide +kernel)
  have hx : ∃ x ∈ ((inUse.step (fun interval _ => interval)
      (.pop (.look (Duration.secs 300)) (Duration.secs 300))).getD inUse).outward.inHand,
      destination x.packet = some (.v4 (BitVec.ofNat 32 0)) := by decide +kernel
  have hheld : .v4 (BitVec.ofNat 32 0) ∈ inUse.core.leases.held := by decide +kernel
  have hbase : inUse.core.leases.base = 0 := by decide +kernel
  obtain ⟨x, hx, hto⟩ := hx
  refine ⟨_, _, hpop, hrun, in_use_kept hpop hx hto hheld hrun ?_⟩
  refine Meets.of_forall (fun label hlabel u call hcall => ?_) _
  subst hcall
  rcases List.mem_cons.1 hlabel with hlabel | hlabel
  · cases hlabel
  · cases List.mem_singleton.1 hlabel
    refine ⟨fun later hlater => ?_, fun es e es' hsplit hevicts => ?_⟩
    · cases hlater
      rw [hbase]
      exact Nat.lt_of_le_of_lt (Nat.div_le_div_right (Nat.sub_le _ _)) (by decide +kernel)
    · obtain ⟨-, -, walk, nowMs, name, r, rfl⟩ := hevicts
      have hmem : Leases.Event.entry walk nowMs name r ∈
          Leases.Call.events u.core.leases.base (.expire (Duration.secs 700)) := by
        rw [hsplit]
        exact List.mem_append_right _ List.mem_cons_self
      cases List.mem_singleton.1 hmem

end Engine

end Masqr
