import Masqr.Queue.Drained
import Masqr.Lib.SumUpdate

/-!
The scheduler: deficit round-robin over the buckets, the fresh ones first, and the runs of
the whole queue.
-/

namespace Masqr.Queue

open Masqr.Lib

/-- How many quanta a deficit is short of being positive. -/
def turnsShort (deficit : ℤ) : ℕ := if 0 < deficit then 0 else (-deficit).toNat / QUANTUM + 1

lemma turnsShort_add {d : ℤ} (h : d ≤ 0) : turnsShort (d + QUANTUM) + 1 = turnsShort d := by
  unfold turnsShort
  have hq : (QUANTUM : ℤ) = 1280 := rfl
  rw [hq, if_neg (by omega : ¬0 < d), show QUANTUM = 1280 from rfl]
  by_cases h' : 0 < d + 1280
  · rw [if_pos h']; omega
  · rw [if_neg h']; omega

namespace Inner

/-- How often the scheduler can look at a bucket before it delivers or gives up. -/
def turns (q : Inner) : ℕ :=
  ∑ i, turnsShort (q.flows i).deficit + (q.fresh.length + q.backlogged.length)

/-- The bucket whose turn it is, and whether it is a fresh one. -/
def front (q : Inner) : Option (Bucket × Bool) :=
  match q.fresh.head? with
  | some i => some (i, true)
  | none => q.backlogged.head?.map fun i => (i, false)

def popList (q : Inner) (wasFresh : Bool) : Inner :=
  if wasFresh then { q with fresh := q.fresh.tail }
  else { q with backlogged := q.backlogged.tail }

/-- One more quantum, and to the back of the backlogged buckets. -/
def rotate (q : Inner) (i : Bucket) (wasFresh : Bool) : Inner :=
  let q := (q.modify i fun f => { f with deficit := f.deficit + QUANTUM }).popList wasFresh
  { q with backlogged := q.backlogged ++ [i] }

/-- Ran dry. Unlisted, so its next packet makes it fresh again. -/
def unlist (q : Inner) (i : Bucket) (wasFresh : Bool) : Inner :=
  ((q.popList wasFresh).modify i fun f => { f with listed := false }).note (.ranDry i wasFresh)

def deliver (q : Inner) (i : Bucket) (x : Queued) : Inner :=
  (q.modify i fun f => { f with deficit := f.deficit - x.packet.length }).note
    (.left i x.seq x.packet.length .delivered)

lemma front_cases {q : Inner} {i : Bucket} {wasFresh : Bool} (h : q.front = some (i, wasFresh)) :
    (wasFresh = true ∧ ∃ r, q.fresh = i :: r) ∨
      (wasFresh = false ∧ q.fresh = [] ∧ ∃ r, q.backlogged = i :: r) := by
  unfold front at h
  rcases hf : q.fresh with _ | ⟨j, r⟩
  · rcases hb : q.backlogged with _ | ⟨j, r⟩
    · simp [hf, hb] at h
    · simp only [hf, hb, List.head?_nil, List.head?_cons, Option.map_some, Option.some.injEq,
        Prod.mk.injEq] at h
      obtain ⟨rfl, rfl⟩ := h
      exact .inr ⟨rfl, rfl, r, rfl⟩
  · simp only [hf, List.head?_cons, Option.some.injEq, Prod.mk.injEq] at h
    obtain ⟨rfl, rfl⟩ := h
    exact .inl ⟨rfl, r, rfl⟩

@[simp] lemma popList_flows (q : Inner) (wasFresh : Bool) :
    (q.popList wasFresh).flows = q.flows := by cases wasFresh <;> rfl

lemma popList_length {q : Inner} {i : Bucket} {wasFresh : Bool}
    (h : q.front = some (i, wasFresh)) :
    (q.popList wasFresh).fresh.length + (q.popList wasFresh).backlogged.length + 1
      = q.fresh.length + q.backlogged.length := by
  rcases front_cases h with ⟨rfl, r, hf⟩ | ⟨rfl, hf, r, hb⟩
  · simp only [popList, if_true, hf, List.tail_cons, List.length_cons]
    omega
  · simp [popList, hf, hb]

lemma rotate_flows (q : Inner) (i : Bucket) (wasFresh : Bool) :
    (q.rotate i wasFresh).flows = Function.update q.flows i
      { q.flows i with deficit := (q.flows i).deficit + QUANTUM } := by cases wasFresh <;> rfl

lemma rotate_lists (q : Inner) (i : Bucket) (wasFresh : Bool) :
    (q.rotate i wasFresh).fresh = (q.popList wasFresh).fresh ∧
      (q.rotate i wasFresh).backlogged = (q.popList wasFresh).backlogged ++ [i] := by
  cases wasFresh <;> exact ⟨rfl, rfl⟩

@[simp] lemma rotate_packets (q : Inner) (i j : Bucket) (wasFresh : Bool) :
    ((q.rotate i wasFresh).flows j).packets = (q.flows j).packets := by
  rw [rotate_flows]
  by_cases hj : j = i <;> simp [hj]

@[simp] lemma unlist_packets (q : Inner) (i j : Bucket) (wasFresh : Bool) :
    ((q.unlist i wasFresh).flows j).packets = (q.flows j).packets := by
  by_cases hj : j = i <;> simp [unlist, hj]

@[simp] lemma deliver_packets (q : Inner) (i j : Bucket) (x : Queued) :
    ((q.deliver i x).flows j).packets = (q.flows j).packets := by
  by_cases hj : j = i <;> simp [deliver, hj]

lemma turns_rotate {q : Inner} {i : Bucket} {wasFresh : Bool} (h : q.front = some (i, wasFresh))
    (hd : (q.flows i).deficit ≤ 0) : (q.rotate i wasFresh).turns < q.turns := by
  have hsum : ∑ j, turnsShort ((q.rotate i wasFresh).flows j).deficit
      + turnsShort (q.flows i).deficit
      = ∑ j, turnsShort (q.flows j).deficit + turnsShort ((q.flows i).deficit + QUANTUM) := by
    rw [rotate_flows]
    exact sum_update q.flows i _ fun f => turnsShort f.deficit
  have ht := turnsShort_add hd
  have hl := popList_length h
  obtain ⟨h1, h2⟩ := rotate_lists q i wasFresh
  unfold turns
  rw [h1, h2, List.length_append, List.length_singleton]
  omega

lemma front_congr {q q' : Inner} (h : Drained q q') : q'.front = q.front := by
  unfold front
  rw [h.fresh, h.backlogged]

lemma turns_unlist {q q' : Inner} {i : Bucket} {wasFresh : Bool} (hq : Drained q q')
    (h : q.front = some (i, wasFresh)) : (q'.unlist i wasFresh).turns < q.turns := by
  have hsum : ∑ j, turnsShort ((q'.unlist i wasFresh).flows j).deficit
      = ∑ j, turnsShort (q.flows j).deficit := by
    refine Finset.sum_congr rfl fun j _ => congrArg _ ?_
    rw [← hq.deficit j]
    by_cases hj : j = i <;> simp [unlist, hj]
  have hl := popList_length ((front_congr hq).trans h)
  have h1 : (q'.unlist i wasFresh).fresh = (q'.popList wasFresh).fresh := rfl
  have h2 : (q'.unlist i wasFresh).backlogged = (q'.popList wasFresh).backlogged := rfl
  unfold turns
  rw [hsum, h1, h2, ← hq.fresh, ← hq.backlogged]
  omega

variable (divSqrt : Duration → ℕ → Duration)

/-- The turns of the scheduler up to the next packet delivered. -/
def serve (now : Instant) : Loop Inner (Inner × Option Queued) where
  body q :=
    match q.front with
    | none => .inr (q, none)
    | some (i, wasFresh) =>
      let q := q.note (.selected i)
      if (q.flows i).deficit ≤ 0 then .inl (q.rotate i wasFresh)
      else
        match q.codel divSqrt i now with
        | (q, some x) => .inr (q.deliver i x, some x)
        | (q, none) => .inl (q.unlist i wasFresh)
  measure := turns
  lowers {q q'} h := by
    split at h
    · cases h
    · next i wasFresh hfr =>
      dsimp only at h
      -- noting the choice leaves the front and the measure as they are
      have hfr' : (q.note (.selected i)).front = some (i, wasFresh) := hfr
      change _ < (q.note (.selected i)).turns
      split_ifs at h with hd
      · cases h
        exact turns_rotate hfr' hd
      · have hc := codel_drained divSqrt (q.note (.selected i)) i now
        split at h
        · cases h
        · next q1 hq1 =>
          cases h
          rw [hq1] at hc
          exact turns_unlist hc hfr'

/-- What one turn of the scheduler comes to. -/
inductive Turn (now : Instant) (q : Inner) : Inner ⊕ (Inner × Option Queued) → Prop
  /-- No bucket is listed. -/
  | idle : q.front = none → Turn now q (.inr (q, none))
  /-- The bucket has no credit left. -/
  | rotate {i wasFresh} : q.front = some (i, wasFresh) → (q.flows i).deficit ≤ 0 →
      Turn now q (.inl ((q.note (.selected i)).rotate i wasFresh))
  /-- The bucket has nothing to send. -/
  | dry {i wasFresh after} : q.front = some (i, wasFresh) → 0 < (q.flows i).deficit →
      (q.note (.selected i)).codel divSqrt i now = (after, none) →
      Turn now q (.inl (after.unlist i wasFresh))
  /-- The bucket sends. -/
  | deliver {i wasFresh after x} : q.front = some (i, wasFresh) → 0 < (q.flows i).deficit →
      (q.note (.selected i)).codel divSqrt i now = (after, some x) →
      Turn now q (.inr (after.deliver i x, some x))

/-- **A turn is one of the four.** -/
theorem serve_turn (now : Instant) (q : Inner) :
    Turn divSqrt now q ((serve divSqrt now).body q) := by
  simp only [serve]
  split
  · next hfront => exact .idle hfront
  · next i wasFresh hfront =>
    split_ifs with hdeficit
    · exact .rotate hfront hdeficit
    · have hcredit : 0 < (q.flows i).deficit := not_le.1 hdeficit
      split
      · next after x hcodel => exact .deliver hfront hcredit hcodel
      · next after hcodel => exact .dry hfront hcredit hcodel

/-- The next packet to send, chosen between flows and filtered by CoDel within one. -/
def dequeue (q : Inner) (now : Instant) : Inner × Option Queued := (serve divSqrt now).run q

/-- A turn only adds to the log. -/
lemma turn_log {now : Instant} {q : Inner} {r : Inner ⊕ (Inner × Option Queued)}
    (ht : Turn divSqrt now q r) : q.log <:+ (r.elim id Prod.fst).log := by
  have hnoted : ∀ i, q.log <:+ (q.note (.selected i)).log := fun i => List.suffix_cons _ _
  have hcodel : ∀ i {after x}, (q.note (.selected i)).codel divSqrt i now = (after, x) →
      q.log <:+ after.log := by
    intro i after x hcodel
    obtain ⟨more, hmore, -⟩ := (drained_of_codel divSqrt hcodel).log
    exact (hnoted i).trans ⟨more, hmore.symm⟩
  cases ht with
  | idle _ => exact List.suffix_rfl
  | @rotate i wasFresh _ _ => cases wasFresh <;> exact hnoted i
  | @dry i wasFresh after _ _ hc =>
    have hsuffix := (hcodel i hc).trans (List.suffix_cons (.ranDry i wasFresh) _)
    cases wasFresh <;> exact hsuffix
  | @deliver i wasFresh after x _ _ hc => exact (hcodel i hc).trans (List.suffix_cons _ _)

/-- What a turn does to a credit: nothing, a quantum more for one that is used up, or a packet less
for one that is not. -/
lemma turn_deficit {now : Instant} {q : Inner} {r : Inner ⊕ (Inner × Option Queued)}
    (ht : Turn divSqrt now q r) (j : Bucket) :
    ((r.elim id Prod.fst).flows j).deficit = (q.flows j).deficit ∨
    ((q.flows j).deficit ≤ 0 ∧
      ((r.elim id Prod.fst).flows j).deficit = (q.flows j).deficit + QUANTUM) ∨
    (0 < (q.flows j).deficit ∧ ∃ q' x, r = .inr (q', some x) ∧
      (q'.flows j).deficit = (q.flows j).deficit - x.packet.length) := by
  cases ht with
  | idle _ => exact .inl rfl
  | @rotate i wasFresh _ hdeficit =>
    simp only [Sum.elim_inl, id_eq, rotate_flows, note_flows]
    by_cases hj : j = i
    · subst hj
      exact .inr (.inl ⟨hdeficit, by simp⟩)
    · exact .inl (by simp [hj])
  | @dry i wasFresh after _ _ hcodel =>
    refine .inl (Eq.trans ?_ ((drained_of_codel divSqrt hcodel).deficit j))
    by_cases hj : j = i <;> simp [unlist, hj]
  | @deliver i wasFresh after x _ hcredit hcodel =>
    have hdeficit := (drained_of_codel divSqrt hcodel).deficit j
    by_cases hj : j = i
    · subst hj
      refine .inr (.inr ⟨hcredit, _, x, rfl, ?_⟩)
      simp [deliver, hdeficit]
    · exact .inl (Eq.trans (by simp [deliver, hj]) hdeficit)

/-- **The rule of a dequeue**: what its turns keep and end with is what it ends with. Of a turn it
may be used that the log the dequeue leaves shows it. -/
theorem dequeue_rule {I : Inner → Prop} {Q : Inner × Option Queued → Prop} {now : Instant}
    {q : Inner} (hturn : ∀ q₁ r, I q₁ → Turn divSqrt now q₁ r →
      (r.elim id Prod.fst).log <:+ (q.dequeue divSqrt now).1.log → Sum.elim I Q r) (hq : I q) :
    Q (q.dequeue divSqrt now) := by
  refine ((serve divSqrt now).run_rule (fun q r => q.log <:+ r.1.log ∧
    ∀ log, r.1.log <:+ log → (∀ q₁ r₁, I q₁ → Turn divSqrt now q₁ r₁ →
      (r₁.elim id Prod.fst).log <:+ log → Sum.elim I Q r₁) → I q → Q r)
    (fun q r hb => ?_) (fun q q' r hb ih => ?_) q).2 _ List.suffix_rfl hturn hq
  · have ht := serve_turn divSqrt now q
    rw [hb] at ht
    exact ⟨turn_log divSqrt ht, fun log hlog hturn hq => hturn q _ hq ht hlog⟩
  · have ht := serve_turn divSqrt now q
    rw [hb] at ht
    exact ⟨(turn_log divSqrt ht).trans ih.1, fun log hlog hturn hq =>
      ih.2 log hlog hturn (hturn q _ hq ht (ih.1.trans hlog))⟩

lemma dequeue_log (q : Inner) (now : Instant) : q.log <:+ (q.dequeue divSqrt now).1.log :=
  dequeue_rule divSqrt (I := fun q₁ => q.log <:+ q₁.log)
    (fun _ r hlog ht _ => by cases r <;> exact hlog.trans (turn_log divSqrt ht)) List.suffix_rfl

/-- Take a round trip measured on the tunnel itself, and work CoDel to it. -/
def observeRtt (q : Inner) (rtt : Duration) : Inner :=
  let scaled := rtt * RTT_TO_INTERVAL
  let blended := (q.interval * 7 + scaled) / 8
  let interval := max INTERVAL_FLOOR (min INTERVAL_CEILING blended)
  { q with interval := interval, target := interval / TARGET_SHARE }

end Inner

/-! ### Runs -/

/-- What is asked of the queue. -/
inductive Op
  | enqueue (packet : Packet)
  | dequeue
  | dropOlderThan (age : Duration)
  | observeRtt (rtt : Duration)

/-- The queue, the clock, and the packets handed out so far, in order. -/
structure Sim where
  inner : Inner
  clock : Instant
  out : List Queued

namespace Sim

def init (start : Instant) : Sim := ⟨.new, start, []⟩

variable (divSqrt : Duration → ℕ → Duration)

/-- An operation, some time after the one before it. -/
def step (s : Sim) : Duration × Op → Sim
  | (wait, .enqueue packet) =>
    ⟨s.inner.enqueue packet (s.clock + wait), s.clock + wait, s.out⟩
  | (wait, .dequeue) =>
    let (q, x) := s.inner.dequeue divSqrt (s.clock + wait)
    ⟨q, s.clock + wait, s.out ++ x.toList⟩
  | (wait, .dropOlderThan age) =>
    ⟨(s.inner.dropOlderThan (s.clock + wait) age).1, s.clock + wait, s.out⟩
  | (wait, .observeRtt rtt) => ⟨s.inner.observeRtt rtt, s.clock + wait, s.out⟩

lemma step_enqueue (s : Sim) (wait : Duration) (packet : Packet) :
    s.step divSqrt (wait, .enqueue packet)
      = ⟨s.inner.enqueue packet (s.clock + wait), s.clock + wait, s.out⟩ := rfl
lemma step_dequeue (s : Sim) (wait : Duration) :
    s.step divSqrt (wait, .dequeue) = ⟨(s.inner.dequeue divSqrt (s.clock + wait)).1,
      s.clock + wait, s.out ++ (s.inner.dequeue divSqrt (s.clock + wait)).2.toList⟩ := rfl
lemma step_dropOlderThan (s : Sim) (wait : Duration) (age : Duration) :
    s.step divSqrt (wait, .dropOlderThan age)
      = ⟨(s.inner.dropOlderThan (s.clock + wait) age).1, s.clock + wait, s.out⟩ := rfl
lemma step_observeRtt (s : Sim) (wait : Duration) (rtt : Duration) :
    s.step divSqrt (wait, .observeRtt rtt)
      = ⟨s.inner.observeRtt rtt, s.clock + wait, s.out⟩ := rfl

def run (s : Sim) (ops : List (Duration × Op)) : Sim := ops.foldl (step divSqrt) s

@[simp] lemma run_nil (s : Sim) : run divSqrt s [] = s := rfl
@[simp] lemma run_cons (s : Sim) (op : Duration × Op) (ops : List (Duration × Op)) :
    run divSqrt s (op :: ops) = run divSqrt (step divSqrt s op) ops := rfl

lemma run_append (s : Sim) (ops ops' : List (Duration × Op)) :
    run divSqrt s (ops ++ ops') = run divSqrt (run divSqrt s ops) ops' := List.foldl_append

/-- **The invariant rule of the queue's runs.** -/
theorem run_inv {I : Sim → Prop} (hstep : ∀ s op, I s → I (step divSqrt s op)) {s : Sim}
    (hs : I s) (ops : List (Duration × Op)) : I (run divSqrt s ops) := by
  induction ops generalizing s with
  | nil => exact hs
  | cons op ops ih => exact ih (hstep s op hs)

end Sim

end Masqr.Queue
