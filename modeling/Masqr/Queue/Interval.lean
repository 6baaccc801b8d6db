import Masqr.Lib.Smoothing
import Masqr.Queue.Totals

/-!
The interval CoDel works to, and the round trips it is taken from.

Observing one is here a second time with the products and sums that would stop it if they came to
more than a span can be. From the interval the queue begins with none does.
-/

namespace Masqr.Queue

open Masqr.Lib

namespace Checked

/-- A round trip is taken in, with every product and sum checked. -/
def observeRtt (q : Inner) (rtt : Duration) : Option Inner := do
  let scaled ← rtt.times RTT_TO_INTERVAL
  let sevenths ← q.interval.times 7
  let blended := (← sevenths.plus scaled) / 8
  let interval := max INTERVAL_FLOOR (min INTERVAL_CEILING blended)
  return { q with interval := interval, target := interval / TARGET_SHARE }

end Checked

/-- Where a round trip pulls the interval: four times as long, or the bound that is beyond. -/
def goal (rtt : Duration) : Duration :=
  max INTERVAL_FLOOR (min INTERVAL_CEILING (rtt * RTT_TO_INTERVAL))

/-- The interval is inside its bounds, and the target is its share. -/
structure Tuned (q : Inner) : Prop where
  bounds : q.interval ∈ Set.Icc INTERVAL_FLOOR INTERVAL_CEILING
  target : q.target = q.interval / TARGET_SHARE

/-! ### One round trip -/

lemma interval_observeRtt (q : Inner) (rtt : Duration) : (q.observeRtt rtt).interval =
    Smoothing.follow 7 INTERVAL_FLOOR INTERVAL_CEILING (rtt * RTT_TO_INTERVAL) q.interval := rfl

lemma floor_le_ceiling : INTERVAL_FLOOR ≤ INTERVAL_CEILING := by decide

lemma tuned_new : Tuned .new := ⟨⟨by decide, by decide⟩, rfl⟩

lemma tuned_observeRtt (q : Inner) (rtt : Duration) : Tuned (q.observeRtt rtt) :=
  ⟨Smoothing.follow_mem floor_le_ceiling 7 q.interval (rtt * RTT_TO_INTERVAL), rfl⟩

/-- A round trip that is not too long is taken in without an overflow. -/
lemma Tuned.observeRtt_eq {q : Inner} (h : Tuned q) {rtt : Duration}
    (hshort : rtt < .secs (2 ^ 60)) : Checked.observeRtt q rtt = some (q.observeRtt rtt) := by
  have hmax : Duration.MAX = 18446744073709551615999999999 := rfl
  have hceiling := Nat.le_trans h.bounds.2 (Nat.le_refl 300000000)
  have hrtt := Nat.lt_of_lt_of_le hshort (Nat.le_refl 1152921504606846976000000000)
  have hscaled : rtt.times RTT_TO_INTERVAL = some (rtt * RTT_TO_INTERVAL) :=
    if_pos (by rw [hmax, RTT_TO_INTERVAL]; omega)
  have hsevenths : q.interval.times 7 = some (q.interval * 7) := if_pos (by rw [hmax]; omega)
  have hsum : Duration.plus (q.interval * 7) (rtt * RTT_TO_INTERVAL) =
      some (q.interval * 7 + rtt * RTT_TO_INTERVAL) :=
    if_pos (by rw [hmax, RTT_TO_INTERVAL]; omega)
  simp only [Checked.observeRtt, hscaled, hsevenths, hsum, Option.bind_eq_bind, Option.bind_some]
  rfl

/-! ### One after another -/

/-- The queue once some round trips were observed. -/
def observed (rtts : List Duration) : Option Inner := rtts.foldlM Checked.observeRtt .new

lemma tuned_foldl {q : Inner} (h : Tuned q) (rtts : List Duration) :
    Tuned (rtts.foldl Inner.observeRtt q) := by
  cases rtts using List.reverseRecOn with
  | nil => exact h
  | append_singleton rtts rtt =>
    rw [List.foldl_append]
    exact tuned_observeRtt _ rtt

lemma observed_eq {rtts : List Duration} (h : ∀ rtt ∈ rtts, rtt < .secs (2 ^ 60)) :
    observed rtts = some (rtts.foldl Inner.observeRtt .new) := by
  unfold observed
  induction rtts using List.reverseRecOn with
  | nil => rfl
  | append_singleton rtts rtt ih =>
    have hbefore := ih fun r hr => h r (List.mem_append_left _ hr)
    have hlast := (tuned_foldl tuned_new rtts).observeRtt_eq (h rtt (by simp))
    rw [List.foldlM_append, hbefore, List.foldl_append]
    simp only [Option.bind_eq_bind, Option.bind_some, List.foldlM_cons, List.foldlM_nil, hlast,
      List.foldl_cons, List.foldl_nil, Option.pure_def]

/-- Under a constant round trip the interval is what the average comes to. -/
lemma interval_replicate (q : Inner) (rtt : Duration) (n : ℕ) :
    ((List.replicate n rtt).foldl Inner.observeRtt q).interval =
      (Smoothing.follow 7 INTERVAL_FLOOR INTERVAL_CEILING (rtt * RTT_TO_INTERVAL))^[n]
        q.interval := by
  induction n with
  | zero => rfl
  | succ n ih =>
    rw [List.replicate_succ', List.foldl_append, List.foldl_cons, List.foldl_nil,
      interval_observeRtt, ih, Function.iterate_succ_apply']

/-- **The interval follows the round trip, and does not run away.** Whatever round trips are observed,
it stays inside its bounds, with the target its share. Under a constant one each observation brings
it nearer the goal, or leaves it, and never past it, and after `n` it is as near as the decay by an
eighth each time, but for eight nanoseconds. -/
theorem interval_follows :
    (∀ rtts, (∀ rtt ∈ rtts, rtt < .secs (2 ^ 60)) → ∃ q, observed rtts = some q ∧
      .millis 50 ≤ q.interval ∧ q.interval ≤ .millis 300 ∧ q.target = q.interval / 20) ∧
    ∀ rtt, rtt < .secs (2 ^ 60) → ∀ n, ∃ q q',
      observed (List.replicate n rtt) = some q ∧ observed (List.replicate (n + 1) rtt) = some q' ∧
      q'.interval ∈ Set.uIcc q.interval (goal rtt) ∧
      |(q.interval : ℝ) - goal rtt| ≤ (7 / 8) ^ n * |(INTERVAL : ℝ) - goal rtt| + 8 := by
  constructor
  · intro rtts hshort
    have htuned := tuned_foldl tuned_new rtts
    exact ⟨_, observed_eq hshort, htuned.bounds.1, htuned.bounds.2, htuned.target⟩
  · intro rtt hshort n
    have hall : ∀ n, ∀ r ∈ List.replicate n rtt, r < .secs (2 ^ 60) := fun n r hr => by
      rwa [List.eq_of_mem_replicate hr]
    have htuned := tuned_foldl tuned_new (List.replicate n rtt)
    refine ⟨_, _, observed_eq (hall n), observed_eq (hall (n + 1)), ?_, ?_⟩
    · rw [List.replicate_succ', List.foldl_append, List.foldl_cons, List.foldl_nil,
        interval_observeRtt]
      exact Smoothing.follow_mem_uIcc htuned.bounds 7 _
    · have hnear := Smoothing.dist_iterate (w := 7) (tuned_new.bounds) (rtt * RTT_TO_INTERVAL) n
      rw [← interval_replicate] at hnear
      have hshare : ((7 : ℕ) : ℝ) / ((7 : ℕ) + 1) = 7 / 8 := by norm_num
      rw [hshare] at hnear
      exact hnear.trans (add_le_add_right (by norm_num) _)

/-! ### While packets come and go -/

variable {q q' : Inner} {now : Instant}

lemma Tuned.same (h : Tuned q) (hinterval : q'.interval = q.interval)
    (htarget : q'.target = q.target) : Tuned q' := by
  refine ⟨?_, ?_⟩
  · rw [hinterval]
    exact h.bounds
  · rw [hinterval, htarget]
    exact h.target

lemma Tuned.drained (h : Tuned q) (hq : Drained q q') : Tuned q' := h.same hq.interval hq.target

lemma Tuned.enqueue (h : Tuned q) (packet : Packet) (now : Instant) :
    Tuned (q.enqueue packet now) := by
  obtain ⟨q2, hdrained, hjoins⟩ := q.enqueue_joins packet now
  rw [hjoins]
  generalize flowOf packet = i
  unfold Inner.join
  split_ifs
  · exact (h.drained hdrained).same rfl rfl
  · exact (h.drained hdrained).same rfl rfl

variable (divSqrt : Duration → ℕ → Duration)

lemma Tuned.turn (h : Tuned q) {r : Inner ⊕ (Inner × Option Queued)}
    (ht : Inner.Turn divSqrt now q r) : Tuned (r.elim id Prod.fst) := by
  cases ht with
  | idle _ => exact h
  | @rotate i wasFresh _ _ => cases wasFresh <;> exact h.same rfl rfl
  | @dry i wasFresh after _ _ hcodel =>
    have hdrained := Inner.drained_of_codel divSqrt hcodel
    cases wasFresh <;> exact h.same hdrained.interval hdrained.target
  | @deliver i wasFresh after x _ _ hcodel =>
    have hdrained := Inner.drained_of_codel divSqrt hcodel
    exact h.same hdrained.interval hdrained.target

lemma Tuned.dequeue (h : Tuned q) (now : Instant) : Tuned (q.dequeue divSqrt now).1 := by
  refine Inner.dequeue_rule divSqrt (I := Tuned) (Q := fun r => Tuned r.1) (fun q₁ r hq ht _ => ?_) h
  have hnext := hq.turn divSqrt ht
  cases r <;> exact hnext

/-- **Nothing but a round trip moves the interval**, so it is inside its bounds, with the target its
share, in every run of the queue. -/
theorem tuned_run (start : Instant) (ops : List (Duration × Op)) :
    Tuned (Sim.run divSqrt (.init start) ops).inner := by
  refine Sim.run_inv divSqrt (I := fun s => Tuned s.inner) (fun s op h => ?_) tuned_new ops
  obtain ⟨wait, packet | _ | age | rtt⟩ := op
  · rw [Sim.step_enqueue]
    exact h.enqueue packet _
  · rw [Sim.step_dequeue]
    exact h.dequeue divSqrt _
  · have hdrained := Inner.dropOlderThan_drained s.inner (s.clock + wait) age
    rw [Sim.step_dropOlderThan]
    generalize s.inner.dropOlderThan (s.clock + wait) age = r at hdrained
    exact h.drained hdrained
  · rw [Sim.step_observeRtt]
    exact tuned_observeRtt s.inner rtt

end Masqr.Queue
