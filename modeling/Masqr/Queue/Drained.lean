import Masqr.Queue.Inner

/-!
What taking packets out of the queue leaves alone.

Overflow, thinning, sweeping and CoDel remove packets and keep CoDel's own state. None of
them moves a bucket from one service list to another, touches a deficit, or changes the
order of what stays. One relation says so, and each operation is shown to stay inside it.
A second, tighter relation is for the steps that write CoDel's state and nothing else.
-/

namespace Masqr.Queue

open Masqr.Lib

/-- Whether an event is one of the scheduler's. -/
def Event.ofService : Event → Bool
  | .selected _ => true
  | .ranDry _ _ => true
  | .left _ _ _ .delivered => true
  | _ => false

/-- `q'` is `q` with packets taken out. -/
structure Drained (q q' : Inner) : Prop where
  fresh : q'.fresh = q.fresh
  backlogged : q'.backlogged = q.backlogged
  deficit : ∀ i, (q'.flows i).deficit = (q.flows i).deficit
  listed : ∀ i, (q'.flows i).listed = (q.flows i).listed
  packets : ∀ i, (q'.flows i).packets.Sublist (q.flows i).packets
  interval : q'.interval = q.interval
  target : q'.target = q.target
  arrived : q'.arrived = q.arrived
  log : ∃ more, q'.log = more ++ q.log ∧ ∀ e ∈ more, e.ofService = false

namespace Drained

lemma refl (q : Inner) : Drained q q :=
  ⟨rfl, rfl, fun _ => rfl, fun _ => rfl, fun _ => .refl _, rfl, rfl, rfl, [], rfl, nofun⟩

lemma trans {q q1 q2 : Inner} (h : Drained q q1) (h' : Drained q1 q2) : Drained q q2 where
  fresh := h'.fresh.trans h.fresh
  backlogged := h'.backlogged.trans h.backlogged
  deficit i := (h'.deficit i).trans (h.deficit i)
  listed i := (h'.listed i).trans (h.listed i)
  packets i := (h'.packets i).trans (h.packets i)
  interval := h'.interval.trans h.interval
  target := h'.target.trans h.target
  arrived := h'.arrived.trans h.arrived
  log := by
    obtain ⟨more, hm, hs⟩ := h.log
    obtain ⟨more', hm', hs'⟩ := h'.log
    refine ⟨more' ++ more, by rw [hm', hm, List.append_assoc], fun e he => ?_⟩
    rcases List.mem_append.mp he with he | he
    · exact hs' e he
    · exact hs e he

lemma note {q q' : Inner} (h : Drained q q') {e : Event} (he : e.ofService = false) :
    Drained q (q'.note e) := by
  obtain ⟨more, hm, hs⟩ := h.log
  refine { h with log := ⟨e :: more, congrArg (e :: ·) hm, fun e' he' => ?_⟩ }
  rcases List.mem_cons.mp he' with rfl | he'
  · exact he
  · exact hs e' he'

end Drained

/-- `q'` is `q` with some of CoDel's state rewritten. -/
structure Retuned (q q' : Inner) : Prop where
  fresh : q'.fresh = q.fresh
  backlogged : q'.backlogged = q.backlogged
  flow : ∀ i, (q'.flows i).packets = (q.flows i).packets ∧ (q'.flows i).bytes = (q.flows i).bytes ∧
    (q'.flows i).deficit = (q.flows i).deficit ∧ (q'.flows i).listed = (q.flows i).listed
  totals : q'.bytes = q.bytes ∧ q'.packets = q.packets ∧ q'.faulted = q.faulted
  counters : q'.overLimit = q.overLimit ∧ q'.overTarget = q.overTarget ∧ q'.thinned = q.thinned ∧
    q'.stale = q.stale
  clock : q'.interval = q.interval ∧ q'.target = q.target
  arrived : q'.arrived = q.arrived
  log : q'.log = q.log

namespace Retuned

lemma refl (q : Inner) : Retuned q q :=
  ⟨rfl, rfl, fun _ => ⟨rfl, rfl, rfl, rfl⟩, ⟨rfl, rfl, rfl⟩, ⟨rfl, rfl, rfl, rfl⟩, ⟨rfl, rfl⟩, rfl,
    rfl⟩

lemma modify (q : Inner) (i : Bucket) {f : Flow → Flow}
    (hf : ∀ fl, (f fl).packets = fl.packets ∧ (f fl).bytes = fl.bytes ∧
      (f fl).deficit = fl.deficit ∧ (f fl).listed = fl.listed) : Retuned q (q.modify i f) where
  fresh := rfl
  backlogged := rfl
  flow j := by
    by_cases h : j = i
    · subst h; simpa using hf _
    · simp [h]
  totals := ⟨rfl, rfl, rfl⟩
  counters := ⟨rfl, rfl, rfl, rfl⟩
  clock := ⟨rfl, rfl⟩
  arrived := rfl
  log := rfl

lemma trans {q q1 q2 : Inner} (h : Retuned q q1) (h' : Retuned q1 q2) : Retuned q q2 where
  fresh := h'.fresh.trans h.fresh
  backlogged := h'.backlogged.trans h.backlogged
  flow i := by simp only [h'.flow i, h.flow i, and_self]
  totals := by simp only [h'.totals, h.totals, and_self]
  counters := by simp only [h'.counters, h.counters, and_self]
  clock := by simp only [h'.clock, h.clock, and_self]
  arrived := h'.arrived.trans h.arrived
  log := h'.log.trans h.log

lemma drained {q q' : Inner} (h : Retuned q q') : Drained q q' where
  fresh := h.fresh
  backlogged := h.backlogged
  deficit i := (h.flow i).2.2.1
  listed i := (h.flow i).2.2.2
  packets i := (h.flow i).1 ▸ .refl _
  interval := h.clock.1
  target := h.clock.2
  arrived := h.arrived
  log := ⟨[], h.log, nofun⟩

end Retuned

namespace Inner

variable {q q' : Inner} {i : Bucket} {now : Instant} {x : Queued} {o : Bool}

/-! ### Steps that write CoDel's state only -/

lemma countUp_retuned (q : Inner) (i : Bucket) : Retuned q (q.countUp i) :=
  .modify q i fun _ => ⟨rfl, rfl, rfl, rfl⟩

lemma setDropping_retuned (q : Inner) (i : Bucket) (b : Bool) : Retuned q (q.setDropping i b) :=
  .modify q i fun _ => ⟨rfl, rfl, rfl, rfl⟩

lemma clear_retuned (q : Inner) (i : Bucket) :
    Retuned q (q.modify i fun f => { f with aboveSince := none, dropping := false }) :=
  .modify q i fun _ => ⟨rfl, rfl, rfl, rfl⟩

lemma judge_retuned (q : Inner) (i : Bucket) (waited : Duration) (now : Instant) :
    Retuned q (q.judge i waited now).2 := by
  unfold judge
  split
  · exact Retuned.modify q i (f := fun f => { f with aboveSince := none })
      fun _ => ⟨rfl, rfl, rfl, rfl⟩
  · exact Retuned.modify q i (f := fun f => { f with aboveSince := some (now + q.interval) })
      fun _ => ⟨rfl, rfl, rfl, rfl⟩
  · exact .refl q

variable (divSqrt : Duration → ℕ → Duration)

lemma schedule_retuned (q : Inner) (i : Bucket) (moment : Instant) :
    Retuned q (q.schedule divSqrt i moment) :=
  .modify q i fun _ => ⟨rfl, rfl, rfl, rfl⟩

lemma startEpisode_retuned (q : Inner) (i : Bucket) (now : Instant) :
    Retuned q (q.startEpisode divSqrt i now) := by
  have h : Retuned q (q.modify i fun f =>
      { f with count := resumedCount f q.interval now, dropping := true }) :=
    .modify q i fun _ => ⟨rfl, rfl, rfl, rfl⟩
  exact h.trans (schedule_retuned divSqrt _ i now)

end Inner

namespace Inner

variable {q q' : Inner} {i : Bucket} {now : Instant} {x : Queued} {o : Bool}

/-! ### Steps that take packets out -/

lemma remove_drained {k : ℕ} (h : q.remove i k = some (x, q')) : Drained q q' := by
  obtain ⟨-, rfl⟩ := remove_cases h
  refine ⟨rfl, rfl, fun j => ?_, fun j => ?_, fun j => ?_, rfl, rfl, rfl, [], rfl, nofun⟩ <;>
    by_cases h : j = i <;> simp [h, List.eraseIdx_sublist]

lemma dropFattest_drained (q : Inner) : Drained q q.dropFattest.2 := by
  unfold dropFattest
  split
  · exact .refl q
  · next i _ =>
    split
    · exact .refl q
    · next x q1 hr =>
      have h := remove_drained hr
      exact ({ h with } : Drained q { q1 with overLimit := q1.overLimit + 1 }).note rfl

lemma makeRoom_drained (len : ℕ) (q : Inner) : Drained q ((makeRoom len).run q) := by
  refine (makeRoom len).run_inv (Drained q) (Drained q) (fun s r hs hb => ?_)
    (fun s s' hs hb => ?_) (.refl q)
  · cases makeRoom_turn hb with
    | fits | nothing => exact hs
    | stuck => exact { hs with }
  · cases makeRoom_turn hb with
    | dropped => exact hs.trans (dropFattest_drained s)

lemma thinOne_drained (i : Bucket) (q : Inner) (k : ℕ) : Drained q (thinOne i q k) := by
  unfold thinOne
  split
  · exact .refl q
  · next x q1 hr =>
    have h := remove_drained hr
    exact ({ h with } : Drained q { q1 with thinned := q1.thinned + 1 }).note rfl

lemma thinFor_drained (q : Inner) (i : Bucket) (packet : Packet) :
    Drained q (q.thinFor i packet) :=
  thinFor_rule (fun s k hs => hs.trans (thinOne_drained i s k)) packet (.refl q)

/-- An arrival: some packets are taken out, the new one is filed, and its bucket joins. -/
lemma enqueue_joins (q : Inner) (packet : Packet) (now : Instant) :
    ∃ q2, Drained q q2 ∧
      q.enqueue packet now = (q2.push (flowOf packet) packet now).join (flowOf packet) :=
  ⟨_, (makeRoom_drained packet.length q).trans (thinFor_drained _ (flowOf packet) packet), rfl⟩

lemma sweepFlow_drained (now : Instant) (age : Duration) (i : Bucket) (s : Inner × ℕ) :
    Drained s.1 ((sweepFlow now age i).run s).1 := by
  refine (sweepFlow now age i).run_inv (fun t => Drained s.1 t.1) (fun t => Drained s.1 t.1)
    (fun t r ht hb => ?_) (fun t t' ht hb => ?_) (.refl s.1)
  · cases sweepFlow_turn hb with
    | stop => exact ht
  · cases sweepFlow_turn hb with
    | gone hpop => exact (ht.trans (remove_drained hpop)).note rfl

lemma sweepOne_drained (now : Instant) (age : Duration) (s : Inner × ℕ) (i : Bucket) :
    Drained s.1 (sweepOne now age s i).1 :=
  (sweepFlow_drained now age i s).trans (clear_retuned _ i).drained

lemma dropOlderThan_drained (q : Inner) (now : Instant) (age : Duration) :
    Drained q (q.dropOlderThan now age).1 := by
  have hfold : ∀ (is : List Bucket) (s : Inner × ℕ),
      Drained s.1 (is.foldl (sweepOne now age) s).1 := by
    intro is
    induction is with
    | nil => exact fun s => .refl s.1
    | cons i is ih => exact fun s => (sweepOne_drained now age s i).trans (ih _)
  have h := ((Drained.refl q).note (e := .swept) rfl).trans
    (hfold (List.finRange FLOWS) (q.note .swept, 0))
  unfold dropOlderThan
  generalize (List.finRange FLOWS).foldl (sweepOne now age) (q.note .swept, 0) = s at h ⊢
  exact { h with }

lemma take_drained (h : q.take i now = some (x, o, q')) : Drained q q' := by
  obtain ⟨q1, hr, hj⟩ := take_cases h
  have h1 : Drained q (q1.recordWait i x now) :=
    ({ remove_drained hr with } :
      Drained q { q1 with worstWait := max q1.worstWait (now.since x.since) }).note rfl
  have h2 := (judge_retuned (q1.recordWait i x now) i (now.since x.since) now).drained
  rw [← hj] at h2
  exact h1.trans h2

lemma mark_cases {y : Queued} (h : q.mark i x = some (y, q')) :
    markCongestion x.packet = some y.packet ∧ y.seq = x.seq ∧ y.since = x.since ∧
      q' = { q with marked := q.marked + 1 }.note (.marked i x.seq) := by
  simp only [mark, Option.map_eq_some_iff, Prod.mk.injEq] at h
  obtain ⟨p, hp, rfl, rfl⟩ := h
  exact ⟨hp, rfl, rfl, rfl⟩

lemma mark_drained {y : Queued} (h : q.mark i x = some (y, q')) : Drained q q' := by
  obtain ⟨-, -, -, rfl⟩ := mark_cases h
  exact ({ Drained.refl q with } : Drained q { q with marked := q.marked + 1 }).note rfl

lemma dropOverTarget_drained (q : Inner) (i : Bucket) (x : Queued) :
    Drained q (q.dropOverTarget i x) :=
  ({ Drained.refl q with } : Drained q { q with overTarget := q.overTarget + 1 }).note rfl

variable (divSqrt : Duration → ℕ → Duration)

lemma dropLoop_drained (i : Bucket) (now : Instant) (q : Inner) (x : Queued) :
    Drained q ((dropLoop divSqrt i now).run (q, x)).1 := by
  refine (dropLoop divSqrt i now).run_inv (fun t => Drained q t.1) (fun t => Drained q t.1)
    (fun t r ht hb => ?_) (fun t t' ht hb => ?_) (.refl q)
  · have h := ht.trans (countUp_retuned t.1 i).drained
    cases dropLoop_turn divSqrt hb with
    | idle => exact ht
    | marked _ hm => exact (h.trans (mark_drained hm)).trans (schedule_retuned divSqrt _ i _).drained
    | dry => exact (h.trans (dropOverTarget_drained _ i _)).trans (setDropping_retuned _ i _).drained
  · have h := ht.trans (countUp_retuned t.1 i).drained
    cases dropLoop_turn divSqrt hb with
    | again _ _ hk =>
      have h' := (h.trans (dropOverTarget_drained _ i _)).trans (take_drained hk)
      exact h'.trans (schedule_retuned divSqrt _ i _).drained
    | eased _ _ hk =>
      have h' := (h.trans (dropOverTarget_drained _ i _)).trans (take_drained hk)
      exact h'.trans (setDropping_retuned _ i _).drained

/-- **CoDel leaves the schedule alone.** -/
theorem codel_drained (q : Inner) (i : Bucket) (now : Instant) :
    Drained q (q.codel divSqrt i now).1 := by
  unfold codel
  split
  · exact .refl q
  · next x o q1 hk =>
    have h := take_drained hk
    split_ifs
    · exact h.trans (dropLoop_drained divSqrt i now _ _)
    · exact h.trans (setDropping_retuned _ i _).drained
    · split
      · next hm =>
        exact (h.trans (mark_drained hm)).trans (startEpisode_retuned divSqrt _ i now).drained
      · have h' := h.trans (dropOverTarget_drained q1 i x)
        split
        · exact h'.trans (startEpisode_retuned divSqrt _ i now).drained
        · next hk' =>
          exact (h'.trans (take_drained hk')).trans (startEpisode_retuned divSqrt _ i now).drained
    · exact h

lemma drained_of_codel {r : Option Queued} (h : q.codel divSqrt i now = (q', r)) :
    Drained q q' := by
  have hdrained := codel_drained divSqrt q i now
  rwa [h] at hdrained

end Inner

end Masqr.Queue
