import Masqr.Queue.Totals

/-!
What CoDel does with a bucket, one packet after another.

Taking a packet is where the standing of a queue is judged. What becomes of the packet in hand is
one of four things, and all that is proved of CoDel is proved by cases on them.
-/

namespace Masqr.Queue

open Masqr.Lib

/-- `q'` is `q` with the drops of an episode timed otherwise. Since when a queue has been standing
is left alone. -/
structure Paced (q q' : Inner) : Prop where
  retuned : Retuned q q'
  aboveSince : ∀ i, (q'.flows i).aboveSince = (q.flows i).aboveSince

namespace Paced

lemma refl (q : Inner) : Paced q q := ⟨.refl q, fun _ => rfl⟩

lemma trans {q q1 q2 : Inner} (h : Paced q q1) (h' : Paced q1 q2) : Paced q q2 :=
  ⟨h.retuned.trans h'.retuned, fun i => (h'.aboveSince i).trans (h.aboveSince i)⟩

lemma modify (q : Inner) (i : Bucket) {f : Flow → Flow}
    (hf : ∀ fl, (f fl).packets = fl.packets ∧ (f fl).bytes = fl.bytes ∧
      (f fl).deficit = fl.deficit ∧ (f fl).listed = fl.listed)
    (ha : ∀ fl, (f fl).aboveSince = fl.aboveSince) : Paced q (q.modify i f) := by
  refine ⟨.modify q i hf, fun j => ?_⟩
  by_cases hj : j = i
  · subst hj
    simpa using ha (q.flows j)
  · simp [hj]

end Paced

namespace Inner

variable {q q' : Inner} {i : Bucket} {now : Instant} {x : Queued} {o : Bool}
variable (divSqrt : Duration → ℕ → Duration)

lemma countUp_paced (q : Inner) (i : Bucket) : Paced q (q.countUp i) :=
  .modify q i (fun _ => ⟨rfl, rfl, rfl, rfl⟩) fun _ => rfl

lemma setDropping_paced (q : Inner) (i : Bucket) (b : Bool) : Paced q (q.setDropping i b) :=
  .modify q i (fun _ => ⟨rfl, rfl, rfl, rfl⟩) fun _ => rfl

lemma schedule_paced (q : Inner) (i : Bucket) (moment : Instant) :
    Paced q (q.schedule divSqrt i moment) :=
  .modify q i (fun _ => ⟨rfl, rfl, rfl, rfl⟩) fun _ => rfl

lemma startEpisode_paced (q : Inner) (i : Bucket) (now : Instant) :
    Paced q (q.startEpisode divSqrt i now) := by
  have hstart : Paced q (q.modify i fun f =>
      { f with count := resumedCount f q.interval now, dropping := true }) :=
    .modify q i (fun _ => ⟨rfl, rfl, rfl, rfl⟩) fun _ => rfl
  exact hstart.trans (schedule_paced divSqrt _ i now)

lemma popFront_keeps (h : q.popFront i = some (x, q')) :
    (∀ j, j ≠ i → q'.flows j = q.flows j) ∧ (q'.flows i).aboveSince = (q.flows i).aboveSince ∧
      (q'.flows i).bytes = (q.flows i).bytes - x.packet.length ∧ q'.log = q.log ∧
      q'.target = q.target ∧ q'.interval = q.interval := by
  obtain ⟨-, rfl⟩ := remove_cases h
  refine ⟨fun j hj => ?_, ?_, ?_, rfl, rfl, rfl⟩
  · simp [hj]
  · simp
  · simp

/-- The packet was taken from the head of the bucket, and the queue behind it judged. -/
structure Taken (q : Inner) (i : Bucket) (now : Instant) (x : Queued) (o : Bool) (q' : Inner) :
    Prop where
  packets : (q.flows i).packets = x :: (q'.flows i).packets
  others : ∀ j, j ≠ i → q'.flows j = q.flows j
  bytes : (q'.flows i).bytes = (q.flows i).bytes - x.packet.length
  log : q'.log = .took i x.seq now (now.since x.since) q.target q.interval (q'.flows i).bytes ::
    q.log
  above : ∀ due, (q'.flows i).aboveSince = some due →
    (q.target ≤ now.since x.since ∧ QUANTUM < (q'.flows i).bytes) ∧
      ((q.flows i).aboveSince = some due ∨ due = now + q.interval)
  overdue : o = true → ∃ due ≤ now, (q'.flows i).aboveSince = some due

lemma Taken.behind (h : q.Taken i now x true q') : QUANTUM < (q'.flows i).bytes := by
  obtain ⟨due, -, hdue⟩ := h.overdue rfl
  exact (h.above due hdue).1.2

/-- **What taking a packet does.** -/
theorem take_taken (h : q.take i now = some (x, o, q')) : q.Taken i now x o q' := by
  obtain ⟨q1, hpop, hjudge⟩ := take_cases h
  have hpackets := popFront_head hpop
  obtain ⟨hothers, habove, hbytes, hlog, htarget, hinterval⟩ := popFront_keeps hpop
  have hflows : (q1.recordWait i x now).flows = q1.flows := rfl
  have hlog' : (q1.recordWait i x now).log = .took i x.seq now (now.since x.since) q.target
      q.interval (q1.flows i).bytes :: q.log := by
    rw [← hlog, ← htarget, ← hinterval]
    rfl
  have hinterval' : (q1.recordWait i x now).interval = q.interval := hinterval
  have hstanding : (q1.recordWait i x now).standing i (now.since x.since) = true →
      q.target ≤ now.since x.since ∧ QUANTUM < (q1.flows i).bytes := fun hs => by
    simp only [standing, Bool.and_eq_true, decide_eq_true_eq] at hs
    rw [← htarget]
    exact hs
  unfold judge at hjudge
  rw [hflows, habove] at hjudge
  generalize q1.recordWait i x now = q2 at *
  rw [← hflows] at hpackets hothers habove hbytes hlog' hstanding
  split at hjudge <;> cases hjudge
  · refine ⟨by simpa using hpackets, fun j hj => ?_, by simpa using hbytes, by simpa using hlog',
      fun due hdue => ?_, Bool.false_ne_true.elim⟩
    · simpa [hj] using hothers j hj
    · simp at hdue
  · next hs hnone =>
    refine ⟨by simpa using hpackets, fun j hj => ?_, by simpa using hbytes, by simpa using hlog',
      fun due hdue => ?_, Bool.false_ne_true.elim⟩
    · simpa [hj] using hothers j hj
    · have hnew : now + q2.interval = due := by simpa using hdue
      rw [hinterval'] at hnew
      exact ⟨by simpa using hstanding hs, .inr hnew.symm⟩
  · next due hsome hs =>
    refine ⟨hpackets, hothers, hbytes, hlog', fun due' hdue => ⟨hstanding hs, ?_⟩, fun ho => ?_⟩
    · rw [habove, hsome] at hdue
      exact .inl (hsome.trans hdue)
    · exact ⟨due, of_decide_eq_true ho, habove.trans hsome⟩

/-- What becomes of a packet in hand, and of those taken after it. `o` says whether the queue had
been standing for too long when the packet was taken. -/
inductive Sends (i : Bucket) (now : Instant) :
    Inner → Queued → Bool → Inner → Option Queued → Prop
  /-- It is delivered as it is. -/
  | pass {start x overdue final} : Paced start final → Sends i now start x overdue final (some x)
  /-- It is delivered with the congestion mark. -/
  | mark {start x before y after final} : Paced start before →
      before.mark i x = some (y, after) → Paced after final →
      Sends i now start x true final (some y)
  /-- It is dropped, and the next is taken. -/
  | drop {start x before y overdue after more final r} : Paced start before →
      (before.dropOverTarget i x).take i now = some (y, overdue, after) → Paced after more →
      Sends i now more y overdue final r → Sends i now start x true final r
  /-- It is dropped, and there is no next. -/
  | dry {start x before final} : Paced start before →
      (before.dropOverTarget i x).take i now = none → Paced (before.dropOverTarget i x) final →
      Sends i now start x true final none

/-- While a bucket is dropping, the packet in hand is one that was overdue. -/
lemma dropLoop_sends (ho : (q.flows i).dropping = true → o = true) :
    Sends i now q x o ((dropLoop divSqrt i now).run (q, x)).1
      ((dropLoop divSqrt i now).run (q, x)).2 := by
  refine (dropLoop divSqrt i now).run_rule
    (fun s r => ∀ o, ((s.1.flows i).dropping = true → o = true) → Sends i now s.1 s.2 o r.1 r.2)
    (fun s r hb o ho => ?_) (fun s s' r hb ih o ho => ?_) (q, x) o ho
  · have hcount := countUp_paced s.1 i
    cases dropLoop_turn divSqrt hb with
    | idle => exact .pass (.refl _)
    | marked hdropping hmark =>
      obtain rfl : o = true := ho hdropping
      exact .mark hcount hmark (schedule_paced divSqrt _ i _)
    | dry hdropping _ hnone =>
      obtain rfl : o = true := ho hdropping
      exact .dry hcount hnone (setDropping_paced _ i false)
  · have hcount := countUp_paced s.1 i
    cases dropLoop_turn divSqrt hb with
    | again hdropping _ htake =>
      obtain rfl : o = true := ho hdropping
      exact .drop hcount htake (schedule_paced divSqrt _ i _) (ih true fun _ => rfl)
    | eased hdropping _ htake =>
      obtain rfl : o = true := ho hdropping
      refine .drop hcount htake (setDropping_paced _ i false) (ih false fun hd => ?_)
      simp [setDropping] at hd

lemma codel_empty (h : (q.flows i).packets = []) (now : Instant) :
    q.codel divSqrt i now = (q, none) := by
  simp [codel, take, popFront, remove, h]

/-- **What CoDel does with a bucket that has a packet.** -/
theorem codel_sends (h : q.take i now = some (x, o, q')) :
    Sends i now q' x o (q.codel divSqrt i now).1 (q.codel divSqrt i now).2 := by
  unfold codel
  rw [h]
  simp only
  split_ifs with hdropping hover hover
  · exact dropLoop_sends divSqrt fun _ => hover
  · exact .pass (setDropping_paced q' i false)
  · subst hover
    split
    · next hmark => exact .mark (.refl q') hmark (startEpisode_paced divSqrt _ i now)
    · split
      · next hnone => exact .dry (.refl q') hnone (startEpisode_paced divSqrt _ i now)
      · next y overdue q2 htake =>
        exact .drop (.refl q') htake (startEpisode_paced divSqrt q2 i now) (.pass (.refl _))
  · exact .pass (.refl q')

end Inner

end Masqr.Queue
