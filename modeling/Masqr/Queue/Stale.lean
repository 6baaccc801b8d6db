import Masqr.Queue.Order

/-!
What waited too long is taken out, and nothing else.

A sweep stops at the first young packet of each bucket. It takes every old one because packets are
filed at the moment they arrive, behind those that arrived before, and taking others out from
wherever leaves the moments in order.
-/

namespace Masqr.Queue

open Masqr.Lib

/-- Where what holds of one holds of all before it, those that it holds of come first. -/
lemma dropWhile_eq_filter {α : Type*} {p : α → Bool} {l : List α}
    (h : l.Pairwise fun a b => p b = true → p a = true) :
    l.dropWhile p = l.filter fun a => !p a := by
  induction l with
  | nil => rfl
  | cons a l ih =>
    obtain ⟨ha, hl⟩ := List.pairwise_cons.1 h
    cases hp : p a with
    | true =>
      rw [List.dropWhile_cons_of_pos hp, ih hl, List.filter_cons_of_neg (by simp [hp])]
    | false =>
      have hall : ∀ b ∈ a :: l, (!p b) = true := by
        intro b hb
        rcases List.mem_cons.1 hb with rfl | hb
        · simp [hp]
        · have hnot : p b ≠ true := fun hpb => by simp [ha b hb hpb] at hp
          simpa using hnot
      rw [List.dropWhile_cons_of_neg (by simp [hp]), List.filter_eq_self.2 hall]

/-- The packet has waited `age` or longer. -/
def isOld (now : Instant) (age : Duration) (x : Queued) : Bool := decide (age ≤ now.since x.since)

/-- Each bucket holds its packets in the order of the moments they were enqueued at, none of them to
come. -/
structure Timed (now : Instant) (q : Inner) : Prop where
  sorted : ∀ i, ((q.flows i).packets.map Queued.since).Pairwise (· ≤ ·)
  past : ∀ i, ∀ x ∈ (q.flows i).packets, x.since ≤ now

namespace Timed

variable {q q' : Inner} {now later : Instant}

lemma new (now : Instant) : Timed now .new :=
  ⟨fun i => by simp [Inner.new], fun i x hx => by simp [Inner.new] at hx⟩

lemma mono (h : Timed now q) (hlater : now ≤ later) : Timed later q :=
  ⟨h.sorted, fun i x hx => (h.past i x hx).trans hlater⟩

/-- Packets are taken out, from wherever. -/
lemma sublist (h : Timed now q) (hsub : ∀ i, (q'.flows i).packets.Sublist (q.flows i).packets) :
    Timed now q' :=
  ⟨fun i => (h.sorted i).sublist ((hsub i).map Queued.since),
    fun i x hx => h.past i x ((hsub i).subset hx)⟩

lemma enqueue (h : Timed now q) (packet : Packet) : Timed now (q.enqueue packet now) := by
  obtain ⟨q2, hdrained, hpackets⟩ := q.enqueue_packets packet now
  have h2 : Timed now q2 := h.sublist hdrained.packets
  refine ⟨fun i => ?_, fun i x hx => ?_⟩
  · rw [hpackets, List.map_append, List.pairwise_append]
    refine ⟨h2.sorted i, by split_ifs <;> simp, fun old hold new hnew => ?_⟩
    obtain ⟨x, hx, rfl⟩ := List.mem_map.1 hold
    split_ifs at hnew
    · rw [List.map_singleton, List.mem_singleton] at hnew
      rw [hnew]
      exact h2.past i x hx
    · cases hnew
  · rw [hpackets, List.mem_append] at hx
    rcases hx with hx | hx
    · exact h2.past i x hx
    · split_ifs at hx
      · rw [List.mem_singleton.1 hx]
      · cases hx

variable (divSqrt : Duration → ℕ → Duration)

lemma step {s : Sim} (h : Timed s.clock s.inner) (op : Duration × Op) :
    Timed (s.step divSqrt op).clock (s.step divSqrt op).inner := by
  obtain ⟨wait, packet | _ | age | rtt⟩ := op
  · exact (h.mono (Nat.le_add_right s.clock wait)).enqueue packet
  · refine (h.mono (Nat.le_add_right s.clock wait)).sublist fun i => ?_
    exact (Inner.dequeue_inTurn divSqrt s.inner (s.clock + wait)).packets i
  · have hdrained := Inner.dropOlderThan_drained s.inner (s.clock + wait) age
    have hlater := h.mono (Nat.le_add_right s.clock wait)
    rw [Sim.step_dropOlderThan]
    generalize s.inner.dropOlderThan (s.clock + wait) age = r at hdrained
    exact hlater.sublist hdrained.packets
  · exact ⟨h.sorted, (h.mono (Nat.le_add_right s.clock wait)).past⟩

lemma run (start : Instant) (ops : List (Duration × Op)) :
    Timed (Sim.run divSqrt (.init start) ops).clock (Sim.run divSqrt (.init start) ops).inner :=
  Sim.run_inv divSqrt (I := fun s => Timed s.clock s.inner) (fun _ op h => h.step divSqrt op)
    (new start) ops

/-- The old packets of a bucket come before the others. -/
lemma old_first (h : Timed now q) (later : Instant) (age : Duration) (i : Bucket) :
    (q.flows i).packets.dropWhile (isOld later age) =
      (q.flows i).packets.filter fun x => !isOld later age x := by
  refine dropWhile_eq_filter ((List.pairwise_map.1 (h.sorted i)).imp fun {a b} hab hold => ?_)
  unfold isOld Instant.since at hold ⊢
  rw [decide_eq_true_eq] at hold ⊢
  exact hold.trans (Nat.sub_le_sub_left hab later)

end Timed

/-! ### A sweep -/

/-- What one bucket's sweep does. -/
structure Swept (now : Instant) (age : Duration) (i : Bucket) (s s' : Inner × ℕ) : Prop where
  packets : (s'.1.flows i).packets = (s.1.flows i).packets.dropWhile (isOld now age)
  others : ∀ j, j ≠ i → (s'.1.flows j).packets = (s.1.flows j).packets
  dropped : s'.2 + ((s.1.flows i).packets.dropWhile (isOld now age)).length =
    s.2 + (s.1.flows i).packets.length
  stale : s'.1.stale = s.1.stale

lemma sweepFlow_swept (now : Instant) (age : Duration) (i : Bucket) (s : Inner × ℕ) :
    Swept now age i s ((Inner.sweepFlow now age i).run s) := by
  refine (Inner.sweepFlow now age i).run_rule (Swept now age i) (fun s r hb => ?_)
    (fun s s' r hb ih => ?_) s
  · cases Inner.sweepFlow_turn hb with
    | stop hyoung =>
      have hsame : (s.1.flows i).packets.dropWhile (isOld now age) = (s.1.flows i).packets := by
        cases hpackets : (s.1.flows i).packets with
        | nil => rfl
        | cons head rest =>
          rw [hpackets] at hyoung
          refine List.dropWhile_cons_of_neg ?_
          simpa [isOld] using hyoung head rfl
      exact ⟨hsame.symm, fun _ _ => rfl, by rw [hsame], rfl⟩
  · cases Inner.sweepFlow_turn hb with
    | @gone old q' hpop hold =>
      have hsplit := Inner.popFront_head hpop
      obtain ⟨hothers, -⟩ := Inner.popFront_keeps hpop
      obtain ⟨-, hq'⟩ := Inner.remove_cases hpop
      have hdrop : (s.1.flows i).packets.dropWhile (isOld now age) =
          (q'.flows i).packets.dropWhile (isOld now age) := by
        rw [hsplit, List.dropWhile_cons_of_pos]
        exact decide_eq_true hold
      refine ⟨ih.packets.trans hdrop.symm, fun j hj => ?_, ?_, ?_⟩
      · rw [ih.others j hj, Inner.note_flows, hothers j hj]
      · have hcount := ih.dropped
        rw [hdrop, hsplit, List.length_cons]
        simp only [Inner.note_flows] at hcount
        omega
      · rw [ih.stale, Inner.note, hq']
        rfl

/-- What the sweeps of some buckets come to. -/
lemma foldl_sweepOne (now : Instant) (age : Duration) (is : List Bucket) (hnodup : is.Nodup)
    (s : Inner × ℕ) :
    let s' := is.foldl (Inner.sweepOne now age) s
    (∀ i, (s'.1.flows i).packets =
      if i ∈ is then (s.1.flows i).packets.dropWhile (isOld now age) else (s.1.flows i).packets) ∧
    s'.2 + (is.map fun i => ((s.1.flows i).packets.dropWhile (isOld now age)).length).sum =
      s.2 + (is.map fun i => (s.1.flows i).packets.length).sum ∧
    s'.1.stale = s.1.stale := by
  induction is generalizing s with
  | nil => exact ⟨fun _ => rfl, rfl, rfl⟩
  | cons i is ih =>
    obtain ⟨hi, hrest⟩ := List.nodup_cons.1 hnodup
    have hone : Swept now age i s (Inner.sweepOne now age s i) := by
      have hflow := sweepFlow_swept now age i s
      have hclear : ∀ (q : Inner) (j : Bucket), ((q.modify i fun f =>
          { f with aboveSince := none, dropping := false }).flows j).packets =
          (q.flows j).packets := fun q j => by by_cases hj : j = i <;> simp [hj]
      exact ⟨(hclear _ i).trans hflow.packets, fun j hj => (hclear _ j).trans (hflow.others j hj),
        hflow.dropped, hflow.stale⟩
    obtain ⟨hpackets, hcount, hstale⟩ := ih hrest (Inner.sweepOne now age s i)
    rw [List.foldl_cons]
    generalize Inner.sweepOne now age s i = s1 at *
    have hothers : ∀ j ∈ is, (s1.1.flows j).packets = (s.1.flows j).packets := fun j hj =>
      hone.others j fun hij => hi (hij ▸ hj)
    refine ⟨fun j => ?_, ?_, hstale.trans hone.stale⟩
    · rw [hpackets]
      by_cases hj : j = i
      · subst hj
        rw [if_neg hi, if_pos List.mem_cons_self, hone.packets]
      · have hmem : j ∈ i :: is ↔ j ∈ is := by simp [hj]
        rw [hone.others j hj]
        simp only [hmem]
    · have hdropped : is.map (fun j => ((s1.1.flows j).packets.dropWhile (isOld now age)).length) =
          is.map fun j => ((s.1.flows j).packets.dropWhile (isOld now age)).length :=
        List.map_congr_left fun j hj => by rw [hothers j hj]
      have hlength : is.map (fun j => (s1.1.flows j).packets.length) =
          is.map fun j => (s.1.flows j).packets.length :=
        List.map_congr_left fun j hj => by rw [hothers j hj]
      have hfirst := hone.dropped
      rw [hdropped, hlength] at hcount
      rw [List.map_cons, List.map_cons, List.sum_cons, List.sum_cons]
      omega

/-- A sweep of all the buckets. -/
lemma dropOlderThan_swept (q : Inner) (now : Instant) (age : Duration) :
    (∀ i, (((q.dropOlderThan now age).1.flows i).packets =
      (q.flows i).packets.dropWhile (isOld now age))) ∧
    (q.dropOlderThan now age).2 +
        ∑ i, ((q.flows i).packets.dropWhile (isOld now age)).length =
      ∑ i, (q.flows i).packets.length ∧
    (q.dropOlderThan now age).1.stale = q.stale + (q.dropOlderThan now age).2 := by
  have hfold := foldl_sweepOne now age (List.finRange FLOWS) (List.nodup_finRange FLOWS)
    (q.note .swept, 0)
  have hsums := fun f : Bucket → ℕ => Fin.sum_univ_def f
  unfold Inner.dropOlderThan
  generalize (List.finRange FLOWS).foldl (Inner.sweepOne now age) (q.note .swept, 0) = s at hfold ⊢
  obtain ⟨hpackets, hcount, hstale⟩ := hfold
  refine ⟨fun i => ?_, ?_, ?_⟩
  · rw [hpackets, if_pos (List.mem_finRange i)]
    rfl
  · rw [hsums, hsums]
    rw [Nat.zero_add] at hcount
    exact hcount
  · exact congrArg (· + s.2) hstale

/-- **What a sweep takes out is what waited too long.** In every run at times that do not go back, a
sweep leaves in each bucket the packets that have not waited `age`, in their order, returns how
many the others were, and adds as many to those counted as stale. -/
theorem sweep_is_exact (divSqrt : Duration → ℕ → Duration) (start : Instant)
    (ops : List (Duration × Op)) (wait age : Duration) :
    let s := Sim.run divSqrt (.init start) ops
    let now := s.clock + wait
    let r := s.inner.dropOlderThan now age
    (∀ i, (r.1.flows i).packets =
      (s.inner.flows i).packets.filter fun x => decide (¬age ≤ now - x.since)) ∧
    r.2 = ∑ i, ((s.inner.flows i).packets.filter fun x => decide (age ≤ now - x.since)).length ∧
    r.1.stale = s.inner.stale + r.2 := by
  intro s now r
  have htimed := Timed.run divSqrt start ops
  have hswept := dropOlderThan_swept s.inner now age
  rw [show s.inner.dropOlderThan now age = r from rfl] at hswept
  clear_value r
  obtain ⟨hpackets, hcount, hstale⟩ := hswept
  have hyoung : ∀ i, (s.inner.flows i).packets.dropWhile (isOld now age) =
      (s.inner.flows i).packets.filter fun x => decide (¬age ≤ now - x.since) := by
    intro i
    rw [htimed.old_first now age i]
    refine List.filter_congr fun x _ => ?_
    exact (decide_not (p := age ≤ now - x.since)).symm
  refine ⟨fun i => (hpackets i).trans (hyoung i), ?_, hstale⟩
  have hboth : ∀ i, ((s.inner.flows i).packets.filter fun x => decide (age ≤ now - x.since)).length +
      ((s.inner.flows i).packets.dropWhile (isOld now age)).length =
      (s.inner.flows i).packets.length := by
    intro i
    rw [htimed.old_first now age i]
    exact (List.length_eq_length_filter_add (isOld now age)).symm
  have hsum : ∑ i, ((s.inner.flows i).packets.filter fun x => decide (age ≤ now - x.since)).length +
      ∑ i, ((s.inner.flows i).packets.dropWhile (isOld now age)).length =
      ∑ i, (s.inner.flows i).packets.length := by
    rw [← Finset.sum_add_distrib]
    exact Finset.sum_congr rfl fun i _ => hboth i
  exact Nat.add_right_cancel (hcount.trans hsum.symm)

end Masqr.Queue
