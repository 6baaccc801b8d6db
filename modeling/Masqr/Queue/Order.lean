import Masqr.Queue.Codel
import Masqr.Queue.Connection

/-!
The queue keeps the packets of a bucket in order.

Packets are filed at the end of a bucket and taken out anywhere, so a bucket holds them in the
order they arrived in; the one it hands out was before all it still holds.
-/

namespace Masqr.Queue

open Masqr.Lib

namespace Inner

variable {q q' : Inner} {i : Bucket} {now : Instant} {x : Queued} {o : Bool}

/-! ### One packet after another -/

/-- What CoDel delivers is the packet in hand or one of those behind it, and the bucket keeps only
what is behind that. -/
lemma sends_order {r : Option Queued} (h : Sends i now q x o q' r) : ∀ y ∈ r,
    ∃ z, z.seq = y.seq ∧ (z :: (q'.flows i).packets).Sublist (x :: (q.flows i).packets) := by
  induction h with
  | @pass start x overdue final hpaced =>
    intro y hy
    cases hy
    exact ⟨x, rfl, by rw [(hpaced.retuned.flow i).1]⟩
  | @mark start x before y after final hbefore hmark hafter =>
    intro y' hy
    cases hy
    obtain ⟨-, hseq, -, rfl⟩ := mark_cases hmark
    have hsame : (final.flows i).packets = (start.flows i).packets :=
      (hafter.retuned.flow i).1.trans (hbefore.retuned.flow i).1
    exact ⟨x, hseq.symm, by rw [hsame]⟩
  | @drop start x before y overdue after more final r hbefore htake hafter _ ih =>
    intro y' hy
    obtain ⟨z, hseq, hsub⟩ := ih y' hy
    have hpackets : y :: (more.flows i).packets = (start.flows i).packets := by
      rw [(hafter.retuned.flow i).1, ← (hbefore.retuned.flow i).1]
      exact (take_taken htake).packets.symm
    rw [hpackets] at hsub
    exact ⟨z, hseq, hsub.cons x⟩
  | dry _ _ _ =>
    intro y hy
    cases hy

variable (divSqrt : Duration → ℕ → Duration)

lemma codel_order (h : q.codel divSqrt i now = (q', some x)) :
    ∃ z, z.seq = x.seq ∧ (z :: (q'.flows i).packets).Sublist (q.flows i).packets := by
  cases htake : q.take i now with
  | none =>
    rw [codel_empty divSqrt (take_none htake)] at h
    cases h
  | some taken =>
    obtain ⟨y, o, q1⟩ := taken
    have hsends := codel_sends divSqrt htake
    rw [h] at hsends
    rw [(take_taken htake).packets]
    exact sends_order hsends x rfl

/-- The packet handed out was ahead of what its bucket still holds, and nothing came into any
bucket. -/
structure InTurn (q : Inner) (r : Inner × Option Queued) : Prop where
  packets : ∀ i, (r.1.flows i).packets.Sublist (q.flows i).packets
  first : ∀ x ∈ r.2, ∃ i z, z.seq = x.seq ∧
    (z :: (r.1.flows i).packets).Sublist (q.flows i).packets

/-- A turn that sends nothing moves no packet. -/
lemma turn_sublist (h : Turn divSqrt now q (.inl q')) (j : Bucket) :
    (q'.flows j).packets.Sublist (q.flows j).packets := by
  cases h with
  | @rotate i wasFresh _ _ =>
    rw [rotate_packets]
    exact .refl _
  | @dry i wasFresh after _ _ hcodel =>
    have hdrained := drained_of_codel divSqrt hcodel
    rw [unlist_packets]
    exact hdrained.packets j

lemma turn_inTurn {x : Option Queued} (h : Turn divSqrt now q (.inr (q', x))) :
    InTurn q (q', x) := by
  cases h with
  | idle _ => exact ⟨fun i => .refl _, fun x hx => absurd hx (Option.not_mem_none x)⟩
  | @deliver i wasFresh after x _ _ hcodel =>
    have hdrained := drained_of_codel divSqrt hcodel
    refine ⟨fun j => ?_, fun y hy => ?_⟩
    · rw [deliver_packets]
      exact hdrained.packets j
    · cases hy
      obtain ⟨z, hseq, hsub⟩ := codel_order divSqrt hcodel
      refine ⟨i, z, hseq, ?_⟩
      rw [deliver_packets]
      exact hsub

lemma dequeue_inTurn (q : Inner) (now : Instant) : InTurn q (q.dequeue divSqrt now) := by
  refine dequeue_rule divSqrt
    (I := fun q₁ => ∀ i, (q₁.flows i).packets.Sublist (q.flows i).packets) (Q := InTurn q)
    (fun q₁ r hq ht _ => ?_) fun i => .refl _
  rcases r with q₂ | ⟨q₂, x⟩
  · exact fun i => (turn_sublist divSqrt ht i).trans (hq i)
  · have hlast := turn_inTurn divSqrt ht
    refine ⟨fun i => (hlast.packets i).trans (hq i), fun y hy => ?_⟩
    obtain ⟨i, z, hseq, hz⟩ := hlast.first y hy
    exact ⟨i, z, hseq, hz.trans (hq i)⟩

end Inner

/-! ### Runs -/

/-- The bucket a packet was filed in, by its place among the packets enqueued. -/
def filedIn (arrived : List Packet) (seq : ℕ) : Option Bucket := (arrived[seq]?).map flowOf

/-- The packets of a bucket that were handed out, and those it holds. -/
def lineOf (s : Sim) (i : Bucket) : List ℕ :=
  (s.out.map Queued.seq).filter (fun seq => filedIn s.inner.arrived seq = some i) ++
    (s.inner.flows i).packets.map Queued.seq

/-- Each bucket holds its own, and has handed out its packets in the order of arrival, before all
it holds. -/
structure InOrder (s : Sim) : Prop where
  filed : ∀ i, ∀ x ∈ (s.inner.flows i).packets, filedIn s.inner.arrived x.seq = some i
  known : ∀ x ∈ s.out, x.seq < s.inner.arrived.length
  line : ∀ i, (lineOf s i).Pairwise (· < ·)

lemma filedIn_append {arrived : List Packet} {seq : ℕ} (h : seq < arrived.length)
    (more : List Packet) : filedIn (arrived ++ more) seq = filedIn arrived seq := by
  unfold filedIn
  rw [List.getElem?_append_left h]

lemma filedIn_lt {arrived : List Packet} {seq : ℕ} {i : Bucket} (h : filedIn arrived seq = some i) :
    seq < arrived.length := by
  obtain ⟨p, hp, -⟩ := Option.map_eq_some_iff.1 h
  exact (List.getElem?_eq_some_iff.1 hp).1

namespace InOrder

variable {s s' : Sim}

lemma lt_length (h : InOrder s) {i : Bucket} {seq : ℕ} (hmem : seq ∈ lineOf s i) :
    seq < s.inner.arrived.length := by
  rcases List.mem_append.1 hmem with hout | hin
  · obtain ⟨x, hx, rfl⟩ := List.mem_map.1 (List.mem_filter.1 hout).1
    exact h.known x hx
  · obtain ⟨x, hx, rfl⟩ := List.mem_map.1 hin
    exact filedIn_lt (h.filed i x hx)

/-- Packets are taken out, and none handed out. -/
lemma drained (h : InOrder s) (hq : Drained s.inner s'.inner) (hout : s'.out = s.out) :
    InOrder s' := by
  refine ⟨fun i x hx => ?_, fun x hx => ?_, fun i => ?_⟩
  · rw [hq.arrived]
    exact h.filed i x ((hq.packets i).subset hx)
  · rw [hq.arrived]
    exact h.known x (hout ▸ hx)
  · refine (h.line i).sublist ?_
    unfold lineOf
    rw [hout, hq.arrived]
    exact (List.Sublist.refl _).append ((hq.packets i).map Queued.seq)

/-- A packet arrives at the end of its bucket. -/
lemma push (h : InOrder s) {packet : Packet} {now : Instant} (hout : s'.out = s.out)
    (harrived : s'.inner.arrived = s.inner.arrived ++ [packet])
    (hpackets : ∀ i, (s'.inner.flows i).packets = (s.inner.flows i).packets ++
      if i = flowOf packet then [⟨packet, now, s.inner.arrived.length⟩] else []) :
    InOrder s' := by
  have hnew : filedIn s'.inner.arrived s.inner.arrived.length = some (flowOf packet) := by
    rw [harrived]
    simp [filedIn]
  refine ⟨fun i x hx => ?_, fun x hx => ?_, fun i => ?_⟩
  · rw [hpackets, List.mem_append] at hx
    rcases hx with hx | hx
    · have hfiled := h.filed i x hx
      rw [harrived, filedIn_append (filedIn_lt hfiled)]
      exact hfiled
    · split_ifs at hx with hi
      · rw [List.mem_singleton.1 hx, hi]
        exact hnew
      · cases hx
  · have hlt := h.known x (hout ▸ hx)
    rw [harrived, List.length_append]
    omega
  · have hsame : (s'.out.map Queued.seq).filter (fun seq => filedIn s'.inner.arrived seq = some i) =
        (s.out.map Queued.seq).filter (fun seq => filedIn s.inner.arrived seq = some i) := by
      rw [hout]
      refine List.filter_congr fun seq hseq => ?_
      obtain ⟨x, hx, rfl⟩ := List.mem_map.1 hseq
      rw [harrived, filedIn_append (h.known x hx)]
    have hline : lineOf s' i = lineOf s i ++
        if i = flowOf packet then [s.inner.arrived.length] else [] := by
      unfold lineOf
      rw [hsame, hpackets, List.map_append, ← List.append_assoc]
      split_ifs <;> rfl
    rw [hline, List.pairwise_append]
    refine ⟨h.line i, ?_, fun seq hseq new hmem => ?_⟩
    · split_ifs <;> simp
    · split_ifs at hmem
      · rw [List.mem_singleton.1 hmem]
        exact h.lt_length hseq
      · cases hmem

/-- A packet is handed out that was ahead of what its bucket still holds. -/
lemma send (h : InOrder s) {r : Option Queued} (hr : Inner.InTurn s.inner (s'.inner, r))
    (hout : s'.out = s.out ++ r.toList) (harrived : s'.inner.arrived = s.inner.arrived) :
    InOrder s' := by
  have hfirst : ∀ x ∈ r, ∃ i, filedIn s.inner.arrived x.seq = some i ∧
      ((x.seq :: (s'.inner.flows i).packets.map Queued.seq).Sublist
        ((s.inner.flows i).packets.map Queued.seq)) := by
    intro x hx
    obtain ⟨i, z, hseq, hsub⟩ := hr.first x hx
    refine ⟨i, hseq ▸ h.filed i z (hsub.subset List.mem_cons_self), ?_⟩
    rw [← hseq]
    exact hsub.map Queued.seq
  refine ⟨fun i x hx => ?_, fun x hx => ?_, fun i => ?_⟩
  · rw [harrived]
    exact h.filed i x ((hr.packets i).subset hx)
  · rw [harrived]
    rw [hout, List.mem_append, Option.mem_toList] at hx
    rcases hx with hx | hx
    · exact h.known x hx
    · obtain ⟨i, hfiled, -⟩ := hfirst x hx
      exact filedIn_lt hfiled
  · refine (h.line i).sublist ?_
    unfold lineOf
    rw [hout, harrived, List.map_append, List.filter_append, List.append_assoc]
    refine (List.Sublist.refl _).append ?_
    obtain _ | x := r
    · exact (hr.packets i).map Queued.seq
    · obtain ⟨j, hfiled, hsub⟩ := hfirst x rfl
      by_cases hj : j = i
      · subst hj
        simpa [hfiled] using hsub
      · simpa [hfiled, hj] using (hr.packets i).map Queued.seq

end InOrder

/-- What an arrival leaves in the buckets: some packets taken out, and the new one at the end of
its bucket. -/
lemma Inner.enqueue_packets (q : Inner) (packet : Packet) (now : Instant) :
    ∃ q2, Drained q q2 ∧ ∀ i, ((q.enqueue packet now).flows i).packets = (q2.flows i).packets ++
      if i = flowOf packet then [⟨packet, now, q2.arrived.length⟩] else [] := by
  obtain ⟨q2, hdrained, hjoins⟩ := q.enqueue_joins packet now
  refine ⟨q2, hdrained, fun i => ?_⟩
  rw [hjoins]
  rw [join_packets, push_flows]
  by_cases hi : i = flowOf packet
  · rw [if_pos hi, hi, Function.update_self]
  · rw [if_neg hi, Function.update_of_ne hi, List.append_nil]

namespace InOrder

variable (divSqrt : Duration → ℕ → Duration)

lemma init (start : Instant) : InOrder (.init start) :=
  ⟨fun i x hx => by simp [Sim.init, Inner.new] at hx, fun x hx => by simp [Sim.init] at hx,
    fun i => by simp [lineOf, Sim.init, Inner.new]⟩

lemma step {s : Sim} (h : InOrder s) (op : Duration × Op) : InOrder (s.step divSqrt op) := by
  obtain ⟨wait, packet | _ | age | rtt⟩ := op
  · obtain ⟨q2, hdrained, hpackets⟩ := s.inner.enqueue_packets packet (s.clock + wait)
    have hroom : InOrder ⟨q2, s.clock, s.out⟩ := h.drained hdrained rfl
    refine hroom.push rfl ?_ hpackets
    rw [hdrained.arrived]
    exact Inner.enqueue_arrived s.inner packet _
  · exact h.send (Inner.dequeue_inTurn divSqrt s.inner (s.clock + wait)) rfl
      (Inner.dequeue_arrived divSqrt s.inner _)
  · have hdrained : Drained s.inner (s.step divSqrt (wait, .dropOlderThan age)).inner := by
      simp only [Sim.step_dropOlderThan]
      exact Inner.dropOlderThan_drained s.inner (s.clock + wait) age
    have hout : (s.step divSqrt (wait, .dropOlderThan age)).out = s.out := by
      rw [Sim.step_dropOlderThan]
    exact h.drained hdrained hout
  · exact ⟨h.filed, h.known, h.line⟩

lemma run (start : Instant) (ops : List (Duration × Op)) :
    InOrder (Sim.run divSqrt (.init start) ops) :=
  Sim.run_inv divSqrt (fun _ op h => h.step divSqrt op) (init start) ops

end InOrder

/-- **The queue never reorders a connection.** Packets of one connection share a bucket, and of two
packets of one bucket that are handed out the one enqueued first is handed out first. A packet
handed out is known by its place among those enqueued. -/
theorem queue_keeps_order (divSqrt : Duration → ℕ → Duration) (start : Instant)
    (ops : List (Duration × Op)) :
    (∀ a b, sameConnection a b = true → flowOf a = flowOf b) ∧
    ∀ (m n : ℕ) p q, (enqueued ops)[m]? = some p → (enqueued ops)[n]? = some q → m < n →
      flowOf p = flowOf q →
      ∀ (j k : ℕ), (Sim.run divSqrt (.init start) ops).out[j]?.map Queued.seq = some m →
        (Sim.run divSqrt (.init start) ops).out[k]?.map Queued.seq = some n → j < k := by
  refine ⟨fun a b => flowOf_sameConnection, ?_⟩
  intro m n p q hp hq hmn hflow j k hj hk
  have horder := InOrder.run divSqrt start ops
  have harrived : (Sim.run divSqrt (.init start) ops).inner.arrived = enqueued ops :=
    (Sim.run_arrived divSqrt (.init start) ops).trans (List.nil_append _)
  generalize Sim.run divSqrt (.init start) ops = s at *
  rw [← List.getElem?_map] at hj hk
  have hfiledm : filedIn s.inner.arrived m = some (flowOf q) := by
    rw [harrived, filedIn, hp, Option.map_some, hflow]
  have hfiledn : filedIn s.inner.arrived n = some (flowOf q) := by
    rw [harrived, filedIn, hq, Option.map_some]
  have hline : ((s.out.map Queued.seq).filter fun seq =>
      filedIn s.inner.arrived seq = some (flowOf q)).Pairwise (· < ·) :=
    (horder.line (flowOf q)).sublist (List.sublist_append_left _ _)
  rw [List.pairwise_filter] at hline
  obtain ⟨hjlt, hjm⟩ := List.getElem?_eq_some_iff.1 hj
  obtain ⟨hklt, hkn⟩ := List.getElem?_eq_some_iff.1 hk
  by_contra hkj
  rcases Nat.lt_or_eq_of_le (Nat.not_lt.1 hkj) with hlt | rfl
  · have hback := List.pairwise_iff_getElem.1 hline k j hklt hjlt hlt
    rw [hjm, hkn] at hback
    have hnm : n < m := hback (by simpa using hfiledn) (by simpa using hfiledm)
    omega
  · omega

end Masqr.Queue
