import Masqr.Queue.Order
import Masqr.Queue.Starvation

/-!
Overflow is taken from what caused it.

Room is made one packet at a time, each from the head of a bucket that no other has more bytes
than. While the queue is over its limit such a bucket has its share of the limit at least, so one
with less is never touched.
-/

namespace Masqr.Queue

open Masqr.Lib

/-- One drop for a packet of `len` bytes that does not fit: the head of the bucket `i`, which no
other has more bytes than. -/
structure Overflows (len : ℕ) (q : Inner) (i : Bucket) (x : Queued) (q' : Inner) : Prop where
  dropped : q.dropFattest = (true, q')
  full : LIMIT_BYTES < q.bytes + len
  largest : ∀ j, (q.flows j).bytes ≤ (q.flows i).bytes
  head : (q.flows i).packets = x :: (q'.flows i).packets
  others : ∀ j, j ≠ i → q'.flows j = q.flows j
  log : q'.log = .left i x.seq x.packet.length .overLimit :: q.log

/-- Drops, one after another, until the packet fits. -/
inductive MakesRoom (len : ℕ) : Inner → List (Bucket × Queued) → Inner → Prop
  | fits {q} : q.bytes + len ≤ LIMIT_BYTES → MakesRoom len q [] q
  | drop {q i x q1 drops q'} : Overflows len q i x q1 → MakesRoom len q1 drops q' →
      MakesRoom len q ((i, x) :: drops) q'

/-- The packets that left for overflow, the latest first. -/
def overflowed (log : List Event) : List (Bucket × ℕ) :=
  log.filterMap fun
    | .left i seq _ .overLimit => some (i, seq)
    | _ => none

lemma overflowed_append (log log' : List Event) :
    overflowed (log ++ log') = overflowed log ++ overflowed log' := List.filterMap_append

namespace Inner

variable {q q' : Inner} {i : Bucket} {x : Queued} {hand : Multiset ℕ} {lag len : ℕ}

/-- No bucket has more than all together. -/
lemma bytes_le_largest (h : Straight q hand lag)
    (hmax : ∀ j, (q.flows j).bytes ≤ (q.flows i).bytes) : q.bytes ≤ FLOWS * (q.flows i).bytes := by
  have hsum := Finset.sum_le_card_nsmul Finset.univ (fun j => (q.flows j).bytes)
    (q.flows i).bytes fun j _ => hmax j
  rw [Finset.card_univ, Fintype.card_fin, smul_eq_mul] at hsum
  rw [h.bytes]
  exact hsum

/-- There is a largest bucket. -/
lemma exists_largest (q : Inner) : ∃ i,
    maxByKey (fun i => (q.flows i).bytes) (List.finRange FLOWS) = some i ∧
      ∀ j, (q.flows j).bytes ≤ (q.flows i).bytes := by
  obtain ⟨i, hi⟩ : ∃ i, maxByKey (fun i => (q.flows i).bytes) (List.finRange FLOWS) = some i := by
    refine Option.ne_none_iff_exists'.1 fun hnone => ?_
    have hlength := congrArg List.length ((maxByKey_eq_none _).1 hnone)
    rw [List.length_finRange] at hlength
    cases hlength
  exact ⟨i, hi, fun j => (maxByKey_spec _ hi).2 j (List.mem_finRange j)⟩

/-- A queue with a byte in it gives up the head of a largest bucket. -/
lemma dropFattest_overflows (h : Straight q hand lag) (hfull : LIMIT_BYTES < q.bytes + len)
    (hlen : len ≤ LIMIT_BYTES) : ∃ i x q', Overflows len q i x q' := by
  obtain ⟨i, hi, hmax⟩ := q.exists_largest
  have hpos : 0 < (q.flows i).bytes := by
    have hle := bytes_le_largest h hmax
    by_contra hzero
    rw [Nat.eq_zero_of_not_pos hzero] at hle
    omega
  obtain ⟨⟨x, q1⟩, hpop⟩ : ∃ popped, q.popFront i = some popped := by
    refine Option.ne_none_iff_exists'.1 fun hnone => ?_
    have hbytes := h.flowBytes i
    rw [popFront_none hnone] at hbytes
    exact absurd hbytes hpos.ne'
  have hhead := popFront_head hpop
  obtain ⟨hothers, -, hbytes, hlog, -⟩ := popFront_keeps hpop
  refine ⟨i, x, { q1 with overLimit := q1.overLimit + 1 }.note
    (.left i x.seq x.packet.length .overLimit), ?_, hfull, hmax, hhead, hothers, ?_⟩
  · have hpicked : (maxByKey (fun i => (q.flows i).bytes) (List.finRange FLOWS)).filter
        (fun i => decide (0 < (q.flows i).bytes)) = some i := by
      rw [hi, Option.filter_some, if_pos (decide_eq_true hpos)]
    unfold dropFattest
    rw [hpicked]
    dsimp only
    rw [hpop]
  · exact congrArg _ hlog

/-- **Room is made by drops for overflow alone**, for a packet that can fit at all. -/
lemma makeRoom_makesRoom (h : Straight q hand lag) (hlen : len ≤ LIMIT_BYTES) :
    ∃ drops, MakesRoom len q drops ((makeRoom len).run q) := by
  refine (makeRoom len).run_rule (fun q r => Straight q hand lag → ∃ drops, MakesRoom len q drops r)
    (fun q r hb h => ?_) (fun q q' r hb ih h => ?_) q h
  · cases makeRoom_turn hb with
    | fits hfits => exact ⟨[], .fits hfits⟩
    | nothing hover hnone =>
      obtain ⟨i, x, q', hdrop⟩ := dropFattest_overflows h hover hlen
      rw [hdrop.dropped] at hnone
      cases hnone
    | stuck hdropped hsame => exact absurd (dropFattest_progress h hdropped) hsame
  · cases makeRoom_turn hb with
    | dropped hover =>
      obtain ⟨i, x, q1, hdrop⟩ := dropFattest_overflows h hover hlen
      obtain ⟨drops, hrest⟩ := ih (dropFattest_straight h)
      rw [hdrop.dropped] at hrest
      exact ⟨(i, x) :: drops, .drop hdrop hrest⟩

end Inner

namespace MakesRoom

variable {q q' : Inner} {drops : List (Bucket × Queued)} {i : Bucket} {len : ℕ}

lemma fits_after (h : MakesRoom len q drops q') : q'.bytes + len ≤ LIMIT_BYTES := by
  induction h with
  | fits hfits => exact hfits
  | drop _ _ ih => exact ih

lemma nil_of_fits (h : MakesRoom len q drops q') (hfits : q.bytes + len ≤ LIMIT_BYTES) :
    drops = [] := by
  cases h with
  | fits _ => rfl
  | drop hdrop _ => exact absurd hfits (not_le.2 hdrop.full)

/-- The drops are what the log says left for overflow. -/
lemma log (h : MakesRoom len q drops q') :
    ∃ more, q'.log = more ++ q.log ∧
      overflowed more = (drops.map fun drop => (drop.1, drop.2.seq)).reverse := by
  induction h with
  | fits _ => exact ⟨[], rfl, rfl⟩
  | @drop q i x q1 drops q' hdrop _ ih =>
    obtain ⟨more, hlog, hmore⟩ := ih
    refine ⟨more ++ [.left i x.seq x.packet.length .overLimit], ?_, ?_⟩
    · rw [hlog, hdrop.log, List.append_assoc]
      rfl
    · rw [overflowed_append, hmore, List.map_cons, List.reverse_cons]
      rfl

/-- What is dropped was waiting. -/
lemma waited (h : MakesRoom len q drops q') :
    ∀ drop ∈ drops, drop.2 ∈ (q.flows drop.1).packets := by
  induction h with
  | fits _ => exact List.forall_mem_nil _
  | @drop q i x q1 drops q' hdrop _ ih =>
    refine List.forall_mem_cons.2 ⟨?_, fun drop hmem => ?_⟩
    · rw [hdrop.head]
      exact List.mem_cons_self
    · have hin := ih drop hmem
      by_cases hi : drop.1 = i
      · rw [hi] at hin ⊢
        rw [hdrop.head]
        exact List.mem_cons_of_mem _ hin
      · rw [hdrop.others _ hi] at hin
        exact hin

end MakesRoom

/-- A bucket with less than its share of the room is not the largest. -/
lemma Overflows.ne_of_small {q q' : Inner} {i j : Bucket} {x : Queued} {len : ℕ}
    {hand : Multiset ℕ} {lag : ℕ} (h : Overflows len q i x q') (hs : Straight q hand lag)
    (hsmall : (q.flows j).bytes * FLOWS < LIMIT_BYTES - len) : j ≠ i := by
  rintro rfl
  have hle := Inner.bytes_le_largest hs h.largest
  have hfull := h.full
  rw [Nat.mul_comm] at hle
  omega

/-- Nothing is dropped from a bucket with less than its share of the room. -/
lemma MakesRoom.spares {q q' : Inner} {drops : List (Bucket × Queued)} {j : Bucket} {len : ℕ}
    {hand : Multiset ℕ} {lag : ℕ} (h : MakesRoom len q drops q') (hs : Straight q hand lag)
    (hsmall : (q.flows j).bytes * FLOWS < LIMIT_BYTES - len) :
    q'.flows j = q.flows j ∧ ∀ drop ∈ drops, drop.1 ≠ j := by
  induction h with
  | fits _ => exact ⟨rfl, List.forall_mem_nil _⟩
  | @drop q i x q1 drops q' hdrop _ ih =>
    have hj := hdrop.ne_of_small hs hsmall
    have hsame := hdrop.others j hj
    have hs1 : Straight q1 hand lag := by
      have hafter := Inner.dropFattest_straight hs
      rwa [hdrop.dropped] at hafter
    obtain ⟨hkept, hnot⟩ := ih hs1 (by rwa [hsame])
    exact ⟨hkept.trans hsame, List.forall_mem_cons.2 ⟨hj.symm, hnot⟩⟩

/-- Thinning drops nothing for overflow, and leaves no more bytes than there were. -/
lemma thinFor_kept (q : Inner) (i : Bucket) (packet : Packet) :
    (q.thinFor i packet).bytes ≤ q.bytes ∧
      ∃ more, (q.thinFor i packet).log = more ++ q.log ∧ overflowed more = [] := by
  refine Inner.thinFor_rule (I := fun s => s.bytes ≤ q.bytes ∧
    ∃ more, s.log = more ++ q.log ∧ overflowed more = []) (fun s k hs => ?_) packet
    ⟨Nat.le_refl _, [], rfl, rfl⟩
  obtain ⟨hle, more, hlog, hnone⟩ := hs
  unfold Inner.thinOne
  split
  · exact ⟨hle, more, hlog, hnone⟩
  · next x s1 hremove =>
    obtain ⟨-, rfl⟩ := Inner.remove_cases hremove
    refine ⟨(Nat.sub_le _ _).trans hle, .left i x.seq x.packet.length .thinned :: more, ?_, ?_⟩
    · exact congrArg _ hlog
    · exact hnone

/-- **Overflow is taken only from what caused it.** For every packet that can fit, in every state
the queue can come to: room is made by drops each of which takes the head of a bucket that no
other has more bytes than, while the packet does not fit; they are the drops for overflow the log
shows; there is none if the packet fits; none is of the packet that arrives, which waits at the end
of its bucket; a bucket with less than its share of the room loses nothing; and the queue is
within its limit. -/
theorem overflow_spares (divSqrt : Duration → ℕ → Duration) (start : Instant)
    (ops : List (Duration × Op)) (packet : Packet) (now : Instant)
    (hlen : packet.length ≤ LIMIT_BYTES) :
    let q := (Sim.run divSqrt (.init start) ops).inner
    let q' := q.enqueue packet now
    q'.bytes ≤ LIMIT_BYTES ∧
    ∃ drops q1, MakesRoom packet.length q drops q1 ∧
      q' = ((q1.thinFor (flowOf packet) packet).push (flowOf packet) packet now).join
        (flowOf packet) ∧
      (∃ more, q'.log = more ++ q.log ∧
        overflowed more = (drops.map fun drop => (drop.1, drop.2.seq)).reverse) ∧
      (q.bytes + packet.length ≤ LIMIT_BYTES → drops = []) ∧
      (∀ drop ∈ drops, drop.2.seq < q.arrived.length) ∧
      (q'.flows (flowOf packet)).packets.getLast? = some ⟨packet, now, q.arrived.length⟩ ∧
      ∀ i, (q.flows i).bytes * FLOWS < LIMIT_BYTES - packet.length →
        (q1.flows i).packets = (q.flows i).packets ∧ ∀ drop ∈ drops, drop.1 ≠ i := by
  intro q q'
  have hbooks := Books.run divSqrt start ops
  have horder := InOrder.run divSqrt start ops
  obtain ⟨drops, hroom⟩ := Inner.makeRoom_makesRoom hbooks.straight hlen
  have hfits := hroom.fits_after
  obtain ⟨hbytes, more, hlog, hnone⟩ :=
    thinFor_kept ((Inner.makeRoom packet.length).run q) (flowOf packet) packet
  obtain ⟨more', hlog', hdrops⟩ := hroom.log
  refine ⟨?_, drops, (Inner.makeRoom packet.length).run q, hroom, rfl, ?_, hroom.nil_of_fits, ?_,
    ?_, ?_⟩
  · calc q'.bytes
        = (((Inner.makeRoom packet.length).run q).thinFor (flowOf packet) packet).bytes +
            packet.length := Inner.join_bytes _ _
      _ ≤ ((Inner.makeRoom packet.length).run q).bytes + packet.length :=
        Nat.add_le_add_right hbytes _
      _ ≤ LIMIT_BYTES := hfits
  · refine ⟨more ++ more', ?_, ?_⟩
    · calc q'.log
          = (((Inner.makeRoom packet.length).run q).thinFor (flowOf packet) packet).log :=
            Inner.join_log _ _
        _ = more ++ more' ++ q.log := by rw [hlog, hlog', List.append_assoc]
    · rw [overflowed_append, hnone, hdrops, List.nil_append]
  · intro drop hmem
    exact filedIn_lt (horder.filed _ _ (hroom.waited drop hmem))
  · obtain ⟨q2, hdrained, hpackets⟩ := q.enqueue_packets packet now
    rw [hpackets, if_pos rfl, List.getLast?_concat, hdrained.arrived]
  · intro i hsmall
    obtain ⟨hsame, hnot⟩ := hroom.spares hbooks.straight hsmall
    exact ⟨by rw [hsame], hnot⟩

/-- A queue that is full of one packet loses it to the next. -/
theorem overflow_spares_full :
    ((Sim.run divRoot (.init 0) [(0, .enqueue (List.replicate LIMIT_BYTES 0))]).inner.enqueue
      (probe 1) 0).bytes ≤ LIMIT_BYTES :=
  (overflow_spares divRoot 0 [(0, .enqueue (List.replicate LIMIT_BYTES 0))] (probe 1) 0
    (by decide)).1

end Masqr.Queue
